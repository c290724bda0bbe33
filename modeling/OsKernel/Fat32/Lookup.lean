import OsKernel.Fat32.Read

/-!
# What a lookup decides on

`read` and `read_directory` look for the name of the request. The first entry with that name
decides: `read` compares its extension and does not look at its attribute, `read_directory` looks at
its attribute and not at its extension (`readEntry_cases`). So `read` returns 0 for a folder, and
with two files that differ in the extension only it does not find the second one. Where no entry has
the name, the first empty slot is compared as well, and its clusters are copied if it matches.
-/

namespace OsKernel

open Lib

/-! ## Directories that can be searched -/

/-- A directory in order: it takes one cluster, its table is in order, and the chains of its entries
end. -/
structure FileSystem.ReadableDir (fs : FileSystem) (p : UInt32) : Prop where
  lt : p.toNat < 512
  last : fs.clusterMap.next p = fatEndOfFile
  table : TableOk (fs.tableAt p)
  chain : ∀ e ∈ fs.entries p, ∃ l, fs.Chain e l ∧ ∀ c ∈ l, c.toNat < 512

/-- The live directories of a file system in order can be searched. -/
theorem FileSystem.WellFormed.readableDir {fs : FileSystem} {p : UInt32} (h : fs.WellFormed)
    (hp : fs.LiveDir p) : fs.ReadableDir p where
  lt := h.sound.live_lt hp
  last := by
    rcases h.sound.volume.live_owned hp with rfl | ⟨b, e, ho, hf, rfl⟩
    · exact h.map2
    · obtain ⟨l, hl, -, hlen⟩ := h.sound.chain ho.1 ho.2.1
      have hone : e.clusterCount = 1 := if_pos hf
      cases hl with
      | last hstop => exact hstop
      | cons _ ht =>
        rw [hone, List.length_cons] at hlen
        exact absurd (List.length_eq_zero_iff.1 (Nat.succ.inj hlen)) ht.ne_nil
  table := h.table hp
  chain e he := by
    obtain ⟨l, hl, hdata, -⟩ := h.sound.chain hp he
    exact ⟨l, hl, fun c hc => (hdata c hc).2⟩

/-- `i` is the first used slot with the name. -/
def IsFirstNamed (t : DirectoryTable) (name : Vector UInt8 8) (i : Fin 64) : Prop :=
  2 ≤ i.val ∧ (t i).live = true ∧ (t i).name = name ∧
    ∀ j < i, 2 ≤ j.val → (t j).live = true → (t j).name ≠ name

section Table
variable {t : DirectoryTable} {name : Vector UInt8 8} {i j : Fin 64}

theorem IsFirstNamed.unique (hi : IsFirstNamed t name i) (hj : IsFirstNamed t name j) : i = j := by
  rcases lt_trichotomy i j with h | h | h
  · exact absurd hi.2.2.1 (hj.2.2.2 i h hi.1 hi.2.1)
  · exact h
  · exact absurd hj.2.2.1 (hi.2.2.2 j h hj.1 hj.2.1)

/-- The loop stops at the first entry with the name. -/
theorem TableOk.stopsAt_named (ht : TableOk t) (hi : IsFirstNamed t name i) : StopsAt t name i := by
  obtain ⟨hlo, hlive, hname, hbefore⟩ := hi
  refine ⟨hlo, .inl hname, fun j hj hj' => ?_⟩
  have hl := ht.packed j i hj' hj.le hlive
  exact ⟨hl, hbefore j hj hj' hl⟩

/-- Without an entry of the name the loop stops at the first empty slot. -/
theorem stopsAt_unused (hi : IsFirstUnused 2 DirectoryEntry.live t i)
    (hnone : ∀ e ∈ records 2 DirectoryEntry.live t, e.name ≠ name) : StopsAt t name i := by
  refine ⟨hi.1, .inr hi.2.1, fun j hj hlo => ?_⟩
  have hlive := hi.2.2 j hj hlo
  exact ⟨hlive, hnone _ (slot_mem_records hlo hlive)⟩

/-- A name that occurs has a first entry. -/
theorem exists_firstNamed {e : DirectoryEntry} (he : e ∈ records 2 DirectoryEntry.live t) :
    ∃ i, IsFirstNamed t e.name i := by
  obtain ⟨k, hk, rfl, hlive⟩ := he
  obtain ⟨i, hi⟩ := findFrom_isSome (i := k)
    (p := fun j => (t j).live && decide ((t j).name = (t k).name)) hk (by simp [hlive])
  obtain ⟨hlo, hp, hbefore⟩ := findFrom_eq_some.1 hi
  have hp : (t i).live = true ∧ (t i).name = (t k).name := by simpa using hp
  refine ⟨i, hlo, hp.1, hp.2, fun j hj hj' hl => ?_⟩
  simpa [hl] using hbefore j hj hj'

end Table

/-! ## The loop -/

section Copy
variable {fs : FileSystem} {c remaining : UInt32} {l : List UInt32} {steps : Nat}

/-- A copy along a chain ends, whatever the size of the buffer. -/
theorem copyLongCluster_ends (hl : IsChain fs.clusterMap.next fatEndOfFile c l)
    (hlt : ∀ d ∈ l, d.toNat < 512) (hsteps : l.length ≤ steps) :
    ∃ stored, copyLongCluster fs steps remaining c = .ok stored := by
  induction steps generalizing c remaining l with
  | zero =>
    obtain ⟨t, rfl⟩ := hl.eq_cons
    simp at hsteps
  | succ steps ih =>
    unfold copyLongCluster
    by_cases hrem : remaining = 0
    · exact ⟨[], if_pos hrem⟩
    · rw [if_neg hrem, ClusterMap.get_eq (hlt c hl.head_mem), ok_bind]
      cases hl with
      | last hstop => exact ⟨_, if_neg (not_not.2 hstop)⟩
      | @cons _ l hne ht =>
        rw [List.length_cons] at hsteps
        obtain ⟨rest, hrest⟩ := @ih _ (remaining - 2048) l ht
          (fun d hd => hlt d (List.mem_cons_of_mem _ hd)) (by omega)
        rw [if_pos hne, hrest]
        exact ⟨_, rfl⟩

/-- A copy of some bytes stores a cluster. -/
theorem copyLongCluster_ne_nil (hrem : remaining ≠ 0) :
    copyLongCluster fs steps remaining c ≠ .ok [] := by
  intro h
  cases steps with
  | zero => cases h
  | succ steps =>
    rw [copyLongCluster, if_neg hrem] at h
    obtain ⟨next, -, h⟩ := bind_eq_ok.1 h
    split at h
    · obtain ⟨rest, -, h⟩ := bind_eq_ok.1 h
      cases h
    · cases h

end Copy

section Lookup
variable {fs : FileSystem} {request : DriverRequest} {accepts : DirectoryEntry → Bool} {i : Fin 64}

/-- Without an entry of the name and without an empty slot the loop runs off the table. -/
theorem readEntry_full (h : fs.ReadableDir request.parentClusterNumber)
    (hfull : fs.Full request.parentClusterNumber)
    (hnone : ∀ e ∈ fs.entries request.parentClusterNumber, e.name ≠ request.name) :
    readEntry accepts request fs =
      .ok ⟨2, [], fs.readDirTableBuf request.parentClusterNumber⟩ := by
  have hend : request.parentClusterNumber ≠ fatEndOfFile := ne_endOfFile_of_lt h.lt
  have hfind : findFrom 2 (fun j =>
      decide (((fs.readDirTableBuf request.parentClusterNumber).dirTableBuf j).name =
        request.name) ||
        !((fs.readDirTableBuf request.parentClusterNumber).dirTableBuf j).live) = none := by
    refine findFrom_eq_none.2 fun j hj => ?_
    have hlive := hfull j hj
    simp [hlive, hnone _ (slot_mem_records hj hlive)]
  have hslots : readSlots accepts request (fs.readDirTableBuf request.parentClusterNumber) 2 =
      .ok (2, []) := by
    unfold readSlots
    rw [hfind]
  unfold readEntry
  dsimp only
  rw [if_neg (by simp [h.table.self]), readLoop, if_neg hend, hslots]
  simp only [ok_bind, ClusterMap.get_eq h.lt, FileSystem.clusterMap_readDirTableBuf, h.last,
    ↓reduceIte]
  rw [readLoop, if_pos rfl]
  rfl

/-- Where no entry has the name, the first empty slot does not make the loop copy anything. -/
def QuietEnd (accepts : DirectoryEntry → Bool) (request : DriverRequest) (fs : FileSystem) : Prop :=
  (∀ e ∈ fs.entries request.parentClusterNumber, e.name ≠ request.name) →
  ∀ i, IsFirstUnused 2 DirectoryEntry.live (fs.tableAt request.parentClusterNumber) i →
    (fs.tableAt request.parentClusterNumber i).name = request.name →
    accepts (fs.tableAt request.parentClusterNumber i) = true → request.bufferSize = 0

/-- What a lookup comes to. -/
inductive LookupOutcome (accepts : DirectoryEntry → Bool) (request : DriverRequest)
    (fs : FileSystem) : Prop
  | found (i : Fin 64) (stored : List ClusterBuffer) :
      IsFirstNamed (fs.tableAt request.parentClusterNumber) request.name i →
      accepts (fs.tableAt request.parentClusterNumber i) = true →
      readEntry accepts request fs =
        .ok ⟨0, stored, fs.readDirTableBuf request.parentClusterNumber⟩ →
      LookupOutcome accepts request fs
  | other (i : Fin 64) :
      IsFirstNamed (fs.tableAt request.parentClusterNumber) request.name i →
      accepts (fs.tableAt request.parentClusterNumber i) = false →
      readEntry accepts request fs =
        .ok ⟨1, [], fs.readDirTableBuf request.parentClusterNumber⟩ →
      LookupOutcome accepts request fs
  | missing :
      (∀ e ∈ fs.entries request.parentClusterNumber, e.name ≠ request.name) →
      QuietEnd accepts request fs →
      readEntry accepts request fs =
        .ok ⟨2, [], fs.readDirTableBuf request.parentClusterNumber⟩ →
      LookupOutcome accepts request fs
  | stray :
      (∀ e ∈ fs.entries request.parentClusterNumber, e.name ≠ request.name) →
      ¬ QuietEnd accepts request fs →
      (∀ r, readEntry accepts request fs = .ok r → r.code = 2 ∧ r.stored ≠ []) →
      LookupOutcome accepts request fs

/-- The first entry with the name decides, and without one the first empty slot. -/
theorem readEntry_cases (accepts : DirectoryEntry → Bool)
    (h : fs.ReadableDir request.parentClusterNumber) : LookupOutcome accepts request fs := by
  by_cases hnamed : ∃ e ∈ fs.entries request.parentClusterNumber, e.name = request.name
  · obtain ⟨e, he, hname⟩ := hnamed
    obtain ⟨i, hi⟩ := exists_firstNamed he
    rw [hname] at hi
    have hrun : readEntry accepts request fs = _ :=
      readEntry_stopped h.table.self h.lt (h.table.stopsAt_named hi)
    obtain ⟨hlo, hlive, hiname, -⟩ := id hi
    cases haccepts : accepts (fs.tableAt request.parentClusterNumber i) with
    | true =>
      obtain ⟨l, hl, hlt⟩ := h.chain _ (slot_mem_records hlo hlive)
      have hsteps := length_le_clusterMapSize hl hlt
      obtain ⟨stored, hcopy⟩ := @copyLongCluster_ends
        (fs.readDirTableBuf request.parentClusterNumber) _ request.bufferSize l copySteps hl hlt
        (hsteps.trans (by decide))
      refine .found i stored hi haccepts ?_
      rw [hrun, readStopped, if_pos ⟨hiname, haccepts⟩, hcopy, hlive]
      rfl
    | false =>
      refine .other i hi haccepts ?_
      rw [hrun, readStopped, if_neg (by simp [haccepts]), hlive]
      rfl
  · have hnone : ∀ e ∈ fs.entries request.parentClusterNumber, e.name ≠ request.name :=
      fun e he hname => hnamed ⟨e, he, hname⟩
    by_cases hfull : fs.Full request.parentClusterNumber
    · refine .missing hnone (fun _ i hi => ?_) (readEntry_full h hfull hnone)
      exact absurd ((hfull i hi.1).symm.trans hi.2.1) (by decide)
    · obtain ⟨i, hi⟩ := FileSystem.exists_firstUnused hfull
      have hrun : readEntry accepts request fs = _ :=
        readEntry_stopped h.table.self h.lt (stopsAt_unused hi hnone)
      have hdead := hi.2.1
      by_cases hmatch : (fs.tableAt request.parentClusterNumber i).name = request.name ∧
          accepts (fs.tableAt request.parentClusterNumber i) = true
      · by_cases hsize : request.bufferSize = 0
        · refine .missing hnone (fun _ _ _ _ _ => hsize) ?_
          rw [hrun, readStopped, if_pos hmatch, hsize, copyLongCluster_zero, hdead]
          rfl
        · refine .stray hnone (fun hquiet => hsize (hquiet hnone i hi hmatch.1 hmatch.2)) ?_
          intro r hr
          rw [hrun, readStopped, if_pos hmatch, hdead] at hr
          obtain ⟨stored, hcopy, hr⟩ := bind_eq_ok.1 hr
          cases hr
          refine ⟨rfl, fun hnil => copyLongCluster_ne_nil hsize (hcopy.trans (congrArg _ hnil))⟩
      · refine .missing hnone (fun _ j hj hname haccepts => ?_) ?_
        · rw [hj.unique hi] at hname haccepts
          exact absurd ⟨hname, haccepts⟩ hmatch
        · rw [hrun, readStopped, if_neg hmatch, hdead]
          rfl

/-- `copy_long_cluster` does not use the buffer for tables. -/
theorem copyLongCluster_readDirTableBuf {steps : Nat} {remaining c d : UInt32} :
    copyLongCluster (fs.readDirTableBuf d) steps remaining c =
      copyLongCluster fs steps remaining c := by
  induction steps generalizing remaining c with
  | zero => rfl
  | succ steps ih =>
    simp only [copyLongCluster, ih]
    rfl

/-- `read` returns 0 for an entry whose name no other entry has. -/
theorem exists_read {e : DirectoryEntry} (h : fs.ReadableDir request.parentClusterNumber)
    (he : e ∈ fs.entries request.parentClusterNumber) (hkey : e.key = request.key)
    (hone : ∀ x ∈ fs.entries request.parentClusterNumber, x.name = request.name → x = e) :
    ∃ r, read request fs = .ok r ∧ r.code = 0 := by
  obtain ⟨hname, hext⟩ := Prod.mk.inj hkey
  have hcases : LookupOutcome _ request fs :=
    readEntry_cases (fun e => decide (e.ext = request.ext)) h
  cases hcases with
  | found i stored _ _ hread => exact ⟨_, hread, rfl⟩
  | other i hi haccepts =>
    have hslot := hone _ (slot_mem_records hi.1 hi.2.1) hi.2.2.1
    rw [hslot, hext] at haccepts
    simp at haccepts
  | missing hnone => exact absurd hname (hnone e he)
  | stray hnone => exact absurd hname (hnone e he)

/-- A `read` that returned 0 copied from the entry with the requested name and extension. -/
theorem copied_of_read {e : DirectoryEntry} {r : ReadResult}
    (ht : TableOk (fs.tableAt request.parentClusterNumber))
    (hlt : request.parentClusterNumber.toNat < 512)
    (he : e ∈ fs.entries request.parentClusterNumber) (hkey : e.key = request.key)
    (hread : read request fs = .ok r) (hcode : r.code = 0) :
    copyLongCluster fs copySteps request.bufferSize e.cluster = .ok r.stored := by
  obtain ⟨i, hi⟩ := exists_firstNamed he
  have hname : e.name = request.name := congrArg Prod.fst hkey
  rw [hname] at hi
  have hrun : readEntry (fun e => decide (e.ext = request.ext)) request fs = _ :=
    readEntry_stopped ht.self hlt (ht.stopsAt_named hi)
  rw [read, hrun, readStopped] at hread
  split at hread
  · next hfound =>
    have hslot : fs.tableAt request.parentClusterNumber i = e :=
      ht.keyInj.eq_of_key (slot_mem_records hi.1 hi.2.1) he
        (hkey ▸ Prod.ext hi.2.2.1 (of_decide_eq_true hfound.2))
    obtain ⟨stored, hcopy, hread⟩ := bind_eq_ok.1 hread
    cases hread
    rwa [hslot, copyLongCluster_readDirTableBuf] at hcopy
  · -- the first entry with the name has another extension
    rw [hi.2.1] at hread
    cases hread
    exact absurd hcode (by decide : (1 : Int8) ≠ 0)

end Lookup

/-! ## What is promised -/

section Answers
variable {fs : FileSystem} {request : DriverRequest} {e : DirectoryEntry} {i : Fin 64}

/-- `read` returns 0 for a file with the requested name and extension, 1 for a folder, 2 when there
is no such entry, and stores nothing unless it returns 0. -/
def ReadAnswers (request : DriverRequest) (fs : FileSystem) : Prop :=
  ∃ r, read request fs = .ok r ∧
    (r.code = 0 ↔ ∃ e ∈ fs.entries request.parentClusterNumber,
      e.key = request.key ∧ e.isSubdirectory = false) ∧
    ((∃ e ∈ fs.entries request.parentClusterNumber, e.key = request.key ∧ e.isSubdirectory = true) →
      r.code = 1) ∧
    ((∀ e ∈ fs.entries request.parentClusterNumber, e.key ≠ request.key) → r.code = 2) ∧
    (r.code ≠ 0 → r.stored = [])

/-- The key of a folder of the requested name: its extension is zero. -/
def DriverRequest.folderKey (request : DriverRequest) : Vector UInt8 8 × Vector UInt8 3 :=
  (request.name, Vector.replicate 3 0)

/-- `read_directory` returns 0 exactly for a folder of the requested name, and stores nothing unless
it returns 0. -/
def ReadDirectoryAnswers (request : DriverRequest) (fs : FileSystem) : Prop :=
  ∃ r, readDirectory request fs = .ok r ∧
    (r.code = 0 ↔ ∃ e ∈ fs.entries request.parentClusterNumber,
      e.key = request.folderKey ∧ e.isSubdirectory = true) ∧
    (r.code ≠ 0 → r.stored = [])

/-- The first entry with the requested name is a file if it has the requested extension, and if it
has another one, the requested entry is a folder further down. -/
def FirstIsFile (request : DriverRequest) (fs : FileSystem) : Prop :=
  ∀ i, IsFirstNamed (fs.tableAt request.parentClusterNumber) request.name i →
    ((fs.tableAt request.parentClusterNumber i).ext = request.ext →
      (fs.tableAt request.parentClusterNumber i).isSubdirectory = false) ∧
    ((fs.tableAt request.parentClusterNumber i).ext ≠ request.ext →
      ∃ e ∈ fs.entries request.parentClusterNumber,
        e.key = request.key ∧ e.isSubdirectory = true)

/-- The first entry with the requested name is a folder exactly if one of the entries is a folder of
that name without an extension. -/
def FirstIsFolder (request : DriverRequest) (fs : FileSystem) : Prop :=
  ∀ i, IsFirstNamed (fs.tableAt request.parentClusterNumber) request.name i →
    ((fs.tableAt request.parentClusterNumber i).isSubdirectory = true ↔
      ∃ e ∈ fs.entries request.parentClusterNumber,
        e.key = request.folderKey ∧ e.isSubdirectory = true)

theorem IsFirstNamed.mem_entries
    (hi : IsFirstNamed (fs.tableAt request.parentClusterNumber) request.name i) :
    fs.tableAt request.parentClusterNumber i ∈ fs.entries request.parentClusterNumber :=
  slot_mem_records hi.1 hi.2.1

/-- `read` answers as promised exactly when the first entry with the name does not mislead it. -/
theorem readAnswers_iff (h : fs.ReadableDir request.parentClusterNumber) :
    ReadAnswers request fs ↔
      FirstIsFile request fs ∧ QuietEnd (fun e => decide (e.ext = request.ext)) request fs := by
  have hkey : ∀ e ∈ fs.entries request.parentClusterNumber, ∀ e' ∈
      fs.entries request.parentClusterNumber, e.key = request.key → e'.key = request.key → e = e' :=
    fun e he e' he' hk hk' => h.table.keyInj.eq_of_key he he' (hk.trans hk'.symm)
  have one_ne_zero : (1 : Int8) ≠ 0 := by decide
  have two_ne_zero : (2 : Int8) ≠ 0 := by decide
  unfold ReadAnswers read
  cases readEntry_cases (fun e => decide (e.ext = request.ext)) h with
  | found i stored hi haccepts hrun =>
    have hext := of_decide_eq_true haccepts
    have hik : (fs.tableAt request.parentClusterNumber i).key = request.key :=
      Prod.ext hi.2.2.1 hext
    rw [hrun]
    constructor
    · rintro ⟨r, hr, hzero, hone, -⟩
      cases hr
      obtain ⟨e, he, hek, hfile⟩ := hzero.1 rfl
      refine ⟨fun j hj => ?_, fun hnone => absurd hi.2.2.1 (hnone _ hi.mem_entries)⟩
      rw [hj.unique hi]
      refine ⟨fun _ => ?_, fun hne => absurd hext hne⟩
      rw [hkey _ hi.mem_entries e he hik hek]
      exact hfile
    · rintro ⟨hfirst, -⟩
      have hfile := (hfirst i hi).1 hext
      refine ⟨_, rfl, iff_of_true rfl ⟨_, hi.mem_entries, hik, hfile⟩, ?_, ?_, ?_⟩
      · rintro ⟨e, he, hek, hf⟩
        rw [hkey e he _ hi.mem_entries hek hik, hfile] at hf
        cases hf
      · intro hno
        exact absurd hik (hno _ hi.mem_entries)
      · intro hne
        exact absurd rfl hne
  | other i hi haccepts hrun =>
    have hext := of_decide_eq_false haccepts
    rw [hrun]
    constructor
    · rintro ⟨r, hr, hzero, hone, htwo, -⟩
      cases hr
      refine ⟨fun j hj => ?_, fun hnone => absurd hi.2.2.1 (hnone _ hi.mem_entries)⟩
      rw [hj.unique hi]
      refine ⟨fun he => absurd he hext, fun _ => by_contra fun hno => ?_⟩
      -- no folder has the key, and no file has it, so the answer would have to be 2
      refine absurd (htwo fun e he hek => ?_) (by decide : (1 : Int8) ≠ 2)
      cases hf : e.isSubdirectory with
      | true => exact hno ⟨e, he, hek, hf⟩
      | false => exact absurd (hzero.2 ⟨e, he, hek, hf⟩) one_ne_zero
    · rintro ⟨hfirst, -⟩
      obtain ⟨e, he, hek, hf⟩ := (hfirst i hi).2 hext
      refine ⟨_, rfl, iff_of_false one_ne_zero ?_, fun _ => rfl, ?_, fun _ => rfl⟩
      · rintro ⟨e', he', hek', hfile⟩
        rw [hkey e' he' e he hek' hek, hf] at hfile
        cases hfile
      · intro hno
        exact absurd hek (hno e he)
  | missing hnone hquiet hrun =>
    have hno : ∀ e ∈ fs.entries request.parentClusterNumber, e.key ≠ request.key :=
      fun e he hek => hnone e he (congrArg Prod.fst hek)
    rw [hrun]
    refine iff_of_true ⟨_, rfl, iff_of_false two_ne_zero ?_, ?_, fun _ => rfl, fun _ => rfl⟩
      ⟨fun i hi => absurd hi.2.2.1 (hnone _ hi.mem_entries), hquiet⟩
    · rintro ⟨e, he, hek, -⟩
      exact hno e he hek
    · rintro ⟨e, he, hek, -⟩
      exact absurd hek (hno e he)
  | stray hnone hstray hrun =>
    refine iff_of_false ?_ fun hcond => hstray hcond.2
    rintro ⟨r, hr, -, -, -, hstored⟩
    obtain ⟨hcode, hne⟩ := hrun r hr
    exact hne (hstored (by rw [hcode]; decide))

/-- `read_directory` answers as promised exactly when the first entry with the name does not mislead
it. -/
theorem readDirectoryAnswers_iff (h : fs.ReadableDir request.parentClusterNumber) :
    ReadDirectoryAnswers request fs ↔
      FirstIsFolder request fs ∧ QuietEnd DirectoryEntry.isSubdirectory request fs := by
  have one_ne_zero : (1 : Int8) ≠ 0 := by decide
  have two_ne_zero : (2 : Int8) ≠ 0 := by decide
  unfold ReadDirectoryAnswers readDirectory
  cases readEntry_cases DirectoryEntry.isSubdirectory h with
  | found i stored hi haccepts hrun =>
    rw [hrun]
    constructor
    · rintro ⟨r, hr, hzero, -⟩
      cases hr
      refine ⟨fun j hj => ?_, fun hnone => absurd hi.2.2.1 (hnone _ hi.mem_entries)⟩
      rw [hj.unique hi]
      exact iff_of_true haccepts (hzero.1 rfl)
    · rintro ⟨hfirst, -⟩
      exact ⟨_, rfl, iff_of_true rfl ((hfirst i hi).1 haccepts), fun hne => absurd rfl hne⟩
  | other i hi haccepts hrun =>
    rw [hrun]
    constructor
    · rintro ⟨r, hr, hzero, -⟩
      cases hr
      refine ⟨fun j hj => ?_, fun hnone => absurd hi.2.2.1 (hnone _ hi.mem_entries)⟩
      rw [hj.unique hi, haccepts]
      exact iff_of_false (by decide) fun hex => absurd (hzero.2 hex) one_ne_zero
    · rintro ⟨hfirst, -⟩
      refine ⟨_, rfl, iff_of_false one_ne_zero fun hex => ?_, fun _ => rfl⟩
      have := (hfirst i hi).2 hex
      rw [haccepts] at this
      cases this
  | missing hnone hquiet hrun =>
    rw [hrun]
    refine iff_of_true ⟨_, rfl, iff_of_false two_ne_zero ?_, fun _ => rfl⟩
      ⟨fun i hi => absurd hi.2.2.1 (hnone _ hi.mem_entries), hquiet⟩
    rintro ⟨e, he, hek, -⟩
    exact hnone e he (congrArg Prod.fst hek)
  | stray hnone hstray hrun =>
    refine iff_of_false ?_ fun hcond => hstray hcond.2
    rintro ⟨r, hr, -, hstored⟩
    obtain ⟨hcode, hne⟩ := hrun r hr
    exact hne (hstored (by rw [hcode]; decide))

/-- In a directory in order both lookups answer as promised exactly when the first entry with the
requested name, or the first empty slot if there is none, does not mislead them. -/
theorem lookups_answer_iff (h : fs.ReadableDir request.parentClusterNumber) :
    (ReadAnswers request fs ↔
      FirstIsFile request fs ∧ QuietEnd (fun e => decide (e.ext = request.ext)) request fs) ∧
    (ReadDirectoryAnswers request fs ↔
      FirstIsFolder request fs ∧ QuietEnd DirectoryEntry.isSubdirectory request fs) :=
  ⟨readAnswers_iff h, readDirectoryAnswers_iff h⟩

end Answers

/-! ### Two files of one name -/

/-- The request for the twin of a file: the same name with another extension. -/
def twinRequest (bufferSize : UInt32) : DriverRequest :=
  { sampleRequest 'A' 2 bufferSize with ext := Vector.replicate 3 'T'.toUInt8 }

/-- A disk with two files in the root directory that differ in the extension only. -/
theorem exists_twins : ∃ fs c c', Reachable fs ∧
    fs.tableAt 2 2 = createdEntry (sampleRequest 'A' 2 100) c ∧
    fs.tableAt 2 3 = createdEntry (twinRequest 100) c' := by
  have hwanted : clustersWanted 100 ≤ 1 := by decide
  have hblank : ∀ j : Fin 64, 2 ≤ j.val → blankFileSystem.tableAt 2 j = .zero :=
    fun j hj => tableAt_createFat32 j hj
  have hroom : 509 ≤ (freeClusters blankFileSystem.clusterMap).length :=
    length_freeClusters_createFat32
  obtain ⟨c, l, fs, hrun, hw⟩ := write_blank (fun _ => 1) (sampleRequest 'A' 2 100) rfl
    (hwanted.trans (by decide))
  have htable : fs.tableAt 2 = Function.update (blankFileSystem.tableAt 2) 2
      (createdEntry (sampleRequest 'A' 2 100) c) := hw.table
  have hreach : Reachable fs :=
    .step (.create _ _ _) (Request.permitted_of_accepts (fun _ => 1) hw.toAccepts (by decide)) hrun
  have hthree : fs.tableAt 2 3 = .zero := by
    rw [htable, Function.update_of_ne (by decide)]
    exact hblank 3 (by decide)
  have htwo : fs.tableAt 2 2 = createdEntry (sampleRequest 'A' 2 100) c := by
    rw [htable, Function.update_self]
  have hb : fs.Accepts (twinRequest 100) := by
    refine ⟨.root, fun hfull => ?_, ?_, ?_⟩
    · have hlive : (fs.tableAt 2 3).live = true := hfull 3 (by decide)
      rw [hthree] at hlive
      cases hlive
    · rintro e ⟨j, hj, rfl, hlive⟩ hkey
      rw [show fs.tableAt (twinRequest 100).parentClusterNumber = fs.tableAt 2 from rfl, htable]
        at hlive hkey
      rcases eq_or_ne j 2 with rfl | hne
      · rw [Function.update_self] at hkey
        exact absurd (congrArg Prod.snd hkey) (by decide : (sampleRequest 'A' 2 100).ext ≠ _)
      · rw [Function.update_of_ne hne, hblank j hj] at hlive
        cases hlive
    · have hlen : (freeClusters blankFileSystem.clusterMap).length ≤ _ := hw.length_freeClusters
      have hone : clusterNeeded (sampleRequest 'A' 2 100).bufferSize ≤ 1 :=
        (by decide : clusterNeeded 100 ≤ 1)
      show clustersWanted 100 ≤ _
      omega
  obtain ⟨i', c', l', fs', hrun', hw'⟩ := write_spec (fun _ => 1) hreach.inOrder.sound hb
  have hi' : i' = 3 := by
    refine hw'.slot.unique ⟨by decide, congrArg DirectoryEntry.live hthree, fun j hj hlo => ?_⟩
    obtain rfl : j = 2 := Fin.ext (by have := Fin.lt_def.1 hj; omega)
    exact (congrArg DirectoryEntry.live htwo).trans createdEntry_live
  subst hi'
  have htable' : fs'.tableAt 2 = Function.update (fs.tableAt 2) 3
      (createdEntry (twinRequest 100) c') :=
    hw'.table
  refine ⟨fs', c, c', hreach.step (Request.permitted_of_accepts (fun _ => 1) hb (by decide)) hrun',
    ?_, ?_⟩
  · rw [htable', Function.update_of_ne (by decide), htwo]
  · rw [htable', Function.update_self]

section Twins
variable {fs : FileSystem} {c c' : UInt32}

/-- The first of the two files is the first entry with their name. -/
theorem firstNamed_twins (htwo : fs.tableAt 2 2 = createdEntry (sampleRequest 'A' 2 100) c) :
    IsFirstNamed (fs.tableAt 2) (sampleRequest 'A' 2 100).name 2 := by
  refine ⟨by decide, ?_, ?_, fun j hj hlo => absurd hj (not_lt.2 hlo)⟩
  · rw [htwo]
    rfl
  · rw [htwo]
    rfl

/-- The second of the two files is an entry. -/
theorem mem_twins (hthree : fs.tableAt 2 3 = createdEntry (twinRequest 100) c') :
    createdEntry (twinRequest 100) c' ∈ fs.entries 2 :=
  ⟨3, by decide, hthree, rfl⟩

end Twins

/-- There is a file with the name and the extension of the request, and `read` returns 1. -/
theorem read_twin : ∃ fs r, Reachable fs ∧ fs.LiveDir 2 ∧
    (∃ e ∈ fs.entries 2, e.key = (twinRequest 100).key ∧ e.isSubdirectory = false) ∧
    read (twinRequest 100) fs = .ok r ∧ r.code = 1 := by
  obtain ⟨fs, c, c', hreach, htwo, hthree⟩ := exists_twins
  have hd : fs.LiveDir (twinRequest 100).parentClusterNumber := .root
  have h := hreach.inOrder.toWellFormed.readableDir hd
  refine ⟨fs, ⟨1, [], fs.readDirTableBuf 2⟩, hreach, .root, ⟨_, mem_twins hthree, rfl, rfl⟩, ?_,
    rfl⟩
  have hslot : fs.tableAt (twinRequest 100).parentClusterNumber 2 = _ := htwo
  rw [read, readEntry_stopped h.table.self h.lt (h.table.stopsAt_named (firstNamed_twins htwo)),
    readStopped, hslot]
  rfl

/-- The first of the two files is found, and the second one is not. -/
theorem lookups_answer_twins : ∃ fs, Reachable fs ∧ ReadAnswers (sampleRequest 'A' 2 100) fs ∧
    ¬ ReadAnswers (twinRequest 100) fs := by
  obtain ⟨fs, c, c', hreach, htwo, hthree⟩ := exists_twins
  have hd : fs.LiveDir 2 := .root
  have h := hreach.inOrder.toWellFormed.readableDir hd
  have hfirst := firstNamed_twins htwo
  have hmem : fs.tableAt 2 2 ∈ fs.entries 2 := slot_mem_records hfirst.1 hfirst.2.1
  refine ⟨fs, hreach, ?_, ?_⟩
  · refine ((@lookups_answer_iff fs (sampleRequest 'A' 2 100) h).1).2 ⟨fun i hi => ?_, ?_⟩
    · obtain rfl : i = 2 := hi.unique hfirst
      have hslot : fs.tableAt (sampleRequest 'A' 2 100).parentClusterNumber 2 = _ := htwo
      rw [hslot]
      exact ⟨fun _ => rfl, fun hne => absurd rfl hne⟩
    · exact fun hnone => absurd hfirst.2.2.1 (hnone _ hmem)
  · intro hanswers
    have hcond := ((@lookups_answer_iff fs (twinRequest 100) h).1).1 hanswers
    obtain ⟨e, he, hkey, hf⟩ := (hcond.1 2 hfirst).2 (by
      rw [show fs.tableAt (twinRequest 100).parentClusterNumber 2 = _ from htwo]
      exact (by decide : (sampleRequest 'A' 2 100).ext ≠ (twinRequest 100).ext))
    have hfile : e = createdEntry (twinRequest 100) c' :=
      h.table.keyInj.eq_of_key he (mem_twins hthree) hkey
    rw [hfile] at hf
    cases hf

end OsKernel
