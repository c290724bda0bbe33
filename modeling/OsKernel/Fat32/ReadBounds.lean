import OsKernel.Fat32.Codes
import OsKernel.Fat32.DeleteAll
import OsKernel.Fat32.Lookup

/-!
# How much a read stores

`copy_long_cluster` counts `remaining_size` down by `CLUSTER_SIZE` and stops at 0 or at the end of
the chain. The countdown meets 0 for a size of whole clusters only; from any other size it runs
below 0 and on, so the whole chain is stored (`copyLongCluster_length`). A read copies from one slot
at most (`copiedSlot`), which makes its bound that of the copy (`reads_bounded_iff`).
-/

namespace OsKernel

open Lib

/-- `buffer_size` rounded up to whole clusters. -/
def clustersOf (bufferSize : UInt32) : Nat := (bufferSize.toNat + 2047) / 2048

section Countdown
variable {fs : FileSystem} {c remaining : UInt32} {stored : List ClusterBuffer} {l : List UInt32}
  {steps : Nat}

/-- The countdown keeps the residue, and takes a cluster off a size of whole clusters. -/
theorem countdown_toNat (remaining : UInt32) :
    (2048 ∣ (remaining - 2048).toNat ↔ 2048 ∣ remaining.toNat) ∧
    (remaining ≠ 0 → 2048 ∣ remaining.toNat →
      (remaining - 2048).toNat / 2048 + 1 = remaining.toNat / 2048) := by
  have hlt := remaining.toNat_lt
  have hsub : (remaining - 2048).toNat = (2 ^ 32 - 2048 + remaining.toNat) % 2 ^ 32 :=
    UInt32.toNat_sub remaining 2048
  rw [hsub]
  constructor
  · omega
  · intro hne hdvd
    have hpos : remaining.toNat ≠ 0 := fun h0 => hne (UInt32.toNat_inj.1 h0)
    omega

/-- A copy of whole clusters stores no more of them than fit the buffer. Any other copy that ends
has stored a whole chain. -/
theorem copyLongCluster_length (h : copyLongCluster fs steps remaining c = .ok stored) :
    (2048 ∣ remaining.toNat ∧ stored.length ≤ remaining.toNat / 2048) ∨
    (¬ 2048 ∣ remaining.toNat ∧ ∃ l, IsChain fs.clusterMap.next fatEndOfFile c l ∧
      (∀ d ∈ l, d.toNat < 512) ∧ stored.length = l.length) := by
  induction steps generalizing c remaining stored with
  | zero => cases h
  | succ steps ih =>
    obtain ⟨hdvd, hdown⟩ := countdown_toNat remaining
    rw [copyLongCluster] at h
    split at h
    · next hzero =>
      cases h
      rw [hzero]
      exact .inl ⟨by decide, by decide⟩
    · next hne =>
      obtain ⟨next, hget, h⟩ := bind_eq_ok.1 h
      obtain ⟨hc, rfl⟩ := ClusterMap.get_eq_ok hget
      split at h
      · next hmore =>
        obtain ⟨rest, hrest, h⟩ := bind_eq_ok.1 h
        cases h
        rcases ih hrest with ⟨hrem, hlen⟩ | ⟨hrem, l, hl, hlt, hlen⟩
        · refine .inl ⟨hdvd.1 hrem, ?_⟩
          rw [← hdown hne (hdvd.1 hrem), List.length_cons]
          exact Nat.succ_le_succ hlen
        · refine .inr ⟨fun hd => hrem (hdvd.2 hd), _, .cons hmore hl, ?_, ?_⟩
          · exact List.forall_mem_cons.2 ⟨hc, hlt⟩
          · rw [List.length_cons, List.length_cons, hlen]
      · next hlast =>
        cases h
        by_cases hrem : 2048 ∣ remaining.toNat
        · refine .inl ⟨hrem, ?_⟩
          rw [← hdown hne hrem]
          simp
        · exact .inr ⟨hrem, [c], .last (not_not.1 hlast), by simpa using hc, rfl⟩

/-- Whole clusters, or a chain that is short enough. -/
def ChainFits (fs : FileSystem) (bufferSize c : UInt32) : Prop :=
  2048 ∣ bufferSize.toNat ∨
  ∀ l, IsChain fs.clusterMap.next fatEndOfFile c l → l.length ≤ clustersOf bufferSize

theorem IsChain.chainFits_iff (hl : IsChain fs.clusterMap.next fatEndOfFile c l) :
    ChainFits fs remaining c ↔ 2048 ∣ remaining.toNat ∨ l.length ≤ clustersOf remaining := by
  refine or_congr_right ⟨fun hfits => hfits l hl, fun hlen l' hl' => ?_⟩
  rw [hl'.unique hl]
  exact hlen

theorem copyLongCluster_fits_iff (h : copyLongCluster fs steps remaining c = .ok stored) :
    stored.length ≤ clustersOf remaining ↔ ChainFits fs remaining c := by
  rcases copyLongCluster_length h with ⟨hdvd, hlen⟩ | ⟨hdvd, l, hl, -, hlen⟩
  · refine iff_of_true (hlen.trans ?_) (.inl hdvd)
    unfold clustersOf
    omega
  · rw [IsChain.chainFits_iff hl, or_iff_right hdvd, hlen]

end Countdown

/-! ## The slot that is copied -/

section Slot
variable {request : DriverRequest} {fs : FileSystem} {accepts : DirectoryEntry → Bool}

/-- The slot from `lo` on whose clusters the inner loop copies. -/
def copiedFrom (accepts : DirectoryEntry → Bool) (request : DriverRequest) (t : DirectoryTable)
    (lo : Nat) : Option (Fin 64) :=
  (findFrom lo fun i => request.stops (t i)).filter fun i =>
    decide ((t i).name = request.name) && accepts (t i)

/-- The slot whose clusters a read copies: one from 2 on or, when none of them stops the inner loop
and the parent has another cluster, any one of the parent. -/
def copiedSlot (accepts : DirectoryEntry → Bool) (request : DriverRequest) (fs : FileSystem) :
    Option (Fin 64) :=
  let t := fs.tableAt request.parentClusterNumber
  if (t 0).live = false ∨ request.parentClusterNumber = fatEndOfFile then none
  else if findFrom 2 (fun i => request.stops (t i)) ≠ none then copiedFrom accepts request t 2
  else if fs.clusterMap.next request.parentClusterNumber ≠ fatEndOfFile then
    copiedFrom accepts request t 0
  else none

/-- What is stored for a slot. -/
def StoredOf (request : DriverRequest) (fs : FileSystem) (stored : List ClusterBuffer) :
    Option (Fin 64) → Prop
  | none => stored = []
  | some i =>
    copyLongCluster fs copySteps request.bufferSize (fs.dirTableBuf i).cluster = .ok stored

theorem readSlots_stored {lo : Nat} {x : UInt8 × List ClusterBuffer}
    (h : readSlots accepts request fs lo = .ok x) :
    (x.1 = 2 ↔ findFrom lo (fun i => request.stops (fs.dirTableBuf i)) = none) ∧
    StoredOf request fs x.2 (copiedFrom accepts request fs.dirTableBuf lo) := by
  unfold readSlots at h
  unfold copiedFrom
  split at h
  · next hnone =>
    cases h
    have hnone' : findFrom lo (fun i => request.stops (fs.dirTableBuf i)) = none := hnone
    rw [hnone']
    exact ⟨iff_of_true rfl rfl, rfl⟩
  · next i hi =>
    have hi' : findFrom lo (fun i => request.stops (fs.dirTableBuf i)) = some i := hi
    have hstop : (fs.dirTableBuf i).live = true → (fs.dirTableBuf i).name = request.name := by
      intro hlive
      simpa [hlive] using (findFrom_eq_some.1 hi).2.1
    rw [hi']
    dsimp only at h
    split at h
    · next hname =>
      split at h
      · next haccepts =>
        obtain ⟨stored, hcopy, h⟩ := bind_eq_ok.1 h
        cases h
        rw [Option.filter_some_pos (by simp [hname, haccepts])]
        refine ⟨iff_of_false ?_ (by simp), hcopy⟩
        dsimp only
        split
        · decide
        · decide
      · next haccepts =>
        cases h
        rw [Option.filter_some_neg (by simp [haccepts])]
        refine ⟨iff_of_false ?_ (by simp), rfl⟩
        dsimp only
        split
        · decide
        · decide
    · next hname =>
      cases h
      rw [Option.filter_some_neg (by simp [hname])]
      refine ⟨iff_of_false ?_ (by simp), rfl⟩
      dsimp only
      rw [if_neg fun hlive => hname (hstop hlive)]
      decide

/-- The passes after the first one all look at the same slots. -/
theorem readLoop_stored {steps : Nat} {c : UInt32} {x : UInt8 × List ClusterBuffer}
    (h : readLoop accepts request fs steps c 0 = .ok x) :
    StoredOf request fs x.2
      (if c = fatEndOfFile then none else copiedFrom accepts request fs.dirTableBuf 0) := by
  induction steps generalizing c with
  | zero => cases h
  | succ steps ih =>
    rw [readLoop] at h
    split at h
    · next hend =>
      cases h
      rw [if_pos hend]
      rfl
    · next hend =>
      rw [if_neg hend]
      obtain ⟨⟨code, stored⟩, hslots, h⟩ := bind_eq_ok.1 h
      obtain ⟨next, -, h⟩ := bind_eq_ok.1 h
      obtain ⟨htwo, hstored⟩ := readSlots_stored hslots
      split at h
      · next hcode =>
        -- nothing stops the loop, so no pass copies anything
        have hnone : copiedFrom accepts request fs.dirTableBuf 0 = none := by
          rw [copiedFrom, htwo.1 hcode]
          rfl
        have hrest := ih h
        rw [hnone] at hrest ⊢
        rwa [ite_self] at hrest
      · cases h
        exact hstored

theorem readEntry_stored {r : ReadResult} (h : readEntry accepts request fs = .ok r) :
    StoredOf request (fs.readDirTableBuf request.parentClusterNumber) r.stored
      (copiedSlot accepts request fs) := by
  unfold readEntry at h
  unfold copiedSlot
  dsimp only at h ⊢
  rw [FileSystem.dirTableBuf_readDirTableBuf] at h
  cases hself : (fs.tableAt request.parentClusterNumber 0).live with
  | false =>
    rw [hself] at h
    cases h
    rw [if_pos (.inl rfl)]
    rfl
  | true =>
    rw [hself] at h
    obtain ⟨⟨code, stored⟩, hloop, h⟩ := bind_eq_ok.1 h
    cases h
    dsimp only
    rw [readLoop] at hloop
    split at hloop
    · next hend =>
      cases hloop
      rw [if_pos (Or.inr hend)]
      rfl
    · next hend =>
      have hlive : ¬ (true = false ∨ request.parentClusterNumber = fatEndOfFile) := by simp [hend]
      rw [if_neg hlive]
      obtain ⟨⟨code', stored'⟩, hslots, hloop⟩ := bind_eq_ok.1 hloop
      obtain ⟨next, hnext, hloop⟩ := bind_eq_ok.1 hloop
      obtain ⟨-, rfl⟩ := ClusterMap.get_eq_ok hnext
      obtain ⟨htwo, hstored⟩ := readSlots_stored hslots
      rw [FileSystem.dirTableBuf_readDirTableBuf] at htwo hstored
      split at hloop
      · next hcode =>
        rw [if_neg (not_not.2 (htwo.1 hcode)), ite_not]
        have hstored' := readLoop_stored hloop
        rw [FileSystem.dirTableBuf_readDirTableBuf] at hstored'
        exact hstored'
      · next hcode =>
        cases hloop
        rw [if_pos fun hnone => hcode (htwo.2 hnone)]
        exact hstored

/-- The chain of the slot that is copied fits the buffer. -/
def CopyFits (accepts : DirectoryEntry → Bool) (request : DriverRequest) (fs : FileSystem) : Prop :=
  ∀ i, copiedSlot accepts request fs = some i →
    ChainFits fs request.bufferSize (fs.tableAt request.parentClusterNumber i).cluster

theorem readEntry_fits_iff {r : ReadResult} (h : readEntry accepts request fs = .ok r) :
    r.stored.length ≤ clustersOf request.bufferSize ↔ CopyFits accepts request fs := by
  have hstored := readEntry_stored h
  unfold CopyFits
  cases hslot : copiedSlot accepts request fs with
  | none =>
    rw [hslot] at hstored
    have hnil : r.stored = [] := hstored
    rw [hnil]
    exact iff_of_true (Nat.zero_le _) fun i hi => nomatch hi
  | some i =>
    rw [hslot] at hstored
    rw [copyLongCluster_fits_iff hstored]
    exact ⟨fun hfits j hj => Option.some.inj hj ▸ hfits, fun hfits => hfits i rfl⟩

/-- Along the chain of a file a copy ends, and it stays within the buffer exactly when the size is
one of whole clusters or the chain is not longer than the buffer; a read stays within the buffer
exactly when the copy it makes does. -/
theorem reads_bounded_iff :
    (∀ c l, IsChain fs.clusterMap.next fatEndOfFile c l → (∀ d ∈ l, d.toNat < 512) →
      ∃ stored, copyLongCluster fs copySteps request.bufferSize c = .ok stored ∧
        (stored.length ≤ clustersOf request.bufferSize ↔
          2048 ∣ request.bufferSize.toNat ∨ l.length ≤ clustersOf request.bufferSize)) ∧
    (∀ r, read request fs = .ok r →
      (r.stored.length ≤ clustersOf request.bufferSize ↔
        CopyFits (fun e => decide (e.ext = request.ext)) request fs)) ∧
    (∀ r, readDirectory request fs = .ok r →
      (r.stored.length ≤ clustersOf request.bufferSize ↔
        CopyFits DirectoryEntry.isSubdirectory request fs)) := by
  refine ⟨fun c l hl hlt => ?_, fun r h => readEntry_fits_iff h, fun r h => readEntry_fits_iff h⟩
  have hsteps : l.length ≤ copySteps :=
    (length_le_clusterMapSize hl hlt).trans (by decide)
  obtain ⟨stored, hcopy⟩ := @copyLongCluster_ends fs c request.bufferSize l copySteps hl hlt hsteps
  refine ⟨stored, hcopy, ?_⟩
  rw [copyLongCluster_fits_iff hcopy, IsChain.chainFits_iff hl]

/-- In a directory in order the first entry with the name is copied, if it is accepted. -/
theorem copiedSlot_firstNamed {i : Fin 64} (h : fs.ReadableDir request.parentClusterNumber)
    (hi : IsFirstNamed (fs.tableAt request.parentClusterNumber) request.name i)
    (haccepts : accepts (fs.tableAt request.parentClusterNumber i) = true) :
    copiedSlot accepts request fs = some i := by
  obtain ⟨hlo, hstop, hbefore⟩ := h.table.stopsAt_named hi
  have hend : request.parentClusterNumber ≠ fatEndOfFile := ne_endOfFile_of_lt h.lt
  have hfind : findFrom 2 (fun j => request.stops (fs.tableAt request.parentClusterNumber j)) =
      some i := by
    refine findFrom_eq_some.2 ⟨hlo, ?_, fun j hj hlo' => ?_⟩
    · simpa [DriverRequest.stops] using hstop
    · obtain ⟨hlive, hname⟩ := hbefore j hj hlo'
      simp [DriverRequest.stops, hlive, hname]
  have hstart : ¬ ((fs.tableAt request.parentClusterNumber 0).live = false ∨
      request.parentClusterNumber = fatEndOfFile) := by
    rw [h.table.self]
    simp [hend]
  unfold copiedSlot copiedFrom
  dsimp only
  rw [if_neg hstart, hfind, if_pos (Option.some_ne_none i),
    Option.filter_some_pos (by simp [hi.2.2.1, haccepts])]

end Slot

/-! ### A file of two clusters -/

/-- A disk with one file, of two clusters: it is read whatever the size of the buffer is. -/
theorem exists_twoClusters : ∃ fs e l, write (fun _ => 1) (sampleRequest 'A' 2 3000)
      blankFileSystem = .ok (0, fs) ∧ fs.Chain e l ∧ (∀ d ∈ l, d.toNat < 512) ∧ l.length = 2 ∧
    ∀ bufferSize, ∃ i r, fs.tableAt 2 i = e ∧
      copiedSlot (fun e => decide (e.ext = (sampleRequest 'A' 2 bufferSize).ext))
        (sampleRequest 'A' 2 bufferSize) fs = some i ∧
      read (sampleRequest 'A' 2 bufferSize) fs = .ok r := by
  obtain ⟨fs, e, hrun, h, hp, hnf, he, hkey, hfile, hsize, hone, -⟩ := exists_oneFile
    (show (sampleRequest 'A' 2 3000).parentClusterNumber = rootClusterNumber from rfl) (by decide)
    (by decide)
  obtain ⟨l, hl, hdata, hlen⟩ := h.sound.chain hp he
  rw [DirectoryEntry.clusterCount, hfile, hsize] at hlen
  have hdir := h.readableDir hp
  refine ⟨fs, e, l, hrun, hl, fun d hd => (hdata d hd).2, hlen, fun bufferSize => ?_⟩
  obtain ⟨hname, hext⟩ := Prod.mk.inj hkey
  obtain ⟨i, hi⟩ := exists_firstNamed he
  rw [hname] at hi
  have hslot : fs.tableAt 2 i = e := hone _ (slot_mem_records hi.1 hi.2.1)
  have haccepts : decide ((fs.tableAt 2 i).ext = (sampleRequest 'A' 2 bufferSize).ext) = true := by
    rw [hslot]
    exact decide_eq_true hext
  have hcopied : copiedSlot (fun e => decide (e.ext = (sampleRequest 'A' 2 bufferSize).ext))
      (sampleRequest 'A' 2 bufferSize) fs = some i := copiedSlot_firstNamed hdir hi haccepts
  have hread : ∃ r, read (sampleRequest 'A' 2 bufferSize) fs = .ok r := by
    have hcases : LookupOutcome (fun e => decide (e.ext = (sampleRequest 'A' 2 bufferSize).ext))
        (sampleRequest 'A' 2 bufferSize) fs := readEntry_cases _ hdir
    cases hcases with
    | found i stored hi haccepts hrun => exact ⟨_, hrun⟩
    | other i hi haccepts hrun => exact ⟨_, hrun⟩
    | missing hnone hquiet hrun => exact ⟨_, hrun⟩
    | stray hnone hstray hrun => exact absurd hname (hnone e he)
  obtain ⟨r, hr⟩ := hread
  exact ⟨i, r, hslot, hcopied, hr⟩

/-- A buffer of two whole clusters holds the file. -/
theorem reads_bounded_twoClusters : ∃ fs e l stored r,
    write (fun _ => 1) (sampleRequest 'A' 2 3000) blankFileSystem = .ok (0, fs) ∧
    fs.Chain e l ∧ l.length = 2 ∧
    copyLongCluster fs copySteps 4096 e.cluster = .ok stored ∧ stored.length ≤ clustersOf 4096 ∧
    read (sampleRequest 'A' 2 4096) fs = .ok r ∧ r.stored.length ≤ clustersOf 4096 := by
  obtain ⟨fs, e, l, hrun, hl, hlt, hlen, hread⟩ := exists_twoClusters
  obtain ⟨i, r, hslot, hcopied, hr⟩ := hread 4096
  obtain ⟨hcopy, hbound, -⟩ := @reads_bounded_iff (sampleRequest 'A' 2 4096) fs
  obtain ⟨stored, hstored, hiff⟩ := hcopy e.cluster l hl hlt
  have haligned : 2048 ∣ (sampleRequest 'A' 2 4096).bufferSize.toNat := by decide
  exact ⟨fs, e, l, stored, r, hrun, hl, hlen, hstored, hiff.2 (.inl haligned), hr,
    (hbound r hr).2 fun _ _ => .inl haligned⟩

/-- A buffer of 100 bytes gets two clusters. -/
theorem read_overruns : ∃ fs e l stored r,
    write (fun _ => 1) (sampleRequest 'A' 2 3000) blankFileSystem = .ok (0, fs) ∧
    fs.Chain e l ∧ (∀ d ∈ l, d.toNat < 512) ∧
    copyLongCluster fs copySteps 100 e.cluster = .ok stored ∧ clustersOf 100 < stored.length ∧
    read (sampleRequest 'A' 2 100) fs = .ok r ∧ clustersOf 100 < r.stored.length := by
  obtain ⟨fs, e, l, hrun, hl, hlt, hlen, hread⟩ := exists_twoClusters
  obtain ⟨i, r, rfl, hcopied, hr⟩ := hread 100
  obtain ⟨stored, hcopy⟩ := @copyLongCluster_ends fs _ 100 l copySteps hl hlt
    ((length_le_clusterMapSize hl hlt).trans (by decide))
  have hnot : ¬ ChainFits fs 100 (fs.tableAt 2 i).cluster := by
    rw [IsChain.chainFits_iff hl, hlen]
    decide
  refine ⟨fs, _, l, stored, r, hrun, hl, hlt, hcopy, ?_, hr, ?_⟩
  · exact not_le.1 fun hle => hnot ((copyLongCluster_fits_iff hcopy).1 hle)
  · refine not_le.1 fun hle => hnot ?_
    have hfits : CopyFits _ (sampleRequest 'A' 2 100) fs := (readEntry_fits_iff hr).1 hle
    exact hfits i hcopied

/-- A disk with one file, which can be read to any address with a buffer of any size. -/
theorem exists_readable : ∃ fs, ∀ buf bufferSize, ∃ r,
    read { sampleRequest 'A' 2 bufferSize with buf := buf } fs = .ok r ∧ r.code = 0 := by
  obtain ⟨fs, e, -, h, hp, -, he, hkey, -, -, hone, -⟩ := exists_oneFile
    (show (sampleRequest 'A' 2 3000).parentClusterNumber = rootClusterNumber from rfl) (by decide)
    (by decide)
  exact ⟨fs, fun buf bufferSize => exists_read (h.readableDir hp) he hkey fun x hx _ => hone x hx⟩

end OsKernel
