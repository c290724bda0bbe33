import OsKernel.Fat32.Move
import OsKernel.Fat32.Runs

/-!
# Requests that are refused

A request is refused when it completes with a nonzero code and changes neither the allocation table
nor the disk (`Refused`). Each operation makes its checks before it changes anything, so it refuses
exactly the requests that one of its checks stops (`write_refused_iff` and so on). No check of
`write` looks for an unused slot, and only the first free cluster is checked: a write to a full
directory, or one with too few clusters, is refused only when no cluster at all is free. Whether the
parent is a directory is decided by one byte of its cluster.
-/

namespace OsKernel

open Lib

/-! ## Refusals -/

/-- The operation completes with a nonzero code, and the allocation table and every cluster on the
disk are as before. -/
def Refused (x : Except Fault (Int8 × FileSystem)) (fs : FileSystem) : Prop :=
  ∃ code fs', x = .ok (code, fs') ∧ code ≠ 0 ∧ fs'.clusterMap = fs.clusterMap ∧ fs'.disk = fs.disk

section Refused
variable {x : Except Fault FileSystem} {fs : FileSystem} {c : UInt32} {code : Int8}

theorem refused_ok (hcode : code ≠ 0) : Refused (.ok (code, fs.readDirTableBuf c)) fs :=
  ⟨code, _, rfl, hcode, rfl, rfl⟩

/-- What returns 0 when it completes is not refused. -/
theorem not_refused_bind : ¬ Refused (x >>= fun fs' => .ok (0, fs')) fs := by
  rintro ⟨code, fs', hrun, hcode, -⟩
  obtain ⟨fs₁, -, hrun⟩ := bind_eq_ok.1 hrun
  cases hrun
  exact hcode rfl

end Refused

/-! ## `write` -/

/-- The checks of `write`: its parent is not marked as a directory, a used slot before the first
unused one carries the name, or no cluster is free. -/
def RefusesWrite (request : DriverRequest) (fs : FileSystem) : Prop :=
  (fs.tableAt request.parentClusterNumber 0).live = false ∨
  (∃ i : Fin 64, 2 ≤ i.val ∧ (fs.tableAt request.parentClusterNumber i).key = request.key ∧
    ∀ j ≤ i, 2 ≤ j.val → (fs.tableAt request.parentClusterNumber j).live = true) ∨
  freeClusters fs.clusterMap = []

section Write
variable {mem : UInt32 → UInt8} {request : DriverRequest} {fs : FileSystem} {slot : Option (Fin 64)}
  {i : Fin 64} {start : UInt32} {rest : List UInt32} {n : Nat}

/-- The part of `write` after the search refuses only when no cluster is free. -/
theorem writeEntry_refused_iff :
    Refused (writeEntry mem request slot fs) fs ↔ freeClusters fs.clusterMap = [] := by
  cases hfree : freeClusters fs.clusterMap with
  | nil =>
    refine iff_of_true ?_ rfl
    unfold writeEntry
    rw [getEmptyCluster_nil hfree]
    exact ⟨-1, fs, rfl, by decide, rfl, rfl⟩
  | cons c l =>
    refine iff_of_false ?_ (List.cons_ne_nil c l)
    have hc : c ≠ noCluster := (mem_freeClusters.1 (hfree ▸ List.mem_cons_self)).1.ne_noCluster
    unfold writeEntry
    rw [getEmptyCluster_cons hfree]
    dsimp only
    rw [if_neg hc]
    split
    · exact not_refused_bind
    · exact not_refused_bind

/-- `write` goes on to the search for a slot in a directory. -/
theorem write_of_live (hself : (fs.tableAt request.parentClusterNumber 0).live = true) :
    write mem request fs =
      match findFrom 2 fun i => !(fs.tableAt request.parentClusterNumber i).live ||
          (fs.tableAt request.parentClusterNumber i).hasKey request.key with
      | none => writeEntry mem request none (fs.readDirTableBuf request.parentClusterNumber)
      | some i =>
        if (fs.tableAt request.parentClusterNumber i).live then
          .ok (1, fs.readDirTableBuf request.parentClusterNumber)
        else writeEntry mem request (some i) (fs.readDirTableBuf request.parentClusterNumber) := by
  rw [write]
  simp only [FileSystem.dirTableBuf_readDirTableBuf, hself, Bool.not_true, Bool.false_eq_true,
    ↓reduceIte]
  rfl

theorem write_refused_iff : Refused (write mem request fs) fs ↔ RefusesWrite request fs := by
  cases hself : (fs.tableAt request.parentClusterNumber 0).live with
  | false =>
    refine iff_of_true ?_ (.inl hself)
    rw [write]
    simp only [FileSystem.dirTableBuf_readDirTableBuf, hself, Bool.not_false, ↓reduceIte]
    exact refused_ok (by decide)
  | true =>
    rw [write_of_live hself]
    have hentry (slot : Option (Fin 64)) : Refused
        (writeEntry mem request slot (fs.readDirTableBuf request.parentClusterNumber)) fs ↔
          freeClusters fs.clusterMap = [] :=
      @writeEntry_refused_iff mem request (fs.readDirTableBuf request.parentClusterNumber) slot
    split
    · next hfind =>
      have hnew := findFrom_eq_none.1 hfind
      rw [hentry]
      refine ⟨fun h => .inr (.inr h), ?_⟩
      rintro (hdead | ⟨i, hi, hkey, -⟩ | hnone)
      · rw [hself] at hdead
        cases hdead
      · have := hnew i hi
        simp [hkey] at this
      · exact hnone
    · next i hfind =>
      obtain ⟨hlo, hstop, hbefore⟩ := findFrom_eq_some.1 hfind
      split
      · next hlive =>
        refine iff_of_true (refused_ok (by decide)) (.inr (.inl ⟨i, hlo, ?_, fun j hj hj' => ?_⟩))
        · simpa [hlive] using hstop
        · rcases eq_or_lt_of_le hj with rfl | hlt
          · exact hlive
          · have := hbefore j hlt hj'
            simp at this
            exact this.1
      · next hdead =>
        rw [hentry]
        refine ⟨fun h => .inr (.inr h), ?_⟩
        rintro (hdead' | ⟨j, hj, hkey, hlive⟩ | hnone)
        · rw [hself] at hdead'
          cases hdead'
        · rcases lt_or_ge j i with hlt | hge
          · have := hbefore j hlt hj
            simp [hkey] at this
          · exact absurd (hlive i hge hlo) hdead
        · exact hnone

end Write

/-! ### A full directory -/

section Full
variable {mem : UInt32 → UInt8} {request : DriverRequest} {fs : FileSystem}

/-- In a full directory the search for a new name finds no slot. -/
theorem find_full (hfull : fs.Full request.parentClusterNumber)
    (hnew : ∀ i : Fin 64, 2 ≤ i.val →
      (fs.tableAt request.parentClusterNumber i).key ≠ request.key) :
    findFrom 2 (fun i => !(fs.tableAt request.parentClusterNumber i).live ||
      (fs.tableAt request.parentClusterNumber i).hasKey request.key) = none :=
  findFrom_eq_none.2 fun i hi => by simp [hfull i hi, hnew i hi]

/-- With a free cluster the new entry goes to the index -1. -/
theorem write_full (hself : (fs.tableAt request.parentClusterNumber 0).live = true)
    (hfull : fs.Full request.parentClusterNumber)
    (hnew : ∀ i : Fin 64, 2 ≤ i.val →
      (fs.tableAt request.parentClusterNumber i).key ≠ request.key)
    (hfree : freeClusters fs.clusterMap ≠ []) :
    write mem request fs = .error (.dirTableIndex (-1)) := by
  obtain ⟨c, l, hc⟩ := List.exists_cons_of_ne_nil hfree
  have hne : c ≠ noCluster := (mem_freeClusters.1 (hc ▸ List.mem_cons_self)).1.ne_noCluster
  rw [write_of_live hself, find_full hfull hnew]
  dsimp only
  unfold writeEntry
  rw [FileSystem.clusterMap_readDirTableBuf, getEmptyCluster_cons hc]
  dsimp only
  rw [if_neg hne]
  split <;> rfl

/-- A write of a new name to a full directory is refused exactly when the parent is not marked as a
directory or no cluster is free. Otherwise it stores the entry at `table[-1]`. -/
theorem write_full_refused_iff (mem : UInt32 → UInt8)
    (hfull : fs.Full request.parentClusterNumber)
    (hnew : ∀ i : Fin 64, 2 ≤ i.val →
      (fs.tableAt request.parentClusterNumber i).key ≠ request.key) :
    (Refused (write mem request fs) fs ↔
      (fs.tableAt request.parentClusterNumber 0).live = false ∨ freeClusters fs.clusterMap = []) ∧
    ((fs.tableAt request.parentClusterNumber 0).live = true → freeClusters fs.clusterMap ≠ [] →
      write mem request fs = .error (.dirTableIndex (-1))) := by
  refine ⟨?_, fun hself => write_full hself hfull hnew⟩
  rw [write_refused_iff]
  constructor
  · rintro (hdead | ⟨i, hi, hkey, -⟩ | hnone)
    · exact .inl hdead
    · exact absurd hkey (hnew i hi)
    · exact .inr hnone
  · rintro (hdead | hnone)
    · exact .inl hdead
    · exact .inr (.inr hnone)

end Full

/-- The `n`-th of a row of requests for small files in the root directory. -/
def rowRequest (n : Nat) : DriverRequest :=
  ⟨0, #v[UInt8.ofNat (n + 1), 0, 0, 0, 0, 0, 0, 0], Vector.replicate 3 0, 2, 1⟩

theorem rowRequest_key_inj {m n : Nat} (hm : m < 255) (hn : n < 255)
    (h : (rowRequest m).key = (rowRequest n).key) : m = n := by
  have hname : (rowRequest m).name[0] = (rowRequest n).name[0] :=
    congrArg (fun v : Vector UInt8 8 => v[0]) (congrArg Prod.fst h)
  have hbyte : UInt8.ofNat (m + 1) = UInt8.ofNat (n + 1) := hname
  have := congrArg UInt8.toNat hbyte
  rw [UInt8.toNat_ofNat', UInt8.toNat_ofNat'] at this
  omega

theorem rowRequest_name_ne (n : Nat) (hn : n < 255) :
    (rowRequest n).name ≠ Vector.replicate 8 0 := by
  intro h
  have hbyte : UInt8.ofNat (n + 1) = 0 := congrArg (fun v : Vector UInt8 8 => v[0]) h
  have := congrArg UInt8.toNat hbyte
  rw [UInt8.toNat_ofNat', UInt8.toNat_zero] at this
  omega

/-- The first `n` of the files of the row fill the root directory from slot 2 on. -/
theorem exists_row (n : Nat) (hn : n ≤ 62) : ∃ fs, Reachable fs ∧
    509 ≤ (freeClusters fs.clusterMap).length + n ∧
    (∀ i : Fin 64, 2 ≤ i.val → ((fs.tableAt 2 i).live = true ↔ i.val < n + 2)) ∧
    ∀ i : Fin 64, 2 ≤ i.val → i.val < n + 2 →
      (fs.tableAt 2 i).key = (rowRequest (i.val - 2)).key ∧
        (fs.tableAt 2 i).isSubdirectory = false := by
  induction n with
  | zero =>
    have hroom : 509 ≤ (freeClusters blankFileSystem.clusterMap).length :=
      length_freeClusters_createFat32
    refine ⟨blankFileSystem, .create _ _ _, hroom.trans (Nat.le_add_right _ _), ?_, ?_⟩
    · intro i hi
      rw [show blankFileSystem.tableAt 2 i = .zero from tableAt_createFat32 i hi]
      exact iff_of_false (fun h => nomatch h) (by omega)
    · intro i hi hlt
      omega
  | succ n ih =>
    obtain ⟨fs, hreach, hroom, hlive, hkeys⟩ := ih (by omega)
    have ha : fs.Accepts (rowRequest n) := by
      refine ⟨.root, fun hfull => ?_, ?_, ?_⟩
      · have := (hlive ⟨n + 2, by omega⟩ (by simp)).1 (hfull _ (by simp))
        simp at this
      · rintro e ⟨i, hi, rfl, hl⟩ hkey
        have hlt := (hlive i hi).1 hl
        have := rowRequest_key_inj (by omega) (by omega) ((hkeys i hi hlt).1.symm.trans hkey)
        omega
      · show clustersWanted 1 ≤ _
        have hone : clustersWanted 1 ≤ 1 := by decide
        omega
    obtain ⟨i, c, l, fs', hrun, hw⟩ := write_spec (fun _ => 1) hreach.inOrder.sound ha
    have hi : i.val = n + 2 := by
      obtain ⟨hlo, hdead, hbefore⟩ := hw.slot
      have hge : ¬ i.val < n + 2 := fun hlt => by
        have := (hlive i hlo).2 hlt
        rw [show fs.tableAt 2 i = fs.tableAt (rowRequest n).parentClusterNumber i from rfl] at this
        rw [hdead] at this
        cases this
      have hle : ¬ n + 2 < i.val := fun hlt => by
        have hmid := hbefore ⟨n + 2, by omega⟩ hlt (by simp)
        have := (hlive ⟨n + 2, by omega⟩ (by simp)).1 hmid
        simp at this
      omega
    have htable : fs'.tableAt 2 = Function.update (fs.tableAt 2) i
        (createdEntry (rowRequest n) c) :=
      hw.table
    refine ⟨fs', hreach.step (Request.permitted_of_accepts (fun _ => 1) ha
      (rowRequest_name_ne n (by omega))) hrun, ?_, ?_, ?_⟩
    · have hlen := hw.length_freeClusters
      have hone : clusterNeeded (rowRequest n).bufferSize ≤ 1 := (by decide : clusterNeeded 1 ≤ 1)
      omega
    · intro j hj
      rw [htable, Function.update_apply]
      split
      · next hji =>
        rw [createdEntry_live, hji]
        exact iff_of_true rfl (by omega)
      · next hji =>
        have hne : j.val ≠ i.val := fun h => hji (Fin.ext h)
        rw [hlive j hj]
        omega
    · intro j hj hlt
      rw [htable, Function.update_apply]
      split
      · next hji =>
        refine ⟨?_, rfl⟩
        rw [createdEntry_key, hji, hi]
        rfl
      · next hji =>
        have hne : j.val ≠ i.val := fun h => hji (Fin.ext h)
        exact hkeys j hj (by omega)

/-- The root directory is full after 62 of the files, and there are free clusters. -/
theorem exists_fullRoot : ∃ fs, Reachable fs ∧ fs.Full 2 ∧
    (∀ i : Fin 64, 2 ≤ i.val → (fs.tableAt 2 i).key ≠ (rowRequest 62).key) ∧
    (fs.tableAt 2 0).live = true ∧ freeClusters fs.clusterMap ≠ [] := by
  obtain ⟨fs, hreach, hroom, hlive, hkeys⟩ := exists_row 62 le_rfl
  refine ⟨fs, hreach, fun i hi => (hlive i hi).2 (by omega), ?_,
    (hreach.inOrder.table .root).self, fun hnone => ?_⟩
  · intro i hi hkey
    have := rowRequest_key_inj (by omega) (by omega) ((hkeys i hi (by omega)).1.symm.trans hkey)
    omega
  · rw [hnone, List.length_nil] at hroom
    omega

/-- The root directory holds 62 files, and the write of another one stores its entry at
`table[-1]`. -/
theorem write_full_faults : ∃ fs, Reachable fs ∧ fs.LiveDir 2 ∧ fs.Full 2 ∧
    (∀ i : Fin 64, 2 ≤ i.val → (fs.tableAt 2 i).key ≠ (rowRequest 62).key) ∧
    write (fun _ => 1) (rowRequest 62) fs = .error (.dirTableIndex (-1)) := by
  obtain ⟨fs, hreach, hfull, hnew, hself, hfree⟩ := exists_fullRoot
  exact ⟨fs, hreach, .root, hfull, hnew, write_full hself hfull hnew hfree⟩

/-- That write is not refused. -/
theorem write_full_not_refused : ∃ fs, Reachable fs ∧ fs.Full 2 ∧
    ¬ Refused (write (fun _ => 1) (rowRequest 62) fs) fs := by
  obtain ⟨fs, hreach, hfull, hnew, hself, hfree⟩ := exists_fullRoot
  have h := @write_full_refused_iff (rowRequest 62) fs (fun _ => 1) hfull hnew
  refine ⟨fs, hreach, hfull, fun hrefused => ?_⟩
  rcases h.1.1 hrefused with hdead | hnone
  · exact Bool.false_ne_true (hdead.symm.trans hself)
  · exact hfree hnone

/-! ### A full disk -/

section Exhausted
variable {mem : UInt32 → UInt8} {request : DriverRequest} {fs : FileSystem} {i : Fin 64}
  {start : UInt32} {rest : List UInt32} {n j : Nat} {buf : UInt32}

/-- With fewer free clusters than iterations the loop gets to the cluster -1. -/
theorem writeLoop_exhausted (hfree : freeClusters fs.clusterMap = start :: rest)
    (hn : rest.length < n) : writeLoop mem buf n j start fs = .error (.clusterMapIndex noCluster) ∨
      ∃ fs', writeLoop mem buf n j start fs = .ok (noCluster, fs') := by
  induction n generalizing j start rest fs with
  | zero => omega
  | succ n ih =>
    have hlt := (mem_freeClusters.1 (hfree ▸ List.mem_cons_self)).1.2
    have hmark := freeClusters_store (v := fatEndOfFile) hfree (by decide)
    simp only [writeLoop, ClusterMap.set_eq hlt, ok_bind, ClusterMap.store_store,
      FileSystem.clusterMap_writeClusters]
    cases rest with
    | nil =>
      rw [getEmptyCluster_nil hmark]
      cases n with
      | zero => exact .inr ⟨_, rfl⟩
      | succ n => exact .inl rfl
    | cons next rest =>
      have hnext := (mem_freeClusters.1 (hfree ▸ List.mem_cons_of_mem _ List.mem_cons_self)).1
      have hlink := freeClusters_store (v := next) hfree hnext.ne_empty
      rw [getEmptyCluster_cons hmark]
      exact ih hlink (by simpa using hn)

/-- A file that does not fit on the free clusters ends in the cluster -1. -/
theorem writeFile_exhausted {newEntry : DirectoryEntry}
    (hfree : freeClusters fs.clusterMap = start :: rest)
    (hroom : (start :: rest).length < clusterNeeded request.bufferSize) :
    writeFile mem request (some i) start newEntry fs = .error (.clusterMapIndex noCluster) := by
  have hn : rest.length < clusterNeeded request.bufferSize - 1 := by
    rw [List.length_cons] at hroom
    omega
  let e : DirectoryEntry := { newEntry with attr := 0, filesize := request.bufferSize }
  let fs₁ : FileSystem :=
    { fs with dirTableBuf := Function.update fs.dirTableBuf i e }.writeClusters
    (bufCluster mem request.buf 0) start
  unfold writeFile
  have hexhausted : writeLoop mem request.buf (clusterNeeded request.bufferSize - 1) 1 start fs₁ =
      .error (.clusterMapIndex noCluster) ∨ ∃ fs', writeLoop mem request.buf
        (clusterNeeded request.bufferSize - 1) 1 start fs₁ = .ok (noCluster, fs') :=
    writeLoop_exhausted hfree hn
  rcases hexhausted with hloop | ⟨fs', hloop⟩
  · show (writeLoop mem request.buf (clusterNeeded request.bufferSize - 1) 1 start fs₁ >>=
      fun last => _) = (_ : Except Fault FileSystem)
    rw [hloop]
    rfl
  · show (writeLoop mem request.buf (clusterNeeded request.bufferSize - 1) 1 start fs₁ >>=
      fun last => _) = (_ : Except Fault FileSystem)
    rw [hloop]
    rfl

/-- A write of a new file for which there are free clusters, but too few of them. -/
theorem write_exhausted (hself : (fs.tableAt request.parentClusterNumber 0).live = true)
    (hnf : ¬ fs.Full request.parentClusterNumber)
    (hnew : ∀ e ∈ fs.entries request.parentClusterNumber, e.key ≠ request.key)
    (hsize : request.bufferSize ≠ 0) (hfree : freeClusters fs.clusterMap ≠ [])
    (hroom : (freeClusters fs.clusterMap).length < clusterNeeded request.bufferSize) :
    write mem request fs = .error (.clusterMapIndex noCluster) := by
  obtain ⟨i, hi⟩ := FileSystem.exists_firstUnused hnf
  obtain ⟨c, l, hc⟩ := List.exists_cons_of_ne_nil hfree
  have hne : c ≠ noCluster := (mem_freeClusters.1 (hc ▸ List.mem_cons_self)).1.ne_noCluster
  have hc' : freeClusters (fs.readDirTableBuf request.parentClusterNumber).clusterMap = c :: l := hc
  rw [write_eq_writeEntry hself hi hnew]
  unfold writeEntry
  rw [getEmptyCluster_cons hc']
  dsimp only
  rw [if_neg hne, if_neg hsize, writeFile_exhausted hc' (hc ▸ hroom)]
  rfl

/-- A write of a new file that needs more clusters than are free is refused exactly when the parent
is not marked as a directory or no cluster is free at all. Otherwise it uses the cluster number
-1. -/
theorem write_exhausted_refused_iff (mem : UInt32 → UInt8)
    (hnf : ¬ fs.Full request.parentClusterNumber)
    (hnew : ∀ e ∈ fs.entries request.parentClusterNumber, e.key ≠ request.key)
    (hsize : request.bufferSize ≠ 0)
    (hroom : (freeClusters fs.clusterMap).length < clusterNeeded request.bufferSize) :
    (Refused (write mem request fs) fs ↔
      (fs.tableAt request.parentClusterNumber 0).live = false ∨ freeClusters fs.clusterMap = []) ∧
    ((fs.tableAt request.parentClusterNumber 0).live = true → freeClusters fs.clusterMap ≠ [] →
      write mem request fs = .error (.clusterMapIndex noCluster)) := by
  refine ⟨?_, fun hself hfree => write_exhausted hself hnf hnew hsize hfree hroom⟩
  rw [write_refused_iff]
  constructor
  · rintro (hdead | ⟨i, hi, hkey, hlive⟩ | hnone)
    · exact .inl hdead
    · exact absurd hkey (hnew _ (slot_mem_records hi (hlive i le_rfl hi)))
    · exact .inr hnone
  · rintro (hdead | hnone)
    · exact .inl hdead
    · exact .inr (.inr hnone)

end Exhausted

theorem length_freeClusters_le (m : ClusterMap) : (freeClusters m).length ≤ 512 := by
  rw [freeClusters, List.length_map]
  exact (nodup_matchesFrom _ _).length_le_card.trans_eq (Fintype.card_fin 512)

/-- On a blank disk a file of 2 MiB is accepted up to the last free cluster and then faults. -/
theorem write_exhausted_faults :
    (blankFileSystem.tableAt 2 0).live = true ∧ ¬ blankFileSystem.Full 2 ∧
    (freeClusters blankFileSystem.clusterMap).length < clusterNeeded 0x200000 ∧
    write (fun _ => 1) (sampleRequest 'A' 2 0x200000) blankFileSystem =
      .error (.clusterMapIndex noCluster) := by
  have ha : blankFileSystem.Accepts (sampleRequest 'A' 2 1) :=
    accepts_createFat32 rfl (by decide)
  have hself : (blankFileSystem.tableAt 2 0).live = true :=
    (inOrder_createFat32.toWellFormed.table .root).self
  have hroom : (freeClusters blankFileSystem.clusterMap).length < clusterNeeded 0x200000 :=
    (length_freeClusters_le _).trans_lt (by decide)
  have hfree : freeClusters blankFileSystem.clusterMap ≠ [] := by
    intro hnone
    have hlen : 509 ≤ (freeClusters blankFileSystem.clusterMap).length :=
      length_freeClusters_createFat32
    rw [hnone, List.length_nil] at hlen
    omega
  exact ⟨hself, ha.notFull, hroom,
    write_exhausted hself ha.notFull ha.new (by decide) hfree hroom⟩

/-- That write is not refused. -/
theorem write_exhausted_not_refused :
    ¬ Refused (write (fun _ => 1) (sampleRequest 'A' 2 0x200000) blankFileSystem)
        blankFileSystem := by
  have ha : blankFileSystem.Accepts (sampleRequest 'A' 2 1) :=
    accepts_createFat32 rfl (by decide)
  have hroom : (freeClusters blankFileSystem.clusterMap).length < clusterNeeded 0x200000 :=
    (length_freeClusters_le _).trans_lt (by decide)
  have hlen : 509 ≤ (freeClusters blankFileSystem.clusterMap).length :=
    length_freeClusters_createFat32
  have h := @write_exhausted_refused_iff (sampleRequest 'A' 2 0x200000) blankFileSystem (fun _ => 1)
    ha.notFull ha.new (by decide) hroom
  rw [h.1]
  rintro (hdead | hnone)
  · have hself : (blankFileSystem.tableAt 2 0).live = true :=
      (inOrder_createFat32.toWellFormed.table .root).self
    exact Bool.false_ne_true (hdead.symm.trans hself)
  · rw [hnone, List.length_nil] at hlen
    omega

/-! ## The other operations -/

/-- The checks of `delete`: its parent is not marked as a directory, no slot carries the name, or
the first one that does is a folder with entries. -/
def RefusesDelete (request : DriverRequest) (fs : FileSystem) : Prop :=
  (fs.tableAt request.parentClusterNumber 0).live = false ∨
  (∀ i : Fin 64, 2 ≤ i.val → (fs.tableAt request.parentClusterNumber i).key ≠ request.key) ∨
  ∃ i, findFrom 2 (fun i => (fs.tableAt request.parentClusterNumber i).hasKey request.key) =
    some i ∧
    (fs.tableAt request.parentClusterNumber i).isSubdirectory = true ∧
    ∃ j : Fin 64, 2 ≤ j.val ∧
      (fs.tableAt (fs.tableAt request.parentClusterNumber i).cluster j).live = true

/-- The checks of `delete_all`. -/
def RefusesDeleteAll (request : DriverRequest) (fs : FileSystem) : Prop :=
  (fs.tableAt request.parentClusterNumber 0).live = false ∨
  ∀ i : Fin 64, 2 ≤ i.val → (fs.tableAt request.parentClusterNumber i).key ≠ request.key

/-- The checks of `move`: its source parent is not marked as a directory, or the searches do not
find the source, a slot for it, and another directory than itself. -/
def RefusesMove (src tar : DriverRequest) (fs : FileSystem) : Prop :=
  (fs.tableAt src.parentClusterNumber 0).live = false ∨
  ∀ i T k key, ¬ Selected fs src tar i T k key

section Others
variable {request src tar : DriverRequest} {fs : FileSystem} {steps : Nat}

theorem tableEmpty_eq_false {t : DirectoryTable} :
    tableEmpty t = false ↔ ∃ j : Fin 64, 2 ≤ j.val ∧ (t j).live = true := by
  rw [tableEmpty, Option.isNone_eq_false_iff, Option.isSome_iff_exists]
  constructor
  · rintro ⟨j, hj⟩
    obtain ⟨hlo, hlive, -⟩ := findFrom_eq_some.1 hj
    exact ⟨j, hlo, hlive⟩
  · rintro ⟨j, hlo, hlive⟩
    exact findFrom_isSome hlo hlive

/-- The search of `delete` and `delete_all` finds nothing in a table without the name. -/
theorem find_key_eq_none {t : DirectoryTable} {key : Vector UInt8 8 × Vector UInt8 3} :
    findFrom 2 (fun i => (t i).hasKey key) = none ↔ ∀ i : Fin 64, 2 ≤ i.val → (t i).key ≠ key := by
  rw [findFrom_eq_none]
  simp only [DirectoryEntry.hasKey_eq_false]

theorem delete_refused_iff : Refused (delete request fs) fs ↔ RefusesDelete request fs := by
  unfold delete
  dsimp only
  cases hself : (fs.tableAt request.parentClusterNumber 0).live with
  | false =>
    rw [if_pos (by simp [hself])]
    exact iff_of_true (refused_ok (by decide)) (.inl hself)
  | true =>
    unfold RefusesDelete
    rw [if_neg (by simp [hself]), ← find_key_eq_none, hself, or_iff_right (fun h => nomatch h)]
    split
    · next hfind => exact iff_of_true (refused_ok (by decide)) (.inl hfind)
    · next i hfind =>
      split
      · next hkeep =>
        rw [Bool.and_eq_true, Bool.not_eq_true', tableEmpty_eq_false] at hkeep
        exact iff_of_true (refused_ok (by decide)) (.inr ⟨i, hfind, hkeep⟩)
      · next hkeep =>
        rw [Bool.and_eq_true, Bool.not_eq_true', tableEmpty_eq_false] at hkeep
        refine iff_of_false ?_ ?_
        · rintro ⟨code, fs', hrun, hcode, -⟩
          obtain ⟨⟨map, disk⟩, -, hrun⟩ := bind_eq_ok.1 hrun
          obtain ⟨table, -, hrun⟩ := bind_eq_ok.1 hrun
          cases hrun
          exact hcode rfl
        · rintro (hnone | ⟨i', hfind', hfolder⟩)
          · exact nomatch hfind.symm.trans hnone
          · obtain rfl := Option.some.inj (hfind.symm.trans hfind')
            exact hkeep hfolder

theorem deleteAll_refused_iff :
    Refused (deleteAll steps request fs) fs ↔ RefusesDeleteAll request fs := by
  unfold deleteAll
  dsimp only
  cases hself : (fs.tableAt request.parentClusterNumber 0).live with
  | false =>
    rw [if_pos (by simp [hself])]
    exact iff_of_true (refused_ok (by decide)) (.inl hself)
  | true =>
    unfold RefusesDeleteAll
    rw [if_neg (by simp [hself]), ← find_key_eq_none, hself, or_iff_right (fun h => nomatch h)]
    split
    · next hfind => exact iff_of_true (refused_ok (by decide)) hfind
    · next i hfind =>
      refine iff_of_false ?_ fun hnone => nomatch hfind.symm.trans hnone
      rintro ⟨code, fs', hrun, hcode, -⟩
      split at hrun
      all_goals
        obtain ⟨disk, -, hrun⟩ := bind_eq_ok.1 hrun
        obtain ⟨table, -, hrun⟩ := bind_eq_ok.1 hrun
        obtain ⟨map, -, hrun⟩ := bind_eq_ok.1 hrun
        cases hrun
        exact hcode rfl

theorem move_refused_iff : Refused (move src tar fs) fs ↔ RefusesMove src tar fs := by
  cases hself : (fs.tableAt src.parentClusterNumber 0).live with
  | false =>
    refine iff_of_true ?_ (.inl hself)
    rw [move]
    simp only [FileSystem.dirTableBuf_readDirTableBuf, hself, Bool.not_false, ↓reduceIte]
    exact refused_ok (by decide)
  | true =>
    rw [RefusesMove, hself, or_iff_right Bool.true_eq_false_eq_False]
    cases hfind : findFrom 0 fun i =>
        (fs.tableAt src.parentClusterNumber i).hasKey src.key with
    | none =>
      refine iff_of_true ?_ fun i T k key hs => ?_
      · rw [move]
        simp only [FileSystem.dirTableBuf_readDirTableBuf, hself, hfind, Bool.not_true,
          Bool.false_eq_true, ↓reduceIte]
        exact refused_ok (by decide)
      · cases hfind.symm.trans hs.source
    | some i =>
      constructor
      · rintro ⟨code, fs', hrun, hcode, -⟩ i' T k key hs
        rw [hs.move_eq hself] at hrun
        obtain ⟨table, -, hrun⟩ := bind_eq_ok.1 hrun
        cases hrun
        exact hcode rfl
      · intro hnone
        obtain ⟨code, hcode, hrun⟩ := move_refused hself hfind (hnone i)
        rw [hrun]
        exact refused_ok hcode

/-- Whatever the parent is, a request is refused exactly when one of the operation's checks stops
it. The checks ask nothing of the parent but the byte in slot 0 of its cluster, and nothing of the
parent of a target. -/
theorem anyParent_refused_iff (fs : FileSystem) :
    (∀ mem request, Refused (write mem request fs) fs ↔ RefusesWrite request fs) ∧
    (∀ request, Refused (delete request fs) fs ↔ RefusesDelete request fs) ∧
    (∀ steps request, Refused (deleteAll steps request fs) fs ↔ RefusesDeleteAll request fs) ∧
    ∀ src tar, Refused (move src tar fs) fs ↔ RefusesMove src tar fs :=
  ⟨fun _ _ => write_refused_iff, fun _ => delete_refused_iff, fun _ _ => deleteAll_refused_iff,
    fun _ _ => move_refused_iff⟩

end Others

/-- The bytes of a file that passes for a directory: byte 12 is `UATTR_NOT_EMPTY`, the others are
0. -/
def forgedBytes (a : UInt32) : UInt8 := if a = 12 then uattrNotEmpty else 0

/-- Such a file reads as a table that is marked as a directory and has no entries. -/
theorem forgedTable {fs : FileSystem} {c : UInt32}
    (hdata : fs.clusterAt c = bufCluster forgedBytes 0 0) :
    (fs.tableAt c 0).live = true ∧ ∀ i : Fin 64, 2 ≤ i.val → (fs.tableAt c i).live = false := by
  have hbyte : ∀ i, (fs.tableAt c i).userAttribute =
      forgedBytes (0 + UInt32.ofNat (2048 * 0 + (32 * i.val + 12))) := by
    intro i
    rw [FileSystem.tableAt, hdata]
    rfl
  refine ⟨?_, fun i hi => ?_⟩
  · rw [DirectoryEntry.live, hbyte]
    rfl
  · have hne : 0 + UInt32.ofNat (2048 * 0 + (32 * i.val + 12)) ≠ 12 := by
      rw [UInt32.zero_add, ne_eq, ← UInt32.toNat_inj, UInt32.toNat_ofNat']
      simp only [UInt32.reduceToNat]
      omega
    rw [DirectoryEntry.live, hbyte, forgedBytes, if_neg hne]
    rfl

/-- The root directory holds such a file, on cluster `c`. -/
theorem exists_forged : ∃ fs c, Reachable fs ∧ DataCluster c ∧ ¬ fs.LiveDir c ∧
    fs.clusterAt c = bufCluster forgedBytes 0 0 ∧ c ∉ freeClusters fs.clusterMap ∧
    0 < (freeClusters fs.clusterMap).length := by
  have hblank : blankFileSystem.WellFormed := inOrder_createFat32.toWellFormed
  obtain ⟨c, l, fs, hrun, hw⟩ := write_blank forgedBytes (sampleRequest 'A' 2 1) rfl
    (by decide)
  have hcell := mem_freeClusters.1 (hw.fresh c List.mem_cons_self)
  have h : fs.WellFormed := hw.wellFormed hblank
  refine ⟨fs, c, ?_, hcell.1, fun hlive => ?_, hw.data (by decide) 0 (by simp), fun hmem => ?_, ?_⟩
  · exact .step (.create _ _ _) (Request.permitted_of_accepts forgedBytes hw.toAccepts (by decide))
      hrun
  · rcases (hw.grows hblank.sound).live_iff.1 hlive with hlive | ⟨hfolder, -⟩
    · exact hblank.sound.live_ne_free hlive hcell rfl
    · rw [show fatFormat.isFolder = DirectoryEntry.isSubdirectory from rfl,
        createdEntry_isSubdirectory] at hfolder
      exact absurd hfolder (by decide)
  · have he : createdEntry (sampleRequest 'A' 2 1) c ∈ fs.entries 2 := hw.mem_entries
    have howned := h.sound.volume.notFree (h.sound.volume.first_owned .root he)
    rw [createdEntry_first] at howned
    exact howned (mem_freeClusters.1 hmem).2
  · have hlen := hw.length_freeClusters
    have hroom : 509 ≤ (freeClusters blankFileSystem.clusterMap).length :=
      length_freeClusters_createFat32
    have hone : clusterNeeded (sampleRequest 'A' 2 1).bufferSize ≤ 1 :=
      (by decide : clusterNeeded 1 ≤ 1)
    omega

/-- A file of the root directory passes for a directory: a write with its cluster as the parent
succeeds. -/
theorem write_into_file : ∃ fs p fs', Reachable fs ∧ p.toNat < 512 ∧ ¬ fs.LiveDir p ∧
    write (fun _ => 1) (sampleRequest 'B' p 1) fs = .ok (0, fs') := by
  obtain ⟨fs, c, hreach, hdata, hdead, hbytes, hused, hroom⟩ := exists_forged
  obtain ⟨hself, hempty⟩ := forgedTable hbytes
  have hslot : IsFirstUnused 2 DirectoryEntry.live (fs.tableAt c) 2 :=
    ⟨by decide, hempty 2 (by decide), fun j hj hlo => absurd hj (not_lt.2 hlo)⟩
  have hnew : ∀ e ∈ fs.entries c, e.key ≠ (sampleRequest 'B' c 1).key := by
    rintro e ⟨j, hj, rfl, hlive⟩
    rw [hempty j hj] at hlive
    cases hlive
  obtain ⟨c', rest, hfree⟩ := List.exists_cons_of_length_pos hroom
  have hwanted : clustersWanted 1 ≤ 1 := by decide
  have hplaced : Placed (sampleRequest 'B' c 1) (fs.readDirTableBuf c) :=
    ⟨hdata.2, hdata.ne_fat, hused⟩
  obtain ⟨fs', hwrite, -⟩ := writeEntry_spec (fun _ => 1) 2 hplaced rfl hfree
    (hwanted.trans (Nat.succ_pos _))
  have hrun : write (fun _ => 1) (sampleRequest 'B' c 1) fs = _ :=
    write_eq_writeEntry hself hslot hnew
  exact ⟨fs, c, fs', hreach, hdata.2, hdead, hrun.trans hwrite⟩

end OsKernel
