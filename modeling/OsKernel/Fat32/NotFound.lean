import OsKernel.Fat32.NewFolder
import OsKernel.Fat32.Removal

/-!
# Names that no entry has

`delete`, `delete_all` and `move` compare the name of the request with the bytes of a slot and do
not ask whether the slot is in use; `move` starts at slot 0. So a name that no entry has is reported
as missing exactly when no unused slot carries it (`notFound_iff`), and `move` keeps to the entries
exactly when every slot with the name stands for one (`move_entriesOnly_iff`). An unused slot of
zero bytes has the empty name and the cluster number 0.
-/

namespace OsKernel

open Lib

/-- The operation answers 1 and changes neither the allocation table nor the disk. -/
def AnswersNotFound (x : Except Fault (Int8 × FileSystem)) (fs : FileSystem) : Prop :=
  ∃ fs', x = .ok (1, fs') ∧ fs'.clusterMap = fs.clusterMap ∧ fs'.disk = fs.disk

section NotFound
variable {fs fs' : FileSystem} {request src tar : DriverRequest} {steps : Nat} {i : Fin 64}
  {code : Int8}

theorem answersNotFound_ok {c : UInt32} : AnswersNotFound (.ok (1, fs.readDirTableBuf c)) fs :=
  ⟨_, rfl, rfl, rfl⟩

/-! ## `delete` and `delete_all` -/

/-- `delete` answers 1 only when no slot carries the name. -/
theorem find_of_delete (hrun : delete request fs = .ok (1, fs')) :
    findFrom 2 (fun i => (fs.tableAt request.parentClusterNumber i).hasKey request.key) = none := by
  unfold delete at hrun
  dsimp only at hrun
  rw [FileSystem.dirTableBuf_readDirTableBuf] at hrun
  split at hrun
  · cases hrun
  · split at hrun
    · next hfind => exact hfind
    · split at hrun
      · cases hrun
      · obtain ⟨x, -, hrun⟩ := bind_eq_ok.1 hrun
        obtain ⟨t, -, hrun⟩ := bind_eq_ok.1 hrun
        cases hrun

theorem find_of_deleteAll (hrun : deleteAll steps request fs = .ok (1, fs')) :
    findFrom 2 (fun i => (fs.tableAt request.parentClusterNumber i).hasKey request.key) = none := by
  unfold deleteAll at hrun
  dsimp only at hrun
  rw [FileSystem.dirTableBuf_readDirTableBuf] at hrun
  split at hrun
  · cases hrun
  · split at hrun
    · next hfind => exact hfind
    · split at hrun
      all_goals
        obtain ⟨disk, -, hrun⟩ := bind_eq_ok.1 hrun
        obtain ⟨t, -, hrun⟩ := bind_eq_ok.1 hrun
        obtain ⟨m, -, hrun⟩ := bind_eq_ok.1 hrun
        cases hrun

/-- Where no entry has the name, a slot with it is an unused one. -/
theorem slots_ne_iff {t : DirectoryTable} {key : Vector UInt8 8 × Vector UInt8 3}
    (hno : ∀ e ∈ records 2 DirectoryEntry.live t, e.key ≠ key) :
    (∀ i : Fin 64, 2 ≤ i.val → (t i).key ≠ key) ↔
      ∀ i : Fin 64, 2 ≤ i.val → (t i).live = false → (t i).key ≠ key := by
  constructor
  · exact fun h i hi _ => h i hi
  · intro h i hi
    cases hlive : (t i).live with
    | true => exact hno _ (slot_mem_records hi hlive)
    | false => exact h i hi hlive

/-- A name that no entry of a live directory has is reported as missing exactly when no unused slot
carries it. -/
theorem notFound_iff (h : fs.WellFormed) (hp : fs.LiveDir request.parentClusterNumber)
    (hno : ∀ e ∈ fs.entries request.parentClusterNumber, e.key ≠ request.key) :
    (AnswersNotFound (delete request fs) fs ↔ ∀ i : Fin 64, 2 ≤ i.val →
      (fs.tableAt request.parentClusterNumber i).live = false →
      (fs.tableAt request.parentClusterNumber i).key ≠ request.key) ∧
    ∀ steps, (AnswersNotFound (deleteAll steps request fs) fs ↔ ∀ i : Fin 64, 2 ≤ i.val →
      (fs.tableAt request.parentClusterNumber i).live = false →
      (fs.tableAt request.parentClusterNumber i).key ≠ request.key) := by
  have hself := (h.table hp).self
  refine ⟨?_, fun steps => ?_⟩
  · rw [← slots_ne_iff hno]
    constructor
    · rintro ⟨fs', hrun, -⟩
      exact find_key_eq_none.1 (find_of_delete hrun)
    · intro hnone
      rw [delete_notFound hself hnone]
      exact answersNotFound_ok
  · rw [← slots_ne_iff hno]
    constructor
    · rintro ⟨fs', hrun, -⟩
      exact find_key_eq_none.1 (find_of_deleteAll hrun)
    · intro hnone
      rw [deleteAll_notFound hself hnone]
      exact answersNotFound_ok

/-! ## `move` -/

/-- `src_index`: the slot that `move` takes as its source. -/
def sourceSlot (src : DriverRequest) (fs : FileSystem) : Option (Fin 64) :=
  findFrom 0 fun i => (fs.tableAt src.parentClusterNumber i).hasKey src.key

theorem move_of_find_none (hself : (fs.tableAt src.parentClusterNumber 0).live = true)
    (hfind : sourceSlot src fs = none) :
    move src tar fs = .ok (1, fs.readDirTableBuf src.parentClusterNumber) := by
  have hfind' :
      findFrom 0 (fun i => (fs.tableAt src.parentClusterNumber i).hasKey src.key) = none :=
    hfind
  rw [move]
  simp only [FileSystem.dirTableBuf_readDirTableBuf, hself, hfind', Bool.not_true,
    Bool.false_eq_true, ↓reduceIte]

/-- `move` answers 1 only when no slot carries the name. -/
theorem find_of_move (hrun : move src tar fs = .ok (1, fs')) : sourceSlot src fs = none := by
  unfold move at hrun
  dsimp only at hrun
  rw [FileSystem.dirTableBuf_readDirTableBuf] at hrun
  split at hrun
  · cases hrun
  · split at hrun
    · next hfind => exact hfind
    · split at hrun
      · cases hrun
      · cases hrun
      · split at hrun
        · cases hrun
        · exact absurd (moveEntry_code hrun) (by decide)
      · split at hrun
        · split at hrun
          · cases hrun
          · exact absurd (moveEntry_code hrun) (by decide)
        · cases hrun
        · cases hrun

/-- A `move` keeps to the entries of its source directory: it reports a name that none of them has,
and it neither takes nor changes one of the first two slots. -/
structure MovesEntriesOnly (src tar : DriverRequest) (fs : FileSystem) : Prop where
  missing : (∀ e ∈ fs.entries src.parentClusterNumber, e.key ≠ src.key) →
    AnswersNotFound (move src tar fs) fs
  source : ∀ i, sourceSlot src fs = some i → 2 ≤ i.val
  header : ∀ code fs', move src tar fs = .ok (code, fs') → ∀ j : Fin 64, j.val < 2 →
    fs'.tableAt src.parentClusterNumber j = fs.tableAt src.parentClusterNumber j

/-- A `move` of an entry leaves the first two slots of its directory as they are. -/
theorem Selected.header_kept {T : UInt32} {k : Fin 64} {key : Vector UInt8 8 × Vector UInt8 3}
    {e : DirectoryEntry} (hs : Selected fs src tar i T k key)
    (ht : TableOk (fs.tableAt src.parentClusterNumber))
    (he : e ∈ fs.entries src.parentClusterNumber) (hi : 2 ≤ i.val)
    (hrun : move src tar fs = .ok (code, fs')) {j : Fin 64} (hj : j.val < 2) :
    fs'.tableAt src.parentClusterNumber j = fs.tableAt src.parentClusterNumber j := by
  have hne : ∀ x : Fin 64, 2 ≤ x.val → j ≠ x := by
    rintro x hx rfl
    omega
  obtain ⟨t, hm⟩ := hs.moved ht.self hrun
  obtain ⟨last, hlast, rfl⟩ := ht.of_removeEntry he hm.removed
  rw [hm.table]
  split
  · next hblock =>
    rw [Function.update_of_ne (hne k (targetSlot_freeSlot hs.target).unused.1),
      FileSystem.tableAt_of_blockAddress hblock]
  · rw [if_pos rfl, swapRemove_of_ne (hne last hlast.1), if_neg (hne i hi)]

/-- A `move` out of a live directory keeps to the entries exactly when every slot that carries the
source's name is one from 2 on, and an entry has the name too. -/
theorem move_entriesOnly_iff (h : fs.WellFormed) (hp : fs.LiveDir src.parentClusterNumber) :
    MovesEntriesOnly src tar fs ↔
      ∀ i : Fin 64, (fs.tableAt src.parentClusterNumber i).key = src.key →
        2 ≤ i.val ∧ ∃ e ∈ fs.entries src.parentClusterNumber, e.key = src.key := by
  have ht := h.table hp
  constructor
  · intro hmoves i hkey
    obtain ⟨k, hk⟩ := findFrom_isSome (i := i)
      (p := fun i => (fs.tableAt src.parentClusterNumber i).hasKey src.key) (Nat.zero_le _)
      (DirectoryEntry.hasKey_iff.2 hkey)
    have hki : k ≤ i := by
      by_contra hlt
      have := (findFrom_eq_some.1 hk).2.2 i (not_le.1 hlt) (Nat.zero_le _)
      rw [DirectoryEntry.hasKey_iff.2 hkey] at this
      cases this
    refine ⟨(hmoves.source k hk).trans hki, ?_⟩
    by_contra hnone
    push Not at hnone
    obtain ⟨fs', hrun, -⟩ := hmoves.missing hnone
    exact nomatch (find_of_move hrun).symm.trans hk
  · intro hnames
    have hsource : ∀ i, sourceSlot src fs = some i → 2 ≤ i.val ∧
        ∃ e ∈ fs.entries src.parentClusterNumber, e.key = src.key := fun i hi =>
      hnames i (DirectoryEntry.hasKey_iff.1 (findFrom_eq_some.1 hi).2.1)
    refine ⟨fun hno => ?_, fun i hi => (hsource i hi).1, fun code fs' hrun j hj => ?_⟩
    · cases hfind : sourceSlot src fs with
      | none =>
        rw [move_of_find_none ht.self hfind]
        exact answersNotFound_ok
      | some i =>
        obtain ⟨-, e, he, hkey⟩ := hsource i hfind
        exact absurd hkey (hno e he)
    · cases hfind : sourceSlot src fs with
      | none =>
        rw [move_of_find_none ht.self hfind] at hrun
        cases hrun
        rfl
      | some i =>
        obtain ⟨hi, e, he, hkey⟩ := hsource i hfind
        by_cases hsel : ∃ T k key, Selected fs src tar i T k key
        · obtain ⟨T, k, key, hs⟩ := hsel
          exact hs.header_kept ht he hi hrun hj
        · have hnone : ∀ T k key, ¬ Selected fs src tar i T k key :=
            fun T k key hs => hsel ⟨T, k, key, hs⟩
          obtain ⟨code', -, hrun'⟩ := move_refused ht.self hfind hnone
          rw [hrun] at hrun'
          cases hrun'
          rfl

end NotFound

/-! ### The empty name, and the name of a directory -/

/-- A request for the name of zero bytes in the root directory. -/
def emptyNameRequest : DriverRequest :=
  ⟨0, Vector.replicate 8 0, Vector.replicate 3 0, rootClusterNumber, 0⟩

/-- In a directory with three files the name of a fourth one is reported as missing. -/
theorem notFound_row : ∃ fs, Reachable fs ∧ (∀ i : Fin 64, 2 ≤ i.val → i.val < 5 →
      fs.tableAt 2 i ∈ fs.entries 2) ∧
    AnswersNotFound (delete (rowRequest 3) fs) fs ∧
    AnswersNotFound (deleteAll 1 (rowRequest 3) fs) fs := by
  obtain ⟨fs, hreach, -, hlive, hrow⟩ := exists_row 3 (by decide)
  have hno : ∀ e ∈ fs.entries 2, e.key ≠ (rowRequest 3).key := by
    rintro e ⟨i, hi, rfl, hl⟩ hkey
    have hlt := (hlive i hi).1 hl
    have := rowRequest_key_inj (by omega) (by decide) ((hrow i hi hlt).1.symm.trans hkey)
    omega
  obtain ⟨hdelete, hdeleteAll⟩ :=
    @notFound_iff fs (rowRequest 3) hreach.inOrder.toWellFormed .root hno
  have hslots : ∀ i : Fin 64, 2 ≤ i.val → (fs.tableAt 2 i).live = false →
      (fs.tableAt 2 i).key ≠ (rowRequest 3).key := by
    intro i hi hdead hkey
    have hzero : fs.tableAt 2 i = .zero := hreach.inOrder.clean .root i hi hdead
    rw [hzero] at hkey
    exact rowRequest_name_ne 3 (by decide) (congrArg Prod.fst hkey).symm
  exact ⟨fs, hreach, fun i hlo hi => slot_mem_records hlo ((hlive i hlo).2 hi), hdelete.2 hslots,
    (hdeleteAll 1).2 hslots⟩

/-- The empty name is found in the first unused slot of a new file system: `delete_all` clears the
boot block and frees cluster 0, and `delete` does not answer 1 either. -/
theorem emptyName_found : (∀ e ∈ blankFileSystem.entries 2, e.key ≠ emptyNameRequest.key) ∧
    (∃ fs', deleteAll 1 emptyNameRequest blankFileSystem = .ok (0, fs') ∧
      fs'.clusterAt 0 = .zero ∧ fs'.clusterMap.next 0 = fatEmptyEntry ∧
      blankFileSystem.clusterMap.next 0 = cluster0Value) ∧
    ¬ AnswersNotFound (delete emptyNameRequest blankFileSystem) blankFileSystem := by
  have hzero : ∀ i : Fin 64, 2 ≤ i.val → blankFileSystem.tableAt 2 i = .zero :=
    fun i hi => tableAt_createFat32 i hi
  have hself : (blankFileSystem.tableAt 2 0).live = true :=
    (inOrder_createFat32.toWellFormed.table .root).self
  have hkey : (blankFileSystem.tableAt 2 2).key = emptyNameRequest.key := by
    rw [hzero 2 le_rfl]
    rfl
  have hfind : findFrom 2 (fun i => (blankFileSystem.tableAt 2 i).hasKey emptyNameRequest.key) =
      some 2 :=
    findFrom_eq_some.2 ⟨le_rfl, DirectoryEntry.hasKey_iff.2 hkey,
      fun j hj hlo => absurd hj (not_lt.2 hlo)⟩
  refine ⟨?_, ?_, ?_⟩
  · rintro e ⟨i, hi, rfl, hlive⟩
    rw [hzero i hi] at hlive
    cases hlive
  · have hunused : IsFirstUnused 2 DirectoryEntry.live (blankFileSystem.tableAt 2) 2 := by
      refine ⟨le_rfl, ?_, fun j hj hlo => absurd hj (not_lt.2 hlo)⟩
      rw [hzero 2 le_rfl]
      rfl
    have hremove : ∃ t, removeEntry (blankFileSystem.tableAt 2) 2 = .ok t := by
      rw [removeEntry, dif_pos (by rw [getDirLastIndex_eq hunused]; decide)]
      exact ⟨_, rfl⟩
    obtain ⟨t, hremove⟩ := hremove
    let fs₁ : FileSystem := {
      clusterMap := blankFileSystem.clusterMap.store 0 fatEmptyEntry
      dirTableBuf := t
      disk := deleteAllFile 0 blankFileSystem.disk }
    refine ⟨fs₁.flush 2, ?_, ?_, ?_, ?_⟩
    · unfold deleteAll
      have hparent : emptyNameRequest.parentClusterNumber = 2 := rfl
      simp only [FileSystem.dirTableBuf_readDirTableBuf, FileSystem.clusterMap_readDirTableBuf,
        FileSystem.disk_readDirTableBuf, hparent, hself, hfind, Bool.not_true, Bool.false_eq_true,
        ↓reduceIte, hzero 2 le_rfl, hremove, ok_bind, pure_eq_ok]
      rfl
    · rw [FileSystem.clusterAt_flush_of_ne (by decide) (by decide) (by decide) (by decide)]
      exact Disk.readClusters_writeClusters
    · rw [FileSystem.clusterMap_flush, ClusterMap.next_store (by decide), Function.update_self]
    · rw [blankFileSystem, next_createFat32]
      rfl
  · rintro ⟨fs', hrun, -⟩
    cases (find_of_delete hrun).symm.trans hfind

/-- The folder in a folder is moved by its name. -/
theorem move_entriesOnly_nested : ∃ (fs₁ fs : FileSystem) (a b : DirectoryEntry),
    write (fun _ => 0) (sampleRequest 'A' rootClusterNumber 0) blankFileSystem = .ok (0, fs₁) ∧
    write (fun _ => 0) (sampleRequest 'B' a.cluster 0) fs₁ = .ok (0, fs) ∧
    b ∈ fs.entries a.cluster ∧
    MovesEntriesOnly (sampleRequest 'B' a.cluster 0) (sampleRequest 'C' rootClusterNumber 0)
        fs := by
  obtain ⟨fs₁, fs, a, b, hrun₁, hrun₂, h⟩ := exists_nestedFolders
  have hlive : fs.LiveDir (sampleRequest 'B' a.cluster 0).parentClusterNumber := h.liveOuter
  refine ⟨fs₁, fs, a, b, hrun₁, hrun₂, h.memInner,
    (move_entriesOnly_iff h.inOrder.toWellFormed hlive).2 fun i hkey =>
    ⟨?_, b, h.memInner, h.keyInner⟩⟩
  by_contra hlt
  have hbefore := (findFrom_eq_some.1 h.find_inner).2.2 i (Fin.lt_def.2 (not_le.1 hlt))
    (Nat.zero_le _)
  exact DirectoryEntry.hasKey_eq_false.1 hbefore hkey

/-- The name of a folder, looked up in the folder itself, is that of slot 0: it is taken as the
source, and not reported as missing. -/
theorem move_takes_self : ∃ (fs₁ fs : FileSystem) (a : DirectoryEntry),
    write (fun _ => 0) (sampleRequest 'A' rootClusterNumber 0) blankFileSystem = .ok (0, fs₁) ∧
    write (fun _ => 0) (sampleRequest 'B' a.cluster 0) fs₁ = .ok (0, fs) ∧
    fs.WellFormed ∧ fs.LiveDir a.cluster ∧
    (∀ e ∈ fs.entries a.cluster, e.key ≠ (sampleRequest 'A' a.cluster 0).key) ∧
    sourceSlot (sampleRequest 'A' a.cluster 0) fs = some 0 ∧
    ¬ AnswersNotFound
      (move (sampleRequest 'A' a.cluster 0) (sampleRequest 'C' rootClusterNumber 0) fs) fs := by
  obtain ⟨fs₁, fs, a, b, hrun₁, hrun₂, h⟩ := exists_nestedFolders
  obtain ⟨nextFree, houter⟩ := h.outer
  have hzero : (fs.tableAt a.cluster 0).key = (sampleRequest 'A' a.cluster 0).key := by
    rw [houter, Function.update_of_ne (by decide), newFolderTable_zero]
    rfl
  have hsource : sourceSlot (sampleRequest 'A' a.cluster 0) fs = some 0 :=
    findFrom_eq_some.2 ⟨Nat.zero_le _, DirectoryEntry.hasKey_iff.2 hzero,
      fun j hj _ => absurd (Fin.lt_def.1 hj) (Nat.not_lt_zero _)⟩
  refine ⟨fs₁, fs, a, hrun₁, hrun₂, h.inOrder.toWellFormed, h.liveOuter, ?_, hsource, ?_⟩
  · rintro e ⟨i, hi, rfl, hlive⟩ hkey
    rw [houter] at hlive hkey
    by_cases hi2 : i = 2
    · rw [hi2, Function.update_self] at hkey
      have hne : (sampleRequest 'B' 0 0).key ≠ (sampleRequest 'A' 0 0).key := by decide
      exact hne (h.keyInner.symm.trans hkey)
    · rw [Function.update_of_ne hi2, newFolderTable_slot hi] at hlive
      cases hlive
  · rintro ⟨fs', hrun, -⟩
    exact nomatch (find_of_move hrun).symm.trans hsource

end OsKernel
