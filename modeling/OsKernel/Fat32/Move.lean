import OsKernel.Fat32.DeleteAll

/-!
# What `move` does

`targetSlot` is the outcome of the two target searches. Where they find a slot and the source is not
moved into itself, `move` comes down to `moveEntry` (`Selected.move_eq`), whose three table writes
`Moved` describes. The last of them stores the target directory as it was before the source entry
left, so that the removal is lost when source and target directory are one.
-/

namespace OsKernel

open Lib

/-! ## Renaming an entry -/

/-- The entry under another name. -/
def DirectoryEntry.rename (e : DirectoryEntry) (key : Vector UInt8 8 × Vector UInt8 3) :
    DirectoryEntry :=
  { e with name := key.1, ext := key.2 }

section Rename
variable {e e' : DirectoryEntry} {key : Vector UInt8 8 × Vector UInt8 3}

@[simp] theorem rename_key : (e.rename key).key = key := rfl
@[simp] theorem rename_live : (e.rename key).live = e.live := rfl
@[simp] theorem rename_cluster : (e.rename key).cluster = e.cluster := rfl
@[simp] theorem rename_isSubdirectory : (e.rename key).isSubdirectory = e.isSubdirectory := rfl
@[simp] theorem rename_self : e.rename e.key = e := rfl

/-- Two entries of one name that are renamed alike were the same. -/
theorem rename_inj (hkey : e.key = e'.key) : e.rename key = e'.rename key ↔ e = e' := by
  refine ⟨fun h => ?_, congrArg fun x : DirectoryEntry => x.rename key⟩
  have hback : (e.rename key).rename e.key = (e'.rename key).rename e.key := by rw [h]
  calc e = (e.rename key).rename e.key := rfl
    _ = (e'.rename key).rename e'.key := by rw [hback, hkey]
    _ = e' := rfl

end Rename

/-! ## The searches -/

/-- The directory, the slot and the name that `move` finds for its target: in the folder that
carries the target's name, if there is one, under the source's name. -/
def targetSlot (fs : FileSystem) (src tar : DriverRequest) :
    Option (UInt32 × Fin 64 × (Vector UInt8 8 × Vector UInt8 3)) :=
  match searchTarget (fs.tableAt tar.parentClusterNumber) tar.key with
  | .slot k => some (tar.parentClusterNumber, k, tar.key)
  | .folder c =>
    match searchTargetFolder (fs.tableAt c) src.key with
    | .slot k => some (c, k, src.key)
    | _ => none
  | _ => none

section Search
variable {t : DirectoryTable} {key : Vector UInt8 8 × Vector UInt8 3} {k : Fin 64}
  {fs : FileSystem} {src tar : DriverRequest} {T c : UInt32}

/-- `k` is the first unused slot of the table, and no slot before it carries the name. -/
structure FreeSlot (t : DirectoryTable) (key : Vector UInt8 8 × Vector UInt8 3) (k : Fin 64) :
    Prop where
  unused : IsFirstUnused 2 DirectoryEntry.live t k
  new : ∀ j < k, 2 ≤ j.val → (t j).key ≠ key

/-- Where a search stops at an unused slot, the slots before it are used, by other names. -/
theorem freeSlot_of_find
    (h : findFrom 2 (fun i => !(t i).live || (t i).hasKey key) = some k)
    (hdead : (t k).live = false) : FreeSlot t key k := by
  obtain ⟨hlo, _, hbefore⟩ := findFrom_eq_some.1 h
  have hsplit : ∀ j < k, 2 ≤ j.val → (t j).live = true ∧ (t j).key ≠ key := by
    intro j hj hlo'
    simpa using hbefore j hj hlo'
  exact ⟨⟨hlo, hdead, fun j hj hlo' => (hsplit j hj hlo').1⟩, fun j hj hlo' => (hsplit j hj hlo').2⟩

theorem searchTarget_slot (h : searchTarget t key = .slot k) : FreeSlot t key k := by
  rw [searchTarget] at h
  split at h
  · cases h
  · next i hi =>
    split at h
    · split at h <;> cases h
    · next hlive =>
      cases h
      exact freeSlot_of_find hi (by simpa using hlive)

theorem searchTargetFolder_slot (h : searchTargetFolder t key = .slot k) : FreeSlot t key k := by
  rw [searchTargetFolder] at h
  split at h
  · cases h
  · next i hi =>
    split at h
    · cases h
    · next hlive =>
      cases h
      exact freeSlot_of_find hi (by simpa using hlive)

/-- The search of the target's folder never answers with another folder. -/
theorem searchTargetFolder_ne_folder : searchTargetFolder t key ≠ .folder c := by
  rw [searchTargetFolder]
  split
  · exact fun h => nomatch h
  · split <;> exact fun h => nomatch h

/-- The slot that the searches find is the first unused one, and the name is new before it. -/
theorem targetSlot_freeSlot (h : targetSlot fs src tar = some (T, k, key)) :
    FreeSlot (fs.tableAt T) key k := by
  rw [targetSlot] at h
  split at h
  · next hs =>
    cases h
    exact searchTarget_slot hs
  · split at h
    · next hs =>
      cases h
      exact searchTargetFolder_slot hs
    · cases h
  · cases h

/-- A folder that carries the target's name is an entry of the target's directory. -/
theorem searchTarget_folder (h : searchTarget t key = .folder c) :
    ∃ x ∈ records 2 DirectoryEntry.live t, x.key = key ∧ x.isSubdirectory = true ∧
        x.cluster = c := by
  rw [searchTarget] at h
  split at h
  · cases h
  · next i hi =>
    obtain ⟨hlo, hmatch, _⟩ := findFrom_eq_some.1 hi
    split at h
    · next hlive =>
      split at h
      · next hf =>
        cases h
        refine ⟨t i, slot_mem_records hlo hlive, ?_, hf, rfl⟩
        simpa [hlive] using hmatch
      · cases h
    · cases h

/-- The target directory is the target's parent, or a folder in it that carries the target's
name. -/
theorem targetSlot_cases (h : targetSlot fs src tar = some (T, k, key)) :
    (T = tar.parentClusterNumber ∧ key = tar.key) ∨
      (key = src.key ∧ ∃ x ∈ fs.entries tar.parentClusterNumber, x.key = tar.key ∧
        x.isSubdirectory = true ∧ x.cluster = T) := by
  rw [targetSlot] at h
  split at h
  · cases h
    exact .inl ⟨rfl, rfl⟩
  · next hs =>
    split at h
    · cases h
      exact .inr ⟨rfl, searchTarget_folder hs⟩
    · cases h
  · cases h

end Search

/-! ## Specification -/

/-- The table of a moved folder: its name, and the cluster of its new parent. -/
def movedFolderTable (t : DirectoryTable) (key : Vector UInt8 8 × Vector UInt8 3) (T : UInt32) :
    DirectoryTable :=
  Function.update (Function.update t 0 ((t 0).rename key)) 1 ((t 1).setCluster T)

/-- `fs'` is `fs` with the entry `source` of slot `i` of the directory at `S` taken out of its table
and stored as `e'` in slot `k` of the directory at `T`. The tables are written in the order: the
moved folder, the source directory, the target directory. -/
structure Moved (fs : FileSystem) (S T : UInt32) (i k : Fin 64) (e' : DirectoryEntry)
    (t : DirectoryTable) (fs' : FileSystem) : Prop where
  map : fs'.clusterMap = fs.clusterMap
  removed : removeEntry (fs.tableAt S) i = .ok t
  table : ∀ x, fs'.tableAt x =
    if blockAddress x = blockAddress T then Function.update (fs.tableAt T) k e'
    else if blockAddress x = blockAddress S then t
    else if (fs.tableAt S i).isSubdirectory = true ∧
        blockAddress x = blockAddress (fs.tableAt S i).cluster then
      movedFolderTable (fs.tableAt (fs.tableAt S i).cluster) e'.key T
    else fs.tableAt x

section Spec
variable {fs : FileSystem} {src tar : DriverRequest} {S T : UInt32} {i k : Fin 64}
  {key : Vector UInt8 8 × Vector UInt8 3} {e' : DirectoryEntry} {t : DirectoryTable}

/-- What a cluster holds after a write. -/
theorem tableAt_writeClusters_apply (t : DirectoryTable) (c x : UInt32) :
    (fs.writeClusters t.bytes c).tableAt x =
      if blockAddress x = blockAddress c then t else fs.tableAt x := by
  simp only [FileSystem.tableAt, FileSystem.clusterAt, FileSystem.writeClusters,
    Disk.readClusters, Disk.writeClusters, Function.update_apply]
  split
  · rw [toDirectoryTable_bytes]
  · rfl

/-- The part of `move` after the searches writes the tables and returns 0. -/
theorem moveEntry_spec (hbuf : fs.dirTableBuf = fs.tableAt S)
    (ht : removeEntry (fs.tableAt S) i = .ok t) :
    ∃ fs', moveEntry S i T k e' fs = .ok (0, fs') ∧ Moved fs S T i k e' t fs' := by
  let folder := movedFolderTable (fs.tableAt (fs.tableAt S i).cluster) e'.key T
  let target : DirectoryTable := Function.update (fs.tableAt T) k e'
  by_cases hf : (fs.tableAt S i).isSubdirectory = true
  · refine ⟨({ fs.writeClusters folder.bytes (fs.tableAt S i).cluster with
      dirTableBuf := t }.writeClusters t.bytes S).writeClusters target.bytes T, ?_, rfl, ht, ?_⟩
    · simp only [moveEntry, hbuf, hf, ↓reduceIte, FileSystem.dirTableBuf_writeClusters, ht, ok_bind,
        pure_eq_ok]
      rfl
    · intro x
      rw [tableAt_writeClusters_apply, tableAt_writeClusters_apply]
      simp only [hf, true_and, ← tableAt_writeClusters_apply]
      rfl
  · refine ⟨({ fs with dirTableBuf := t }.writeClusters t.bytes S).writeClusters target.bytes T, ?_,
      rfl, ht, ?_⟩
    · simp only [moveEntry, hbuf, hf, Bool.false_eq_true, ↓reduceIte, ht, ok_bind, pure_eq_ok]
      rfl
    · intro x
      rw [tableAt_writeClusters_apply, tableAt_writeClusters_apply]
      simp only [hf, Bool.false_eq_true, false_and, ↓reduceIte]
      rfl

/-- Without an unused slot in the source directory the last index is out of bounds. -/
theorem moveEntry_error {f : Fault} (hbuf : fs.dirTableBuf = fs.tableAt S)
    (ht : removeEntry (fs.tableAt S) i = .error f) : moveEntry S i T k e' fs = .error f := by
  by_cases hf : (fs.tableAt S i).isSubdirectory = true
  · simp only [moveEntry, hbuf, hf, ↓reduceIte, FileSystem.dirTableBuf_writeClusters, ht,
      error_bind]
  · simp only [moveEntry, hbuf, hf, Bool.false_eq_true, ↓reduceIte, ht, error_bind]

/-- The searches of `move` succeed, and the item is not moved into itself. -/
structure Selected (fs : FileSystem) (src tar : DriverRequest) (i : Fin 64) (T : UInt32)
    (k : Fin 64) (key : Vector UInt8 8 × Vector UInt8 3) : Prop where
  source : findFrom 0 (fun i => (fs.tableAt src.parentClusterNumber i).hasKey src.key) = some i
  target : targetSlot fs src tar = some (T, k, key)
  ne : (fs.tableAt src.parentClusterNumber i).cluster ≠ T

/-- The found source slot carries the source's name. -/
theorem Selected.key_eq (hs : Selected fs src tar i T k key) :
    (fs.tableAt src.parentClusterNumber i).key = src.key :=
  DirectoryEntry.hasKey_iff.1 (findFrom_eq_some.1 hs.source).2.1

/-- `move` stores the source entry, under the name the searches came to. -/
theorem Selected.move_eq (hs : Selected fs src tar i T k key)
    (hself : (fs.tableAt src.parentClusterNumber 0).live = true) :
    move src tar fs = moveEntry src.parentClusterNumber i T k
      ((fs.tableAt src.parentClusterNumber i).rename key)
      (fs.readDirTableBuf src.parentClusterNumber) := by
  have htarget := hs.target
  rw [targetSlot] at htarget
  rw [move]
  simp only [FileSystem.dirTableBuf_readDirTableBuf, FileSystem.tableAt_readDirTableBuf, hself,
    hs.source, Bool.not_true, Bool.false_eq_true, ↓reduceIte]
  split at htarget
  · next hsearch =>
    cases htarget
    simp only [hsearch, hs.ne, ↓reduceIte]
    rfl
  · next hsearch =>
    split at htarget
    · next hsearch' =>
      cases htarget
      simp only [hsearch, hsearch', hs.ne, ↓reduceIte]
      rw [← hs.key_eq, rename_self]
    · cases htarget
  · cases htarget

/-- A `move` that completes has written its tables. -/
theorem Selected.moved (hs : Selected fs src tar i T k key)
    (hself : (fs.tableAt src.parentClusterNumber 0).live = true) {code : Int8} {fs' : FileSystem}
    (hrun : move src tar fs = .ok (code, fs')) :
    ∃ t, Moved fs src.parentClusterNumber T i k
      ((fs.tableAt src.parentClusterNumber i).rename key) t fs' := by
  rw [hs.move_eq hself] at hrun
  have hbuf : (fs.readDirTableBuf src.parentClusterNumber).dirTableBuf =
      (fs.readDirTableBuf src.parentClusterNumber).tableAt src.parentClusterNumber := rfl
  cases ht : removeEntry ((fs.readDirTableBuf src.parentClusterNumber).tableAt
      src.parentClusterNumber) i with
  | error f =>
    rw [moveEntry_error hbuf ht] at hrun
    cases hrun
  | ok t =>
    obtain ⟨fs'', hrun', hm⟩ := moveEntry_spec hbuf ht
    rw [hrun'] at hrun
    cases hrun
    exact ⟨t, hm.map, hm.removed, hm.table⟩

/-- With an unused slot in the source directory `move` completes. -/
theorem Selected.exists_moved (hs : Selected fs src tar i T k key)
    (hself : (fs.tableAt src.parentClusterNumber 0).live = true)
    (ht : removeEntry (fs.tableAt src.parentClusterNumber) i = .ok t) :
    ∃ fs', move src tar fs = .ok (0, fs') ∧ Moved fs src.parentClusterNumber T i k
      ((fs.tableAt src.parentClusterNumber i).rename key) t fs' := by
  have hbuf : (fs.readDirTableBuf src.parentClusterNumber).dirTableBuf =
      (fs.readDirTableBuf src.parentClusterNumber).tableAt src.parentClusterNumber := rfl
  obtain ⟨fs', hrun, hm⟩ := moveEntry_spec hbuf ht
  exact ⟨fs', (hs.move_eq hself).trans hrun, hm.map, hm.removed, hm.table⟩

/-- Otherwise `move` refuses the request. -/
theorem move_refused (hself : (fs.tableAt src.parentClusterNumber 0).live = true)
    (hi : findFrom 0 (fun i => (fs.tableAt src.parentClusterNumber i).hasKey src.key) = some i)
    (hnone : ∀ T k key, ¬ Selected fs src tar i T k key) :
    ∃ code, code ≠ 0 ∧
        move src tar fs = .ok (code, fs.readDirTableBuf src.parentClusterNumber) := by
  have hsel : ∀ T k key, targetSlot fs src tar = some (T, k, key) →
      (fs.tableAt src.parentClusterNumber i).cluster = T := by
    intro T k key htarget
    by_contra hne
    exact hnone T k key ⟨hi, htarget, hne⟩
  rw [move]
  simp only [FileSystem.dirTableBuf_readDirTableBuf, FileSystem.tableAt_readDirTableBuf, hself,
    hi, Bool.not_true, Bool.false_eq_true, ↓reduceIte]
  cases hsearch : searchTarget (fs.tableAt tar.parentClusterNumber) tar.key with
  | full => exact ⟨3, by decide, rfl⟩
  | duplicate => exact ⟨2, by decide, rfl⟩
  | slot k =>
    have := hsel tar.parentClusterNumber k tar.key (by rw [targetSlot, hsearch])
    exact ⟨4, by decide, by simp only [this, ↓reduceIte]⟩
  | folder c =>
    cases hsearch' : searchTargetFolder (fs.tableAt c) src.key with
    | full => exact ⟨3, by decide, by simp only [hsearch']⟩
    | duplicate => exact ⟨2, by decide, by simp only [hsearch']⟩
    | folder c' => exact absurd hsearch' searchTargetFolder_ne_folder
    | slot k =>
      have := hsel c k src.key (by rw [targetSlot, hsearch]; simp only [hsearch'])
      exact ⟨4, by decide, by simp only [hsearch', this, ↓reduceIte]⟩

end Spec

end OsKernel
