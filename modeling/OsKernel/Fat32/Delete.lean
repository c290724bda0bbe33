import OsKernel.Fat32.Write
import Mathlib.Data.Fintype.Card

/-!
# What `delete` does

`Deleted` is the specification of a successful `delete`: the entry leaves its directory, the last
entry of the directory taking its slot, and all clusters of its chain are free again. A folder with
entries in it stays (`delete_notEmpty`).
-/

namespace OsKernel

open Lib

/-! ## Finding and removing a slot -/

section Table
variable {t : DirectoryTable} {e : DirectoryEntry} {key : Vector UInt8 8 × Vector UInt8 3}
  {i u : Fin 64}

/-- A live entry is found by its name: the slots before it are live, with other names. -/
theorem TableOk.find (ht : TableOk t) (he : e ∈ records 2 DirectoryEntry.live t)
    (hkey : e.key = key) :
    ∃ i : Fin 64, findFrom 2 (fun i => (t i).hasKey key) = some i ∧ 2 ≤ i.val ∧ t i = e := by
  obtain ⟨j, hj, rfl, hlive⟩ := he
  obtain ⟨i, hi⟩ := findFrom_isSome (i := j) (p := fun i => (t i).hasKey key) hj (by simp [hkey])
  obtain ⟨hlo, hmatch, hbefore⟩ := findFrom_eq_some.1 hi
  have hij : i ≤ j := by
    by_contra hlt
    have := hbefore j (not_le.1 hlt) hj
    simp [hkey] at this
  have hkey' : (t i).key = (t j).key := (DirectoryEntry.hasKey_iff.1 hmatch).trans hkey.symm
  have heq := ht.keyInj i j hlo hj (ht.packed i j hlo hij hlive) hlive hkey'
  exact ⟨i, hi, hlo, by rw [heq]⟩

/-- `get_dir_last_index` is the slot before the first unused one. -/
theorem getDirLastIndex_eq (hu : IsFirstUnused 2 DirectoryEntry.live t u) :
    getDirLastIndex t = u.val - 1 := by
  have hfind : findFrom 2 (fun i => !(t i).live) = some u :=
    findFrom_eq_some.2 ⟨hu.1, by simp [hu.2.1], fun j hj hlo => by simp [hu.2.2 j hj hlo]⟩
  rw [getDirLastIndex, hfind]

/-- In a full table `get_dir_last_index` returns -1, which is 255 as a `uint8_t`. -/
theorem getDirLastIndex_full (hfull : ∀ i : Fin 64, 2 ≤ i.val → (t i).live = true) :
    getDirLastIndex t = 255 := by
  have hfind : findFrom 2 (fun i => !(t i).live) = none :=
    findFrom_eq_none.2 fun i hi => by simp [hfull i hi]
  rw [getDirLastIndex, hfind]

/-- Removing a slot moves the last live entry into it. -/
theorem TableOk.removeEntry (ht : TableOk t) (hu : IsFirstUnused 2 DirectoryEntry.live t u)
    (he : e ∈ records 2 DirectoryEntry.live t) :
    ∃ last, IsLastLive 2 DirectoryEntry.live t last ∧
      ∀ i, removeEntry t i = .ok (swapRemove t i last .zero) := by
  obtain ⟨j, hj, rfl, hlive⟩ := he
  have hju : j.val < u.val := ht.packed.lt_firstUnused hu hlive
  have hlt : getDirLastIndex t < 64 := by
    rw [getDirLastIndex_eq hu]
    omega
  have hlast := getDirLastIndex_eq hu
  refine ⟨⟨getDirLastIndex t, hlt⟩, ht.packed.isLastLive hu ?_ ?_, fun i => ?_⟩
  · show getDirLastIndex t + 1 = u.val
    omega
  · show 2 ≤ getDirLastIndex t
    omega
  · rw [OsKernel.removeEntry, dif_pos hlt]
    rfl

/-- Nothing is removed from a full table. -/
theorem removeEntry_full (hfull : ∀ i : Fin 64, 2 ≤ i.val → (t i).live = true) :
    OsKernel.removeEntry t i = .error (.dirTableIndex 255) := by
  rw [OsKernel.removeEntry, dif_neg (by rw [getDirLastIndex_full hfull]; decide),
    getDirLastIndex_full hfull]
  rfl

/-- Whatever is removed from a table with entries, the last live slot is cleared. -/
theorem TableOk.of_removeEntry {t' : DirectoryTable} (ht : TableOk t)
    (he : e ∈ records 2 DirectoryEntry.live t) (h : OsKernel.removeEntry t i = .ok t') :
    ∃ last, IsLastLive 2 DirectoryEntry.live t last ∧ t' = swapRemove t i last .zero := by
  have hnf : ¬ ∀ j : Fin 64, 2 ≤ j.val → (t j).live = true := by
    intro hfull
    rw [removeEntry_full hfull] at h
    cases h
  obtain ⟨u, hu⟩ := exists_firstUnused_of_notFull hnf
  obtain ⟨last, hlast, hremove⟩ := ht.removeEntry hu he
  rw [hremove i] at h
  cases h
  exact ⟨last, hlast, rfl⟩

/-- Removing a live slot keeps the table in order. -/
theorem TableOk.swapRemove {last : Fin 64} (ht : TableOk t)
    (hlast : IsLastLive 2 DirectoryEntry.live t last) (hlive : (t i).live = true) :
    TableOk (swapRemove t i last .zero) where
  self := by
    have h0 : (0 : Fin 64) ≠ last := by
      rintro rfl
      exact absurd hlast.1 (by decide)
    rw [swapRemove_of_ne h0]
    split
    · exact hlast.2.1
    · exact ht.self
  packed := ht.packed.swapRemove hlast DirectoryEntry.live_zero hlive
  keyInj := ht.keyInj.swapRemove hlast DirectoryEntry.live_zero

/-- The emptiness test of `delete` looks at the child entries. -/
theorem tableEmpty_iff {fs : FileSystem} {c : UInt32} :
    tableEmpty (fs.tableAt c) = true ↔ fs.entries c = ∅ := by
  rw [tableEmpty, Option.isNone_iff_eq_none, findFrom_eq_none, Set.eq_empty_iff_forall_notMem]
  constructor
  · rintro h x ⟨i, hi, rfl, hlive⟩
    rw [h i hi] at hlive
    cases hlive
  · intro h i hi
    by_contra hlive
    exact h _ (slot_mem_records hi (by simpa using hlive))

end Table

/-! ## The loop over the chain -/

section DeleteChain
variable {map : ClusterMap} {disk : Disk} {c : UInt32} {l : List UInt32} {steps : Nat}

/-- The loop frees and clears the clusters of the chain, and no others. It reads the successor of a
cluster before it frees the cluster, so the rest of the chain is still the old one. -/
theorem deleteChain_spec (disk : Disk) (hl : IsChain map.next fatEndOfFile c l)
    (hlt : ∀ d ∈ l, d.toNat < 512)
    (hsteps : l.length < steps) :
    ∃ map' disk', deleteChain steps c map disk = .ok (map', disk') ∧
      (∀ d ∈ l, map'.next d = fatEmptyEntry) ∧ (∀ d, d ∉ l → map'.next d = map.next d) ∧
      ∀ d : UInt32, d.toNat < 512 → d ∉ l → disk'.readClusters d = disk.readClusters d := by
  induction l generalizing map disk c steps with
  | nil => exact absurd rfl hl.ne_nil
  | cons x l ih =>
    obtain ⟨_, hcons⟩ := hl.eq_cons
    obtain ⟨rfl, rfl⟩ := List.cons.inj hcons
    have hx : x.toNat < 512 := hlt x List.mem_cons_self
    have hxe : x ≠ fatEndOfFile := ne_endOfFile_of_lt hx
    have hnext : (map.store x fatEmptyEntry).next = Function.update map.next x fatEmptyEntry :=
      ClusterMap.next_store hx
    have hdisk : ∀ d : UInt32, d.toNat < 512 → d ≠ x →
        (disk.writeClusters .zero x).readClusters d = disk.readClusters d :=
      fun d hd hne => Function.update_of_ne (FileSystem.blockAddress_ne hx hd hne) _ _
    cases steps with
    | zero => exact absurd hsteps (by omega)
    | succ steps =>
      rw [deleteChain, if_neg hxe, ClusterMap.get_eq hx, ok_bind, ClusterMap.set_eq hx, ok_bind]
      cases hl with
      | last hstop =>
        cases steps with
        | zero => exact absurd hsteps (by simp)
        | succ steps =>
          rw [deleteChain, if_pos hstop]
          refine ⟨_, _, rfl, ?_, ?_, ?_⟩
          · intro d hd
            rw [List.mem_singleton.1 hd, hnext, Function.update_self]
          · intro d hd
            rw [hnext, Function.update_of_ne (by simpa using hd)]
          · exact fun d hd hne => hdisk d hd (by simpa using hne)
      | cons hne ht =>
        have hxl : x ∉ l := (List.nodup_cons.1 (IsChain.cons hne ht).nodup).1
        have hkept : ∀ d, d ≠ x → (map.store x fatEmptyEntry).next d = map.next d := by
          intro d hd
          rw [hnext, Function.update_of_ne hd]
        have ht' : IsChain (map.store x fatEmptyEntry).next fatEndOfFile (map.next x) l :=
          ht.congr fun d hd => hkept d fun he => hxl (he ▸ hd)
        obtain ⟨map', disk', hrun, hfreed, hmap, hdisk'⟩ := ih (disk.writeClusters .zero x) ht'
          (fun d hd => hlt d (List.mem_cons_of_mem _ hd)) (by simpa using hsteps)
        refine ⟨map', disk', hrun, ?_, ?_, ?_⟩
        · intro d hd
          rcases List.mem_cons.1 hd with rfl | hd
          · rw [hmap d hxl, hnext, Function.update_self]
          · exact hfreed d hd
        · intro d hd
          rw [List.mem_cons, not_or] at hd
          rw [hmap d hd.2, hkept d hd.1]
        · intro d hd hout
          rw [List.mem_cons, not_or] at hout
          rw [hdisk' d hd hout.2, hdisk d hd hout.1]

/-- A chain visits each cluster at most once, so it has at most `clusterMapSize` clusters. -/
theorem length_le_clusterMapSize (hl : IsChain map.next fatEndOfFile c l)
    (hlt : ∀ d ∈ l, d.toNat < 512) : l.length ≤ clusterMapSize := by
  have hnd : (l.map UInt32.toNat).Nodup :=
    hl.nodup.map fun a b hab => UInt32.toNat_inj.1 hab
  have hsub : (l.map UInt32.toNat) ⊆ List.range 512 := by
    intro n hn
    obtain ⟨d, hd, rfl⟩ := List.mem_map.1 hn
    exact List.mem_range.2 (hlt d hd)
  have := (hnd.subperm hsub).length_le
  simpa using this

end DeleteChain

/-! ## Specification -/

/-- `fs'` is `fs` without the entry `e` of the requested directory, the clusters `l` of its chain
free again. -/
structure Deleted (request : DriverRequest) (fs : FileSystem) (e : DirectoryEntry)
    (l : List UInt32) (fs' : FileSystem) : Prop where
  parent : fs.LiveDir request.parentClusterNumber
  mem : e ∈ fs.entries request.parentClusterNumber
  chain : fs.Chain e l
  freed : ∀ d ∈ l, fs'.clusterMap.next d = fatEmptyEntry
  kept : ∀ d, d ∉ l → fs'.clusterMap.next d = fs.clusterMap.next d
  table : ∃ i last, 2 ≤ i.val ∧ fs.tableAt request.parentClusterNumber i = e ∧
    IsLastLive 2 DirectoryEntry.live (fs.tableAt request.parentClusterNumber) last ∧
    fs'.tableAt request.parentClusterNumber =
      swapRemove (fs.tableAt request.parentClusterNumber) i last .zero
  fatOnDisk : fs'.clusterAt fatClusterNumber = fs'.clusterMap.bytes
  other : ∀ d : UInt32, d.toNat < 512 → d ≠ request.parentClusterNumber → d ≠ fatClusterNumber →
    d ∉ l → fs'.clusterAt d = fs.clusterAt d
  folder : e.isSubdirectory = true → fs.entries e.cluster = ∅

section Delete
variable {request : DriverRequest} {fs fs' : FileSystem} {e : DirectoryEntry} {l : List UInt32}

/-- A file, or a folder without entries, passes the check of `delete`. -/
theorem delete_check (hempty : e.isSubdirectory = true → fs.entries e.cluster = ∅) :
    (e.isSubdirectory && !tableEmpty (fs.tableAt e.cluster)) = false := by
  cases hf : e.isSubdirectory with
  | false => rfl
  | true => rw [tableEmpty_iff.2 (hempty hf)]; rfl

/-- From a full directory nothing is removed. -/
theorem delete_full (h : fs.Sound) (hp : fs.LiveDir request.parentClusterNumber)
    (hfull : fs.Full request.parentClusterNumber)
    (he : e ∈ fs.entries request.parentClusterNumber) (hkey : e.key = request.key)
    (hempty : e.isSubdirectory = true → fs.entries e.cluster = ∅) :
    delete request fs = .error (.dirTableIndex 255) := by
  have ht := h.table hp
  obtain ⟨l, hl, hdata, _⟩ := h.chain hp he
  obtain ⟨i, hfind, hi, rfl⟩ := ht.find he hkey
  have hlt : ∀ d ∈ l, d.toNat < 512 := fun d hd => (hdata d hd).2
  have hsteps : l.length < clusterMapSize + 2 := by
    have := length_le_clusterMapSize hl hlt
    omega
  obtain ⟨map', disk', hrun, -⟩ := deleteChain_spec fs.disk hl hlt hsteps
  rw [delete]
  simp only [FileSystem.dirTableBuf_readDirTableBuf, ht.self, hfind,
    FileSystem.tableAt_readDirTableBuf, delete_check hempty, FileSystem.clusterMap_readDirTableBuf,
    FileSystem.disk_readDirTableBuf, hrun, ok_bind, Bool.not_true, Bool.false_eq_true, ↓reduceIte]
  rw [removeEntry_full hfull]
  rfl

/-- `delete` removes a file, or a folder without entries, from a directory that is not full. -/
theorem delete_spec (h : fs.Sound) (hp : fs.LiveDir request.parentClusterNumber)
    (hnf : ¬ fs.Full request.parentClusterNumber)
    (he : e ∈ fs.entries request.parentClusterNumber) (hkey : e.key = request.key)
    (hempty : e.isSubdirectory = true → fs.entries e.cluster = ∅) :
    ∃ l fs', delete request fs = .ok (0, fs') ∧ Deleted request fs e l fs' := by
  have ht := h.table hp
  obtain ⟨l, hl, hdata, _⟩ := h.chain hp he
  obtain ⟨i, hfind, hi, rfl⟩ := ht.find he hkey
  have hlive := records_live he
  obtain ⟨u, hu⟩ := FileSystem.exists_firstUnused hnf
  obtain ⟨last, hlast, hremove⟩ := ht.removeEntry hu he
  have hlt : ∀ d ∈ l, d.toNat < 512 := fun d hd => (hdata d hd).2
  have hsteps : l.length < clusterMapSize + 2 := by
    have := length_le_clusterMapSize hl hlt
    omega
  obtain ⟨map', disk', hrun, hfreed, hkept, hdisk⟩ := deleteChain_spec fs.disk hl hlt hsteps
  let fs₁ : FileSystem := {
    clusterMap := map'
    dirTableBuf := swapRemove (fs.tableAt request.parentClusterNumber) i last .zero
    disk := disk' }
  refine ⟨l, fs₁.flush request.parentClusterNumber, ?_, hp, he, hl, hfreed, hkept, ?_, ?_, ?_,
    hempty⟩
  · rw [delete]
    simp only [FileSystem.dirTableBuf_readDirTableBuf, ht.self, hfind,
      FileSystem.tableAt_readDirTableBuf, delete_check hempty,
      FileSystem.clusterMap_readDirTableBuf,
      FileSystem.disk_readDirTableBuf, hrun, hremove, ok_bind, pure_eq_ok, Bool.not_true,
      Bool.false_eq_true, ↓reduceIte]
    rfl
  · exact ⟨i, last, hi, rfl, hlast,
      FileSystem.tableAt_flush (h.live_lt hp) (h.live_ne_fat hp)⟩
  · rw [FileSystem.clusterAt_flush_fat, FileSystem.clusterMap_flush]
  · intro d hd hdp hdf hout
    rw [FileSystem.clusterAt_flush_of_ne (h.live_lt hp) hd hdp hdf]
    exact hdisk d hd hout

/-- `delete` leaves a folder that has entries. -/
theorem delete_notEmpty (h : fs.Sound) (hp : fs.LiveDir request.parentClusterNumber)
    (he : e ∈ fs.entries request.parentClusterNumber) (hkey : e.key = request.key)
    (hf : e.isSubdirectory = true) (hne : fs.entries e.cluster ≠ ∅) :
    delete request fs = .ok (2, fs.readDirTableBuf request.parentClusterNumber) := by
  have ht := h.table hp
  obtain ⟨i, hfind, hi, rfl⟩ := ht.find he hkey
  have hempty :
      tableEmpty (fs.tableAt (fs.tableAt request.parentClusterNumber i).cluster) = false := by
    rw [Bool.eq_false_iff]
    exact fun hemp => hne (tableEmpty_iff.1 hemp)
  rw [delete]
  simp only [FileSystem.dirTableBuf_readDirTableBuf, ht.self, hfind,
    FileSystem.tableAt_readDirTableBuf, hf, hempty, Bool.not_true, Bool.not_false, Bool.and_self,
    Bool.false_eq_true, ↓reduceIte]

/-- `delete` reports a name that no slot carries. -/
theorem delete_notFound (hself : (fs.tableAt request.parentClusterNumber 0).live = true)
    (hnone : ∀ i : Fin 64, 2 ≤ i.val →
      (fs.tableAt request.parentClusterNumber i).key ≠ request.key) :
    delete request fs = .ok (1, fs.readDirTableBuf request.parentClusterNumber) := by
  have hfind : (findFrom 2 fun i =>
      (fs.tableAt request.parentClusterNumber i).hasKey request.key) = none :=
    findFrom_eq_none.2 fun i hi => by simp [hnone i hi]
  rw [delete]
  simp only [FileSystem.dirTableBuf_readDirTableBuf, hself, hfind, Bool.not_true,
    Bool.false_eq_true, ↓reduceIte]

namespace Deleted
variable (h : fs.Sound) (hw : Deleted request fs e l fs')
include h hw

/-- The other directories keep their tables, but for the removed one. -/
theorem tableAt_of_ne {d : UInt32} (hd : fs.LiveDir d) (hne : d ≠ request.parentClusterNumber)
    (hout : d ∉ l) : fs'.tableAt d = fs.tableAt d :=
  FileSystem.tableAt_congr (hw.other d (h.live_lt hd) hne (h.live_ne_fat hd) hout)

/-- The volume shrinks by the entry and its chain. -/
theorem shrinks :
    fs.volume.Shrinks fatFormat fs'.volume request.parentClusterNumber e l where
  parent := hw.parent
  mem := hw.mem
  chain := hw.chain
  freed := hw.freed
  kept := hw.kept
  records := by
    obtain ⟨i, last, hi, rfl, hlast, htable⟩ := hw.table
    show fs'.entries _ = _
    rw [FileSystem.entries, htable, records_swapRemove hlast DirectoryEntry.live_zero
      (h.table hw.parent).keyInj hi (records_live hw.mem)]
    rfl
  other d hd hne hout := FileSystem.entries_congr (hw.tableAt_of_ne h hd hne hout)
  folder := hw.folder

/-- The first two slots of the directories that are left stay the same. -/
theorem slot_head {d : UInt32} (hd : fs'.LiveDir d) {j : Fin 64} (hj : j.val < 2) :
    fs'.tableAt d j = fs.tableAt d j := by
  obtain ⟨hd, hne⟩ := ((hw.shrinks h).live_iff h.volume).1 hd
  by_cases hdp : d = request.parentClusterNumber
  · obtain ⟨i, last, hi, rfl, hlast, htable⟩ := hw.table
    have hchild : ∀ x : Fin 64, 2 ≤ x.val → j ≠ x := by
      rintro x hx rfl
      exact absurd hx (not_le.2 hj)
    rw [hdp, htable, swapRemove_of_ne (hchild last hlast.1), if_neg (hchild i hi)]
  · rw [hw.tableAt_of_ne h hd hdp fun hmem => hne ((hw.shrinks h).freed_live h.volume hd hmem)]

/-- A reserved cluster is on no chain. -/
theorem notMem {d : UInt32} (hd : ¬ DataCluster d) : d ∉ l :=
  fun hmem => hd (h.volume.data ((hw.shrinks h).owns_of_mem hmem))

/-- The entries stay in order. -/
theorem sound : fs'.Sound where
  volume := (hw.shrinks h).sound h.volume
  table {d} hd := by
    obtain ⟨hd, hne⟩ := ((hw.shrinks h).live_iff h.volume).1 hd
    by_cases hdp : d = request.parentClusterNumber
    · subst hdp
      obtain ⟨i, last, hi, rfl, hlast, htable⟩ := hw.table
      rw [htable]
      exact (h.table hd).swapRemove hlast (records_live hw.mem)
    · rw [hw.tableAt_of_ne h hd hdp fun hmem => hne ((hw.shrinks h).freed_live h.volume hd hmem)]
      exact h.table hd

omit h in
/-- The file system stays in order. -/
theorem wellFormed (h : fs.WellFormed) : fs'.WellFormed where
  map0 := (hw.kept _ (hw.notMem h.sound (by decide))).trans h.map0
  map1 := (hw.kept _ (hw.notMem h.sound (by decide))).trans h.map1
  map2 := (hw.kept _ (hw.notMem h.sound (by decide))).trans h.map2
  volume := (hw.shrinks h.sound).wellFormed h.volume
  table := (hw.sound h.sound).table

end Deleted

end Delete

end OsKernel
