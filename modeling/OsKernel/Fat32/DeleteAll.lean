import OsKernel.Fat32.Runs

/-!
# What `delete_all` frees

`delete_all` clears clusters on the disk down the tree, but it sets one cell of the allocation table
only, the one of the removed entry's first cluster: the assignments of `delete_all_folder` and
`delete_all_file` are commented out (`deleteAll_effect`). So the clusters of a removed entry are
freed exactly when there is no more than that one (`deleteAll_released_iff`).
-/

namespace OsKernel

open Lib Relation

/-- The cluster `c` belongs to the entry `e`: it lies on its chain or, when `e` is a folder, belongs
to an entry in it. -/
inductive BelongsTo (fs : FileSystem) : DirectoryEntry → UInt32 → Prop
  | own {e : DirectoryEntry} {c : UInt32} {l : List UInt32} : fs.Chain e l → c ∈ l →
      BelongsTo fs e c
  | inside {e x : DirectoryEntry} {c : UInt32} : e.isSubdirectory = true →
      x ∈ fs.entries e.cluster → BelongsTo fs x c → BelongsTo fs e c

/-- All clusters that belonged to the entry `e` in `fs` are free in `fs'`, in memory and on the
disk. -/
def Released (fs fs' : FileSystem) (e : DirectoryEntry) : Prop :=
  ∀ c, BelongsTo fs e c → fs'.clusterMap.next c = fatEmptyEntry ∧
    (fs'.clusterAt fatClusterNumber).toClusterMap.next c = fatEmptyEntry

section
variable {fs fs' : FileSystem} {request : DriverRequest} {steps : Nat} {e : DirectoryEntry}

/-- `delete_all` frees the first cluster of the entry, and writes the table to the disk. -/
theorem deleteAll_effect (h : fs.Sound) (hp : fs.LiveDir request.parentClusterNumber)
    (he : e ∈ fs.entries request.parentClusterNumber) (hkey : e.key = request.key)
    (hrun : deleteAll steps request fs = .ok (0, fs')) :
    fs'.clusterMap.next = Function.update fs.clusterMap.next e.cluster fatEmptyEntry ∧
      fs'.clusterAt fatClusterNumber = fs'.clusterMap.bytes := by
  have ht := h.table hp
  obtain ⟨i, hfind, _, rfl⟩ := ht.find he hkey
  have hfirst : (fs.tableAt request.parentClusterNumber i).cluster.toNat < 512 :=
    (h.volume.data (h.volume.first_owned hp he)).2
  rw [deleteAll] at hrun
  simp only [FileSystem.dirTableBuf_readDirTableBuf, ht.self, hfind,
    FileSystem.clusterMap_readDirTableBuf, ClusterMap.set_eq hfirst, ok_bind, pure_eq_ok,
    Bool.not_true, Bool.false_eq_true, ↓reduceIte] at hrun
  split at hrun
  · obtain ⟨disk, _, hrun⟩ := bind_eq_ok.1 hrun
    obtain ⟨table, _, hresult⟩ := bind_eq_ok.1 hrun
    cases hresult
    exact ⟨ClusterMap.next_store hfirst, FileSystem.clusterAt_flush_fat⟩
  · obtain ⟨table, _, hresult⟩ := bind_eq_ok.1 hrun
    cases hresult
    exact ⟨ClusterMap.next_store hfirst, FileSystem.clusterAt_flush_fat⟩

/-- `delete_all` removes a file from a directory that is not full. -/
theorem deleteAll_file (h : fs.Sound) (hp : fs.LiveDir request.parentClusterNumber)
    (hnf : ¬ fs.Full request.parentClusterNumber)
    (he : e ∈ fs.entries request.parentClusterNumber) (hkey : e.key = request.key)
    (hfile : e.isSubdirectory = false) (steps : Nat) :
    ∃ fs', deleteAll steps request fs = .ok (0, fs') := by
  have ht := h.table hp
  obtain ⟨i, hfind, hi, rfl⟩ := ht.find he hkey
  obtain ⟨u, hu⟩ := FileSystem.exists_firstUnused hnf
  obtain ⟨last, _, hremove⟩ := ht.removeEntry hu he
  have hfirst : (fs.tableAt request.parentClusterNumber i).cluster.toNat < 512 :=
    (h.volume.data (h.volume.first_owned hp he)).2
  rw [deleteAll]
  simp only [FileSystem.dirTableBuf_readDirTableBuf, ht.self, hfind, hfile, hremove,
    FileSystem.clusterMap_readDirTableBuf, ClusterMap.set_eq hfirst, ok_bind, pure_eq_ok,
    Bool.not_true, Bool.false_eq_true, ↓reduceIte]
  exact ⟨_, rfl⟩

/-- Whatever belongs to a live entry is in use. -/
theorem BelongsTo.notFree (h : fs.Sound) {d c : UInt32} (hd : fs.LiveDir d)
    (he : e ∈ fs.entries d) (hb : BelongsTo fs e c) : fs.clusterMap.next c ≠ fatEmptyEntry := by
  induction hb generalizing d with
  | own hl hc => exact h.volume.notFree ⟨hd, he, _, hl, hc⟩
  | inside hf hx _ ih => exact ih (hd.tail he hf) hx

/-- The first cluster is the only one that belongs to an entry exactly when the entry is a file of
at most one cluster, or a folder without entries. -/
theorem belongsTo_first_iff (h : fs.Sound) {d : UInt32} (hd : fs.LiveDir d)
    (he : e ∈ fs.entries d) : (∀ c, BelongsTo fs e c → c = e.cluster) ↔
      if e.isSubdirectory then fs.entries e.cluster = ∅ else e.filesize.toNat ≤ 2048 := by
  obtain ⟨l, hl, _, hlen⟩ := h.chain hd he
  obtain ⟨t, rfl⟩ := hl.eq_cons
  constructor
  · intro hone
    split_ifs with hf
    · refine Set.eq_empty_iff_forall_notMem.2 fun x hx => ?_
      have hlive : fs.LiveDir e.cluster := hd.tail he hf
      obtain ⟨l', hl', _, _⟩ := h.chain hlive hx
      have hfirst : x.cluster = e.cluster := hone _ (.inside hf hx (.own hl' hl'.head_mem))
      -- `x` and `e` own the same cluster, so the folder would be an entry of itself
      have hox : fs.Owns e.cluster x x.cluster := h.volume.first_owned hlive hx
      rw [hfirst] at hox
      obtain ⟨_, rfl⟩ := h.volume.unique hox (h.volume.first_owned hd he)
      exact h.volume.folderTree.isTree.acyclic hlive (.single ⟨_, hx, hf, rfl⟩)
    · have hnil : t = [] := by
        refine List.eq_nil_iff_forall_not_mem.2 fun c hc => ?_
        have := hone c (.own hl (List.mem_cons_of_mem _ hc))
        exact (List.nodup_cons.1 hl.nodup).1 (this ▸ hc)
      rw [hnil, DirectoryEntry.clusterCount, if_neg hf, List.length_singleton] at hlen
      omega
  · intro hcond c hc
    have hnil : t = [] := by
      refine List.length_eq_zero_iff.1 ?_
      rw [List.length_cons, DirectoryEntry.clusterCount] at hlen
      split_ifs at hcond hlen <;> omega
    cases hc with
    | own hl' hc =>
      rw [hl'.unique hl, hnil] at hc
      exact List.mem_singleton.1 hc
    | inside hf hx _ =>
      rw [if_pos hf] at hcond
      rw [hcond] at hx
      exact absurd hx (Set.notMem_empty _)

/-- A successful `delete_all` of a live entry frees everything that belonged to it, in memory and on
the disk, exactly when the entry is a file of at most one cluster or a folder without entries. -/
theorem deleteAll_released_iff (h : fs.WellFormed)
    (hp : fs.LiveDir request.parentClusterNumber)
    (he : e ∈ fs.entries request.parentClusterNumber) (hkey : e.key = request.key)
    (hrun : deleteAll steps request fs = .ok (0, fs')) :
    Released fs fs' e ↔
      if e.isSubdirectory then fs.entries e.cluster = ∅ else e.filesize.toNat ≤ 2048 := by
  obtain ⟨hmap, hdisk⟩ := deleteAll_effect h.sound hp he hkey hrun
  rw [← belongsTo_first_iff h.sound hp he, Released, hdisk, toClusterMap_bytes]
  simp only [and_self]
  refine forall_congr' fun c => forall_congr' fun hc => ?_
  rw [hmap]
  by_cases hfirst : c = e.cluster
  · rw [hfirst, Function.update_self]
    exact iff_of_true rfl rfl
  · rw [Function.update_of_ne hfirst]
    exact iff_of_false (hc.notFree h.sound hp he) hfirst

end

section OneFile

/-- The first entry of a blank disk is the only one. -/
theorem Created.eq_createdEntry {mem : UInt32 → UInt8} {request : DriverRequest} {c : UInt32}
    {l : List UInt32} {fs : FileSystem} (hw : Created mem request blankFileSystem 2 c l fs)
    (hp : request.parentClusterNumber = rootClusterNumber) :
    (∀ x ∈ fs.entries request.parentClusterNumber, x = createdEntry request c) ∧
      ¬ fs.Full request.parentClusterNumber := by
  have hslot : ∀ j : Fin 64, 2 ≤ j.val →
      (fs.tableAt request.parentClusterNumber j).live = true → j = 2 := by
    intro j hj hlive
    by_contra hne
    rw [hw.table, Function.update_of_ne hne, hp, blankFileSystem, tableAt_createFat32 j hj] at hlive
    cases hlive
  refine ⟨?_, fun hfull => ?_⟩
  · rintro x ⟨j, hj, rfl, hlive⟩
    rw [hslot j hj hlive, hw.table, Function.update_self]
  · have hthree := hslot 3 (by decide) (hfull 3 (by decide))
    exact absurd hthree (by decide)

/-- On a blank disk a file of any size that fits can be created in the root directory. -/
theorem exists_oneFile {request : DriverRequest}
    (hp : request.parentClusterNumber = rootClusterNumber) (hsize : request.bufferSize ≠ 0)
    (hroom : clustersWanted request.bufferSize ≤ 509) : ∃ fs e,
      write (fun _ => 1) request blankFileSystem = .ok (0, fs) ∧ fs.WellFormed ∧
      fs.LiveDir request.parentClusterNumber ∧ ¬ fs.Full request.parentClusterNumber ∧
      e ∈ fs.entries request.parentClusterNumber ∧ e.key = request.key ∧
      e.isSubdirectory = false ∧ e.filesize = request.bufferSize ∧
      (∀ x ∈ fs.entries request.parentClusterNumber, x = e) ∧
      509 ≤ (freeClusters fs.clusterMap).length + clusterNeeded request.bufferSize := by
  have hblank : blankFileSystem.WellFormed := inOrder_createFat32.toWellFormed
  obtain ⟨c, l, fs, hrun, hw⟩ := write_blank (fun _ => 1) request hp hroom
  obtain ⟨hone, hfull⟩ := hw.eq_createdEntry hp
  refine ⟨fs, createdEntry request c, hrun, hw.wellFormed hblank,
    (hw.grows hblank.sound).live_iff.2 (.inl hw.parent), hfull, hw.mem_entries, rfl, ?_, rfl, hone,
    le_trans length_freeClusters_createFat32 hw.length_freeClusters⟩
  rw [← Bool.not_eq_true]
  exact fun hf => hsize (createdEntry_isSubdirectory.1 hf)

/-- `delete_all` frees a file of one cluster. -/
theorem deleteAll_released_oneCluster : ∃ fs fs' e,
    write (fun _ => 1) (sampleRequest 'A' 2 100) blankFileSystem = .ok (0, fs) ∧ e ∈ fs.entries 2 ∧
    deleteAll 1 (sampleRequest 'A' 2 100) fs = .ok (0, fs') ∧ Released fs fs' e := by
  obtain ⟨fs, e, hrun, h, hp, hnf, he, hkey, hfile, hsize, -⟩ := exists_oneFile
    (show (sampleRequest 'A' 2 100).parentClusterNumber = rootClusterNumber from rfl) (by decide)
    (by decide)
  obtain ⟨fs', hdel⟩ := deleteAll_file h.sound hp hnf he hkey hfile 1
  refine ⟨fs, fs', e, hrun, he, hdel, (deleteAll_released_iff h hp he hkey hdel).2 ?_⟩
  rw [hfile, hsize, if_neg (by decide)]
  decide

/-- `delete_all` does not free the second cluster of a file of two clusters. -/
theorem deleteAll_not_released_twoClusters : ∃ fs fs' e,
    write (fun _ => 1) (sampleRequest 'A' 2 3000) blankFileSystem = .ok (0, fs) ∧
    fs.WellFormed ∧ fs.LiveDir 2 ∧ e ∈ fs.entries 2 ∧
    deleteAll 1 (sampleRequest 'A' 2 3000) fs = .ok (0, fs') ∧ ¬ Released fs fs' e := by
  obtain ⟨fs, e, hrun, h, hp, hnf, he, hkey, hfile, hsize, -⟩ := exists_oneFile
    (show (sampleRequest 'A' 2 3000).parentClusterNumber = rootClusterNumber from rfl) (by decide)
    (by decide)
  obtain ⟨fs', hdel⟩ := deleteAll_file h.sound hp hnf he hkey hfile 1
  refine ⟨fs, fs', e, hrun, h, hp, he, hdel, fun hrel => ?_⟩
  obtain ⟨hmap, _⟩ := deleteAll_effect h.sound hp he hkey hdel
  obtain ⟨l, hl, _, hlen⟩ := h.sound.chain hp he
  rw [DirectoryEntry.clusterCount, hfile, hsize] at hlen
  -- a cluster of the chain other than the first one keeps its cell
  have hkept : ∀ c ∈ l, c = e.cluster := by
    intro c hc
    by_contra hne
    have hfree := (hrel c (.own hl hc)).1
    rw [hmap, Function.update_of_ne hne] at hfree
    exact h.sound.volume.notFree ⟨hp, he, l, hl, hc⟩ hfree
  match l, hl.nodup, hlen with
  | [a, b], hnd, _ =>
    have ha := hkept a (by simp)
    have hb := hkept b (by simp)
    simp [ha, hb] at hnd

end OneFile

end OsKernel
