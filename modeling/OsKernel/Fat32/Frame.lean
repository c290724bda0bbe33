import OsKernel.Fat32.NewFolder

/-!
# What a reported `write` leaves alone

Whatever cluster a request names as its parent: a `write` that returns 0 wrote to that cluster, to
the allocation table and to clusters that were free, so every other cluster of the disk keeps its
bytes (`write_frame`). For a folder the entry is in the first unused slot of the parent's table even
when no second cluster was free (`write_folder_entry`).
-/

namespace OsKernel

open Lib

section Frame
variable {mem : UInt32 → UInt8} {request : DriverRequest} {fs fs' : FileSystem} {m : ClusterMap}
  {b : ClusterBuffer} {buf c d v start last : UInt32} {n i : Nat}

theorem clusterAt_writeClusters_of_blockAddress (h : blockAddress d ≠ blockAddress c) :
    (fs.writeClusters b c).clusterAt d = fs.clusterAt d :=
  Disk.readClusters_writeClusters_of_ne h

/-- The allocator returns a free cluster, or none. -/
theorem getEmptyCluster_cases (m : ClusterMap) :
    getEmptyCluster m = noCluster ∨ getEmptyCluster m ∈ freeClusters m := by
  cases h : freeClusters m with
  | nil => exact .inl (getEmptyCluster_nil h)
  | cons c l => exact .inr (by rw [getEmptyCluster_cons h]; exact List.mem_cons_self)

theorem getEmptyCluster_ne_zero (m : ClusterMap) : getEmptyCluster m ≠ fatEmptyEntry := by
  rcases getEmptyCluster_cases m with h | h
  · rw [h]
    decide
  · exact (mem_freeClusters.1 h).1.ne_empty

/-- A cell that is assigned does not make a cluster free. -/
theorem mem_freeClusters_of_store (hc : c.toNat < 512) (hv : v ≠ fatEmptyEntry)
    (h : d ∈ freeClusters (m.store c v)) : d ∈ freeClusters m := by
  obtain ⟨hd, hnext⟩ := mem_freeClusters.1 h
  rw [ClusterMap.next_store hc] at hnext
  by_cases heq : d = c
  · rw [heq, Function.update_self] at hnext
    exact absurd hnext hv
  · rw [Function.update_of_ne heq] at hnext
    exact mem_freeClusters.2 ⟨hd, hnext⟩

theorem set_eq_ok {m' : ClusterMap} (h : m.set c v = .ok m') :
    c.toNat < 512 ∧ m' = m.store c v := by
  unfold ClusterMap.set at h
  split at h
  · next hc =>
    cases h
    exact ⟨hc, rfl⟩
  · cases h

/-- A cluster in use is not where the allocator lets anything be written. -/
theorem blockAddress_ne_getEmptyCluster (hd : d.toNat < 512) (hfree : d ∉ freeClusters m) :
    blockAddress d ≠ blockAddress (getEmptyCluster m) := by
  have hcases := getEmptyCluster_cases m
  generalize getEmptyCluster m = c at hcases ⊢
  rcases hcases with rfl | h
  · exact (blockAddress_noCluster_ne hd).symm
  · refine FileSystem.blockAddress_ne (mem_freeClusters.1 h).1.2 hd ?_
    rintro rfl
    exact hfree h

/-- The allocation loop writes to free clusters only. -/
theorem writeLoop_frame (hrun : writeLoop mem buf n i start fs = .ok (last, fs'))
    (hd : d.toNat < 512)
    (hfree : d ∉ freeClusters fs.clusterMap) : fs'.clusterAt d = fs.clusterAt d := by
  induction n generalizing i start fs with
  | zero =>
    cases hrun
    rfl
  | succ n ih =>
    rw [writeLoop] at hrun
    obtain ⟨map, hset, hrun⟩ := bind_eq_ok.1 hrun
    obtain ⟨hstart, rfl⟩ := set_eq_ok hset
    simp only [ClusterMap.set_eq hstart, ok_bind, FileSystem.clusterMap_writeClusters,
      ClusterMap.store_store] at hrun
    have hmark : d ∉ freeClusters (fs.clusterMap.store start fatEndOfFile) := fun h =>
      hfree (mem_freeClusters_of_store hstart (by decide) h)
    refine (ih hrun fun h => ?_).trans
      (clusterAt_writeClusters_of_blockAddress (blockAddress_ne_getEmptyCluster hd hmark))
    exact hfree (mem_freeClusters_of_store hstart (getEmptyCluster_ne_zero _) h)

/-- A reported `write` keeps the clusters in use, but for the allocation table and the one that the
request names as its parent. -/
theorem write_frame (hrun : write mem request fs = .ok (0, fs')) (hd : d.toNat < 512)
    (hfree : d ∉ freeClusters fs.clusterMap) (hfat : d ≠ fatClusterNumber)
    (hp : blockAddress d ≠ blockAddress request.parentClusterNumber) :
    fs'.clusterAt d = fs.clusterAt d := by
  have htable : blockAddress d ≠ blockAddress fatClusterNumber :=
    FileSystem.blockAddress_ne (by decide) hd hfat
  have hnew : blockAddress d ≠ blockAddress (folderCluster fs) :=
    blockAddress_ne_getEmptyCluster hd hfree
  by_cases h0 : request.bufferSize = 0
  · obtain ⟨hc, -, -, -, table, map, hdisk⟩ := write_folder_run h0 hrun
    have hstray : blockAddress d ≠ blockAddress (strayCluster fs) :=
      blockAddress_ne_getEmptyCluster hd fun h =>
        hfree (mem_freeClusters_of_store hc.2 (by decide) h)
    rw [FileSystem.clusterAt, hdisk, folderDisk, Disk.readClusters_writeClusters_of_ne htable,
      Disk.readClusters_writeClusters_of_ne hp,
      Disk.readClusters_writeClusters_of_ne hnew, Disk.readClusters_writeClusters_of_ne hstray]
    rfl
  · obtain ⟨slot, hentry⟩ := write_writeEntry hrun
    rw [writeEntry] at hentry
    dsimp only at hentry
    split at hentry
    · cases hentry
    obtain ⟨fs'', hfile, hentry⟩ := bind_eq_ok.1 hentry
    cases hentry
    rw [writeFile] at hfile
    obtain ⟨table, -, hfile⟩ := bind_eq_ok.1 hfile
    obtain ⟨⟨last, fs₂⟩, hloop, hfile⟩ := bind_eq_ok.1 hfile
    obtain ⟨map, -, hfile⟩ := bind_eq_ok.1 hfile
    cases hfile
    rw [clusterAt_writeClusters_of_blockAddress htable, clusterAt_writeClusters_of_blockAddress hp]
    exact (writeLoop_frame hloop hd hfree).trans
      (clusterAt_writeClusters_of_blockAddress hnew)

/-- The entry of a reported folder is in the first unused slot, and its name was new. -/
theorem write_folder_entry (hp : Placed request fs) (h0 : request.bufferSize = 0)
    (ht : TableOk (fs.tableAt request.parentClusterNumber))
    (hrun : write mem request fs = .ok (0, fs')) :
    ∃ i, IsFirstUnused 2 DirectoryEntry.live (fs.tableAt request.parentClusterNumber) i ∧
      (∀ e ∈ fs.entries request.parentClusterNumber, e.key ≠ request.key) ∧
      fs'.tableAt request.parentClusterNumber =
        Function.update (fs.tableAt request.parentClusterNumber) i
          (createdEntry request (folderCluster fs)) := by
  obtain ⟨hc, -⟩ := write_folder_run h0 hrun
  have hfirst : getEmptyCluster fs.clusterMap = folderCluster fs := rfl
  have hentry : ∀ slot, writeEntry mem request slot
      (fs.readDirTableBuf request.parentClusterNumber) = .ok (0, fs') →
      writeDirectory request slot (folderCluster fs)
        (({ DirectoryEntry.zero with
          name := request.name, ext := request.ext,
          userAttribute := uattrNotEmpty } : DirectoryEntry).setCluster (folderCluster fs))
        (fs.readDirTableBuf request.parentClusterNumber) = .ok fs' := by
    intro slot h
    rw [writeEntry, FileSystem.clusterMap_readDirTableBuf, hfirst] at h
    dsimp only at h
    rw [if_neg hc.ne_noCluster, if_pos h0] at h
    obtain ⟨fs'', hdir, h⟩ := bind_eq_ok.1 h
    cases h
    exact hdir
  rw [write_of_live ht.self] at hrun
  split at hrun
  · have hdir := hentry none hrun
    cases hdir
  · next i hfind =>
    obtain ⟨hlo, hstop, hbefore⟩ := findFrom_eq_some.1 hfind
    split at hrun
    · cases hrun
    next hdead =>
    have hdead := Bool.eq_false_of_not_eq_true hdead
    have hi : IsFirstUnused 2 DirectoryEntry.live (fs.tableAt request.parentClusterNumber) i := by
      refine ⟨hlo, hdead, fun j hj hj' => ?_⟩
      have := hbefore j hj hj'
      simp only [Bool.or_eq_false_iff, Bool.not_eq_false'] at this
      exact this.1
    refine ⟨i, hi, fun e he hkey => ?_, ?_⟩
    · obtain ⟨j, hj, hslot, hlive⟩ := mem_records.1 he
      rcases lt_or_ge j i with hlt | hge
      · have := hbefore j hlt hj
        simp [hslot, hkey] at this
      · have hlive' := ht.packed i j hlo hge (by rw [hslot]; exact hlive)
        rw [hdead] at hlive'
        cases hlive'
    · have hdir := hentry (some i) hrun
      have he : ({ ({ DirectoryEntry.zero with
          name := request.name, ext := request.ext,
          userAttribute := uattrNotEmpty } : DirectoryEntry).setCluster (folderCluster fs) with
          attr := attrSubdirectory, filesize := 0 } : DirectoryEntry) =
            createdEntry request (folderCluster fs) := by
        rw [createdEntry, if_pos h0, h0]
      let fs₁ : FileSystem := { fs with
        dirTableBuf := Function.update (fs.tableAt request.parentClusterNumber) i
          (createdEntry request (folderCluster fs))
        clusterMap := fs.clusterMap.store (folderCluster fs) fatEndOfFile }
      let made := initDirectoryTable .zero request.name request.parentClusterNumber fs₁
      let fs₂ : FileSystem := made.2.writeClusters made.1.bytes (folderCluster fs)
      have hflush : fs' = fs₂.flush request.parentClusterNumber := by
        rw [writeDirectory, he] at hdir
        simp only [setDirTableBuf, ok_bind, FileSystem.clusterMap_readDirTableBuf,
          ClusterMap.set_eq hc.2, pure_eq_ok, FileSystem.dirTableBuf_readDirTableBuf] at hdir
        rw [← Except.ok.inj hdir]
        simp only [FileSystem.flush, FileSystem.clusterMap_writeClusters, fs₂, made, fs₁]
        rfl
      rw [hflush, FileSystem.tableAt_flush hp.lt hp.ne_fat]
      simp only [fs₂, made, fs₁, FileSystem.dirTableBuf_writeClusters,
        dirTableBuf_initDirectoryTable]

/-! ## Files of one cluster -/

/-- A `write` that returned 0 and needed no more than one cluster made the entry. -/
theorem exists_created (h : fs.Sound) (hp : fs.LiveDir request.parentClusterNumber)
    (hone : clustersWanted request.bufferSize = 1) (hrun : write mem request fs = .ok (0, fs')) :
    ∃ i c l, Created mem request fs i c l fs' := by
  have ht := h.table hp
  have hnew : ∀ e ∈ fs.entries request.parentClusterNumber, e.key ≠ request.key := by
    intro e he hkey
    rw [write_duplicate ht he hkey] at hrun
    cases hrun
  have hfree : freeClusters fs.clusterMap ≠ [] := by
    obtain ⟨slot, hentry⟩ := write_writeEntry hrun
    rcases writeEntry_code hentry with ⟨-, hcode⟩ | ⟨hfree, -⟩
    · cases hcode
    · exact hfree
  have hnotFull : ¬ fs.Full request.parentClusterNumber := by
    intro hfull
    rw [write_full ht.self hfull (fun i hi => hnew _ (slot_mem_records hi (hfull i hi)))
      hfree] at hrun
    cases hrun
  have hroom : clustersWanted request.bufferSize ≤ (freeClusters fs.clusterMap).length := by
    rw [hone]
    exact List.length_pos_iff.2 hfree
  obtain ⟨i, c, l, fs'', hrun', hw⟩ := write_spec mem h ⟨hp, hnotFull, hnew, hroom⟩
  rw [hrun] at hrun'
  cases hrun'
  exact ⟨i, c, l, hw⟩

/-- For a file `write` uses the number of the parent only to address its blocks. -/
theorem write_blockAddress (h0 : request.bufferSize ≠ 0)
    (hd : blockAddress d = blockAddress request.parentClusterNumber) :
    write mem { request with parentClusterNumber := d } fs = write mem request fs := by
  have hread : fs.readDirTableBuf d = fs.readDirTableBuf request.parentClusterNumber := by
    rw [FileSystem.readDirTableBuf, FileSystem.readDirTableBuf,
      FileSystem.tableAt_of_blockAddress hd]
  have hstore : ∀ (disk : Disk) (b : ClusterBuffer),
      disk.writeClusters b d = disk.writeClusters b request.parentClusterNumber := by
    intro disk b
    rw [Disk.writeClusters, Disk.writeClusters, hd]
  have hfile : ∀ slot c e (fs : FileSystem),
      writeFile mem { request with parentClusterNumber := d } slot c e fs =
        writeFile mem request slot c e fs := by
    intro slot c e fs
    simp only [writeFile, FileSystem.writeClusters, hstore]
  have hentry : ∀ slot (fs : FileSystem),
      writeEntry mem { request with parentClusterNumber := d } slot fs =
        writeEntry mem request slot fs := by
    intro slot fs
    simp only [writeEntry, h0, ↓reduceIte, hfile]
  simp only [write, hread, hentry]
  rfl

end Frame

end OsKernel
