import OsKernel.Fat32.Codes

/-!
# The table of a new folder

`write` marks the cluster of a new folder before it calls `init_directory_table`, which asks the
allocator for the cluster again and gets the next one. So the entry of a new folder for itself never
carries the folder's own cluster (`write_folder_never`), and a table with that entry alone goes to
the cluster that it does carry, or to none of the disk when it was the last free one
(`write_folder_frame_iff`).
-/

namespace OsKernel

open Lib

/-- The cluster that a new folder gets. -/
def folderCluster (fs : FileSystem) : UInt32 := getEmptyCluster fs.clusterMap

/-- The cluster that `init_directory_table` takes for that of the new folder. -/
def strayCluster (fs : FileSystem) : UInt32 :=
  getEmptyCluster (fs.clusterMap.store (folderCluster fs) fatEndOfFile)

/-- The table that `init_directory_table` writes before slot 1 is filled in. -/
def strayTable (name : Vector UInt8 8) (c : UInt32) : DirectoryTable :=
  Function.update DirectoryTable.zero 0 (DirectoryEntry.zero.folder name c)

/-- The table of the new folder: its own name and cluster, those of the parent, and nothing else. -/
structure FolderTable (request : DriverRequest) (c : UInt32) (t : DirectoryTable) : Prop where
  selfName : (t 0).name = request.name
  selfCluster : (t 0).cluster = c
  parentName : (t 1).name = dotdotName
  parentCluster : (t 1).cluster = request.parentClusterNumber
  empty : ∀ j : Fin 64, 2 ≤ j.val → t j = .zero

/-- No blocks change but those of the new folder, of its parent and of the allocation table. -/
def FolderFrame (request : DriverRequest) (fs fs' : FileSystem) : Prop :=
  ∀ d : UInt32, blockAddress d ≠ blockAddress (folderCluster fs) →
    blockAddress d ≠ blockAddress request.parentClusterNumber →
    blockAddress d ≠ blockAddress fatClusterNumber → fs'.clusterAt d = fs.clusterAt d

/-- What a new folder is supposed to come to. -/
structure FolderMade (request : DriverRequest) (fs fs' : FileSystem) : Prop where
  table : FolderTable request (folderCluster fs) (fs'.tableAt (folderCluster fs))
  frame : FolderFrame request fs fs'

namespace Disk
variable {disk : Disk} {b : ClusterBuffer} {c d : UInt32}

theorem readClusters_writeClusters : (disk.writeClusters b c).readClusters c = b :=
  Function.update_self _ _ _

theorem readClusters_writeClusters_of_ne (h : blockAddress d ≠ blockAddress c) :
    (disk.writeClusters b c).readClusters d = disk.readClusters d :=
  Function.update_of_ne h _ _

end Disk

/-- The cluster number -1 stands for blocks behind all clusters. -/
theorem blockAddress_noCluster_ne {c : UInt32} (hc : c.toNat < 512) :
    blockAddress noCluster ≠ blockAddress c := by
  intro heq
  have hval := congrArg UInt32.toNat heq
  rw [FileSystem.toNat_blockAddress hc, show (blockAddress noCluster).toNat = 268435452 from rfl]
    at hval
  omega

theorem fat_notFree {m : ClusterMap} : fatClusterNumber ∉ freeClusters m :=
  fun hmem => (mem_freeClusters.1 hmem).1.ne_fat rfl

section NewFolder
variable {mem : UInt32 → UInt8} {request : DriverRequest} {fs fs' : FileSystem} {i : Fin 64}
  {e : DirectoryEntry} {c : UInt32} {rest : List UInt32}

/-- The four writes for a new folder. -/
def folderDisk (request : DriverRequest) (fs : FileSystem) (table map : ClusterBuffer) : Disk :=
  let disk := fs.disk.writeClusters (strayTable request.name (strayCluster fs)).bytes
    (strayCluster fs)
  let disk := disk.writeClusters
    (newFolderTable request.name request.parentClusterNumber (strayCluster fs)).bytes
    (folderCluster fs)
  (disk.writeClusters table request.parentClusterNumber).writeClusters map fatClusterNumber

theorem writeDirectory_disk (hc : c.toNat < 512) (hfirst : folderCluster fs = c)
    (h : writeDirectory request (some i) c e fs = .ok fs') :
    ∃ table map, fs'.disk = folderDisk request fs table map := by
  let table : DirectoryTable :=
    Function.update fs.dirTableBuf i { e with attr := attrSubdirectory, filesize := 0 }
  refine ⟨table.bytes, (fs.clusterMap.store c fatEndOfFile).bytes, ?_⟩
  rw [writeDirectory] at h
  simp only [setDirTableBuf, ok_bind, ClusterMap.set_eq hc] at h
  cases h
  simp only [folderDisk, strayCluster, hfirst]
  rfl

/-- A `write` that returns 0 got to the part after the search for a slot. -/
theorem write_writeEntry (hrun : write mem request fs = .ok (0, fs')) : ∃ slot,
    writeEntry mem request slot (fs.readDirTableBuf request.parentClusterNumber) =
        .ok (0, fs') := by
  have hself : (fs.tableAt request.parentClusterNumber 0).live = true := by
    cases hself : (fs.tableAt request.parentClusterNumber 0).live with
    | true => rfl
    | false =>
      rw [write] at hrun
      simp only [FileSystem.dirTableBuf_readDirTableBuf, hself, Bool.not_false, ↓reduceIte] at hrun
      cases hrun
  rw [write_of_live hself] at hrun
  split at hrun
  · exact ⟨none, hrun⟩
  · next i hi =>
    split at hrun
    · cases hrun
    · exact ⟨some i, hrun⟩

/-- A new folder that `write` reports was made with the first free cluster. -/
theorem write_folder_run (h0 : request.bufferSize = 0)
    (hrun : write mem request fs = .ok (0, fs')) :
    DataCluster (folderCluster fs) ∧ folderCluster fs ∈ freeClusters fs.clusterMap ∧
      strayCluster fs ≠ folderCluster fs ∧
      (strayCluster fs = noCluster ∨ strayCluster fs ∈ freeClusters fs.clusterMap) ∧
      ∃ table map, fs'.disk = folderDisk request fs table map := by
  obtain ⟨slot, hentry⟩ := write_writeEntry hrun
  cases hfree : freeClusters fs.clusterMap with
  | nil =>
    rcases writeEntry_code hentry with ⟨-, hcode⟩ | ⟨hne, -⟩
    · cases hcode
    · exact absurd hfree hne
  | cons c rest =>
    have hfirst : folderCluster fs = c := getEmptyCluster_cons hfree
    have hmem : c ∈ freeClusters fs.clusterMap := hfree ▸ List.mem_cons_self
    have hc : DataCluster c := (mem_freeClusters.1 hmem).1
    have hnext : strayCluster fs = rest.head?.getD noCluster := by
      rw [strayCluster, hfirst, getEmptyCluster_eq, freeClusters_store hfree (by decide)]
    rw [writeEntry, FileSystem.clusterMap_readDirTableBuf, getEmptyCluster_cons hfree] at hentry
    dsimp only at hentry
    rw [if_neg hc.ne_noCluster, if_pos h0] at hentry
    obtain ⟨fs'', hdir, hentry⟩ := bind_eq_ok.1 hentry
    cases hentry
    rw [hfirst]
    refine ⟨hc, List.mem_cons_self, ?_, ?_, ?_⟩
    · rw [hnext]
      cases rest with
      | nil => exact fun heq => hc.ne_noCluster heq.symm
      | cons d rest =>
        rintro rfl
        exact (List.nodup_cons.1 (hfree ▸ nodup_freeClusters _)).1 List.mem_cons_self
    · rw [hnext]
      cases rest with
      | nil => exact .inl rfl
      | cons d rest => exact .inr (List.mem_cons_of_mem _ List.mem_cons_self)
    · cases slot with
      | none =>
        rw [writeDirectory] at hdir
        cases hdir
      | some i => exact @writeDirectory_disk request (fs.readDirTableBuf _) _ i _ c hc.2 hfirst hdir

/-- The cluster of the new folder is marked. -/
theorem write_folder_map (h0 : request.bufferSize = 0)
    (hrun : write mem request fs = .ok (0, fs')) :
    fs'.clusterMap = fs.clusterMap.store (folderCluster fs) fatEndOfFile := by
  obtain ⟨hc, -⟩ := write_folder_run h0 hrun
  obtain ⟨slot, hentry⟩ := write_writeEntry hrun
  have hfirst : getEmptyCluster fs.clusterMap = folderCluster fs := rfl
  rw [writeEntry, FileSystem.clusterMap_readDirTableBuf, hfirst] at hentry
  dsimp only at hentry
  rw [if_neg hc.ne_noCluster, if_pos h0] at hentry
  obtain ⟨fs'', hdir, hentry⟩ := bind_eq_ok.1 hentry
  cases hentry
  cases slot with
  | none => cases hdir
  | some i =>
    rw [writeDirectory] at hdir
    simp only [setDirTableBuf, ok_bind, FileSystem.clusterMap_readDirTableBuf,
      ClusterMap.set_eq hc.2] at hdir
    rw [← Except.ok.inj hdir]
    simp only [FileSystem.clusterMap_writeClusters, clusterMap_initDirectoryTable]

/-- The new folder's table is as it should be, except for its own cluster. -/
theorem write_folder_table (hp : Placed request fs) (h0 : request.bufferSize = 0)
    (hrun : write mem request fs = .ok (0, fs')) :
    fs'.tableAt (folderCluster fs) =
      newFolderTable request.name request.parentClusterNumber (strayCluster fs) := by
  obtain ⟨hc, hmem, -, -, table, map, hdisk⟩ := write_folder_run h0 hrun
  have hne : folderCluster fs ≠ request.parentClusterNumber := fun heq => hp.notFree (heq ▸ hmem)
  rw [FileSystem.tableAt, FileSystem.clusterAt, hdisk, folderDisk]
  rw [Disk.readClusters_writeClusters_of_ne (FileSystem.blockAddress_ne (by decide) hc.2 hc.ne_fat),
    Disk.readClusters_writeClusters_of_ne (FileSystem.blockAddress_ne hp.lt hc.2 hne),
    Disk.readClusters_writeClusters, toDirectoryTable_bytes]

/-- Only the three clusters change exactly when the stray table was there already. -/
theorem write_folder_frame_iff (hp : Placed request fs) (h0 : request.bufferSize = 0)
    (hrun : write mem request fs = .ok (0, fs')) :
    FolderFrame request fs fs' ↔
      fs.clusterAt (strayCluster fs) = (strayTable request.name (strayCluster fs)).bytes := by
  obtain ⟨hc, -, hstray, hnext, table, map, hdisk⟩ := write_folder_run h0 hrun
  have hkept : ∀ d, blockAddress d ≠ blockAddress (folderCluster fs) →
      blockAddress d ≠ blockAddress request.parentClusterNumber →
      blockAddress d ≠ blockAddress fatClusterNumber →
      fs'.clusterAt d = (fs.disk.writeClusters
        (strayTable request.name (strayCluster fs)).bytes (strayCluster fs)).readClusters d := by
    intro d hdc hdp hdf
    rw [FileSystem.clusterAt, hdisk, folderDisk, Disk.readClusters_writeClusters_of_ne hdf,
      Disk.readClusters_writeClusters_of_ne hdp, Disk.readClusters_writeClusters_of_ne hdc]
  -- the stray cluster is none of the three
  have houtside : ∀ x : UInt32, x.toNat < 512 → x ≠ strayCluster fs →
      blockAddress (strayCluster fs) ≠ blockAddress x := by
    intro x hx hne
    rcases hnext with hnone | hfree
    · rw [hnone]
      exact blockAddress_noCluster_ne hx
    · exact FileSystem.blockAddress_ne hx (mem_freeClusters.1 hfree).1.2 (Ne.symm hne)
  have hinUse : ∀ x : UInt32, x.toNat < 512 → x ∉ freeClusters fs.clusterMap →
      x ≠ strayCluster fs := by
    intro x hx hused heq
    rw [heq] at hx hused
    rcases hnext with hnone | hfree
    · rw [hnone] at hx
      exact absurd hx (by decide)
    · exact hused hfree
  constructor
  · intro hframe
    have hsame := hframe _ (houtside _ hc.2 (Ne.symm hstray))
      (houtside _ hp.lt (hinUse _ hp.lt hp.notFree))
      (houtside _ (by decide) (hinUse _ (by decide) fat_notFree))
    rw [← hsame, hkept _ (houtside _ hc.2 (Ne.symm hstray))
      (houtside _ hp.lt (hinUse _ hp.lt hp.notFree))
      (houtside _ (by decide) (hinUse _ (by decide) fat_notFree)), Disk.readClusters_writeClusters]
  · intro hthere d hdc hdp hdf
    rw [hkept d hdc hdp hdf, ← hthere]
    by_cases hd : blockAddress d = blockAddress (strayCluster fs)
    · rw [Disk.readClusters, Disk.writeClusters, hd, Function.update_self, FileSystem.clusterAt,
        FileSystem.clusterAt, Disk.readClusters, Disk.readClusters, hd]
    · exact Disk.readClusters_writeClusters_of_ne hd

/-- The entry of a new folder for itself never carries the folder's cluster. -/
theorem write_folder_never (hp : Placed request fs) (h0 : request.bufferSize = 0)
    (hrun : write mem request fs = .ok (0, fs')) : ¬ FolderMade request fs fs' := by
  intro hmade
  obtain ⟨-, -, hne, -⟩ := write_folder_run h0 hrun
  have hself := hmade.table.selfCluster
  rw [write_folder_table hp h0 hrun, newFolderTable_zero] at hself
  exact hne ((DirectoryEntry.cluster_setCluster _ _).symm.trans hself)

end NewFolder

/-! ### The first folder -/

/-- The cell of a cluster number. -/
theorem next_ofNat_cell {m : ClusterMap} (i : Fin 512) : m.next (UInt32.ofNat i.val) = m i := by
  rw [ClusterMap.next, dif_pos (by rw [toNat_ofNat_cell]; exact i.isLt)]
  exact congrArg m (Fin.ext (toNat_ofNat_cell i))

/-- `get_empty_cluster` finds the lowest free cluster. -/
theorem getEmptyCluster_of_next {m : ClusterMap} {c : UInt32} (hc : DataCluster c)
    (hfree : m.next c = fatEmptyEntry)
    (hbefore : ∀ d, DataCluster d → d.toNat < c.toNat → m.next d ≠ fatEmptyEntry) :
    getEmptyCluster m = c := by
  have hfind : (findFrom 3 fun i => m i == fatEmptyEntry) = some ⟨c.toNat, hc.2⟩ := by
    refine findFrom_eq_some.2 ⟨hc.1, ?_, fun j hj hlo => ?_⟩
    · have hcell := @next_ofNat_cell m ⟨c.toNat, hc.2⟩
      rw [UInt32.ofNat_toNat, hfree] at hcell
      rw [← hcell, beq_self_eq_true]
    · have hd : DataCluster (UInt32.ofNat j.val) := by
        rw [DataCluster, toNat_ofNat_cell]
        exact ⟨hlo, j.isLt⟩
      have hj' := hbefore (UInt32.ofNat j.val) hd (by rw [toNat_ofNat_cell]; exact hj)
      rw [next_ofNat_cell] at hj'
      simpa using hj'
  rw [getEmptyCluster_eq, freeClusters, List.head?_map, ← findFrom_eq_head?, hfind, Option.map_some,
    Option.getD_some, UInt32.ofNat_toNat]

/-- The parent of a request is a live directory of a file system in order. -/
theorem FileSystem.Sound.placed {fs : FileSystem} {request : DriverRequest} (h : fs.Sound)
    (hd : fs.LiveDir request.parentClusterNumber) : Placed request fs :=
  ⟨h.live_lt hd, h.live_ne_fat hd, fun hmem => h.live_ne_free hd (mem_freeClusters.1 hmem) rfl⟩

/-- The first folder of a new file system gets cluster 3, and the entry for itself carries 4. -/
theorem firstFolder_misnumbered : ∃ fs,
    write (fun _ => 0) (sampleRequest 'A' 2 0) blankFileSystem = .ok (0, fs) ∧
    folderCluster blankFileSystem = 3 ∧ (fs.tableAt 3 0).cluster = 4 ∧
    ¬ FolderMade (sampleRequest 'A' 2 0) blankFileSystem fs := by
  obtain ⟨c, l, fs, hrun, -⟩ := write_blank (fun _ => 0) (sampleRequest 'A' 2 0) rfl
    (by decide)
  have hfirst : folderCluster blankFileSystem = 3 := by
    refine getEmptyCluster_of_next ⟨by decide, by decide⟩ ?_ fun d hd hlt => ?_
    · rw [blankFileSystem, next_createFat32]
      decide
    · exact absurd hd.1 (not_le.2 hlt)
  have hmap : ∀ d, (blankFileSystem.clusterMap.store 3 fatEndOfFile).next d =
      Function.update blankFileSystem.clusterMap.next 3 fatEndOfFile d := by
    intro d
    rw [ClusterMap.next_store (by decide)]
  have hstray : strayCluster blankFileSystem = 4 := by
    rw [strayCluster, hfirst]
    refine getEmptyCluster_of_next ⟨by decide, by decide⟩ ?_ fun d hd hlt => ?_
    · rw [hmap, Function.update_of_ne (by decide), blankFileSystem, next_createFat32]
      decide
    · have hlt : d.toNat < 4 := hlt
      obtain rfl : d = 3 :=
        UInt32.toNat_inj.1 (by have := hd.1; simp only [UInt32.reduceToNat]; omega)
      rw [hmap, Function.update_self]
      decide
  have hsound : blankFileSystem.Sound := inOrder_createFat32.sound
  have htable := write_folder_table (hsound.placed .root) rfl hrun
  have hself : (fs.tableAt (folderCluster blankFileSystem) 0).cluster = 4 := by
    rw [htable, newFolderTable_zero, hstray]
    exact DirectoryEntry.cluster_setCluster _ _
  refine ⟨fs, hrun, hfirst, hfirst ▸ hself, fun hmade => ?_⟩
  have hown := hmade.table.selfCluster
  rw [hself, hfirst] at hown
  exact absurd hown (by decide)

/-- A folder in the root directory of a new file system. -/
theorem write_folder_never_first : ∃ fs,
    write (fun _ => 0) (sampleRequest 'B' 2 0) blankFileSystem = .ok (0, fs) ∧
    ¬ FolderMade (sampleRequest 'B' 2 0) blankFileSystem fs := by
  obtain ⟨c, l, fs, hrun, hw⟩ := write_blank (fun _ => 0) (sampleRequest 'B' 2 0) rfl
    (by decide)
  exact ⟨fs, hrun, write_folder_never (inOrder_createFat32.sound.placed hw.parent) rfl hrun⟩

end OsKernel
