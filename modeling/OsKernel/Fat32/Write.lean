import OsKernel.Fat32.Invariant

/-!
# What `write` does

`Wrote` is the specification of a successful `write`: a new entry in the first unused slot of the
parent's table, and the first free clusters threaded into its chain. For a file these clusters hold
the bytes at `request.buf`; a folder gets a table without children. Other clusters change only
where the allocation table and the parent's table are stored, or where they were free
(`write_spec`).
-/

namespace OsKernel

open Lib

/-! ## The allocation loop -/

section WriteLoop
variable {mem : UInt32 → UInt8} {buf start : UInt32} {n i : Nat} {rest : List UInt32}
  {fs : FileSystem}

/-- What `n` iterations of the allocation loop do, with `l` the clusters they take. -/
structure Allocated (mem : UInt32 → UInt8) (buf : UInt32) (i : Nat) (start : UInt32)
    (l : List UInt32) (fs : FileSystem) (last : UInt32) (fs' : FileSystem) : Prop where
  last_lt : last.toNat < 512
  dirTableBuf : fs'.dirTableBuf = fs.dirTableBuf
  next : (fs'.clusterMap.store last fatEndOfFile).next =
    link fs.clusterMap.next fatEndOfFile (start :: l)
  data : ∀ k (hk : k < l.length), fs'.clusterAt l[k] = bufCluster mem buf (i + k)
  other : ∀ d : UInt32, d.toNat < 512 → d ∉ l → fs'.clusterAt d = fs.clusterAt d

/-- The allocation loop takes the free clusters in order. The cluster `start` itself is marked at
the start of each iteration, so that the search does not find it again. -/
theorem writeLoop_spec (mem : UInt32 → UInt8) (buf : UInt32) (i : Nat)
    (hfree : freeClusters fs.clusterMap = start :: rest) (hn : n ≤ rest.length) :
    ∃ last fs', writeLoop mem buf n i start fs = .ok (last, fs') ∧
      Allocated mem buf i start (rest.take n) fs last fs' := by
  induction n generalizing i start rest fs with
  | zero =>
    have hlt := (mem_freeClusters.1 (hfree ▸ List.mem_cons_self)).1.2
    exact ⟨start, fs, rfl, hlt, rfl, ClusterMap.next_store hlt, by simp, fun _ _ _ => rfl⟩
  | succ n ih =>
    have hlt := (mem_freeClusters.1 (hfree ▸ List.mem_cons_self)).1.2
    obtain ⟨next, rest, rfl⟩ := List.exists_cons_of_length_pos (l := rest) (by omega)
    have hnext : DataCluster next :=
      (mem_freeClusters.1 (hfree ▸ List.mem_cons_of_mem _ List.mem_cons_self)).1
    have hmark := freeClusters_store (v := fatEndOfFile) hfree (by decide)
    have hlink := freeClusters_store (v := next) hfree hnext.ne_empty
    have hnd : (next :: rest).Nodup := (List.nodup_cons.1 (hfree ▸ nodup_freeClusters _)).2
    -- the state in which the next iteration starts
    let fs₁ : FileSystem := { fs with clusterMap := fs.clusterMap.store start next }.writeClusters
      (bufCluster mem buf i) next
    obtain ⟨last, fs', hrun, hall⟩ : ∃ last fs',
        writeLoop mem buf n (i + 1) next fs₁ = .ok (last, fs') ∧
          Allocated mem buf (i + 1) next (rest.take n) fs₁ last fs' :=
      ih (i + 1) hlink (by simpa using hn)
    refine ⟨last, fs', ?_, hall.last_lt, hall.dirTableBuf, ?_, ?_, ?_⟩
    · rw [← hrun]
      simp only [writeLoop, ClusterMap.set_eq hlt, ok_bind, getEmptyCluster_cons hmark,
        ClusterMap.store_store, FileSystem.clusterMap_writeClusters]
      rfl
    · have hmap : fs₁.clusterMap.next = Function.update fs.clusterMap.next start next :=
        ClusterMap.next_store hlt
      rw [hall.next, hmap, List.take_succ_cons]
      rfl
    · intro k hk
      cases k with
      | zero =>
        have hout : next ∉ rest.take n := fun h =>
          (List.nodup_cons.1 hnd).1 (List.mem_of_mem_take h)
        simpa [fs₁] using hall.other next hnext.2 hout
      | succ k =>
        have := hall.data k (by simpa using hk)
        simpa [Nat.add_comm, Nat.add_left_comm] using this
    · intro d hd hout
      rw [List.take_succ_cons, List.mem_cons, not_or] at hout
      rw [hall.other d hd hout.2]
      exact FileSystem.clusterAt_writeClusters_of_ne hnext.2 hd hout.1

end WriteLoop

/-! ## The new entry -/

/-- The entry that `write` stores for a request, with `c` its first cluster. -/
def createdEntry (request : DriverRequest) (c : UInt32) : DirectoryEntry :=
  { ({ DirectoryEntry.zero with
      name := request.name, ext := request.ext,
      userAttribute := uattrNotEmpty } : DirectoryEntry).setCluster c with
    attr := if request.bufferSize = 0 then attrSubdirectory else 0
    filesize := request.bufferSize }

section CreatedEntry
variable {request : DriverRequest} {c : UInt32}

@[simp] theorem createdEntry_cluster : (createdEntry request c).cluster = c :=
  DirectoryEntry.cluster_setCluster .zero c

@[simp] theorem createdEntry_first : fatFormat.first (createdEntry request c) = c :=
  createdEntry_cluster

@[simp] theorem createdEntry_live : (createdEntry request c).live = true := rfl

@[simp] theorem createdEntry_key : (createdEntry request c).key = request.key := rfl

@[simp] theorem createdEntry_filesize : (createdEntry request c).filesize = request.bufferSize :=
  rfl

@[simp] theorem createdEntry_isSubdirectory :
    (createdEntry request c).isSubdirectory = true ↔ request.bufferSize = 0 := by
  unfold DirectoryEntry.isSubdirectory createdEntry
  by_cases h : request.bufferSize = 0 <;> simp [h, attrSubdirectory]

/-- `write` takes as many clusters as the new entry stands for. -/
theorem createdEntry_clusterCount :
    (createdEntry request c).clusterCount = clusterNeeded request.bufferSize := by
  unfold DirectoryEntry.clusterCount clusterNeeded
  by_cases h : request.bufferSize = 0
  · simp [h]
  · have hpos : request.bufferSize.toNat ≠ 0 := fun h0 => h (UInt32.toNat_inj.1 h0)
    have hfile : ¬ (createdEntry request c).isSubdirectory = true := by simpa using h
    rw [if_neg hfile, createdEntry_filesize]
    dsimp only
    split_ifs <;> omega

end CreatedEntry

/-! ## The table of a new folder -/

/-- The table of a new folder. Its entry for itself does not carry its own cluster but the one that
was the next free one. -/
def newFolderTable (name : Vector UInt8 8) (parent nextFree : UInt32) : DirectoryTable :=
  Function.update
    (Function.update DirectoryTable.zero 0 (DirectoryEntry.zero.folder name nextFree)) 1
    (DirectoryEntry.zero.folder dotdotName parent)

section NewFolderTable
variable {name : Vector UInt8 8} {parent nextFree : UInt32}

theorem newFolderTable_zero :
    newFolderTable name parent nextFree 0 = DirectoryEntry.zero.folder name nextFree := by
  rw [newFolderTable, Function.update_of_ne (by decide), Function.update_self]

theorem newFolderTable_one :
    newFolderTable name parent nextFree 1 = DirectoryEntry.zero.folder dotdotName parent := by
  rw [newFolderTable, Function.update_self]

/-- A new folder has no entries. -/
theorem newFolderTable_slot {j : Fin 64} (hj : 2 ≤ j.val) :
    newFolderTable name parent nextFree j = .zero := by
  rw [newFolderTable, Function.update_of_ne, Function.update_of_ne]
  · rfl
  · rintro rfl
    exact absurd hj (by decide)
  · rintro rfl
    exact absurd hj (by decide)

end NewFolderTable

/-! ## Specification -/

/-- The request creates a file or folder of `write`: the state `fs'` is `fs` with the entry in slot
`i` of the parent's table and the clusters `l` as its chain. -/
structure Wrote (mem : UInt32 → UInt8) (request : DriverRequest) (fs : FileSystem) (i : Fin 64)
    (c : UInt32) (l : List UInt32) (fs' : FileSystem) : Prop where
  next : fs'.clusterMap.next = link fs.clusterMap.next fatEndOfFile (c :: l)
  table : fs'.tableAt request.parentClusterNumber =
    Function.update (fs.tableAt request.parentClusterNumber) i (createdEntry request c)
  fatOnDisk : fs'.clusterAt fatClusterNumber = fs'.clusterMap.bytes
  data : request.bufferSize ≠ 0 → ∀ k (hk : k < (c :: l).length),
    fs'.clusterAt (c :: l)[k] = bufCluster mem request.buf k
  folder : request.bufferSize = 0 → ∃ nextFree,
    fs'.tableAt c = newFolderTable request.name request.parentClusterNumber nextFree
  other : ∀ d : UInt32, d.toNat < 512 → d ≠ request.parentClusterNumber → d ≠ fatClusterNumber →
    d ∉ freeClusters fs.clusterMap → fs'.clusterAt d = fs.clusterAt d

section Write
variable {mem : UInt32 → UInt8} {request : DriverRequest} {fs : FileSystem} {i : Fin 64}
  {c : UInt32} {rest : List UInt32}

/-- The clusters `write` stores tables in. -/
structure Placed (request : DriverRequest) (fs : FileSystem) : Prop where
  lt : request.parentClusterNumber.toNat < 512
  ne_fat : request.parentClusterNumber ≠ fatClusterNumber
  notFree : request.parentClusterNumber ∉ freeClusters fs.clusterMap

theorem dirTableBuf_initDirectoryTable (t : DirectoryTable) (name : Vector UInt8 8) :
    (initDirectoryTable t name c fs).2.dirTableBuf = fs.dirTableBuf := rfl

theorem clusterMap_initDirectoryTable (t : DirectoryTable) (name : Vector UInt8 8) :
    (initDirectoryTable t name c fs).2.clusterMap = fs.clusterMap := rfl

/-- The directory branch makes a folder. -/
theorem writeDirectory_spec (mem : UInt32 → UInt8) (i : Fin 64) (hp : Placed request fs)
    (h0 : request.bufferSize = 0) (hbuf : fs.dirTableBuf = fs.tableAt request.parentClusterNumber)
    (hfree : freeClusters fs.clusterMap = c :: rest) (hroom : 1 ≤ rest.length)
    {e : DirectoryEntry} (he : { e with attr := attrSubdirectory, filesize := 0 } =
      createdEntry request c) :
    ∃ fs', writeDirectory request (some i) c e fs = .ok fs' ∧ Wrote mem request fs i c [] fs' := by
  obtain ⟨stray, rest, rfl⟩ := List.exists_cons_of_length_pos hroom
  have hc : DataCluster c := (mem_freeClusters.1 (hfree ▸ List.mem_cons_self)).1
  have hstray : stray ∈ freeClusters fs.clusterMap := by
    rw [hfree]
    exact List.mem_cons_of_mem _ List.mem_cons_self
  have hs : DataCluster stray := (mem_freeClusters.1 hstray).1
  have hmark := freeClusters_store (v := fatEndOfFile) hfree (by decide)
  have hcs : c ≠ stray := by
    rintro rfl
    exact (List.nodup_cons.1 (hfree ▸ nodup_freeClusters _)).1 List.mem_cons_self
  have hpc : c ≠ request.parentClusterNumber := by
    rintro rfl
    exact hp.notFree (hfree ▸ List.mem_cons_self)
  let fs₁ : FileSystem := { fs with
    dirTableBuf := Function.update fs.dirTableBuf i (createdEntry request c)
    clusterMap := fs.clusterMap.store c fatEndOfFile }
  let made := initDirectoryTable .zero request.name request.parentClusterNumber fs₁
  let fs₂ : FileSystem := made.2.writeClusters made.1.bytes c
  have hother : ∀ d : UInt32, d.toNat < 512 → d ≠ c → d ≠ stray →
      fs₂.clusterAt d = fs.clusterAt d := by
    intro d hd hdc hds
    rw [FileSystem.clusterAt_writeClusters_of_ne hc.2 hd hdc]
    simp only [made, initDirectoryTable, fs₁, getEmptyCluster_cons hmark]
    exact FileSystem.clusterAt_writeClusters_of_ne hs.2 hd hds
  refine ⟨fs₂.flush request.parentClusterNumber, ?_, ?_, ?_, ?_, ?_, ?_, ?_⟩
  · rw [writeDirectory, he]
    simp only [setDirTableBuf, ok_bind, ClusterMap.set_eq hc.2, pure_eq_ok, FileSystem.flush,
      FileSystem.clusterMap_writeClusters, fs₂, made, fs₁]
  · have hmap : (fs₂.flush request.parentClusterNumber).clusterMap =
        fs.clusterMap.store c fatEndOfFile := by
      simp only [FileSystem.clusterMap_flush, FileSystem.clusterMap_writeClusters, fs₂, made, fs₁,
        clusterMap_initDirectoryTable]
    rw [hmap, ClusterMap.next_store hc.2]
    rfl
  · rw [FileSystem.tableAt_flush hp.lt hp.ne_fat, ← hbuf]
    simp only [fs₂, made, fs₁, FileSystem.dirTableBuf_writeClusters, dirTableBuf_initDirectoryTable]
  · rw [FileSystem.clusterAt_flush_fat, FileSystem.clusterMap_flush]
  · exact fun hne => absurd h0 hne
  · intro _
    rw [FileSystem.tableAt_congr (FileSystem.clusterAt_flush_of_ne hp.lt hc.2 hpc hc.ne_fat)]
    refine ⟨stray, ?_⟩
    simp only [fs₂, FileSystem.tableAt_writeClusters, made, initDirectoryTable, fs₁,
      getEmptyCluster_cons hmark]
    rfl
  · intro d hd hdp hdf hdfree
    rw [FileSystem.clusterAt_flush_of_ne hp.lt hd hdp hdf]
    refine hother d hd ?_ ?_
    · rintro rfl
      exact hdfree (hfree ▸ List.mem_cons_self)
    · rintro rfl
      exact hdfree hstray

/-- The file branch makes a file of the bytes at `request.buf`. -/
theorem writeFile_spec (mem : UInt32 → UInt8) (i : Fin 64) (hp : Placed request fs)
    (h0 : request.bufferSize ≠ 0) (hbuf : fs.dirTableBuf = fs.tableAt request.parentClusterNumber)
    (hfree : freeClusters fs.clusterMap = c :: rest)
    (hroom : clusterNeeded request.bufferSize - 1 ≤ rest.length)
    {e : DirectoryEntry} (he : { e with attr := 0, filesize := request.bufferSize } =
      createdEntry request c) :
    ∃ fs', writeFile mem request (some i) c e fs = .ok fs' ∧
      Wrote mem request fs i c (rest.take (clusterNeeded request.bufferSize - 1)) fs' := by
  have hc : DataCluster c := (mem_freeClusters.1 (hfree ▸ List.mem_cons_self)).1
  have hnd : (c :: rest).Nodup := hfree ▸ nodup_freeClusters _
  let fs₁ : FileSystem := { fs with
    dirTableBuf := Function.update fs.dirTableBuf i (createdEntry request c) }.writeClusters
      (bufCluster mem request.buf 0) c
  obtain ⟨last, fs₂, hrun, hall⟩ := writeLoop_spec mem request.buf 1
    (show freeClusters fs₁.clusterMap = c :: rest from hfree) hroom
  let fs₃ : FileSystem := { fs₂ with clusterMap := fs₂.clusterMap.store last fatEndOfFile }
  have hchain : ∀ d ∈ c :: rest.take (clusterNeeded request.bufferSize - 1),
      d ∈ freeClusters fs.clusterMap := by
    intro d hd
    rw [hfree]
    rcases List.mem_cons.1 hd with rfl | hd
    · exact List.mem_cons_self
    · exact List.mem_cons_of_mem _ (List.mem_of_mem_take hd)
  have hkept : ∀ d ∈ freeClusters fs.clusterMap,
      (fs₃.flush request.parentClusterNumber).clusterAt d = fs₂.clusterAt d := by
    intro d hd
    have hdata := (mem_freeClusters.1 hd).1
    exact FileSystem.clusterAt_flush_of_ne hp.lt hdata.2 (fun h => hp.notFree (h ▸ hd)) hdata.ne_fat
  refine ⟨fs₃.flush request.parentClusterNumber, ?_, ?_, ?_, ?_, ?_, ?_, ?_⟩
  · rw [writeFile, he]
    simp only [setDirTableBuf, ok_bind]
    rw [hrun]
    simp only [ok_bind, ClusterMap.set_eq hall.last_lt]
    rfl
  · exact hall.next
  · rw [FileSystem.tableAt_flush hp.lt hp.ne_fat, ← hbuf]
    exact hall.dirTableBuf
  · rw [FileSystem.clusterAt_flush_fat, FileSystem.clusterMap_flush]
  · intro _ k hk
    rw [hkept _ (hchain _ (List.getElem_mem hk))]
    cases k with
    | zero =>
      have hout : c ∉ rest.take (clusterNeeded request.bufferSize - 1) := fun h =>
        (List.nodup_cons.1 hnd).1 (List.mem_of_mem_take h)
      rw [List.getElem_cons_zero, hall.other c hc.2 hout]
      exact FileSystem.clusterAt_writeClusters
    | succ k =>
      rw [List.getElem_cons_succ, hall.data k (by simpa using hk), Nat.add_comm]
  · exact fun h => absurd h h0
  · intro d hd hdp hdf hdfree
    have hdc : d ≠ c := by
      rintro rfl
      exact hdfree (hchain _ List.mem_cons_self)
    rw [FileSystem.clusterAt_flush_of_ne hp.lt hd hdp hdf]
    exact (hall.other d hd fun h => hdfree (hchain _ (List.mem_cons_of_mem _ h))).trans
      (FileSystem.clusterAt_writeClusters_of_ne hc.2 hd hdc)

/-- The number of free clusters a request needs: the ones of the new entry and, for a folder, one
more, to which `init_directory_table` writes. -/
def clustersWanted (bufferSize : UInt32) : Nat :=
  if bufferSize = 0 then 2 else clusterNeeded bufferSize

theorem clusterNeeded_pos (n : UInt32) : 0 < clusterNeeded n := by
  unfold clusterNeeded
  dsimp only
  split_ifs <;> omega

theorem clusterNeeded_le_clustersWanted (n : UInt32) : clusterNeeded n ≤ clustersWanted n := by
  unfold clustersWanted
  split_ifs with h
  · subst h
    decide
  · exact le_rfl

/-- `writeEntry` with a slot at hand creates the entry. -/
theorem writeEntry_spec (mem : UInt32 → UInt8) (i : Fin 64) (hp : Placed request fs)
    (hbuf : fs.dirTableBuf = fs.tableAt request.parentClusterNumber)
    (hfree : freeClusters fs.clusterMap = c :: rest)
    (hroom : clustersWanted request.bufferSize ≤ (c :: rest).length) :
    ∃ fs', writeEntry mem request (some i) fs = .ok (0, fs') ∧
      Wrote mem request fs i c (rest.take (clusterNeeded request.bufferSize - 1)) fs' := by
  have hc : DataCluster c := (mem_freeClusters.1 (hfree ▸ List.mem_cons_self)).1
  rw [writeEntry]
  simp only [getEmptyCluster_cons hfree, if_neg hc.ne_noCluster]
  by_cases h0 : request.bufferSize = 0
  · have hlen : 1 ≤ rest.length := by simpa [clustersWanted, h0] using hroom
    obtain ⟨fs', hrun, hw⟩ := writeDirectory_spec mem i hp h0 hbuf hfree hlen
      (e := ({ DirectoryEntry.zero with
        name := request.name, ext := request.ext,
        userAttribute := uattrNotEmpty } : DirectoryEntry).setCluster c)
      (by rw [createdEntry, if_pos h0, h0])
    have hone : clusterNeeded request.bufferSize - 1 = 0 := by rw [h0]; rfl
    refine ⟨fs', ?_, by rw [hone]; exact hw⟩
    rw [if_pos h0, hrun]
    rfl
  · have hlen : clusterNeeded request.bufferSize - 1 ≤ rest.length := by
      rw [clustersWanted, if_neg h0, List.length_cons] at hroom
      omega
    obtain ⟨fs', hrun, hw⟩ := writeFile_spec mem i hp h0 hbuf hfree hlen
      (e := ({ DirectoryEntry.zero with
        name := request.name, ext := request.ext,
        userAttribute := uattrNotEmpty } : DirectoryEntry).setCluster c)
      (by rw [createdEntry, if_neg h0])
    refine ⟨fs', ?_, hw⟩
    rw [if_neg h0, hrun]
    rfl

/-- `write` refuses a name that is there already. -/
theorem write_duplicate {e : DirectoryEntry}
    (ht : TableOk (fs.tableAt request.parentClusterNumber))
    (he : e ∈ fs.entries request.parentClusterNumber) (hkey : e.key = request.key) :
    write mem request fs = .ok (1, fs.readDirTableBuf request.parentClusterNumber) := by
  obtain ⟨j, hj, rfl, hlive⟩ := he
  obtain ⟨i, hi⟩ := findFrom_isSome (i := j)
    (p := fun i => !(fs.tableAt request.parentClusterNumber i).live ||
      (fs.tableAt request.parentClusterNumber i).hasKey request.key) hj (by simp [hkey])
  obtain ⟨hlo, _, hbefore⟩ := findFrom_eq_some.1 hi
  have hij : i ≤ j := by
    by_contra hlt
    have := hbefore j (not_le.1 hlt) hj
    simp [hkey] at this
  rw [write]
  simp only [FileSystem.dirTableBuf_readDirTableBuf, ht.self, hi, ht.packed i j hlo hij hlive,
    Bool.not_true, Bool.false_eq_true, ↓reduceIte]

/-- `write` with a new name goes on with the first unused slot. -/
theorem write_eq_writeEntry
    (hself : (fs.tableAt request.parentClusterNumber 0).live = true)
    (hi : IsFirstUnused 2 DirectoryEntry.live (fs.tableAt request.parentClusterNumber) i)
    (hnew : ∀ e ∈ fs.entries request.parentClusterNumber, e.key ≠ request.key) :
    write mem request fs =
      writeEntry mem request (some i) (fs.readDirTableBuf request.parentClusterNumber) := by
  have hfind : (findFrom 2 fun i => !(fs.tableAt request.parentClusterNumber i).live ||
      (fs.tableAt request.parentClusterNumber i).hasKey request.key) = some i := by
    refine findFrom_eq_some.2 ⟨hi.1, by simp [hi.2.1], fun j hj hlo => ?_⟩
    have hlive := hi.2.2 j hj hlo
    simp [hlive, hnew _ (slot_mem_records hlo hlive)]
  rw [write]
  simp only [FileSystem.dirTableBuf_readDirTableBuf, hself, hfind, hi.2.1, Bool.not_true,
    Bool.false_eq_true, ↓reduceIte]

end Write

/-! ## Creating keeps the file system in order -/

/-- The request finds a live directory with a free slot, enough free clusters, and its name new. -/
structure FileSystem.Accepts (fs : FileSystem) (request : DriverRequest) : Prop where
  parent : fs.LiveDir request.parentClusterNumber
  notFull : ¬ fs.Full request.parentClusterNumber
  new : ∀ e ∈ fs.entries request.parentClusterNumber, e.key ≠ request.key
  room : clustersWanted request.bufferSize ≤ (freeClusters fs.clusterMap).length

/-- `fs'` is `fs` with the requested entry, in a slot and on clusters that were free. -/
structure Created (mem : UInt32 → UInt8) (request : DriverRequest) (fs : FileSystem) (i : Fin 64)
    (c : UInt32) (l : List UInt32) (fs' : FileSystem) : Prop extends
    Wrote mem request fs i c l fs', fs.Accepts request where
  slot : IsFirstUnused 2 DirectoryEntry.live (fs.tableAt request.parentClusterNumber) i
  fresh : ∀ d ∈ c :: l, d ∈ freeClusters fs.clusterMap
  nodup : (c :: l).Nodup
  length : (c :: l).length = clusterNeeded request.bufferSize

section Created
variable {mem : UInt32 → UInt8} {request : DriverRequest} {fs fs' : FileSystem} {i : Fin 64}
  {c : UInt32} {l : List UInt32}

/-- An accepted request is carried out. -/
theorem write_spec (mem : UInt32 → UInt8) (h : fs.Sound) (ha : fs.Accepts request) :
    ∃ i c l fs', write mem request fs = .ok (0, fs') ∧ Created mem request fs i c l fs' := by
  obtain ⟨i, hi⟩ := FileSystem.exists_firstUnused ha.notFull
  have hpos : 0 < (freeClusters fs.clusterMap).length :=
    (clusterNeeded_pos _).trans_le ((clusterNeeded_le_clustersWanted _).trans ha.room)
  obtain ⟨c, rest, hfree⟩ := List.exists_cons_of_length_pos hpos
  have hroom := ha.room
  rw [hfree] at hroom
  have hp : Placed request (fs.readDirTableBuf request.parentClusterNumber) :=
    ⟨h.live_lt ha.parent, h.live_ne_fat ha.parent,
      fun hmem => h.live_ne_free ha.parent (mem_freeClusters.1 hmem) rfl⟩
  obtain ⟨fs', hrun, hw⟩ := writeEntry_spec mem i hp rfl hfree hroom
  have hnd : (c :: rest).Nodup := hfree ▸ nodup_freeClusters _
  have hsub : (c :: rest.take (clusterNeeded request.bufferSize - 1)).Sublist (c :: rest) :=
    (List.take_sublist _ _).cons_cons c
  refine ⟨i, c, _, fs', (write_eq_writeEntry (h.table ha.parent).self hi ha.new).trans hrun,
    ⟨⟨hw.next, hw.table, hw.fatOnDisk, hw.data, hw.folder, hw.other⟩, ha, hi,
      fun d hd => hfree ▸ hsub.subset hd, hnd.sublist hsub, ?_⟩⟩
  have := clusterNeeded_pos request.bufferSize
  have := clusterNeeded_le_clustersWanted request.bufferSize
  simp only [List.length_cons, List.length_take] at hroom ⊢
  omega

namespace Created
variable (h : fs.Sound) (hw : Created mem request fs i c l fs')
include h hw

/-- The other live directories keep their tables. -/
theorem tableAt_of_ne {d : UInt32} (hd : fs.LiveDir d) (hne : d ≠ request.parentClusterNumber) :
    fs'.tableAt d = fs.tableAt d :=
  FileSystem.tableAt_congr (hw.other d (h.live_lt hd) hne (h.live_ne_fat hd)
    fun hmem => h.live_ne_free hd (mem_freeClusters.1 hmem) rfl)

/-- The first two slots of the live directories stay the same. -/
theorem slot_head {d : UInt32} (hd : fs.LiveDir d) {j : Fin 64} (hj : j.val < 2) :
    fs'.tableAt d j = fs.tableAt d j := by
  by_cases hdp : d = request.parentClusterNumber
  · have hji : j ≠ i := by
      rintro rfl
      exact absurd hw.slot.1 (not_le.2 hj)
    rw [hdp, hw.table, Function.update_of_ne hji]
  · rw [hw.tableAt_of_ne h hd hdp]

omit h in
/-- The new entry is in its directory. -/
theorem mem_entries : createdEntry request c ∈ fs'.entries request.parentClusterNumber := by
  rw [FileSystem.entries, hw.table, records_store hw.slot createdEntry_live]
  exact Set.mem_insert _ _

/-- The volume grows by the entry and its chain. -/
theorem grows : fs.volume.Grows fatFormat fs'.volume request.parentClusterNumber
    (createdEntry request c) (c :: l) where
  parent := hw.parent
  first := ⟨l, by rw [createdEntry_first]⟩
  nodup := hw.nodup
  fresh d hd := mem_freeClusters.1 (hw.fresh d hd)
  size := hw.length.trans createdEntry_clusterCount.symm
  next := hw.next
  records := by
    show fs'.entries _ = _
    rw [FileSystem.entries, hw.table, records_store hw.slot createdEntry_live]
    rfl
  other d hd hne := FileSystem.entries_congr (hw.tableAt_of_ne h hd hne)
  folder hf := by
    obtain ⟨nextFree, htable⟩ := hw.folder (createdEntry_isSubdirectory.1 hf)
    refine Set.eq_empty_iff_forall_notMem.2 ?_
    rintro x ⟨j, hj, hx, hlive⟩
    rw [createdEntry_first, htable, newFolderTable_slot hj] at hx
    exact absurd hlive (hx ▸ by decide)

omit h in
/-- The clusters that were free are still free, but for the ones of the new entry. -/
theorem length_freeClusters : (freeClusters fs.clusterMap).length ≤
    (freeClusters fs'.clusterMap).length + clusterNeeded request.bufferSize := by
  have hsub : freeClusters fs.clusterMap ⊆ freeClusters fs'.clusterMap ++ (c :: l) := by
    intro d hd
    by_cases hmem : d ∈ c :: l
    · exact List.mem_append_right _ hmem
    · refine List.mem_append_left _ (mem_freeClusters.2 ⟨(mem_freeClusters.1 hd).1, ?_⟩)
      rw [hw.next, link_of_notMem hmem]
      exact (mem_freeClusters.1 hd).2
  have := ((nodup_freeClusters _).subperm hsub).length_le
  rwa [List.length_append, hw.length] at this

/-- A new folder accepts an entry. -/
theorem accepts_folder (h0 : request.bufferSize = 0) {sub : DriverRequest}
    (hp : sub.parentClusterNumber = c)
    (hroom : clustersWanted sub.bufferSize + 1 ≤ (freeClusters fs.clusterMap).length) :
    fs'.Accepts sub := by
  obtain ⟨nextFree, htable⟩ := hw.folder h0
  have hdead : ∀ j : Fin 64, 2 ≤ j.val → (fs'.tableAt c j).live = false := by
    intro j hj
    rw [htable, newFolderTable_slot hj]
    rfl
  have hlen := hw.length_freeClusters
  have hone : clusterNeeded request.bufferSize = 1 := by rw [h0]; rfl
  refine ⟨?_, fun hfull => ?_, fun e he => ?_, by omega⟩
  · have hlive : fs'.LiveDir (fatFormat.first (createdEntry request c)) :=
      (hw.grows h).live_iff.2 (.inr ⟨createdEntry_isSubdirectory.2 h0, rfl⟩)
    rw [createdEntry_first] at hlive
    rwa [hp]
  · have hlive := hfull 2 (by decide)
    rw [hp, hdead 2 (by decide)] at hlive
    cases hlive
  · obtain ⟨j, hj, rfl, hlive⟩ := he
    rw [hp, hdead j hj] at hlive
    cases hlive

/-- The entries stay in order. -/
theorem sound : fs'.Sound where
  volume := (hw.grows h).sound h.volume
  table {d} hd := by
    rcases (hw.grows h).live_iff.1 hd with hd | ⟨hf, rfl⟩
    · by_cases hne : d = request.parentClusterNumber
      · subst hne
        rw [hw.table]
        have ht := h.table hd
        refine ⟨?_, ht.packed.store hw.slot createdEntry_live, ht.keyInj.store hw.new⟩
        rw [Function.update_of_ne, ht.self]
        rintro rfl
        exact absurd hw.slot.1 (by decide)
      · rw [hw.tableAt_of_ne h hd hne]
        exact h.table hd
    · obtain ⟨nextFree, htable⟩ := hw.folder (createdEntry_isSubdirectory.1 hf)
      rw [createdEntry_first, htable]
      refine ⟨by rw [newFolderTable_zero]; rfl, fun a b ha hab hb => ?_, fun a b ha hb hla => ?_⟩
      · rw [newFolderTable_slot (ha.trans hab)] at hb
        exact absurd hb (by decide)
      · rw [newFolderTable_slot ha] at hla
        exact absurd hla (by decide)

omit h in
/-- The file system stays in order. -/
theorem wellFormed (h : fs.WellFormed) : fs'.WellFormed where
  map0 := by
    rw [hw.next, link_of_notMem fun hmem => ?_, h.map0]
    exact absurd (mem_freeClusters.1 (hw.fresh _ hmem)).1 (by decide)
  map1 := by
    rw [hw.next, link_of_notMem fun hmem => ?_, h.map1]
    exact absurd (mem_freeClusters.1 (hw.fresh _ hmem)).1 (by decide)
  map2 := by
    rw [hw.next, link_of_notMem fun hmem => ?_, h.map2]
    exact absurd (mem_freeClusters.1 (hw.fresh _ hmem)).1 (by decide)
  volume := (hw.grows h.sound).wellFormed h.volume
  table := (hw.sound h.sound).table

end Created

end Created

end OsKernel
