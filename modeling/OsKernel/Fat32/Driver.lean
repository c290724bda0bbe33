import OsKernel.Lib.Search
import OsKernel.Fat32.Types

/-!
# The file system driver

The functions of `fat32.c` over the driver state and the disk. One cluster is the unit of transfer,
at the block address that `read_blocks` and `write_blocks` pass to the drive, except for the
signature, which takes the first block of cluster 0. A request's `buf` is an address, and `mem` is
the memory the driver copies from.
-/

namespace OsKernel

open Lib

/-! ## The file allocation table -/

namespace ClusterMap

/-- The map as a successor function; a number without a cell counts as empty. -/
def next (m : ClusterMap) (c : UInt32) : UInt32 :=
  if h : c.toNat < 512 then m ⟨c.toNat, h⟩ else fatEmptyEntry

/-- The map with the cell of `c` set, if there is one. -/
def store (m : ClusterMap) (c v : UInt32) : ClusterMap :=
  if h : c.toNat < 512 then Function.update m ⟨c.toNat, h⟩ v else m

/-- The value `cluster_map[c]`. -/
def get (m : ClusterMap) (c : UInt32) : Except Fault UInt32 :=
  if c.toNat < 512 then .ok (m.next c) else .error (.clusterMapIndex c)

/-- The assignment `cluster_map[c] = v`. -/
def set (m : ClusterMap) (c v : UInt32) : Except Fault ClusterMap :=
  if c.toNat < 512 then .ok (m.store c v) else .error (.clusterMapIndex c)

end ClusterMap

/-- The value `(uint32_t) -1`. -/
def noCluster : UInt32 := 0xFFFFFFFF

/-- `get_empty_cluster` -/
def getEmptyCluster (m : ClusterMap) : UInt32 :=
  match findFrom 3 fun i => m i == fatEmptyEntry with
  | some i => UInt32.ofNat i.val
  | none => noCluster

/-! ## State -/

/-- The disk, one cluster at each block address that a cluster starts at. -/
abbrev Disk := UInt32 → ClusterBuffer

/-- `cluster_to_lba` -/
def clusterToLba (c : UInt32) : UInt32 := c * 4

/-- The block address that `read_blocks` and `write_blocks` pass to the drive: 28 bits. -/
def blockAddress (c : UInt32) : UInt32 := clusterToLba c &&& 0x0FFFFFFF

namespace Disk

/-- `read_clusters(ptr, c, 1)` -/
def readClusters (disk : Disk) (c : UInt32) : ClusterBuffer := disk (blockAddress c)

/-- `write_clusters(ptr, c, 1)` -/
def writeClusters (disk : Disk) (b : ClusterBuffer) (c : UInt32) : Disk :=
  Function.update disk (blockAddress c) b

end Disk

/-- `driver_state` and the disk. -/
structure FileSystem where
  clusterMap : ClusterMap
  dirTableBuf : DirectoryTable
  disk : Disk

namespace FileSystem

/-- The bytes stored at a cluster. -/
def clusterAt (fs : FileSystem) (c : UInt32) : ClusterBuffer := fs.disk.readClusters c

/-- The directory table stored at a cluster. -/
def tableAt (fs : FileSystem) (c : UInt32) : DirectoryTable := (fs.clusterAt c).toDirectoryTable

/-- `read_clusters(driver_state.dir_table_buf.table, c, 1)` -/
def readDirTableBuf (fs : FileSystem) (c : UInt32) : FileSystem :=
  { fs with dirTableBuf := fs.tableAt c }

/-- `write_clusters(ptr, c, 1)` -/
def writeClusters (fs : FileSystem) (b : ClusterBuffer) (c : UInt32) : FileSystem :=
  { fs with disk := fs.disk.writeClusters b c }

/-- A driver state with all bytes zero, before a disk. -/
def zeroed (disk : Disk) : FileSystem where
  clusterMap := fun _ => 0
  dirTableBuf := .zero
  disk := disk

end FileSystem

/-- The text that starts `fs_signature`. -/
def fsSignatureText : List UInt8 :=
  ("Course          Designed by     Lab Sister ITB  Made with <3    -----------2024\n").toList.map
    Char.toUInt8

/-- `fs_signature` -/
def fsSignature (i : Fin blockSize) : UInt8 :=
  if i.val = blockSize - 2 then 'O'.toUInt8
  else if i.val = blockSize - 1 then 'k'.toUInt8
  else fsSignatureText.getD i.val 0

/-- `is_empty_storage` -/
def isEmptyStorage (disk : Disk) : Bool :=
  decide (∃ i : Fin blockSize,
    disk.readClusters 0 ⟨i.val, by have := i.isLt; simp only [blockSize] at this; omega⟩
      ≠ fsSignature i)

/-- Cluster 0 with the signature written to its first block. -/
def writeSignature (b : ClusterBuffer) : ClusterBuffer :=
  fun k => if h : k.val < blockSize then fsSignature ⟨k.val, h⟩ else b k

/-- A `FAT32DirectoryEntry` that points to a directory, as `create_fat32` and
`init_directory_table` fill it in. -/
def DirectoryEntry.folder (e : DirectoryEntry) (name : Vector UInt8 8) (c : UInt32) :
    DirectoryEntry :=
  { e with name := name, attr := attrSubdirectory, userAttribute := uattrNotEmpty }.setCluster c

/-- `create_fat32`. The calls `memcpy(.., ".", 8)` and `memcpy(.., "..", 8)` read past the end of
their string literals; `pad0` and `pad1` are the bytes found there. -/
def createFat32 (pad0 : Vector UInt8 6) (pad1 : Vector UInt8 5) (fs : FileSystem) : FileSystem :=
  let fs := fs.writeClusters (writeSignature (fs.clusterAt 0)) 0
  let map := ((fs.clusterMap.store 0 cluster0Value).store 1 cluster1Value).store 2 fatEndOfFile
  let fs := { fs with clusterMap := map }.writeClusters map.bytes fatClusterNumber
  let dot : Vector UInt8 8 := (#v[0x2E, 0] : Vector UInt8 2) ++ pad0
  let dotdot : Vector UInt8 8 := (#v[0x2E, 0x2E, 0] : Vector UInt8 3) ++ pad1
  let defaultRootTable : DirectoryTable := Function.update
    (Function.update DirectoryTable.zero 0 (DirectoryEntry.zero.folder dot 2)) 1
    (DirectoryEntry.zero.folder dotdot 2)
  fs.writeClusters defaultRootTable.bytes rootClusterNumber

/-- `initialize_filesystem_fat32` -/
def initializeFilesystemFat32 (pad0 : Vector UInt8 6) (pad1 : Vector UInt8 5) (fs : FileSystem) :
    FileSystem :=
  if isEmptyStorage fs.disk then createFat32 pad0 pad1 fs
  else { fs with clusterMap := (fs.clusterAt fatClusterNumber).toClusterMap }.readDirTableBuf
    rootClusterNumber

/-! ## Reading -/

/-- The step bound of `copy_long_cluster`. A call that ends at all has reached the end of a chain of
at most `clusterMapSize` clusters, or has counted `remaining_size` down to 0. -/
def copySteps : Nat := 2 ^ 21 + 2

/-- `copy_long_cluster`: the clusters stored from `target` on, one `CLUSTER_SIZE` after the
other. -/
def copyLongCluster (fs : FileSystem) :
    Nat → UInt32 → UInt32 → Except Fault (List ClusterBuffer)
  | 0, _, _ => .error .outOfSteps
  | steps + 1, remainingSize, c =>
    if remainingSize = 0 then .ok []
    else do
      let next ← fs.clusterMap.get c
      if next ≠ fatEndOfFile then
        let rest ← copyLongCluster fs steps (remainingSize - 2048) next
        return fs.clusterAt c :: rest
      else
        return [fs.clusterAt c]

/-- What `read` returns, and the clusters it stored from `request.buf` on. -/
structure ReadResult where
  code : Int8
  stored : List ClusterBuffer
  fs : FileSystem

/-- The inner loop of `read` and `read_directory` from slot `lo` on. It stops at the first slot with
the requested name or without an entry; `accepts` is the test a slot with that name has to pass. -/
def readSlots (accepts : DirectoryEntry → Bool) (request : DriverRequest) (fs : FileSystem)
    (lo : Nat) : Except Fault (UInt8 × List ClusterBuffer) :=
  match findFrom lo fun i =>
      decide ((fs.dirTableBuf i).name = request.name) || !(fs.dirTableBuf i).live with
  | none => .ok (2, [])
  | some i => do
    let e := fs.dirTableBuf i
    let (returnCode, stored) ←
      if e.name = request.name then
        if accepts e then do
          let stored ← copyLongCluster fs copySteps request.bufferSize e.cluster
          pure ((0 : UInt8), stored)
        else pure (1, [])
      else pure (2, [])
    return (if e.live then returnCode else 4, stored)

/-- The outer loop of `read` and `read_directory`, which follows the parent's chain but reads the
parent's own table again each time. -/
def readLoop (accepts : DirectoryEntry → Bool) (request : DriverRequest) (fs : FileSystem) :
    Nat → UInt32 → Nat → Except Fault (UInt8 × List ClusterBuffer)
  | 0, _, _ => .error .outOfSteps
  | steps + 1, current, lo =>
    if current = fatEndOfFile then .ok (2, [])
    else do
      let (returnCode, stored) ← readSlots accepts request fs lo
      let current ← fs.clusterMap.get current
      if returnCode = 2 then readLoop accepts request fs steps current 0
      else return (returnCode, stored)

/-- The common body of `read` and `read_directory`. -/
def readEntry (accepts : DirectoryEntry → Bool) (request : DriverRequest) (fs : FileSystem) :
    Except Fault ReadResult := do
  let fs := fs.readDirTableBuf request.parentClusterNumber
  if !(fs.dirTableBuf 0).live then
    return { code := -1, stored := [], fs := fs }
  let (returnCode, stored) ←
    readLoop accepts request fs (clusterMapSize + 2) request.parentClusterNumber 2
  return { code := if returnCode = 4 then 2 else returnCode.toInt8, stored := stored, fs := fs }

/-- `read`: the entry with the requested name has to carry the requested extension. -/
def read (request : DriverRequest) (fs : FileSystem) : Except Fault ReadResult :=
  readEntry (fun e => decide (e.ext = request.ext)) request fs

/-- `read_directory`: the entry with the requested name has to be a folder. -/
def readDirectory (request : DriverRequest) (fs : FileSystem) : Except Fault ReadResult :=
  readEntry DirectoryEntry.isSubdirectory request fs

/-! ## Writing -/

/-- The assignment `driver_state.dir_table_buf.table[entry_num] = e`, where no slot stands for the
`entry_num` of `-1`. -/
def setDirTableBuf (t : DirectoryTable) (entryNum : Option (Fin 64)) (e : DirectoryEntry) :
    Except Fault DirectoryTable :=
  match entryNum with
  | some i => .ok (Function.update t i e)
  | none => .error (.dirTableIndex (-1))

/-- `init_directory_table`. The first `write_clusters` happens before slot 1 is filled in, to the
cluster that `get_empty_cluster` finds. -/
def initDirectoryTable (dirTable : DirectoryTable) (name : Vector UInt8 8)
    (parentDirCluster : UInt32) (fs : FileSystem) : DirectoryTable × FileSystem :=
  let emptyCluster := getEmptyCluster fs.clusterMap
  let dirTable : DirectoryTable :=
    Function.update dirTable 0 ((dirTable 0).folder name emptyCluster)
  let fs := fs.writeClusters dirTable.bytes emptyCluster
  let dotdot := ((dirTable 1).name.set 0 0x2E).set 1 0x2E
  (Function.update dirTable 1 ((dirTable 1).folder dotdot parentDirCluster), fs)

/-- The name of the parent's entry in a new folder. -/
def dotdotName : Vector UInt8 8 := ((Vector.replicate 8 0).set 0 0x2E).set 1 0x2E

/-- `isStrEqual(name, "..")` -/
def isDotDot (name : Vector UInt8 8) : Bool :=
  name[0] == 0x2E && name[1] == 0x2E && name[2] == 0

/-- The bytes at `request.buf + CLUSTER_SIZE * i`. -/
def bufCluster (mem : UInt32 → UInt8) (buf : UInt32) (i : Nat) : ClusterBuffer :=
  fun k => mem (buf + UInt32.ofNat (2048 * i + k.val))

/-- The allocation loop of `write` with `n` iterations left, the next of them number `i`. -/
def writeLoop (mem : UInt32 → UInt8) (buf : UInt32) :
    Nat → Nat → UInt32 → FileSystem → Except Fault (UInt32 × FileSystem)
  | 0, _, startCluster, fs => .ok (startCluster, fs)
  | n + 1, i, startCluster, fs => do
    let map ← fs.clusterMap.set startCluster fatEndOfFile
    let nextCluster := getEmptyCluster map
    let map ← map.set startCluster nextCluster
    let fs := { fs with clusterMap := map }.writeClusters (bufCluster mem buf i) nextCluster
    let map ← fs.clusterMap.set startCluster nextCluster
    writeLoop mem buf n (i + 1) nextCluster { fs with clusterMap := map }

/-- The number of clusters for `bufferSize` bytes, as `write` computes it. -/
def clusterNeeded (bufferSize : UInt32) : Nat :=
  let n := if bufferSize.toNat % 2048 = 0 then bufferSize.toNat / 2048
    else bufferSize.toNat / 2048 + 1
  if n ≤ 0 then 1 else n

/-- The directory branch of `write`. -/
def writeDirectory (request : DriverRequest) (entryNum : Option (Fin 64)) (startCluster : UInt32)
    (newEntry : DirectoryEntry) (fs : FileSystem) : Except Fault FileSystem := do
  let newEntry := { newEntry with attr := attrSubdirectory, filesize := 0 }
  let dirTableBuf ← setDirTableBuf fs.dirTableBuf entryNum newEntry
  let map ← fs.clusterMap.set startCluster fatEndOfFile
  let fs := { fs with dirTableBuf := dirTableBuf, clusterMap := map }
  let (newDirTable, fs) := initDirectoryTable .zero request.name request.parentClusterNumber fs
  let fs := fs.writeClusters newDirTable.bytes startCluster
  let fs := fs.writeClusters fs.dirTableBuf.bytes request.parentClusterNumber
  return fs.writeClusters fs.clusterMap.bytes fatClusterNumber

/-- The file branch of `write`. -/
def writeFile (mem : UInt32 → UInt8) (request : DriverRequest) (entryNum : Option (Fin 64))
    (startCluster : UInt32) (newEntry : DirectoryEntry) (fs : FileSystem) :
    Except Fault FileSystem := do
  let newEntry := { newEntry with attr := 0, filesize := request.bufferSize }
  let dirTableBuf ← setDirTableBuf fs.dirTableBuf entryNum newEntry
  let fs := { fs with dirTableBuf := dirTableBuf }
  let fs := fs.writeClusters (bufCluster mem request.buf 0) startCluster
  let (lastCluster, fs) ←
    writeLoop mem request.buf (clusterNeeded request.bufferSize - 1) 1 startCluster fs
  let map ← fs.clusterMap.set lastCluster fatEndOfFile
  let fs := { fs with clusterMap := map }
  let fs := fs.writeClusters fs.dirTableBuf.bytes request.parentClusterNumber
  return fs.writeClusters fs.clusterMap.bytes fatClusterNumber

/-- The part of `write` after the search for a slot. -/
def writeEntry (mem : UInt32 → UInt8) (request : DriverRequest) (entryNum : Option (Fin 64))
    (fs : FileSystem) : Except Fault (Int8 × FileSystem) := do
  let startCluster := getEmptyCluster fs.clusterMap
  if startCluster = noCluster then
    return (-1, fs)
  let newEntry := { DirectoryEntry.zero with
    name := request.name, ext := request.ext,
      userAttribute := uattrNotEmpty }.setCluster startCluster
  if request.bufferSize = 0 then
    return (0, ← writeDirectory request entryNum startCluster newEntry fs)
  else
    return (0, ← writeFile mem request entryNum startCluster newEntry fs)

/-- `write` -/
def write (mem : UInt32 → UInt8) (request : DriverRequest) (fs : FileSystem) :
    Except Fault (Int8 × FileSystem) :=
  let fs := fs.readDirTableBuf request.parentClusterNumber
  if !(fs.dirTableBuf 0).live then .ok (2, fs)
  else
    match findFrom 2 fun i =>
        !(fs.dirTableBuf i).live || (fs.dirTableBuf i).hasKey request.key with
    | none => writeEntry mem request none fs
    | some i => if (fs.dirTableBuf i).live then .ok (1, fs) else writeEntry mem request (some i) fs

/-! ## Deleting -/

/-- `get_dir_last_index`; its `-1` is returned as a `uint8_t`. -/
def getDirLastIndex (t : DirectoryTable) : Nat :=
  match findFrom 2 fun i => !(t i).live with
  | some i => i.val - 1
  | none => 255

/-- The assignments `table[index] = table[last_idx]` and `table[last_idx] = {0}`. -/
def removeEntry (t : DirectoryTable) (index : Fin 64) : Except Fault DirectoryTable :=
  if h : getDirLastIndex t < 64 then
    let lastIdx : Fin 64 := ⟨getDirLastIndex t, h⟩
    .ok (Function.update (Function.update t index (t lastIdx)) lastIdx .zero)
  else .error (.dirTableIndex (getDirLastIndex t))

/-- The loop of `delete` that empties a chain. -/
def deleteChain : Nat → UInt32 → ClusterMap → Disk → Except Fault (ClusterMap × Disk)
  | 0, _, _, _ => .error .outOfSteps
  | steps + 1, clusterNumber, map, disk =>
    if clusterNumber = fatEndOfFile then .ok (map, disk)
    else do
      let nextCluster ← map.get clusterNumber
      let disk := disk.writeClusters .zero clusterNumber
      let map ← map.set clusterNumber fatEmptyEntry
      deleteChain steps nextCluster map disk

/-- The table of a folder holds no entry. -/
def tableEmpty (t : DirectoryTable) : Bool := (findFrom 2 fun i => (t i).live).isNone

/-- `delete`. The loop over the chain visits at most `clusterMapSize` cells before it reads a cell
that it has emptied. -/
def delete (request : DriverRequest) (fs : FileSystem) : Except Fault (Int8 × FileSystem) :=
  let fs := fs.readDirTableBuf request.parentClusterNumber
  if !(fs.dirTableBuf 0).live then .ok (-1, fs)
  else
    match findFrom 2 fun i => (fs.dirTableBuf i).hasKey request.key with
    | none => .ok (1, fs)
    | some index =>
      let e := fs.dirTableBuf index
      if e.isSubdirectory && !tableEmpty (fs.tableAt e.cluster) then .ok (2, fs)
      else do
        let (map, disk) ← deleteChain (clusterMapSize + 2) e.cluster fs.clusterMap fs.disk
        let dirTableBuf ← removeEntry fs.dirTableBuf index
        let fs : FileSystem := { clusterMap := map, dirTableBuf := dirTableBuf, disk := disk }
        let fs := fs.writeClusters fs.dirTableBuf.bytes request.parentClusterNumber
        return (0, fs.writeClusters fs.clusterMap.bytes fatClusterNumber)

/-- `delete_all_file` -/
def deleteAllFile (fatIndex : UInt32) (disk : Disk) : Disk :=
  disk.writeClusters .zero fatIndex

/-- `delete_all_folder`, down to a depth of `steps` folders. -/
def deleteAllFolder : Nat → UInt32 → Disk → Except Fault Disk
  | 0, _, _ => .error .outOfSteps
  | steps + 1, fatIndex, disk => do
    let currentDirTable := (disk.readClusters fatIndex).toDirectoryTable
    let disk ← ((List.finRange 64).drop 2).foldlM (fun disk i =>
      if (currentDirTable i).live then
        if (currentDirTable i).isSubdirectory then
          deleteAllFolder steps (currentDirTable i).cluster disk
        else .ok (deleteAllFile (currentDirTable i).cluster disk)
      else .ok disk) disk
    return disk.writeClusters .zero fatIndex

/-- `delete_all`, down to a depth of `steps` folders. -/
def deleteAll (steps : Nat) (request : DriverRequest) (fs : FileSystem) :
    Except Fault (Int8 × FileSystem) :=
  let fs := fs.readDirTableBuf request.parentClusterNumber
  if !(fs.dirTableBuf 0).live then .ok (-1, fs)
  else
    match findFrom 2 fun i => (fs.dirTableBuf i).hasKey request.key with
    | none => .ok (1, fs)
    | some index => do
      let currentEntry := fs.dirTableBuf index
      let entryIndex := currentEntry.cluster
      let disk ←
        if currentEntry.isSubdirectory then deleteAllFolder steps entryIndex fs.disk
        else .ok (deleteAllFile entryIndex fs.disk)
      let dirTableBuf ← removeEntry fs.dirTableBuf index
      let map ← fs.clusterMap.set entryIndex fatEmptyEntry
      let fs : FileSystem := { clusterMap := map, dirTableBuf := dirTableBuf, disk := disk }
      let fs := fs.writeClusters fs.dirTableBuf.bytes request.parentClusterNumber
      return (0, fs.writeClusters fs.clusterMap.bytes fatClusterNumber)

/-! ## Moving -/

/-- The outcome of a search of the target table: `tar_index`, where 64 stands for a full table and
`-1` for an entry that is there already, or the folder that carries the target's name. -/
inductive TargetSearch
  | full
  | duplicate
  | slot (tarIndex : Fin 64)
  | folder (c : UInt32)

/-- The first loop of `move` over the target directory. -/
def searchTarget (t : DirectoryTable) (key : Vector UInt8 8 × Vector UInt8 3) : TargetSearch :=
  match findFrom 2 fun i => !(t i).live || (t i).hasKey key with
  | none => .full
  | some i =>
    if (t i).live then
      if (t i).isSubdirectory then .folder (t i).cluster else .duplicate
    else .slot i

/-- The second loop of `move`, over the folder that carries the target's name. -/
def searchTargetFolder (t : DirectoryTable) (key : Vector UInt8 8 × Vector UInt8 3) :
    TargetSearch :=
  match findFrom 2 fun i => !(t i).live || (t i).hasKey key with
  | none => .full
  | some i => if (t i).live then .duplicate else .slot i

/-- The part of `move` after the searches: `source` leaves slot `srcIndex` of the source directory
and goes as `newDirectoryEntry` to slot `tarIndex` of the directory at `tarCluster`. -/
def moveEntry (srcCluster : UInt32) (srcIndex : Fin 64) (tarCluster : UInt32) (tarIndex : Fin 64)
    (newDirectoryEntry : DirectoryEntry) (fs : FileSystem) : Except Fault (Int8 × FileSystem) := do
  let source := fs.dirTableBuf srcIndex
  let targetDirTable : DirectoryTable :=
    Function.update (fs.tableAt tarCluster) tarIndex newDirectoryEntry
  let fs :=
    if source.isSubdirectory then
      let resultDirTable := fs.tableAt source.cluster
      let resultDirTable : DirectoryTable :=
        Function.update resultDirTable 0 { resultDirTable 0 with
        name := newDirectoryEntry.name, ext := newDirectoryEntry.ext }
      let resultDirTable : DirectoryTable := Function.update resultDirTable 1
        ((resultDirTable 1).setCluster tarCluster)
      fs.writeClusters resultDirTable.bytes source.cluster
    else fs
  let dirTableBuf ← removeEntry fs.dirTableBuf srcIndex
  let fs := { fs with dirTableBuf := dirTableBuf }
  let fs := fs.writeClusters fs.dirTableBuf.bytes srcCluster
  return (0, fs.writeClusters targetDirTable.bytes tarCluster)

/-- `move` -/
def move (srcRequest tarRequest : DriverRequest) (fs : FileSystem) :
    Except Fault (Int8 × FileSystem) :=
  let fs := fs.readDirTableBuf srcRequest.parentClusterNumber
  if !(fs.dirTableBuf 0).live then .ok (-1, fs)
  else
    match findFrom 0 fun i => (fs.dirTableBuf i).hasKey srcRequest.key with
    | none => .ok (1, fs)
    | some srcIndex =>
      let source := fs.dirTableBuf srcIndex
      match searchTarget (fs.tableAt tarRequest.parentClusterNumber) tarRequest.key with
      | .full => .ok (3, fs)
      | .duplicate => .ok (2, fs)
      | .slot tarIndex =>
        if source.cluster = tarRequest.parentClusterNumber then .ok (4, fs)
        else
          moveEntry srcRequest.parentClusterNumber srcIndex tarRequest.parentClusterNumber tarIndex
            { source with name := tarRequest.name, ext := tarRequest.ext } fs
      | .folder tarCluster =>
        match searchTargetFolder (fs.tableAt tarCluster) srcRequest.key with
        | .slot tarIndex =>
          if source.cluster = tarCluster then .ok (4, fs)
          else moveEntry srcRequest.parentClusterNumber srcIndex tarCluster tarIndex source fs
        | .duplicate => .ok (2, fs)
        | _ => .ok (3, fs)

end OsKernel
