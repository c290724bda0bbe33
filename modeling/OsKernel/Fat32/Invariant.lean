import OsKernel.Lib.SlotTable
import OsKernel.Lib.Volume
import OsKernel.Fat32.ClusterMap

/-!
# The tree of directories

`FileSystem.volume` is what the directory tables and the allocation table on their own stand for: a
`Lib.Volume` whose records are the live entries in the slots from 2 on. `WellFormed` says that the
state is in order: the volume is well formed, so that the directories are a tree rooted at cluster 2
and every chain belongs to one live entry, and each live directory's table is packed, with distinct
names (`TableOk`).
-/

namespace OsKernel

open Lib Relation

/-- The number of clusters of an entry: `ceil(filesize / CLUSTER_SIZE)` for a file, 1 for a
folder. -/
def DirectoryEntry.clusterCount (e : DirectoryEntry) : Nat :=
  if e.isSubdirectory then 1 else (e.filesize.toNat + 2047) / 2048

/-- Entries and clusters as the records and cells of a volume. -/
def fatFormat : Format UInt32 DirectoryEntry where
  first := DirectoryEntry.cluster
  isFolder := DirectoryEntry.isSubdirectory
  size := DirectoryEntry.clusterCount
  root := rootClusterNumber
  stop := fatEndOfFile
  free := fatEmptyEntry
  IsData := DataCluster
  stop_ne_free := by decide
  stop_notData := by decide
  free_notData := by decide
  root_notData := by decide

/-- A directory table in order: slot 0 marks it as a directory, and the live entries in the slots
from 2 on form a prefix and have distinct names. -/
structure TableOk (t : DirectoryTable) : Prop where
  self : (t 0).live = true
  packed : Packed 2 DirectoryEntry.live t
  keyInj : KeyInj 2 DirectoryEntry.live DirectoryEntry.key t

/-- A table with an unused slot has a first one. -/
theorem exists_firstUnused_of_notFull {t : DirectoryTable}
    (hnf : ¬ ∀ i : Fin 64, 2 ≤ i.val → (t i).live = true) :
    ∃ i, IsFirstUnused 2 DirectoryEntry.live t i := by
  push Not at hnf
  obtain ⟨j, hj, hdead⟩ := hnf
  obtain ⟨i, hi⟩ := findFrom_isSome (i := j) (p := fun i => !(t i).live) hj (by simpa using hdead)
  obtain ⟨hlo, hp, hbefore⟩ := findFrom_eq_some.1 hi
  exact ⟨i, hlo, by simpa using hp, fun k hk hlo' => by simpa using hbefore k hk hlo'⟩

namespace FileSystem

variable {fs : FileSystem} {c d : UInt32} {b : ClusterBuffer} {t : DirectoryTable}

/-- The live child entries of the directory at `d`, in the slots from 2 on. -/
def entries (fs : FileSystem) (d : UInt32) : Set DirectoryEntry :=
  records 2 DirectoryEntry.live (fs.tableAt d)

/-- The volume the state stands for. -/
def volume (fs : FileSystem) : Volume UInt32 DirectoryEntry where
  records := fs.entries
  next := fs.clusterMap.next

/-- `d` is the cluster of a directory reachable from the root directory. -/
abbrev LiveDir (fs : FileSystem) (d : UInt32) : Prop := fs.volume.Live fatFormat d

/-- `l` lists the clusters of the entry `e`, in order. -/
abbrev Chain (fs : FileSystem) (e : DirectoryEntry) (l : List UInt32) : Prop :=
  IsChain fs.clusterMap.next fatEndOfFile e.cluster l

/-- The cluster `c` lies on the chain of the entry `e` of the live directory `d`. -/
abbrev Owns (fs : FileSystem) (d : UInt32) (e : DirectoryEntry) (c : UInt32) : Prop :=
  fs.volume.Owns fatFormat d e c

/-- The directory at `d` has no unused slot. -/
def Full (fs : FileSystem) (d : UInt32) : Prop :=
  ∀ i : Fin 64, 2 ≤ i.val → (fs.tableAt d i).live = true

/-- The file system is in order. -/
structure WellFormed (fs : FileSystem) : Prop where
  map0 : fs.clusterMap.next 0 = cluster0Value
  map1 : fs.clusterMap.next 1 = cluster1Value
  map2 : fs.clusterMap.next 2 = fatEndOfFile
  volume : fs.volume.WellFormed fatFormat
  table : ∀ {d}, fs.LiveDir d → TableOk (fs.tableAt d)

/-- The entries of the directories are in order. Unlike in a file system in order there may be
clusters in use that belong to no entry. -/
structure Sound (fs : FileSystem) : Prop where
  volume : fs.volume.Sound fatFormat
  table : ∀ {d}, fs.LiveDir d → TableOk (fs.tableAt d)

theorem WellFormed.sound (h : fs.WellFormed) : fs.Sound := ⟨h.volume.sound, h.table⟩

theorem toNat_blockAddress (hc : c.toNat < 512) : (blockAddress c).toNat = c.toNat * 4 := by
  rw [blockAddress, clusterToLba, UInt32.toNat_and, UInt32.toNat_mul]
  have : c.toNat * 4 % 2 ^ 32 &&& 268435455 = c.toNat * 4 % 2 ^ 32 % 2 ^ 28 :=
    Nat.and_two_pow_sub_one_eq_mod _ 28
  simp only [UInt32.reduceToNat, this]
  omega

/-- Two clusters of the allocation table have different blocks. -/
theorem blockAddress_ne (hc : c.toNat < 512) (hd : d.toNat < 512) (h : d ≠ c) :
    blockAddress d ≠ blockAddress c := by
  intro he
  have := congrArg UInt32.toNat he
  rw [toNat_blockAddress hd, toNat_blockAddress hc] at this
  exact h (UInt32.toNat_inj.1 (by omega))

theorem blockAddress_inj (hc : c.toNat < 512) (hd : d.toNat < 512) :
    blockAddress c = blockAddress d ↔ c = d :=
  ⟨fun h => by_contra fun hne => blockAddress_ne hd hc hne h, congrArg blockAddress⟩

@[simp] theorem clusterAt_writeClusters : (fs.writeClusters b c).clusterAt c = b := by
  simp only [clusterAt, writeClusters, Disk.readClusters, Disk.writeClusters, Function.update_self]

theorem clusterAt_writeClusters_of_ne (hc : c.toNat < 512) (hd : d.toNat < 512) (h : d ≠ c) :
    (fs.writeClusters b c).clusterAt d = fs.clusterAt d :=
  Function.update_of_ne (blockAddress_ne hc hd h) _ _

@[simp] theorem tableAt_writeClusters : (fs.writeClusters t.bytes c).tableAt c = t := by
  simp [tableAt]

@[simp] theorem clusterMap_writeClusters : (fs.writeClusters b c).clusterMap = fs.clusterMap := rfl
@[simp] theorem dirTableBuf_writeClusters : (fs.writeClusters b c).dirTableBuf = fs.dirTableBuf :=
  rfl

@[simp] theorem dirTableBuf_readDirTableBuf :
    (fs.readDirTableBuf c).dirTableBuf = fs.tableAt c := rfl
@[simp] theorem clusterMap_readDirTableBuf : (fs.readDirTableBuf c).clusterMap = fs.clusterMap :=
  rfl
@[simp] theorem disk_readDirTableBuf : (fs.readDirTableBuf c).disk = fs.disk := rfl
@[simp] theorem clusterAt_readDirTableBuf : (fs.readDirTableBuf c).clusterAt d = fs.clusterAt d :=
  rfl
@[simp] theorem tableAt_readDirTableBuf : (fs.readDirTableBuf c).tableAt d = fs.tableAt d := rfl
@[simp] theorem volume_readDirTableBuf : (fs.readDirTableBuf c).volume = fs.volume := rfl

/-- The volume depends on the clusters on the disk and the allocation table only. -/
theorem tableAt_congr {fs' : FileSystem} (h : fs'.clusterAt d = fs.clusterAt d) :
    fs'.tableAt d = fs.tableAt d := by
  rw [tableAt, tableAt, h]

/-- Clusters at the same blocks hold the same table. -/
theorem tableAt_of_blockAddress (h : blockAddress c = blockAddress d) :
    fs.tableAt c = fs.tableAt d := by
  rw [tableAt, tableAt, clusterAt, clusterAt, Disk.readClusters, Disk.readClusters, h]

theorem entries_congr {fs' : FileSystem} (h : fs'.tableAt d = fs.tableAt d) :
    fs'.entries d = fs.entries d := by
  rw [entries, entries, h]

/-- The last two writes of every edit: the directory table in memory goes to the parent's cluster,
the allocation table to its own. -/
def flush (fs : FileSystem) (p : UInt32) : FileSystem :=
  (fs.writeClusters fs.dirTableBuf.bytes p).writeClusters fs.clusterMap.bytes fatClusterNumber

@[simp] theorem clusterMap_flush : (fs.flush c).clusterMap = fs.clusterMap := rfl

@[simp] theorem clusterAt_flush_fat :
    (fs.flush c).clusterAt fatClusterNumber = fs.clusterMap.bytes :=
  clusterAt_writeClusters

theorem tableAt_flush (hc : c.toNat < 512) (hne : c ≠ fatClusterNumber) :
    (fs.flush c).tableAt c = fs.dirTableBuf := by
  rw [flush, tableAt, clusterAt_writeClusters_of_ne (by decide) hc hne, clusterAt_writeClusters,
    toDirectoryTable_bytes]

theorem clusterAt_flush_of_ne (hc : c.toNat < 512) (hd : d.toNat < 512) (hne : d ≠ c)
    (hfat : d ≠ fatClusterNumber) : (fs.flush c).clusterAt d = fs.clusterAt d := by
  rw [flush, clusterAt_writeClusters_of_ne (by decide) hd hfat,
    clusterAt_writeClusters_of_ne hc hd hne]

/-- A directory that is not full has a first unused slot. -/
theorem exists_firstUnused (hnf : ¬ fs.Full d) :
    ∃ i, IsFirstUnused 2 DirectoryEntry.live (fs.tableAt d) i :=
  exists_firstUnused_of_notFull hnf

end FileSystem

namespace FileSystem.Sound

variable {fs : FileSystem} {d d' c : UInt32} {e e' : DirectoryEntry}

/-- A live directory's cluster is the root cluster or a data cluster in use. -/
theorem live_cluster (h : fs.Sound) (hd : fs.LiveDir d) :
    d = rootClusterNumber ∨ (DataCluster d ∧ fs.clusterMap.next d ≠ fatEmptyEntry) := by
  rcases h.volume.live_owned hd with hroot | ⟨b, e, ho, _⟩
  · exact .inl hroot
  · exact .inr ⟨h.volume.data ho, h.volume.notFree ho⟩

theorem live_lt (h : fs.Sound) (hd : fs.LiveDir d) : d.toNat < 512 := by
  rcases h.live_cluster hd with rfl | ⟨hdata, _⟩
  · decide
  · exact hdata.2

/-- The allocation table does not lie on a live directory. -/
theorem live_ne_fat (h : fs.Sound) (hd : fs.LiveDir d) : d ≠ fatClusterNumber := by
  rcases h.live_cluster hd with rfl | ⟨hdata, _⟩
  · decide
  · exact hdata.ne_fat

/-- A live directory is not a free cluster. -/
theorem live_ne_free (h : fs.Sound) (hd : fs.LiveDir d)
    (hc : DataCluster c ∧ fs.clusterMap.next c = fatEmptyEntry) : d ≠ c := by
  rintro rfl
  exact h.volume.not_live_of_free hc.1 hc.2 hd

/-- Every live entry has its chain of data clusters. -/
theorem chain (h : fs.Sound) (hd : fs.LiveDir d) (he : e ∈ fs.entries d) :
    ∃ l, fs.Chain e l ∧ (∀ c ∈ l, DataCluster c) ∧ l.length = e.clusterCount :=
  h.volume.chain hd he

/-- A directory with entries left is not free, so a live entry is found by its name. -/
theorem eq_of_key (h : fs.Sound) (hd : fs.LiveDir d) (he : e ∈ fs.entries d)
    (he' : e' ∈ fs.entries d) (hkey : e.key = e'.key) : e = e' :=
  (h.table hd).keyInj.eq_of_key he he' hkey

end FileSystem.Sound

end OsKernel
