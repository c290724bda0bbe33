import Mathlib.Logic.Function.Basic
import Mathlib.Data.Fintype.Basic
import Mathlib.Tactic.IntervalCases

/-!
# Data of the file system

The records of `fat32.h` and their bytes on the disk. A cluster is `clusterSize` bytes; it is read
back as a directory table (`ClusterBuffer.toDirectoryTable`) or as the file allocation table
(`ClusterBuffer.toClusterMap`), and both readings undo the corresponding write
(`toDirectoryTable_bytes`, `toClusterMap_bytes`); a table has no other bytes than the ones it was
read from (`bytes_toDirectoryTable`). Arrays are functions on `Fin` of their C length,
and an access that the C code makes with a computed index goes through a function that fails with a
`Fault` outside of it.
-/

namespace OsKernel

/-! ## Constants -/

/-- `CLUSTER_SIZE` -/
abbrev clusterSize : Nat := 2048

/-- `BLOCK_SIZE` -/
abbrev blockSize : Nat := 512

/-- `CLUSTER_MAP_SIZE` -/
abbrev clusterMapSize : Nat := 512

/-- `CLUSTER_SIZE / sizeof(struct FAT32DirectoryEntry)` -/
abbrev dirTableSize : Nat := 64

/-- `CLUSTER_0_VALUE` -/
def cluster0Value : UInt32 := 0x0FFFFFF0

/-- `CLUSTER_1_VALUE` -/
def cluster1Value : UInt32 := 0x0FFFFFFF

/-- `FAT32_FAT_END_OF_FILE` -/
def fatEndOfFile : UInt32 := 0x0FFFFFFF

/-- `FAT32_FAT_EMPTY_ENTRY` -/
def fatEmptyEntry : UInt32 := 0

/-- `FAT_CLUSTER_NUMBER` -/
def fatClusterNumber : UInt32 := 1

/-- `ROOT_CLUSTER_NUMBER` -/
def rootClusterNumber : UInt32 := 2

/-- `ATTR_SUBDIRECTORY` -/
def attrSubdirectory : UInt8 := 0b00010000

/-- `UATTR_NOT_EMPTY` -/
def uattrNotEmpty : UInt8 := 0b10101010

/-! Numerals are indices of the arrays: each has its size as an instance of its own, so that every
module reads them alike. -/

instance (priority := 2000) neZero3 : NeZero 3 := ⟨by decide⟩
instance (priority := 2000) neZero8 : NeZero 8 := ⟨by decide⟩
instance (priority := 2000) neZero16 : NeZero 16 := ⟨by decide⟩
instance (priority := 2000) neZero32 : NeZero 32 := ⟨by decide⟩
instance (priority := 2000) neZero64 : NeZero 64 := ⟨by decide⟩
instance (priority := 2000) neZero1024 : NeZero 1024 := ⟨by decide⟩

/-- Runs that the C language gives no meaning to, or that do not end. -/
inductive Fault
  /-- `driver_state.dir_table_buf.table[i]` with `i` outside of the table. -/
  | dirTableIndex (i : Int)
  /-- `driver_state.fat_table.cluster_map[c]` with `c` outside of the map. -/
  | clusterMapIndex (c : UInt32)
  /-- `process_manager_state.process_list[i]` with `i` outside of the list. -/
  | processListIndex (i : Int)
  /-- An access past the end of another fixed array of the kernel. -/
  | arrayIndex (i : Nat)
  /-- `charBuffer[i]` with `i` outside of the buffer. -/
  | charBufferIndex (i : Int)
  /-- A pixel outside of the screen. -/
  | pixel (row column : Int)
  /-- An access through `NULL`. -/
  | nullPointer
  /-- The loop or recursion was still running when the model's step bound was used up. -/
  | outOfSteps
  deriving DecidableEq, Repr

section
variable {α β : Type} {x : Except Fault α} {f : α → Except Fault β} {r : β}

@[simp] theorem ok_bind (a : α) (f : α → Except Fault β) : (Except.ok a >>= f) = f a := rfl

@[simp] theorem error_bind (e : Fault) (f : α → Except Fault β) :
    ((Except.error e : Except Fault α) >>= f) = .error e := rfl

@[simp] theorem pure_eq_ok (a : α) : (pure a : Except Fault α) = .ok a := rfl

/-- A sequence that completes completes in both parts. -/
theorem bind_eq_ok : (x >>= f) = .ok r ↔ ∃ a, x = .ok a ∧ f a = .ok r := by
  cases x with
  | ok a => simp
  | error e => simp

/-- It fails only as one of them does. -/
theorem bind_ne_error {e : Fault} (hx : x ≠ .error e) (hf : ∀ a, x = .ok a → f a ≠ .error e) :
    (x >>= f) ≠ .error e := by
  cases x with
  | ok a => exact hf a rfl
  | error e' => exact fun h => hx (congrArg _ (Except.error.inj h))

theorem toOption_eq_some {a : α} : x.toOption = some a ↔ x = .ok a := by
  cases x with
  | ok b => exact ⟨fun h => congrArg _ (Option.some.inj h), fun h => congrArg _ (Except.ok.inj h)⟩
  | error e => exact iff_of_false (fun h => nomatch h) fun h => nomatch h

end

/-! ## Little-endian integers -/

/-- Byte `k` of the little-endian representation of `v`. -/
def leByte (v k : Nat) : UInt8 := UInt8.ofNat (v / 256 ^ k)

/-- The 16-bit integer stored in two bytes. -/
def le16 (b0 b1 : UInt8) : UInt16 := UInt16.ofNat (b0.toNat + 256 * b1.toNat)

/-- The 32-bit integer stored in four bytes. -/
def le32 (b0 b1 b2 b3 : UInt8) : UInt32 :=
  UInt32.ofNat (b0.toNat + 256 * b1.toNat + 65536 * b2.toNat + 16777216 * b3.toNat)

@[simp] theorem le16_leByte (v : UInt16) : le16 (leByte v.toNat 0) (leByte v.toNat 1) = v := by
  have hv := v.toNat_lt
  apply UInt16.toNat_inj.1
  simp only [le16, leByte, UInt16.toNat_ofNat', UInt8.toNat_ofNat']
  omega

@[simp] theorem le32_leByte (v : UInt32) :
    le32 (leByte v.toNat 0) (leByte v.toNat 1) (leByte v.toNat 2) (leByte v.toNat 3) = v := by
  have hv := v.toNat_lt
  apply UInt32.toNat_inj.1
  simp only [le32, leByte, UInt32.toNat_ofNat', UInt8.toNat_ofNat']
  omega

section
variable (b0 b1 b2 b3 : UInt8)

theorem leByte_le16 : leByte (le16 b0 b1).toNat 0 = b0 ∧ leByte (le16 b0 b1).toNat 1 = b1 := by
  have h0 := b0.toNat_lt
  have h1 := b1.toNat_lt
  constructor <;> apply UInt8.toNat_inj.1 <;>
    simp only [le16, leByte, UInt16.toNat_ofNat', UInt8.toNat_ofNat'] <;> omega

theorem leByte_le32 : leByte (le32 b0 b1 b2 b3).toNat 0 = b0 ∧
    leByte (le32 b0 b1 b2 b3).toNat 1 = b1 ∧ leByte (le32 b0 b1 b2 b3).toNat 2 = b2 ∧
    leByte (le32 b0 b1 b2 b3).toNat 3 = b3 := by
  have h0 := b0.toNat_lt
  have h1 := b1.toNat_lt
  have h2 := b2.toNat_lt
  have h3 := b3.toNat_lt
  refine ⟨?_, ?_, ?_, ?_⟩ <;> apply UInt8.toNat_inj.1 <;>
    simp only [le32, leByte, UInt32.toNat_ofNat', UInt8.toNat_ofNat'] <;> omega

end

/-! ## Directory entries -/

/-- `struct FAT32DirectoryEntry`, 32 bytes. -/
structure DirectoryEntry where
  name : Vector UInt8 8
  ext : Vector UInt8 3
  /-- `attribute`, a word that Lean reserves. -/
  attr : UInt8
  userAttribute : UInt8
  undelete : UInt8
  createTime : UInt16
  createDate : UInt16
  accessDate : UInt16
  clusterHigh : UInt16
  modifiedTime : UInt16
  modifiedDate : UInt16
  clusterLow : UInt16
  filesize : UInt32
  deriving DecidableEq, Repr

namespace DirectoryEntry

/-- The entry with all bytes zero. -/
def zero : DirectoryEntry where
  name := Vector.replicate 8 0
  ext := Vector.replicate 3 0
  attr := 0
  userAttribute := 0
  undelete := 0
  createTime := 0
  createDate := 0
  accessDate := 0
  clusterHigh := 0
  modifiedTime := 0
  modifiedDate := 0
  clusterLow := 0
  filesize := 0

/-- The entry is not empty: `user_attribute == UATTR_NOT_EMPTY`. -/
def live (e : DirectoryEntry) : Bool := e.userAttribute == uattrNotEmpty

/-- The entry is a folder: `attribute == ATTR_SUBDIRECTORY`. -/
def isSubdirectory (e : DirectoryEntry) : Bool := e.attr == attrSubdirectory

/-- The first cluster of the entry: `cluster_low | (cluster_high << 16)`. -/
def cluster (e : DirectoryEntry) : UInt32 :=
  e.clusterLow.toUInt32 ||| (e.clusterHigh.toUInt32 <<< 16)

/-- The entry with its first cluster set: `cluster_low = c & 0xFFFF`,
`cluster_high = (c >> 16) & 0xFFFF`. -/
def setCluster (e : DirectoryEntry) (c : UInt32) : DirectoryEntry :=
  { e with clusterLow := (c &&& 0xFFFF).toUInt16, clusterHigh := ((c >>> 16) &&& 0xFFFF).toUInt16 }

/-- The name and the extension, which `memcmp` compares. -/
def key (e : DirectoryEntry) : Vector UInt8 8 × Vector UInt8 3 := (e.name, e.ext)

/-- `memcmp` finds the name and the extension equal. -/
def hasKey (e : DirectoryEntry) (key : Vector UInt8 8 × Vector UInt8 3) : Bool :=
  decide (e.key = key)

@[simp] theorem hasKey_iff {e : DirectoryEntry} {key : Vector UInt8 8 × Vector UInt8 3} :
    e.hasKey key = true ↔ e.key = key :=
  decide_eq_true_iff

@[simp] theorem hasKey_eq_false {e : DirectoryEntry} {key : Vector UInt8 8 × Vector UInt8 3} :
    e.hasKey key = false ↔ e.key ≠ key :=
  decide_eq_false_iff_not

/-- Byte `k` of the entry. -/
def byte (e : DirectoryEntry) (k : Nat) : UInt8 :=
  if h : k < 8 then e.name[k]
  else if h : k < 11 then e.ext[k - 8]
  else match k with
    | 11 => e.attr
    | 12 => e.userAttribute
    | 13 => e.undelete
    | 14 => leByte e.createTime.toNat 0
    | 15 => leByte e.createTime.toNat 1
    | 16 => leByte e.createDate.toNat 0
    | 17 => leByte e.createDate.toNat 1
    | 18 => leByte e.accessDate.toNat 0
    | 19 => leByte e.accessDate.toNat 1
    | 20 => leByte e.clusterHigh.toNat 0
    | 21 => leByte e.clusterHigh.toNat 1
    | 22 => leByte e.modifiedTime.toNat 0
    | 23 => leByte e.modifiedTime.toNat 1
    | 24 => leByte e.modifiedDate.toNat 0
    | 25 => leByte e.modifiedDate.toNat 1
    | 26 => leByte e.clusterLow.toNat 0
    | 27 => leByte e.clusterLow.toNat 1
    | 28 => leByte e.filesize.toNat 0
    | 29 => leByte e.filesize.toNat 1
    | 30 => leByte e.filesize.toNat 2
    | _ => leByte e.filesize.toNat 3

/-- The entry that 32 bytes represent. -/
def ofBytes (b : Fin 32 → UInt8) : DirectoryEntry where
  name := Vector.ofFn fun j : Fin 8 => b ⟨j.val, by omega⟩
  ext := Vector.ofFn fun j : Fin 3 => b ⟨8 + j.val, by omega⟩
  attr := b 11
  userAttribute := b 12
  undelete := b 13
  createTime := le16 (b 14) (b 15)
  createDate := le16 (b 16) (b 17)
  accessDate := le16 (b 18) (b 19)
  clusterHigh := le16 (b 20) (b 21)
  modifiedTime := le16 (b 22) (b 23)
  modifiedDate := le16 (b 24) (b 25)
  clusterLow := le16 (b 26) (b 27)
  filesize := le32 (b 28) (b 29) (b 30) (b 31)

@[simp] theorem ofBytes_byte (e : DirectoryEntry) : ofBytes (fun j => e.byte j.val) = e := by
  have hname : (Vector.ofFn fun j : Fin 8 => e.byte j.val) = e.name := by
    ext i hi
    rw [Vector.getElem_ofFn, byte, dif_pos hi]
  have hext : (Vector.ofFn fun j : Fin 3 => e.byte (8 + j.val)) = e.ext := by
    ext i hi
    rw [Vector.getElem_ofFn, byte, dif_neg (show ¬ 8 + i < 8 by omega),
      dif_pos (show 8 + i < 11 by omega)]
    simp only [Nat.add_sub_cancel_left]
  have hfields : ofBytes (fun j => e.byte j.val) = { e with
      createTime := le16 (leByte e.createTime.toNat 0) (leByte e.createTime.toNat 1)
      createDate := le16 (leByte e.createDate.toNat 0) (leByte e.createDate.toNat 1)
      accessDate := le16 (leByte e.accessDate.toNat 0) (leByte e.accessDate.toNat 1)
      clusterHigh := le16 (leByte e.clusterHigh.toNat 0) (leByte e.clusterHigh.toNat 1)
      modifiedTime := le16 (leByte e.modifiedTime.toNat 0) (leByte e.modifiedTime.toNat 1)
      modifiedDate := le16 (leByte e.modifiedDate.toNat 0) (leByte e.modifiedDate.toNat 1)
      clusterLow := le16 (leByte e.clusterLow.toNat 0) (leByte e.clusterLow.toNat 1)
      filesize := le32 (leByte e.filesize.toNat 0) (leByte e.filesize.toNat 1)
        (leByte e.filesize.toNat 2) (leByte e.filesize.toNat 3) } := by
    rw [ofBytes, hname, hext]
    rfl
  rw [hfields]
  simp only [le16_leByte, le32_leByte]

/-- The fields of an entry keep every byte. -/
theorem byte_ofBytes (b : Fin 32 → UInt8) (k : Fin 32) : (ofBytes b).byte k.val = b k := by
  by_cases h8 : k.val < 8
  · rw [byte, dif_pos h8]
    simp only [ofBytes, Vector.getElem_ofFn]
  · by_cases h11 : k.val < 11
    · rw [byte, dif_neg h8, dif_pos h11]
      simp only [ofBytes, Vector.getElem_ofFn]
      congr 1
      exact Fin.ext (by dsimp only; omega)
    · obtain ⟨k, hk⟩ := k
      have hlo : 11 ≤ k := not_lt.1 h11
      interval_cases k <;> simp [byte, ofBytes, leByte_le16, leByte_le32]

@[simp] theorem live_zero : zero.live = false := rfl

@[simp] theorem setCluster_name (e : DirectoryEntry) (c : UInt32) :
    (e.setCluster c).name = e.name := rfl
@[simp] theorem setCluster_ext (e : DirectoryEntry) (c : UInt32) :
    (e.setCluster c).ext = e.ext := rfl
@[simp] theorem setCluster_filesize (e : DirectoryEntry) (c : UInt32) :
    (e.setCluster c).filesize = e.filesize := rfl
@[simp] theorem setCluster_live (e : DirectoryEntry) (c : UInt32) :
    (e.setCluster c).live = e.live := rfl
@[simp] theorem setCluster_isSubdirectory (e : DirectoryEntry) (c : UInt32) :
    (e.setCluster c).isSubdirectory = e.isSubdirectory := rfl

/-- Splitting a cluster number into two halves loses nothing. -/
@[simp] theorem cluster_setCluster (e : DirectoryEntry) (c : UInt32) :
    (e.setCluster c).cluster = c := by
  have hc := c.toNat_lt
  have hlow : c.toNat &&& 65535 = c.toNat % 65536 := Nat.and_two_pow_sub_one_eq_mod c.toNat 16
  have hhigh : c.toNat >>> 16 &&& 65535 = c.toNat / 65536 := by
    rw [Nat.shiftRight_eq_div_pow]
    exact (Nat.and_two_pow_sub_one_eq_mod _ 16).trans (Nat.mod_eq_of_lt (by omega))
  apply UInt32.toNat_inj.1
  simp only [cluster, setCluster, UInt32.toNat_or, UInt32.toNat_shiftLeft, UInt16.toNat_toUInt32,
    UInt32.toNat_toUInt16, UInt32.toNat_and, UInt32.toNat_shiftRight, UInt32.reduceToNat,
    Nat.reduceMod, hlow, hhigh]
  have hsplit := Nat.shiftLeft_add_eq_or_of_lt (show c.toNat % 65536 < 2 ^ 16 by omega)
    (c.toNat / 65536)
  rw [Nat.mod_eq_of_lt (show c.toNat % 65536 < 2 ^ 16 by omega),
    Nat.mod_eq_of_lt (show c.toNat / 65536 < 2 ^ 16 by omega), Nat.shiftLeft_eq,
    Nat.mod_eq_of_lt (show c.toNat / 65536 * 2 ^ 16 < 2 ^ 32 by omega), Nat.or_comm,
    ← Nat.shiftLeft_eq, ← hsplit, Nat.shiftLeft_eq]
  omega

end DirectoryEntry

/-! ## Clusters and what they hold -/

/-- `struct ClusterBuffer`: the `clusterSize` bytes of one cluster. -/
abbrev ClusterBuffer := Fin 2048 → UInt8

/-- `struct FAT32DirectoryTable`. Slot 0 describes the directory itself, slot 1 its parent. -/
abbrev DirectoryTable := Fin 64 → DirectoryEntry

/-- `struct FAT32FileAllocationTable`. -/
abbrev ClusterMap := Fin 512 → UInt32

/-- The cluster with all bytes zero. -/
def ClusterBuffer.zero : ClusterBuffer := fun _ => 0

/-- The table with all bytes zero. -/
def DirectoryTable.zero : DirectoryTable := fun _ => .zero

/-- The bytes of a directory table. -/
def DirectoryTable.bytes (t : DirectoryTable) : ClusterBuffer :=
  fun k => (t ⟨k.val / 32, by omega⟩).byte (k.val % 32)

/-- The bytes of a cluster as a directory table. -/
def ClusterBuffer.toDirectoryTable (b : ClusterBuffer) : DirectoryTable :=
  fun i => .ofBytes fun j => b ⟨32 * i.val + j.val, by omega⟩

/-- The bytes of the file allocation table. -/
def ClusterMap.bytes (m : ClusterMap) : ClusterBuffer :=
  fun k => leByte (m ⟨k.val / 4, by omega⟩).toNat (k.val % 4)

/-- The bytes of a cluster as the file allocation table. -/
def ClusterBuffer.toClusterMap (b : ClusterBuffer) : ClusterMap :=
  fun i => le32 (b ⟨4 * i.val, by omega⟩) (b ⟨4 * i.val + 1, by omega⟩)
    (b ⟨4 * i.val + 2, by omega⟩) (b ⟨4 * i.val + 3, by omega⟩)

@[simp] theorem toDirectoryTable_bytes (t : DirectoryTable) : t.bytes.toDirectoryTable = t := by
  funext i
  have h : ∀ j : Fin 32, (32 * i.val + j.val) / 32 = i.val ∧ (32 * i.val + j.val) % 32 = j.val := by
    intro j
    omega
  simp [ClusterBuffer.toDirectoryTable, DirectoryTable.bytes, h]

@[simp] theorem bytes_toDirectoryTable (b : ClusterBuffer) : b.toDirectoryTable.bytes = b := by
  funext k
  have hk : 32 * (k.val / 32) + k.val % 32 = k.val := Nat.div_add_mod k.val 32
  have hbyte := DirectoryEntry.byte_ofBytes
    (fun j => b ⟨32 * (k.val / 32) + j.val, by have := k.isLt; omega⟩) ⟨k.val % 32, by omega⟩
  rw [DirectoryTable.bytes, ClusterBuffer.toDirectoryTable]
  exact hbyte.trans (congrArg b (Fin.ext hk))

/-- A cluster is determined by the table it is read as. -/
theorem toDirectoryTable_inj {b b' : ClusterBuffer} :
    b.toDirectoryTable = b'.toDirectoryTable ↔ b = b' :=
  ⟨fun h => by rw [← bytes_toDirectoryTable b, h, bytes_toDirectoryTable],
    congrArg ClusterBuffer.toDirectoryTable⟩

@[simp] theorem toClusterMap_bytes (m : ClusterMap) : m.bytes.toClusterMap = m := by
  funext i
  have h : ∀ k < 4, (4 * i.val + k) / 4 = i.val ∧ (4 * i.val + k) % 4 = k := by
    intro k hk
    omega
  have h0 := h 0 (by omega)
  simp only [Nat.add_zero] at h0
  simp only [ClusterBuffer.toClusterMap, ClusterMap.bytes, h0.1, h0.2, (h 1 (by omega)).1,
    (h 1 (by omega)).2, (h 2 (by omega)).1, (h 2 (by omega)).2, (h 3 (by omega)).1,
    (h 3 (by omega)).2, le32_leByte, Fin.eta]

/-- A zeroed cluster reads as a table without entries. -/
@[simp] theorem toDirectoryTable_zero :
    ClusterBuffer.zero.toDirectoryTable = DirectoryTable.zero := by
  funext i
  rfl

/-! ## Requests -/

/-- `struct FAT32DriverRequest`; `buf` is an address. -/
structure DriverRequest where
  buf : UInt32
  name : Vector UInt8 8
  ext : Vector UInt8 3
  parentClusterNumber : UInt32
  bufferSize : UInt32
  deriving DecidableEq, Repr

/-- The name and the extension, which `memcmp` compares. -/
def DriverRequest.key (r : DriverRequest) : Vector UInt8 8 × Vector UInt8 3 := (r.name, r.ext)

end OsKernel
