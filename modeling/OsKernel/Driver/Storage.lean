import OsKernel.Driver.Disk

/-!
# Clusters on the drive

The file system sees the disk as clusters that are read and written whole. Whatever clusters it
reads and writes, one transfer after the other, the disk driver delivers what that view says, and
leaves the drive so that its sectors hold the clusters (`storage_refines`).
-/

namespace OsKernel

open Lib

/-! ## Transfers -/

/-- The transfers of the file system: `read_clusters` and `write_clusters` of one cluster, and the
ones of block `BOOT_SECTOR` in `is_empty_storage` and `create_fat32`. -/
inductive DiskCall
  | readClusters (ptr clusterNumber : UInt32)
  | writeClusters (ptr clusterNumber : UInt32)
  | readBoot (ptr : UInt32)
  | writeBoot (ptr : UInt32)

namespace DiskCall

/-- The call of the disk driver. -/
def run (steps : Nat) (x : (UInt32 → UInt8) × AtaDrive) :
    DiskCall → Except AtaError ((UInt32 → UInt8) × AtaDrive)
  | readClusters ptr c => readBlocks steps ptr (clusterToLba c) (1 * 4) x.1 x.2
  | writeClusters ptr c => do
    let d ← writeBlocks steps ptr (clusterToLba c) (1 * 4) x.1 x.2
    return (x.1, d)
  | readBoot ptr => readBlocks steps ptr (clusterToLba 0) 1 x.1 x.2
  | writeBoot ptr => do
    let d ← writeBlocks steps ptr 0 1 x.1 x.2
    return (x.1, d)

/-- What the call is for, with a disk of clusters. -/
def apply (x : (UInt32 → UInt8) × Disk) : DiskCall → (UInt32 → UInt8) × Disk
  | readClusters ptr c =>
    (storeBytes x.1 ptr 2048 fun o => (x.2.readClusters c) (Fin.ofNat 2048 o), x.2)
  | writeClusters ptr c => (x.1, x.2.writeClusters (bufCluster x.1 ptr 0) c)
  | readBoot ptr => (storeBytes x.1 ptr 512 fun o => (x.2.readClusters 0) (Fin.ofNat 2048 o), x.2)
  | writeBoot ptr => (x.1, x.2.writeClusters
      (fun k => if k.val < 512 then bufCluster x.1 ptr 0 k else x.2.readClusters 0 k) 0)

/-- The call, after what the program has made of the memory since the one before it. -/
def runAfter (steps : Nat) (x : (UInt32 → UInt8) × AtaDrive)
    (q : ((UInt32 → UInt8) → UInt32 → UInt8) × DiskCall) :
    Except AtaError ((UInt32 → UInt8) × AtaDrive) :=
  q.2.run steps (q.1 x.1, x.2)

/-- What that is for, with a disk of clusters. -/
def applyAfter (x : (UInt32 → UInt8) × Disk)
    (q : ((UInt32 → UInt8) → UInt32 → UInt8) × DiskCall) : (UInt32 → UInt8) × Disk :=
  q.2.apply (q.1 x.1, x.2)

end DiskCall

/-! ## The sectors of a cluster -/

/-- The drive holds the clusters of the disk. -/
def DriveHolds (d : AtaDrive) (disk : Disk) : Prop :=
  ∀ (c : UInt32) (k : Fin 2048),
    disk.readClusters c k = diskByte d (512 * (blockAddress c).toNat + k.val)

section Sectors
variable {d d' : AtaDrive} {disk : Disk} {c c' : UInt32} {b : ClusterBuffer}

/-- The drive gets the block address of the cluster. -/
theorem startBlock_clusterToLba : startBlock (clusterToLba c) = (blockAddress c).toNat := by
  rw [startBlock, blockAddress, UInt32.toNat_and]
  exact (Nat.and_two_pow_sub_one_eq_mod _ 28).symm

/-- It is a multiple of four. -/
theorem blockAddress_mod : (blockAddress c).toNat % 4 = 0 := by
  rw [← startBlock_clusterToLba, startBlock, clusterToLba, UInt32.toNat_mul]
  rw [show (4 : UInt32).toNat = 4 from rfl]
  omega

/-- A cluster that is written, whole or in its first bytes. -/
theorem DriveHolds.write {n : Nat} {g : Nat → UInt8} (h : DriveHolds d disk) (hn : n ≤ 2048)
    (hbytes : diskByte d' = writeBytes (diskByte d) (512 * (blockAddress c).toNat) n g)
    (hb : ∀ k : Fin 2048, b k = if k.val < n then g k.val else disk.readClusters c k) :
    DriveHolds d' (disk.writeClusters b c) := by
  intro x k
  have hk := k.isLt
  have hc := @blockAddress_mod c
  have hx := @blockAddress_mod x
  rw [hbytes, writeBytes, Disk.readClusters, Disk.writeClusters, Function.update_apply]
  split
  · next heq =>
    rw [hb, heq]
    split
    · rw [if_pos (by omega), Nat.add_sub_cancel_left]
    · rw [if_neg (by omega)]
      exact h c k
  · next hne =>
    have hne : (blockAddress x).toNat ≠ (blockAddress c).toNat :=
      fun heq => hne (UInt32.toNat_inj.1 heq)
    rw [if_neg (by omega)]
    exact h x k

end Sectors

/-! ## Runs -/

/-- The drive holds the clusters of the disk, has no transfer under way, and answers. -/
structure DriveServes (steps : Nat) (d : AtaDrive) (disk : Disk) : Prop where
  bytes : DriveHolds d disk
  idle : d.transfer = none
  answers : d.Answers steps

section Runs
variable {steps : Nat} {d : AtaDrive} {disk : Disk} {mem : UInt32 → UInt8}

/-- The bytes of a transfer are those of the cluster. -/
theorem DriveHolds.read (h : DriveHolds d disk) (ptr c : UInt32) {n : Nat} (hn : n ≤ 2048) :
    storeBytes mem ptr n (fun o => diskByte d (512 * startBlock (clusterToLba c) + o)) =
      storeBytes mem ptr n fun o => disk.readClusters c (Fin.ofNat 2048 o) := by
  refine storeBytes_congr fun o ho => ?_
  rw [h c, startBlock_clusterToLba]
  show diskByte d _ = diskByte d (512 * (blockAddress c).toNat + o % 2048)
  rw [Nat.mod_eq_of_lt (ho.trans_le hn)]

/-- A call does what it is for. -/
theorem DriveServes.step (h : DriveServes steps d disk) (mem : UInt32 → UInt8) (q : DiskCall) :
    ∃ d', q.run steps (mem, d) = .ok ((q.apply (mem, disk)).1, d') ∧
      DriveServes steps d' (q.apply (mem, disk)).2 := by
  have hblock : (4 : UInt8) ≠ 0 := by decide
  have hone : (1 : UInt8) ≠ 0 := by decide
  cases q with
  | readClusters ptr c =>
    obtain ⟨d', hrun, hsectors, hidle, hans⟩ :=
      readBlocks_spec ptr (clusterToLba c) mem h.answers h.idle hblock
    refine ⟨d', ?_, fun x k => ?_, hidle, hans⟩
    · rw [DiskCall.apply, ← h.bytes.read ptr c (Nat.le_refl 2048)]
      exact hrun
    · rw [diskByte_congr hsectors]
      exact h.bytes x k
  | writeClusters ptr c =>
    obtain ⟨d', hrun, hbytes, hidle, hans⟩ :=
      writeBlocks_spec ptr (clusterToLba c) mem h.answers h.idle hblock
    rw [startBlock_clusterToLba] at hbytes
    refine ⟨d', ?_, h.bytes.write (Nat.le_refl 2048) hbytes fun k => ?_, hidle, hans⟩
    · show (writeBlocks steps ptr (clusterToLba c) 4 mem d >>= fun d => pure (mem, d)) = _
      rw [hrun]
      rfl
    · show mem (ptr + UInt32.ofNat (0 + k.val)) = _
      rw [if_pos k.isLt, Nat.zero_add]
  | readBoot ptr =>
    obtain ⟨d', hrun, hsectors, hidle, hans⟩ :=
      readBlocks_spec ptr (clusterToLba 0) mem h.answers h.idle hone
    refine ⟨d', ?_, fun x k => ?_, hidle, hans⟩
    · rw [DiskCall.apply, ← h.bytes.read ptr 0 (show 512 ≤ 2048 by decide)]
      exact hrun
    · rw [diskByte_congr hsectors]
      exact h.bytes x k
  | writeBoot ptr =>
    obtain ⟨d', hrun, hbytes, hidle, hans⟩ := writeBlocks_spec ptr 0 mem h.answers h.idle hone
    refine ⟨d', ?_, h.bytes.write (show 512 ≤ 2048 by decide) hbytes fun k => ?_, hidle, hans⟩
    · show (writeBlocks steps ptr 0 1 mem d >>= fun d => pure (mem, d)) = _
      rw [hrun]
      rfl
    · show (if k.val < 512 then mem (ptr + UInt32.ofNat (0 + k.val)) else _) = _
      rw [Nat.zero_add]

end Runs

/-- Whatever clusters are read and written, one transfer after the other, and whatever the program
makes of the memory between two transfers: the disk driver completes every transfer, delivers the
clusters as they were written last, and leaves them in the sectors of the drive, however long the
drive takes. -/
theorem storage_refines {steps : Nat} {d : AtaDrive} {disk : Disk} (h : DriveServes steps d disk)
    (mem : UInt32 → UInt8) (calls : List (((UInt32 → UInt8) → UInt32 → UInt8) × DiskCall)) :
    ∃ d', calls.foldlM (DiskCall.runAfter steps) (mem, d) =
        .ok ((calls.foldl DiskCall.applyAfter (mem, disk)).1, d') ∧
      DriveServes steps d' (calls.foldl DiskCall.applyAfter (mem, disk)).2 := by
  induction calls generalizing mem d disk with
  | nil => exact ⟨d, rfl, h⟩
  | cons q calls ih =>
    obtain ⟨d₁, hrun, h₁⟩ := h.step (q.1 mem) q.2
    obtain ⟨d', hrest, h'⟩ := ih h₁ (q.2.apply (q.1 mem, disk)).1
    refine ⟨d', ?_, h'⟩
    rw [List.foldlM_cons, DiskCall.runAfter, hrun]
    exact hrest

/-- A blank drive that is busy for two reads of the status each time, and not ready for one. -/
def slowDrive : AtaDrive := ⟨fun _ _ => 0, 0, 0, 0, 0, 0, none, 0, 0, fun _ => (2, 1)⟩

/-- A cluster is written, the memory it came from is used for something else, and it is read back to
where it was. -/
def writtenBack : List (((UInt32 → UInt8) → UInt32 → UInt8) × DiskCall) :=
  [(id, .writeClusters 0x1000 3), (fun _ _ => 0xCC, .readClusters 0x1000 3)]

/-- The drive delivers it. -/
theorem storage_refines_one : ∃ d',
    writtenBack.foldlM (DiskCall.runAfter 4) (fun a => a.toUInt8, slowDrive) =
    .ok ((writtenBack.foldl DiskCall.applyAfter (fun a => a.toUInt8, fun _ => .zero)).1, d') := by
  have hzero (k : Nat) : diskByte slowDrive k = 0 := by
    show UInt8.ofNat (0 / 256 ^ (k % 2)) = 0
    rw [Nat.zero_div]
    rfl
  have h : DriveServes 4 slowDrive fun _ => .zero :=
    ⟨fun _ _ => (hzero _).symm, rfl, by decide, by decide, fun _ => show 2 < 4 ∧ 1 < 4 by decide⟩
  obtain ⟨d', hrun, -⟩ := storage_refines h (fun a => a.toUInt8) writtenBack
  exact ⟨d', hrun⟩

end OsKernel
