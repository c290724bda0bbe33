import OsKernel.Lib.AtaDrive
import OsKernel.Lib.Loop
import OsKernel.Fat32.Driver

/-!
# The disk driver

`read_blocks` and `write_blocks` transfer sectors word by word through the ports of an ATA drive.
-/

namespace OsKernel

open Lib

/-! ## Source -/

/-- `ATA_busy_wait`, which reads the status `steps` times at most -/
def ataBusyWait : Nat → AtaDrive → Except AtaError AtaDrive
  | 0, _ => .error .stuck
  | steps + 1, d => do
    let (status, d) ← d.inb 0x1F7
    if status &&& 0x80 ≠ 0 then ataBusyWait steps d else .ok d

/-- `ATA_DRQ_wait`, which waits for `ATA_STATUS_RDY` -/
def ataDrqWait : Nat → AtaDrive → Except AtaError AtaDrive
  | 0, _ => .error .stuck
  | steps + 1, d => do
    let (status, d) ← d.inb 0x1F7
    if status &&& 0x40 = 0 then ataDrqWait steps d else .ok d

/-- The commands with which `read_blocks` and `write_blocks` start. -/
def ataCommand (steps : Nat) (lba : UInt32) (blockCount command : UInt8) (d : AtaDrive) :
    Except AtaError AtaDrive := do
  let d ← ataBusyWait steps d
  let d ← d.outb 0x1F6 ((0xE0 : UInt8) ||| ((lba >>> 24) &&& 0xF).toUInt8)
  let d ← d.outb 0x1F2 blockCount
  let d ← d.outb 0x1F3 lba.toUInt8
  let d ← d.outb 0x1F4 (lba >>> 8).toUInt8
  let d ← d.outb 0x1F5 (lba >>> 16).toUInt8
  d.outb 0x1F7 command

/-- The memory with a word stored at `a`. -/
def storeWord (mem : UInt32 → UInt8) (a : UInt32) (w : UInt16) : UInt32 → UInt8 :=
  Function.update (Function.update mem a (leByte w.toNat 0)) (a + 1) (leByte w.toNat 1)

/-- The word at `a`. -/
def loadWord (mem : UInt32 → UInt8) (a : UInt32) : UInt16 := le16 (mem a) (mem (a + 1))

/-- The address of word `j` of block `i` of the buffer at `ptr`. -/
def wordAddress (ptr : UInt32) (i j : Nat) : UInt32 := ptr + UInt32.ofNat (512 * i + 2 * j)

/-- The inner loop of `read_blocks`: word `j` of block `i` goes to the buffer. -/
def readWord (ptr : UInt32) (i : Nat) (x : (UInt32 → UInt8) × AtaDrive) (j : Nat) :
    Except AtaError ((UInt32 → UInt8) × AtaDrive) := do
  let (w, d) ← x.2.inw 0x1F0
  return (storeWord x.1 (wordAddress ptr i j) w, d)

/-- The outer loop of `read_blocks` -/
def readBlock (steps : Nat) (ptr : UInt32) (x : (UInt32 → UInt8) × AtaDrive) (i : Nat) :
    Except AtaError ((UInt32 → UInt8) × AtaDrive) := do
  let d ← ataBusyWait steps x.2
  let d ← ataDrqWait steps d
  (List.range 256).foldlM (readWord ptr i) (x.1, d)

/-- `read_blocks` -/
def readBlocks (steps : Nat) (ptr lba : UInt32) (blockCount : UInt8) (mem : UInt32 → UInt8)
    (d : AtaDrive) : Except AtaError ((UInt32 → UInt8) × AtaDrive) := do
  let d ← ataCommand steps lba blockCount 0x20 d
  (List.range blockCount.toNat).foldlM (readBlock steps ptr) (mem, d)

/-- The outer loop of `write_blocks`, around the one that writes the words of block `i` -/
def writeBlock (steps : Nat) (ptr : UInt32) (mem : UInt32 → UInt8) (d : AtaDrive) (i : Nat) :
    Except AtaError AtaDrive := do
  let d ← ataBusyWait steps d
  let d ← ataDrqWait steps d
  (List.range 256).foldlM (fun d j => d.outw 0x1F0 (loadWord mem (wordAddress ptr i j))) d

/-- `write_blocks` -/
def writeBlocks (steps : Nat) (ptr lba : UInt32) (blockCount : UInt8) (mem : UInt32 → UInt8)
    (d : AtaDrive) : Except AtaError AtaDrive := do
  let d ← ataCommand steps lba blockCount 0x30 d
  (List.range blockCount.toNat).foldlM (writeBlock steps ptr mem) d

/-! ## Waiting -/

section Wait
variable {d : AtaDrive} {steps : Nat}

/-- The wait ends with the first status that is not busy. -/
theorem ataBusyWait_eq (h : d.busy < steps) :
    ataBusyWait steps d = .ok { d with busy := 0, unready := d.unready - 1 } := by
  induction steps generalizing d with
  | zero => exact absurd h (Nat.not_lt_zero _)
  | succ steps ih =>
    rw [ataBusyWait]
    by_cases hbusy : d.busy = 0
    · obtain ⟨status, hin, hbit, -⟩ := AtaDrive.inb_free hbusy
      rw [hin]
      show (if status &&& 0x80 ≠ 0 then _ else _) = _
      rw [if_neg (not_not.2 hbit), ← hbusy]
    · rw [AtaDrive.inb_busy hbusy]
      show ataBusyWait steps { d with busy := d.busy - 1 } = _
      rw [ih (show d.busy - 1 < steps by omega)]

/-- So does the other one, with the first status that is ready. -/
theorem ataDrqWait_eq (hbusy : d.busy = 0) (h : d.unready < steps) :
    ataDrqWait steps d = .ok { d with unready := 0 } := by
  induction steps generalizing d with
  | zero => exact absurd h (Nat.not_lt_zero _)
  | succ steps ih =>
    obtain ⟨status, hin, -, hready⟩ := AtaDrive.inb_free hbusy
    rw [ataDrqWait, hin]
    show (if status &&& 0x40 = 0 then ataDrqWait steps { d with unready := d.unready - 1 }
      else .ok { d with unready := d.unready - 1 }) = _
    by_cases hunready : d.unready = 0
    · rw [if_neg fun hzero => hready.1 hzero hunready, hunready]
    · rw [if_pos (hready.2 hunready)]
      have hlt : d.unready - 1 < steps := by omega
      exact @ih { d with unready := d.unready - 1 } hbusy hlt

end Wait

/-! ## Commands -/

/-- The block address that a transfer starts at: the drive takes 28 bits. -/
def startBlock (lba : UInt32) : Nat := lba.toNat % 2 ^ 28

section Command
variable {d : AtaDrive} {steps : Nat} {blockCount : UInt8}

/-- The registers carry the block address. -/
theorem selected_bytes (lba : UInt32) :
    (((0xE0 : UInt8) ||| ((lba >>> 24) &&& 0xF).toUInt8).toNat % 16) * 2 ^ 24 +
      (lba >>> 16).toUInt8.toNat * 2 ^ 16 + (lba >>> 8).toUInt8.toNat * 2 ^ 8 + lba.toUInt8.toNat =
        startBlock lba := by
  have hlba := lba.toNat_lt
  have hnibble : ((0xE0 : UInt8) ||| ((lba >>> 24) &&& 0xF).toUInt8).toNat % 16 =
      lba.toNat / 2 ^ 24 % 16 := by
    rw [UInt8.toNat_or, show (16 : Nat) = 2 ^ 4 from rfl, Nat.or_mod_two_pow]
    simp only [UInt32.toNat_toUInt8, UInt32.toNat_and, UInt32.toNat_shiftRight, UInt32.reduceToNat,
      UInt8.reduceToNat, Nat.reducePow, Nat.reduceMod, Nat.zero_or]
    rw [show (15 : Nat) = 2 ^ 4 - 1 from rfl, Nat.and_two_pow_sub_one_eq_mod,
      Nat.shiftRight_eq_div_pow]
    omega
  rw [hnibble, startBlock]
  simp only [UInt32.toNat_toUInt8, UInt32.toNat_shiftRight, UInt32.reduceToNat, Nat.reduceMod,
    Nat.shiftRight_eq_div_pow]
  omega

/-- A drive without a transfer under way takes the command. -/
theorem ataCommand_spec (lba : UInt32) (hans : d.Answers steps) (hidle : d.transfer = none)
    (hn : blockCount ≠ 0) {command : UInt8} {writes : Bool}
    (hcommand : command = if writes then 0x30 else 0x20) :
    ∃ d', ataCommand steps lba blockCount command d = .ok d' ∧ d'.sectors = d.sectors ∧
      d'.transfer = some ⟨writes, startBlock lba, blockCount.toNat, 0⟩ ∧ d'.Answers steps := by
  let d₁ : AtaDrive := { d with
    busy := 0, unready := d.unready - 1
    driveHead := (0xE0 : UInt8) ||| ((lba >>> 24) &&& 0xF).toUInt8
    sectorCount := blockCount
    lbaLow := lba.toUInt8, lbaMid := (lba >>> 8).toUInt8, lbaHigh := (lba >>> 16).toUInt8 }
  have hpos := Nat.zero_lt_of_lt hans.busy
  have hans₁ : d₁.Answers steps := ⟨hpos, (Nat.sub_le _ _).trans_lt hans.unready, hans.delays⟩
  have hstart : d₁.transfer = none → (d₁.start writes).transfer =
      some ⟨writes, startBlock lba, blockCount.toNat, 0⟩ := by
    intro _
    show some (⟨writes, d₁.selected, d₁.count, 0⟩ : AtaTransfer) = _
    have hcount : d₁.count = blockCount.toNat := if_neg hn
    rw [hcount, show d₁.selected = startBlock lba from selected_bytes lba]
  refine ⟨d₁.start writes, ?_, rfl, hstart hidle, hans₁.start⟩
  rw [ataCommand, ataBusyWait_eq hans.busy]
  obtain ⟨sectors, _, _, _, _, _, transfer, busy, unready, delays⟩ := d
  obtain rfl : transfer = none := hidle
  cases writes with
  | false =>
    obtain rfl : command = 0x20 := hcommand
    rfl
  | true =>
    obtain rfl : command = 0x30 := hcommand
    rfl

end Command

/-! ## Words in memory -/

/-- The memory with the first `n` bytes of `f` at `ptr`. -/
def storeBytes (mem : UInt32 → UInt8) (ptr : UInt32) (n : Nat) (f : Nat → UInt8) : UInt32 → UInt8 :=
  fun a => if (a - ptr).toNat < n then f (a - ptr).toNat else mem a

section Memory
variable {mem : UInt32 → UInt8} {ptr a : UInt32} {n : Nat} {f : Nat → UInt8} {w : UInt16}

theorem add_ofNat_succ : ptr + UInt32.ofNat n + 1 = ptr + UInt32.ofNat (n + 1) := by
  rw [UInt32.ofNat_add, ← UInt32.add_assoc]
  rfl

/-- Byte `n` of the buffer at `ptr`. -/
theorem eq_add_ofNat (hn : n < 2 ^ 32) : a = ptr + UInt32.ofNat n ↔ (a - ptr).toNat = n := by
  have hval : (UInt32.ofNat n).toNat = n := by
    rw [UInt32.toNat_ofNat']
    exact Nat.mod_eq_of_lt hn
  constructor
  · rintro rfl
    rw [UInt32.add_comm, UInt32.add_sub_cancel, hval]
  · intro h
    rw [← UInt32.toNat_inj.1 (h.trans hval.symm), UInt32.add_comm, UInt32.sub_add_cancel]

theorem storeBytes_congr {g : Nat → UInt8} (h : ∀ o < n, f o = g o) :
    storeBytes mem ptr n f = storeBytes mem ptr n g := by
  funext a
  rw [storeBytes, storeBytes]
  split
  · next ha => exact h _ ha
  · rfl

/-- One more word. -/
theorem storeWord_storeBytes (hn : n + 1 < 2 ^ 32) (h0 : f n = leByte w.toNat 0)
    (h1 : f (n + 1) = leByte w.toNat 1) :
    storeWord (storeBytes mem ptr n f) (ptr + UInt32.ofNat n) w = storeBytes mem ptr (n + 2) f := by
  funext a
  rw [storeWord, add_ofNat_succ, Function.update_apply, Function.update_apply,
    storeBytes, storeBytes]
  split
  · next h =>
    have hoff := (eq_add_ofNat hn).1 h
    rw [if_pos (by omega), hoff, h1]
  · next hne =>
    have hoff : (a - ptr).toNat ≠ n + 1 := fun h => hne ((eq_add_ofNat hn).2 h)
    split
    · next h =>
      have hoff := (eq_add_ofNat (Nat.lt_of_succ_lt hn)).1 h
      rw [if_pos (by omega), hoff, h0]
    · next hne' =>
      have hoff' : (a - ptr).toNat ≠ n := fun h => hne' ((eq_add_ofNat (Nat.lt_of_succ_lt hn)).2 h)
      have hlt : (a - ptr).toNat < n ↔ (a - ptr).toNat < n + 2 := by omega
      rw [if_congr hlt rfl rfl]

end Memory

/-! ## Reading -/

/-- The bytes of the sectors of a drive, one sector after the other. -/
def diskByte (d : AtaDrive) (k : Nat) : UInt8 :=
  leByte (d.sectors (k / 512) (k % 512 / 2)).toNat (k % 2)

section Transfer
variable {d : AtaDrive} {steps i j : Nat} {ptr : UInt32} {blockCount : UInt8}
  {mem : UInt32 → UInt8} {t : AtaTransfer} {f : Nat → UInt8}

/-- The two bytes of a word. -/
theorem diskByte_word (hj : j < 256) (b : Nat) :
    diskByte d (512 * b + 2 * j) = leByte (d.sectors b j).toNat 0 ∧
    diskByte d (512 * b + 2 * j + 1) = leByte (d.sectors b j).toNat 1 := by
  constructor
  · rw [diskByte, show (512 * b + 2 * j) / 512 = b by omega,
      show (512 * b + 2 * j) % 512 / 2 = j by omega, show (512 * b + 2 * j) % 2 = 0 by omega]
  · rw [diskByte, show (512 * b + 2 * j + 1) / 512 = b by omega,
      show (512 * b + 2 * j + 1) % 512 / 2 = j by omega,
      show (512 * b + 2 * j + 1) % 2 = 1 by omega]

/-- After the waits the drive transfers a sector. -/
theorem waits_spec (hans : d.Answers steps) (htransfer : d.transfer = some t) (hword : t.word = 0) :
    ∃ d', (∀ {β : Type} (rest : AtaDrive → Except AtaError β),
        (ataBusyWait steps d >>= fun d => ataDrqWait steps d >>= rest) = rest d') ∧
      d'.sectors = d.sectors ∧ d'.InSector t 0 ∧ d'.Answers steps := by
  have hpos := Nat.zero_lt_of_lt hans.busy
  refine ⟨{ d with busy := 0, unready := 0 }, fun rest => ?_, rfl,
    ⟨fun _ => ⟨?_, rfl, rfl⟩, fun h => nomatch h⟩, hpos, hpos, hans.delays⟩
  · rw [ataBusyWait_eq hans.busy]
    have hready := ataDrqWait_eq (d := { d with busy := 0, unready := d.unready - 1 }) rfl
      ((Nat.sub_le _ _).trans_lt hans.unready)
    show (ataDrqWait steps { d with busy := 0, unready := d.unready - 1 } >>= rest) = _
    rw [hready]
    rfl
  · show d.transfer = _
    rw [htransfer, ← hword]

/-- The transfer of the block after `i` ones out of `n`. -/
def blockTransfer (writes : Bool) (b n i : Nat) : Option AtaTransfer :=
  if i < n then some ⟨writes, b + i, n - i, 0⟩ else none

theorem next_block {writes : Bool} {b n : Nat} (hi : i < n) :
    AtaTransfer.next ⟨writes, b + i, n - i, 0⟩ = blockTransfer writes b n (i + 1) := by
  rw [AtaTransfer.next, blockTransfer]
  by_cases hlast : i + 1 < n
  · rw [if_neg (show ¬ n - i = 1 by omega), if_pos hlast]
    rfl
  · rw [if_pos (show n - i = 1 by omega), if_neg hlast]

/-- `j` words of block `i` are in the buffer at `ptr`. -/
structure WordsRead (mem : UInt32 → UInt8) (ptr : UInt32) (f : Nat → UInt8) (d : AtaDrive)
    (t : AtaTransfer) (steps i j : Nat) (x : (UInt32 → UInt8) × AtaDrive) : Prop where
  memory : x.1 = storeBytes mem ptr (512 * i + 2 * j) f
  sectors : x.2.sectors = d.sectors
  sector : x.2.InSector t j
  answers : x.2.Answers steps

theorem WordsRead.step {x : (UInt32 → UInt8) × AtaDrive} (h : WordsRead mem ptr f d t steps i j x)
    (hj : j < 256) (hread : t.writes = false) (hi : 512 * i + 512 ≤ 2 ^ 32)
    (hf : ∀ o < 512, f (512 * i + o) = diskByte d (512 * t.lba + o)) :
    ∃ x', readWord ptr i x j = .ok x' ∧ WordsRead mem ptr f d t steps i (j + 1) x' := by
  obtain ⟨hlow, hhigh⟩ := @diskByte_word d j hj t.lba
  refine ⟨_, by rw [readWord, h.sector.inw hj hread]; rfl, ?_,
    AtaDrive.sectors_advance.trans h.sectors, h.sector.advance hj, h.answers.advance⟩
  show storeWord x.1 (wordAddress ptr i j) (x.2.sectors t.lba j) = _
  rw [h.memory, h.sectors, wordAddress]
  refine storeWord_storeBytes (by omega) ?_ ?_
  · rw [hf _ (by omega), hlow]
  · rw [Nat.add_assoc, hf _ (by omega), ← Nat.add_assoc, hhigh]

/-- `i` blocks out of `n` are in the buffer at `ptr`. -/
structure BlocksRead (mem : UInt32 → UInt8) (ptr : UInt32) (d : AtaDrive) (b n steps i : Nat)
    (x : (UInt32 → UInt8) × AtaDrive) : Prop where
  memory : x.1 = storeBytes mem ptr (512 * i) fun o => diskByte d (512 * b + o)
  sectors : x.2.sectors = d.sectors
  transfer : x.2.transfer = blockTransfer false b n i
  answers : x.2.Answers steps

theorem BlocksRead.step {b n : Nat} {x : (UInt32 → UInt8) × AtaDrive}
    (h : BlocksRead mem ptr d b n steps i x) (hi : i < n) (hn : 512 * n ≤ 2 ^ 32) :
    ∃ x', readBlock steps ptr x i = .ok x' ∧ BlocksRead mem ptr d b n steps (i + 1) x' := by
  have htransfer : x.2.transfer = some ⟨false, b + i, n - i, 0⟩ := h.transfer.trans (if_pos hi)
  obtain ⟨d', hwait, hsectors, hsector, hans⟩ := waits_spec h.answers htransfer rfl
  have hbyte (o : Nat) : diskByte d' o = diskByte d o := by
    rw [diskByte, diskByte, hsectors, h.sectors]
  have hf : ∀ o < 512, (fun o => diskByte d (512 * b + o)) (512 * i + o) =
      diskByte d' (512 * (b + i) + o) := by
    intro o _
    rw [hbyte, Nat.mul_add, Nat.add_assoc]
  obtain ⟨x', hrun, hx'⟩ := foldlM_range_ok (f := readWord ptr i) (n := 256)
    (fun j hj x hx => WordsRead.step hx hj rfl (by omega) hf)
    (⟨h.memory, rfl, hsector, hans⟩ : WordsRead mem ptr _ d' ⟨false, b + i, n - i, 0⟩ steps
      i 0 (x.1, d'))
  refine ⟨x', ?_, hx'.memory, hx'.sectors.trans (hsectors.trans h.sectors), ?_, hx'.answers⟩
  · rw [readBlock, hwait]
    exact hrun
  · exact (hx'.sector.ended rfl).trans (next_block hi)

/-- `read_blocks` stores the bytes of the sectors it names to the buffer, however long the drive
takes. -/
theorem readBlocks_spec (ptr lba : UInt32) (mem : UInt32 → UInt8) (hans : d.Answers steps)
    (hidle : d.transfer = none) (hn : blockCount ≠ 0) :
    ∃ d', readBlocks steps ptr lba blockCount mem d =
        .ok (storeBytes mem ptr (512 * blockCount.toNat)
          (fun o => diskByte d (512 * startBlock lba + o)), d') ∧
      d'.sectors = d.sectors ∧ d'.transfer = none ∧ d'.Answers steps := by
  have hlt := blockCount.toNat_lt
  have hpos : 0 < blockCount.toNat := Nat.pos_of_ne_zero fun h => hn (UInt8.toNat_inj.1 h)
  obtain ⟨d₁, hcommand, hsectors, htransfer, hans₁⟩ := ataCommand_spec lba hans hidle hn
    (show 0x20 = if false then 0x30 else 0x20 from rfl)
  have hstart : BlocksRead mem ptr d (startBlock lba) blockCount.toNat steps 0 (mem, d₁) :=
    ⟨rfl, hsectors, htransfer.trans (if_pos hpos).symm, hans₁⟩
  obtain ⟨⟨m, d'⟩, hrun, hx⟩ :=
    foldlM_range_ok (fun i hi x hx => BlocksRead.step hx hi (by omega)) hstart
  refine ⟨d', ?_, hx.sectors, hx.transfer.trans (if_neg (lt_irrefl _)), hx.answers⟩
  rw [readBlocks, hcommand, ← hx.memory]
  exact hrun

/-! ## Writing -/

/-- The bytes of a disk with `n` bytes of `g` from byte `b` on. -/
def writeBytes (disk : Nat → UInt8) (b n : Nat) (g : Nat → UInt8) : Nat → UInt8 :=
  fun k => if b ≤ k ∧ k < b + n then g (k - b) else disk k

/-- More bytes behind the ones that are written. -/
theorem writeBytes_append (disk : Nat → UInt8) (b m n : Nat) (g : Nat → UInt8) :
    writeBytes (writeBytes disk b m g) (b + m) n (fun o => g (m + o)) =
        writeBytes disk b (m + n) g := by
  funext k
  simp only [writeBytes]
  split_ifs with h1 h2 h3 h4 h5
  · rw [show m + (k - (b + m)) = k - b by omega]
  · omega
  · rfl
  · omega
  · omega
  · rfl

theorem writeBytes_congr {disk : Nat → UInt8} {b n : Nat} {g g' : Nat → UInt8}
    (h : ∀ o < n, g o = g' o) : writeBytes disk b n g = writeBytes disk b n g' := by
  funext k
  rw [writeBytes, writeBytes]
  split
  · exact h _ (by omega)
  · rfl

theorem diskByte_congr {d' : AtaDrive} (h : d'.sectors = d.sectors) : diskByte d' = diskByte d := by
  funext k
  rw [diskByte, diskByte, h]

/-- The bytes of a drive with one more word. -/
theorem diskByte_setWord (hj : j < 256) (b : Nat) (v : UInt16) : diskByte (d.setWord b j v) =
    writeBytes (diskByte d) (512 * b + 2 * j) 2 fun o => leByte v.toNat o := by
  funext k
  rw [writeBytes, diskByte, AtaDrive.setWord]
  dsimp only
  rw [Function.update_apply]
  split
  · next hb =>
    rw [Function.update_apply]
    split
    · next hk =>
      rw [if_pos (by omega), show k - (512 * b + 2 * j) = k % 2 by omega]
    · next hk => rw [if_neg (by omega), diskByte, hb]
  · next hb => rw [if_neg (by omega), diskByte]

/-- `j` words of block `i` of the buffer at `ptr` are in the sector. -/
structure WordsWritten (mem : UInt32 → UInt8) (ptr : UInt32) (d : AtaDrive) (t : AtaTransfer)
    (steps i j : Nat) (x : AtaDrive) : Prop where
  bytes : diskByte x = writeBytes (diskByte d) (512 * t.lba) (2 * j)
    fun o => mem (ptr + UInt32.ofNat (512 * i + o))
  sector : x.InSector t j
  answers : x.Answers steps

theorem WordsWritten.step {x : AtaDrive} (h : WordsWritten mem ptr d t steps i j x) (hj : j < 256)
    (hwrite : t.writes = true) : ∃ x', x.outw 0x1F0 (loadWord mem (wordAddress ptr i j)) = .ok x' ∧
      WordsWritten mem ptr d t steps i (j + 1) x' := by
  let v := loadWord mem (wordAddress ptr i j)
  have hsector : (x.setWord t.lba j v).InSector t j := ⟨h.sector.words, h.sector.ended⟩
  have hans : (x.setWord t.lba j v).Answers steps :=
    ⟨h.answers.busy, h.answers.unready, h.answers.delays⟩
  refine ⟨_, h.sector.outw hj hwrite v, ?_, hsector.advance hj, hans.advance⟩
  rw [diskByte_congr AtaDrive.sectors_advance, diskByte_setWord hj, h.bytes,
    show 2 * (j + 1) = 2 * j + 2 from rfl, ← writeBytes_append]
  refine writeBytes_congr fun o ho => ?_
  obtain ⟨hlow, hhigh⟩ := @leByte_le16 (mem (wordAddress ptr i j)) (mem (wordAddress ptr i j + 1))
  show leByte (le16 (mem (wordAddress ptr i j)) (mem (wordAddress ptr i j + 1))).toNat o = _
  obtain rfl | rfl : o = 0 ∨ o = 1 := by omega
  · rw [hlow]
    rfl
  · rw [hhigh, wordAddress, add_ofNat_succ, Nat.add_assoc]

/-- `i` blocks out of `n` of the buffer at `ptr` are on the disk. -/
structure BlocksWritten (mem : UInt32 → UInt8) (ptr : UInt32) (d : AtaDrive) (b n steps i : Nat)
    (x : AtaDrive) : Prop where
  bytes : diskByte x = writeBytes (diskByte d) (512 * b) (512 * i) fun o =>
    mem (ptr + UInt32.ofNat o)
  transfer : x.transfer = blockTransfer true b n i
  answers : x.Answers steps

theorem BlocksWritten.step {b n : Nat} {x : AtaDrive} (h : BlocksWritten mem ptr d b n steps i x)
    (hi : i < n) :
    ∃ x', writeBlock steps ptr mem x i = .ok x' ∧ BlocksWritten mem ptr d b n steps (i + 1) x' := by
  have htransfer : x.transfer = some ⟨true, b + i, n - i, 0⟩ := h.transfer.trans (if_pos hi)
  obtain ⟨d', hwait, hsectors, hsector, hans⟩ := waits_spec h.answers htransfer rfl
  have hstart : WordsWritten mem ptr d' ⟨true, b + i, n - i, 0⟩ steps i 0 d' := by
    refine ⟨?_, hsector, hans⟩
    funext k
    rw [writeBytes, if_neg (by omega)]
  obtain ⟨x', hrun, hx'⟩ :=
    foldlM_range_ok (n := 256) (fun j hj x hx => WordsWritten.step hx hj rfl) hstart
  refine ⟨x', ?_, ?_, (hx'.sector.ended rfl).trans (next_block hi), hx'.answers⟩
  · rw [writeBlock, hwait]
    exact hrun
  · rw [hx'.bytes, diskByte_congr hsectors, h.bytes, Nat.mul_add 512 b i, writeBytes_append,
      show 512 * i + 2 * 256 = 512 * (i + 1) from rfl]

/-- `write_blocks` stores the bytes of the buffer to the sectors it names. -/
theorem writeBlocks_spec (ptr lba : UInt32) (mem : UInt32 → UInt8) (hans : d.Answers steps)
    (hidle : d.transfer = none) (hn : blockCount ≠ 0) :
    ∃ d', writeBlocks steps ptr lba blockCount mem d = .ok d' ∧
      diskByte d' = writeBytes (diskByte d) (512 * startBlock lba) (512 * blockCount.toNat)
        (fun o => mem (ptr + UInt32.ofNat o)) ∧
      d'.transfer = none ∧ d'.Answers steps := by
  have hpos : 0 < blockCount.toNat := Nat.pos_of_ne_zero fun h => hn (UInt8.toNat_inj.1 h)
  obtain ⟨d₁, hcommand, hsectors, htransfer, hans₁⟩ := ataCommand_spec lba hans hidle hn
    (show 0x30 = if true then 0x30 else 0x20 from rfl)
  have hstart : BlocksWritten mem ptr d (startBlock lba) blockCount.toNat steps 0 d₁ := by
    refine ⟨?_, htransfer.trans (if_pos hpos).symm, hans₁⟩
    rw [diskByte_congr hsectors]
    funext k
    rw [writeBytes, if_neg (by omega)]
  obtain ⟨d', hrun, hx⟩ := foldlM_range_ok (fun i hi x hx => BlocksWritten.step hx hi) hstart
  refine ⟨d', ?_, hx.bytes, hx.transfer.trans (if_neg (lt_irrefl _)), hx.answers⟩
  rw [writeBlocks, hcommand]
  exact hrun

end Transfer

end OsKernel
