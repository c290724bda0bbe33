import Mathlib.Logic.Function.Basic

/-!
# An ATA drive in PIO mode

The registers of a drive with 28-bit block addresses, as the programmed transfer of sectors uses
them. A command names a first sector and a number of sectors; the words of each of them then go
through the data register. The drive is busy after the command and after every sector, and not ready
for a while after that. For how many reads of the status that is so is up to the drive (`delays`).
An access that the protocol does not allow is refused.
-/

namespace OsKernel.Lib

/-- Why a transfer does not complete. -/
inductive AtaError
  | refused
  | stuck
  deriving DecidableEq, Repr

/-- The part of a transfer that is left: the sector that is next, the number of sectors, and the
next word of the sector. -/
structure AtaTransfer where
  writes : Bool
  lba : Nat
  left : Nat
  word : Nat

/-- What is left after a sector. -/
def AtaTransfer.next (t : AtaTransfer) : Option AtaTransfer :=
  if t.left = 1 then none else some ⟨t.writes, t.lba + 1, t.left - 1, 0⟩

/-- A drive. -/
structure AtaDrive where
  sectors : Nat → Nat → UInt16
  driveHead : UInt8
  sectorCount : UInt8
  lbaLow : UInt8
  lbaMid : UInt8
  lbaHigh : UInt8
  transfer : Option AtaTransfer
  busy : Nat
  unready : Nat
  delays : Nat → Nat × Nat

namespace AtaDrive

/-- The drive goes busy. -/
def pause (d : AtaDrive) : AtaDrive :=
  { d with
    busy := (d.delays 0).1
    unready := (d.delays 0).2
    delays := fun n => d.delays (n + 1) }

/-- The sector that the registers name. -/
def selected (d : AtaDrive) : Nat :=
  (d.driveHead.toNat % 16) * 0x1000000 + d.lbaHigh.toNat * 0x10000 + d.lbaMid.toNat * 0x100 +
    d.lbaLow.toNat

/-- The number of sectors that the registers name. -/
def count (d : AtaDrive) : Nat := if d.sectorCount = 0 then 256 else d.sectorCount.toNat

/-- The transfer of the sectors that the registers name. -/
def start (d : AtaDrive) (writes : Bool) : AtaDrive :=
  { d with transfer := some ⟨writes, d.selected, d.count, 0⟩ }.pause

/-- The drive after one more word of the transfer. -/
def advance (d : AtaDrive) (t : AtaTransfer) : AtaDrive :=
  if t.word + 1 < 256 then { d with transfer := some { t with word := t.word + 1 } }
  else { d with transfer := t.next }.pause

/-- Reading a byte: the status register, of which bit 7 says that the drive is busy, bit 6 that it
is ready and bit 3 that a word is due. In a transfer the last two rise together: a program that
waits for bit 6 in place of bit 3 never finds the word missing. -/
def inb (d : AtaDrive) (port : UInt16) : Except AtaError (UInt8 × AtaDrive) :=
  if port = 0x1F7 then
    if d.busy ≠ 0 then .ok (0x80, { d with busy := d.busy - 1 })
    else if d.unready ≠ 0 then .ok (0, { d with unready := d.unready - 1 })
    else .ok (if d.transfer.isSome then 0x48 else 0x40, d)
  else .error .refused

/-- Writing a byte: the address registers and the command register, while no transfer is under
way. -/
def outb (d : AtaDrive) (port : UInt16) (v : UInt8) : Except AtaError AtaDrive :=
  if d.busy ≠ 0 ∨ d.transfer.isSome then .error .refused
  else if port = 0x1F2 then .ok { d with sectorCount := v }
  else if port = 0x1F3 then .ok { d with lbaLow := v }
  else if port = 0x1F4 then .ok { d with lbaMid := v }
  else if port = 0x1F5 then .ok { d with lbaHigh := v }
  else if port = 0x1F6 then .ok { d with driveHead := v }
  else if port = 0x1F7 ∧ v = 0x20 then .ok (d.start false)
  else if port = 0x1F7 ∧ v = 0x30 then .ok (d.start true)
  else .error .refused

/-- Reading a word from the data register. -/
def inw (d : AtaDrive) (port : UInt16) : Except AtaError (UInt16 × AtaDrive) :=
  match d.transfer with
  | some t =>
    if port = 0x1F0 ∧ t.writes = false ∧ d.busy = 0 ∧ d.unready = 0 then
      .ok (d.sectors t.lba t.word, d.advance t)
    else .error .refused
  | none => .error .refused

/-- The drive with a word of a sector changed. -/
def setWord (d : AtaDrive) (lba j : Nat) (v : UInt16) : AtaDrive :=
  { d with sectors := Function.update d.sectors lba (Function.update (d.sectors lba) j v) }

/-- Writing a word to the data register. -/
def outw (d : AtaDrive) (port : UInt16) (v : UInt16) : Except AtaError AtaDrive :=
  match d.transfer with
  | some t =>
    if port = 0x1F0 ∧ t.writes = true ∧ d.busy = 0 ∧ d.unready = 0 then
      .ok ((d.setWord t.lba t.word v).advance t)
    else .error .refused
  | none => .error .refused

section Status
variable {d : AtaDrive}

/-- The status of a busy drive. -/
theorem inb_busy (h : d.busy ≠ 0) : d.inb 0x1F7 = .ok (0x80, { d with busy := d.busy - 1 }) := by
  rw [inb, if_pos rfl, if_pos h]

/-- The status of a drive that is not busy any more: the bit for it is clear, and the one for a
drive that is ready is set exactly if the drive is. -/
theorem inb_free (h : d.busy = 0) : ∃ status,
    d.inb 0x1F7 = .ok (status, { d with unready := d.unready - 1 }) ∧ status &&& 0x80 = 0 ∧
      (status &&& 0x40 = 0 ↔ d.unready ≠ 0) := by
  rw [inb, if_pos rfl, if_neg (not_not.2 h)]
  by_cases hready : d.unready = 0
  · rw [if_neg (not_not.2 hready)]
    have hsame : d.unready - 1 = d.unready := by omega
    rw [hsame]
    refine ⟨_, rfl, ?_, ?_⟩
    · split <;> rfl
    · refine iff_of_false ?_ (not_not.2 hready)
      split <;> decide
  · rw [if_pos hready]
    exact ⟨0, rfl, rfl, iff_of_true rfl hready⟩

end Status

/-! ## Drives that answer -/

/-- No delay takes `n` reads of the status. -/
structure Answers (d : AtaDrive) (n : Nat) : Prop where
  busy : d.busy < n
  unready : d.unready < n
  delays : ∀ k, (d.delays k).1 < n ∧ (d.delays k).2 < n

section Answers
variable {d : AtaDrive} {n : Nat} {t : AtaTransfer}

theorem Answers.pause (h : d.Answers n) : d.pause.Answers n :=
  ⟨(h.delays 0).1, (h.delays 0).2, fun k => h.delays (k + 1)⟩

theorem Answers.advance (h : d.Answers n) : (d.advance t).Answers n := by
  rw [AtaDrive.advance]
  split
  · exact ⟨h.busy, h.unready, h.delays⟩
  · exact pause ⟨h.busy, h.unready, h.delays⟩

theorem Answers.start {writes : Bool} (h : d.Answers n) : (d.start writes).Answers n :=
  pause ⟨h.busy, h.unready, h.delays⟩

end Answers

/-! ## Sectors -/

/-- The drive is about to transfer word `j` of the sector, or has transferred all of it. -/
structure InSector (d : AtaDrive) (t : AtaTransfer) (j : Nat) : Prop where
  words : j < 256 → d.transfer = some { t with word := j } ∧ d.busy = 0 ∧ d.unready = 0
  ended : j = 256 → d.transfer = t.next

section Sector
variable {d : AtaDrive} {t : AtaTransfer} {j : Nat}

@[simp] theorem sectors_pause : d.pause.sectors = d.sectors := rfl

@[simp] theorem sectors_advance : (d.advance t).sectors = d.sectors := by
  rw [advance]
  split <;> rfl

/-- One more word. -/
theorem InSector.advance (h : d.InSector t j) (hj : j < 256) :
    (d.advance { t with word := j }).InSector t (j + 1) := by
  obtain ⟨-, hbusy, hunready⟩ := h.words hj
  rw [AtaDrive.advance]
  split
  · next hlt =>
    have hlt : j + 1 < 256 := hlt
    exact ⟨fun _ => ⟨rfl, hbusy, hunready⟩, fun heq => absurd heq (Nat.ne_of_lt hlt)⟩
  · next hge => exact ⟨fun hlt => absurd hlt hge, fun _ => rfl⟩

/-- A word is read. -/
theorem InSector.inw (h : d.InSector t j) (hj : j < 256) (hread : t.writes = false) :
    d.inw 0x1F0 = .ok (d.sectors t.lba j, d.advance { t with word := j }) := by
  obtain ⟨htransfer, hbusy, hunready⟩ := h.words hj
  rw [AtaDrive.inw, htransfer]
  exact if_pos ⟨rfl, hread, hbusy, hunready⟩

/-- A word is written. -/
theorem InSector.outw (h : d.InSector t j) (hj : j < 256) (hwrite : t.writes = true) (v : UInt16) :
    d.outw 0x1F0 v = .ok ((d.setWord t.lba j v).advance { t with word := j }) := by
  obtain ⟨htransfer, hbusy, hunready⟩ := h.words hj
  rw [AtaDrive.outw, htransfer]
  exact if_pos ⟨rfl, hwrite, hbusy, hunready⟩

end Sector

end AtaDrive

end OsKernel.Lib
