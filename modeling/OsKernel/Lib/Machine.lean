import Mathlib.Algebra.Group.Nat.Defs
import Mathlib.Logic.Function.Basic

/-!
# A 32-bit machine with a stack

The part of an x86 processor in protected mode that entering and leaving interrupts uses: the
general registers, the segment registers, and a memory of words that the code accesses at addresses
a multiple of four bytes apart. Each instruction is a function on machines, so that a piece of
assembly is a composition of them. The registers, segments and memory that an instruction leaves
alone are simp lemmas, and so is what it puts into the others: `simp` runs straight-line code. Stack
addresses are kept as offsets from one base (`sub_four`), which decides when two of them differ; for
a long stack there is the list of its words (`Stack`).
-/

namespace OsKernel.Lib

/-- The general registers. -/
inductive Register
  | eax
  | ebx
  | ecx
  | edx
  | esi
  | edi
  | esp
  | ebp
  deriving DecidableEq, Repr

/-- The segment registers that code loads with `mov` and `pop`. -/
inductive SegmentRegister
  | ds
  | es
  | fs
  | gs
  deriving DecidableEq, Repr

/-- A machine: its registers, and the word of four bytes at each address. `zf` is the flag ZF as the
last `and` has left it; `eflags` are the flags that `pushf` and `popf` transfer. -/
structure Machine where
  reg : Register → UInt32
  seg : SegmentRegister → UInt16
  cs : UInt16
  ss : UInt16
  eip : UInt32
  eflags : UInt32
  zf : Bool
  mem : UInt32 → UInt32

/-- Subtracting four is adding its complement. -/
theorem sub_four (a : UInt32) : a - 4 = a + 0xFFFFFFFC := by
  rw [UInt32.sub_eq_add_neg]
  rfl

namespace Machine

/-- The privilege level of a selector. -/
def rpl (selector : UInt16) : UInt16 := selector &&& 3

/-- The machine with one register set. -/
def setReg (m : Machine) (r : Register) (v : UInt32) : Machine :=
  { m with reg := Function.update m.reg r v }

/-- The machine with one segment register set. -/
def setSeg (m : Machine) (s : SegmentRegister) (v : UInt16) : Machine :=
  { m with seg := Function.update m.seg s v }

/-! ## Instructions -/

/-- `lea r, [base + offset]` -/
def lea (m : Machine) (r base : Register) (offset : UInt32) : Machine :=
  m.setReg r (m.reg base + offset)

/-- `mov r, [base + offset]` -/
def load (m : Machine) (r base : Register) (offset : UInt32) : Machine :=
  m.setReg r (m.mem (m.reg base + offset))

/-- `mov [base + offset], r` -/
def store (m : Machine) (base : Register) (offset : UInt32) (r : Register) : Machine :=
  { m with mem := Function.update m.mem (m.reg base + offset) (m.reg r) }

/-- `mov s, [base + offset]`, which takes the lower half of the word -/
def loadSeg (m : Machine) (s : SegmentRegister) (base : Register) (offset : UInt32) : Machine :=
  m.setSeg s (m.mem (m.reg base + offset)).toUInt16

/-- `mov s, r16`, with the lower half of the register -/
def movSeg (m : Machine) (s : SegmentRegister) (r : Register) : Machine :=
  m.setSeg s (m.reg r).toUInt16

/-- `mov r16, v`, to the lower half of the register -/
def movLow (m : Machine) (r : Register) (v : UInt16) : Machine :=
  m.setReg r ((m.reg r &&& 0xFFFF0000) ||| v.toUInt32)

/-- `mov r, r'` -/
def mov (m : Machine) (r r' : Register) : Machine := m.setReg r (m.reg r')

/-- `and r, v` -/
def and (m : Machine) (r : Register) (v : UInt32) : Machine :=
  { m.setReg r (m.reg r &&& v) with zf := m.reg r &&& v == 0 }

/-- A word is pushed on the stack. -/
def push (m : Machine) (v : UInt32) : Machine :=
  { m.setReg .esp (m.reg .esp - 4) with mem := Function.update m.mem (m.reg .esp - 4) v }

/-- `push r` -/
def pushReg (m : Machine) (r : Register) : Machine := m.push (m.reg r)

/-- `push s`, which extends the selector with zeros -/
def pushSeg (m : Machine) (s : SegmentRegister) : Machine := m.push (m.seg s).toUInt32

/-- `pushf` -/
def pushf (m : Machine) : Machine := m.push m.eflags

/-- `pushad`, which pushes `esp` as it was before -/
def pushad (m : Machine) : Machine :=
  (((((((m.push (m.reg .eax)).push (m.reg .ecx)).push (m.reg .edx)).push (m.reg .ebx)).push
    (m.reg .esp)).push (m.reg .ebp)).push (m.reg .esi)).push (m.reg .edi)

/-- `pop r`, for another register than `esp` -/
def popReg (m : Machine) (r : Register) : Machine :=
  (m.setReg r (m.mem (m.reg .esp))).setReg .esp (m.reg .esp + 4)

/-- `pop s`, which takes the lower half of the word -/
def popSeg (m : Machine) (s : SegmentRegister) : Machine :=
  (m.setSeg s (m.mem (m.reg .esp)).toUInt16).setReg .esp (m.reg .esp + 4)

/-- `add r, v` -/
def add (m : Machine) (r : Register) (v : UInt32) : Machine := m.setReg r (m.reg r + v)

/-- `popad`, which skips the word of `esp` -/
def popad (m : Machine) : Machine :=
  let m := ((m.popReg .edi).popReg .esi).popReg .ebp
  ((((m.add .esp 4).popReg .ebx).popReg .edx).popReg .ecx).popReg .eax

/-- `popf` -/
def popf (m : Machine) : Machine :=
  { m.setReg .esp (m.reg .esp + 4) with eflags := m.mem (m.reg .esp) }

/-- `iret`: the stack holds `eip`, `cs` and `eflags`, and `esp` and `ss` after them when the code
that is returned to is less privileged. -/
def iret (m : Machine) : Machine :=
  let esp := m.reg .esp
  let cs := (m.mem (esp + 4)).toUInt16
  let returned := { m.setReg .esp (esp + 12) with
    eip := m.mem esp, cs := cs, eflags := m.mem (esp + 8) }
  if rpl m.cs < rpl cs then
    { returned.setReg .esp (m.mem (esp + 12)) with ss := (m.mem (esp + 16)).toUInt16 }
  else returned

/-- An interrupt of less privileged code: the processor switches to the given stack and code segment
and pushes what `iret` takes from the stack. -/
def interrupt (m : Machine) (esp0 : UInt32) (ss0 cs0 : UInt16) : Machine :=
  let m' := { m.setReg .esp esp0 with ss := ss0, cs := cs0 }
  ((((m'.push m.ss.toUInt32).push (m.reg .esp)).push m.eflags).push m.cs.toUInt32).push m.eip

/-- An interrupt: less privileged code leaves its stack, and other code stays on it. -/
def deliver (m : Machine) (esp0 : UInt32) (ss0 cs0 : UInt16) : Machine :=
  if rpl cs0 < rpl m.cs then m.interrupt esp0 ss0 cs0
  else ((({ m with cs := cs0 }.push m.eflags).push m.cs.toUInt32).push m.eip)

/-! ## What instructions change -/

attribute [simp] lea load loadSeg movSeg movLow mov add pushReg pushSeg pushf popSeg popad

section Simp
variable {m : Machine} {r r' : Register} {s s' : SegmentRegister} {v : UInt32} {w : UInt16}

@[simp] theorem setReg_reg : (m.setReg r v).reg r' = if r' = r then v else m.reg r' :=
  Function.update_apply ..
@[simp] theorem setReg_seg : (m.setReg r v).seg = m.seg := rfl
@[simp] theorem setReg_mem : (m.setReg r v).mem = m.mem := rfl
@[simp] theorem setReg_cs : (m.setReg r v).cs = m.cs := rfl
@[simp] theorem setReg_eflags : (m.setReg r v).eflags = m.eflags := rfl
@[simp] theorem setReg_zf : (m.setReg r v).zf = m.zf := rfl
@[simp] theorem setReg_eip : (m.setReg r v).eip = m.eip := rfl
@[simp] theorem setReg_ss : (m.setReg r v).ss = m.ss := rfl

@[simp] theorem setSeg_seg : (m.setSeg s w).seg s' = if s' = s then w else m.seg s' :=
  Function.update_apply ..
@[simp] theorem setSeg_reg : (m.setSeg s w).reg = m.reg := rfl
@[simp] theorem setSeg_mem : (m.setSeg s w).mem = m.mem := rfl
@[simp] theorem setSeg_cs : (m.setSeg s w).cs = m.cs := rfl
@[simp] theorem setSeg_eflags : (m.setSeg s w).eflags = m.eflags := rfl
@[simp] theorem setSeg_zf : (m.setSeg s w).zf = m.zf := rfl

@[simp] theorem push_reg :
    (m.push v).reg r = if r = .esp then m.reg .esp - 4 else m.reg r :=
  Function.update_apply ..
@[simp] theorem push_seg : (m.push v).seg = m.seg := rfl
@[simp] theorem push_cs : (m.push v).cs = m.cs := rfl
@[simp] theorem push_eflags : (m.push v).eflags = m.eflags := rfl
@[simp] theorem push_zf : (m.push v).zf = m.zf := rfl
@[simp] theorem push_mem :
    (m.push v).mem = Function.update m.mem (m.reg .esp - 4) v := rfl

@[simp] theorem popReg_reg : (m.popReg r).reg r' =
    if r' = .esp then m.reg .esp + 4 else if r' = r then m.mem (m.reg .esp) else m.reg r' := by
  unfold popReg
  rw [setReg_reg, setReg_reg]
@[simp] theorem popReg_seg : (m.popReg r).seg = m.seg := rfl
@[simp] theorem popReg_mem : (m.popReg r).mem = m.mem := rfl
@[simp] theorem popReg_cs : (m.popReg r).cs = m.cs := rfl
@[simp] theorem popReg_ss : (m.popReg r).ss = m.ss := rfl

/-- A return to less privileged code loads the stack pointer and the stack segment, too. -/
theorem iret_outer (h : rpl m.cs < rpl (m.mem (m.reg .esp + 4)).toUInt16) :
    m.iret = { m.setReg .esp (m.mem (m.reg .esp + 12)) with
      eip := m.mem (m.reg .esp)
      cs := (m.mem (m.reg .esp + 4)).toUInt16
      eflags := m.mem (m.reg .esp + 8)
      ss := (m.mem (m.reg .esp + 16)).toUInt16 } := by
  unfold iret
  rw [if_pos h]
  simp only [setReg, Function.update_idem]

/-- Another return leaves the stack where it is. -/
theorem iret_inner (h : ¬ rpl m.cs < rpl (m.mem (m.reg .esp + 4)).toUInt16) :
    m.iret = { m.setReg .esp (m.reg .esp + 12) with
      eip := m.mem (m.reg .esp)
      cs := (m.mem (m.reg .esp + 4)).toUInt16
      eflags := m.mem (m.reg .esp + 8) } := by
  unfold iret
  rw [if_neg h]

end Simp

/-! ## The stack -/

/-- The words on top of the stack, from the top on. -/
def Stack (m : Machine) (words : List UInt32) : Prop :=
  ∀ i v, words[i]? = some v → m.mem (m.reg .esp + 4 * UInt32.ofNat i) = v

/-- The first `n` words on the stack. -/
def stackWords (m : Machine) (n : Nat) : List UInt32 :=
  (List.range n).map fun i => m.mem (m.reg .esp + 4 * UInt32.ofNat i)

section Stack
variable {m : Machine} {words : List UInt32} {v : UInt32} {r : Register} {i j : Nat}

/-- Two words of a stack are at different addresses. -/
theorem stack_address_inj (a : UInt32) (hi : i < 2 ^ 30) (hj : j < 2 ^ 30)
    (h : a + 4 * UInt32.ofNat i = a + 4 * UInt32.ofNat j) : i = j := by
  have h : 4 * UInt32.ofNat i = 4 * UInt32.ofNat j := (UInt32.add_right_inj a).1 h
  have h := congrArg UInt32.toNat h
  simp only [UInt32.toNat_mul, UInt32.toNat_ofNat', UInt32.reduceToNat] at h
  omega

theorem stack_nil : Stack m [] := fun _ _ h => nomatch h

theorem Stack.word (h : Stack m words) (i : Nat) (hi : words[i]? = some v) :
    m.mem (m.reg .esp + 4 * UInt32.ofNat i) = v := h i v hi

theorem stackWords_length {n : Nat} : (m.stackWords n).length = n := by
  rw [stackWords, List.length_map, List.length_range]

theorem stackWords_get {n : Nat} (hi : i < n) :
    (m.stackWords n)[i]? = some (m.mem (m.reg .esp + 4 * UInt32.ofNat i)) := by
  rw [stackWords, List.getElem?_map, List.getElem?_range hi]
  rfl

theorem stack_stackWords {n : Nat} : Stack m (m.stackWords n) := by
  intro i v hi
  have hlt : i < (m.stackWords n).length := (List.getElem?_eq_some_iff.1 hi).1
  rw [stackWords_length] at hlt
  rw [stackWords_get hlt] at hi
  exact Option.some.inj hi

theorem Stack.top (h : Stack m (v :: words)) : m.mem (m.reg .esp) = v := by
  have hword := h.word 0 rfl
  rwa [show 4 * UInt32.ofNat 0 = 0 from rfl, UInt32.add_zero] at hword

theorem Stack.push (h : Stack m words) (hlen : words.length + 1 < 2 ^ 30) :
    Stack (m.push v) (v :: words) := by
  intro i w hi
  have hlt : i < words.length + 1 := (List.getElem?_eq_some_iff.1 hi).1
  have htop : m.reg .esp - 4 = m.reg .esp - 4 + 4 * UInt32.ofNat 0 := (UInt32.add_zero _).symm
  rw [push_reg, if_pos rfl, push_mem, Function.update_apply]
  cases i with
  | zero =>
    rw [if_pos htop.symm]
    exact Option.some.inj hi
  | succ i =>
    have hnext : m.reg .esp - 4 + 4 * UInt32.ofNat (i + 1) = m.reg .esp + 4 * UInt32.ofNat i := by
      rw [UInt32.ofNat_add]
      grind
    rw [if_neg, hnext]
    · exact h i w hi
    · intro heq
      cases stack_address_inj _ (by omega) (by omega) (heq.trans htop)

/-- Words that are pushed one after the other come to lie on the stack in the opposite order. -/
theorem Stack.pushes {vs : List UInt32} (h : Stack m words)
    (hlen : vs.length + words.length < 2 ^ 30) :
    Stack (vs.foldl Machine.push m) (vs.reverse ++ words) := by
  induction vs generalizing m words with
  | nil => exact h
  | cons v vs ih =>
    rw [List.length_cons] at hlen
    rw [List.reverse_cons, List.append_assoc]
    refine ih (h.push (by omega)) ?_
    rw [List.length_append, List.length_singleton]
    omega

theorem Stack.setReg (h : Stack m words) (hr : r ≠ .esp) : Stack (m.setReg r v) words := by
  intro i w hi
  rw [setReg_reg, if_neg hr.symm]
  exact h i w hi

theorem Stack.store (h : Stack m words) (hj : j < words.length) (hlen : words.length < 2 ^ 30) :
    Stack (m.store .esp (4 * UInt32.ofNat j) r) (words.set j (m.reg r)) := by
  intro i w hi
  have hlt : i < words.length := by
    have := (List.getElem?_eq_some_iff.1 hi).1
    rwa [List.length_set] at this
  show Function.update m.mem _ _ _ = w
  rw [Function.update_apply]
  rw [List.getElem?_set] at hi
  split
  · next heq =>
    have hij := stack_address_inj _ (by omega) (by omega) heq
    rw [if_pos hij.symm, if_pos hj] at hi
    exact Option.some.inj hi
  · next hne =>
    rw [if_neg] at hi
    · exact h i w hi
    · rintro rfl
      exact hne rfl

theorem Stack.drop (h : Stack m (v :: words)) :
    Stack (m.setReg .esp (m.reg .esp + 4)) words := by
  intro i w hi
  have hnext : m.reg .esp + 4 + 4 * UInt32.ofNat i = m.reg .esp + 4 * UInt32.ofNat (i + 1) := by
    rw [UInt32.ofNat_add]
    grind
  rw [setReg_reg, if_pos rfl, hnext]
  exact h (i + 1) w hi

theorem Stack.popReg (h : Stack m (v :: words)) (hr : r ≠ .esp) : Stack (m.popReg r) words := by
  have hdrop := (h.setReg (r := r) (v := m.mem (m.reg .esp)) hr).drop
  rw [setReg_reg, if_neg hr.symm] at hdrop
  exact hdrop

end Stack

end Machine

end OsKernel.Lib
