import OsKernel.Lib.Machine
import OsKernel.Process.Switch

/-!
# Saving and loading registers

The assembly that enters an interrupt (`intsetup.s`) and that resumes a process
(`context_switch.s`). `call_generic_handler` pushes the registers in the order of
`struct InterruptFrame`; `process_context_switch` loads them from a `struct Context`, which has
another order, and leaves the rest to `iret`.
-/

namespace OsKernel

open Lib

/-! ## Entering an interrupt -/

/-- `interrupt_handler_n` of `no_error_code_interrupt_handler`, up to its jump. -/
def interruptHandler (n : UInt32) (m : Machine) : Machine := (m.push 0).push n

/-- `call_generic_handler` up to the label `interprivilege_interrupt`. -/
def callGenericHandler (m : Machine) : Machine :=
  let m := m.pushSeg .ds
  let m := m.pushSeg .es
  let m := m.pushSeg .fs
  let m := m.pushSeg .gs
  let m := m.pushad
  let m := m.pushf
  let m := m.pushReg .eax
  let m := m.load .eax .esp 52
  m.and .eax 0x3

/-- The code from `interprivilege_interrupt` to `segment_register_setup`. -/
def interprivilegeInterrupt (m : Machine) : Machine :=
  let m := m.load .eax .esp 76
  m.store .esp 20 .eax

/-- The code from `segment_register_setup` to the call of `main_interrupt_handler`. -/
def segmentRegisterSetup (m : Machine) : Machine :=
  let m := m.movLow .eax 0x10
  let m := m.movSeg .ds .eax
  let m := m.movSeg .es .eax
  let m := m.movSeg .fs .eax
  let m := m.movSeg .gs .eax
  let m := m.popReg .eax
  let m := m.popf
  m.mov .ebp .esp

/-- The machine at the call of `main_interrupt_handler` for the interrupt `n`; `jz` skips the code
for interrupts of less privileged code. -/
def enterHandler (n : UInt32) (m : Machine) : Machine :=
  let m := callGenericHandler (interruptHandler n m)
  segmentRegisterSetup (if m.zf then m else interprivilegeInterrupt m)

/-- The `struct InterruptFrame` on top of the stack. -/
def Lib.Machine.interruptFrame (m : Machine) : InterruptFrame :=
  let word (i : UInt32) := m.mem (m.reg .esp + i)
  { cpu := ⟨word 0, word 4, word 8, word 12, word 16, word 20, word 24, word 28, word 32, word 36,
      word 40, word 44⟩
    intNumber := word 48
    intStack := ⟨word 52, word 56, word 60, word 64⟩ }

/-! ## Resuming a process -/

/-- The words of a `struct Context` in the order of its fields; `dir` is the last one, the address
of the page directory. -/
def Context.words (ctx : Context) (dir : UInt32) : List UInt32 :=
  [ctx.cpu.eax, ctx.cpu.ebx, ctx.cpu.ecx, ctx.cpu.edx, ctx.cpu.esi, ctx.cpu.edi, ctx.cpu.esp,
    ctx.cpu.ebp, ctx.cpu.eip, ctx.cpu.eflags, ctx.cpu.cs, ctx.cpu.ds, ctx.cpu.es, ctx.cpu.fs,
    ctx.cpu.gs, ctx.cpu.ss, dir]

/-- The call `process_context_switch(ctx)`: the argument is on the stack, below the return address
`ret`. -/
def callWithContext (ctx : Context) (dir ret : UInt32) (m : Machine) : Machine :=
  ((ctx.words dir).foldr (fun v m => m.push v) m).push ret

/-- `process_context_switch` up to its `iret`. -/
def loadContext (m : Machine) : Machine :=
  let m := m.lea .ecx .esp 0x04
  let m := m.load .ebx .ecx 0x04
  let m := m.load .edx .ecx 0x0C
  let m := m.load .esi .ecx 0x10
  let m := m.load .edi .ecx 0x14
  let m := m.load .ebp .ecx 0x1C
  let m := m.loadSeg .ds .ecx 0x2C
  let m := m.loadSeg .es .ecx 0x30
  let m := m.loadSeg .fs .ecx 0x34
  let m := m.loadSeg .gs .ecx 0x38
  let m := m.load .eax .ecx 0x3C
  let m := m.pushReg .eax
  let m := m.load .eax .ecx 0x18
  let m := m.pushReg .eax
  let m := m.load .eax .ecx 0x24
  let m := m.pushReg .eax
  let m := m.load .eax .ecx 0x28
  let m := m.pushReg .eax
  let m := m.load .eax .ecx 0x20
  let m := m.pushReg .eax
  let m := m.load .eax .ecx 0x00
  m.load .ecx .ecx 0x08

/-- `process_context_switch` -/
def processContextSwitch (m : Machine) : Machine := (loadContext m).iret

/-! ## Specification -/

/-- The registers of the machine are those of the context. -/
structure Loads (m : Machine) (ctx : AllCPURegister) : Prop where
  eax : m.reg .eax = ctx.eax
  ebx : m.reg .ebx = ctx.ebx
  ecx : m.reg .ecx = ctx.ecx
  edx : m.reg .edx = ctx.edx
  esi : m.reg .esi = ctx.esi
  edi : m.reg .edi = ctx.edi
  esp : m.reg .esp = ctx.esp
  ebp : m.reg .ebp = ctx.ebp
  eip : m.eip = ctx.eip
  eflags : m.eflags = ctx.eflags
  cs : m.cs = ctx.cs.toUInt16
  ds : m.seg .ds = ctx.ds.toUInt16
  es : m.seg .es = ctx.es.toUInt16
  fs : m.seg .fs = ctx.fs.toUInt16
  gs : m.seg .gs = ctx.gs.toUInt16
  ss : m.ss = ctx.ss.toUInt16

/-- The frame holds the registers of the machine. A segment register is the lower half of its
word. -/
structure InterruptFrame.Holds (frame : InterruptFrame) (m : Machine) : Prop where
  eax : frame.cpu.eax = m.reg .eax
  ebx : frame.cpu.ebx = m.reg .ebx
  ecx : frame.cpu.ecx = m.reg .ecx
  edx : frame.cpu.edx = m.reg .edx
  esi : frame.cpu.esi = m.reg .esi
  edi : frame.cpu.edi = m.reg .edi
  ebp : frame.cpu.ebp = m.reg .ebp
  esp : frame.cpu.esp = m.reg .esp
  eip : frame.intStack.eip = m.eip
  eflags : frame.intStack.eflags = m.eflags
  ds : frame.cpu.ds.toUInt16 = m.seg .ds
  es : frame.cpu.es.toUInt16 = m.seg .es
  fs : frame.cpu.fs.toUInt16 = m.seg .fs
  gs : frame.cpu.gs.toUInt16 = m.seg .gs

section Load
variable {m : Machine} {ctx : Context} {dir ret : UInt32}

theorem words_length : (ctx.words dir).length = 17 := rfl

/-- The argument of the call lies on the stack below its return address. -/
theorem callWithContext_stack : (callWithContext ctx dir ret m).Stack (ret :: ctx.words dir) := by
  have hlen : (ctx.words dir).reverse.length + 0 < 2 ^ 30 := by
    rw [List.length_reverse, words_length]
    decide
  have hwords := Machine.stack_nil.pushes (m := m) hlen
  rw [List.reverse_reverse, List.append_nil, List.foldl_reverse] at hwords
  refine hwords.push ?_
  rw [words_length]
  decide

/-- The stack from which `process_context_switch` returns, and the code segment it returns from. -/
theorem loadContext_stack (h : m.Stack (ret :: ctx.words dir)) {m' : Machine}
    (hm' : m' = loadContext m) :
    m'.mem (m'.reg .esp) = ctx.cpu.eip ∧ m'.mem (m'.reg .esp + 4) = ctx.cpu.cs ∧
      m'.mem (m'.reg .esp + 8) = ctx.cpu.eflags ∧ m'.mem (m'.reg .esp + 12) = ctx.cpu.esp ∧
      m'.mem (m'.reg .esp + 16) = ctx.cpu.ss ∧ m'.cs = m.cs := by
  subst hm'
  have heip := h.word 9 rfl
  have hcs := h.word 11 rfl
  have heflags := h.word 10 rfl
  have hesp := h.word 7 rfl
  have hss := h.word 16 rfl
  refine ⟨Eq.trans ?_ heip, Eq.trans ?_ hcs, Eq.trans ?_ heflags, Eq.trans ?_ hesp,
    Eq.trans ?_ hss, ?_⟩ <;>
  simp [loadContext, sub_four, UInt32.add_assoc]

/-- `process_context_switch` loads the whole context of less privileged code. -/
theorem processContextSwitch_loads (hcs : Machine.rpl m.cs < Machine.rpl ctx.cpu.cs.toUInt16) :
    Loads (processContextSwitch (callWithContext ctx dir ret m)) ctx.cpu := by
  have h : (callWithContext ctx dir ret m).Stack (ret :: ctx.words dir) := callWithContext_stack
  have hm : (callWithContext ctx dir ret m).cs = m.cs := rfl
  obtain ⟨heip, hcs', heflags, hesp, hss, hm'⟩ := loadContext_stack h rfl
  rw [processContextSwitch, Machine.iret_outer (by rw [hm', hm, hcs']; exact hcs), heip, hcs',
    heflags, hesp, hss]
  generalize callWithContext ctx dir ret m = m at h
  constructor
  case eax => exact Eq.trans (by simp [loadContext, sub_four, UInt32.add_assoc]) (h.word 1 rfl)
  case ebx => exact Eq.trans (by simp [loadContext, sub_four, UInt32.add_assoc]) (h.word 2 rfl)
  case ecx => exact Eq.trans (by simp [loadContext, sub_four, UInt32.add_assoc]) (h.word 3 rfl)
  case edx => exact Eq.trans (by simp [loadContext, sub_four, UInt32.add_assoc]) (h.word 4 rfl)
  case esi => exact Eq.trans (by simp [loadContext, sub_four, UInt32.add_assoc]) (h.word 5 rfl)
  case edi => exact Eq.trans (by simp [loadContext, sub_four, UInt32.add_assoc]) (h.word 6 rfl)
  case ebp => exact Eq.trans (by simp [loadContext, sub_four, UInt32.add_assoc]) (h.word 8 rfl)
  case ds =>
    have hword := h.word 12 rfl
    exact Eq.trans (by simp [loadContext, UInt32.add_assoc]) (congrArg UInt32.toUInt16 hword)
  case es =>
    have hword := h.word 13 rfl
    exact Eq.trans (by simp [loadContext, UInt32.add_assoc]) (congrArg UInt32.toUInt16 hword)
  case fs =>
    have hword := h.word 14 rfl
    exact Eq.trans (by simp [loadContext, UInt32.add_assoc]) (congrArg UInt32.toUInt16 hword)
  case gs =>
    have hword := h.word 15 rfl
    exact Eq.trans (by simp [loadContext, UInt32.add_assoc]) (congrArg UInt32.toUInt16 hword)
  case esp => simp
  all_goals rfl

/-- Registers that were loaded from a context with a frame saved over it are those of the frame, but
for the flags, which are those of the context. -/
theorem Loads.holds_iff {frame : InterruptFrame} (h : Loads m (ctx.save frame).cpu) :
    frame.Holds m ↔ frame.intStack.eflags = ctx.cpu.eflags := by
  constructor
  · intro hm
    rw [hm.eflags, h.eflags]
    rfl
  · intro heq
    exact {
      eax := h.eax.symm, ebx := h.ebx.symm, ecx := h.ecx.symm, edx := h.edx.symm
      esi := h.esi.symm, edi := h.edi.symm, ebp := h.ebp.symm, esp := h.esp.symm
      eip := h.eip.symm, eflags := heq.trans h.eflags.symm
      ds := h.ds.symm, es := h.es.symm, fs := h.fs.symm, gs := h.gs.symm }

end Load

section Enter
variable {m : Machine} {n esp0 : UInt32} {ss0 cs0 : UInt16} {v w : UInt32} {words : List UInt32}

/-- What the processor and the handler push one after the other when the machine is interrupted. -/
def pushedWords (n esp0 : UInt32) (m : Machine) : List UInt32 :=
  [m.ss.toUInt32, m.reg .esp, m.eflags, m.cs.toUInt32, m.eip, 0, n, (m.seg .ds).toUInt32,
    (m.seg .es).toUInt32, (m.seg .fs).toUInt32, (m.seg .gs).toUInt32, m.reg .eax, m.reg .ecx,
    m.reg .edx, m.reg .ebx, esp0 - 4 - 4 - 4 - 4 - 4 - 4 - 4 - 4 - 4 - 4 - 4, m.reg .ebp,
    m.reg .esi, m.reg .edi, m.eflags, m.reg .eax]

/-- The machine when all of that is on the stack. -/
def pushed (n esp0 : UInt32) (ss0 cs0 : UInt16) (m : Machine) : Machine :=
  (pushedWords n esp0 m).foldl Machine.push { m.setReg .esp esp0 with ss := ss0, cs := cs0 }

theorem callGenericHandler_eq :
    callGenericHandler (interruptHandler n (m.interrupt esp0 ss0 cs0)) =
      ((pushed n esp0 ss0 cs0 m).load .eax .esp 52).and .eax 0x3 := rfl

theorem pushedWords_length : (pushedWords n esp0 m).length = 21 := rfl

theorem pushed_stack : (pushed n esp0 ss0 cs0 m).Stack (pushedWords n esp0 m).reverse := by
  have hlen : (pushedWords n esp0 m).length + 0 < 2 ^ 30 := by
    rw [pushedWords_length]
    decide
  have h := Machine.stack_nil.pushes (m := { m.setReg .esp esp0 with ss := ss0, cs := cs0 }) hlen
  rwa [List.append_nil] at h

/-- The code for interrupts of less privileged code replaces the pushed `esp`. -/
theorem interprivilegeInterrupt_stack (h : m.Stack words) (hlen : words.length < 2 ^ 30)
    (hesp : words[19]? = some v) : (interprivilegeInterrupt m).Stack (words.set 5 v) := by
  have hlt : 19 < words.length := (List.getElem?_eq_some_iff.1 hesp).1
  have hload : (m.load .eax .esp 76).reg .eax = v := h.word 19 hesp
  have hstore := (h.setReg (r := .eax) (v := m.mem (m.reg .esp + 76)) (by decide)).store (r := .eax)
    (j := 5) (by omega) hlen
  rw [← hload]
  exact hstore

/-- The two words on top of the stack go to `eax` and the flags. -/
theorem segmentRegisterSetup_stack (h : m.Stack (v :: w :: words)) :
    (segmentRegisterSetup m).Stack words := by
  have hax : (m.movLow .eax 0x10).Stack (v :: w :: words) := h.setReg (by decide)
  have hpop : (((((m.movLow .eax 0x10).movSeg .ds .eax).movSeg .es .eax).movSeg .fs .eax).movSeg
      .gs .eax |>.popReg .eax).Stack (w :: words) := Machine.Stack.popReg hax (by decide)
  exact Machine.Stack.setReg (m := Machine.popf _) hpop.drop (by decide)

/-- The test whether the code that was interrupted is privileged looks at the pushed `ds`. -/
theorem and_stack (h : m.Stack words) (hds : words[13]? = some v) :
    ((m.load .eax .esp 52).and .eax 0x3).Stack words ∧
      ((m.load .eax .esp 52).and .eax 0x3).zf = (v &&& 3 == 0) := by
  have hload : m.mem (m.reg .esp + 52) = v := h.word 13 hds
  have hstack : (m.load .eax .esp 52).Stack words := h.setReg (by decide)
  refine ⟨fun i w hi => ?_, by rw [← hload]; rfl⟩
  exact hstack.setReg (r := .eax) (v := (m.load .eax .esp 52).reg .eax &&& 3) (by decide) i w hi

/-- The stack of the handler of an interrupt of code with an unprivileged data segment. -/
theorem enterHandler_stack (hds : (m.seg .ds).toUInt32 &&& 3 ≠ 0) :
    (enterHandler n (m.interrupt esp0 ss0 cs0)).Stack
      (((pushedWords n esp0 m).reverse.set 5 (m.reg .esp)).drop 2) := by
  have hpushed : (pushed n esp0 ss0 cs0 m).Stack (pushedWords n esp0 m).reverse := pushed_stack
  obtain ⟨hstack, hzf⟩ := and_stack (v := (m.seg .ds).toUInt32) hpushed rfl
  have hlen : (pushedWords n esp0 m).reverse.length < 2 ^ 30 := by
    rw [List.length_reverse, pushedWords_length]
    decide
  rw [← callGenericHandler_eq] at hstack hzf
  unfold enterHandler
  dsimp only
  rw [hzf, beq_false_of_ne hds]
  exact segmentRegisterSetup_stack (interprivilegeInterrupt_stack hstack hlen rfl)

theorem toUInt16_of_eq {selector : UInt16} (h : v = selector.toUInt32) : v.toUInt16 = selector := by
  rw [h, UInt16.toUInt16_toUInt32]

/-- The frame of code with an unprivileged data segment holds its registers when it was interrupted,
`esp` among them. -/
theorem enterHandler_holds (hds : (m.seg .ds).toUInt32 &&& 3 ≠ 0) :
    (enterHandler n (m.interrupt esp0 ss0 cs0)).interruptFrame.Holds m := by
  have h : (enterHandler n (m.interrupt esp0 ss0 cs0)).Stack _ := enterHandler_stack hds
  constructor
  case edi => exact h.word 0 rfl
  case esi => exact h.word 1 rfl
  case ebp => exact h.word 2 rfl
  case esp => exact h.word 3 rfl
  case ebx => exact h.word 4 rfl
  case edx => exact h.word 5 rfl
  case ecx => exact h.word 6 rfl
  case eax => exact h.word 7 rfl
  case gs => exact toUInt16_of_eq (h.word 8 rfl)
  case fs => exact toUInt16_of_eq (h.word 9 rfl)
  case es => exact toUInt16_of_eq (h.word 10 rfl)
  case ds => exact toUInt16_of_eq (h.word 11 rfl)
  case eip => exact h.word 14 rfl
  case eflags => exact h.word 16 rfl

end Enter

end OsKernel
