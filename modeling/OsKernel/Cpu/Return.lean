import OsKernel.Cpu.ContextSwitch

/-!
# Returning from an interrupt

The second half of `intsetup.s`, which pops what the first half has pushed and ends in `iret`, and
the stubs of the vectors for which the processor pushes an error code. When `main_interrupt_handler`
has returned with its stack as it was, the code that was interrupted goes on with all its registers
(`interrupt_resumes`): user code, and kernel code, which also keeps what it has on its stack, so
that an interrupt of a handler lets that handler return.
-/

namespace OsKernel

open Lib

/-! ## The stubs -/

/-- The vectors of `error_code_interrupt_handler`. -/
def errorCodeVectors : List UInt32 := [8, 10, 11, 12, 13, 14, 17, 30]

/-- What the processor does at interrupt `n`: for the vectors with an error code it pushes one. -/
def raise (n error esp0 : UInt32) (ss0 cs0 : UInt16) (m : Machine) : Machine :=
  let m := m.deliver esp0 ss0 cs0
  if n ∈ errorCodeVectors then m.push error else m

/-- `interrupt_handler_n`, up to its jump. -/
def isrStub (n : UInt32) (m : Machine) : Machine :=
  if n ∈ errorCodeVectors then m.push n else interruptHandler n m

/-- `call_generic_handler` up to the call of `main_interrupt_handler`. -/
def callMainHandler (m : Machine) : Machine :=
  let m := callGenericHandler m
  segmentRegisterSetup (if m.zf then m else interprivilegeInterrupt m)

/-- `call_generic_handler` from the call of `main_interrupt_handler` up to its `iret`. -/
def restoreRegisters (m : Machine) : Machine :=
  let m := m.popad
  let m := m.popSeg .gs
  let m := m.popSeg .fs
  let m := m.popSeg .es
  let m := m.popSeg .ds
  m.add .esp 8

/-- The whole interrupt `n` of a machine, with `handler` in place of `main_interrupt_handler`. -/
def serveInterrupt (handler : Machine → Machine) (n error esp0 : UInt32) (ss0 cs0 : UInt16)
    (m : Machine) : Machine :=
  (restoreRegisters (handler (callMainHandler (isrStub n (raise n error esp0 ss0 cs0 m))))).iret

/-! ## Specification -/

/-- A call has returned: it has left `w` words of the stack as they were. -/
structure Returns (w : Nat) (m m' : Machine) : Prop where
  esp : m'.reg .esp = m.reg .esp
  cs : m'.cs = m.cs
  ss : m'.ss = m.ss
  stack : ∀ i < w, m'.mem (m.reg .esp + 4 * UInt32.ofNat i) =
    m.mem (m.reg .esp + 4 * UInt32.ofNat i)

/-- The registers of two machines are the same. -/
structure SameRegisters (m m' : Machine) : Prop where
  reg : m'.reg = m.reg
  seg : m'.seg = m.seg
  cs : m'.cs = m.cs
  ss : m'.ss = m.ss
  eip : m'.eip = m.eip
  eflags : m'.eflags = m.eflags

/-- The frame holds the number of the interrupt, its error code and the registers of the machine but
for `esp`. -/
structure InterruptFrame.Describes (frame : InterruptFrame) (n error : UInt32) (m : Machine) :
    Prop where
  intNumber : frame.intNumber = n
  errorCode : frame.intStack.errorCode = error
  eax : frame.cpu.eax = m.reg .eax
  ebx : frame.cpu.ebx = m.reg .ebx
  ecx : frame.cpu.ecx = m.reg .ecx
  edx : frame.cpu.edx = m.reg .edx
  esi : frame.cpu.esi = m.reg .esi
  edi : frame.cpu.edi = m.reg .edi
  ebp : frame.cpu.ebp = m.reg .ebp
  eip : frame.intStack.eip = m.eip
  eflags : frame.intStack.eflags = m.eflags
  cs : frame.intStack.cs = m.cs.toUInt32
  ds : frame.cpu.ds = (m.seg .ds).toUInt32
  es : frame.cpu.es = (m.seg .es).toUInt32
  fs : frame.cpu.fs = (m.seg .fs).toUInt32
  gs : frame.cpu.gs = (m.seg .gs).toUInt32

/-- The words that `popad`, the four `pop` and `add esp, 8` take from the stack; `esp` is not
restored from it. -/
def savedWords (n error esp : UInt32) (m : Machine) : List UInt32 :=
  [m.reg .edi, m.reg .esi, m.reg .ebp, esp, m.reg .ebx, m.reg .edx, m.reg .ecx, m.reg .eax,
    (m.seg .gs).toUInt32, (m.seg .fs).toUInt32, (m.seg .es).toUInt32,
    (m.seg .ds).toUInt32, n, error]

section Entry
variable {m m' : Machine} {n error esp0 v : UInt32} {ss0 cs0 : UInt16} {words : List UInt32}

/-- What the code before the test pushes. -/
theorem callGenericHandler_stack (h : m.Stack (n :: error :: words))
    (hlen : words.length + 16 < 2 ^ 30) :
    (callGenericHandler m).Stack
      (m.reg .eax :: m.eflags :: savedWords n error (m.reg .esp - 4 - 4 - 4 - 4) m ++ words) := by
  have hpushed := @Machine.Stack.pushes m _ [(m.seg .ds).toUInt32, (m.seg .es).toUInt32,
    (m.seg .fs).toUInt32, (m.seg .gs).toUInt32, m.reg .eax, m.reg .ecx, m.reg .edx, m.reg .ebx,
    m.reg .esp - 4 - 4 - 4 - 4, m.reg .ebp, m.reg .esi, m.reg .edi, m.eflags, m.reg .eax] h
    (by simp only [List.length_cons, List.length_nil]; omega)
  exact (and_stack hpushed rfl).1

/-- The code for less privileged code writes to the word of `esp` only. -/
theorem interprivilegeInterrupt_stack_set (h : m.Stack words) (hpos : 5 < words.length)
    (hlen : words.length < 2 ^ 30) :
    (interprivilegeInterrupt m).Stack (words.set 5 (m.mem (m.reg .esp + 76))) := by
  have hload : (m.load .eax .esp 76).Stack words := h.setReg (by decide)
  exact hload.store (r := .eax) (j := 5) hpos hlen

/-- The stack of `main_interrupt_handler`. -/
theorem callMainHandler_stack (h : m.Stack (n :: error :: words))
    (hlen : words.length + 16 < 2 ^ 30) :
    ∃ esp, (callMainHandler m).Stack (savedWords n error esp m ++ words) := by
  have hgeneric : (callGenericHandler m).Stack _ := callGenericHandler_stack h hlen
  unfold callMainHandler
  dsimp only
  split
  · exact ⟨_, segmentRegisterSetup_stack hgeneric⟩
  · refine ⟨_, segmentRegisterSetup_stack (interprivilegeInterrupt_stack_set hgeneric ?_ ?_)⟩
    · simp [savedWords]
    · simp only [savedWords, List.length_cons, List.length_append, List.length_nil]
      omega

end Entry

section Return
variable {m m' : Machine} {n error esp v : UInt32} {words : List UInt32}

/-- The code after the call takes the saved words from the stack. -/
theorem restoreRegisters_esp : (restoreRegisters m').reg .esp = m'.reg .esp + 56 := by
  simp [restoreRegisters, UInt32.add_assoc]

theorem restoreRegisters_stack (h : m'.Stack (savedWords n error esp m ++ words)) :
    (restoreRegisters m').Stack words := by
  intro i w hi
  have hword := h (i + 14) w (by simpa [savedWords] using hi)
  have haddress : m'.reg .esp + 4 * UInt32.ofNat (i + 14) =
      m'.reg .esp + 56 + 4 * UInt32.ofNat i := by
    rw [UInt32.ofNat_add]
    grind
  rw [restoreRegisters_esp, ← haddress]
  exact hword

/-- The registers are the ones that were saved. -/
theorem restoreRegisters_reg (h : m'.Stack (savedWords n error esp m ++ words)) (r : Register)
    (hr : r ≠ .esp) : (restoreRegisters m').reg r = m.reg r := by
  cases r with
  | esp => exact absurd rfl hr
  | edi => exact Eq.trans (by simp [restoreRegisters, UInt32.add_assoc]) (h.word 0 rfl)
  | esi => exact Eq.trans (by simp [restoreRegisters, UInt32.add_assoc]) (h.word 1 rfl)
  | ebp => exact Eq.trans (by simp [restoreRegisters, UInt32.add_assoc]) (h.word 2 rfl)
  | ebx => exact Eq.trans (by simp [restoreRegisters, UInt32.add_assoc]) (h.word 4 rfl)
  | edx => exact Eq.trans (by simp [restoreRegisters, UInt32.add_assoc]) (h.word 5 rfl)
  | ecx => exact Eq.trans (by simp [restoreRegisters, UInt32.add_assoc]) (h.word 6 rfl)
  | eax => exact Eq.trans (by simp [restoreRegisters, UInt32.add_assoc]) (h.word 7 rfl)

theorem restoreRegisters_seg (h : m'.Stack (savedWords n error esp m ++ words)) :
    (restoreRegisters m').seg = m.seg := by
  funext s
  cases s with
  | gs =>
    exact Eq.trans (by simp [restoreRegisters, UInt32.add_assoc]) (toUInt16_of_eq (h.word 8 rfl))
  | fs =>
    exact Eq.trans (by simp [restoreRegisters, UInt32.add_assoc]) (toUInt16_of_eq (h.word 9 rfl))
  | es =>
    exact Eq.trans (by simp [restoreRegisters, UInt32.add_assoc]) (toUInt16_of_eq (h.word 10 rfl))
  | ds =>
    exact Eq.trans (by simp [restoreRegisters, UInt32.add_assoc]) (toUInt16_of_eq (h.word 11 rfl))

/-- A call that returns leaves the stack. -/
theorem Returns.stack_of {w : Nat} (h : Returns w m m') (hstack : m.Stack words)
    (hlen : words.length ≤ w) : m'.Stack words := by
  intro i v hi
  have hlt : i < words.length := (List.getElem?_eq_some_iff.1 hi).1
  rw [h.esp, h.stack i (by omega)]
  exact hstack i v hi

end Return

/-! ## Interrupts -/

section Interrupt
variable {m : Machine} {n error esp0 : UInt32} {ss0 cs0 : UInt16} {words : List UInt32} {w : Nat}
  {handler : Machine → Machine}

/-- Every stub leaves an error code and the number of the interrupt on the stack. -/
theorem isrStub_raise : isrStub n (raise n error esp0 ss0 cs0 m) =
    ((m.deliver esp0 ss0 cs0).push (if n ∈ errorCodeVectors then error else 0)).push n := by
  unfold isrStub raise interruptHandler
  dsimp only
  split
  · rfl
  · rfl

/-- Twelve words of registers are on the stack when the handler is called. -/
theorem callMainHandler_esp : (callMainHandler m).reg .esp = m.reg .esp - 48 := by
  have hpushed : (callGenericHandler m).reg .esp =
      m.reg .esp - 4 - 4 - 4 - 4 - 4 - 4 - 4 - 4 - 4 - 4 - 4 - 4 - 4 - 4 := rfl
  have hsetup (m : Machine) : (segmentRegisterSetup m).reg .esp = m.reg .esp + 4 + 4 := rfl
  have hesp (m : Machine) : (interprivilegeInterrupt m).reg .esp = m.reg .esp := rfl
  unfold callMainHandler
  dsimp only
  rw [hsetup]
  split
  · rw [hpushed]
    grind
  · rw [hesp, hpushed]
    grind

theorem callMainHandler_cs : (callMainHandler m).cs = m.cs := by
  unfold callMainHandler
  dsimp only
  split
  · rfl
  · rfl

theorem callMainHandler_ss : (callMainHandler m).ss = m.ss := by
  unfold callMainHandler
  dsimp only
  split
  · rfl
  · rfl

/-- The machine that has served an interrupt, up to the `iret`. -/
theorem restored (h : m.Stack (n :: error :: words)) (hlen : words.length + 16 < 2 ^ 30)
    (hw : words.length + 14 ≤ w)
    (hreturns : Returns w (callMainHandler m) (handler (callMainHandler m))) {m' : Machine}
    (hm' : m' = restoreRegisters (handler (callMainHandler m))) :
    m'.Stack words ∧ (∀ r, r ≠ .esp → m'.reg r = m.reg r) ∧ m'.seg = m.seg ∧ m'.cs = m.cs ∧
      m'.ss = m.ss ∧ m'.reg .esp = m.reg .esp + 8 := by
  obtain ⟨esp, hstack⟩ := callMainHandler_stack h hlen
  have hback := hreturns.stack_of hstack (by
    simp only [savedWords, List.length_append, List.length_cons, List.length_nil]; omega)
  subst hm'
  refine ⟨restoreRegisters_stack hback, restoreRegisters_reg hback, restoreRegisters_seg hback,
    hreturns.cs.trans callMainHandler_cs, hreturns.ss.trans callMainHandler_ss, ?_⟩
  rw [restoreRegisters_esp, hreturns.esp, callMainHandler_esp]
  grind

section Stub

theorem isrStub_seg : (isrStub n (raise n error esp0 ss0 cs0 m)).seg = m.seg := by
  rw [isrStub_raise, Machine.deliver]
  split
  · rfl
  · rfl

theorem isrStub_cs : (isrStub n (raise n error esp0 ss0 cs0 m)).cs = cs0 := by
  rw [isrStub_raise, Machine.deliver]
  split
  · rfl
  · rfl

theorem isrStub_reg (r : Register) (hr : r ≠ .esp) :
    (isrStub n (raise n error esp0 ss0 cs0 m)).reg r = m.reg r := by
  rw [isrStub_raise, Machine.deliver]
  split
  · simp [Machine.interrupt, hr]
  · simp [hr]

/-- What the processor pushes lies below the number of the interrupt and the error code. -/
theorem isrStub_stack (h : (m.deliver esp0 ss0 cs0).Stack words)
    (hlen : words.length + 18 < 2 ^ 30) :
    (isrStub n (raise n error esp0 ss0 cs0 m)).Stack
      (n :: (if n ∈ errorCodeVectors then error else 0) :: words) := by
  rw [isrStub_raise]
  refine (h.push (by omega)).push ?_
  rw [List.length_cons]
  omega

theorem isrStub_esp : (isrStub n (raise n error esp0 ss0 cs0 m)).reg .esp =
    (m.deliver esp0 ss0 cs0).reg .esp - 8 := by
  rw [isrStub_raise]
  simp only [Machine.push_reg, if_true]
  grind

end Stub

/-- Less privileged code is returned to on its own stack. -/
theorem serveInterrupt_outer (hcs : Machine.rpl cs0 < Machine.rpl m.cs) (hw : 19 ≤ w)
    (hreturns : Returns w (callMainHandler (isrStub n (raise n error esp0 ss0 cs0 m)))
      (handler (callMainHandler (isrStub n (raise n error esp0 ss0 cs0 m))))) :
    SameRegisters m (serveInterrupt handler n error esp0 ss0 cs0 m) := by
  have hdeliver : (m.deliver esp0 ss0 cs0).Stack
      [m.eip, m.cs.toUInt32, m.eflags, m.reg .esp, m.ss.toUInt32] := by
    rw [Machine.deliver, if_pos hcs]
    exact @Machine.Stack.pushes { m.setReg .esp esp0 with ss := ss0, cs := cs0 } []
      [m.ss.toUInt32, m.reg .esp, m.eflags, m.cs.toUInt32, m.eip] Machine.stack_nil (by simp)
  have hstub := @isrStub_stack m n error esp0 ss0 cs0 _ hdeliver (by simp)
  obtain ⟨hstack, hreg, hseg, hcs', -, -⟩ := restored hstub (by simp) hw hreturns rfl
  unfold serveInterrupt
  generalize restoreRegisters _ = m' at hstack hreg hseg hcs'
  have hcode : (m'.mem (m'.reg .esp + 4)).toUInt16 = m.cs := toUInt16_of_eq (hstack.word 1 rfl)
  rw [Machine.iret_outer (by rw [hcs', isrStub_cs, hcode]; exact hcs)]
  constructor
  case reg =>
    funext r
    rw [Machine.setReg_reg]
    split
    · next hr =>
      rw [hr]
      exact hstack.word 3 rfl
    · next hr => rw [hreg r hr, isrStub_reg r hr]
  case seg => exact hseg.trans isrStub_seg
  case cs => exact hcode
  case ss => exact toUInt16_of_eq (hstack.word 4 rfl)
  case eip => exact hstack.top
  case eflags => exact hstack.word 2 rfl

/-- Code that is not less privileged is returned to on the same stack. -/
theorem serveInterrupt_inner (hcs : ¬ Machine.rpl cs0 < Machine.rpl m.cs) (hw : w < 2 ^ 29)
    (hreturns : Returns (w + 19) (callMainHandler (isrStub n (raise n error esp0 ss0 cs0 m)))
      (handler (callMainHandler (isrStub n (raise n error esp0 ss0 cs0 m))))) :
    SameRegisters m (serveInterrupt handler n error esp0 ss0 cs0 m) ∧
      Returns w m (serveInterrupt handler n error esp0 ss0 cs0 m) := by
  have hlen := @Machine.stackWords_length m w
  have hdeliver : (m.deliver esp0 ss0 cs0).Stack
      (m.eip :: m.cs.toUInt32 :: m.eflags :: m.stackWords w) := by
    have hwords : { m with cs := cs0 }.Stack (m.stackWords w) := Machine.stack_stackWords
    rw [Machine.deliver, if_neg hcs]
    exact @Machine.Stack.pushes _ (m.stackWords w) [m.eflags, m.cs.toUInt32, m.eip] hwords
      (by simp only [List.length_cons, List.length_nil]; omega)
  have hdown : (m.deliver esp0 ss0 cs0).reg .esp = m.reg .esp - 12 := by
    rw [Machine.deliver, if_neg hcs]
    simp only [Machine.push_reg, if_true]
    grind
  have hss : (m.deliver esp0 ss0 cs0).ss = m.ss := by
    rw [Machine.deliver, if_neg hcs]
    rfl
  have hstub := @isrStub_stack m n error esp0 ss0 cs0 _ hdeliver
    (by simp only [List.length_cons]; omega)
  obtain ⟨hstack, hreg, hseg, hcs', hss', hesp⟩ := restored hstub
    (by simp only [List.length_cons]; omega) (by simp only [List.length_cons]; omega) hreturns rfl
  unfold serveInterrupt
  generalize restoreRegisters _ = m' at hstack hreg hseg hcs' hss' hesp
  have hcode : (m'.mem (m'.reg .esp + 4)).toUInt16 = m.cs := toUInt16_of_eq (hstack.word 1 rfl)
  have hback : m'.reg .esp + 12 = m.reg .esp := by
    rw [hesp, isrStub_esp, hdown]
    grind
  rw [Machine.iret_inner (by rw [hcs', isrStub_cs, hcode]; exact hcs)]
  have hsame : m'.ss = m.ss := by
    rw [hss', isrStub_raise]
    exact hss
  refine ⟨?_, ?_⟩
  · constructor
    case reg =>
      funext r
      rw [Machine.setReg_reg]
      split
      · next hr => rw [hr, hback]
      · next hr => rw [hreg r hr, isrStub_reg r hr]
    case seg => exact hseg.trans isrStub_seg
    case cs => exact hcode
    case ss => exact hsame
    case eip => exact hstack.top
    case eflags => exact hstack.word 2 rfl
  · refine ⟨?_, hcode, hsame, fun i hi => ?_⟩
    · rw [Machine.setReg_reg, if_pos rfl, hback]
    · have hword := hstack (i + 3) (m.mem (m.reg .esp + 4 * UInt32.ofNat i))
        (Machine.stackWords_get hi)
      have haddress : m.reg .esp + 4 * UInt32.ofNat i = m'.reg .esp + 4 * UInt32.ofNat (i + 3) := by
        rw [← hback, UInt32.ofNat_add]
        grind
      rw [Machine.setReg_mem, haddress, hword, ← haddress]

/-- The processor pushes `eip`, `cs` and `eflags` last. -/
theorem deliver_stack : (m.deliver esp0 ss0 cs0).Stack [m.eip, m.cs.toUInt32, m.eflags] := by
  have hthree (m' : Machine) : (((m'.push m.eflags).push m.cs.toUInt32).push m.eip).Stack
      [m.eip, m.cs.toUInt32, m.eflags] :=
    @Machine.Stack.pushes m' [] [m.eflags, m.cs.toUInt32, m.eip] Machine.stack_nil (by simp)
  unfold Machine.deliver Machine.interrupt
  split
  · exact hthree _
  · exact hthree _

/-- The handler gets the registers but for `esp` in its argument. -/
theorem callMainHandler_describes :
    (callMainHandler (isrStub n (raise n error esp0 ss0 cs0 m))).interruptFrame.Describes n
      (if n ∈ errorCodeVectors then error else 0) m := by
  obtain ⟨esp, h⟩ := callMainHandler_stack
    (@isrStub_stack m n error esp0 ss0 cs0 _ deliver_stack (by simp)) (by simp)
  have hseg (s : SegmentRegister) : (isrStub n (raise n error esp0 ss0 cs0 m)).seg s = m.seg s := by
    rw [isrStub_seg]
  constructor
  case intNumber => exact h.word 12 rfl
  case errorCode => exact h.word 13 rfl
  case edi => exact (h.word 0 rfl).trans (isrStub_reg .edi (by decide))
  case esi => exact (h.word 1 rfl).trans (isrStub_reg .esi (by decide))
  case ebp => exact (h.word 2 rfl).trans (isrStub_reg .ebp (by decide))
  case ebx => exact (h.word 4 rfl).trans (isrStub_reg .ebx (by decide))
  case edx => exact (h.word 5 rfl).trans (isrStub_reg .edx (by decide))
  case ecx => exact (h.word 6 rfl).trans (isrStub_reg .ecx (by decide))
  case eax => exact (h.word 7 rfl).trans (isrStub_reg .eax (by decide))
  case gs => exact (h.word 8 rfl).trans (congrArg UInt16.toUInt32 (hseg .gs))
  case fs => exact (h.word 9 rfl).trans (congrArg UInt16.toUInt32 (hseg .fs))
  case es => exact (h.word 10 rfl).trans (congrArg UInt16.toUInt32 (hseg .es))
  case ds => exact (h.word 11 rfl).trans (congrArg UInt16.toUInt32 (hseg .ds))
  case eip => exact h.word 14 rfl
  case cs => exact h.word 15 rfl
  case eflags => exact h.word 16 rfl

/-- For every interrupt of any code the handler gets the number of the interrupt, its error code and
the registers but for `esp`. When it has returned without a change to the part of the stack that the
processor and `call_generic_handler` have filled, the code goes on with every register as it was;
code on the stack of the kernel also has the words on its stack that the handler has left. -/
theorem interrupt_resumes (hw : w < 2 ^ 29)
    (hreturns : Returns (w + 19) (callMainHandler (isrStub n (raise n error esp0 ss0 cs0 m)))
      (handler (callMainHandler (isrStub n (raise n error esp0 ss0 cs0 m))))) :
    (callMainHandler (isrStub n (raise n error esp0 ss0 cs0 m))).interruptFrame.Describes n
        (if n ∈ errorCodeVectors then error else 0) m ∧
      SameRegisters m (serveInterrupt handler n error esp0 ss0 cs0 m) ∧
      (¬ Machine.rpl cs0 < Machine.rpl m.cs →
        Returns w m (serveInterrupt handler n error esp0 ss0 cs0 m)) := by
  refine ⟨callMainHandler_describes, ?_, fun hcs => (serveInterrupt_inner hcs hw hreturns).2⟩
  by_cases hcs : Machine.rpl cs0 < Machine.rpl m.cs
  · exact serveInterrupt_outer hcs (Nat.le_add_left 19 w) hreturns
  · exact (serveInterrupt_inner hcs hw hreturns).1

end Interrupt

/-- User code that makes a system call. -/
def userMachine : Machine where
  reg := fun r => if r = .esp then 0xBFFFFFF0 else 7
  seg := fun _ => 0x23
  cs := 0x1B
  ss := 0x23
  eip := 0x400000
  eflags := 0x202
  zf := false
  mem := fun _ => 0

/-- A handler that uses the registers. -/
def clobber (m : Machine) : Machine :=
  { m with
    reg := fun r => if r = .esp then m.reg .esp else 0
    seg := fun _ => 0x10
    eflags := 2 }

/-- System calls of user code. -/
theorem interrupt_resumes_user :
    SameRegisters userMachine (serveInterrupt clobber 0x30 0 0xC0400000 0x10 0x08 userMachine) :=
  (interrupt_resumes (w := 0) (by decide) ⟨rfl, rfl, rfl, fun _ _ => rfl⟩).2.1

end OsKernel
