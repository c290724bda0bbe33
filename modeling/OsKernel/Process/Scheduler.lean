import OsKernel.Process.Process

/-!
# The scheduler and the timer

The functions of `scheduler.c` and `timer.c`, and the system calls of `interrupt.c` that change the
process list. The index `current_process_list_id` goes into the process list without a check, so an
access outside of the list is a `Fault`. `process_context_switch` does not return: a function that
ends in it returns the context that is loaded.
-/

namespace OsKernel

/-! ## Interrupt frames -/

/-- `struct CPURegister`, the groups one after the other. -/
structure CPURegister where
  edi : UInt32
  esi : UInt32
  ebp : UInt32
  esp : UInt32
  ebx : UInt32
  edx : UInt32
  ecx : UInt32
  eax : UInt32
  gs : UInt32
  fs : UInt32
  es : UInt32
  ds : UInt32
  deriving DecidableEq, Repr

/-- `struct InterruptStack` -/
structure InterruptStack where
  errorCode : UInt32
  eip : UInt32
  cs : UInt32
  eflags : UInt32
  deriving DecidableEq, Repr

/-- `struct InterruptFrame` -/
structure InterruptFrame where
  cpu : CPURegister
  intNumber : UInt32
  intStack : InterruptStack
  deriving DecidableEq, Repr

/-! ## The scheduler -/

/-- The slot `process_list[i]`. -/
def processListIndex (i : Int) : Except Fault (Fin 16) :=
  if h : 0 ≤ i ∧ i < 16 then .ok ⟨i.toNat, by omega⟩ else .error (.processListIndex i)

/-- `scheduler_save_context_to_current_running_pcb` -/
def schedulerSaveContextToCurrentRunningPcb (ctx : Context) (k : Kernel) : Except Fault Kernel := do
  let i ← processListIndex k.currentProcessListId
  return { k with
    processList := Function.update k.processList i { k.processList i with context := ctx } }

/-- The loop of `scheduler_switch_to_next_process`, from the index `id` on. -/
def selectProcess : Nat → Int → Kernel → Except Fault (Fin 16 × Kernel)
  | 0, _, _ => .error .outOfSteps
  | steps + 1, id, k => do
    let i ← processListIndex id
    if k.state i = .ready then return (i, k)
    let k := if k.state i = .new then k.setState i .ready else k
    selectProcess steps (if id + 1 ≥ processCountMax then id + 1 - processCountMax else id + 1) k

/-- The slots that `scheduler_switch_to_next_process` looks at, at most: two rounds. A third one
would find the list as the second one did. -/
def selectSteps : Nat := 2 * processCountMax + 1

/-- The first statement of `scheduler_switch_to_next_process`. -/
def readyCurrent (k : Kernel) : Except Fault Kernel :=
  if k.currentProcessListId ≠ -1 then do
    let i ← processListIndex k.currentProcessListId
    return k.setState i .ready
  else .ok k

/-- The statements of `scheduler_switch_to_next_process` after its loop has stopped at slot `j`. -/
def runProcess (j : Fin 16) (k : Kernel) : Except Fault (Context × Kernel) := do
  let k := { k with currentProcessListId := j.val }.setState j .running
  let paging ← pagingUsePageDirectory (k.processList j).context.pageDirectory k.paging
  return ((k.processList j).context, { k with paging := paging })

/-- `scheduler_switch_to_next_process` -/
def schedulerSwitchToNextProcess (k : Kernel) : Except Fault (Context × Kernel) := do
  let k ← readyCurrent k
  let (j, k) ← selectProcess selectSteps (k.currentProcessListId + 1) k
  runProcess j k

/-! ## The timer -/

/-- `currContext` of `timer_isr`: the registers of the frame over the ones of the context. -/
def Context.save (ctx : Context) (frame : InterruptFrame) : Context :=
  { ctx with cpu := { ctx.cpu with
      eax := frame.cpu.eax, ebx := frame.cpu.ebx, ecx := frame.cpu.ecx, edx := frame.cpu.edx,
      esp := frame.cpu.esp, ebp := frame.cpu.ebp, edi := frame.cpu.edi, esi := frame.cpu.esi,
      gs := frame.cpu.gs, fs := frame.cpu.fs, es := frame.cpu.es, ds := frame.cpu.ds,
      eip := frame.intStack.eip } }

/-- The counters after one more interrupt. -/
def Kernel.tick (k : Kernel) : Kernel :=
  let tickCounter := k.tickCounter + 1
  if tickCounter ≥ 1000 then
    { k with tickCounter := tickCounter - 1000, secondCounter := k.secondCounter + 1 }
  else { k with tickCounter := tickCounter }

/-- The timer interrupt switches to another process. -/
def Kernel.switches (k : Kernel) : Bool :=
  decide (k.activeProcessCount > 1) && k.tick.tickCounter % 10 == 0

/-- `timer_isr`: the context that is loaded if it switches to a process, and the kernel after. -/
def timerIsr (frame : InterruptFrame) (k : Kernel) : Except Fault (Option Context × Kernel) :=
  if k.switches then
    match processGetCurrentRunningPcbPointer k.tick with
    | none => .error .nullPointer
    | some i => do
      let currContext := (k.tick.processList i).context.save frame
      let k ← schedulerSaveContextToCurrentRunningPcb currContext k.tick
      let (ctx, k) ← schedulerSwitchToNextProcess k
      return (some ctx, k)
  else .ok (none, k.tick)

/-! ## Events -/

/-- The system calls 14 and 13, which create and destroy processes. -/
inductive ProcessCall
  | create (request : DriverRequest)
  | destroy (pid : UInt32)

/-- What a system call does to the kernel. -/
def ProcessCall.run : ProcessCall → Kernel → Except Fault Kernel
  | create request, k => do
    let (_, k) ← processCreateUserProcess request k
    return k
  | destroy pid, k => do
    let (_, k) ← processDestroy pid k
    return k

/-- What changes the process list once the first process runs. -/
inductive KernelEvent
  | call (c : ProcessCall)
  /-- System call 20, which passes the slot number of the caller as a pid. -/
  | exit
  | timer (frame : InterruptFrame)

/-- `current_process_list_id` as the `pid` that system call 20 passes. -/
def Kernel.exitPid (k : Kernel) : UInt32 := UInt32.ofInt k.currentProcessListId

/-- What an event does to the kernel. -/
def KernelEvent.run : KernelEvent → Kernel → Except Fault Kernel
  | call c, k => c.run k
  | exit, k => (ProcessCall.destroy k.exitPid).run k
  | timer frame, k => do
    let (_, k) ← timerIsr frame k
    return k

end OsKernel
