import OsKernel.Fat32.Driver
import OsKernel.Memory.Paging

/-!
# Processes

The process control blocks of `process.h` and the functions of `process.c`. A `Kernel` is the state
that these functions, the scheduler and the timer share. `process_create_user_process` reads the
executable through the file system driver into the pages that it has just mapped; the contents of
memory are not part of the state.
-/

namespace OsKernel

open Lib

/-! ## Process control blocks -/

/-- `PROCESS_COUNT_MAX` -/
abbrev processCountMax : Nat := 16

/-- `KERNEL_VIRTUAL_ADDRESS_BASE` -/
def kernelVirtualAddressBase : UInt32 := 0xC0000000

/-- `AllCPURegister` -/
structure AllCPURegister where
  eax : UInt32
  ebx : UInt32
  ecx : UInt32
  edx : UInt32
  esi : UInt32
  edi : UInt32
  esp : UInt32
  ebp : UInt32
  eip : UInt32
  eflags : UInt32
  cs : UInt32
  ds : UInt32
  es : UInt32
  fs : UInt32
  gs : UInt32
  ss : UInt32
  deriving DecidableEq, Repr

/-- `Context`; `pageDirectory` is `page_directory_virtual_addr`. -/
structure Context where
  cpu : AllCPURegister
  pageDirectory : PageDirectoryPtr
  deriving DecidableEq, Repr

/-- `PROCESS_STATE` -/
inductive ProcessState
  | terminated
  | running
  | waiting
  | new
  | ready
  deriving DecidableEq, Repr

/-- `ProcessMetadata` -/
structure ProcessMetadata where
  pid : UInt32
  processName : Vector UInt8 32
  priority : Int32
  state : ProcessState
  deriving DecidableEq

/-- `ProcessMemory` -/
structure ProcessMemory where
  virtualAddrUsed : Vector UInt32 8
  pageFrameUsedCount : UInt32
  deriving DecidableEq, Repr

/-- `ProcessControlBlock` -/
structure ProcessControlBlock where
  metadata : ProcessMetadata
  context : Context
  memory : ProcessMemory
  deriving DecidableEq

namespace ProcessControlBlock

/-- All bytes zero, as `memset` leaves it. -/
def zero : ProcessControlBlock where
  metadata := ⟨0, Vector.replicate 32 0, 0, .terminated⟩
  context := ⟨⟨0, 0, 0, 0, 0, 0, 0, 0, 0, 0, 0, 0, 0, 0, 0, 0⟩, .null⟩
  memory := ⟨Vector.replicate 8 0, 0⟩

/-- The block with `metadata.state` set. -/
def setState (pcb : ProcessControlBlock) (state : ProcessState) : ProcessControlBlock :=
  { pcb with metadata := { pcb.metadata with state := state } }

/-- The block stands for a process: its state is not `TERMINATED`. -/
def live (pcb : ProcessControlBlock) : Bool := pcb.metadata.state != .terminated

end ProcessControlBlock

/-- `process_list` -/
abbrev ProcessList := Fin 16 → ProcessControlBlock

/-- The data of the paging, file system, process, scheduler and timer modules. -/
structure Kernel where
  paging : PagingState
  fs : FileSystem
  activeProcessCount : Int
  processList : ProcessList
  /-- `next_pid`, as the pid that it becomes. -/
  nextPid : UInt32
  currentProcessListId : Int
  tickCounter : UInt32
  secondCounter : UInt32

/-- The data before the first call, with a mounted file system. -/
def Kernel.initial (fs : FileSystem) : Kernel where
  paging := .initial
  fs := fs
  activeProcessCount := 0
  processList := fun _ => .zero
  nextPid := 1
  currentProcessListId := -1
  tickCounter := 0
  secondCounter := 0

namespace Kernel

/-- The state of a slot. -/
def state (k : Kernel) (i : Fin 16) : ProcessState := (k.processList i).metadata.state

/-- The kernel with the state of a slot set. -/
def setState (k : Kernel) (i : Fin 16) (state : ProcessState) : Kernel :=
  { k with processList := Function.update k.processList i ((k.processList i).setState state) }

end Kernel

/-! ## Searches -/

/-- `process_list_get_inactive_index` -/
def processListGetInactiveIndex (k : Kernel) : Option (Fin 16) :=
  findFrom 0 fun i => k.state i == .terminated

/-- `process_get_current_running_pcb_pointer`, as the slot it points to. -/
def processGetCurrentRunningPcbPointer (k : Kernel) : Option (Fin 16) :=
  findFrom 0 fun i => k.state i == .running

/-- The slot that `process_destroy` finds for a pid. -/
def findProcess (pid : UInt32) (k : Kernel) : Option (Fin 16) :=
  findFrom 0 fun i => (k.processList i).metadata.pid == pid && (k.processList i).live

/-! ## Destroying -/

/-- The value `virtual_addr_used[j]`. -/
def ProcessMemory.virtualAddr (m : ProcessMemory) (j : Nat) : Except Fault UInt32 :=
  if h : j < 8 then .ok m.virtualAddrUsed[j] else .error (.arrayIndex j)

/-- The loop of `process_destroy` over `page_frame_used_count`, with `n` iterations left and the
next of them number `j`. -/
def freeUserPages (pageDir : PageDirectoryPtr) (memory : ProcessMemory) :
    Nat → Nat → PagingState → Except Fault (Bool × PagingState)
  | 0, _, s => .ok (true, s)
  | n + 1, j, s => do
    let addr ← memory.virtualAddr j
    let (freed, s) ← pagingFreeUserPageFrame pageDir addr s
    if freed then freeUserPages pageDir memory n (j + 1) s else return (false, s)

/-- The body of `process_destroy` for the slot it has found. -/
def destroySlot (i : Fin 16) (k : Kernel) : Except Fault (Bool × Kernel) := do
  let k := k.setState i .terminated
  let pcb := k.processList i
  let (freed, paging) ← freeUserPages pcb.context.pageDirectory pcb.memory
    pcb.memory.pageFrameUsedCount.toNat 0 k.paging
  let k := { k with paging := paging }
  if !freed then return (false, k)
  let (freed, paging) := pagingFreePageDirectory pcb.context.pageDirectory k.paging
  let k := { k with paging := paging }
  if !freed then return (false, k)
  return (true, { k with
    processList := Function.update k.processList i .zero
    activeProcessCount := k.activeProcessCount - 1 })

/-- `process_destroy` -/
def processDestroy (pid : UInt32) (k : Kernel) : Except Fault (Bool × Kernel) :=
  match findProcess pid k with
  | none => .ok (false, k)
  | some i => destroySlot i k

/-! ## Creating -/

/-- The return codes `PROCESS_CREATE_*`, from 0 on. -/
inductive ProcessCreateCode
  | success
  | failMaxProcessExceeded
  | failInvalidEntrypoint
  | failNotEnoughMemory
  | failFsReadFailure
  deriving DecidableEq, Repr

/-- `ceil_div` -/
def ceilDiv (numerator divisor : UInt32) : UInt32 :=
  if divisor = 0 then 0 else (numerator + divisor - 1) / divisor

/-- `page_frame_count_needed` -/
def pageFrameCountNeeded (request : DriverRequest) : UInt32 :=
  ceilDiv (request.bufferSize + 0x400000) 0x400000

/-- The page of the user stack. -/
def userStackAddr : UInt32 := 0xBFF00000

/-- The loop of `process_create_user_process` over the pages of the executable, with `n` iterations
left and the next of them number `i`. -/
def allocateCodePages (pageDir : PageDirectoryPtr) (buf : UInt32) :
    Nat → Nat → PagingState → Except Fault PagingState
  | 0, _, s => .ok s
  | n + 1, i, s => do
    let (_, s) ← pagingAllocateUserPageFrame pageDir (buf + UInt32.ofNat i * 0x400000) s
    allocateCodePages pageDir buf n (i + 1) s

/-- The page directory of a new process, with its user pages. -/
def allocateProcessPages (request : DriverRequest) (s : PagingState) :
    Except Fault (PageDirectoryPtr × PagingState) := do
  let (pageDir, s) := pagingCreateNewPageDirectory s
  let s ← allocateCodePages pageDir request.buf (pageFrameCountNeeded request - 1).toNat 0 s
  let (_, s) ← pagingAllocateUserPageFrame pageDir userStackAddr s
  return (pageDir, s)

/-- The process control block of a new process before the executable is read. -/
def ProcessControlBlock.fill (pcb : ProcessControlBlock) (pid : UInt32) (request : DriverRequest)
    (pageDir : PageDirectoryPtr) : ProcessControlBlock where
  metadata := { pcb.metadata with
    pid := pid
    processName := Vector.ofFn fun j => if h : j.val < 8 then request.name[j.val]
      else pcb.metadata.processName[j]
    state := .new }
  context := { cpu := { pcb.context.cpu with eflags := 0x202 }, pageDirectory := pageDir }
  memory := { pcb.memory with pageFrameUsedCount := pageFrameCountNeeded request }

/-- The registers that a new process gets after the executable was read. -/
def ProcessControlBlock.start (pcb : ProcessControlBlock) : ProcessControlBlock :=
  { pcb with context := { pcb.context with cpu := { pcb.context.cpu with
      esp := 0xBFFFFFFC, ebp := 0xBFFFFFFC, cs := 0x1B, ds := 0x23, es := 0x23, ss := 0x23,
      fs := 0x23, gs := 0x23 } } }

/-- The checks of `process_create_user_process`: the return code of the first that fails. -/
def checkCreate (request : DriverRequest) (k : Kernel) : Option ProcessCreateCode :=
  if k.activeProcessCount ≥ processCountMax then some .failMaxProcessExceeded
  else if request.buf ≥ kernelVirtualAddressBase then some .failInvalidEntrypoint
  else if !pagingAllocateCheck (pageFrameCountNeeded request) k.paging ||
      decide (pageFrameCountNeeded request > 8) then some .failNotEnoughMemory
  else none

/-- `process_create_user_process` from the search for a slot on; `pageDir` is the page directory
with the new user pages. -/
def createInSlot (request : DriverRequest) (pageDir : PageDirectoryPtr) (k : Kernel) :
    Except Fault (ProcessCreateCode × Kernel) :=
  match processListGetInactiveIndex k with
  | none => .error (.processListIndex (-1))
  | some p => do
    let pid := k.nextPid
    let k := { k with
      nextPid := k.nextPid + 1
      processList := Function.update k.processList p ((k.processList p).fill pid request pageDir) }
    let currentPageDirectory := k.paging.cr3
    let paging ← pagingUsePageDirectory pageDir k.paging
    let result ← read request k.fs
    let k := { k with paging := paging, fs := result.fs }
    if result.code ≠ 0 then
      let (_, k) ← processDestroy pid k
      let paging ← pagingUsePageDirectory currentPageDirectory k.paging
      return (.failFsReadFailure, { k with paging := paging })
    let paging ← pagingUsePageDirectory currentPageDirectory k.paging
    return (.success, { k with
      paging := paging
      processList := Function.update k.processList p (k.processList p).start
      activeProcessCount := k.activeProcessCount + 1 })

/-- `process_create_user_process` -/
def processCreateUserProcess (request : DriverRequest) (k : Kernel) :
    Except Fault (ProcessCreateCode × Kernel) :=
  match checkCreate request k with
  | some code => .ok (code, k)
  | none => do
    let (pageDir, paging) ← allocateProcessPages request k.paging
    createInSlot request pageDir { k with paging := paging }

end OsKernel
