import OsKernel.Driver.Keyboard
import OsKernel.Fat32.FileStore
import OsKernel.Screen.Clock
import OsKernel.Shell.Commands
import OsKernel.Shell.ProcessList
import OsKernel.System.Memory

/-!
# The interrupts of the system

`main_interrupt_handler` and `syscall` of `interrupt.c`, over everything they reach: the kernel's
data, the keyboard, the screen, and the memory of the process that runs. A system call stores
through the page directory in use. It runs in ring 0, so it goes on with a pointer into the kernel's
pages; and a user page may lie on a frame of the kernel. The kernel's own memory is not modelled as
bytes: where any of it would be read or written through a pointer or by a process, the model stops
with a `SystemFault`.
-/

namespace OsKernel

open Lib

/-! ## State -/

/-- Why the model does not go on. -/
inductive SystemFault
  | fault (f : Fault)
  /-- One of the bytes from an address on has no page that is open to user code, or lies on a frame
  of the kernel. -/
  | page (addr : UInt32)

/-- What the linked image of the kernel brings: the font, the title picture, and the numbers of the
page frames that its code, its data and its stack lie on. -/
structure KernelImage where
  font : Nat → UInt8
  title : Nat → UInt16
  holds : Nat → Bool

/-- The data of the kernel and its drivers, and the page frames. -/
structure System where
  kernel : Kernel
  keyboard : KeyboardDriverState
  screen : Screen
  memory : PhysicalMemory

/-- What the devices answer during an interrupt: the scancode, and the registers of the clock. -/
structure DeviceInput where
  scancode : UInt8
  clock : ClockTime
  registerB : UInt8

/-- What an interrupt comes to: the calls of the file system that it makes, with their replies, and
the context that is loaded if it does not return. -/
structure Outcome where
  system : System
  calls : List (StorageCall × Reply)
  loads : Option Context

/-- The result of a function of the kernel's model. -/
def liftFault {α : Type} : Except Fault α → Except SystemFault α
  | .ok x => .ok x
  | .error f => .error (.fault f)

namespace System
variable (image : KernelImage)

/-- The physical address behind one of the process that runs, outside of the kernel's frames. -/
def userAddress (s : System) (addr : UInt32) : Option UInt32 :=
  (s.kernel.paging.userAddress addr).filter fun p => !image.holds (p.toNat / pageFrameSize)

/-- The memory of the process that runs. -/
def bytes (s : System) (addr : UInt32) : UInt8 :=
  (loadAt (s.userAddress image) s.memory addr).getD 0

/-- The bytes from an address on can be read. -/
def readable (s : System) (addr : UInt32) (n : Nat) : Except SystemFault Unit :=
  if ∀ i < n, (s.userAddress image (addr + UInt32.ofNat i)).isSome then
    .ok () else .error (.page addr)

/-- `*((struct FAT32DriverRequest*) addr)` -/
def requestAt (s : System) (addr : UInt32) : Except SystemFault DriverRequest := do
  s.readable image addr 23
  return OsKernel.requestAt (s.bytes image) addr

/-- The bytes are stored from an address on. -/
def store (addr : UInt32) (bytes : List UInt8) (s : System) : Except SystemFault System :=
  match storeFrom (s.userAddress image) (fun i => addr + UInt32.ofNat i) 0 bytes s.memory with
  | some memory => .ok { s with memory := memory }
  | none => .error (.page addr)

/-- A function of the screen runs. -/
def draw (f : Screen → Except Fault Screen) (s : System) : Except SystemFault System := do
  let screen ← liftFault (f s.screen)
  return { s with screen := screen }

end System

/-! ## System calls -/

/-- The bytes of a number, the lowest one first. -/
def wordBytes (v : UInt32) : List UInt8 := (List.range 4).map (leByte v.toNat)

/-- The bytes of a `ProcessMetadata`. -/
def ProcessMetadata.bytes (m : ProcessMetadata) : List UInt8 :=
  wordBytes m.pid ++ m.processName.toList ++ wordBytes m.priority.toUInt32 ++
    [m.state.code, 0, 0, 0]

section Calls
variable (image : KernelImage) (steps : Nat)

/-- The function of the file system that a system call is for, and the address for its result;
`steps` bounds the depth of a `delete_all`. -/
def fileCall (general : CallRegisters) (s : System) :
    Except SystemFault (Option (StorageCall × UInt32)) :=
  match general.eax.toNat with
  | 0 => do
    let request ← s.requestAt image general.ebx
    return some (.driver (.read request), general.ecx)
  | 1 => do
    let request ← s.requestAt image general.ebx
    return some (.driver (.readDirectory request), general.ecx)
  | 2 => do
    let request ← s.requestAt image general.ebx
    return some (.driver (.write (s.bytes image) request), general.ecx)
  | 3 => do
    let request ← s.requestAt image general.ebx
    return some (.driver (.delete request), general.ecx)
  | 9 => do
    let request ← s.requestAt image general.ebx
    return some (.driver (.deleteAll steps request), general.ecx)
  | 12 => do
    let src ← s.requestAt image general.ebx
    let tar ← s.requestAt image general.ecx
    return some (.move src tar, general.edx)
  | _ => .ok none

/-- The buffer that a call stores clusters to. -/
def StorageCall.buf : StorageCall → UInt32
  | driver q => q.request.buf
  | move src _ => src.buf
  | restart _ _ => 0

/-- A `write` that is not refused takes whole clusters from the caller's memory, unless it makes a
folder. -/
def StorageCall.given (reply : Reply) : StorageCall → Nat
  | driver (.write _ request) =>
    if reply.code = 0 ∧ request.bufferSize ≠ 0 then 2048 * clusterNeeded request.bufferSize else 0
  | _ => 0

/-- A function of the file system runs on bytes that can be read, stores what it reads at `buf` and
its result at `addr`. -/
def System.runFileCall (call : StorageCall) (addr : UInt32) (s : System) :
    Except SystemFault Outcome := do
  let (reply, fs) ← liftFault (call.run s.kernel.fs)
  s.readable image call.buf (call.given reply)
  let s := { s with kernel := { s.kernel with fs := fs } }
  let s ← s.store image call.buf (clusterBytes reply.stored)
  let s ← s.store image addr [reply.code.toUInt8]
  return ⟨s, [(call, reply)], none⟩

/-- `process_create_user_process`, with what it reads into the memory of the new process. -/
def System.createProcess (request : DriverRequest) (s : System) : Except SystemFault System := do
  let (_, kernel) ← liftFault (processCreateUserProcess request s.kernel)
  match checkCreate request s.kernel with
  | some _ => return { s with kernel := kernel }
  | none =>
    let (pageDir, paging) ← liftFault (allocateProcessPages request s.kernel.paging)
    let result ← liftFault (read request s.kernel.fs)
    let loading := { s with kernel := { s.kernel with paging := { paging with cr3 := pageDir } } }
    let loaded ← loading.store image request.buf (clusterBytes result.stored)
    return { s with kernel := kernel, memory := loaded.memory }

/-- The system calls of `syscall` that are no functions of the file system. -/
def System.runCall (general : CallRegisters) (io : DeviceInput) (s : System) :
    Except SystemFault System :=
  match general.eax.toNat with
  | 4 =>
    let (c, keyboard) := s.keyboard.getKeyboardBuffer
    { s with keyboard := keyboard }.store image general.ebx [c]
  | 5 => s.draw (·.putchar image.font general.ebx.toUInt8 general.ecx.toUInt16)
  | 6 => do
    let charCount := general.ecx.toInt32.toInt
    s.readable image general.ebx charCount.toNat
    s.draw (·.puts image.font (fun i => s.bytes image (general.ebx + UInt32.ofNat i)) charCount
      general.edx.toUInt16)
  | 7 => .ok { s with keyboard := s.keyboard.activate }
  | 8 => s.draw (·.drawCursor image.font s.kernel.tickCounter)
  | 10 => s.store image general.ecx (clusterBytes [s.kernel.fs.disk.readClusters general.ebx])
  | 11 => .ok { s with screen := (s.screen.setScreenColor black).resetBuffer }
  | 13 => do
    let (destroyed, kernel) ← liftFault (processDestroy general.ebx s.kernel)
    { s with kernel := kernel }.store image general.edx [if destroyed then 1 else 0]
  | 14 => do
    let request ← s.requestAt image general.ebx
    s.createProcess image request
  | 15 =>
    -- the loop stores the metadata of all slots or none (`processGetProcessesInfo_eq`)
    if s.kernel.state 0 = .terminated then .ok s
    else s.store image general.ebx
      ((List.finRange 16).flatMap fun i => (s.kernel.processList i).metadata.bytes)
  | 16 => s.draw fun screen => (showHMS image.font (readRtc io.clock io.registerB) screen).result
  | 17 => .ok { s with screen := s.screen.drawTitleScreen image.title }
  | 18 => do
    let s ← s.store image general.ebx (wordBytes s.kernel.secondCounter)
    s.store image general.ecx (wordBytes s.kernel.tickCounter)
  | 19 => .ok { s with screen := s.screen.setScreenColor black }
  | 20 => do
    let (_, kernel) ← liftFault (processDestroy s.kernel.exitPid s.kernel)
    return { s with kernel := kernel }
  | _ => .ok s

/-- `syscall` -/
def System.syscall (general : CallRegisters) (io : DeviceInput) (s : System) :
    Except SystemFault Outcome := do
  match ← fileCall image steps general s with
  | some (call, addr) => s.runFileCall image call addr
  | none =>
    let s ← s.runCall image general io
    return ⟨s, [], none⟩

/-! ## Interrupts -/

/-- `keyboard_isr`, with the handler of the arrow. -/
def System.keyboardIsr (scancode : UInt8) (s : System) : Except SystemFault System :=
  let (keyboard, arrow) := s.keyboard.keyboardIsr scancode
  let s := { s with keyboard := keyboard }
  match arrow with
  | none => .ok s
  | some .left => s.draw (·.handleLeftArrow image.font)
  | some .right => s.draw (·.handleRightArrow image.font)

/-- The registers that `syscall` gets its arguments in. -/
def CPURegister.general (cpu : CPURegister) : CallRegisters := ⟨cpu.eax, cpu.ebx, cpu.ecx, cpu.edx⟩

/-- `main_interrupt_handler` -/
def mainInterruptHandler (frame : InterruptFrame) (io : DeviceInput) (s : System) :
    Except SystemFault Outcome :=
  match frame.intNumber.toNat with
  | 0x21 => do
    let s ← s.keyboardIsr image io.scancode
    return ⟨s, [], none⟩
  | 0x20 => do
    let (ctx, kernel) ← liftFault (timerIsr frame s.kernel)
    return ⟨{ s with kernel := kernel }, [], ctx⟩
  | 0x30 => s.syscall image steps frame.cpu.general io
  | _ => .ok ⟨s, [], none⟩

/-! ## Runs -/

/-- What happens to the system: an instruction of the process that runs stores a byte, or it is
interrupted. -/
inductive SystemEvent
  | store (addr : UInt32) (v : UInt8)
  | interrupt (frame : InterruptFrame) (io : DeviceInput)

/-- What an event does. A store without a page is a page fault, which the handler leaves as it
is. -/
def SystemEvent.run : SystemEvent → System → Except SystemFault Outcome
  | store addr v, s =>
    match s.kernel.paging.userAddress addr with
    | none => .ok ⟨s, [], none⟩
    | some p =>
      if image.holds (p.toNat / pageFrameSize) then .error (.page addr)
      else .ok ⟨{ s with memory := Function.update s.memory p v }, [], none⟩
  | interrupt frame io, s => mainInterruptHandler image steps frame io s

end Calls

end OsKernel
