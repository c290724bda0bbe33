import OsKernel.Process.Fairness
import OsKernel.System.Interrupts

/-!
# What an event does to the system

An event leaves the kernel as it is, is a call of the file system, or amounts to an event of the
kernel: a timer interrupt, a destruction or a creation (`SystemEffect`). What it stores lies behind
the page directory in use, or behind the one of a new process.
-/

namespace OsKernel

open Lib

/-- The event of the kernel that a system call amounts to. -/
def System.callEvent (image : KernelImage) (general : CallRegisters) (s : System) :
    Option KernelEvent :=
  match general.eax.toNat with
  | 13 => some (.call (.destroy general.ebx))
  | 14 => some (.call (.create (OsKernel.requestAt (s.bytes image) general.ebx)))
  | 20 => some .exit
  | _ => none

/-- The event of the kernel that an event of the system amounts to. -/
def SystemEvent.kernelEvent (image : KernelImage) (s : System) : SystemEvent → Option KernelEvent
  | store _ _ => none
  | interrupt frame _ =>
    match frame.intNumber.toNat with
    | 0x20 => some (.timer frame)
    | 0x30 => s.callEvent image frame.cpu.general
    | _ => none

/-- What an event comes to. -/
inductive SystemEffect (image : KernelImage) (e : SystemEvent) (s s' : System) :
    List (StorageCall × Reply) → Option Context → Prop
  | quiet : e.kernelEvent image s = none → s'.kernel = s.kernel →
      OnlyBehind s.kernel.paging.userAddress s.memory s'.memory → SystemEffect image e s s' [] none
  | file {call : StorageCall} {reply : Reply} {fs : FileSystem} : e.kernelEvent image s = none →
      call.run s.kernel.fs = .ok (reply, fs) → s'.kernel = { s.kernel with fs := fs } →
      OnlyBehind s.kernel.paging.userAddress s.memory s'.memory →
      SystemEffect image e s s' [(call, reply)] none
  | timer {frame : InterruptFrame} {io : DeviceInput} {ctx : Option Context} :
      e = .interrupt frame io → e.kernelEvent image s = some (.timer frame) →
      timerIsr frame s.kernel = .ok (ctx, s'.kernel) → s'.memory = s.memory →
      SystemEffect image e s s' [] ctx
  | destroy {ke : KernelEvent} : e.kernelEvent image s = some ke →
      (ke = .exit ∨ ∃ pid, ke = .call (.destroy pid)) → EventStep ke s.kernel s'.kernel →
      OnlyBehind s'.kernel.paging.userAddress s.memory s'.memory → SystemEffect image e s s' [] none
  | create {request : DriverRequest} {code : ProcessCreateCode} :
      e.kernelEvent image s = some (.call (.create request)) →
      processCreateUserProcess request s.kernel = .ok (code, s'.kernel) →
      (s'.memory = s.memory ∨ checkCreate request s.kernel = none ∧ ∃ pageDir paging,
        allocateProcessPages request s.kernel.paging = .ok (pageDir, paging) ∧
        OnlyBehind { paging with cr3 := pageDir }.userAddress s.memory s'.memory) →
      SystemEffect image e s s' [] none

section Faults
variable {α β : Type} {x : Except SystemFault α} {f : α → Except SystemFault β} {r : β}
  {y : Except Fault α} {a : α}

end Faults

section Parts
variable {image : KernelImage} {s s' : System} {addr : UInt32} {bytes : List UInt8}
  {f : Screen → Except Fault Screen} {request : DriverRequest} {call : StorageCall} {o : Outcome}
  {general : CallRegisters} {steps : Nat} {x : StorageCall × UInt32}

end Parts

section Events
variable {image : KernelImage} {steps : Nat} {s s' : System} {e : SystemEvent}
  {general : CallRegisters} {io : DeviceInput} {o : Outcome} {scancode : UInt8}
  {calls : List (StorageCall × Reply)} {ctx : Option Context}

end Events

end OsKernel
