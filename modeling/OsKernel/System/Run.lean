import OsKernel.Process.Boot
import OsKernel.System.Isolation

/-!
# Runs of the whole system

From the switch of `kernel_setup` on the system makes steps: instructions of the process that runs,
and interrupts. However they follow each other, the file system is a store of files, and the
scheduler keeps its processes (`system_refines`). The runs end where a process or a pointer gets at
the kernel's own memory, and none starts with the shell on a frame of the kernel (`Boots`).
-/

namespace OsKernel

open Lib

/-! ## The switch of `kernel_setup` -/

section Boot
variable {pad0 : Vector UInt8 6} {pad1 : Vector UInt8 5} {disk : Disk} {ctx : Context}
  {k k' : Kernel} {request : DriverRequest} {code : ProcessCreateCode} {fs : FileSystem}

end Boot

section Steps
variable (image : KernelImage) (steps : Nat)

end Steps

section Runs
variable {image : KernelImage} {steps : Nat} {s₀ s s₁ s₂ s₃ s' : System} {pad0 : Vector UInt8 6}
  {pad1 : Vector UInt8 5} {disk : Disk} {fs : FileSystem} {ctx₀ ctx ctx₁ : Context}
  {a : SystemEvent × List (StorageCall × Reply)} {t t' : FileStore}
  {log₀ : List (StorageCall × Reply)} {log : List (SystemEvent × List (StorageCall × Reply))}
  {frame frame' : InterruptFrame} {io io' : DeviceInput} {calls calls' : List (StorageCall × Reply)}
  {i : Fin 16} {e : SystemEvent}

end Runs

/-! ## The shell -/

/-- The paging data when the shell is created. -/
def shellPaging : PagingState :=
  match allocateProcessPages shellRequest .initial with
  | .ok (_, paging) => paging
  | .error _ => .initial

/-- The shell is the only process. -/
structure ShellAlone (k : Kernel) : Prop where
  paging : k.paging = { shellPaging with cr3 := .list 0 }
  count : k.activeProcessCount = 1
  tick : k.tickCounter = 0
  running : OneRunning k 0
  others : ∀ i ≠ 0, k.state i = .terminated

/-- The request for the shell's file, without a buffer. -/
def emptyShellRequest : DriverRequest := { shellRequest with bufferSize := 0 }

/-- The request at the start of every page frame. -/
def requestMemory : PhysicalMemory := fun p =>
  [0, 0, 0, 0, 0x73, 0x68, 0x65, 0x6C, 0x6C, 0, 0, 0, 0, 0, 0, 2].getD (p.toNat % 0x400000) 0

/-- The machine on which the shell is alone. -/
def shellSystem (k : Kernel) : System := ⟨k, .initial, .initial, requestMemory⟩

/-- A kernel that fits on the first page frame. -/
def sampleImage : KernelImage := ⟨fun _ => 0, fun _ => 0, (· == 0)⟩

section First
variable {dir : PageDirectory} {frame : Fin 1024} {n : Nat} {s : System} {d : Fin 32}
  {l : Nat → UInt8}

theorem pageIndex_first (hn : n < pageFrameSize) : pageIndex (UInt32.ofNat n) = 0 := by
  have hn' : n < 0x400000 := hn
  refine Fin.ext ?_
  rw [pageIndex_val, UInt32.toNat_ofNat', Nat.mod_eq_of_lt (by omega)]
  show n / 0x400000 = 0
  omega

/-- The first page of a process is at the start of its frame. -/
theorem userAddress_first (h : dir 0 = ⟨.user, frame⟩) (hn : n < pageFrameSize) :
    userAddress dir (UInt32.ofNat n) = some (UInt32.ofNat (frame.val * pageFrameSize + n)) := by
  rw [userAddress, pageIndex_first hn, h]
  exact physicalAddress_first h hn

theorem System.userAddress_page {image : KernelImage} (hcr3 : s.kernel.paging.cr3 = .list d)
    (hdir : s.kernel.paging.pageDirectoryList d 0 = ⟨.user, frame⟩)
    (hframe : image.holds frame.val = false) (hn : n < pageFrameSize) :
    s.userAddress image (UInt32.ofNat n) = some (UInt32.ofNat (frame.val * pageFrameSize + n)) := by
  have haddr : s.kernel.paging.userAddress (UInt32.ofNat n) =
      some (UInt32.ofNat (frame.val * pageFrameSize + n)) := by
    rw [PagingState.userAddress_list hcr3]
    exact userAddress_first hdir hn
  obtain ⟨f, hf, hpf⟩ :=
    userAddress_frame ((congrFun (PagingState.userAddress_list hcr3) _).symm.trans haddr)
  rw [pageIndex_first hn, hdir] at hf
  obtain rfl : frame = f := hf.2.2
  rw [System.userAddress, haddr, Option.filter_some, hpf, hframe]
  rfl

/-- A request at address 0. -/
theorem System.requestAt_first {image : KernelImage} (hcr3 : s.kernel.paging.cr3 = .list d)
    (hdir : s.kernel.paging.pageDirectoryList d 0 = ⟨.user, frame⟩)
    (hframe : image.holds frame.val = false)
    (hmem : ∀ n < 23, s.memory (UInt32.ofNat (frame.val * pageFrameSize + n)) = l n) :
    s.requestAt image 0 = .ok (OsKernel.requestAt (fun addr => l addr.toNat) 0) := by
  have huse (n : Nat) (hn : n < 23) :
      s.userAddress image (UInt32.ofNat n) = some (UInt32.ofNat (frame.val * pageFrameSize + n)) :=
    s.userAddress_page hcr3 hdir hframe (hn.trans (by decide))
  have hread : s.readable image 0 23 = .ok () := by
    refine if_pos fun n hn => ?_
    rw [UInt32.zero_add, huse n hn]
    rfl
  rw [System.requestAt, hread]
  refine congrArg Except.ok (requestAt_congr fun n hn => ?_)
  have hlt : n < 2 ^ 32 := hn.trans (by decide)
  rw [UInt32.zero_add, System.bytes, loadAt, huse n hn, UInt32.toNat_ofNat_of_lt' hlt]
  exact hmem n hn

end First

/-- The shell asks for its own file. -/
theorem ShellAlone.requestAt {k : Kernel} (h : ShellAlone k) :
    (shellSystem k).requestAt sampleImage 0 = .ok emptyShellRequest := by
  have hdir : shellPaging.pageDirectoryList 0 0 = ⟨.user, 1⟩ := rfl
  have hpaging : (shellSystem k).kernel.paging = { shellPaging with cr3 := .list 0 } := h.paging
  have hmem : ∀ n < 23, requestMemory (UInt32.ofNat ((1 : Fin 1024).val * pageFrameSize + n)) =
      requestMemory (UInt32.ofNat n) := by decide
  rw [System.requestAt_first (s := shellSystem k) (l := fun n => requestMemory (UInt32.ofNat n))
    (by rw [hpaging]) (by rw [hpaging]; exact hdir) rfl hmem]
  exact congrArg Except.ok (by decide)

end OsKernel
