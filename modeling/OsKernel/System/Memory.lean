import OsKernel.Process.Loading
import OsKernel.Process.ProcessIsolation

/-!
# The memory of processes

A process reaches the user pages of its page directory. The page frames behind them are its own
(`FramesApart`), so what is stored through one page directory is not in the memory of another
process (`FramesApart.userAddress_ne`).
-/

namespace OsKernel

open Lib

/-! ## User addresses -/

/-- The physical address behind a virtual one, if its page is present and open to user code. -/
def userAddress (dir : PageDirectory) (addr : UInt32) : Option UInt32 :=
  if (dir (pageIndex addr)).flag.userSupervisorBit then physicalAddress dir addr else none

/-- The physical address behind a virtual one, with the page directory in use. -/
def PagingState.userAddress (s : PagingState) (addr : UInt32) : Option UInt32 :=
  match s.cr3 with
  | .list d => OsKernel.userAddress (s.pageDirectoryList d) addr
  | _ => none

/-- The physical address behind a virtual one of the process in slot `i`. -/
def Kernel.userAddress (k : Kernel) (i : Fin 16) (addr : UInt32) : Option UInt32 :=
  match (k.processList i).context.pageDirectory with
  | .list d => OsKernel.userAddress (k.paging.pageDirectoryList d) addr
  | _ => none

/-- The byte at an address of the process in slot `i`. -/
def Kernel.byteAt (k : Kernel) (i : Fin 16) (m : PhysicalMemory) (addr : UInt32) : Option UInt8 :=
  loadAt (k.userAddress i) m addr

section Address
variable {dir : PageDirectory} {addr p : UInt32} {m m' : PhysicalMemory} {i : Nat}
  {bytes : List UInt8}

/-- A user address lies in the page frame of its page. -/
theorem userAddress_frame (h : userAddress dir addr = some p) :
    ∃ f : Fin 1024, (dir (pageIndex addr)).mapsUser f ∧ p.toNat / pageFrameSize = f.val := by
  refine ⟨(dir (pageIndex addr)).lowerAddress, ?_⟩
  generalize hentry : dir (pageIndex addr) = entry
  unfold userAddress physicalAddress at h
  rw [hentry] at h
  split at h
  · next huser =>
    split at h
    · next hpresent =>
      rw [Option.some_inj] at h
      refine ⟨⟨hpresent, huser, rfl⟩, ?_⟩
      have hframe := entry.lowerAddress.isLt
      have hsize : pageFrameSize = 0x400000 := rfl
      rw [← h, UInt32.toNat_ofNat', hsize]
      omega
    · cases h
  · cases h

end Address

/-! ## Other processes -/

section Apart
variable {k : Kernel} {i c : Fin 16} {d d' : Fin 32} {addr addr' p : UInt32}

theorem PagingState.userAddress_list {s : PagingState} (h : s.cr3 = .list d) :
    s.userAddress = OsKernel.userAddress (s.pageDirectoryList d) := by
  funext addr
  rw [PagingState.userAddress, h]

theorem Kernel.userAddress_list (h : (k.processList i).context.pageDirectory = .list d) :
    k.userAddress i = OsKernel.userAddress (k.paging.pageDirectoryList d) := by
  funext addr
  rw [Kernel.userAddress, h]

/-- Two processes do not reach the same byte. -/
theorem FramesApart.userAddress_ne (h : FramesApart none k) (hic : i ≠ c)
    (hi : k.state i ≠ .terminated) (hc : k.state c ≠ .terminated)
    (hdi : (k.processList i).context.pageDirectory = .list d)
    (hdc : (k.processList c).context.pageDirectory = .list d')
    (haddr : userAddress (k.paging.pageDirectoryList d) addr = some p) :
    userAddress (k.paging.pageDirectoryList d') addr' ≠ some p := by
  intro haddr'
  obtain ⟨f, hf, hpf⟩ := userAddress_frame haddr
  obtain ⟨f', hf', hpf'⟩ := userAddress_frame haddr'
  obtain rfl : f = f' := Fin.ext (hpf.symm.trans hpf')
  have hnone : ∀ i : Fin 16, some i ≠ none := fun _ h => nomatch h
  exact hic (h.exclusive i c _ _ f ⟨hnone i, hi, d, hdi, hf⟩ ⟨hnone c, hc, d', hdc, hf'⟩).1

end Apart

end OsKernel
