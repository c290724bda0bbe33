import OsKernel.Lib.Search
import OsKernel.Fat32.Types

/-!
# Page directories and page frames

The functions of `paging.c` over its static data. A page directory maps 1024 pages of 4 MiB; the
kernel has its own one and a list of 32 for processes, and page frames of user pages come from a map
of 32 frames with a counter of free ones beside it. Pointers to page directories are a type of their
own, and the physical address in `cr3` is the pointer that was loaded.
-/

namespace OsKernel

open Lib

/-! ## Data -/

/-- `PAGE_FRAME_SIZE` -/
abbrev pageFrameSize : Nat := 4194304

/-- `PAGE_FRAME_MAX_COUNT` -/
abbrev pageFrameMaxCount : Nat := 32

/-- `struct PageDirectoryEntryFlag` -/
structure PageDirectoryEntryFlag where
  presentBit : Bool
  writeBit : Bool
  userSupervisorBit : Bool
  writeThroughBit : Bool
  cacheDisableBit : Bool
  accessedBit : Bool
  dirtyBit : Bool
  usePagesize4Mb : Bool
  deriving DecidableEq, Repr

namespace PageDirectoryEntryFlag

/-- All bits clear. -/
def zero : PageDirectoryEntryFlag := ⟨false, false, false, false, false, false, false, false⟩

/-- The flag of the kernel's own pages. -/
def supervisor : PageDirectoryEntryFlag :=
  { zero with presentBit := true, writeBit := true, usePagesize4Mb := true }

/-- The `newFlag` of `paging_allocate_user_page_frame`. -/
def user : PageDirectoryEntryFlag := { supervisor with userSupervisorBit := true }

end PageDirectoryEntryFlag

/-- `struct PageDirectoryEntry`; the fields from `global_page` to `reserved_2` are zero
throughout. -/
structure PageDirectoryEntry where
  flag : PageDirectoryEntryFlag
  lowerAddress : Fin 1024
  deriving DecidableEq, Repr

/-- `struct PageDirectory` -/
abbrev PageDirectory := Fin 1024 → PageDirectoryEntry

/-- A `struct PageDirectory*`: `NULL`, `&_paging_kernel_page_directory` or
`&page_directory_list[i]`. -/
inductive PageDirectoryPtr
  | null
  | kernel
  | list (i : Fin 32)
  deriving DecidableEq, Repr

/-- The static data of `paging.c`, and the page directory in use. -/
structure PagingState where
  pageFrameMap : Fin 32 → Bool
  freePageFrameCount : UInt32
  kernelPageDirectory : PageDirectory
  pageDirectoryList : Fin 32 → PageDirectory
  pageDirectoryUsed : Fin 32 → Bool
  cr3 : PageDirectoryPtr

namespace PagingState

/-- The entries that the kernel shares with every process, put into a page directory. -/
def kernelEntries (dir : PageDirectory) : PageDirectory :=
  Function.update (Function.update (Function.update (Function.update (Function.update dir
    0x300 ⟨.supervisor, 0⟩) 0x301 ⟨.supervisor, 1⟩) 0x3F4 ⟨.supervisor, 0x3F4⟩)
    0x3F5 ⟨.supervisor, 0x3F5⟩) 0x3F6 ⟨.supervisor, 0x3F6⟩

/-- The data before the first call. -/
def initial : PagingState where
  pageFrameMap := fun i => i == 0
  freePageFrameCount := 31
  kernelPageDirectory := kernelEntries (Function.update (fun _ => ⟨.zero, 0⟩) 0 ⟨.supervisor, 0⟩)
  pageDirectoryList := fun _ _ => ⟨.zero, 0⟩
  pageDirectoryUsed := fun _ => false
  cr3 := .kernel

/-- The page directory behind a pointer. -/
def getDir (s : PagingState) : PageDirectoryPtr → Except Fault PageDirectory
  | .null => .error .nullPointer
  | .kernel => .ok s.kernelPageDirectory
  | .list i => .ok (s.pageDirectoryList i)

/-- A write to the page directory behind a pointer. -/
def setDir (s : PagingState) (pageDir : PageDirectoryPtr) (dir : PageDirectory) : PagingState :=
  match pageDir with
  | .null => s
  | .kernel => { s with kernelPageDirectory := dir }
  | .list i => { s with pageDirectoryList := Function.update s.pageDirectoryList i dir }

end PagingState

/-! ## Mapping -/

/-- The page of an address: `(addr >> 22) & 0x3FF`. -/
def pageIndex (addr : UInt32) : Fin 1024 :=
  ⟨(addr >>> 22 &&& 0x3FF).toNat, by
    rw [UInt32.toNat_and]
    exact Nat.lt_of_le_of_lt Nat.and_le_right (by decide)⟩

/-- `update_page_directory_entry`; the TLB entry it flushes is not part of the state. -/
def updatePageDirectoryEntry (pageDir : PageDirectoryPtr) (physicalAddr virtualAddr : UInt32)
    (flag : PageDirectoryEntryFlag) (s : PagingState) : Except Fault PagingState := do
  let dir ← s.getDir pageDir
  return s.setDir pageDir
    (Function.update dir (pageIndex virtualAddr) ⟨flag, pageIndex physicalAddr⟩)

/-- `paging_allocate_check` -/
def pagingAllocateCheck (amount : UInt32) (s : PagingState) : Bool :=
  decide (amount ≤ s.freePageFrameCount)

/-- The loop of `paging_allocate_user_page_frame`: the frame it marks, or `PAGE_FRAME_MAX_COUNT`
when it finds none to mark. -/
def takePageFrame (s : PagingState) : Nat × PagingState :=
  match findFrom 0 fun i => !s.pageFrameMap i with
  | some i => (i.val, { s with
      pageFrameMap := Function.update s.pageFrameMap i true
      freePageFrameCount := s.freePageFrameCount - 1 })
  | none => (pageFrameMaxCount, s)

/-- `paging_allocate_user_page_frame` -/
def pagingAllocateUserPageFrame (pageDir : PageDirectoryPtr) (virtualAddr : UInt32)
    (s : PagingState) : Except Fault (Bool × PagingState) :=
  if !pagingAllocateCheck 1 s then .ok (false, s)
  else do
    let (i, s) := takePageFrame s
    let s ← updatePageDirectoryEntry pageDir (UInt32.ofNat (i * pageFrameSize)) virtualAddr .user s
    return (true, s)

/-- The assignment `page_frame_map[n] = 0`. -/
def clearPageFrame (n : Nat) (s : PagingState) : Except Fault PagingState :=
  if h : n < 32 then .ok { s with pageFrameMap := Function.update s.pageFrameMap ⟨n, h⟩ false }
  else .error (.arrayIndex n)

/-- `paging_free_user_page_frame` -/
def pagingFreeUserPageFrame (pageDir : PageDirectoryPtr) (virtualAddr : UInt32) (s : PagingState) :
    Except Fault (Bool × PagingState) := do
  let dir ← s.getDir pageDir
  let physicalIndex := (dir (pageIndex virtualAddr)).lowerAddress.val / pageFrameSize
  let s ← clearPageFrame physicalIndex s
  return (true, { s with freePageFrameCount := s.freePageFrameCount + 1 })

/-! ## Page directories of processes -/

/-- The page directory with every present bit cleared. -/
def clearPresent (dir : PageDirectory) : PageDirectory :=
  fun j => { dir j with flag := { (dir j).flag with presentBit := false } }

/-- `paging_create_new_page_directory` -/
def pagingCreateNewPageDirectory (s : PagingState) : PageDirectoryPtr × PagingState :=
  match findFrom 0 fun i => !s.pageDirectoryUsed i with
  | none => (.null, s)
  | some i => (.list i, { s with
      pageDirectoryUsed := Function.update s.pageDirectoryUsed i true
      pageDirectoryList := Function.update s.pageDirectoryList i
        (PagingState.kernelEntries (clearPresent (s.pageDirectoryList i))) })

/-- `paging_free_page_directory` -/
def pagingFreePageDirectory (pageDir : PageDirectoryPtr) (s : PagingState) : Bool × PagingState :=
  match pageDir with
  | .list i => (true, { s with
      pageDirectoryUsed := Function.update s.pageDirectoryUsed i false
      pageDirectoryList := Function.update s.pageDirectoryList i
        (clearPresent (s.pageDirectoryList i)) })
  | _ => (false, s)

/-- `paging_use_page_directory`; the processor cannot go on with the page directory `NULL`. -/
def pagingUsePageDirectory (pageDir : PageDirectoryPtr) (s : PagingState) :
    Except Fault PagingState :=
  if pageDir = .null then .error .nullPointer else .ok { s with cr3 := pageDir }

end OsKernel
