import Mathlib.Data.Finset.Card
import Mathlib.Data.Fintype.Card
import OsKernel.Lib.Run
import OsKernel.Memory.Frames

/-!
# The count of free page frames

`free_page_frame_count` counts the frames that `page_frame_map` has free (`CountsFree`). An
allocation keeps that: with a right count it finds a free frame whenever it does not refuse. A page
that is freed counts up and clears page frame 0, so the count stays right exactly when that frame
was marked.
-/

namespace OsKernel

open Lib

/-! ## Counting -/

/-- The number of page frames that are free. -/
def PagingState.freeFrameCount (s : PagingState) : Nat :=
  (Finset.univ.filter fun i => s.pageFrameMap i = false).card

/-- `free_page_frame_count` is the number of free page frames. -/
def CountsFree (s : PagingState) : Prop := s.freePageFrameCount.toNat = s.freeFrameCount

section Count
variable {s s' : PagingState} {d : Fin 32} {j f : Fin 1024} {i : Fin 32} {dir : PageDirectory}
  {pageDir : PageDirectoryPtr} {n : Nat}

@[simp] theorem freeFrameCount_setDir :
    (s.setDir pageDir dir).freeFrameCount = s.freeFrameCount := by
  rw [PagingState.freeFrameCount, PagingState.freeFrameCount, pageFrameMap_setDir]

theorem freeFrameCount_le : s.freeFrameCount ≤ 32 :=
  (Finset.card_le_univ _).trans_eq (Fintype.card_fin 32)

theorem freeFrameCount_eq_zero : s.freeFrameCount = 0 ↔ ∀ i, s.pageFrameMap i = true := by
  simp [PagingState.freeFrameCount, Finset.filter_eq_empty_iff]

/-- Marking a free frame leaves one less. -/
theorem freeFrameCount_mark (hfree : s.pageFrameMap i = false) :
    (s.mark i).freeFrameCount + 1 = s.freeFrameCount := by
  have hmem : i ∈ Finset.univ.filter fun i => s.pageFrameMap i = false := by simpa using hfree
  have herase : (Finset.univ.filter fun i' => (s.mark i).pageFrameMap i' = false) =
      (Finset.univ.filter fun i => s.pageFrameMap i = false).erase i := by
    ext i'
    simp [PagingState.mark, Function.update_apply]
  rw [PagingState.freeFrameCount, herase]
  exact Finset.card_erase_add_one hmem

/-- Clearing page frame 0 leaves one more if it was marked. -/
theorem freeFrameCount_freePages (hn : n ≠ 0) :
    (s.freePages n).freeFrameCount = s.freeFrameCount + if s.pageFrameMap 0 then 1 else 0 := by
  have hinsert : (Finset.univ.filter fun i => (s.freePages n).pageFrameMap i = false) =
      insert 0 (Finset.univ.filter fun i => s.pageFrameMap i = false) := by
    ext i
    simp only [PagingState.freePages, if_neg hn, Function.update_apply, Finset.mem_insert,
      Finset.mem_filter, Finset.mem_univ, true_and]
    split <;> simp [*]
  rw [PagingState.freeFrameCount, hinsert]
  cases h0 : s.pageFrameMap 0 with
  | true =>
    rw [Finset.card_insert_of_notMem (by simp [h0])]
    rfl
  | false =>
    rw [Finset.insert_eq_of_mem (by simp [h0])]
    rfl

end Count

/-! ## Calls -/

/-- A call of one of the two functions on user pages. -/
inductive PageCall
  | allocate (pageDir : PageDirectoryPtr) (virtualAddr : UInt32)
  | free (pageDir : PageDirectoryPtr) (virtualAddr : UInt32)

/-- The page of an address is a user page in a page directory. -/
def MapsUserPage (pageDir : PageDirectoryPtr) (addr : UInt32) (s : PagingState) : Prop :=
  ∃ dir f, s.getDir pageDir = .ok dir ∧ (dir (pageIndex addr)).mapsUser f

/-- A call completes; a page that is freed is a user page. -/
inductive PageStep : PageCall → PagingState → PagingState → Prop
  | allocate {pageDir : PageDirectoryPtr} {addr : UInt32} {b : Bool} {s s' : PagingState} :
      pagingAllocateUserPageFrame pageDir addr s = .ok (b, s') →
      PageStep (.allocate pageDir addr) s s'
  | free {pageDir : PageDirectoryPtr} {addr : UInt32} {b : Bool} {s s' : PagingState} :
      MapsUserPage pageDir addr s → pagingFreeUserPageFrame pageDir addr s = .ok (b, s') →
      PageStep (.free pageDir addr) s s'

/-- A page is freed only while page frame 0 is marked. -/
def FrameZeroMarked : PageCall → PagingState → Prop
  | .allocate _ _, _ => True
  | .free _ _, s => s.pageFrameMap 0 = true

/-- The page of the address has become a user page on a frame that was free and is marked. -/
def TakesFreeFrame (pageDir : PageDirectoryPtr) (addr : UInt32) (s s' : PagingState) : Prop :=
  ∃ dir i, s'.getDir pageDir = .ok dir ∧ (dir (pageIndex addr)).mapsUser (frameNumber i) ∧
    s.pageFrameMap i = false ∧ s'.pageFrameMap i = true

section Calls
variable {s s' : PagingState} {pageDir : PageDirectoryPtr} {addr : UInt32} {b : Bool} {c : PageCall}

/-- Whatever page directory the page is in, page frame 0 is cleared. -/
theorem pagingFreeUserPageFrame_any (h : pagingFreeUserPageFrame pageDir addr s = .ok (b, s')) :
    s' = s.freePages 1 := by
  obtain ⟨dir, -, h⟩ := bind_eq_ok.1 h
  have hindex : (dir (pageIndex addr)).lowerAddress.val / pageFrameSize = 0 :=
    Nat.div_eq_of_lt (Nat.lt_trans (Fin.isLt _) (by decide))
  dsimp only at h
  rw [hindex] at h
  cases h
  rfl

/-- With a right count an allocation that returns true takes a free frame. -/
theorem CountsFree.takesFreeFrame (h : CountsFree s)
    (hrun : pagingAllocateUserPageFrame pageDir addr s = .ok (true, s')) :
    TakesFreeFrame pageDir addr s s' := by
  rcases pagingAllocateUserPageFrame_any hrun with ⟨hfalse, -⟩ | ⟨-, hcount, dir, hdir, hcase⟩
  · cases hfalse
  · rcases hcase with ⟨i, hfree, -, rfl⟩ | ⟨hfull, -⟩
    · have hdir' : (s.mark i).getDir pageDir = .ok dir := getDir_mark.trans hdir
      refine ⟨_, i, getDir_setDir hdir', ?_, hfree, ?_⟩
      · rw [Function.update_self]
        exact mapsUser_user.2 rfl
      · rw [pageFrameMap_setDir]
        exact Function.update_self ..
    · rw [CountsFree, freeFrameCount_eq_zero.2 hfull] at h
      exact absurd h (toNat_ne_zero hcount)

/-- A call keeps the count right unless it clears page frame 0 while that is free. -/
theorem CountsFree.pageStep_iff (h : CountsFree s) (hstep : PageStep c s s') :
    CountsFree s' ↔ FrameZeroMarked c s := by
  cases hstep with
  | allocate hrun =>
    refine iff_of_true ?_ trivial
    unfold CountsFree at h ⊢
    rcases pagingAllocateUserPageFrame_any hrun with ⟨-, -, rfl⟩ | ⟨-, hcount, dir, -, hcase⟩
    · exact h
    · rcases hcase with ⟨i, hfree, -, rfl⟩ | ⟨hfull, -⟩
      · have hmark := freeFrameCount_mark hfree
        rw [freePageFrameCount_setDir, freeFrameCount_setDir]
        show (s.freePageFrameCount - 1).toNat = _
        rw [toNat_pred hcount, h]
        omega
      · rw [freeFrameCount_eq_zero.2 hfull] at h
        exact absurd h (toNat_ne_zero hcount)
  | free hmapped hrun =>
    obtain rfl := pagingFreeUserPageFrame_any hrun
    have hle : s.freeFrameCount ≤ 32 := freeFrameCount_le
    unfold CountsFree at h ⊢
    rw [freeFrameCount_freePages (by omega)]
    show (s.freePageFrameCount + 1).toNat = _ ↔ s.pageFrameMap 0 = true
    rw [UInt32.toNat_add, h, UInt32.toNat_one]
    split <;> simp [*] <;> omega

end Calls

/-! ## Runs -/

/-- In a run in which a page is freed only while page frame 0 is marked, `free_page_frame_count` is
the number of free page frames, and an allocation that returns true takes one of them. The first
call that frees a page while frame 0 is free makes the count wrong. -/
theorem freePageFrameCount_counts_iff {s₀ s : PagingState}
    (hmap : s₀.pageFrameMap = PagingState.initial.pageFrameMap)
    (hcount : s₀.freePageFrameCount = PagingState.initial.freePageFrameCount)
    (hrun : Run PageStep FrameZeroMarked s₀ s) :
    s.freePageFrameCount.toNat = (Finset.univ.filter fun i => s.pageFrameMap i = false).card ∧
      (∀ pageDir addr s', pagingAllocateUserPageFrame pageDir addr s = .ok (true, s') →
        TakesFreeFrame pageDir addr s s') ∧
      ∀ c s', PageStep c s s' →
        (s'.freePageFrameCount.toNat =
          (Finset.univ.filter fun i => s'.pageFrameMap i = false).card ↔ FrameZeroMarked c s) := by
  have h₀ : CountsFree s₀ := by
    rw [CountsFree, PagingState.freeFrameCount, hmap, hcount]
    rfl
  have h : CountsFree s := by
    refine hrun.invariant (I := CountsFree) ?_ h₀
    intro c s s' h hok hstep
    exact (h.pageStep_iff hstep).2 hok
  exact ⟨h, fun _ _ _ hrun => h.takesFreeFrame hrun, fun c s' hstep => h.pageStep_iff hstep⟩

/-- The data after pages 0 and 1 of the first page directory were allocated. -/
def twoPages : PagingState :=
  ((PagingState.initial.mark 1).assign 0 0 (frameNumber 1)).mark 2 |>.assign 0 1 (frameNumber 2)

/-- The two pages are allocated one after the other, and the first one is freed. -/
theorem twoPages_freed : Run PageStep FrameZeroMarked .initial (twoPages.freePages 1) := by
  have hfirst : pagingAllocateUserPageFrame (.list 0) 0 .initial =
      .ok (true, (PagingState.initial.mark 1).assign 0 0 (frameNumber 1)) :=
    pagingAllocateUserPageFrame_frame (by decide) (by decide) (by decide)
  have hsecond : pagingAllocateUserPageFrame (.list 0) 0x400000
      ((PagingState.initial.mark 1).assign 0 0 (frameNumber 1)) = .ok (true, twoPages) :=
    pagingAllocateUserPageFrame_frame (by decide) (by decide) (by decide)
  have hmapped : MapsUserPage (.list 0) 0 twoPages := ⟨_, frameNumber 1, rfl, rfl, rfl, rfl⟩
  have hmarked : FrameZeroMarked (.free (.list 0) 0) twoPages :=
    (by decide : twoPages.pageFrameMap 0 = true)
  exact ((Run.single trivial (.allocate hfirst)).tail trivial (.allocate hsecond)).tail hmarked
    (.free hmapped pagingFreeUserPageFrame_list)

/-- Two pages are allocated and freed again: the count says 31, and 30 page frames are free. -/
theorem freePageFrameCount_drifts : ∃ s, Run PageStep (fun _ _ => True) .initial s ∧
    s.freePageFrameCount.toNat = 31 ∧
    (Finset.univ.filter fun i => s.pageFrameMap i = false).card = 30 := by
  have hmapped : MapsUserPage (.list 0) 0x400000 (twoPages.freePages 1) :=
    ⟨_, frameNumber 2, rfl, rfl, rfl, rfl⟩
  refine ⟨(twoPages.freePages 1).freePages 1, ?_, by decide, by decide⟩
  exact (twoPages_freed.mono fun _ _ _ => trivial).tail trivial
    (.free hmapped pagingFreeUserPageFrame_list)

/-- The count is right after the first of them was freed. -/
theorem freePageFrameCount_counts_freed :
    (twoPages.freePages 1).freePageFrameCount.toNat =
      (Finset.univ.filter fun i => (twoPages.freePages 1).pageFrameMap i = false).card :=
  (freePageFrameCount_counts_iff rfl rfl twoPages_freed).1

end OsKernel
