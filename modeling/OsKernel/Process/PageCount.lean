import Mathlib.Algebra.Order.Floor.Div
import OsKernel.Fat32.Read
import OsKernel.Process.Lifecycle

/-!
# The number of pages of a process

`process_create_user_process` computes the number of page frames in 32 bits: it adds the size of a
frame for the stack, and `ceil_div` adds the size of a frame once more before it divides. Up to the
size `0xFF800000` of an executable the result is exact; from there on the sums wrap around, the
result is 0 or 1, and a request that no memory could hold passes the check
(`pageFrameCountNeeded_exact_iff`). The loop over the pages runs once less than this number, in
unsigned arithmetic (`codePagesLoop_eq`).
-/

namespace OsKernel

open Lib

/-! ## The count -/

/-- The number of pages that an executable of `bufferSize` bytes fills, in exact arithmetic. -/
def codePages (request : DriverRequest) : Nat := request.bufferSize.toNat ⌈/⌉ pageFrameSize

section Count
variable {request : DriverRequest}

theorem codePages_eq : codePages request = (request.bufferSize.toNat + 0x3FFFFF) / 0x400000 := by
  have hpred : pageFrameSize - 1 = 0x3FFFFF := rfl
  rw [codePages, Nat.ceilDiv_eq_add_pred_div, Nat.add_sub_assoc (by decide), hpred]

/-- What the 32 bits of the sums leave of the count. -/
theorem pageFrameCountNeeded_toNat : (pageFrameCountNeeded request).toNat =
    (request.bufferSize.toNat + 0x7FFFFF) % 2 ^ 32 / 0x400000 := by
  have hsize := request.bufferSize.toNat_lt
  rw [pageFrameCountNeeded, ceilDiv, if_neg (by simp), UInt32.toNat_div, UInt32.toNat_sub,
    UInt32.toNat_add, UInt32.toNat_add]
  simp only [UInt32.reduceToNat]
  omega

/-- The count is exact up to the size at which the sums wrap around. -/
theorem pageFrameCountNeeded_exact_iff :
    (pageFrameCountNeeded request).toNat = codePages request + 1 ↔
      request.bufferSize.toNat ≤ 0xFF800000 := by
  have hsize := request.bufferSize.toNat_lt
  rw [pageFrameCountNeeded_toNat, codePages_eq]
  omega

end Count

/-! ## The loop over the pages -/

/-- The loop of `process_create_user_process` over the pages of the executable as it stands there:
the `int` counter is compared with the count as an unsigned number. It returns how often its body
ran. -/
def codePagesLoop (pageDir : PageDirectoryPtr) (buf pageFrameCountNeeded : UInt32) :
    Nat → Int32 → PagingState → Except Fault (Nat × PagingState)
  | 0, _, _ => .error .outOfSteps
  | steps + 1, i, s =>
    if i.toUInt32 < pageFrameCountNeeded - 1 then do
      let (_, s) ← pagingAllocateUserPageFrame pageDir (buf + i.toUInt32 * 0x400000) s
      let (n, s) ← codePagesLoop pageDir buf pageFrameCountNeeded steps (i + 1) s
      return (n + 1, s)
    else return (0, s)

/-- The loop runs `n` times, whatever the state of the page frames is. -/
def LoopRuns (request : DriverRequest) (n : Nat) : Prop :=
  ∀ d s, ∃ bound, ∀ steps ≥ bound, ∃ s',
    codePagesLoop (.list d) request.buf (pageFrameCountNeeded request) steps 0 s = .ok (n, s')

section Loop
variable {pageDir : PageDirectoryPtr} {d : Fin 32} {buf needed addr : UInt32} {s : PagingState}
  {request : DriverRequest} {steps n i : Nat}

/-- The loop is the one over a number of iterations, which is the count less one. -/
theorem codePagesLoop_eq (hn : i + n = (needed - 1).toNat) (hsteps : n < steps) :
    codePagesLoop pageDir buf needed steps (UInt32.ofNat i).toInt32 s = do
      let s ← allocateCodePages pageDir buf n i s
      return (n, s) := by
  have hlt := (needed - 1).toNat_lt
  induction n generalizing i s steps with
  | zero =>
    obtain ⟨steps, rfl⟩ := Nat.exists_eq_add_of_lt hsteps
    have htest : ¬ (UInt32.ofNat i).toInt32.toUInt32 < needed - 1 := by
      simp [UInt32.lt_iff_toNat_lt]
      omega
    rw [codePagesLoop, if_neg htest]
    rfl
  | succ n ih =>
    obtain ⟨steps, rfl⟩ := Nat.exists_eq_add_of_lt (Nat.zero_lt_of_lt hsteps)
    have htest : (UInt32.ofNat i).toInt32.toUInt32 < needed - 1 := by
      simp [UInt32.lt_iff_toNat_lt]
      omega
    have hnext : (UInt32.ofNat i).toInt32 + 1 = (UInt32.ofNat (i + 1)).toInt32 := by
      simp [UInt32.ofNat_add]
    rw [codePagesLoop, if_pos htest, allocateCodePages, UInt32.toUInt32_toInt32]
    cases hpage : pagingAllocateUserPageFrame pageDir (buf + UInt32.ofNat i * 0x400000) s with
    | error e => rfl
    | ok r =>
      obtain ⟨b, s₁⟩ := r
      simp only [ok_bind]
      rw [hnext, ih (by omega) (by omega)]
      cases allocateCodePages pageDir buf n (i + 1) s₁ with
      | error e => rfl
      | ok s₂ => rfl

/-- Allocations in a page directory of the list do not fail. -/
theorem pagingAllocateUserPageFrame_list (d : Fin 32) (addr : UInt32) (s : PagingState) :
    ∃ r, pagingAllocateUserPageFrame (.list d) addr s = .ok r := by
  unfold pagingAllocateUserPageFrame
  split
  · exact ⟨_, rfl⟩
  · exact ⟨_, rfl⟩

theorem allocateCodePages_list : ∃ s', allocateCodePages (.list d) buf n i s = .ok s' := by
  induction n generalizing i s with
  | zero => exact ⟨s, rfl⟩
  | succ n ih =>
    obtain ⟨⟨b, s₁⟩, hpage⟩ :=
      pagingAllocateUserPageFrame_list d (buf + UInt32.ofNat i * 0x400000) s
    obtain ⟨s', hs'⟩ := ih (i := i + 1) (s := s₁)
    refine ⟨s', ?_⟩
    rw [allocateCodePages, hpage]
    exact hs'

theorem loopRuns_iff : LoopRuns request n ↔ n = (pageFrameCountNeeded request - 1).toNat := by
  have hrun : ∀ d s, ∃ s', ∀ steps > (pageFrameCountNeeded request - 1).toNat,
      codePagesLoop (.list d) request.buf (pageFrameCountNeeded request) steps 0 s =
        .ok ((pageFrameCountNeeded request - 1).toNat, s') := by
    intro d s
    obtain ⟨s', hpages⟩ : ∃ s', allocateCodePages (.list d) request.buf
        (pageFrameCountNeeded request - 1).toNat 0 s = .ok s' := allocateCodePages_list
    refine ⟨s', fun steps hsteps => ?_⟩
    have hloop : codePagesLoop (.list d) request.buf _ steps 0 s = _ :=
      codePagesLoop_eq (Nat.zero_add (pageFrameCountNeeded request - 1).toNat) hsteps
    rw [hpages] at hloop
    exact hloop
  constructor
  · intro h
    obtain ⟨bound, hbound⟩ := h 0 .initial
    obtain ⟨s', hs'⟩ := hrun 0 .initial
    let steps := max bound ((pageFrameCountNeeded request - 1).toNat + 1)
    obtain ⟨s'', hs''⟩ := hbound steps (le_max_left ..)
    rw [hs' steps (lt_of_lt_of_le (Nat.lt_succ_self _) (le_max_right ..))] at hs''
    cases hs''
    rfl
  · rintro rfl d s
    obtain ⟨s', hs'⟩ := hrun d s
    exact ⟨_, fun steps hsteps => ⟨s', hs' steps hsteps⟩⟩

end Loop

/-! ## The check -/

/-- The pages of the executable and the page of the stack are more than a process may have, or more
than are free. -/
def TooManyPages (request : DriverRequest) (k : Kernel) : Prop :=
  8 < codePages request + 1 ∨ k.paging.freePageFrameCount.toNat < codePages request + 1

/-- A creation counts the pages of its executable exactly: it is refused when they are too many,
unless one of the checks before refuses it, and else its loop runs once for every page. -/
structure CountsPages (request : DriverRequest) (k : Kernel) : Prop where
  count : (pageFrameCountNeeded request).toNat = codePages request + 1
  refuses : k.activeProcessCount < processCountMax → request.buf < kernelVirtualAddressBase →
    TooManyPages request k → processCreateUserProcess request k = .ok (.failNotEnoughMemory, k)
  loops : ¬ TooManyPages request k → LoopRuns request (codePages request) ∧ codePages request ≤ 7

section Check
variable {request : DriverRequest} {k : Kernel}

/-- With an exact count the check for memory is the one for too many pages. -/
theorem checkCreate_tooMany (hcount : (pageFrameCountNeeded request).toNat = codePages request + 1)
    (hmax : k.activeProcessCount < processCountMax) (hbuf : request.buf < kernelVirtualAddressBase)
    (htoo : TooManyPages request k) : checkCreate request k = some .failNotEnoughMemory := by
  have hpages : (!pagingAllocateCheck (pageFrameCountNeeded request) k.paging ||
      decide (pageFrameCountNeeded request > 8)) = true := by
    rw [pagingAllocateCheck, Bool.or_eq_true, Bool.not_eq_true', decide_eq_false_iff_not,
      decide_eq_true_eq, UInt32.le_iff_toNat_le, gt_iff_lt, UInt32.lt_iff_toNat_lt, hcount]
    simp only [UInt32.reduceToNat]
    rcases htoo with htoo | htoo
    · exact .inr htoo
    · exact .inl (Nat.not_le.2 htoo)
  rw [checkCreate, if_neg (Int.not_le.2 hmax), if_neg (UInt32.not_le.2 hbuf), if_pos hpages]

/-- A creation counts the pages of its executable exactly up to the size at which the sums wrap
around. -/
theorem pageCount_exact_iff (request : DriverRequest) (k : Kernel) :
    CountsPages request k ↔ request.bufferSize.toNat ≤ 0xFF800000 := by
  constructor
  · intro h
    exact pageFrameCountNeeded_exact_iff.1 h.count
  · intro hsize
    have hcount := pageFrameCountNeeded_exact_iff.2 hsize
    refine ⟨hcount, fun hmax hbuf htoo => ?_, fun htoo => ⟨?_, ?_⟩⟩
    · rw [processCreateUserProcess, checkCreate_tooMany hcount hmax hbuf htoo]
    · have hone : (1 : UInt32) ≤ pageFrameCountNeeded request := by
        rw [UInt32.le_iff_toNat_le, hcount]
        exact Nat.le_add_left 1 _
      rw [loopRuns_iff, UInt32.toNat_sub_of_le _ _ hone, hcount, UInt32.toNat_one,
        Nat.add_sub_cancel]
    · unfold TooManyPages at htoo
      omega

/-- An executable of 4 GiB less one byte needs 1025 frames; the count is 1, and the check lets it
pass. -/
theorem pageCount_wraps : ∃ request k, codePages request + 1 = 1025 ∧
    (pageFrameCountNeeded request).toNat = 1 ∧ checkCreate request k = none ∧
    ¬ CountsPages request k := by
  have hsize : (sampleRequest 'A' 2 0xFFFFFFFF).bufferSize.toNat = 0xFFFFFFFF := rfl
  refine ⟨sampleRequest 'A' 2 0xFFFFFFFF, .initial blankFileSystem, ?_, ?_, ?_, ?_⟩
  · simp only [codePages_eq, hsize, Nat.reduceAdd, Nat.reduceDiv]
  · simp only [pageFrameCountNeeded_toNat, hsize, Nat.reduceAdd, Nat.reduceDiv, Nat.reducePow,
      Nat.reduceMod]
  · rfl
  · simp only [pageCount_exact_iff, hsize, Nat.reduceLeDiff, not_false_eq_true]

end Check

end OsKernel
