import OsKernel.Fat32.Lookup
import OsKernel.Memory.Directories
import OsKernel.Fat32.ReadBounds
import OsKernel.Process.PageCount
import OsKernel.Process.Restoration

/-!
# The pages of a new process

A creation allocates the pages of the executable one after the other from the page of `request.buf`
on, and the page of the stack last. The frames are the free ones in their order, and the one beyond
the map from there on (`MapsPages.entries`). So the pages that the executable and the stack need are
there when the number of pages was counted exactly, `buf` leaves no part of the executable to a page
more, the pages end below the kernel, and at most one of them has no free frame (`mapsRequest_iff`).
The first instruction is another matter: no function sets `eip`, and a new process starts at address
0 (`createdAsRequested_iff`).
-/

namespace OsKernel

open Lib

/-! ## Frames in their order -/

/-- The page frame that the allocation number `i` gets when the frames of `l` are free at first. -/
def frameAfter (l : List (Fin 32)) (i : Nat) : Fin 1024 := (l[i]?.map frameNumber).getD frameBeyond

section Frames
variable {l : List (Fin 32)} {i j : Nat} {s s' : PagingState} {d : Fin 32} {page : Fin 1024}

theorem frameAfter_drop {n : Nat} : frameAfter (l.drop n) i = frameAfter l (n + i) := by
  rw [frameAfter, frameAfter, List.getElem?_drop]

theorem frameAfter_tail : frameAfter l.tail i = frameAfter l (i + 1) := by
  rw [frameAfter, frameAfter, List.getElem?_tail]

theorem frameAfter_beyond (h : l.length ≤ i) : frameAfter l i = frameBeyond := by
  rw [frameAfter, List.getElem?_eq_none h]
  rfl

theorem frameAfter_of_lt (h : i < l.length) : frameAfter l i = frameNumber l[i] := by
  rw [frameAfter, List.getElem?_eq_getElem h]
  rfl

/-- Two allocations get the same frame only when both find none that is free. -/
theorem frameAfter_inj (hl : l.Nodup) (h : frameAfter l i = frameAfter l j) :
    i = j ∨ l.length ≤ i ∧ l.length ≤ j := by
  have hne : ∀ m : Fin 32, frameNumber m ≠ frameBeyond := by decide
  by_cases hi : i < l.length
  · by_cases hj : j < l.length
    · rw [frameAfter_of_lt hi, frameAfter_of_lt hj] at h
      exact .inl ((hl.getElem_inj_iff).1 (frameNumber_inj h))
    · rw [frameAfter_of_lt hi, frameAfter_beyond (not_lt.1 hj)] at h
      exact absurd h (hne _)
  · by_cases hj : j < l.length
    · rw [frameAfter_beyond (not_lt.1 hi), frameAfter_of_lt hj] at h
      exact absurd h.symm (hne _)
    · exact .inr ⟨not_lt.1 hi, not_lt.1 hj⟩

/-- As long as the counter promises a frame, an allocation puts one into the page directory. -/
theorem Allocates.entry (h : Allocates d page s s') (hcount : s.freePageFrameCount ≠ 0) :
    s'.pageDirectoryList d = Function.update (s.pageDirectoryList d) page
        ⟨.user, frameAfter s.freeFrames 0⟩ ∧
      s'.freeFrames = s.freeFrames.tail ∧
      s.freePageFrameCount.toNat ≤ s'.freePageFrameCount.toNat + 1 := by
  cases h with
  | none hzero => exact absurd hzero hcount
  | frame i _ hfree hfirst =>
    rw [freeFrames_mark hfree hfirst]
    refine ⟨Function.update_self .., rfl, ?_⟩
    show _ ≤ (s.freePageFrameCount - 1).toNat + 1
    rw [toNat_pred hcount]
    omega
  | beyond _ hfull =>
    have hnone : (s.assign d page frameBeyond).freeFrames = [] := freeFrames_full hfull
    rw [hnone, freeFrames_full hfull]
    refine ⟨Function.update_self .., rfl, ?_⟩
    show s.freePageFrameCount.toNat ≤ s.freePageFrameCount.toNat + 1
    omega

end Frames

/-! ## The page directory of a new process -/

theorem pageIndex_val (addr : UInt32) : (pageIndex addr).val = addr.toNat / 0x400000 := by
  have haddr := addr.toNat_lt
  show (addr >>> 22 &&& 0x3FF).toNat = _
  rw [UInt32.toNat_and, UInt32.toNat_shiftRight]
  simp only [UInt32.reduceToNat, Nat.reduceMod, Nat.shiftRight_eq_div_pow]
  rw [show (1023 : Nat) = 2 ^ 10 - 1 from rfl, Nat.and_two_pow_sub_one_eq_mod]
  omega

section Pages
variable {request : DriverRequest} {s s' : PagingState} {d : Fin 32} {buf : UInt32} {b n i : Nat}

/-- The pages that the loop allocates follow each other. -/
theorem pageIndex_add (hlt : buf.toNat / 0x400000 + i < 1024) :
    (pageIndex (buf + UInt32.ofNat i * 0x400000)).val = buf.toNat / 0x400000 + i := by
  rw [pageIndex_val, UInt32.toNat_add, UInt32.toNat_mul, UInt32.toNat_ofNat']
  simp only [UInt32.reduceToNat]
  omega

/-- The loop over the pages of an executable takes one frame after the other. -/
theorem allocateCodePages_entries
    (hpages : ∀ m < n, (pageIndex (buf + UInt32.ofNat (i + m) * 0x400000)).val = b + m)
    (hcount : n ≤ s.freePageFrameCount.toNat)
    (h : allocateCodePages (.list d) buf n i s = .ok s') :
    (∀ j, s'.pageDirectoryList d j = if b ≤ j.val ∧ j.val < b + n
        then ⟨.user, frameAfter s.freeFrames (j.val - b)⟩ else s.pageDirectoryList d j) ∧
      s'.freeFrames = s.freeFrames.drop n ∧
      s.freePageFrameCount.toNat ≤ s'.freePageFrameCount.toNat + n := by
  induction n generalizing i b s with
  | zero =>
    cases h
    exact ⟨fun j => (if_neg (by omega)).symm, rfl, le_rfl⟩
  | succ n ih =>
    obtain ⟨⟨found, s₁⟩, hpage, h⟩ := bind_eq_ok.1 h
    have hne : s.freePageFrameCount ≠ 0 := by
      intro hzero
      rw [hzero, UInt32.toNat_zero] at hcount
      omega
    obtain ⟨hdir, hframes, hless⟩ := (pagingAllocateUserPageFrame_spec hpage).entry hne
    have hfirst : (pageIndex (buf + UInt32.ofNat i * 0x400000)).val = b := hpages 0 (Nat.succ_pos n)
    obtain ⟨hentries, hrest, hcount'⟩ := ih (b := b + 1) (i := i + 1) (fun m hm => by
      rw [Nat.add_assoc, Nat.add_comm 1 m, hpages (m + 1) (by omega)]
      omega) (by omega) h
    refine ⟨fun j => ?_, ?_, by omega⟩
    · rw [hentries j, hdir, hframes, Function.update_apply]
      by_cases hj : j.val = b
      · have heq : j = pageIndex (buf + UInt32.ofNat i * 0x400000) := Fin.ext (hj.trans hfirst.symm)
        rw [if_neg (by omega), if_pos heq, if_pos (by omega), hj, Nat.sub_self]
      · have hne : j ≠ pageIndex (buf + UInt32.ofNat i * 0x400000) := by
          rintro rfl
          exact hj hfirst
        rw [if_neg hne, frameAfter_tail]
        by_cases hin : b + 1 ≤ j.val ∧ j.val < b + 1 + n
        · rw [if_pos hin, if_pos (by omega), show j.val - (b + 1) + 1 = j.val - b by omega]
        · rw [if_neg hin, if_neg (by omega)]
    · rw [hrest, hframes, ← List.drop_one, List.drop_drop, Nat.add_comm 1 n]

/-- What a creation puts into its page directory: the pages of the executable from page `b` on, and
the page of the stack. -/
theorem MapsPages.entries (h : MapsPages request d s s')
    (hb : request.buf.toNat / 0x400000 = b) (hn : (pageFrameCountNeeded request - 1).toNat = n)
    (hlt : b + n ≤ 1024) (hcount : n < s.freePageFrameCount.toNat) (j : Fin 1024) :
    s'.pageDirectoryList d j = if j = 0x2FF then ⟨.user, frameAfter s.freeFrames n⟩
      else if b ≤ j.val ∧ j.val < b + n then ⟨.user, frameAfter s.freeFrames (j.val - b)⟩
      else PagingState.kernelEntries (clearPresent (s.pageDirectoryList d)) j := by
  obtain ⟨s₁, hcode, hstack⟩ := h.pages
  rw [hn] at hcode
  have hpages :
      ∀ m < n, (pageIndex (request.buf + UInt32.ofNat (0 + m) * 0x400000)).val = b + m := by
    intro m hm
    rw [Nat.zero_add, pageIndex_add (by omega), hb]
  obtain ⟨hentries, hframes, hless⟩ :=
    allocateCodePages_entries (s := s.create d) hpages hcount.le hcode
  have hless : s.freePageFrameCount.toNat ≤ s₁.freePageFrameCount.toNat + n := hless
  have hne : s₁.freePageFrameCount ≠ 0 := by
    intro hzero
    rw [hzero, UInt32.toNat_zero] at hless
    omega
  have hframe : frameAfter s₁.freeFrames 0 = frameAfter s.freeFrames n := by
    rw [hframes, frameAfter_drop]
    rfl
  have hcreate : (s.create d).pageDirectoryList d =
      PagingState.kernelEntries (clearPresent (s.pageDirectoryList d)) := Function.update_self ..
  have hpage : pageIndex userStackAddr = 0x2FF := by decide
  rw [(hstack.entry hne).1, Function.update_apply, hpage, hframe, hentries j, hcreate]
  rfl

end Pages

/-! ## What a request asks for -/

/-- The page that a new process needs: it has a byte of the executable, or the first of the
stack. -/
def NeedsPage (request : DriverRequest) (esp : UInt32) (page : Nat) : Prop :=
  (∃ addr, request.buf.toNat ≤ addr ∧ addr < request.buf.toNat + request.bufferSize.toNat ∧
    addr / pageFrameSize = page) ∨ esp.toNat / pageFrameSize = page

/-- The page directory maps the pages that the request asks for to user pages on frames of their
own, no user page is one of the kernel's half, and the entries of the kernel are those of
`created`. -/
structure MapsRequest (request : DriverRequest) (esp : UInt32) (created dir : PageDirectory) :
    Prop where
  mapped : ∀ page, NeedsPage request esp page → ∃ j f, j.val = page ∧ (dir j).mapsUser f
  distinct : ∀ i j f, NeedsPage request esp i.val → NeedsPage request esp j.val →
    (dir i).mapsUser f → (dir j).mapsUser f → i = j
  user : ∀ j f, (dir j).mapsUser f → j < 0x300
  kernel : ∀ j ∈ kernelPages, dir j = created j

/-- The pages are counted exactly, the last page of the executable is one that the loop allocates
(or the page of the stack behind them) and lies below the kernel, and all but one page find a free
frame. -/
structure PagesFit (request : DriverRequest) (s : PagingState) : Prop where
  count : request.bufferSize.toNat ≤ 0xFF800000
  covers : request.bufferSize = 0 ∨ request.buf.toNat / pageFrameSize + codePages request = 0x2FF ∨
    (request.buf.toNat + request.bufferSize.toNat) ⌈/⌉ pageFrameSize ≤
      request.buf.toNat / pageFrameSize + codePages request
  below : request.buf.toNat / pageFrameSize + codePages request ≤ 0x300
  frames : codePages request +
    (if request.buf.toNat / pageFrameSize + codePages request = 0x300 then 0 else 1) ≤
      s.freeFrames.length + 1

section Fits
variable {request : DriverRequest} {s s' : PagingState} {d : Fin 32} {esp : UInt32}
  {dir : PageDirectory} {b n : Nat} {l : List (Fin 32)}

/-- A request whose size makes the sums of the count wrap around needs a page of the kernel's
half. -/
theorem needsPage_wraps (hbuf : request.buf < kernelVirtualAddressBase)
    (hsize : ¬ request.bufferSize.toNat ≤ 0xFF800000) : NeedsPage request esp 0x302 := by
  rw [UInt32.lt_iff_toNat_lt] at hbuf
  have hbase : kernelVirtualAddressBase.toNat = 0xC0000000 := rfl
  exact .inl ⟨0xC0800000, by omega, by omega, rfl⟩

/-- The pages of the executable that the loop allocates are pages that the request needs. -/
theorem needsPage_code (hb : request.buf.toNat / 0x400000 = b) {j : Nat} (hlow : b ≤ j)
    (hhigh : j < b + codePages request) : NeedsPage request esp j := by
  rw [codePages_eq] at hhigh
  refine .inl ⟨max request.buf.toNat (j * 0x400000), Nat.le_max_left .., ?_, ?_⟩
  · omega
  · show max _ _ / 0x400000 = j
    omega

/-- No page that the request needs is behind the last page of the executable. -/
theorem needsPage_le (hb : request.buf.toNat / 0x400000 = b) {j : Nat}
    (hesp : esp.toNat / 0x400000 = 0x2FF) (h : NeedsPage request esp j) :
    j = 0x2FF ∨ request.bufferSize ≠ 0 ∧ b ≤ j ∧
      j < (request.buf.toNat + request.bufferSize.toNat) ⌈/⌉ pageFrameSize := by
  have hpred : pageFrameSize - 1 = 0x3FFFFF := rfl
  rw [Nat.ceilDiv_eq_add_pred_div, Nat.add_sub_assoc (by decide), hpred]
  rcases h with ⟨addr, hlow, hhigh, hpage⟩ | hpage
  · change addr / 0x400000 = j at hpage
    refine .inr ⟨fun hzero => ?_, ?_, ?_⟩
    · rw [hzero, UInt32.toNat_zero] at hhigh
      omega
    · omega
    · show j < _ / 0x400000
      omega
  · change esp.toNat / 0x400000 = j at hpage
    exact .inl (hpage.symm.trans hesp)

/-- A page behind the first one with a byte of the executable, if any byte is in it or behind it. -/
theorem needsPage_of_lt (hb : request.buf.toNat / 0x400000 = b) {j : Nat} (hlow : b < j)
    (hhigh : j < (request.buf.toNat + request.bufferSize.toNat) ⌈/⌉ pageFrameSize) :
    NeedsPage request esp j := by
  have hpred : pageFrameSize - 1 = 0x3FFFFF := rfl
  rw [Nat.ceilDiv_eq_add_pred_div, Nat.add_sub_assoc (by decide), hpred] at hhigh
  change j < _ / 0x400000 at hhigh
  refine .inl ⟨j * 0x400000, by omega, by omega, ?_⟩
  show j * 0x400000 / 0x400000 = j
  omega

/-- The executable ends on the page behind those that the loop allocates at the latest. -/
theorem lastPage_le (hb : request.buf.toNat / 0x400000 = b) :
    (request.buf.toNat + request.bufferSize.toNat) ⌈/⌉ pageFrameSize ≤
        b + codePages request + 1 := by
  have hpred : pageFrameSize - 1 = 0x3FFFFF := rfl
  rw [Nat.ceilDiv_eq_add_pred_div, Nat.add_sub_assoc (by decide), hpred, codePages_eq]
  show _ / 0x400000 ≤ _
  omega

/-- The user pages of a page directory that was laid out for `n` pages of code from page `b` on. -/
theorem mapsUser_entries {created : PageDirectory} (hcreated : ∀ j f, ¬ (created j).mapsUser f)
    (hdir : ∀ j : Fin 1024, dir j = if j = 0x2FF then ⟨.user, frameAfter l n⟩
      else if b ≤ j.val ∧ j.val < b + n then ⟨.user, frameAfter l (j.val - b)⟩ else created j)
    {j f : Fin 1024} : (dir j).mapsUser f ↔ j = 0x2FF ∧ frameAfter l n = f ∨
      j ≠ 0x2FF ∧ b ≤ j.val ∧ j.val < b + n ∧ frameAfter l (j.val - b) = f := by
  rw [hdir j]
  by_cases hstack : j = 0x2FF
  · simp [hstack, mapsUser_user]
  · by_cases hcode : b ≤ j.val ∧ j.val < b + n
    · simp [hstack, hcode, mapsUser_user]
    · rw [if_neg hstack, if_neg hcode]
      refine iff_of_false (hcreated j f) ?_
      rintro (⟨h, -⟩ | ⟨-, hlow, hhigh, -⟩)
      · exact hstack h
      · exact hcode ⟨hlow, hhigh⟩

/-- Two user pages on the same frame are two that found no free one. -/
theorem distinct_entries {created : PageDirectory} (hcreated : ∀ j f, ¬ (created j).mapsUser f)
    (hdir : ∀ j : Fin 1024, dir j = if j = 0x2FF then ⟨.user, frameAfter l n⟩
      else if b ≤ j.val ∧ j.val < b + n then ⟨.user, frameAfter l (j.val - b)⟩ else created j)
    (hl : l.Nodup) (hlength : n + (if b + n = 0x300 then 0 else 1) ≤ l.length + 1)
    {i j f : Fin 1024} (hi : (dir i).mapsUser f) (hj : (dir j).mapsUser f) : i = j := by
  have hval : ∀ j : Fin 1024, j ≠ 0x2FF → j.val ≠ 0x2FF := fun j h heq => h (Fin.ext heq)
  rw [mapsUser_entries hcreated hdir] at hi hj
  rcases hi with ⟨rfl, hi⟩ | ⟨hi', hilow, hihigh, hi⟩ <;>
    rcases hj with ⟨rfl, hj⟩ | ⟨hj', hjlow, hjhigh, hj⟩
  · rfl
  · have hne := hval j hj'
    rcases frameAfter_inj hl (hi.trans hj.symm) with heq | ⟨hn, hbeyond⟩
    · omega
    · split at hlength <;> omega
  · have hne := hval i hi'
    rcases frameAfter_inj hl (hi.trans hj.symm) with heq | ⟨hbeyond, hn⟩
    · omega
    · split at hlength <;> omega
  · rcases frameAfter_inj hl (hi.trans hj.symm) with heq | ⟨hbeyond, hbeyond'⟩
    · exact Fin.ext (by omega)
    · have hne := hval i hi'
      have hne' := hval j hj'
      refine Fin.ext ?_
      split at hlength <;> omega

/-- A page directory that was laid out for the pages of the executable has what the request asks for
only if the pages fit. -/
theorem MapsRequest.pagesFit {created : PageDirectory} (hm : MapsRequest request esp created dir)
    (hcreated : ∀ j f, ¬ (created j).mapsUser f)
    (hdir : ∀ j : Fin 1024, dir j = if j = 0x2FF then ⟨.user, frameAfter s.freeFrames n⟩
      else if b ≤ j.val ∧ j.val < b + n then ⟨.user, frameAfter s.freeFrames (j.val - b)⟩
      else created j)
    (hb : request.buf.toNat / pageFrameSize = b) (hlt : b < 0x300) (hn : codePages request = n)
    (hmax : n ≤ 7) (hesp : esp.toNat / pageFrameSize = 0x2FF)
    (hsize : request.bufferSize.toNat ≤ 0xFF800000) : PagesFit request s := by
  have hmaps := @mapsUser_entries _ _ _ _ _ hcreated hdir
  have hstack : (dir 0x2FF).mapsUser (frameAfter s.freeFrames n) := hmaps.2 (.inl ⟨rfl, rfl⟩)
  have hcode : ∀ m : Nat, b ≤ m → m < b + n → NeedsPage request esp m := fun m hlow hhigh =>
    needsPage_code hb hlow (by rw [hn]; exact hhigh)
  have hval : ∀ m (h : m < 1024), m ≠ 0x2FF → (⟨m, h⟩ : Fin 1024) ≠ 0x2FF := fun m _ hne heq =>
    hne (congrArg Fin.val heq)
  have hbelow : b + n ≤ 0x300 := by
    by_contra habove
    have hhigh : 0x300 < b + n := not_le.1 habove
    have h300 : (dir ⟨0x300, by omega⟩).mapsUser (frameAfter s.freeFrames (0x300 - b)) :=
      hmaps.2 (.inr ⟨hval _ _ (by omega), hlt.le, hhigh, rfl⟩)
    exact Nat.lt_irrefl 0x300 (hm.user _ _ h300)
  refine ⟨hsize, ?_, ?_, ?_⟩ <;> rw [hb, hn]
  · by_cases hzero : request.bufferSize = 0
    · exact .inl hzero
    by_cases hend : b + n = 0x2FF
    · exact .inr (.inl hend)
    refine .inr (.inr (not_lt.1 fun hmore => ?_))
    have hpos : n ≠ 0 := by
      have := toNat_ne_zero hzero
      rw [← hn, codePages_eq]
      omega
    obtain ⟨j, f, hj, hjmaps⟩ := hm.mapped _ (needsPage_of_lt hb (by omega) hmore)
    rcases hmaps.1 hjmaps with ⟨rfl, -⟩ | ⟨-, -, hhigh, -⟩
    · exact hend hj.symm
    · omega
  · exact hbelow
  · by_contra hfew
    -- the last page of the executable and the page of the stack have no free frame
    have hclash : ∀ m, b ≤ m → m < b + n → m ≠ 0x2FF → s.freeFrames.length ≤ m - b →
        s.freeFrames.length ≤ n → False := by
      intro m hlow hhigh hne hbeyond hbeyond'
      have hpage : (dir ⟨m, by omega⟩).mapsUser (frameAfter s.freeFrames n) := by
        rw [frameAfter_beyond hbeyond', ← frameAfter_beyond hbeyond]
        exact hmaps.2 (.inr ⟨hval _ _ hne, hlow, hhigh, rfl⟩)
      exact hval _ _ hne (hm.distinct _ _ _ (hcode m hlow hhigh) (.inr hesp) hpage hstack)
    split at hfew
    · exact hclash (b + n - 2) (by omega) (by omega) (by omega) (by omega) (by omega)
    · exact hclash (b + n - 1) (by omega) (by omega) (by omega) (by omega) (by omega)

/-- If the pages fit, it does. -/
theorem PagesFit.mapsRequest {created : PageDirectory} (hfit : PagesFit request s)
    (hcreated : ∀ j f, ¬ (created j).mapsUser f)
    (hdir : ∀ j : Fin 1024, dir j = if j = 0x2FF then ⟨.user, frameAfter s.freeFrames n⟩
      else if b ≤ j.val ∧ j.val < b + n then ⟨.user, frameAfter s.freeFrames (j.val - b)⟩
      else created j)
    (hb : request.buf.toNat / pageFrameSize = b) (hn : codePages request = n)
    (hesp : esp.toNat / pageFrameSize = 0x2FF) : MapsRequest request esp created dir := by
  obtain ⟨-, hcovers, hbelow, hframes⟩ := hfit
  rw [hb, hn] at hcovers hbelow hframes
  have hmaps := @mapsUser_entries _ _ _ _ _ hcreated hdir
  have hne : ∀ j : Fin 1024, 0x300 ≤ j.val → j ≠ 0x2FF := by
    intro j hj heq
    have hval : j.val = 0x2FF := congrArg Fin.val heq
    omega
  refine ⟨fun page hpage => ?_, fun i j f _ _ hi hj => distinct_entries hcreated hdir
    (nodup_matchesFrom ..) hframes hi hj, fun j f hj => ?_, fun j hj => ?_⟩
  · have hstack : page = 0x2FF → ∃ j f, j.val = page ∧ (dir j).mapsUser f := fun heq =>
      ⟨0x2FF, _, heq.symm, hmaps.2 (.inl ⟨rfl, rfl⟩)⟩
    by_cases h2FF : page = 0x2FF
    · exact hstack h2FF
    obtain ⟨hsize, hlow, hhigh⟩ := (needsPage_le hb hesp hpage).resolve_left h2FF
    have hlast : (request.buf.toNat + request.bufferSize.toNat) ⌈/⌉ pageFrameSize ≤ b + n ∨
        b + n = 0x2FF := (hcovers.resolve_left hsize).symm
    by_cases hin : page < b + n
    · refine ⟨⟨page, by omega⟩, _, rfl, hmaps.2 (.inr ⟨fun heq => h2FF (congrArg Fin.val heq),
        hlow, hin, rfl⟩)⟩
    · have hmore := lastPage_le hb
      omega
  · rcases hmaps.1 hj with ⟨rfl, -⟩ | ⟨-, -, hhigh, -⟩
    · exact Nat.lt_succ_self 0x2FF
    · exact Fin.lt_def.2 (lt_of_lt_of_le hhigh hbelow)
  · have hj300 := kernelPages_le hj
    rw [hdir j, if_neg (hne j hj300), if_neg (by omega)]

/-- A creation that passed the checks maps the pages that the request asks for exactly if they
fit. -/
theorem MapsPages.mapsRequest_iff (h : MapsPages request d s s')
    (hbuf : request.buf < kernelVirtualAddressBase)
    (hcount : pageFrameCountNeeded request ≤ s.freePageFrameCount)
    (hmax : pageFrameCountNeeded request ≤ 8) (hesp : esp.toNat / pageFrameSize = 0x2FF) :
    MapsRequest request esp (PagingState.kernelEntries (clearPresent (s.pageDirectoryList d)))
      (s'.pageDirectoryList d) ↔ PagesFit request s := by
  by_cases hsize : request.bufferSize.toNat ≤ 0xFF800000
  · have hcreated : ∀ j f,
        ¬ (PagingState.kernelEntries (clearPresent (s.pageDirectoryList d)) j).mapsUser f :=
      fun j f hj => not_mapsUser_clearPresent j (mapsUser_kernelEntries hj)
    have hexact := pageFrameCountNeeded_exact_iff.2 hsize
    have hn : (pageFrameCountNeeded request - 1).toNat = codePages request := by
      rw [toNat_pred fun hzero => by rw [hzero, UInt32.toNat_zero] at hexact; omega, hexact,
        Nat.add_sub_cancel]
    rw [UInt32.le_iff_toNat_le, hexact] at hcount hmax
    rw [UInt32.lt_iff_toNat_lt] at hbuf
    simp only [UInt32.reduceToNat] at hmax
    have hbase : kernelVirtualAddressBase.toNat = 0xC0000000 := rfl
    have hlt : request.buf.toNat / 0x400000 < 0x300 := by omega
    have hdir := h.entries rfl hn (by omega) hcount
    exact ⟨fun hm => hm.pagesFit hcreated hdir rfl hlt rfl (by omega) hesp hsize,
      fun hfit => hfit.mapsRequest hcreated hdir rfl rfl hesp⟩
  · constructor
    · intro hm
      obtain ⟨j, f, hj, hmaps⟩ := hm.mapped _ (needsPage_wraps hbuf hsize)
      have hlt : j.val < 0x300 := hm.user j f hmaps
      omega
    · intro hfit
      exact absurd hfit.count hsize

end Fits

/-! ## Where a new process starts -/

/-- The slots without a process are all zero. -/
def EmptySlots (k : Kernel) : Prop := ∀ i, k.state i = .terminated → k.processList i = .zero

section Slots
variable {k k' : Kernel} {i p : Fin 16} {d : Fin 32} {request : DriverRequest}
  {paging : PagingState} {fs : FileSystem} {pageDir : PageDirectoryPtr} {c : ProcessCall}
  {e : KernelEvent} {a : KernelAction}

/-- Slots without a process stay as they are. -/
theorem EmptySlots.keeps (h : EmptySlots k)
    (hslot : ∀ i, k'.state i = .terminated → k'.processList i = k.processList i) :
        EmptySlots k' := by
  intro i hi
  have hsame := hslot i hi
  rw [hsame]
  refine h i ?_
  rw [Kernel.state, ← hsame]
  exact hi

theorem EmptySlots.destroyed (h : EmptySlots k) : EmptySlots (k.destroyed i d) := by
  intro j hj
  rw [destroyed_processList]
  rw [destroyed_state] at hj
  split
  · rfl
  · next hne =>
    rw [if_neg hne] at hj
    exact h j hj

theorem EmptySlots.loading (h : EmptySlots k) : EmptySlots (k.loading request p d paging fs) := by
  refine h.keeps fun j hj => ?_
  rw [loading_state] at hj
  rw [loading_processList]
  split at hj
  · cases hj
  · next hne => rw [if_neg hne]

theorem EmptySlots.creates {code : ProcessCreateCode} (h : EmptySlots k)
    (hc : Creates request k code k') : EmptySlots k' := by
  cases hc with
  | refused => exact h
  | @created p d paging r =>
    have hloading : EmptySlots (k.loading request p d paging r.fs) := h.loading
    have hstarted : EmptySlots ((k.loading request p d paging r.fs).started p) := by
      refine hloading.keeps fun j hj => ?_
      rw [started_state, loading_state] at hj
      rw [started_processList]
      split at hj
      · cases hj
      · next hne => rw [if_neg hne]
    exact hstarted
  | @failed p i d d' paging r =>
    have hdestroyed : EmptySlots ((k.loading request p d paging r.fs).destroyed i d') :=
      h.loading.destroyed
    exact hdestroyed

theorem EmptySlots.calls (h : EmptySlots k) (hc : Calls k c k') : EmptySlots k' := by
  cases hc with
  | create hc => exact h.creates hc
  | destroy hd =>
    cases hd with
    | missing => exact h
    | destroyed => exact h.destroyed

theorem EmptySlots.tick (h : EmptySlots k) : EmptySlots k.tick :=
  h.keeps fun i _ => by rw [tick_processList]

theorem EmptySlots.saveFrame {frame : InterruptFrame} (h : EmptySlots k)
    (hp : k.state p = .running) :
    EmptySlots (k.saveFrame p frame) := by
  refine h.tick.keeps fun i hi => ?_
  rw [saveFrame_state] at hi
  refine Function.update_of_ne ?_ ..
  rintro rfl
  rw [hp] at hi
  cases hi

theorem EmptySlots.switched (h : EmptySlots k) (hs : Switched k k' i) : EmptySlots k' := by
  refine h.keeps fun j hj => ?_
  have hsame : k'.state j = k.state j := hj.trans ((hs.terminated j).1 hj).symm
  rw [hs.slot j, hsame]
  rfl

theorem EmptySlots.acts (h : EmptySlots k) (ha : Acts k a k') : EmptySlots k' := by
  cases ha with
  | call hc => exact h.calls hc
  | exit hc => exact h.calls hc
  | tick => exact h.tick
  | switch hi hs => exact (h.saveFrame hi).switched hs
  | firstSwitch hs => exact h.switched hs
  | files => exact h

/-- In every kernel that is reached the slots without a process are zero. -/
theorem emptySlots_run (hrun : Run ActionStep (fun _ _ => True) (.initial fs) k) :
    EmptySlots k := by
  have hboth : Orderly k ∧ EmptySlots k := by
    refine hrun.invariant (I := fun k => Orderly k ∧ EmptySlots k) ?_
      ⟨⟨consistent_initial fs, fun i hi => nomatch hi⟩, fun i _ => rfl⟩
    rintro a k k' ⟨ho, h⟩ - hstep
    exact ⟨ho.actionStep hstep, h.acts (ho.acts hstep)⟩
  exact hboth.2

/-- The process that a creation has put into slot `p` has the pages that the request asks for in its
page directory, with the entries of the kernel, and it starts at `request.buf`. -/
structure CreatedAsRequested (request : DriverRequest) (k k' : Kernel) (p : Fin 16) : Prop where
  pages : ∃ d, (k'.processList p).context.pageDirectory = .list d ∧
    MapsRequest request (k'.processList p).context.cpu.esp
      (PagingState.kernelEntries (clearPresent (k.paging.pageDirectoryList d)))
      (k'.paging.pageDirectoryList d)
  eip : (k'.processList p).context.cpu.eip = request.buf

/-- In every kernel that is reached, a process is created as its request asks for exactly if the
pages fit and the executable goes to address 0, which is where every new process starts. -/
theorem createdAsRequested_iff (hrun : Run ActionStep (fun _ _ => True) (.initial fs) k)
    (hcreate : processCreateUserProcess request k = .ok (.success, k')) :
    ∃ p, processListGetInactiveIndex k = some p ∧
      (CreatedAsRequested request k k' p ↔ PagesFit request k.paging ∧ request.buf = 0) := by
  have hempty := emptySlots_run hrun
  cases (orderly_run hrun).consistent.processCreateUserProcess_spec hcreate with
  | refused hcheck => exact absurd rfl (checkCreate_eq_some hcheck).1
  | @created p d paging r hr =>
    refine ⟨p, hr.slot, ?_⟩
    obtain ⟨-, hbuf, hcount, hmax⟩ := checkCreate_eq_none.1 hr.checked
    have hzero : k.processList p = .zero := hempty p (inactive_state hr.slot)
    have hnew :
      (((k.loading request p d paging r.fs).started p).useDirectory k.paging.cr3).processList p =
        ((k.processList p).fill k.nextPid request (.list d)).start := by
      show ((k.loading request p d paging r.fs).started p).processList p = _
      rw [started_processList, if_pos rfl, loading_processList, if_pos rfl]
    have heip :
        (((k.processList p).fill k.nextPid request (.list d)).start).context.cpu.eip = 0 := by
      rw [hzero]
      rfl
    have hpages := hr.mapped.mapsRequest_iff hbuf hcount hmax
      (show (0xBFFFFFFC : UInt32).toNat / pageFrameSize = 0x2FF from rfl)
    constructor
    · rintro ⟨⟨d', hd', hmaps⟩, heip'⟩
      rw [hnew] at hd' hmaps heip'
      obtain rfl : d = d' := PageDirectoryPtr.list.inj hd'
      exact ⟨hpages.1 hmaps, heip'.symm.trans heip⟩
    · rintro ⟨hfit, hbuf0⟩
      refine ⟨⟨d, ?_, ?_⟩, ?_⟩
      · rw [hnew]
        rfl
      · rw [hnew]
        exact hpages.2 hfit
      · rw [hnew, heip, hbuf0]

end Slots

/-! ### One executable -/

/-- On a new kernel there are pages for a process. -/
theorem allocates_initial (request : DriverRequest) :
    ∃ s, allocateProcessPages request .initial = .ok (.list 0, s) := by
  obtain ⟨s, hcode'⟩ : ∃ s, allocateCodePages (.list 0) request.buf
      (pageFrameCountNeeded request - 1).toNat 0 (PagingState.initial.create 0) = .ok s :=
    allocateCodePages_list
  obtain ⟨⟨b, s'⟩, hstack⟩ := pagingAllocateUserPageFrame_list 0 userStackAddr s
  have hcreate : pagingCreateNewPageDirectory .initial = (.list 0, PagingState.initial.create 0) :=
    rfl
  refine ⟨s', ?_⟩
  unfold allocateProcessPages
  rw [hcreate]
  dsimp only
  rw [hcode', ok_bind, hstack]
  rfl

/-- On a new kernel a process is created when the checks let it pass. -/
theorem creates_initial {fs : FileSystem} {request : DriverRequest} {r : ReadResult}
    (hcheck : checkCreate request (.initial fs) = none) (hread : read request fs = .ok r)
    (hcode : r.code = 0) :
    ∃ k', processCreateUserProcess request (.initial fs) = .ok (.success, k') := by
  obtain ⟨s', halloc⟩ := allocates_initial request
  exact ⟨_, processCreateUserProcess_created hcheck halloc (p := 0) rfl hread
    (fun h => nomatch h) hcode⟩

/-- An executable of one page at address 0 gets what it asks for. -/
theorem createdAsRequested_small : ∃ fs k',
    processCreateUserProcess (sampleRequest 'A' 2 3000) (.initial fs) = .ok (.success, k') ∧
      CreatedAsRequested (sampleRequest 'A' 2 3000) (.initial fs) k' 0 := by
  obtain ⟨fs, hread⟩ := exists_readable
  obtain ⟨r, hr, hcode⟩ := hread 0 3000
  have hr : read (sampleRequest 'A' 2 3000) fs = .ok r := hr
  obtain ⟨k', hcreate⟩ := creates_initial (by rfl) hr hcode
  have hrun : Run ActionStep (fun _ _ => True) (.initial fs) (.initial fs) := .refl
  obtain ⟨p, hp, hiff⟩ := createdAsRequested_iff hrun hcreate
  obtain rfl : 0 = p := Option.some.inj hp
  have hpages : codePages (sampleRequest 'A' 2 3000) = 1 := by
    rw [codePages_eq]
    rfl
  refine ⟨fs, k', hcreate, hiff.2 ⟨⟨by decide, .inr (.inr ?_), ?_, ?_⟩, rfl⟩⟩ <;> rw [hpages]
  · show (0 + 3000) ⌈/⌉ pageFrameSize ≤ 0 + 1
    rw [ceilDiv_le_iff_le_mul (by decide)]
    decide
  · decide
  · show 1 + 1 ≤ PagingState.initial.freeFrames.length + 1
    decide

/-- An executable of 4 MiB from the middle of a page on needs two pages and gets one, and the
process does not start at it. -/
theorem created_elsewhere : ∃ fs k',
    processCreateUserProcess { sampleRequest 'A' 2 0x400000 with buf := 0x600000 } (.initial fs) =
      .ok (.success, k') ∧
    ¬ CreatedAsRequested { sampleRequest 'A' 2 0x400000 with buf := 0x600000 }
        (.initial fs) k' 0 := by
  obtain ⟨fs, hread⟩ := exists_readable
  obtain ⟨r, hr, hcode⟩ := hread 0x600000 0x400000
  obtain ⟨k', hcreate⟩ := creates_initial (by rfl) hr hcode
  have hrun : Run ActionStep (fun _ _ => True) (.initial fs) (.initial fs) := .refl
  obtain ⟨p, hp, hiff⟩ := createdAsRequested_iff hrun hcreate
  obtain rfl : 0 = p := Option.some.inj hp
  refine ⟨fs, k', hcreate, fun h => ?_⟩
  exact absurd (hiff.1 h).2 (by decide)

end OsKernel
