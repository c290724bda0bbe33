import OsKernel.Memory.Paging

/-!
# What allocating and freeing user pages does

The operations of `paging.c` as relations between the data before and after. An allocation takes the
first free page frame, or none when the counter says that there is none, or a frame beyond the map
when the counter promises one that does not exist (`Allocates`). Freeing a page always clears page
frame 0: a page directory entry holds the number of a frame, and `paging_free_user_page_frame`
divides it by the size of one (`pagingFreeUserPageFrame_list`).
-/

namespace OsKernel

open Lib

/-! ## User pages -/

/-- The entry is present and gives user code access to the page frame `f`. -/
def PageDirectoryEntry.mapsUser (e : PageDirectoryEntry) (f : Fin 1024) : Prop :=
  e.flag.presentBit = true ∧ e.flag.userSupervisorBit = true ∧ e.lowerAddress = f

instance (e : PageDirectoryEntry) (f : Fin 1024) : Decidable (e.mapsUser f) :=
  inferInstanceAs (Decidable (_ ∧ _ ∧ _))

/-- The number of a page frame of the map, as page directory entries hold it. -/
def frameNumber (i : Fin 32) : Fin 1024 := i.castLE (by decide)

/-- The frame `PAGE_FRAME_MAX_COUNT`, the first one that the map does not cover. -/
def frameBeyond : Fin 1024 := 32

/-- The page frames that are free. -/
def PagingState.freeFrames (s : PagingState) : List (Fin 32) :=
  matchesFrom 0 fun i => !s.pageFrameMap i

section Entries
variable {dir : PageDirectory} {e : PageDirectoryEntry} {f f' : Fin 1024} {i j : Fin 32}

theorem mapsUser_user : (⟨.user, f⟩ : PageDirectoryEntry).mapsUser f' ↔ f = f' :=
  ⟨fun h => h.2.2, fun h => ⟨rfl, rfl, h⟩⟩

theorem not_mapsUser_supervisor : ¬ (⟨.supervisor, f⟩ : PageDirectoryEntry).mapsUser f' :=
  fun h => nomatch h.2.1

theorem not_mapsUser_clearPresent (j : Fin 1024) : ¬ (clearPresent dir j).mapsUser f :=
  fun h => nomatch h.1

/-- The entries of the kernel are no user pages. -/
theorem mapsUser_kernelEntries {j : Fin 1024} (h : (PagingState.kernelEntries dir j).mapsUser f) :
    (dir j).mapsUser f := by
  unfold PagingState.kernelEntries at h
  simp only [Function.update_apply] at h
  split at h
  · exact absurd h not_mapsUser_supervisor
  split at h
  · exact absurd h not_mapsUser_supervisor
  split at h
  · exact absurd h not_mapsUser_supervisor
  split at h
  · exact absurd h not_mapsUser_supervisor
  split at h
  · exact absurd h not_mapsUser_supervisor
  · exact h

theorem frameNumber_inj (h : frameNumber i = frameNumber j) : i = j :=
  Fin.ext (congrArg (fun f : Fin 1024 => f.val) h)

/-- The physical address of a frame gives its number back. -/
theorem pageIndex_frame {n : Nat} (hn : n < 1024) :
    pageIndex (UInt32.ofNat (n * pageFrameSize)) = ⟨n, hn⟩ := by
  refine Fin.ext ?_
  show (UInt32.ofNat (n * pageFrameSize) >>> 22 &&& 0x3FF).toNat = n
  rw [UInt32.toNat_and, UInt32.toNat_shiftRight, UInt32.toNat_ofNat']
  have hmod : n * pageFrameSize % 2 ^ 32 = n * pageFrameSize :=
    Nat.mod_eq_of_lt (by simp only [pageFrameSize]; omega)
  rw [hmod]
  show (n * 4194304) >>> 22 &&& 1023 = n
  rw [Nat.shiftRight_eq_div_pow, show (1023 : Nat) = 2 ^ 10 - 1 from rfl,
    Nat.and_two_pow_sub_one_eq_mod]
  omega

end Entries

/-! ## Allocating -/

theorem toNat_ne_zero {n : UInt32} (h : n ≠ 0) : n.toNat ≠ 0 :=
  fun heq => h (UInt32.toNat_inj.1 heq)

theorem toNat_pred {n : UInt32} (h : n ≠ 0) : (n - 1).toNat = n.toNat - 1 := by
  have hpos : (1 : UInt32) ≤ n := by
    rw [UInt32.le_iff_toNat_le]
    exact Nat.one_le_iff_ne_zero.2 (toNat_ne_zero h)
  rw [UInt32.toNat_sub_of_le _ _ hpos]
  rfl

/-- The data after the entry of page `j` in the page directory `d` has got a user page. -/
def PagingState.assign (s : PagingState) (d : Fin 32) (j f : Fin 1024) : PagingState :=
  s.setDir (.list d) (Function.update (s.pageDirectoryList d) j ⟨.user, f⟩)

/-- The data after a page frame was marked. -/
def PagingState.mark (s : PagingState) (i : Fin 32) : PagingState :=
  { s with
    pageFrameMap := Function.update s.pageFrameMap i true
    freePageFrameCount := s.freePageFrameCount - 1 }

/-- What an allocation for page `j` of the page directory `d` can do. -/
inductive Allocates (d : Fin 32) (j : Fin 1024) (s : PagingState) : PagingState → Prop
  | none : s.freePageFrameCount = 0 → Allocates d j s s
  | frame (i : Fin 32) : s.freePageFrameCount ≠ 0 → s.pageFrameMap i = false →
      (∀ i' < i, s.pageFrameMap i' = true) → Allocates d j s ((s.mark i).assign d j (frameNumber i))
  | beyond : s.freePageFrameCount ≠ 0 → (∀ i, s.pageFrameMap i = true) →
      Allocates d j s (s.assign d j frameBeyond)

section Allocate
variable {s s' : PagingState} {d : Fin 32} {b : Bool} {addr buf : UInt32} {dir : PageDirectory}
  {pageDir : PageDirectoryPtr}

@[simp] theorem pageFrameMap_setDir : (s.setDir pageDir dir).pageFrameMap = s.pageFrameMap := by
  cases pageDir <;> rfl

@[simp] theorem freePageFrameCount_setDir :
    (s.setDir pageDir dir).freePageFrameCount = s.freePageFrameCount := by
  cases pageDir <;> rfl

theorem getDir_mark {i : Fin 32} : (s.mark i).getDir pageDir = s.getDir pageDir := by
  cases pageDir <;> rfl

theorem getDir_setDir {dir' : PageDirectory} (h : s.getDir pageDir = .ok dir) :
    (s.setDir pageDir dir').getDir pageDir = .ok dir' := by
  cases pageDir with
  | null => cases h
  | kernel => rfl
  | list d =>
    show Except.ok (Function.update s.pageDirectoryList d dir' d) = _
    rw [Function.update_self]

theorem updatePageDirectoryEntry_list {physicalAddr virtualAddr : UInt32} :
    updatePageDirectoryEntry (.list d) physicalAddr virtualAddr .user s =
      .ok (s.assign d (pageIndex virtualAddr) (pageIndex physicalAddr)) := rfl

/-- The loop takes the first free frame. -/
theorem takePageFrame_spec :
    (∃ i, s.pageFrameMap i = false ∧ (∀ i' < i, s.pageFrameMap i' = true) ∧
      takePageFrame s = (i.val, s.mark i)) ∨
    ((∀ i, s.pageFrameMap i = true) ∧ takePageFrame s = (pageFrameMaxCount, s)) := by
  unfold takePageFrame
  split
  · next i hfind =>
    rw [findFrom_eq_some] at hfind
    refine .inl ⟨i, by simpa using hfind.2.1, fun i' hi' => ?_, rfl⟩
    simpa using hfind.2.2 i' hi' (Nat.zero_le _)
  · next hfind =>
    rw [findFrom_eq_none] at hfind
    exact .inr ⟨fun i => by simpa using hfind i (Nat.zero_le _), rfl⟩

theorem pagingAllocateCheck_one : pagingAllocateCheck 1 s = true ↔ s.freePageFrameCount ≠ 0 := by
  unfold pagingAllocateCheck
  rw [decide_eq_true_eq, ne_eq, ← UInt32.toNat_inj, UInt32.le_iff_toNat_le]
  simp only [UInt32.reduceToNat]
  omega

/-- What an allocation in any page directory does. -/
theorem pagingAllocateUserPageFrame_any
    (h : pagingAllocateUserPageFrame pageDir addr s = .ok (b, s')) :
    b = false ∧ s.freePageFrameCount = 0 ∧ s' = s ∨
      b = true ∧ s.freePageFrameCount ≠ 0 ∧ ∃ dir, s.getDir pageDir = .ok dir ∧
        ((∃ i, s.pageFrameMap i = false ∧ (∀ i' < i, s.pageFrameMap i' = true) ∧
            s' = (s.mark i).setDir pageDir
              (Function.update dir (pageIndex addr) ⟨.user, frameNumber i⟩)) ∨
          (∀ i, s.pageFrameMap i = true) ∧ s' = s.setDir pageDir
            (Function.update dir (pageIndex addr) ⟨.user, frameBeyond⟩)) := by
  unfold pagingAllocateUserPageFrame at h
  split at h
  · next hcheck =>
    cases h
    refine .inl ⟨rfl, Classical.not_not.1 fun hcount => ?_, rfl⟩
    rw [pagingAllocateCheck_one.2 hcount] at hcheck
    cases hcheck
  · next hcheck =>
    have hcount : s.freePageFrameCount ≠ 0 := by
      rw [← pagingAllocateCheck_one]
      simpa using hcheck
    rcases takePageFrame_spec (s := s) with ⟨i, hfree, hfirst, htake⟩ | ⟨hfull, htake⟩
    · rw [htake] at h
      obtain ⟨s₁, hupdate, h⟩ := bind_eq_ok.1 h
      obtain ⟨dir, hdir, hupdate⟩ := bind_eq_ok.1 hupdate
      rw [getDir_mark] at hdir
      rw [pageIndex_frame (by omega)] at hupdate
      cases hupdate
      cases h
      exact .inr ⟨rfl, hcount, dir, hdir, .inl ⟨i, hfree, hfirst, rfl⟩⟩
    · rw [htake] at h
      obtain ⟨s₁, hupdate, h⟩ := bind_eq_ok.1 h
      obtain ⟨dir, hdir, hupdate⟩ := bind_eq_ok.1 hupdate
      rw [pageIndex_frame (by decide)] at hupdate
      cases hupdate
      cases h
      exact .inr ⟨rfl, hcount, dir, hdir, .inr ⟨hfull, rfl⟩⟩

/-- An allocation in a page directory of the list. -/
theorem pagingAllocateUserPageFrame_spec
    (h : pagingAllocateUserPageFrame (.list d) addr s = .ok (b, s')) :
    Allocates d (pageIndex addr) s s' := by
  rcases pagingAllocateUserPageFrame_any h with ⟨-, hcount, rfl⟩ | ⟨-, hcount, dir, hdir, hcase⟩
  · exact .none hcount
  · cases hdir
    rcases hcase with ⟨i, hfree, hfirst, rfl⟩ | ⟨hfull, rfl⟩
    · exact .frame i hcount hfree hfirst
    · exact .beyond hcount hfull

/-- An allocation takes the first free frame. -/
theorem pagingAllocateUserPageFrame_frame {i : Fin 32} (hcount : s.freePageFrameCount ≠ 0)
    (hfree : s.pageFrameMap i = false) (hfirst : ∀ i' < i, s.pageFrameMap i' = true) :
    pagingAllocateUserPageFrame (.list d) addr s =
      .ok (true, (s.mark i).assign d (pageIndex addr) (frameNumber i)) := by
  have htake : takePageFrame s = (i.val, s.mark i) := by
    rcases takePageFrame_spec (s := s) with ⟨i', hfree', hfirst', htake⟩ | ⟨hfull, _⟩
    · rcases lt_trichotomy i i' with hlt | rfl | hlt
      · rw [hfirst' i hlt] at hfree
        cases hfree
      · exact htake
      · rw [hfirst i' hlt] at hfree'
        cases hfree'
    · rw [hfull i] at hfree
      cases hfree
  unfold pagingAllocateUserPageFrame
  rw [pagingAllocateCheck_one.2 hcount, htake]
  dsimp only
  rw [updatePageDirectoryEntry_list, pageIndex_frame (by omega)]
  rfl

/-- The first free frame heads the list of free frames, and is not on it when it is marked. -/
theorem freeFrames_mark {i : Fin 32} (hfree : s.pageFrameMap i = false)
    (hfirst : ∀ i' < i, s.pageFrameMap i' = true) : s.freeFrames = i :: (s.mark i).freeFrames := by
  have hfind : findFrom 0 (fun i => !s.pageFrameMap i) = some i := by
    refine findFrom_eq_some.2 ⟨Nat.zero_le _, by rw [hfree]; rfl, fun j hj _ => ?_⟩
    rw [hfirst j hj]
    rfl
  rw [findFrom_eq_head?] at hfind
  obtain ⟨l, hl⟩ := List.head?_eq_some_iff.1 hfind
  have hrest : (s.mark i).freeFrames = l := by
    refine matchesFrom_erase hl fun j => ?_
    show (!Function.update s.pageFrameMap i true j) = _
    rw [Function.update_apply]
    by_cases hj : j = i
    · simp [hj]
    · simp [hj]
  rw [hrest]
  exact hl

theorem freeFrames_full (h : ∀ i, s.pageFrameMap i = true) : s.freeFrames = [] := by
  refine List.eq_nil_iff_forall_not_mem.2 fun i hi => ?_
  have := (mem_matchesFrom.1 hi).2
  rw [h i] at this
  cases this

/-- Nothing but the entries of one page directory, the frame map and its counter differs. -/
structure OnlyDirectory (d : Fin 32) (s s' : PagingState) : Prop where
  kernel : s'.kernelPageDirectory = s.kernelPageDirectory
  used : s'.pageDirectoryUsed = s.pageDirectoryUsed
  cr3 : s'.cr3 = s.cr3
  other : ∀ d' ≠ d, s'.pageDirectoryList d' = s.pageDirectoryList d'
  marked : ∀ i, s.pageFrameMap i = true → s'.pageFrameMap i = true

theorem OnlyDirectory.refl : OnlyDirectory d s s :=
  ⟨rfl, rfl, rfl, fun _ _ => rfl, fun _ => id⟩

theorem OnlyDirectory.trans {s'' : PagingState} (h : OnlyDirectory d s s')
    (h' : OnlyDirectory d s' s'') : OnlyDirectory d s s'' where
  kernel := h'.kernel.trans h.kernel
  used := h'.used.trans h.used
  cr3 := h'.cr3.trans h.cr3
  other d' hd := (h'.other d' hd).trans (h.other d' hd)
  marked i hi := h'.marked i (h.marked i hi)

theorem onlyDirectory_assign {j f : Fin 1024} : OnlyDirectory d s (s.assign d j f) where
  kernel := rfl
  used := rfl
  cr3 := rfl
  other _ hd := Function.update_of_ne hd ..
  marked _ := id

theorem onlyDirectory_mark {i : Fin 32} : OnlyDirectory d s (s.mark i) where
  kernel := rfl
  used := rfl
  cr3 := rfl
  other _ _ := rfl
  marked j hj := by
    show Function.update s.pageFrameMap i true j = true
    rw [Function.update_apply]
    split
    · rfl
    · exact hj

theorem Allocates.onlyDirectory {j : Fin 1024} (h : Allocates d j s s') : OnlyDirectory d s s' := by
  cases h with
  | none => exact .refl
  | frame => exact onlyDirectory_mark.trans onlyDirectory_assign
  | beyond => exact onlyDirectory_assign

/-- The user pages after an entry was assigned. -/
theorem mapsUser_assign {j j' f f' : Fin 1024} :
    ((s.assign d j f).pageDirectoryList d j').mapsUser f' ↔
      if j' = j then f = f' else (s.pageDirectoryList d j').mapsUser f' := by
  show (Function.update s.pageDirectoryList d _ d j').mapsUser f' ↔ _
  rw [Function.update_self, Function.update_apply]
  split
  · exact mapsUser_user
  · rfl

end Allocate

/-! ## Freeing -/

/-- The data after `n` user pages were freed. -/
def PagingState.freePages (s : PagingState) (n : Nat) : PagingState :=
  { s with
    pageFrameMap := if n = 0 then s.pageFrameMap else Function.update s.pageFrameMap 0 false
    freePageFrameCount := s.freePageFrameCount + UInt32.ofNat n }

/-- The data after a page directory was freed. -/
def PagingState.release (s : PagingState) (d : Fin 32) : PagingState :=
  { s with
    pageDirectoryUsed := Function.update s.pageDirectoryUsed d false
    pageDirectoryList :=
      Function.update s.pageDirectoryList d (clearPresent (s.pageDirectoryList d)) }

/-- The data after a page directory was taken. -/
def PagingState.create (s : PagingState) (d : Fin 32) : PagingState :=
  { s with
    pageDirectoryUsed := Function.update s.pageDirectoryUsed d true
    pageDirectoryList := Function.update s.pageDirectoryList d
      (PagingState.kernelEntries (clearPresent (s.pageDirectoryList d))) }

section Free
variable {s s' : PagingState} {d : Fin 32} {addr : UInt32} {n : Nat} {j f : Fin 1024}

/-- Whatever frame the page is on, page frame 0 is cleared. -/
theorem pagingFreeUserPageFrame_list :
    pagingFreeUserPageFrame (.list d) addr s = .ok (true, s.freePages 1) := by
  have hindex : (s.pageDirectoryList d (pageIndex addr)).lowerAddress.val / pageFrameSize = 0 :=
    Nat.div_eq_of_lt (Nat.lt_trans (Fin.isLt _) (by decide))
  unfold pagingFreeUserPageFrame
  show (do
    let s ← clearPageFrame
      ((s.pageDirectoryList d (pageIndex addr)).lowerAddress.val / pageFrameSize) s
    _ : Except Fault (Bool × PagingState)) = _
  rw [hindex]
  rfl

theorem freePages_zero : s.freePages 0 = s := by
  unfold PagingState.freePages
  rw [if_pos rfl, show UInt32.ofNat 0 = 0 from rfl, UInt32.add_zero]

theorem freePages_succ : (s.freePages 1).freePages n = s.freePages (n + 1) := by
  have hmap : ((s.freePages 1).freePages n).pageFrameMap = (s.freePages (n + 1)).pageFrameMap := by
    show (if n = 0 then Function.update s.pageFrameMap 0 false
      else Function.update (Function.update s.pageFrameMap 0 false) 0 false) = _
    rw [Function.update_idem, ite_self]
    rfl
  have hcount : (s.freePages 1).freePageFrameCount + UInt32.ofNat n =
      s.freePageFrameCount + UInt32.ofNat (n + 1) := by
    rw [Nat.add_comm, UInt32.ofNat_add, ← UInt32.add_assoc]
    rfl
  unfold PagingState.freePages at hmap hcount ⊢
  rw [PagingState.mk.injEq]
  exact ⟨hmap, hcount, rfl, rfl, rfl, rfl⟩

/-- A new page directory is the first unused one of the list. -/
theorem pagingCreateNewPageDirectory_spec :
    pagingCreateNewPageDirectory s = (.null, s) ∨
      ∃ d, s.pageDirectoryUsed d = false ∧
          pagingCreateNewPageDirectory s = (.list d, s.create d) := by
  unfold pagingCreateNewPageDirectory
  split
  · exact .inl rfl
  · next i hfind => exact .inr ⟨i, by simpa using (findFrom_eq_some.1 hfind).2.1, rfl⟩

/-- A new page directory has no user pages. -/
theorem not_mapsUser_create : ¬ ((s.create d).pageDirectoryList d j).mapsUser f := by
  intro h
  have h : (Function.update s.pageDirectoryList d _ d j).mapsUser f := h
  rw [Function.update_self] at h
  exact not_mapsUser_clearPresent j (mapsUser_kernelEntries h)

end Free

end OsKernel
