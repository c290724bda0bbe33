import OsKernel.Fat32.ReadBounds
import OsKernel.Lib.Run
import OsKernel.Process.Lifecycle

/-!
# The page frames of the kernel

The kernel is mapped on the page frames 0 and 1, of which `page_frame_map` reserves only the first
one at the start, and every destruction gives that one up. A creation that takes one of the two maps
it for user code, unless it is undone or the page of the stack replaces the one that is on the
frame. As long as no creation takes them, no user page is on a frame of the kernel.
-/

namespace OsKernel

open Lib

/-! ## Isolated page directories -/

/-- The entry is no user page on a page frame of the kernel. -/
def PageDirectoryEntry.Safe (e : PageDirectoryEntry) : Prop := ¬ e.mapsUser 0 ∧ ¬ e.mapsUser 1

/-- No page of a page directory is a user page on a frame of the kernel, but for the pages of
`ex`. -/
structure IsolatedBut (ex : Fin 32 → Fin 1024 → Prop) (s : PagingState) : Prop where
  kernel : s.kernelPageDirectory = PagingState.initial.kernelPageDirectory
  list : ∀ d j, ¬ ex d j → (s.pageDirectoryList d j).Safe

/-- The page frames of the kernel are marked as used. -/
def KernelFramesMarked (s : PagingState) : Prop :=
  s.pageFrameMap 0 = true ∧ s.pageFrameMap 1 = true

/-- The exception of `IsolatedBut` that allows one page. -/
def onePage (d : Fin 32) (j : Fin 1024) : Fin 32 → Fin 1024 → Prop := fun d' j' => d' = d ∧ j' = j

section Isolated
variable {s s' : PagingState} {d : Fin 32} {j f : Fin 1024} {ex ex' : Fin 32 → Fin 1024 → Prop}
  {request : DriverRequest} {n : Nat}

theorem safe_user (h0 : f ≠ 0) (h1 : f ≠ 1) : (⟨.user, f⟩ : PageDirectoryEntry).Safe :=
  ⟨fun h => h0 (mapsUser_user.1 h), fun h => h1 (mapsUser_user.1 h)⟩

theorem IsolatedBut.mono (h : IsolatedBut ex s) (hex : ∀ d j, ex d j → ex' d j) :
    IsolatedBut ex' s :=
  ⟨h.kernel, fun d j hn => h.list d j fun he => hn (hex d j he)⟩

theorem isolated_initial : IsolatedBut ex .initial :=
  ⟨rfl, fun _ _ _ => ⟨(fun h => nomatch h.1), (fun h => nomatch h.1)⟩⟩

/-- An entry with another frame makes an exception unnecessary. -/
theorem IsolatedBut.assign (h : IsolatedBut ex s) (h0 : f ≠ 0) (h1 : f ≠ 1)
    (hex : ∀ d' j', ex d' j' → ¬ onePage d j d' j' → ex' d' j') :
    IsolatedBut ex' (s.assign d j f) where
  kernel := h.kernel
  list d' j' hn := by
    show (Function.update s.pageDirectoryList d _ d' j').Safe
    rw [Function.update_apply]
    split
    · next hd =>
      rw [Function.update_apply]
      split
      · exact safe_user h0 h1
      · next hj => exact h.list d j' fun he => hn (hex d' j' (hd ▸ he) fun hone => hj hone.2)
    · next hd => exact h.list d' j' fun he => hn (hex d' j' he fun hone => hd hone.1)

/-- An entry that is excepted may get any frame. -/
theorem IsolatedBut.assign_excepted (h : IsolatedBut ex s) (hj : ex d j) :
    IsolatedBut ex (s.assign d j f) where
  kernel := h.kernel
  list d' j' hn := by
    show (Function.update s.pageDirectoryList d _ d' j').Safe
    rw [Function.update_apply]
    split
    · next hd =>
      rw [Function.update_of_ne fun he => hn (by rw [hd, he]; exact hj)]
      exact h.list d j' (hd ▸ hn)
    · exact h.list d' j' hn

theorem IsolatedBut.mark {i : Fin 32} (h : IsolatedBut ex s) : IsolatedBut ex (s.mark i) :=
  ⟨h.kernel, h.list⟩

theorem IsolatedBut.freePages (h : IsolatedBut ex s) : IsolatedBut ex (s.freePages n) :=
  ⟨h.kernel, h.list⟩

/-- The pages of a page directory that was freed are no user pages. -/
theorem IsolatedBut.release (h : IsolatedBut ex s) (hex : ∀ d' j', ex d' j' → d' ≠ d → ex' d' j') :
    IsolatedBut ex' (s.release d) where
  kernel := h.kernel
  list d' j' hn := by
    show (Function.update s.pageDirectoryList d _ d' j').Safe
    rw [Function.update_apply]
    split
    · exact ⟨not_mapsUser_clearPresent j', not_mapsUser_clearPresent j'⟩
    · next hd => exact h.list d' j' fun he => hn (hex d' j' he hd)

theorem IsolatedBut.create (h : IsolatedBut ex s) : IsolatedBut ex (s.create d) where
  kernel := h.kernel
  list d' j' hn := by
    by_cases hd : d' = d
    · subst hd
      exact ⟨not_mapsUser_create, not_mapsUser_create⟩
    · show (Function.update s.pageDirectoryList d _ d' j').Safe
      rw [Function.update_of_ne hd]
      exact h.list d' j' hn

/-- Changes within one page directory touch no other one. -/
theorem IsolatedBut.onlyDirectory (h : IsolatedBut ex s) (ho : OnlyDirectory d s s') :
    IsolatedBut (fun d' j' => ex d' j' ∨ d' = d) s' where
  kernel := ho.kernel.trans h.kernel
  list d' j' hn := by
    rw [not_or] at hn
    rw [ho.other d' hn.2]
    exact h.list d' j' hn.1

/-- Whatever frame an allocation takes, only the page it is for can come to be on one of the
kernel's. -/
theorem IsolatedBut.allocates_any (h : IsolatedBut ex s) (ha : Allocates d j s s') :
    IsolatedBut (fun d' j' => ex d' j' ∨ onePage d j d' j') s' := by
  have h' : IsolatedBut (fun d' j' => ex d' j' ∨ onePage d j d' j') s := h.mono fun _ _ => .inl
  cases ha with
  | none => exact h'
  | frame => exact h'.mark.assign_excepted (.inr ⟨rfl, rfl⟩)
  | beyond => exact h'.assign_excepted (.inr ⟨rfl, rfl⟩)

theorem KernelFramesMarked.allocates (h : KernelFramesMarked s) (ha : Allocates d j s s') :
    KernelFramesMarked s' :=
  ⟨ha.onlyDirectory.marked 0 h.1, ha.onlyDirectory.marked 1 h.2⟩

/-- With the frames of the kernel marked an allocation takes another one. -/
theorem IsolatedBut.allocates (h : IsolatedBut ex s) (hm : KernelFramesMarked s)
    (ha : Allocates d j s s') (hex : ∀ d' j', ex d' j' →
      (s.freePageFrameCount ≠ 0 → ¬ onePage d j d' j') → ex' d' j') : IsolatedBut ex' s' := by
  cases ha with
  | none hcount => exact h.mono fun d' j' he => hex d' j' he fun hne => absurd hcount hne
  | frame i hcount hfree hfirst =>
    refine h.mark.assign ?_ ?_ fun d' j' he hone => hex d' j' he fun _ => hone
    · rintro heq
      rw [show i = 0 from frameNumber_inj (j := 0) heq, hm.1] at hfree
      cases hfree
    · rintro heq
      rw [show i = 1 from frameNumber_inj (j := 1) heq, hm.2] at hfree
      cases hfree
  | beyond hcount =>
    exact h.assign (by decide) (by decide) fun d' j' he hone => hex d' j' he fun _ => hone

end Isolated

/-! ## The pages of a new process -/

/-- The pages of a creation leave no user page on a frame of the kernel: these frames are marked; or
one of them is, and the first page, which gets the other one, is the page of the stack, too; or no
page is allocated. -/
def KeepsKernelFrames (request : DriverRequest) (s : PagingState) : Prop :=
  KernelFramesMarked s ∨
  ((s.pageFrameMap 0 = true ∨ s.pageFrameMap 1 = true) ∧
    pageIndex request.buf = pageIndex userStackAddr ∧ 2 ≤ pageFrameCountNeeded request) ∨
  s.freePageFrameCount = 0

section Pages
variable {s s' : PagingState} {d : Fin 32} {j : Fin 1024} {request : DriverRequest}
  {ex : Fin 32 → Fin 1024 → Prop}

/-- The first free frame is one of the kernel's unless these are marked. -/
theorem Allocates.marksKernelFrame (ha : Allocates d j s s') (hcount : s.freePageFrameCount ≠ 0)
    (hm : s.pageFrameMap 0 = true ∨ s.pageFrameMap 1 = true) : KernelFramesMarked s' := by
  cases ha with
  | none h => exact absurd h hcount
  | frame i _ hfree hfirst =>
    have hmark : ∀ i', (i' = i ∨ s.pageFrameMap i' = true) →
        Function.update s.pageFrameMap i true i' = true := by
      intro i' hi'
      rw [Function.update_apply]
      split
      · rfl
      · next hne => exact hi'.resolve_left hne
    refine ⟨hmark 0 ?_, hmark 1 ?_⟩
    · rcases eq_or_lt_of_le (Fin.zero_le i) with heq | hlt
      · exact .inl heq
      · exact .inr (hfirst 0 hlt)
    · rcases hm with hm | hm
      · have hpos : 0 < i := by
          rw [Fin.pos_iff_ne_zero]
          rintro rfl
          rw [hm] at hfree
          cases hfree
        rcases eq_or_lt_of_le (show (1 : Fin 32) ≤ i from hpos) with heq | hlt
        · exact .inl heq
        · exact .inr (hfirst 1 hlt)
      · exact .inr hm
  | beyond _ hfull => exact ⟨hfull 0, hfull 1⟩

/-- An allocation counts down by one at most. -/
theorem Allocates.count_le (ha : Allocates d j s s') :
    s.freePageFrameCount.toNat ≤ s'.freePageFrameCount.toNat + 1 := by
  cases ha with
  | none => exact Nat.le_succ _
  | frame i hcount =>
    show _ ≤ (s.freePageFrameCount - 1).toNat + 1
    have hpos : 1 ≤ s.freePageFrameCount := by
      rw [UInt32.le_iff_toNat_le]
      have : s.freePageFrameCount.toNat ≠ 0 := fun h => hcount (UInt32.toNat_inj.1 h)
      simp only [UInt32.reduceToNat]
      omega
    rw [UInt32.toNat_sub_of_le _ _ hpos]
    simp only [UInt32.reduceToNat]
    omega
  | beyond => exact Nat.le_succ _

/-- With the frames of the kernel marked a creation maps none of them. -/
theorem MapsPages.isolated_marked (h : MapsPages request d s s') (hs : IsolatedBut ex s)
    (hm : KernelFramesMarked s) : IsolatedBut ex s' := by
  refine (h.invariant (I := fun _ s => IsolatedBut ex s ∧ KernelFramesMarked s) ?_
    ⟨hs.create, hm⟩).1
  intro n j s s' ⟨hs, hm⟩ ha
  exact ⟨hs.allocates hm ha fun _ _ he _ => he, hm.allocates ha⟩

/-- With a counter of 0 a creation maps nothing. -/
theorem MapsPages.isolated_none (h : MapsPages request d s s') (hs : IsolatedBut ex s)
    (hcount : s.freePageFrameCount = 0) : IsolatedBut ex s' := by
  refine (h.invariant (I := fun _ s => IsolatedBut ex s ∧ s.freePageFrameCount = 0) ?_
    ⟨hs.create, hcount⟩).1
  intro n j s s' ⟨hs, hcount⟩ ha
  cases ha with
  | none => exact ⟨hs, hcount⟩
  | frame i hne => exact absurd hcount hne
  | beyond hne => exact absurd hcount hne

/-- The stack replaces the first page of the executable, the only one on a frame of the kernel. -/
theorem MapsPages.isolated_replaced (h : MapsPages request d s s') (hs : IsolatedBut ex s)
    (hm : s.pageFrameMap 0 = true ∨ s.pageFrameMap 1 = true)
    (hbuf : pageIndex request.buf = pageIndex userStackAddr)
    (htwo : 2 ≤ pageFrameCountNeeded request)
    (hcheck : pageFrameCountNeeded request ≤ s.freePageFrameCount) : IsolatedBut ex s' := by
  obtain ⟨s₂, hcode, hstack⟩ := h.pages
  have hneeded : 2 ≤ (pageFrameCountNeeded request).toNat := UInt32.le_iff_toNat_le.1 htwo
  have hcount : (pageFrameCountNeeded request).toNat ≤ (s.create d).freePageFrameCount.toNat :=
    UInt32.le_iff_toNat_le.1 hcheck
  obtain ⟨n, hn⟩ : ∃ n, (pageFrameCountNeeded request).toNat = n + 2 :=
    Nat.exists_eq_add_of_le' hneeded
  have hone : (1 : UInt32) ≤ pageFrameCountNeeded request :=
    UInt32.le_iff_toNat_le.2 ((by decide : (1 : UInt32).toNat ≤ 2).trans hneeded)
  have hpages : (pageFrameCountNeeded request - 1).toNat = n + 1 := by
    rw [UInt32.toNat_sub_of_le _ _ hone, hn]
    rfl
  rw [hpages, allocateCodePages] at hcode
  obtain ⟨⟨b, s₁⟩, hfirst, hcode⟩ := bind_eq_ok.1 hcode
  have hfirst := pagingAllocateUserPageFrame_spec hfirst
  have hzero : request.buf + UInt32.ofNat 0 * 0x400000 = request.buf := by
    rw [show UInt32.ofNat 0 = 0 from rfl, UInt32.zero_mul, UInt32.add_zero]
  rw [hzero, hbuf] at hfirst
  have hcount₁ := hfirst.count_le
  have hne : (s.create d).freePageFrameCount ≠ 0 := by
    intro heq
    rw [heq, UInt32.toNat_zero] at hcount
    omega
  -- from the first page on the frames of the kernel are marked, and only that page may be on one
  obtain ⟨hiso, hmarked, hleft⟩ := allocateCodePages_invariant
    (I := fun n s => IsolatedBut
      (fun d' j' => ex d' j' ∨ onePage d (pageIndex userStackAddr) d' j') s ∧
        KernelFramesMarked s ∧ n ≤ s.freePageFrameCount.toNat)
    (fun n j s s' hI ha => ⟨hI.1.allocates hI.2.1 ha fun _ _ he _ => he, hI.2.1.allocates ha, by
      have hn := hI.2.2
      have := ha.count_le
      omega⟩)
    hcode ⟨hs.create.allocates_any hfirst, hfirst.marksKernelFrame hne hm, by omega⟩
  refine hiso.allocates hmarked hstack fun d' j' he hone => he.resolve_right (hone fun heq => ?_)
  rw [heq, UInt32.toNat_zero] at hleft
  omega

theorem MapsPages.isolated (h : MapsPages request d s s') (hs : IsolatedBut ex s)
    (hcheck : pageFrameCountNeeded request ≤ s.freePageFrameCount)
    (hk : KeepsKernelFrames request s) : IsolatedBut ex s' := by
  rcases hk with hm | ⟨hm, hbuf, htwo⟩ | hcount
  · exact h.isolated_marked hs hm
  · exact h.isolated_replaced hs hm hbuf htwo hcheck
  · exact h.isolated_none hs hcount

end Pages

/-! ## Runs -/

/-- A creation that takes a frame of the kernel is undone. -/
def SparesKernelFrames : ProcessCall → Kernel → Prop
  | .create request, k => checkCreate request k = none →
      Undone request k ∨ KeepsKernelFrames request k.paging
  | .destroy _, _ => True

section Runs
variable {k k' : Kernel} {c : ProcessCall} {fs : FileSystem}

/-- A call that spares the frames of the kernel keeps the page directories isolated. -/
theorem isolated_calls (hs : IsolatedBut (fun _ _ => False) k.paging) (hc : Calls k c k')
    (hok : SparesKernelFrames c k) : IsolatedBut (fun _ _ => False) k'.paging := by
  cases hc with
  | @create request code k' hc =>
    cases hc with
    | refused => exact hs
    | @created p d paging r hr hcode =>
      have hcheck := checkCreate_eq_none.1 hr.checked
      have hk := (hok hr.checked).resolve_left fun hu => hr.not_undone hcode hu
      have hpaging := hr.mapped.isolated hs hcheck.2.2.1 hk
      exact ⟨hpaging.kernel, hpaging.list⟩
    | @failed p i d d' paging r hr hcode hfind hdir =>
      have hcheck := checkCreate_eq_none.1 hr.checked
      rcases hok hr.checked with hu | hk
      · -- the page directory that is freed is the one the new pages are in
        obtain ⟨rfl, rfl⟩ := hr.destroys_new hu hfind hdir
        have hpaging := hs.create.onlyDirectory hr.mapped.onlyDirectory
        have hlist (n : Nat) : IsolatedBut (fun _ _ => False) ((paging.freePages n).release d') :=
          hpaging.freePages.release fun _ _ he hne => he.elim id hne
        exact ⟨(hlist 0).kernel, (hlist 0).list⟩
      · have hpaging := hr.mapped.isolated hs hcheck.2.2.1 hk
        have hlist (n : Nat) : IsolatedBut (fun _ _ => False) ((paging.freePages n).release d') :=
          hpaging.freePages.release fun _ _ he _ => he
        exact ⟨(hlist 0).kernel, (hlist 0).list⟩
  | destroy hd =>
    cases hd with
    | missing => exact hs
    | destroyed => exact hs.freePages.release fun _ _ he _ => he

/-- The kernel's own page directory has no user pages. -/
theorem not_mapsUser_kernelPageDirectory {j f : Fin 1024} :
    ¬ (PagingState.initial.kernelPageDirectory j).mapsUser f := by
  intro h
  have h := mapsUser_kernelEntries h
  rw [Function.update_apply] at h
  split at h
  · exact not_mapsUser_supervisor h
  · exact nomatch h.1

theorem IsolatedBut.getDir {s : PagingState} {pageDir : PageDirectoryPtr} {dir : PageDirectory}
    (h : IsolatedBut (fun _ _ => False) s) (hdir : s.getDir pageDir = .ok dir) (j : Fin 1024) :
    (dir j).Safe := by
  cases pageDir with
  | null => cases hdir
  | kernel =>
    cases hdir
    rw [h.kernel]
    exact ⟨not_mapsUser_kernelPageDirectory, not_mapsUser_kernelPageDirectory⟩
  | list d =>
    cases hdir
    exact h.list d j id

/-- The kernel is mapped on the page frames 0 and 1, and in a run in which every creation spares
these frames no present entry that user code can access is on one of them, in any page directory. -/
theorem kernelFrames_isolated (hrun : Run CallStep SparesKernelFrames (.initial fs) k) :
    (k.paging.kernelPageDirectory 0x300).lowerAddress = 0 ∧
      (k.paging.kernelPageDirectory 0x301).lowerAddress = 1 ∧
      ∀ pageDir dir j, k.paging.getDir pageDir = .ok dir → (dir j).flag.presentBit = true →
        (dir j).flag.userSupervisorBit = true →
        (dir j).lowerAddress ≠ 0 ∧ (dir j).lowerAddress ≠ 1 := by
  obtain ⟨-, h⟩ : Consistent k ∧ IsolatedBut (fun _ _ => False) k.paging := by
    refine hrun.invariant (I := fun k => Consistent k ∧ IsolatedBut (fun _ _ => False) k.paging) ?_
      ⟨consistent_initial fs, isolated_initial⟩
    intro c k k' ⟨hk, hs⟩ hok hstep
    have hc := hk.callStep hstep
    exact ⟨hk.calls hc, isolated_calls hs hc hok⟩
  refine ⟨by rw [h.kernel]; rfl, by rw [h.kernel]; rfl, ?_⟩
  intro pageDir dir j hdir hpresent huser
  obtain ⟨h0, h1⟩ := h.getDir hdir j
  exact ⟨fun heq => h0 ⟨hpresent, huser, heq⟩, fun heq => h1 ⟨hpresent, huser, heq⟩⟩

end Runs

/-- The first process that is created gets page frame 1 for its stack. -/
theorem kernelFrame_mapped : ∃ fs k, CallStep (.create (sampleRequest 'A' 2 0)) (.initial fs) k ∧
    (k.paging.pageDirectoryList 0 (pageIndex userStackAddr)).flag = .user ∧
    (k.paging.pageDirectoryList 0 (pageIndex userStackAddr)).lowerAddress = 1 := by
  obtain ⟨fs, -, ⟨r, hread, hcode⟩, -⟩ := exists_executable
  have hrun := processCreateUserProcess_created (k := .initial fs) (p := 0) rfl rfl rfl hread
    (fun h => nomatch h) hcode
  exact ⟨fs, _, bind_eq_ok.2 ⟨_, hrun, rfl⟩, rfl, rfl⟩

/-- An executable for the page of the stack. -/
def stackRequest : DriverRequest := { sampleRequest 'A' 2 3000 with buf := 0xBFC00000 }

/-- The paging data after the first process took two frames: its stack has replaced its code. -/
def stackPaging : PagingState :=
  match allocateProcessPages stackRequest .initial with
  | .ok (_, paging) => paging
  | .error _ => .initial

/-- A process is created whose code lies on the page of its stack, and then one of one page: the
page frame of the kernel that the code was on is no user page. -/
theorem kernelFrames_isolated_stack : ∃ fs k₁ k₂,
    CallStep (.create stackRequest) (.initial fs) k₁ ∧
    CallStep (.create (sampleRequest 'A' 2 0)) k₁ k₂ ∧ k₂.state 0 = .new ∧ k₂.state 1 = .new ∧
    (k₂.paging.pageDirectoryList 0 (pageIndex userStackAddr)).mapsUser 2 ∧
      ∀ pageDir dir j, k₂.paging.getDir pageDir = .ok dir → (dir j).flag.presentBit = true →
        (dir j).flag.userSupervisorBit = true → (dir j).lowerAddress ≠ 1 := by
  obtain ⟨fs, hread⟩ := exists_readable
  obtain ⟨r, hr, hcode⟩ := hread 0xBFC00000 3000
  obtain ⟨r', hr', hcode'⟩ := hread 0 0
  have halloc : allocateProcessPages stackRequest .initial = .ok (.list 0, stackPaging) := rfl
  let k₁ := (((Kernel.initial fs).loading stackRequest 0 0 stackPaging r.fs).started 0)
    |>.useDirectory .kernel
  let k₂ := ((k₁.loadingOne (sampleRequest 'A' 2 0) 1 1 3 r'.fs).started 1).useDirectory .kernel
  have hcount : k₁.paging.freePageFrameCount = 29 := rfl
  have hfirst : CallStep (.create stackRequest) (.initial fs) k₁ :=
    callStep_create
      (processCreateUserProcess_created (by rfl) halloc rfl hr (fun h => nomatch h) hcode)
  have h₂ : FindsOne (sampleRequest 'A' 2 0) k₁ 1 1 3 :=
    ⟨checkCreate_eq_none.2 ⟨(by decide : (1 : Int) < 16), by decide, by rw [hcount]; decide,
      by decide⟩, rfl, rfl, rfl, rfl, rfl⟩
  have hsecond : CallStep (.create (sampleRequest 'A' 2 0)) k₁ k₂ :=
    callStep_create (h₂.created ((read_read hr).trans hr') hcode')
  have hok : SparesKernelFrames (.create stackRequest) (.initial fs) :=
    fun _ => .inr (.inr (.inl ⟨.inl rfl, by decide, by decide⟩))
  have hok₁ : SparesKernelFrames (.create (sampleRequest 'A' 2 0)) k₁ :=
    fun _ => .inr (.inl ⟨rfl, rfl⟩)
  have hrun := (Run.single hok hfirst).tail hok₁ hsecond
  refine ⟨fs, k₁, k₂, hfirst, hsecond, rfl, rfl, ⟨rfl, rfl, rfl⟩,
    fun pageDir dir j hdir hpresent huser => ?_⟩
  exact ((kernelFrames_isolated hrun).2.2 pageDir dir j hdir hpresent huser).2

end OsKernel
