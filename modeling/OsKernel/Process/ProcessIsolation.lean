import OsKernel.Fat32.Read
import OsKernel.Lib.Exclusive
import OsKernel.Lib.Run
import OsKernel.Process.Lifecycle

/-!
# The page frames of processes

No page frame is the user page of two processes, or two user pages of one, as long as every creation
takes frames of its own (`TakesOwnFrames`). The frame map keeps the processes apart as far as it
goes: a frame that a process maps is marked, all but page frame 0, which every destruction clears.
So a creation may get frame 0 while a process still has it, and when the counter promises more
frames than there are it gets the frame beyond the map more than once.
-/

namespace OsKernel

open Lib

/-! ## User pages of processes -/

/-- The process in slot `i` has page frame `f` at page `j`, accessible to user code. -/
def Kernel.userPage (k : Kernel) (i : Fin 16) (j f : Fin 1024) : Prop :=
  ∃ d, (k.processList i).context.pageDirectory = .list d ∧
    (k.paging.pageDirectoryList d j).mapsUser f

/-- The user pages of the processes, but for that in slot `p`. -/
def pagesBut (p : Option (Fin 16)) (k : Kernel) (i : Fin 16) (j f : Fin 1024) : Prop :=
  some i ≠ p ∧ k.state i ≠ .terminated ∧ k.userPage i j f

/-- The processes, but for that in slot `p`, have page frames of their own, and all of these but
page frame 0 are marked. -/
structure FramesApart (p : Option (Fin 16)) (k : Kernel) : Prop where
  exclusive : Exclusive (pagesBut p k)
  marked : ∀ i j f, pagesBut p k i j f → ∃ m, f = frameNumber m ∧
    (m ≠ 0 → k.paging.pageFrameMap m = true)

/-- A creation gets frames of its own: page frame 0 is marked when a process has it, if any frame is
taken at all, and no more frames are taken than are free. -/
def TakesOwnFrames (request : DriverRequest) (k : Kernel) : Prop :=
  (k.paging.freePageFrameCount = 0 ∨ k.paging.pageFrameMap 0 = true ∨
    ∀ i j, k.state i ≠ .terminated → ¬ k.userPage i j (frameNumber 0)) ∧
  min (pageAttempts request) k.paging.freePageFrameCount.toNat ≤ k.paging.freeFrames.length

/-! ## The pages of a new process -/

/-- The user pages of the page directory `d` in `s'` are on different frames, each of which was free
in `s` and is marked. -/
structure OwnPages (d : Fin 32) (s s' : PagingState) : Prop where
  inj : ∀ j j' f, (s'.pageDirectoryList d j).mapsUser f → (s'.pageDirectoryList d j').mapsUser f →
    j = j'
  taken : ∀ j f, (s'.pageDirectoryList d j).mapsUser f → s.freePageFrameCount ≠ 0 ∧
    ∃ m, f = frameNumber m ∧ s.pageFrameMap m = false ∧ s'.pageFrameMap m = true

section Pages
variable {s s₀ s' : PagingState} {d : Fin 32} {j : Fin 1024} {request : DriverRequest} {n : Nat}

/-- No more frames are taken than are free: the next `n` allocations find one, or the counter is
0. -/
structure Taking (d : Fin 32) (s₀ s : PagingState) (n : Nat) : Prop where
  own : OwnPages d s₀ s
  only : OnlyDirectory d s₀ s
  zero : s₀.freePageFrameCount = 0 → s.freePageFrameCount = 0
  enough : min n s.freePageFrameCount.toNat ≤ s.freeFrames.length

/-- An allocation that finds a free frame gives the page a frame of its own. -/
theorem Taking.allocates (h : Taking d s₀ s (n + 1)) (ha : Allocates d j s s') :
    Taking d s₀ s' n := by
  have honly := h.only.trans ha.onlyDirectory
  cases ha with
  | none hcount => exact ⟨h.own, h.only, h.zero, (by rw [hcount]; simp)⟩
  | frame i hcount hfree hfirst =>
    have hfree₀ : s₀.pageFrameMap i = false := by
      rw [← Bool.not_eq_true]
      intro hmarked
      rw [h.only.marked i hmarked] at hfree
      cases hfree
    have hmark : ((s.mark i).assign d j (frameNumber i)).pageFrameMap i = true :=
      Function.update_self ..
    -- a page that was there before is on a marked frame, so on another one
    have hother : ∀ j', ¬ (s.pageDirectoryList d j').mapsUser (frameNumber i) := by
      intro j' hj'
      obtain ⟨-, m, hm, -, hmarked⟩ := h.own.taken j' _ hj'
      rw [← frameNumber_inj hm, hfree] at hmarked
      cases hmarked
    refine ⟨⟨fun a b f ha hb => ?_, fun a f ha => ?_⟩, honly, fun h0 => absurd (h.zero h0) hcount,
      ?_⟩
    · rw [mapsUser_assign] at ha hb
      split at ha <;> split at hb
      · next hja hjb => rw [hja, hjb]
      · exact absurd (ha ▸ hb) (hother b)
      · exact absurd (hb ▸ ha) (hother a)
      · exact h.own.inj a b f ha hb
    · rw [mapsUser_assign] at ha
      split at ha
      · exact ⟨fun h0 => hcount (h.zero h0), i, ha.symm, hfree₀, hmark⟩
      · obtain ⟨h0, m, hm, hf, hmarked⟩ := h.own.taken a f ha
        exact ⟨h0, m, hm, hf, (onlyDirectory_mark (d := d)).marked m hmarked⟩
    · have hlen := congrArg List.length (freeFrames_mark hfree hfirst)
      have henough := h.enough
      have hpred : ((s.mark i).assign d j (frameNumber i)).freePageFrameCount.toNat =
          s.freePageFrameCount.toNat - 1 := toNat_pred hcount
      have hfrees : ((s.mark i).assign d j (frameNumber i)).freeFrames = (s.mark i).freeFrames :=
        rfl
      rw [List.length_cons] at hlen
      rw [hpred, hfrees]
      omega
  | beyond hcount hfull =>
    have henough := h.enough
    rw [freeFrames_full hfull] at henough
    have := toNat_ne_zero hcount
    simp only [List.length_nil] at henough
    omega

/-- The pages of a creation that takes no more frames than are free are its own. -/
theorem MapsPages.own (h : MapsPages request d s s')
    (henough : min (pageAttempts request) s.freePageFrameCount.toNat ≤ s.freeFrames.length) :
    OwnPages d s s' := by
  have hstart : Taking d (s.create d) (s.create d) (pageAttempts request) :=
    ⟨⟨fun _ _ _ h => absurd h not_mapsUser_create, fun _ _ h => absurd h not_mapsUser_create⟩,
      .refl, id, henough⟩
  have hend := (h.invariant (I := fun n s₁ => Taking d (s.create d) s₁ n)
    (fun _ _ _ _ ht ha => ht.allocates ha) hstart).own
  exact ⟨hend.inj, hend.taken⟩

end Pages

/-! ## Calls -/

section Calls
variable {k k' : Kernel} {i p : Fin 16} {d : Fin 32} {j f : Fin 1024} {request : DriverRequest}
  {paging : PagingState} {r : ReadResult} {q : Option (Fin 16)} {pageDir : PageDirectoryPtr}

theorem framesApart_initial (fs : FileSystem) : FramesApart none (.initial fs) where
  exclusive := .empty fun _ _ _ h => h.2.1 rfl
  marked _ _ _ h := absurd rfl h.2.1

theorem FramesApart.started (h : FramesApart q k) : FramesApart q (k.started p) := by
  have hpages : pagesBut q (k.started p) = pagesBut q k := by
    funext i j f
    rw [pagesBut, pagesBut, started_state, Kernel.userPage, started_pageDirectory]
    rfl
  exact ⟨hpages ▸ h.exclusive, hpages ▸ h.marked⟩

theorem FramesApart.useDirectory (h : FramesApart q k) : FramesApart q (k.useDirectory pageDir) :=
  ⟨h.exclusive, h.marked⟩

/-- The processes that there were keep their user pages while a new one is made. -/
theorem userPage_loading (hk : Consistent k) (hr : ReadsExecutable request k p d paging r)
    (hi : i ≠ p) (hlive : (k.loading request p d paging r.fs).state i ≠ .terminated)
    (hpage : (k.loading request p d paging r.fs).userPage i j f) :
    k.state i ≠ .terminated ∧ k.userPage i j f := by
  rw [loading_state, if_neg hi] at hlive
  obtain ⟨d', hdir, hpage⟩ := hpage
  rw [loading_processList, if_neg hi] at hdir
  have hne : d' ≠ d := by
    rintro rfl
    exact hk.directory_ne hr.mapped.unused hlive hdir
  have hpage : (paging.pageDirectoryList d' j).mapsUser f := hpage
  rw [hr.mapped.onlyDirectory.other d' hne] at hpage
  have hpage : (Function.update k.paging.pageDirectoryList d _ d' j).mapsUser f := hpage
  rw [Function.update_of_ne hne] at hpage
  exact ⟨hlive, d', hdir, hpage⟩

/-- The user pages of the new process are in its page directory. -/
theorem userPage_loading_new (hpage : (k.loading request p d paging r.fs).userPage p j f) :
    (paging.pageDirectoryList d j).mapsUser f := by
  obtain ⟨d', hdir, hpage⟩ := hpage
  rw [loading_processList, if_pos rfl] at hdir
  obtain rfl := PageDirectoryPtr.list.inj hdir
  exact hpage

/-- The frames of the other processes stay apart while a new one is made. -/
theorem FramesApart.loading_but (h : FramesApart none k) (hk : Consistent k)
    (hr : ReadsExecutable request k p d paging r) :
    FramesApart (some p) (k.loading request p d paging r.fs) := by
  have hsub : ∀ i j f, pagesBut (some p) (k.loading request p d paging r.fs) i j f →
      pagesBut none k i j f := by
    rintro i j f ⟨hi, hlive, hpage⟩
    exact ⟨(fun h => nomatch h), userPage_loading hk hr (fun h => hi (h ▸ rfl)) hlive hpage⟩
  refine ⟨h.exclusive.mono hsub, fun i j f hpage => ?_⟩
  obtain ⟨m, hm, hmarked⟩ := h.marked i j f (hsub i j f hpage)
  exact ⟨m, hm, fun h0 => hr.mapped.onlyDirectory.marked m (hmarked h0)⟩

/-- A creation that takes frames of its own keeps all processes apart. -/
theorem FramesApart.loading (h : FramesApart none k) (hk : Consistent k)
    (hr : ReadsExecutable request k p d paging r) (hown : TakesOwnFrames request k) :
    FramesApart none (k.loading request p d paging r.fs) := by
  have hpages := hr.mapped.own hown.2
  have hbut := h.loading_but hk hr
  refine ⟨hbut.exclusive.replace p ?_ ?_ ?_, fun i j f hpage => ?_⟩
  · exact fun i hi j f hpage => ⟨fun heq => hi (Option.some.inj heq), hpage.2⟩
  · exact fun a b f ha hb =>
      hpages.inj a b f (userPage_loading_new ha.2.2) (userPage_loading_new hb.2.2)
  · intro i hi a b f ha hb
    obtain ⟨hlive, hpage⟩ := userPage_loading hk hr hi hb.2.1 hb.2.2
    obtain ⟨hcount, m, rfl, hfree, -⟩ := hpages.taken a f (userPage_loading_new ha.2.2)
    obtain ⟨m', hm', hmarked⟩ := h.marked i b _ ⟨(fun h => nomatch h), hlive, hpage⟩
    obtain rfl := frameNumber_inj hm'
    -- a free frame that another process has is page frame 0
    have hzero : m = 0 := by
      by_contra h0
      rw [hmarked h0] at hfree
      cases hfree
    subst hzero
    rcases hown.1 with h0 | h0 | h0
    · exact hcount h0
    · rw [h0] at hfree
      cases hfree
    · exact h0 i b hlive hpage
  · by_cases hi : i = p
    · subst hi
      obtain ⟨-, m, hm, -, hmarked⟩ := hpages.taken j f (userPage_loading_new hpage.2.2)
      exact ⟨m, hm, fun _ => hmarked⟩
    · exact hbut.marked i j f ⟨fun heq => hi (Option.some.inj heq), hpage.2⟩

/-- A destruction takes pages away only, and clears page frame 0. -/
theorem FramesApart.destroyed (h : FramesApart q k) (hq : ∀ p, q = some p → p = i)
    (hk : Consistent k) (hlive : k.state i ≠ .terminated)
    (hdir : (k.processList i).context.pageDirectory = .list d) :
    FramesApart none (k.destroyed i d) := by
  have hsub : ∀ i' j f, pagesBut none (k.destroyed i d) i' j f → pagesBut q k i' j f := by
    rintro i' j f ⟨-, hl, d', hd', hpage⟩
    obtain ⟨hne, hl', heq⟩ := destroyed_live hl
    rw [heq] at hd'
    have hdd : d' ≠ d := by
      rintro rfl
      exact hne (hk.distinct i' i hl' hlive (hd'.trans hdir.symm))
    have hpage : (Function.update k.paging.pageDirectoryList d _ d' j).mapsUser f := hpage
    rw [Function.update_of_ne hdd] at hpage
    exact ⟨fun hsome => hne (hq i' hsome.symm), hl', d', hd', hpage⟩
  refine ⟨h.exclusive.mono hsub, fun i' j f hpage => ?_⟩
  obtain ⟨m, hm, hmarked⟩ := h.marked i' j f (hsub i' j f hpage)
  refine ⟨m, hm, fun h0 => ?_⟩
  show (if _ = 0 then k.paging.pageFrameMap else Function.update k.paging.pageFrameMap 0 false) m
    = true
  split
  · exact hmarked h0
  · rw [Function.update_of_ne h0]
    exact hmarked h0

end Calls

/-! ## Runs -/

/-- A creation that takes a frame of another process, or the one beyond the map, is undone. -/
def SparesProcesses : ProcessCall → Kernel → Prop
  | .create request, k => checkCreate request k = none →
      Undone request k ∨ TakesOwnFrames request k
  | .destroy _, _ => True

section Runs
variable {k k' : Kernel} {c : ProcessCall} {fs : FileSystem}

/-- A call that spares the processes keeps their frames apart. -/
theorem FramesApart.calls (h : FramesApart none k) (hk : Consistent k) (hc : Calls k c k')
    (hok : SparesProcesses c k) : FramesApart none k' := by
  cases hc with
  | @create request code k' hc =>
    cases hc with
    | refused => exact h
    | @created p d paging r hr hcode =>
      have hown := (hok hr.checked).resolve_left fun hu => hr.not_undone hcode hu
      exact (h.loading hk hr hown).started.useDirectory
    | @failed p i d d' paging r hr hcode hfind hdir =>
      have hlive := (findProcess_live hfind).2
      have hk' := hk.loading hr
      rcases hok hr.checked with hu | hown
      · obtain ⟨rfl, rfl⟩ := hr.destroys_new hu hfind hdir
        have hbut := h.loading_but hk hr
        exact (hbut.destroyed (fun p hp => Option.some.inj hp.symm) hk' hlive hdir).useDirectory
      · have hall := h.loading hk hr hown
        exact (hall.destroyed (fun p hp => nomatch hp) hk' hlive hdir).useDirectory
  | destroy hd =>
    cases hd with
    | missing => exact h
    | destroyed hfind hlive hdir _ =>
      exact h.destroyed (fun p hp => nomatch hp) hk hlive hdir

/-- In a run in which every creation takes frames of its own no page frame is a user page of two
processes, nor two user pages of one. -/
theorem processFrames_exclusive (hrun : Run CallStep SparesProcesses (.initial fs) k) :
    ∀ i i' j j' f, k.state i ≠ .terminated → k.state i' ≠ .terminated → k.userPage i j f →
      k.userPage i' j' f → i = i' ∧ j = j' := by
  obtain ⟨-, h⟩ : Consistent k ∧ FramesApart none k := by
    refine hrun.invariant (I := fun k => Consistent k ∧ FramesApart none k) ?_
      ⟨consistent_initial fs, framesApart_initial fs⟩
    intro c k k' ⟨hk, h⟩ hok hstep
    have hc := hk.callStep hstep
    exact ⟨hk.calls hc, h.calls hk hc hok⟩
  intro i i' j j' f hi hi' hp hp'
  have hnone : ∀ i : Fin 16, some i ≠ none := fun _ h => nomatch h
  exact h.exclusive i i' j j' f ⟨hnone i, hi, hp⟩ ⟨hnone i', hi', hp'⟩

end Runs

/-- Page frame 0 goes to two processes: a failed creation clears it, the next one takes it, another
failed creation clears it again, and the next one takes it, too. -/
theorem processFrame_shared : ∃ fs k₁ k₂ k₃ k₄,
    CallStep (.create (sampleRequest 'B' 2 0)) (.initial fs) k₁ ∧
    CallStep (.create (sampleRequest 'A' 2 0)) k₁ k₂ ∧
    CallStep (.create (sampleRequest 'B' 2 0)) k₂ k₃ ∧
    CallStep (.create (sampleRequest 'A' 2 0)) k₃ k₄ ∧
    k₄.state 0 ≠ .terminated ∧ k₄.state 1 ≠ .terminated ∧
    k₄.userPage 0 (pageIndex userStackAddr) (frameNumber 0) ∧
    k₄.userPage 1 (pageIndex userStackAddr) (frameNumber 0) := by
  obtain ⟨fs, -, ⟨r, hread, hcode⟩, r', hread', hcode'⟩ := exists_executable
  let k₁ := (((Kernel.initial fs).loadingOne (sampleRequest 'B' 2 0) 0 0 1 r'.fs).destroyed 0 0)
    |>.useDirectory .kernel
  let k₂ := ((k₁.loadingOne (sampleRequest 'A' 2 0) 0 0 0 r.fs).started 0).useDirectory .kernel
  let k₃ := ((k₂.loadingOne (sampleRequest 'B' 2 0) 1 1 2 r'.fs).destroyed 1 1).useDirectory .kernel
  let k₄ := ((k₃.loadingOne (sampleRequest 'A' 2 0) 1 1 0 r.fs).started 1).useDirectory .kernel
  have hcount₁ : k₁.paging.freePageFrameCount = 31 := by
    show (31 - 1 : UInt32) + UInt32.ofNat (pageFrameCountNeeded (sampleRequest 'B' 2 0)).toNat = 31
    rfl
  have hcount₂ : k₂.paging.freePageFrameCount = 30 := by
    show k₁.paging.freePageFrameCount - 1 = 30
    rw [hcount₁]
    rfl
  have hcount₃ : k₃.paging.freePageFrameCount = 30 := by
    show k₂.paging.freePageFrameCount - 1 +
      UInt32.ofNat (pageFrameCountNeeded (sampleRequest 'B' 2 0)).toNat = 30
    rw [hcount₂]
    rfl
  have h₁ : FindsOne (sampleRequest 'B' 2 0) (.initial fs) 0 0 1 := ⟨rfl, rfl, rfl, rfl, rfl, rfl⟩
  have h₂ : FindsOne (sampleRequest 'A' 2 0) k₁ 0 0 0 :=
    ⟨checkCreate_eq_none.2 ⟨(by decide : (-1 : Int) < 16), by decide, by rw [hcount₁]; decide,
      by decide⟩, rfl, rfl, rfl, rfl, rfl⟩
  have h₃ : FindsOne (sampleRequest 'B' 2 0) k₂ 1 1 2 :=
    ⟨checkCreate_eq_none.2 ⟨(by decide : (0 : Int) < 16), by decide, by rw [hcount₂]; decide,
      by decide⟩, rfl, rfl, rfl, rfl, rfl⟩
  have h₄ : FindsOne (sampleRequest 'A' 2 0) k₃ 1 1 0 :=
    ⟨checkCreate_eq_none.2 ⟨(by decide : (-1 : Int) < 16), by decide, by rw [hcount₃]; decide,
      by decide⟩, rfl, rfl, rfl, rfl, rfl⟩
  refine ⟨fs, k₁, k₂, k₃, k₄, callStep_create (h₁.failed hread' hcode' rfl),
    callStep_create (h₂.created ((read_read hread').trans hread) hcode),
    callStep_create (h₃.failed ((read_read hread).trans hread') hcode' rfl),
    callStep_create (h₄.created ((read_read hread').trans hread) hcode),
    (fun h => nomatch h), (fun h => nomatch h), ⟨0, rfl, rfl, rfl, rfl⟩, ⟨1, rfl, rfl, rfl, rfl⟩⟩

/-- Two processes have their page frames to themselves. -/
theorem processFrames_exclusive_two : ∃ fs k₁ k₂,
    CallStep (.create (sampleRequest 'A' 2 0)) (.initial fs) k₁ ∧
    CallStep (.create (sampleRequest 'A' 2 0)) k₁ k₂ ∧ k₂.state 0 = .new ∧ k₂.state 1 = .new ∧
      k₂.userPage 0 (pageIndex userStackAddr) (frameNumber 1) ∧
      k₂.userPage 1 (pageIndex userStackAddr) (frameNumber 2) ∧
      ∀ j j' f, k₂.userPage 0 j f → ¬ k₂.userPage 1 j' f := by
  obtain ⟨fs, r, -, -, -, hfirst, hsecond⟩ := exists_twoCreated
  -- page frame 0 is marked, and there are frames for the attempts of both creations
  have hok : SparesProcesses (.create (sampleRequest 'A' 2 0)) (.initial fs) := by
    refine fun _ => .inr ⟨.inr (.inl rfl), ?_⟩
    show min (pageAttempts (sampleRequest 'A' 2 0)) PagingState.initial.freePageFrameCount.toNat ≤
      PagingState.initial.freeFrames.length
    decide
  have hok₁ : SparesProcesses (.create (sampleRequest 'A' 2 0)) (oneCreated fs r) := by
    refine fun _ => .inr ⟨.inr (.inl rfl), ?_⟩
    rw [oneCreated_freePageFrameCount]
    show _ ≤ (((PagingState.initial.create 0).mark 1).assign 0 (pageIndex userStackAddr)
      (frameNumber 1)).freeFrames.length
    decide
  have hrun := (Run.single hok hfirst).tail hok₁ hsecond
  refine ⟨fs, _, _, hfirst, hsecond, rfl, rfl, ⟨0, rfl, rfl, rfl, rfl⟩, ⟨1, rfl, rfl, rfl, rfl⟩,
    fun j j' f hj hj' => ?_⟩
  have hsame := processFrames_exclusive hrun 0 1 j j' f (fun h => nomatch h)
    (fun h => nomatch h) hj hj'
  exact absurd hsame.1 (by decide)

end OsKernel
