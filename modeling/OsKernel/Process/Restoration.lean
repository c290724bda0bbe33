import OsKernel.Memory.FrameCount
import OsKernel.Process.Running

/-!
# What a process leaves behind

A process is created and later removed, by a destruction or by the cleanup of a creation that cannot
read its executable. The creation takes a page frame for each of its pages as long as it finds one
(`MapsPages.counts`), and the removal counts all pages as free but clears page frame 0 only. So the
frames, their count and the page directories are as before the creation exactly when frame 0 was
free and the process had one page, or when the process counted no page and got none
(`RestoresFrames`).
-/

namespace OsKernel

open Lib

/-! ## Reachable kernels -/

/-- What happens to the kernel from its start on: an event, the first switch, or a change of the
file system by a system call on files. -/
inductive KernelAction
  | event (e : KernelEvent)
  | firstSwitch
  | files (fs : FileSystem)

/-- An action completes. -/
inductive ActionStep : KernelAction → Kernel → Kernel → Prop
  | event {e : KernelEvent} {k k' : Kernel} : EventStep e k k' → ActionStep (.event e) k k'
  | firstSwitch {ctx : Context} {k k' : Kernel} : k.currentProcessListId = -1 →
      schedulerSwitchToNextProcess k = .ok (ctx, k') → ActionStep .firstSwitch k k'
  | files {fs : FileSystem} {k : Kernel} : ActionStep (.files fs) k { k with fs := fs }

/-- A consistent kernel in which no other slot than the current one is RUNNING. -/
structure Orderly (k : Kernel) : Prop where
  consistent : Consistent k
  running : ∀ i, k.state i = .running → k.currentProcessListId = i.val

/-- What an action can do to an orderly kernel. -/
inductive Acts (k : Kernel) : KernelAction → Kernel → Prop
  | call {c : ProcessCall} {k' : Kernel} : Calls k c k' → Acts k (.event (.call c)) k'
  | exit {k' : Kernel} : Calls k (.destroy k.exitPid) k' → Acts k (.event .exit) k'
  | tick {frame : InterruptFrame} : Acts k (.event (.timer frame)) k.tick
  | switch {i j : Fin 16} {frame : InterruptFrame} {k' : Kernel} : k.state i = .running →
      Switched (k.saveFrame i frame) k' j → Acts k (.event (.timer frame)) k'
  | firstSwitch {j : Fin 16} {k' : Kernel} : Switched k k' j → Acts k .firstSwitch k'
  | files {fs : FileSystem} : Acts k (.files fs) { k with fs := fs }

section Reachable
variable {k k' : Kernel} {c : ProcessCall} {e : KernelEvent} {a : KernelAction}

theorem Orderly.calls (h : Orderly k) (hc : Calls k c k') : Orderly k' where
  consistent := h.consistent.calls hc
  running i hi := by
    obtain ⟨hid, hstate⟩ := state_calls hc
    rw [hid]
    rcases hstate i with heq | heq | ⟨-, heq⟩
    · exact h.running i (heq.symm.trans hi)
    · rw [heq] at hi
      cases hi
    · rw [heq] at hi
      cases hi

/-- A slot that is RUNNING in an orderly kernel is the only one. -/
theorem Orderly.one {i : Fin 16} (h : Orderly k) (hi : k.state i = .running) : OneRunning k i where
  current := h.running i hi
  running j := by
    constructor
    · intro hj
      have heq := (h.running j hj).symm.trans (h.running i hi)
      exact Fin.ext (by exact_mod_cast heq)
    · rintro rfl
      exact hi

theorem OneRunning.orderly {i : Fin 16} (h : OneRunning k i) (hk : Consistent k) : Orderly k where
  consistent := hk
  running j hj := by rw [h.current, (h.running j).1 hj]

theorem Orderly.acts (h : Orderly k) (hstep : ActionStep a k k') : Acts k a k' := by
  cases hstep with
  | @event e _ _ hstep =>
    cases e with
    | call c => exact .call (h.consistent.callStep hstep)
    | exit => exact .exit (h.consistent.callStep hstep)
    | timer frame =>
      obtain ⟨⟨ctx, k₁⟩, hrun, hstep⟩ := bind_eq_ok.1 hstep
      cases hstep
      cases hfound : processGetCurrentRunningPcbPointer k.tick with
      | none =>
        unfold timerIsr at hrun
        rw [hfound] at hrun
        split at hrun
        · cases hrun
        · cases hrun
          exact .tick
      | some i =>
        have hi : k.tick.state i = .running := by simpa using (findFrom_eq_some.1 hfound).2.1
        rw [tick_state] at hi
        rcases (h.one hi).timerIsr_spec hrun with ⟨-, rfl⟩ | ⟨j, -, hs⟩
        · exact .tick
        · exact .switch hi hs
  | firstSwitch hid hswitch =>
    have hnone : ∀ i, k.state i ≠ .running := by
      intro i hi
      have := hid.symm.trans (h.running i hi)
      omega
    obtain ⟨j, hs, -⟩ := schedulerSwitch_spec (fun i hi => by rw [hid] at hi; omega)
      (fun i hi => absurd hi (hnone i)) hswitch
    exact .firstSwitch hs
  | files => exact .files

theorem Orderly.actionStep (h : Orderly k) (hstep : ActionStep a k k') : Orderly k' := by
  cases h.acts hstep with
  | call hc => exact h.calls hc
  | exit hc => exact h.calls hc
  | tick =>
    refine ⟨h.consistent.tick, fun i hi => ?_⟩
    rw [tick_state] at hi
    rw [tick_currentProcessListId]
    exact h.running i hi
  | switch hi hs => exact hs.one.orderly (h.consistent.saveFrame.switched hs)
  | firstSwitch hs => exact hs.one.orderly (h.consistent.switched hs)
  | files => exact ⟨⟨h.consistent.directory, h.consistent.distinct, h.consistent.pages⟩, h.running⟩

/-- Every kernel that actions lead to is orderly. -/
theorem orderly_run {fs : FileSystem} (hrun : Run ActionStep (fun _ _ => True) (.initial fs) k) :
    Orderly k := by
  refine hrun.invariant (I := Orderly) ?_ ⟨consistent_initial fs, fun i hi => nomatch hi⟩
  intro a k k' h _ hstep
  exact h.actionStep hstep

end Reachable

/-! ## The pages of a process, there and back -/

/-- The removal of a process undoes its creation: it has one page and page frame 0 is free; or the
pages it needs overflow to 0, and there is no frame to take. -/
def RestoresFrames (request : DriverRequest) (s : PagingState) : Prop :=
  pageFrameCountNeeded request = 1 ∧ s.pageFrameMap 0 = false ∨
  pageFrameCountNeeded request = 0 ∧
    (s.freePageFrameCount = 0 ∨ ∀ i, s.pageFrameMap i = true)

/-- The page frames, their count and the use of the page directories are the same. -/
def SameFrames (s s' : PagingState) : Prop :=
  s'.pageFrameMap = s.pageFrameMap ∧ s'.freePageFrameCount = s.freePageFrameCount ∧
    s'.pageDirectoryUsed = s.pageDirectoryUsed

section Pages
variable {s s' : PagingState} {d : Fin 32} {j : Fin 1024} {request : DriverRequest}

/-- As many frames are taken as there are pages, free frames and frames that the counter
promises. -/
theorem MapsPages.counts (h : MapsPages request d s s') :
    s'.freePageFrameCount.toNat + min (pageAttempts request)
        (min s.freePageFrameCount.toNat s.freeFrameCount) = s.freePageFrameCount.toNat ∧
      s'.freeFrameCount + min (pageAttempts request)
        (min s.freePageFrameCount.toNat s.freeFrameCount) = s.freeFrameCount := by
  -- with `n` pages to go, what all but these have taken is missing from both numbers
  have hend := h.invariant (I := fun n x => n ≤ pageAttempts request ∧
    x.freePageFrameCount.toNat + min (pageAttempts request - n)
        (min s.freePageFrameCount.toNat s.freeFrameCount) = s.freePageFrameCount.toNat ∧
      x.freeFrameCount + min (pageAttempts request - n)
        (min s.freePageFrameCount.toNat s.freeFrameCount) = s.freeFrameCount) ?_ ?_
  · exact hend.2
  · rintro n j x x' ⟨hn, hcount, hfree⟩ ha
    cases ha with
    | none hzero =>
      rw [hzero] at hcount ⊢
      simp only [UInt32.toNat_zero] at hcount ⊢
      omega
    | frame i hne hunused _ =>
      have hmark := freeFrameCount_mark hunused
      have hpos := toNat_ne_zero hne
      show n ≤ _ ∧ (x.freePageFrameCount - 1).toNat + _ = _ ∧ (x.mark i).freeFrameCount + _ = _
      rw [toNat_pred hne]
      omega
    | beyond hne hfull =>
      have hnone := freeFrameCount_eq_zero.2 hfull
      show n ≤ _ ∧ x.freePageFrameCount.toNat + _ = _ ∧ x.freeFrameCount + _ = _
      omega
  · refine ⟨le_rfl, ?_, ?_⟩
    · rw [Nat.sub_self, Nat.zero_min]
      rfl
    · rw [Nat.sub_self, Nat.zero_min]
      rfl

/-- Without a frame to take nothing is taken. -/
theorem MapsPages.nothing (h : MapsPages request d s s')
    (hnone : s.freePageFrameCount = 0 ∨ ∀ i, s.pageFrameMap i = true) :
    s'.pageFrameMap = s.pageFrameMap ∧ s'.freePageFrameCount = s.freePageFrameCount := by
  refine h.invariant (I := fun _ x => x.pageFrameMap = s.pageFrameMap ∧
    x.freePageFrameCount = s.freePageFrameCount) ?_ ⟨rfl, rfl⟩
  rintro n j x x' ⟨hmap, hcount⟩ ha
  cases ha with
  | none => exact ⟨hmap, hcount⟩
  | frame i hne hunused _ =>
    rw [hmap] at hunused
    rw [hcount] at hne
    rcases hnone with hzero | hfull
    · exact absurd hzero hne
    · rw [hfull i] at hunused
      cases hunused
  | beyond => exact ⟨hmap, hcount⟩

/-- A process of one page takes page frame 0 when that is free. -/
theorem MapsPages.frameZero (h : MapsPages request d s s') (hone : pageFrameCountNeeded request = 1)
    (hcount : s.freePageFrameCount ≠ 0) (hzero : s.pageFrameMap 0 = false) :
    s'.pageFrameMap = Function.update s.pageFrameMap 0 true ∧
      s'.freePageFrameCount = s.freePageFrameCount - 1 := by
  obtain ⟨s₁, hcode, hstack⟩ := h.pages
  rw [hone] at hcode
  cases hcode
  cases hstack with
  | none hempty => exact absurd hempty hcount
  | frame i _ hunused hfirst =>
    rcases eq_or_lt_of_le (Fin.zero_le i) with rfl | hlt
    · exact ⟨rfl, rfl⟩
    · exact absurd (hfirst 0 hlt)
        (by rw [show (s.create d).pageFrameMap 0 = false from hzero]; decide)
  | beyond _ hfull =>
    exact absurd (hfull 0) (by rw [show (s.create d).pageFrameMap 0 = false from hzero]; decide)

/-- The page directory that was taken and released again is unused, as before. -/
theorem MapsPages.used_release (h : MapsPages request d s s') (n : Nat) :
    ((s'.freePages n).release d).pageDirectoryUsed = s.pageDirectoryUsed := by
  funext d'
  show Function.update s'.pageDirectoryUsed d false d' = _
  rw [Function.update_apply, h.used]
  split
  · next hd => rw [hd, h.unused]
  · rfl

/-- The pages of a process were allocated and freed again: when all is as before. -/
theorem MapsPages.restores_iff (h : MapsPages request d s s')
    (henough : pageFrameCountNeeded request ≤ s.freePageFrameCount)
    (hmax : pageFrameCountNeeded request ≤ 8) :
    SameFrames s ((s'.freePages (pageFrameCountNeeded request).toNat).release d) ↔
      RestoresFrames request s := by
  have hused : ((s'.freePages (pageFrameCountNeeded request).toNat).release d).pageDirectoryUsed =
      s.pageDirectoryUsed := h.used_release _
  obtain ⟨hcount, hfree⟩ := h.counts
  rw [UInt32.le_iff_toNat_le] at henough hmax
  simp only [UInt32.reduceToNat] at hmax
  constructor
  · rintro ⟨hmap, hcount', -⟩
    have hcount' : s'.freePageFrameCount + UInt32.ofNat (pageFrameCountNeeded request).toNat =
        s.freePageFrameCount := hcount'
    have hmap' : (s'.freePages (pageFrameCountNeeded request).toNat).pageFrameMap =
        s.pageFrameMap := hmap
    have hattempts : pageAttempts request ≠ 0 := Nat.succ_ne_zero _
    have hle : s.freeFrameCount ≤ 32 := freeFrameCount_le
    have hlt := s.freePageFrameCount.toNat_lt
    -- the counter is right again only if as many frames were taken as pages were counted
    rw [UInt32.ofNat_toNat, ← UInt32.toNat_inj, UInt32.toNat_add] at hcount'
    by_cases hneeded : pageFrameCountNeeded request = 0
    · refine .inr ⟨hneeded, ?_⟩
      rw [hneeded, UInt32.toNat_zero] at hcount'
      rw [← freeFrameCount_eq_zero, ← UInt32.toNat_inj, UInt32.toNat_zero]
      omega
    · have hpos := toNat_ne_zero hneeded
      have hzero : s.pageFrameMap 0 = false := by
        rw [← hmap', PagingState.freePages]
        dsimp only
        rw [if_neg hpos, Function.update_self]
      have hfree' := freeFrameCount_freePages (s := s') hpos
      rw [PagingState.freeFrameCount, hmap'] at hfree'
      change s.freeFrameCount = _ at hfree'
      refine .inl ⟨UInt32.toNat_inj.1 ?_, hzero⟩
      rw [UInt32.toNat_one]
      split at hfree' <;> omega
  · rintro (⟨hone, hzero⟩ | ⟨hneeded, hnone⟩)
    · rw [hone] at henough ⊢
      have hne : s.freePageFrameCount ≠ 0 := by
        intro h0
        rw [h0, UInt32.toNat_one, UInt32.toNat_zero] at henough
        omega
      obtain ⟨hmap, hcount'⟩ := h.frameZero hone hne hzero
      rw [hone] at hused
      refine ⟨?_, ?_, hused⟩
      · show Function.update s'.pageFrameMap 0 false = _
        rw [hmap, Function.update_idem, ← hzero, Function.update_eq_self]
      · show s'.freePageFrameCount + UInt32.ofNat (UInt32.toNat 1) = _
        rw [UInt32.ofNat_toNat, hcount', UInt32.sub_add_cancel]
    · rw [hneeded] at hused ⊢
      obtain ⟨hmap, hcount'⟩ := h.nothing hnone
      refine ⟨?_, ?_, hused⟩
      · show (s'.freePages 0).pageFrameMap = _
        rw [freePages_zero, hmap]
      · show (s'.freePages 0).freePageFrameCount = _
        rw [freePages_zero, hcount']

end Pages

/-! ## A process, there and back -/

/-- The page frames and page directories, and the pids, pages and page directories of the processes,
are the same. -/
structure Undisturbed (k k' : Kernel) : Prop where
  paging : ∃ cr3, k'.paging = { k.paging with cr3 := cr3 }
  pid : ∀ i, (k'.processList i).metadata.pid = (k.processList i).metadata.pid
  terminated : ∀ i, k'.state i = .terminated ↔ k.state i = .terminated
  pageDirectory : ∀ i,
    (k'.processList i).context.pageDirectory = (k.processList i).context.pageDirectory
  memory : ∀ i, (k'.processList i).memory = (k.processList i).memory

/-- A process is created in the slot `p` and removed again. -/
inductive CreatedAndRemoved (request : DriverRequest) (k : Kernel) (p : Fin 16) : Kernel → Prop
  /-- By a destruction of its pid, with the other processes undisturbed in between. -/
  | destroyed {k₁ k₂ k₃ : Kernel} :
      processCreateUserProcess request k = .ok (.success, k₁) → Undisturbed k₁ k₂ →
      processDestroy k.nextPid k₂ = .ok (true, k₃) → k₃.state p = .terminated →
      CreatedAndRemoved request k p k₃
  /-- By the creation itself, when it cannot read the executable. -/
  | cleanedUp {k' : Kernel} :
      processCreateUserProcess request k = .ok (.failFsReadFailure, k') →
      k'.state p = .terminated → CreatedAndRemoved request k p k'

section Removed
variable {k k' : Kernel} {p i : Fin 16} {d d' : Fin 32} {request : DriverRequest}
  {paging : PagingState} {r : ReadResult} {code : ProcessCreateCode}

theorem Undisturbed.consistent (h : Undisturbed k k') (hk : Consistent k) : Consistent k' where
  directory i hi := by
    obtain ⟨cr3, hpaging⟩ := h.paging
    rw [h.pageDirectory, hpaging]
    exact hk.directory i fun hterm => hi ((h.terminated i).2 hterm)
  distinct i j hi hj heq := by
    rw [h.pageDirectory, h.pageDirectory] at heq
    exact hk.distinct i j (fun hterm => hi ((h.terminated i).2 hterm))
      (fun hterm => hj ((h.terminated j).2 hterm)) heq
  pages i := by
    rw [h.memory]
    exact hk.pages i

theorem checkCreate_eq_some (h : checkCreate request k = some code) :
    code ≠ .success ∧ code ≠ .failFsReadFailure := by
  unfold checkCreate at h
  split at h
  · cases h
    exact ⟨(fun h => nomatch h), (fun h => nomatch h)⟩
  · split at h
    · cases h
      exact ⟨(fun h => nomatch h), (fun h => nomatch h)⟩
    · split at h
      · cases h
        exact ⟨(fun h => nomatch h), (fun h => nomatch h)⟩
      · cases h

/-- The slot of a process that was destroyed is the one that is free afterwards. -/
theorem eq_of_destroyed (hp : k.state p ≠ .terminated)
    (h : (k.destroyed i d).state p = .terminated) :
    i = p := by
  rw [destroyed_state] at h
  split at h
  · next heq => exact heq.symm
  · exact absurd h hp

/-- The removal of the new process frees the pages that its creation has counted. -/
theorem ReadsExecutable.sameFrames_iff (hr : ReadsExecutable request k p d paging r)
    (hdir : (k'.processList p).context.pageDirectory = .list d)
    (hdir' : (k'.processList p).context.pageDirectory = .list d')
    (hpages : (k'.processList p).memory.pageFrameUsedCount = pageFrameCountNeeded request)
    (hpaging : ∃ cr3, k'.paging = { paging with cr3 := cr3 }) :
    SameFrames k.paging (k'.destroyed p d').paging ↔ RestoresFrames request k.paging := by
  obtain rfl : d = d' := PageDirectoryPtr.list.inj (hdir.symm.trans hdir')
  obtain ⟨cr3, hpaging⟩ := hpaging
  obtain ⟨-, -, henough, hmax⟩ := checkCreate_eq_none.1 hr.checked
  rw [← hr.mapped.restores_iff henough hmax, Kernel.destroyed, hpages, hpaging]
  exact Iff.rfl

/-- Whether the frames are as before when the new process is gone. -/
theorem Consistent.sameFrames_iff (h : Consistent k) (hp : processListGetInactiveIndex k = some p)
    (hc : CreatedAndRemoved request k p k') :
    SameFrames k.paging k'.paging ↔ RestoresFrames request k.paging := by
  cases hc with
  | @destroyed k₁ k₂ k₃ hcreate hund hdestroy hterm =>
    cases h.processCreateUserProcess_spec hcreate with
    | refused hcheck => exact absurd rfl (checkCreate_eq_some hcheck).1
    | @created p' d paging r hr hcode =>
      obtain rfl : p = p' := Option.some.inj (hp.symm.trans hr.slot)
      have hnew : ((k.loading request p d paging r.fs).started p).processList p =
          ((k.processList p).fill k.nextPid request (.list d)).start := by
        rw [started_processList, if_pos rfl, loading_processList, if_pos rfl]
      have hlive : k₂.state p ≠ .terminated := by
        rw [ne_eq, hund.terminated]
        show ((k.loading request p d paging r.fs).started p).state p ≠ _
        rw [Kernel.state, hnew]
        rintro ⟨⟩
      have hk₁ := (h.loading hr).started (p := p)
      have hk₂ := hund.consistent (@Consistent.useDirectory _ k.paging.cr3 hk₁)
      cases hk₂.processDestroy hdestroy with
      | @destroyed i d' hfind _ hdir' _ =>
        obtain rfl := eq_of_destroyed hlive hterm
        refine hr.sameFrames_iff ?_ hdir' ?_ ?_
        · rw [hund.pageDirectory]
          show (((k.loading request i d paging r.fs).started i).processList
            i).context.pageDirectory = _
          rw [hnew]
          rfl
        · rw [hund.memory]
          show (((k.loading request i d paging r.fs).started i).processList
            i).memory.pageFrameUsedCount = _
          rw [hnew]
          rfl
        · obtain ⟨cr3, hpaging⟩ := hund.paging
          exact ⟨cr3, hpaging⟩
  | cleanedUp hcreate hterm =>
    cases h.processCreateUserProcess_spec hcreate with
    | refused hcheck => exact absurd rfl (checkCreate_eq_some hcheck).2
    | @failed p' i d d' paging r hr hcode hfind hdir' =>
      obtain rfl : p = p' := Option.some.inj (hp.symm.trans hr.slot)
      have hnew : (k.loading request p d paging r.fs).processList p =
          (k.processList p).fill k.nextPid request (.list d) := by
        rw [loading_processList, if_pos rfl]
      have hlive : (k.loading request p d paging r.fs).state p ≠ .terminated := by
        rw [Kernel.state, hnew]
        rintro ⟨⟩
      obtain rfl := eq_of_destroyed (d := d') hlive hterm
      have hdir : ((k.loading request i d paging r.fs).processList i).context.pageDirectory =
          .list d := by
        rw [hnew]
        rfl
      have hpages : ((k.loading request i d paging r.fs).processList i).memory.pageFrameUsedCount =
          pageFrameCountNeeded request := by
        rw [hnew]
        rfl
      exact hr.sameFrames_iff hdir hdir' hpages ⟨_, rfl⟩

/-- In every kernel that is reached, a process that is created and later removed leaves the page
frames, their count and the use of the page directories as they were, exactly when it had one page
and page frame 0 was free, or counted no page and found no frame. -/
theorem createdAndRemoved_restores_iff {fs : FileSystem}
    (hrun : Run ActionStep (fun _ _ => True) (.initial fs) k)
    (hp : processListGetInactiveIndex k = some p) (hc : CreatedAndRemoved request k p k') :
    (k'.paging.pageFrameMap = k.paging.pageFrameMap ∧
      k'.paging.freePageFrameCount = k.paging.freePageFrameCount ∧
      k'.paging.pageDirectoryUsed = k.paging.pageDirectoryUsed) ↔
    (pageFrameCountNeeded request = 1 ∧ k.paging.pageFrameMap 0 = false ∨
      pageFrameCountNeeded request = 0 ∧
        (k.paging.freePageFrameCount = 0 ∨ ∀ i, k.paging.pageFrameMap i = true)) :=
  (orderly_run hrun).consistent.sameFrames_iff hp hc

end Removed

/-- The first process gets page frame 1. When it was destroyed, that frame stays marked and page
frame 0 is free. -/
theorem createdAndRemoved_moves_frame : ∃ fs k',
    CreatedAndRemoved (sampleRequest 'A' 2 0) (.initial fs) 0 k' ∧
    (Kernel.initial fs).paging.pageFrameMap 0 = true ∧
    (Kernel.initial fs).paging.pageFrameMap 1 = false ∧
    k'.paging.pageFrameMap 0 = false ∧ k'.paging.pageFrameMap 1 = true := by
  obtain ⟨fs, -, ⟨r, hread, hcode⟩, -⟩ := exists_executable
  have h : FindsOne (sampleRequest 'A' 2 0) (.initial fs) 0 0 1 := ⟨rfl, rfl, rfl, rfl, rfl, rfl⟩
  have hcreate := h.created hread hcode
  have hfind : findProcess 1 (((Kernel.initial fs).loadingOne (sampleRequest 'A' 2 0) 0 0 1
      r.fs).started 0 |>.useDirectory .kernel) = some 0 :=
    findFrom_eq_some.2 ⟨Nat.zero_le _, rfl, fun j hj _ => absurd hj (Fin.not_lt_zero j)⟩
  have hpages : (1 : UInt32) ≤ 8 := by decide
  have hdestroy := processDestroy_found (d := 0) hfind rfl hpages
  have hund (k : Kernel) : Undisturbed k k :=
    ⟨⟨_, rfl⟩, fun _ => rfl, fun _ => Iff.rfl, fun _ => rfl, fun _ => rfl⟩
  exact ⟨fs, _, .destroyed hcreate (hund _) hdestroy rfl, rfl, rfl, rfl, rfl⟩

/-- Of two creations whose executable is missing, the first one leaves page frame 0 free; so the
second one leaves the frames as they were. -/
theorem createdAndRemoved_restores_second : ∃ k k',
    Run ActionStep (fun _ _ => True) (.initial blankFileSystem) k ∧
    CreatedAndRemoved (sampleRequest 'A' 2 0) k 0 k' ∧
    k'.paging.pageFrameMap = k.paging.pageFrameMap := by
  obtain ⟨r, hread, hcode⟩ := read_blank
  have h : FindsOne (sampleRequest 'A' 2 0) (.initial blankFileSystem) 0 0 1 :=
    ⟨rfl, rfl, rfl, rfl, rfl, rfl⟩
  have hfirst := h.failed hread hcode rfl
  have hread' : read (sampleRequest 'A' 2 0) r.fs = .ok r := (read_read hread).trans hread
  have h' : FindsOne (sampleRequest 'A' 2 0)
      ((((Kernel.initial blankFileSystem).loadingOne (sampleRequest 'A' 2 0) 0 0 1 r.fs).destroyed
        0 0).useDirectory .kernel) 0 0 0 := ⟨rfl, rfl, rfl, rfl, rfl, rfl⟩
  have hsecond := h'.failed hread' hcode rfl
  have hrun : Run ActionStep (fun _ _ => True) (.initial blankFileSystem) _ :=
    .single trivial (.event (e := .call (.create (sampleRequest 'A' 2 0))) (callStep_create hfirst))
  have hremoved := CreatedAndRemoved.cleanedUp (p := 0) hsecond rfl
  exact ⟨_, _, hrun, hremoved,
    ((createdAndRemoved_restores_iff hrun rfl hremoved).2 (.inl ⟨rfl, rfl⟩)).1⟩

end OsKernel
