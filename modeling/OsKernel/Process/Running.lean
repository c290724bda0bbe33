import OsKernel.Fat32.Read
import OsKernel.Lib.Run
import OsKernel.Process.Lifecycle
import OsKernel.Process.Switch

/-!
# The running process

Once the first process runs, one slot is RUNNING and it is the current one (`OneRunning`). Timer
interrupts, creations and destructions keep that, but for the destruction of the process that runs:
its slot becomes TERMINATED and no other one RUNNING, and the next timer interrupt that switches
looks for a running process in vain. A switch while slot 15 runs does not complete.
-/

namespace OsKernel

open Lib

/-! ## Events -/

/-- An event completes. -/
def EventStep (e : KernelEvent) (k k' : Kernel) : Prop := e.run k = .ok k'

/-- No destruction in the event hits the running process, and no switch starts from slot 15. The
destruction in a creation that fails at the read is one of the next pid. -/
def SparesRunning : KernelEvent → Kernel → Prop
  | .call (.create request), k => checkCreate request k = none → ReadFails request k →
      ∀ p i, processListGetInactiveIndex k = some p → findProcess k.nextPid k = some i → i < p →
        k.state i ≠ .running
  | .call (.destroy pid), k => ∀ i, findProcess pid k = some i → k.state i ≠ .running
  | .exit, k => ∀ i, findProcess k.exitPid k = some i → k.state i ≠ .running
  | .timer _, k => k.switches = true → k.currentProcessListId ≠ 15

section Events
variable {k k' : Kernel} {c i p : Fin 16} {d : Fin 32} {pid : UInt32} {request : DriverRequest}
  {paging : PagingState} {r : ReadResult} {frame : InterruptFrame} {e : KernelEvent}

/-- Another slot was destroyed. -/
theorem OneRunning.destroyed (h : OneRunning k c) (hi : k.state i ≠ .running) :
    OneRunning (k.destroyed i d) c where
  current := h.current
  running j := by
    rw [destroyed_state]
    split
    · next hj =>
      refine iff_of_false (fun h => nomatch h) fun hjc => hi ?_
      rw [← hj, hjc, h.running]
    · exact h.running j

/-- The running slot was destroyed: no slot is RUNNING. -/
theorem OneRunning.not_destroyed (h : OneRunning k c) (hi : k.state i = .running) (c' : Fin 16) :
    ¬ OneRunning (k.destroyed i d) c' := by
  intro h'
  have hc' := (h'.running c').2 rfl
  rw [destroyed_state] at hc'
  split at hc'
  · cases hc'
  · next hne =>
    rw [h.running] at hc' hi
    exact hne (hc'.trans hi.symm)

theorem OneRunning.loading (h : OneRunning k c) (hp : k.state p = .terminated) :
    OneRunning (k.loading request p d paging r.fs) c where
  current := h.current
  running j := by
    rw [loading_state]
    split
    · next hj =>
      refine iff_of_false (fun h => nomatch h) fun hjc => ?_
      have hrun := (h.running c).2 rfl
      rw [← hjc, hj, hp] at hrun
      cases hrun
    · exact h.running j

theorem OneRunning.started (h : OneRunning k c) : OneRunning (k.started p) c where
  current := h.current
  running j := by rw [started_state, h.running]

theorem OneRunning.useDirectory {pageDir : PageDirectoryPtr} (h : OneRunning k c) :
    OneRunning (k.useDirectory pageDir) c := ⟨h.current, h.running⟩

/-- A destruction leaves one process running exactly when it does not hit that one. -/
theorem OneRunning.destroys_iff {b : Bool} (h : OneRunning k c) (hd : Destroys pid k b k') :
    (∃ c', OneRunning k' c') ↔ ∀ i, findProcess pid k = some i → k.state i ≠ .running := by
  cases hd with
  | missing hnone => exact iff_of_true ⟨c, h⟩ fun i hi => nomatch hnone.symm.trans hi
  | @destroyed i d hfind hlive hdir _ =>
    constructor
    · rintro ⟨c', h'⟩ j hj hrun
      obtain rfl := Option.some.inj (hfind.symm.trans hj)
      exact h.not_destroyed hrun c' h'
    · exact fun hok => ⟨c, h.destroyed (hok i hfind)⟩

/-- So does a creation: the process it destroys is the new one or has the next pid, too. -/
theorem OneRunning.creates_iff {code : ProcessCreateCode} (h : OneRunning k c)
    (hc : Creates request k code k') :
    (∃ c', OneRunning k' c') ↔ SparesRunning (.call (.create request)) k := by
  cases hc with
  | refused hcheck =>
    exact iff_of_true ⟨c, h⟩ fun hnone => nomatch hnone.symm.trans hcheck
  | @created p d paging r hr hcode =>
    have hload : OneRunning (k.loading request p d paging r.fs) c :=
      h.loading (inactive_state hr.slot)
    exact iff_of_true ⟨c, hload.started.useDirectory⟩ fun _ hfails =>
      absurd hfails (not_readFails hr.read hcode)
  | @failed p i d d' paging r hr hcode hfind hdir =>
    have hload : OneRunning (k.loading request p d paging r.fs) c :=
      h.loading (inactive_state hr.slot)
    obtain ⟨i', hi', hip⟩ := findProcess_loading k request p d paging r.fs
    obtain rfl : i = i' := Option.some.inj (hfind.symm.trans hi')
    constructor
    · rintro ⟨c', h'⟩ - - p' j hp' hj hlt hrun
      obtain rfl := Option.some.inj (hr.slot.symm.trans hp')
      rcases hip with rfl | ⟨hip, hfindk⟩
      · -- the search stops at slot `j` before it gets to the new process
        have hlive := findFrom_eq_some.1 hfind
        have hj' := hlive.2.2 j hlt (Nat.zero_le _)
        rw [loading_processList, if_neg hlt.ne] at hj'
        exact absurd ((findFrom_eq_some.1 hj).2.1) (by rw [hj']; exact Bool.false_ne_true)
      · obtain rfl := Option.some.inj (hfindk.symm.trans hj)
        refine hload.not_destroyed (d := d') ?_ c' ⟨h'.current, h'.running⟩
        rw [loading_state, if_neg hip.ne]
        exact hrun
    · intro hok
      refine ⟨c, (hload.destroyed ?_).useDirectory⟩
      rw [loading_state]
      split
      · exact fun h => nomatch h
      · next hne =>
        obtain ⟨hlt, hfindk⟩ := hip.resolve_left hne
        exact hok hr.checked ⟨r, hr.read, hcode⟩ p i hr.slot hfindk hlt

/-! ### The timer -/

theorem Consistent.saveFrame (hk : Consistent k) : Consistent (k.saveFrame c frame) where
  directory j hj := by
    rw [saveFrame_state] at hj
    rw [saveFrame_pageDirectory]
    show ∃ d, _ ∧ k.tick.paging.pageDirectoryUsed d = true
    rw [tick_paging]
    exact hk.directory j hj
  distinct j j' hj hj' heq := by
    rw [saveFrame_state] at hj hj'
    rw [saveFrame_pageDirectory, saveFrame_pageDirectory] at heq
    exact hk.distinct j j' hj hj' heq
  pages j := by
    show (Function.update k.tick.processList c _ j).memory.pageFrameUsedCount ≤ 8
    rw [tick_processList, Function.update_apply]
    split
    · exact hk.pages c
    · exact hk.pages j

theorem Consistent.tick (hk : Consistent k) : Consistent k.tick where
  directory j hj := by
    rw [tick_state] at hj
    rw [tick_processList, tick_paging]
    exact hk.directory j hj
  distinct j j' hj hj' heq := by
    rw [tick_state] at hj hj'
    rw [tick_processList] at heq
    exact hk.distinct j j' hj hj' heq
  pages j := by
    rw [tick_processList]
    exact hk.pages j

theorem Consistent.switched (hk : Consistent k) (hs : Switched k k' i) : Consistent k' where
  directory j hj := by
    rw [hs.slot j, setState_context, hs.kernel]
    exact hk.directory j fun hterm => hj ((hs.terminated j).2 hterm)
  distinct j j' hj hj' heq := by
    rw [hs.slot j, hs.slot j', setState_context, setState_context] at heq
    exact hk.distinct j j' (fun hterm => hj ((hs.terminated j).2 hterm))
      (fun hterm => hj' ((hs.terminated j').2 hterm)) heq
  pages j := by
    rw [hs.slot j]
    exact hk.pages j

theorem Consistent.not_null (hk : Consistent k) (hi : k.state i ≠ .terminated) :
    (k.processList i).context.pageDirectory ≠ .null := by
  obtain ⟨d, hd, -⟩ := hk.directory i hi
  rw [hd]
  exact fun h => nomatch h

/-- What a timer interrupt that completes keeps. -/
theorem OneRunning.timer_spec (h : OneRunning k c) (hk : Consistent k)
    (hstep : EventStep (.timer frame) k k') : (∃ c', OneRunning k' c') ∧ Consistent k' ∧
      (∀ i, k'.state i = .terminated ↔ k.state i = .terminated) ∧
      SparesRunning (.timer frame) k := by
  obtain ⟨⟨ctx, k₁⟩, hrun, hstep⟩ := bind_eq_ok.1 hstep
  cases hstep
  have hspares : SparesRunning (.timer frame) k := by
    intro hswitch hlast
    have hc : c = 15 := Fin.ext (by have := h.current; exact_mod_cast this.symm.trans hlast)
    subst hc
    rw [h.timerIsr_eq, if_pos hswitch, switch_outside h.saveFrame.current] at hrun
    cases hrun
  rcases h.timerIsr_spec hrun with ⟨-, rfl⟩ | ⟨j, -, hs⟩
  · exact ⟨⟨c, h.tick⟩, hk.tick, fun i => by rw [tick_state], hspares⟩
  · exact ⟨⟨j, hs.one⟩, hk.saveFrame.switched hs,
      fun i => (hs.terminated i).trans (by rw [saveFrame_state]), hspares⟩

/-! ### Single events -/

/-- A system call leaves the state of a slot as it is, or makes it TERMINATED, or NEW from
TERMINATED, and does not change the current slot. -/
theorem state_calls {c : ProcessCall} (hc : Calls k c k') :
    k'.currentProcessListId = k.currentProcessListId ∧ ∀ i, k'.state i = k.state i ∨
      k'.state i = .terminated ∨ k.state i = .terminated ∧ k'.state i = .new := by
  cases hc with
  | @create request code k' hc =>
    cases hc with
    | refused => exact ⟨rfl, fun i => .inl rfl⟩
    | @created p d paging r hr =>
      refine ⟨rfl, fun i => ?_⟩
      rw [show (((k.loading request p d paging r.fs).started p).useDirectory k.paging.cr3).state i =
        ((k.loading request p d paging r.fs).started p).state i from rfl, started_state,
          loading_state]
      split
      · next hi => exact .inr (.inr ⟨hi ▸ inactive_state hr.slot, rfl⟩)
      · exact .inl rfl
    | @failed p j d d' paging r hr =>
      refine ⟨rfl, fun i => ?_⟩
      rw [show (((k.loading request p d paging r.fs).destroyed j d').useDirectory
        k.paging.cr3).state i =
        ((k.loading request p d paging r.fs).destroyed j d').state i from rfl, destroyed_state,
        loading_state]
      split
      · exact .inr (.inl rfl)
      · split
        · next hi => exact .inr (.inr ⟨hi ▸ inactive_state hr.slot, rfl⟩)
        · exact .inl rfl
  | destroy hd =>
    cases hd with
    | missing => exact ⟨rfl, fun i => .inl rfl⟩
    | destroyed =>
      refine ⟨rfl, fun i => ?_⟩
      rw [destroyed_state]
      split
      · exact .inr (.inl rfl)
      · exact .inl rfl

/-- What an event that completes does to the running process and to the free slots. -/
theorem OneRunning.event_spec (h : OneRunning k c) (hk : Consistent k) (hstep : EventStep e k k') :
    Consistent k' ∧ ((∃ c', OneRunning k' c') ↔ SparesRunning e k) ∧
      ∀ i, k.state i = .terminated → k'.state i ≠ .ready ∧ k'.state i ≠ .running := by
  have hstates : ∀ call, Calls k call k' → ∀ i, k.state i = .terminated →
      k'.state i ≠ .ready ∧ k'.state i ≠ .running := by
    intro call hc i hi
    rcases (state_calls hc).2 i with heq | heq | ⟨-, heq⟩
    · rw [heq, hi]
      decide
    · rw [heq]
      decide
    · rw [heq]
      decide
  cases e with
  | call call =>
    have hc := hk.callStep hstep
    refine ⟨hk.calls hc, ?_, hstates call hc⟩
    cases hc with
    | create hc => exact h.creates_iff hc
    | destroy hd => exact h.destroys_iff hd
  | exit =>
    have hc : Calls k (.destroy k.exitPid) k' := hk.callStep hstep
    refine ⟨hk.calls hc, ?_, hstates _ hc⟩
    cases hc with
    | destroy hd => exact h.destroys_iff hd
  | timer frame =>
    obtain ⟨hone, hk', hterm, hspares⟩ := h.timer_spec hk hstep
    refine ⟨hk', iff_of_true hone hspares, fun i hi => ?_⟩
    rw [(hterm i).2 hi]
    decide

end Events

/-! ## Runs -/

section Runs
variable {k₀ k₁ k : Kernel} {fs : FileSystem} {ctx : Context}

/-- Before the first switch no process runs. -/
theorem boot_spec (h₀ : Run CallStep (fun _ _ => True) (.initial fs) k₀) :
    Consistent k₀ ∧ k₀.currentProcessListId = -1 ∧ ∀ i, k₀.state i ≠ .running := by
  refine h₀.invariant (I := fun k => Consistent k ∧ k.currentProcessListId = -1 ∧
    ∀ i, k.state i ≠ .running) ?_ ⟨consistent_initial fs, rfl, fun i h => nomatch h⟩
  intro c k k' ⟨hk, hid, hnone⟩ _ hstep
  have hc := hk.callStep hstep
  obtain ⟨hid', hstate⟩ := state_calls hc
  refine ⟨hk.calls hc, hid'.trans hid, fun i hrun => ?_⟩
  rcases hstate i with heq | heq | ⟨-, heq⟩
  · exact hnone i (heq.symm.trans hrun)
  · rw [heq] at hrun
    cases hrun
  · rw [heq] at hrun
    cases hrun

/-- The first switch leaves one process running. -/
theorem firstSwitch_spec (h₀ : Run CallStep (fun _ _ => True) (.initial fs) k₀)
    (hfirst : schedulerSwitchToNextProcess k₀ = .ok (ctx, k₁)) :
    Consistent k₁ ∧ ∃ c, OneRunning k₁ c := by
  obtain ⟨hk, hid, hnone⟩ := boot_spec h₀
  obtain ⟨j, hs, -⟩ := schedulerSwitch_spec (fun i hi => by rw [hid] at hi; omega)
    (fun i hi => absurd hi (hnone i)) hfirst
  exact ⟨hk.switched hs, j, hs.one⟩

/-- After the first switch one slot is RUNNING, and it is the current one, in every run in which no
destruction hits the process that runs and no switch starts from slot 15. So the timer finds the
running process and completes, and a slot without a process becomes READY or RUNNING in no event.
The first event that completes and does not spare the running process leaves none. -/
theorem oneRunning_iff (h₀ : Run CallStep (fun _ _ => True) (.initial fs) k₀)
    (hfirst : schedulerSwitchToNextProcess k₀ = .ok (ctx, k₁))
    (hrun : Run EventStep SparesRunning k₁ k) :
    (∃ c, OneRunning k c) ∧ processGetCurrentRunningPcbPointer k ≠ none ∧
      (∀ frame, SparesRunning (.timer frame) k → ∃ r, timerIsr frame k = .ok r) ∧
      ∀ e k', EventStep e k k' → ((∃ c, OneRunning k' c) ↔ SparesRunning e k) ∧
        ∀ i, k.state i = .terminated → k'.state i ≠ .ready ∧ k'.state i ≠ .running := by
  obtain ⟨hk, c, h⟩ : Consistent k ∧ ∃ c, OneRunning k c := by
    refine hrun.invariant (I := fun k => Consistent k ∧ ∃ c, OneRunning k c) ?_
      (firstSwitch_spec h₀ hfirst)
    intro e k k' ⟨hk, c, h⟩ hok hstep
    obtain ⟨hk', hiff, -⟩ := h.event_spec hk hstep
    exact ⟨hk', hiff.2 hok⟩
  refine ⟨⟨c, h⟩, ?_, fun frame hok => ?_, fun e k' hstep => (h.event_spec hk hstep).2⟩
  · rw [h.processGetCurrentRunningPcbPointer]
    exact fun h => nomatch h
  · have hc : k.switches = true → c ≠ 15 := by
      rintro hswitch rfl
      exact hok hswitch h.current
    obtain ⟨ctx, k', hisr⟩ : ∃ ctx k', timerIsr frame k = .ok (ctx, k') :=
      h.timerIsr_ok hc fun i hi => hk.not_null hi
    exact ⟨_, hisr⟩

end Runs

/-- The process that is created first runs after the first switch. -/
theorem exists_firstSwitched : ∃ fs r ctx k₁, r.code = 0 ∧ read (sampleRequest 'A' 2 0) fs = .ok r ∧
    CallStep (.create (sampleRequest 'A' 2 0)) (.initial fs) (oneCreated fs r) ∧
    schedulerSwitchToNextProcess (oneCreated fs r) = .ok (ctx, k₁) ∧ Consistent k₁ ∧
    Switched (oneCreated fs r) k₁ 0 := by
  obtain ⟨fs, r, hcode, hread, -, hstep, -⟩ := exists_twoCreated
  have h₀ : Run CallStep (fun _ _ => True) (.initial fs) (oneCreated fs r) := .single trivial hstep
  obtain ⟨hk, hid, hnone⟩ := boot_spec h₀
  obtain ⟨ctx, k₁, hfirst⟩ := firstSwitch_ok hid (c := 0) rfl fun i hi => hk.not_null hi
  obtain ⟨j, hs, -⟩ := schedulerSwitch_spec (fun i hi => by rw [hid] at hi; omega)
    (fun i hi => absurd hi (hnone i)) hfirst
  obtain rfl : j = 0 := by
    by_contra hne
    refine hs.live ?_
    show (((Kernel.initial fs).loadingOne (sampleRequest 'A' 2 0) 0 0 1 r.fs).started 0).state j = _
    rw [started_state, Kernel.loadingOne, loading_state, if_neg hne]
    rfl
  exact ⟨fs, r, ctx, k₁, hcode, hread, hstep, hfirst, hk.switched hs, hs⟩

theorem exists_firstRunning : ∃ fs k₀ ctx k₁,
    CallStep (.create (sampleRequest 'A' 2 0)) (.initial fs) k₀ ∧
    schedulerSwitchToNextProcess k₀ = .ok (ctx, k₁) ∧ Consistent k₁ ∧ OneRunning k₁ 0 ∧
    (k₁.processList 0).metadata.pid = 1 := by
  obtain ⟨fs, r, ctx, k₁, -, -, hstep, hfirst, hk, hs⟩ := exists_firstSwitched
  exact ⟨fs, _, ctx, k₁, hstep, hfirst, hk, hs.one, by rw [hs.slot 0]; rfl⟩

/-- The process that runs destroys itself, by its pid: no slot is RUNNING any more. -/
theorem oneRunning_lost : ∃ fs k₀ ctx k₁ k₂,
    CallStep (.create (sampleRequest 'A' 2 0)) (.initial fs) k₀ ∧
    schedulerSwitchToNextProcess k₀ = .ok (ctx, k₁) ∧ EventStep (.call (.destroy 1)) k₁ k₂ ∧
    (∀ i, k₂.state i ≠ .running) ∧ processGetCurrentRunningPcbPointer k₂ = none := by
  obtain ⟨fs, k₀, ctx, k₁, hstep, hfirst, hk, h, hpid⟩ := exists_firstRunning
  obtain ⟨d, hdir, -⟩ := hk.directory 0 h.live
  have hfind : findProcess 1 k₁ = some 0 := by
    refine findFrom_eq_some.2 ⟨Nat.zero_le _, ?_, fun j hj _ => absurd hj (Fin.not_lt_zero j)⟩
    have hrun : (k₁.processList 0).metadata.state = .running := (h.running 0).2 rfl
    rw [hpid, ProcessControlBlock.live, hrun]
    rfl
  have hdestroy := processDestroy_found hfind hdir (hk.pages 0)
  have hnone : ∀ i, (k₁.destroyed 0 d).state i ≠ .running := by
    intro i hi
    rw [destroyed_state] at hi
    split at hi
    · cases hi
    · next hne => exact hne ((h.running i).1 hi)
  refine ⟨fs, k₀, ctx, k₁, _, hstep, hfirst, bind_eq_ok.2 ⟨_, hdestroy, rfl⟩, hnone, ?_⟩
  exact findFrom_eq_none.2 fun i _ => beq_false_of_ne (hnone i)

/-- Timer interrupts only count until the tenth one. -/
theorem exists_ticks {k : Kernel} {c : Fin 16} {n : Nat} (frame : InterruptFrame)
    (hk : Consistent k)
    (hc : OneRunning k c) (hn : k.tickCounter.toNat + n ≤ 9) :
    ∃ k', Run EventStep SparesRunning k k' ∧ Consistent k' ∧ OneRunning k' c ∧
      k'.activeProcessCount = k.activeProcessCount ∧
      k'.tickCounter.toNat = k.tickCounter.toNat + n := by
  induction n generalizing k with
  | zero => exact ⟨k, .refl, hk, hc, rfl, rfl⟩
  | succ n ih =>
    have htick : k.tickCounter.toNat < 1000 := by omega
    have hstays : k.switches ≠ true := by
      intro hswitch
      have := ((switches_iff htick).1 hswitch).2
      omega
    have hnext : k.tick.tickCounter.toNat = k.tickCounter.toNat + 1 := by
      rw [tick_tickCounter htick]
      omega
    have hfirst : EventStep (.timer frame) k k.tick :=
      bind_eq_ok.2 ⟨_, hc.timerIsr_eq.trans (if_neg hstays), rfl⟩
    obtain ⟨k', hrun, hk', hc', hcount, hcounter⟩ := ih hk.tick hc.tick (by omega)
    refine ⟨k', (Run.single (fun hswitch => absurd hswitch hstays) hfirst).trans hrun,
      hk', hc', ?_, ?_⟩
    · rw [hcount, tick_activeProcessCount]
    · rw [hcounter, hnext]
      omega

/-- After the first switch the process that runs creates another one. -/
theorem exists_secondCreated : ∃ fs k₀ ctx k₁ k₂,
    CallStep (.create (sampleRequest 'A' 2 0)) (.initial fs) k₀ ∧
    schedulerSwitchToNextProcess k₀ = .ok (ctx, k₁) ∧
    EventStep (.call (.create (sampleRequest 'A' 2 0))) k₁ k₂ ∧
    SparesRunning (.call (.create (sampleRequest 'A' 2 0))) k₁ ∧ Consistent k₂ ∧ OneRunning k₂ 0 ∧
    k₂.activeProcessCount = 2 ∧ k₂.tickCounter.toNat = 0 := by
  obtain ⟨fs, r, ctx, k₁, hcode, hread, hstep, hfirst, hk₁, hs⟩ := exists_firstSwitched
  have hpaging : k₁.paging = { (oneCreated fs r).paging with cr3 := .list 0 } := by
    rw [hs.kernel]
    rfl
  have hcount : k₁.activeProcessCount = 1 := by
    rw [hs.kernel]
    rfl
  have htick : k₁.tickCounter = 0 := by
    rw [hs.kernel]
    rfl
  -- the first process creates a second one
  have hfree : k₁.paging.freePageFrameCount = 30 := by
    rw [hpaging]
    exact oneCreated_freePageFrameCount fs r
  have hcheck : checkCreate (sampleRequest 'A' 2 0) k₁ = none := by
    rw [checkCreate_eq_none, hcount, hfree]
    decide
  have halloc := allocateProcessPages_one (s := k₁.paging) (d := 1) (m := 2)
    (show pageFrameCountNeeded (sampleRequest 'A' 2 0) = 1 from rfl) (by rw [hpaging]; rfl)
    (by rw [hpaging]; rfl) (by rw [hfree]; decide)
  have hstate (i : Fin 16) (hi : i ≠ 0) : k₁.state i = .terminated := by
    rw [hs.terminated]
    show (((Kernel.initial fs).loadingOne (sampleRequest 'A' 2 0) 0 0 1 r.fs).started 0).state i = _
    rw [started_state, Kernel.loadingOne, loading_state, if_neg hi]
    rfl
  have hslot : processListGetInactiveIndex k₁ = some 1 := by
    refine findFrom_eq_some.2 ⟨by decide, ?_, fun i hi _ => ?_⟩
    · rw [hstate 1 (by decide)]
      rfl
    · obtain rfl : i = 0 := Fin.ext (by have := Fin.lt_def.1 hi; omega)
      rw [(hs.one.running 0).2 rfl]
      rfl
  have hread₁ : read (sampleRequest 'A' 2 0) k₁.fs = .ok r := by
    rw [hs.kernel]
    exact (read_read hread).trans hread
  have hcr3 : k₁.paging.cr3 ≠ .null := by
    rw [hpaging]
    intro h
    cases h
  have hcreate := processCreateUserProcess_created hcheck halloc hslot hread₁ hcr3 hcode
  let k₂ := ((k₁.loading (sampleRequest 'A' 2 0) 1 1 (((k₁.paging.create 1).mark 2).assign 1
    (pageIndex userStackAddr) (frameNumber 2)) r.fs).started 1).useDirectory k₁.paging.cr3
  have hcall : CallStep (.create (sampleRequest 'A' 2 0)) k₁ k₂ := callStep_create hcreate
  have hsecond : EventStep (.call (.create (sampleRequest 'A' 2 0))) k₁ k₂ := hcall
  have hok : SparesRunning (.call (.create (sampleRequest 'A' 2 0))) k₁ :=
    fun _ hfails => absurd hfails (not_readFails hread₁ hcode)
  obtain ⟨hk₂, hone, -⟩ := hs.one.event_spec hk₁ hsecond
  obtain ⟨c, hc⟩ := hone.2 hok
  obtain rfl : c = 0 := by
    have hcurrent := (state_calls (hk₁.callStep hcall)).1
    rw [hc.current, hs.one.current] at hcurrent
    exact Fin.ext (by exact_mod_cast hcurrent)
  have hcount₂ : k₂.activeProcessCount = 2 := by
    show k₁.activeProcessCount + 1 = 2
    rw [hcount]
    rfl
  have htick₂ : k₂.tickCounter.toNat = 0 := by
    show k₁.tickCounter.toNat = 0
    rw [htick]
    rfl
  exact ⟨fs, _, ctx, k₁, k₂, hstep, hfirst, hsecond, hok, hk₂, hc, hcount₂, htick₂⟩

/-- With two processes the tenth interrupt switches. -/
theorem exists_tenTicks {k₂ : Kernel} (hk₂ : Consistent k₂) (hc : OneRunning k₂ 0)
    (hcount₂ : k₂.activeProcessCount = 2) (htick₂ : k₂.tickCounter.toNat = 0) :
    ∃ k, Run EventStep SparesRunning k₂ k ∧ k.activeProcessCount = 2 ∧
        k.tickCounter.toNat = 10 := by
  let frame : InterruptFrame := ⟨⟨0, 0, 0, 0, 0, 0, 0, 0, 0, 0, 0, 0⟩, 0x20, ⟨0, 0, 0, 0⟩⟩
  -- nine interrupts count, and the next one switches
  obtain ⟨k₃, hticks, hk₃, hc₃, hcount₃, htick₃⟩ := exists_ticks (n := 9) frame hk₂ hc (by omega)
  obtain ⟨ctx', k, hisr⟩ : ∃ ctx k, timerIsr frame k₃ = .ok (ctx, k) :=
    hc₃.timerIsr_ok (fun _ => by decide) fun i hi => hk₃.not_null hi
  have htimer : EventStep (.timer frame) k₃ k := bind_eq_ok.2 ⟨_, hisr, rfl⟩
  obtain ⟨-, -, -, hspares⟩ := hc₃.timer_spec hk₃ htimer
  have hswitches : k₃.switches = true := (switches_iff (by omega)).2 ⟨by omega, by omega⟩
  obtain ⟨j, -, hswitched⟩ := (hc₃.timerIsr_spec hisr).resolve_left fun h => by
    rw [hc₃.timerIsr_eq, if_pos hswitches] at hisr
    obtain ⟨x, -, hx⟩ := bind_eq_ok.1 hisr
    rw [h.1] at hx
    cases hx
  refine ⟨k, hticks.tail hspares htimer, ?_, ?_⟩
  · rw [hswitched.kernel]
    show k₃.tick.activeProcessCount = 2
    rw [tick_activeProcessCount, hcount₃, hcount₂]
  · rw [hswitched.kernel]
    show k₃.tick.tickCounter.toNat = 10
    rw [tick_tickCounter (by omega)]
    omega

/-- After the first switch the process that runs creates another one, and ten timer interrupts come,
of which the last one switches. Then the timer still finds a running process. -/
theorem oneRunning_switched : ∃ fs k₀ ctx k₁ k₂ k,
    CallStep (.create (sampleRequest 'A' 2 0)) (.initial fs) k₀ ∧
    schedulerSwitchToNextProcess k₀ = .ok (ctx, k₁) ∧
    EventStep (.call (.create (sampleRequest 'A' 2 0))) k₁ k₂ ∧ Run EventStep SparesRunning k₂ k ∧
    k.activeProcessCount = 2 ∧ k.tickCounter.toNat = 10 ∧
    processGetCurrentRunningPcbPointer k ≠ none ∧ ∀ frame, ∃ r, timerIsr frame k = .ok r := by
  obtain ⟨fs, k₀, ctx, k₁, k₂, hstep, hfirst, hsecond, hok, hk₂, hc, hcount₂, htick₂⟩ :=
    exists_secondCreated
  obtain ⟨k, hrun, hcount, htick⟩ := exists_tenTicks hk₂ hc hcount₂ htick₂
  obtain ⟨-, hfound, htimers, -⟩ :=
    oneRunning_iff (.single trivial hstep) hfirst ((Run.single hok hsecond).trans hrun)
  refine ⟨fs, k₀, ctx, k₁, k₂, k, hstep, hfirst, hsecond, hrun, hcount, htick, hfound,
    fun frame => ?_⟩
  refine htimers frame fun hswitch => ?_
  have := ((switches_iff (by omega)).1 hswitch).2
  omega

end OsKernel
