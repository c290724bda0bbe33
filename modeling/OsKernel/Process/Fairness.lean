import OsKernel.Process.Accounting
import OsKernel.Process.Rotation
import OsKernel.Process.Running

/-!
# How long a process waits

A process that is READY or NEW waits for the timer to switch to it. Every switch selects it or
passes on to a slot before it in turn, so the slots ahead of it get fewer (`Rotates.ahead_lt`); a
NEW one can be passed once. With two processes alive the timer switches at every tenth interrupt. So
each timer interrupt lowers one measure (`waitingTime`), which no other event changes, and a process
does not wait longer than that (`waiting_bounded`).
-/

namespace OsKernel

open Lib

/-- The process in slot `i` waits for its turn. -/
def Waits (i : Fin 16) (k : Kernel) : Prop := k.state i = .ready ∨ k.state i = .new

/-- The switches that can pass before slot `i` is selected. -/
def slotsAhead (i : Fin 16) (k : Kernel) : Nat :=
  turn k.start i + if k.state i = .new then 16 else 0

/-- The timer interrupts that can pass before slot `i` is selected. -/
def waitingTime (i : Fin 16) (k : Kernel) : Nat :=
  10 * slotsAhead i k + (9 - k.tickCounter.toNat % 10)

/-- The running process is spared, and no creation fails at the read of the executable. -/
def KeepsProcesses (e : KernelEvent) (k : Kernel) : Prop :=
  SparesRunning e k ∧ ∀ c, e = .call c → ReadsWell c k

/-- The event is a timer interrupt. -/
def KernelEvent.isTimer : KernelEvent → Bool
  | timer _ => true
  | _ => false

/-! ## One switch -/

section Switch
variable {k k' : Kernel} {c i j : Fin 16} {s : Fin 16} {passed : Fin 16 → Prop}

theorem Waits.ne_running (hi : Waits i k) : k.state i ≠ .running := by
  rcases hi with hi | hi
  · rw [hi]
    decide
  · rw [hi]
    decide

theorem Waits.ne_terminated (hi : Waits i k) : k.state i ≠ .terminated := by
  rcases hi with hi | hi
  · rw [hi]
    decide
  · rw [hi]
    decide

theorem turn_ne (h : i ≠ j) : turn s i ≠ turn s j := by
  intro heq
  apply h
  rw [← @behind_turn s i, heq, behind_turn]

/-- Behind a slot that comes first there are fewer slots to go. -/
theorem turn_behind_lt (h : turn s j < turn s i) : turn (behind j 1) i < turn s i := by
  unfold turn behind at *
  simp only at *
  omega

theorem OneRunning.start_eq (h : OneRunning k c) : k.start = behind c 1 := by
  unfold Kernel.start behind
  rw [Fin.mk.injEq, h.current]
  omega

/-- The slot that runs comes last in turn. -/
theorem OneRunning.turn_lt_current (h : OneRunning k c) (hi : i ≠ c) : turn k.start i < 15 := by
  have hne : i.val ≠ c.val := fun heq => hi (Fin.ext heq)
  rw [h.start_eq]
  unfold turn behind
  simp only
  omega

theorem OneRunning.slotsAhead_lt (h : OneRunning k c) (hi : Waits i k) :
    slotsAhead i k < if k.state i = .new then 31 else 15 := by
  have hturn := h.turn_lt_current fun hic => hi.ne_running ((h.running i).2 hic)
  unfold slotsAhead
  split
  · omega
  · omega

/-- A switch to another slot leaves fewer slots ahead of one that waits. -/
theorem Rotates.ahead_lt (hr : Rotates k j passed k') (hn : NextProcess k j passed)
    (h : OneRunning k c) (hi : Waits i k) (hi' : Waits i k') :
    slotsAhead i k' < slotsAhead i k := by
  have hij : i ≠ j := by
    rintro rfl
    exact hi'.ne_running hr.selected
  have hic : k.currentProcessListId ≠ i.val := by
    intro heq
    have hval : i = c := Fin.ext (by have := h.current; omega)
    exact hi.ne_running ((h.running i).2 hval)
  have hstart : k'.start = behind j 1 := by
    unfold Kernel.start behind
    rw [Fin.mk.injEq, hr.kernel]
    simp only
    omega
  have hturn := @turn_lt k'.start i
  unfold slotsAhead
  cases hn with
  | new hnone => exact absurd (.inr h.current) (hnone c)
  | ready _ hfirst =>
    rcases hi with hready | hnew
    · have hlt : turn k.start j < turn k.start i :=
        lt_of_le_of_ne (hfirst i (.inl hready)) (turn_ne hij.symm)
      have hstate : k'.state i = .ready := by
        rw [hr.other i hij (fun hp => nomatch hready.symm.trans hp.2) hic, hready]
      rw [hready, hstate, hstart, if_neg (by decide), Nat.add_zero]
      exact turn_behind_lt hlt
    · rw [if_pos hnew]
      by_cases hpassed : turn k.start i < turn k.start j
      · -- the search passes it, so it is READY in the next round
        rw [hr.passedNew i hij hpassed hnew, if_neg (by decide)]
        omega
      · have hlt : turn k.start j < turn k.start i :=
          lt_of_le_of_ne (not_lt.1 hpassed) (turn_ne hij.symm)
        rw [hr.other i hij (fun hp => hpassed hp.1) hic, if_pos hnew, hstart]
        exact Nat.add_lt_add_right (turn_behind_lt hlt) 16

end Switch

/-! ## One event -/

/-- What events keep once the first process runs. -/
structure Schedules (k : Kernel) : Prop where
  consistent : Consistent k
  running : ∃ c, OneRunning k c
  counts : CountsLive k
  tick : k.tickCounter.toNat < 1000

section Event
variable {k k' : Kernel} {c i : Fin 16} {e : KernelEvent} {call : ProcessCall}
  {frame : InterruptFrame} {ctx : Context}

/-- A process that runs and one that waits are two. -/
theorem CountsLive.one_lt (h : CountsLive k) (hc : OneRunning k c) (hi : Waits i k) :
    1 < k.activeProcessCount := by
  have hic : i ≠ c := fun hic => hi.ne_running ((hc.running i).2 hic)
  have hcard : 1 < (liveSlots k).card :=
    Finset.one_lt_card.2 ⟨i, mem_liveSlots.2 hi.ne_terminated, c, mem_liveSlots.2 hc.live, hic⟩
  rw [h]
  omega

/-- A system call leaves the counter of the timer alone. -/
theorem tickCounter_calls (hc : Calls k call k') : k'.tickCounter = k.tickCounter := by
  cases hc with
  | create hc =>
    cases hc with
    | refused => rfl
    | created => rfl
    | failed => rfl
  | destroy hd =>
    cases hd with
    | missing => rfl
    | destroyed => rfl

/-- A system call does not change how long a process waits. -/
theorem waitingTime_calls (hc : Calls k call k') (hi : Waits i k) (hi' : Waits i k') :
    waitingTime i k' = waitingTime i k := by
  obtain ⟨hid, hstate⟩ := state_calls hc
  have hsame : k'.state i = k.state i := by
    rcases hstate i with hsame | hterm | ⟨hterm, -⟩
    · exact hsame
    · exact absurd hterm hi'.ne_terminated
    · exact absurd hterm hi.ne_terminated
  have hstart : k'.start = k.start := by
    unfold Kernel.start
    rw [Fin.mk.injEq, hid]
  rw [waitingTime, slotsAhead, hsame, hstart, tickCounter_calls hc]
  rfl

theorem liveSlots_congr (h : ∀ i, k'.state i = .terminated ↔ k.state i = .terminated) :
    liveSlots k' = liveSlots k := by
  ext i
  rw [mem_liveSlots, mem_liveSlots, ne_eq, h]

/-- What a timer interrupt that completes comes to. -/
theorem OneRunning.timer_cases (h : OneRunning k c) (hstep : EventStep (.timer frame) k k') :
    (k.switches = false ∧ k' = k.tick) ∨
      k.switches = true ∧
          ∃ ctx, schedulerSwitchToNextProcess (k.saveFrame c frame) = .ok (ctx, k') := by
  obtain ⟨⟨ctx, k₁⟩, hrun, hstep⟩ := bind_eq_ok.1 hstep
  cases hstep
  rw [h.timerIsr_eq] at hrun
  split at hrun
  · next hswitch =>
    obtain ⟨⟨ctx', k₂⟩, hnext, hrun⟩ := bind_eq_ok.1 hrun
    cases hrun
    exact .inr ⟨hswitch, ctx', hnext⟩
  · next hswitch =>
    cases hrun
    exact .inl ⟨Bool.eq_false_iff.2 hswitch, rfl⟩

/-- The counters of the kernel after a switch. -/
theorem OneRunning.switch_counters (h : OneRunning k c)
    (hswitch : schedulerSwitchToNextProcess (k.saveFrame c frame) = .ok (ctx, k')) :
    k'.tickCounter = k.tick.tickCounter ∧ k'.activeProcessCount = k.activeProcessCount := by
  obtain ⟨j, hs, -⟩ := h.saveFrame.switch_spec hswitch
  rw [hs.kernel]
  exact ⟨rfl, tick_activeProcessCount⟩

/-- A timer interrupt lowers the time that a process waits. -/
theorem Schedules.waitingTime_timer (h : Schedules k) (hok : SparesRunning (.timer frame) k)
    (hstep : EventStep (.timer frame) k k') (hi : Waits i k) (hi' : Waits i k') :
    waitingTime i k' + 1 ≤ waitingTime i k := by
  obtain ⟨c, hc⟩ := h.running
  have hiff := (switches_iff h.tick).trans (and_iff_right (h.counts.one_lt hc hi))
  have htick := tick_tickCounter h.tick
  rcases hc.timer_cases hstep with ⟨hstays, rfl⟩ | ⟨hswitch, ctx, hnext⟩
  · have hnine : k.tickCounter.toNat % 10 ≠ 9 := by
      intro hnine
      rw [hiff.2 hnine] at hstays
      cases hstays
    have hahead : slotsAhead i k.tick = slotsAhead i k := by
      unfold slotsAhead
      rw [tick_state, hc.tick.start_eq, hc.start_eq]
    rw [waitingTime, waitingTime, hahead, htick]
    omega
  · have hnine := hiff.1 hswitch
    have hlast : (k.saveFrame c frame).currentProcessListId ≠ 15 := by
      show k.tick.currentProcessListId ≠ 15
      rw [tick_currentProcessListId]
      exact hok hswitch
    have hsave : OneRunning (k.saveFrame c frame) c := hc.saveFrame
    obtain ⟨j, passed, k₁, hn, hr, hload⟩ :=
      (switch_selects_iff (.inl ⟨c, hsave.current, (hsave.running c).2 rfl⟩)).2 hlast
    rw [hload] at hnext
    obtain ⟨paging, -, hnext⟩ := bind_eq_ok.1 hnext
    cases hnext
    have hwait : Waits i (k.saveFrame c frame) := by
      rw [Waits, saveFrame_state]
      exact hi
    have hlt : slotsAhead i k₁ < slotsAhead i (k.saveFrame c frame) :=
      hr.ahead_lt hn hsave hwait hi'
    have hahead : slotsAhead i (k.saveFrame c frame) = slotsAhead i k := by
      unfold slotsAhead
      rw [saveFrame_state, hsave.start_eq, hc.start_eq]
    have hcounter : k₁.tickCounter.toNat = (k.tickCounter.toNat + 1) % 1000 := by
      rw [hr.kernel]
      exact htick
    show 10 * slotsAhead i k₁ + (9 - k₁.tickCounter.toNat % 10) + 1 ≤ _
    rw [waitingTime, hcounter]
    omega

/-- An event keeps the running process, the counts and the range of the counter. -/
theorem Schedules.event (h : Schedules k) (hok : KeepsProcesses e k) (hstep : EventStep e k k') :
    Schedules k' := by
  obtain ⟨c, hc⟩ := h.running
  obtain ⟨hk', hone, -⟩ := hc.event_spec h.consistent hstep
  have hrunning := hone.2 hok.1
  have hcalls : ∀ call, ReadsWell call k → CallStep call k k' → Schedules k' := by
    intro call hwell hcall
    have hcall := h.consistent.callStep hcall
    refine ⟨hk', hrunning, (h.counts.calls_iff hcall).2 hwell, ?_⟩
    rw [tickCounter_calls hcall]
    exact h.tick
  cases e with
  | call call => exact hcalls call (hok.2 call rfl) hstep
  | exit => exact hcalls (.destroy k.exitPid) trivial hstep
  | timer frame =>
    obtain ⟨-, -, hterm, -⟩ := hc.timer_spec h.consistent hstep
    have hcounters : k'.tickCounter = k.tick.tickCounter ∧
        k'.activeProcessCount = k.activeProcessCount := by
      rcases hc.timer_cases hstep with ⟨-, rfl⟩ | ⟨-, ctx, hnext⟩
      · exact ⟨rfl, tick_activeProcessCount⟩
      · exact hc.switch_counters hnext
    refine ⟨hk', hrunning, ?_, ?_⟩
    · rw [CountsLive, hcounters.2, liveSlots_congr hterm]
      exact h.counts
    · rw [hcounters.1, tick_tickCounter h.tick]
      exact Nat.mod_lt _ (by decide)

/-- Timer interrupts lower the time that a process waits, and nothing raises it. -/
theorem Schedules.waitingTime_event (h : Schedules k) (hok : KeepsProcesses e k)
    (hstep : EventStep e k k') (hi : Waits i k) (hi' : Waits i k') :
    waitingTime i k' + (if e.isTimer then 1 else 0) ≤ waitingTime i k := by
  cases e with
  | call call => exact Nat.le_of_eq (waitingTime_calls (h.consistent.callStep hstep) hi hi')
  | exit =>
    have hcall : CallStep (.destroy k.exitPid) k k' := hstep
    exact Nat.le_of_eq (waitingTime_calls (h.consistent.callStep hcall) hi hi')
  | timer frame => exact h.waitingTime_timer hok.1 hstep hi hi'

end Event

/-! ## Runs -/

section Runs
variable {k₀ k₁ k k' : Kernel} {fs : FileSystem} {ctx : Context} {i : Fin 16} {n : Nat}

theorem boot_tickCounter (h₀ : Run CallStep ReadsWell (.initial fs) k₀) : k₀.tickCounter = 0 := by
  refine (h₀.invariant (I := fun k => Consistent k ∧ k.tickCounter = 0) ?_
    ⟨consistent_initial fs, rfl⟩).2
  intro c k k' ⟨hk, htick⟩ _ hstep
  have hc := hk.callStep hstep
  exact ⟨hk.calls hc, (tickCounter_calls hc).trans htick⟩

/-- The first switch starts it. -/
theorem schedules_firstSwitch (h₀ : Run CallStep ReadsWell (.initial fs) k₀)
    (hfirst : schedulerSwitchToNextProcess k₀ = .ok (ctx, k₁)) : Schedules k₁ := by
  have hboot : Run CallStep (fun _ _ => True) (.initial fs) k₀ := h₀.mono fun _ _ _ => trivial
  obtain ⟨hk, hid, hnone⟩ := boot_spec hboot
  obtain ⟨hk₁, hrunning⟩ := firstSwitch_spec hboot hfirst
  obtain ⟨j, hs, -⟩ := schedulerSwitch_spec (fun i hi => by rw [hid] at hi; omega)
    (fun i hi => absurd hi (hnone i)) hfirst
  refine ⟨hk₁, hrunning, ?_, ?_⟩
  · rw [CountsLive, liveSlots_congr hs.terminated, hs.kernel]
    exact (consistent_run h₀).2
  · rw [hs.kernel]
    show k₀.tickCounter.toNat < 1000
    rw [boot_tickCounter h₀]
    decide

/-- From any state that is reached after the first switch, with no destruction of the running
process, no switch from slot 15 and no creation that fails at the read, a process that is READY or
NEW waits for fewer than 10 timer interrupts for each switch that can pass before its turn: for
fewer than 150 when it is READY, and for fewer than 310 when it is NEW. -/
theorem waiting_bounded (h₀ : Run CallStep ReadsWell (.initial fs) k₀)
    (hfirst : schedulerSwitchToNextProcess k₀ = .ok (ctx, k₁))
    (hrun : Run EventStep KeepsProcesses k₁ k)
    (hwaits : Run (Counted EventStep KernelEvent.isTimer)
      (fun e x => KeepsProcesses e x.1 ∧ Waits i x.1) (k, 0) (k', n))
    (hi : Waits i k) (hi' : Waits i k') :
    n < 10 * (slotsAhead i k + 1) ∧ slotsAhead i k < if k.state i = .new then 31 else 15 := by
  have hk : Schedules k := hrun.invariant (fun _ _ _ h hok hstep => h.event hok hstep)
    (schedules_firstSwitch h₀ hfirst)
  obtain ⟨c, hc⟩ := hk.running
  have hle : n + waitingTime i k' ≤ waitingTime i k := by
    refine Counted.le_measure (I := Schedules) ?_ ?_ hwaits hk hi'
    · exact fun e k k' h hok hstep => h.event hok hstep
    · exact fun e k k' h hok hstep => h.waitingTime_event hok hstep
  refine ⟨?_, hc.slotsAhead_lt hi⟩
  unfold waitingTime at hle
  omega

end Runs

/-- Two processes are created on a disk with their executable. -/
theorem exists_twoNew : ∃ fs k, Run CallStep ReadsWell (.initial fs) k ∧
    k.state 0 = .new ∧ k.state 1 = .new ∧ ∀ i, k.state i ≠ .ready := by
  obtain ⟨fs, r, hcode, hread, hread₁, hfirst, hsecond⟩ := exists_twoCreated
  have hwell : ReadsWell (.create (sampleRequest 'A' 2 0)) (.initial fs) :=
    fun _ => not_readFails hread hcode
  have hwell₁ : ReadsWell (.create (sampleRequest 'A' 2 0)) (oneCreated fs r) :=
    fun _ => not_readFails hread₁ hcode
  have hstate := twoCreated_state fs r
  refine ⟨fs, twoCreated fs r, (Run.single hwell hfirst).tail hwell₁ hsecond, (hstate 0).trans rfl,
    (hstate 1).trans rfl, fun i => ?_⟩
  rw [hstate]
  split
  · decide
  · split
    · decide
    · decide

/-- Of two processes one runs after the first switch; the other one has waited for one interrupt. -/
theorem waiting_bounded_two : ∃ fs k₀ ctx k₁ k₂ i,
    Run CallStep ReadsWell (.initial fs) k₀ ∧ schedulerSwitchToNextProcess k₀ = .ok (ctx, k₁) ∧
    Waits i k₁ ∧ Waits i k₂ ∧ (∀ frame, EventStep (.timer frame) k₁ k₂) ∧
    1 < 10 * (slotsAhead i k₁ + 1) := by
  obtain ⟨fs, k₀, h₀, hzero, hone, hready⟩ := exists_twoNew
  have hboot : Run CallStep (fun _ _ => True) (.initial fs) k₀ := h₀.mono fun _ _ _ => trivial
  obtain ⟨hk, hid, -⟩ := boot_spec hboot
  obtain ⟨ctx, k₁, hswitch⟩ := firstSwitch_ok hid hzero fun i hi => hk.not_null hi
  have hs := schedules_firstSwitch h₀ hswitch
  obtain ⟨c, hc⟩ := hs.running
  obtain ⟨j, passed, k', hn, hr, hload⟩ :=
    (switch_selects_iff (.inr ⟨hid, 0, hzero⟩)).2 (by rw [hid]; decide)
  have hswitch' := hswitch
  rw [hload] at hswitch'
  obtain ⟨paging, -, heq⟩ := bind_eq_ok.1 hswitch'
  cases heq
  obtain ⟨i, hij, hnew⟩ : ∃ i, i ≠ j ∧ k₀.state i = .new := by
    by_cases hj : j = 0
    · exact ⟨1, by rw [hj]; decide, hone⟩
    · exact ⟨0, Ne.symm hj, hzero⟩
  have hwait : Waits i { k' with paging := paging } := by
    cases hn with
    | ready hj =>
      rcases hj with hj | hj
      · exact absurd hj (hready _)
      · rw [hid] at hj
        omega
    | new => exact .inl (hr.passedNew i hij trivial hnew)
  have htick : k'.tickCounter = k₀.tickCounter := by
    rw [hr.kernel]
  have hstays : ({ k' with paging := paging } : Kernel).switches ≠ true := by
    intro hswitches
    have hnine : k'.tickCounter.toNat % 10 = 9 := ((switches_iff hs.tick).1 hswitches).2
    rw [htick, boot_tickCounter h₀] at hnine
    cases hnine
  have hstep : ∀ frame, EventStep (.timer frame) { k' with paging := paging }
      ({ k' with paging := paging } : Kernel).tick :=
    fun frame => bind_eq_ok.2 ⟨_, hc.timerIsr_eq.trans (if_neg hstays), rfl⟩
  have hwait' : Waits i ({ k' with paging := paging } : Kernel).tick := by
    rw [Waits, tick_state]
    exact hwait
  have hkeeps : ∀ frame, KeepsProcesses (.timer frame) { k' with paging := paging } :=
    fun frame => ⟨fun hswitches => absurd hswitches hstays, fun c h => nomatch h⟩
  let frame : InterruptFrame := ⟨⟨0, 0, 0, 0, 0, 0, 0, 0, 0, 0, 0, 0⟩, 0x20, ⟨0, 0, 0, 0⟩⟩
  have hwaits : Run (Counted EventStep KernelEvent.isTimer)
      (fun e x => KeepsProcesses e x.1 ∧ Waits i x.1) ({ k' with paging := paging }, 0)
      (({ k' with paging := paging } : Kernel).tick, 1) :=
    Run.single ⟨hkeeps frame, hwait⟩ ⟨hstep frame, rfl⟩
  exact ⟨fs, k₀, _, _, _, i, h₀, hswitch, hwait, hwait', hstep,
    (waiting_bounded h₀ hswitch .refl hwaits hwait hwait').1⟩

end OsKernel
