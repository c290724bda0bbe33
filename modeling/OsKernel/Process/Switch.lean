import OsKernel.Process.Scheduler

/-!
# What a switch does

`scheduler_switch_to_next_process` changes the states of slots only: the slot that was running
becomes READY, the NEW slots that the search passes become READY, and the slot it stops at becomes
RUNNING (`Switched`). From a kernel with one running slot the search ends, as it comes back to that
slot (`OneRunning.switch_ok`), but it starts outside of the list when that is slot 15.
-/

namespace OsKernel

open Lib

/-! ## Slots -/

section Slots
variable {k k' : Kernel} {i j : Fin 16} {s : ProcessState} {n : Int}

@[simp] theorem setState_state (pcb : ProcessControlBlock) (s : ProcessState) :
    (pcb.setState s).metadata.state = s := rfl

@[simp] theorem setState_context (pcb : ProcessControlBlock) (s : ProcessState) :
    (pcb.setState s).context = pcb.context := rfl

@[simp] theorem setState_setState (pcb : ProcessControlBlock) (s s' : ProcessState) :
    (pcb.setState s).setState s' = pcb.setState s' := rfl

@[simp] theorem setState_self (pcb : ProcessControlBlock) :
    pcb.setState pcb.metadata.state = pcb := rfl

theorem Kernel.setState_apply : (k.setState i s).processList j =
    if j = i then (k.processList j).setState s else k.processList j := by
  show Function.update k.processList i ((k.processList i).setState s) j = _
  rw [Function.update_apply]
  split
  · next h => rw [h]
  · rfl

theorem Kernel.state_setState : (k.setState i s).state j = if j = i then s else k.state j := by
  rw [Kernel.state, Kernel.setState_apply]
  split <;> rfl

theorem processListIndex_val (i : Fin 16) : processListIndex (i.val : Int) = .ok i := by
  unfold processListIndex
  rw [dif_pos (by omega)]
  rfl

theorem processListIndex_eq_ok : processListIndex n = .ok i ↔ n = i.val := by
  unfold processListIndex
  split
  · rw [Except.ok.injEq, Fin.ext_iff]
    simp only
    omega
  · refine iff_of_false (fun h => nomatch h) ?_
    omega

/-- Only states differ between the two kernels, and the same slots are TERMINATED. -/
structure StatesChange (k k' : Kernel) : Prop where
  kernel : k' = { k with processList := k'.processList }
  slot : ∀ i, k'.processList i = (k.processList i).setState (k'.state i)
  terminated : ∀ i, k'.state i = .terminated ↔ k.state i = .terminated

namespace StatesChange

theorem refl (k : Kernel) : StatesChange k k := ⟨rfl, fun _ => rfl, fun _ => Iff.rfl⟩

theorem trans {k'' : Kernel} (h : StatesChange k k') (h' : StatesChange k' k'') :
    StatesChange k k'' where
  kernel := by rw [h'.kernel, h.kernel]
  slot i := by rw [h'.slot i, h.slot i, setState_setState]
  terminated i := (h'.terminated i).trans (h.terminated i)

theorem context (h : StatesChange k k') (i : Fin 16) :
    (k'.processList i).context = (k.processList i).context := by
  rw [h.slot i, setState_context]

theorem paging (h : StatesChange k k') : k'.paging = k.paging := by
  rw [h.kernel]

/-- A slot that is not TERMINATED gets another state than that. -/
theorem setState (hi : k.state i ≠ .terminated) (hs : s ≠ .terminated) :
    StatesChange k (k.setState i s) where
  kernel := rfl
  slot j := by
    rw [Kernel.setState_apply, Kernel.state_setState]
    split <;> rfl
  terminated j := by
    rw [Kernel.state_setState]
    split
    · next heq => exact iff_of_false hs (heq ▸ hi)
    · rfl

end StatesChange

end Slots

/-! ## The search -/

section Select
variable {k k' : Kernel} {i j : Fin 16} {n : Int} {steps : Nat}

/-- The slot that was running becomes READY. -/
theorem readyCurrent_spec
    (hcurrent : ∀ i : Fin 16, k.currentProcessListId = i.val → k.state i ≠ .terminated)
    (hrunning : ∀ i, k.state i = .running → k.currentProcessListId = i.val)
    (h : readyCurrent k = .ok k') : StatesChange k k' ∧ ∀ i, k'.state i ≠ .running := by
  unfold readyCurrent at h
  split at h
  · obtain ⟨i, hi, h⟩ := bind_eq_ok.1 h
    cases h
    rw [processListIndex_eq_ok] at hi
    refine ⟨.setState (hcurrent i hi) (by decide), fun j hj => ?_⟩
    rw [Kernel.state_setState] at hj
    split at hj
    · cases hj
    · next hne =>
      have := hrunning j hj
      exact hne (Fin.ext (by omega))
  · next hnone =>
    cases h
    refine ⟨.refl k, fun i hi => hnone fun heq => ?_⟩
    have := hrunning i hi
    omega

/-- The search stops at a READY slot, and makes no slot RUNNING. -/
theorem selectProcess_spec (h : selectProcess steps n k = .ok (j, k')) :
    StatesChange k k' ∧ k'.state j = .ready ∧ ∀ i, k'.state i = .running →
        k.state i = .running := by
  induction steps generalizing n k with
  | zero => cases h
  | succ steps ih =>
    unfold selectProcess at h
    obtain ⟨i, hi, h⟩ := bind_eq_ok.1 h
    split at h
    · next hready =>
      cases h
      exact ⟨.refl _, hready, fun _ => id⟩
    · split at h
      · next hnew =>
        obtain ⟨hchange, hready, hrunning⟩ := ih h
        have hlive : k.state i ≠ .terminated := by
          rw [hnew]
          exact fun h => nomatch h
        refine ⟨(StatesChange.setState (s := .ready) hlive (by decide)).trans hchange, hready, ?_⟩
        intro j hj
        have hj := hrunning j hj
        rw [Kernel.state_setState] at hj
        split at hj
        · cases hj
        · exact hj
      · exact ih h

/-- The index after a slot is that of a slot. -/
theorem selectProcess_next : (if (i.val : Int) + 1 ≥ processCountMax
    then (i.val : Int) + 1 - processCountMax else i.val + 1) =
      ((⟨(i.val + 1) % 16, by omega⟩ : Fin 16).val : Int) := by
  simp only [processCountMax]
  split <;> omega

/-- The search ends when some slot is READY: it comes by that slot within one round. -/
theorem selectProcess_ends (r : Fin 16) (hready : k.state r = .ready)
    (hsteps : (r.val + 16 - i.val) % 16 < steps) :
    ∃ j k', selectProcess steps i.val k = .ok (j, k') := by
  induction steps generalizing i k with
  | zero => exact absurd hsteps (Nat.not_lt_zero _)
  | succ steps ih =>
    unfold selectProcess
    rw [processListIndex_val, ok_bind]
    by_cases hi : k.state i = .ready
    · rw [if_pos hi]
      exact ⟨i, k, rfl⟩
    · rw [if_neg hi]
      have hri : r ≠ i := by
        rintro rfl
        exact hi hready
      have hval : r.val ≠ i.val := fun h => hri (Fin.ext h)
      rw [selectProcess_next]
      refine ih ?_ ?_
      · split
        · rw [Kernel.state_setState, if_neg hri]
          exact hready
        · exact hready
      · simp only
        omega

/-- The search ends when some slot is NEW: that slot is READY when the search comes by it again. -/
theorem selectProcess_ends_new (r : Fin 16) (hnew : k.state r = .new)
    (hsteps : (r.val + 16 - i.val) % 16 + 16 < steps) :
    ∃ j k', selectProcess steps i.val k = .ok (j, k') := by
  induction steps generalizing i k with
  | zero => exact absurd hsteps (Nat.not_lt_zero _)
  | succ steps ih =>
    unfold selectProcess
    rw [processListIndex_val, ok_bind]
    by_cases hi : k.state i = .ready
    · rw [if_pos hi]
      exact ⟨i, k, rfl⟩
    · rw [if_neg hi, selectProcess_next]
      by_cases hri : r = i
      · subst hri
        rw [if_pos hnew]
        refine selectProcess_ends r (by rw [Kernel.state_setState, if_pos rfl]) ?_
        simp only
        omega
      · have hval : r.val ≠ i.val := fun h => hri (Fin.ext h)
        refine ih ?_ ?_
        · split
          · rw [Kernel.state_setState, if_neg hri]
            exact hnew
          · exact hnew
        · simp only
          omega

end Select

/-! ## The switch -/

/-- The slot `c` is the current one, and the only one that is RUNNING. -/
structure OneRunning (k : Kernel) (c : Fin 16) : Prop where
  current : k.currentProcessListId = c.val
  running : ∀ i, k.state i = .running ↔ i = c

/-- The kernel has switched to the process of slot `j`: every slot keeps all but its state, `j` is
the one that is running, and no other slot is TERMINATED than before. -/
structure Switched (k k' : Kernel) (j : Fin 16) : Prop where
  kernel : k' = { k with
    processList := k'.processList
    currentProcessListId := k'.currentProcessListId
    paging := { k.paging with cr3 := (k.processList j).context.pageDirectory } }
  one : OneRunning k' j
  slot : ∀ i, k'.processList i = (k.processList i).setState (k'.state i)
  terminated : ∀ i, k'.state i = .terminated ↔ k.state i = .terminated
  live : k.state j ≠ .terminated

section Switch
variable {k k' : Kernel} {c j : Fin 16} {ctx : Context}

/-- With no other slot RUNNING, the slot that was found is the one that runs. -/
theorem runProcess_spec (hlive : k.state j ≠ .terminated) (hnone : ∀ i, k.state i ≠ .running)
    (h : runProcess j k = .ok (ctx, k')) :
    Switched k k' j ∧ ctx = (k.processList j).context := by
  unfold runProcess at h
  obtain ⟨paging, hpaging, h⟩ := bind_eq_ok.1 h
  have hchange : StatesChange k (k.setState j .running) := .setState hlive (by decide)
  have hctx : ((k.setState j .running).processList j).context = (k.processList j).context :=
    hchange.context j
  have hcr3 : paging = { k.paging with cr3 := (k.processList j).context.pageDirectory } := by
    unfold pagingUsePageDirectory at hpaging
    split at hpaging
    · cases hpaging
    · cases hpaging
      rw [← hctx]
      rfl
  cases h
  refine ⟨⟨?_, ⟨rfl, fun i => ?_⟩, hchange.slot, hchange.terminated, hlive⟩, hctx⟩
  · rw [hcr3]
    rfl
  · show (k.setState j .running).state i = .running ↔ i = j
    rw [Kernel.state_setState]
    split
    · next heq => exact iff_of_true rfl heq
    · next hne => exact iff_of_false (hnone i) hne

/-- A slot with a page directory can run. -/
theorem runProcess_ok (hdir : (k.processList j).context.pageDirectory ≠ .null) :
    ∃ ctx k', runProcess j k = .ok (ctx, k') := by
  have hctx : ((k.setState j .running).processList j).context = (k.processList j).context := by
    rw [Kernel.setState_apply, if_pos rfl, setState_context]
  have huse : pagingUsePageDirectory
      ((k.setState j .running).processList j).context.pageDirectory k.paging =
        .ok { k.paging with
          cr3 := ((k.setState j .running).processList j).context.pageDirectory } := by
    unfold pagingUsePageDirectory
    rw [if_neg (hctx ▸ hdir)]
  exact ⟨_, _, bind_eq_ok.2 ⟨_, huse, rfl⟩⟩

/-- A switch that completes has loaded the context of the slot it has switched to. -/
theorem schedulerSwitch_spec
    (hcurrent : ∀ i : Fin 16, k.currentProcessListId = i.val → k.state i ≠ .terminated)
    (hrunning : ∀ i, k.state i = .running → k.currentProcessListId = i.val)
    (h : schedulerSwitchToNextProcess k = .ok (ctx, k')) :
    ∃ j, Switched k k' j ∧ ctx = (k.processList j).context := by
  unfold schedulerSwitchToNextProcess at h
  obtain ⟨k₁, hk₁, h⟩ := bind_eq_ok.1 h
  obtain ⟨⟨j, k₂⟩, hk₂, h⟩ := bind_eq_ok.1 h
  obtain ⟨hchange₁, hnone⟩ := readyCurrent_spec hcurrent hrunning hk₁
  obtain ⟨hchange₂, hready, hstill⟩ := selectProcess_spec hk₂
  have hchange := hchange₁.trans hchange₂
  have hlive : k₂.state j ≠ .terminated := by
    rw [hready]
    exact fun h => nomatch h
  obtain ⟨hs, hctx⟩ := runProcess_spec hlive (fun i hi => hnone i (hstill i hi)) h
  refine ⟨j, ⟨?_, hs.one, fun i => ?_, fun i => ?_, ?_⟩, hctx.trans (hchange.context j)⟩
  · rw [hs.kernel, hchange.kernel, hchange.context j]
  · rw [hs.slot i, hchange.slot i, setState_setState]
  · exact (hs.terminated i).trans (hchange.terminated i)
  · exact fun h => hlive ((hchange.terminated j).2 h)

/-- The running slot of a kernel is not TERMINATED. -/
theorem OneRunning.live (h : OneRunning k c) : k.state c ≠ .terminated := by
  rw [(h.running c).2 rfl]
  decide

/-- From a kernel with one running slot a switch that completes leaves one running slot. -/
theorem OneRunning.switch_spec (h : OneRunning k c)
    (hrun : schedulerSwitchToNextProcess k = .ok (ctx, k')) :
    ∃ j, Switched k k' j ∧ ctx = (k.processList j).context := by
  refine schedulerSwitch_spec (fun i hi => ?_) (fun i hi => ?_) hrun
  · have hic : i = c := Fin.ext (by have := h.current; omega)
    exact hic ▸ h.live
  · rw [(h.running i).1 hi]
    exact h.current

/-- A switch completes: the running slot is READY when the search comes back to it. -/
theorem OneRunning.switch_ok (h : OneRunning k c) (hc : c ≠ 15)
    (hdir : ∀ i, k.state i ≠ .terminated → (k.processList i).context.pageDirectory ≠ .null) :
    ∃ ctx k', schedulerSwitchToNextProcess k = .ok (ctx, k') := by
  have hready : readyCurrent k = .ok (k.setState c .ready) := by
    unfold readyCurrent
    rw [if_pos (by have := h.current; omega), h.current, processListIndex_val]
    rfl
  have hnext : (k.setState c .ready).currentProcessListId + 1 =
      ((⟨c.val + 1, by omega⟩ : Fin 16).val : Int) := by
    show k.currentProcessListId + 1 = _
    rw [h.current]
    rfl
  have hfound : (k.setState c .ready).state c = .ready := by
    rw [Kernel.state_setState, if_pos rfl]
  have hround : (c.val + 16 - (⟨c.val + 1, by omega⟩ : Fin 16).val) % 16 < selectSteps := by
    simp only [selectSteps, processCountMax]
    omega
  obtain ⟨j, k₂, hselect⟩ := selectProcess_ends c hfound hround
  have hchange := (StatesChange.setState (s := .ready) h.live (by decide)).trans
    (selectProcess_spec hselect).1
  have hlive : k.state j ≠ .terminated := by
    intro hj
    have hterm := (hchange.terminated j).2 hj
    rw [(selectProcess_spec hselect).2.1] at hterm
    cases hterm
  have hrun := runProcess_ok (k := k₂) (j := j) (by rw [hchange.context j]; exact hdir j hlive)
  unfold schedulerSwitchToNextProcess
  rw [hready, ok_bind, hnext, hselect]
  exact hrun

/-- The first switch completes when there is a NEW process. -/
theorem firstSwitch_ok (hid : k.currentProcessListId = -1) (hnew : k.state c = .new)
    (hdir : ∀ i, k.state i ≠ .terminated → (k.processList i).context.pageDirectory ≠ .null) :
    ∃ ctx k', schedulerSwitchToNextProcess k = .ok (ctx, k') := by
  have hready : readyCurrent k = .ok k := by
    unfold readyCurrent
    rw [hid, if_neg (by decide)]
  have hnext : k.currentProcessListId + 1 = ((0 : Fin 16).val : Int) := by
    rw [hid]
    rfl
  have hround : (c.val + 16 - (0 : Fin 16).val) % 16 + 16 < selectSteps := by
    simp only [selectSteps, processCountMax]
    omega
  obtain ⟨j, k₂, hselect⟩ := selectProcess_ends_new c hnew hround
  obtain ⟨hchange, hj, -⟩ := selectProcess_spec hselect
  have hlive : k.state j ≠ .terminated := by
    intro hterm
    rw [(hchange.terminated j).2 hterm] at hj
    cases hj
  have hrun := runProcess_ok (k := k₂) (j := j) (by rw [hchange.context j]; exact hdir j hlive)
  unfold schedulerSwitchToNextProcess
  rw [hready, ok_bind, hnext, hselect]
  exact hrun

/-- The search starts outside of the list when the current slot is the last one. -/
theorem switch_outside (h : k.currentProcessListId = 15) :
    schedulerSwitchToNextProcess k = .error (.processListIndex 16) := by
  have hready : readyCurrent k = .ok (k.setState 15 .ready) := by
    unfold readyCurrent
    rw [if_pos (by omega), h]
    rfl
  have hnext : (k.setState 15 .ready).currentProcessListId + 1 = 16 := by
    show k.currentProcessListId + 1 = 16
    rw [h]
    rfl
  unfold schedulerSwitchToNextProcess
  rw [hready, ok_bind, hnext]
  rfl

end Switch

/-! ## The timer interrupt -/

/-- The kernel after `timer_isr` has saved the frame of the process in slot `c`. -/
def Kernel.saveFrame (k : Kernel) (c : Fin 16) (frame : InterruptFrame) : Kernel :=
  { k.tick with
    processList := Function.update k.tick.processList c
      { k.tick.processList c with context := (k.tick.processList c).context.save frame } }

section Timer
variable {k k' : Kernel} {c i : Fin 16} {frame : InterruptFrame} {ctx : Option Context}

@[simp] theorem tick_processList : k.tick.processList = k.processList := by
  unfold Kernel.tick
  dsimp only
  split <;> rfl

@[simp] theorem tick_currentProcessListId :
    k.tick.currentProcessListId = k.currentProcessListId := by
  unfold Kernel.tick
  dsimp only
  split <;> rfl

@[simp] theorem tick_paging : k.tick.paging = k.paging := by
  unfold Kernel.tick
  dsimp only
  split <;> rfl

@[simp] theorem tick_activeProcessCount : k.tick.activeProcessCount = k.activeProcessCount := by
  unfold Kernel.tick
  dsimp only
  split <;> rfl

@[simp] theorem tick_state : k.tick.state i = k.state i := by
  rw [Kernel.state, tick_processList, Kernel.state]

theorem OneRunning.tick (h : OneRunning k c) : OneRunning k.tick c where
  current := by rw [tick_currentProcessListId, h.current]
  running i := by rw [tick_state, h.running]

/-- The counter of the timer starts again at 1000. -/
theorem tick_tickCounter (h : k.tickCounter.toNat < 1000) :
    k.tick.tickCounter.toNat = (k.tickCounter.toNat + 1) % 1000 := by
  have hnext : (k.tickCounter + 1).toNat = k.tickCounter.toNat + 1 := by
    rw [UInt32.toNat_add]
    exact Nat.mod_eq_of_lt (by show k.tickCounter.toNat + 1 < 4294967296; omega)
  unfold Kernel.tick
  dsimp only
  split
  · next hge =>
    have hle : 1000 ≤ k.tickCounter.toNat + 1 := by
      rw [ge_iff_le, UInt32.le_iff_toNat_le, hnext] at hge
      exact hge
    rw [UInt32.toNat_sub_of_le _ _ hge, hnext]
    show k.tickCounter.toNat + 1 - 1000 = _
    omega
  · next hlt =>
    have hlt : k.tickCounter.toNat + 1 < 1000 := by
      rw [ge_iff_le, UInt32.le_iff_toNat_le, hnext] at hlt
      exact not_le.1 hlt
    show (k.tickCounter + 1).toNat = _
    rw [hnext]
    omega

/-- With two processes alive every tenth interrupt switches. -/
theorem switches_iff (h : k.tickCounter.toNat < 1000) :
    k.switches = true ↔ 1 < k.activeProcessCount ∧ k.tickCounter.toNat % 10 = 9 := by
  have hmod : (k.tick.tickCounter % 10 == 0) = true ↔ k.tick.tickCounter.toNat % 10 = 0 := by
    rw [beq_iff_eq, ← UInt32.toNat_inj, UInt32.toNat_mod]
    rfl
  unfold Kernel.switches
  rw [Bool.and_eq_true, decide_eq_true_iff, hmod, tick_tickCounter h]
  omega

/-- The search for the running slot finds the current one. -/
theorem OneRunning.processGetCurrentRunningPcbPointer (h : OneRunning k c) :
    processGetCurrentRunningPcbPointer k = some c := by
  refine findFrom_eq_some.2 ⟨Nat.zero_le _, ?_, fun j hj _ => ?_⟩
  · rw [(h.running c).2 rfl]
    rfl
  · rw [beq_eq_false_iff_ne]
    exact fun hrun => ne_of_lt hj ((h.running j).1 hrun)

theorem saveFrame_state : (k.saveFrame c frame).state i = k.state i := by
  show (Function.update k.tick.processList c _ i).metadata.state = _
  rw [tick_processList, Function.update_apply]
  split
  · next h => rw [h]; rfl
  · rfl

/-- The frame goes to the block of the running process. -/
theorem saveFrame_context : ((k.saveFrame c frame).processList i).context =
    if i = c then (k.processList c).context.save frame else (k.processList i).context := by
  show (Function.update k.tick.processList c _ i).context = _
  rw [tick_processList, Function.update_apply]
  split <;> rfl

theorem saveFrame_pageDirectory :
    ((k.saveFrame c frame).processList i).context.pageDirectory =
      (k.processList i).context.pageDirectory := by
  rw [saveFrame_context]
  split
  · next h => rw [h]; rfl
  · rfl

theorem OneRunning.saveFrame (h : OneRunning k c) : OneRunning (k.saveFrame c frame) c where
  current := h.tick.current
  running i := by rw [saveFrame_state, h.running]

/-- The interrupt counts, and switches from the kernel in which the frame is saved. -/
theorem OneRunning.timerIsr_eq (h : OneRunning k c) : timerIsr frame k =
    if k.switches then do
      let (ctx, k') ← schedulerSwitchToNextProcess (k.saveFrame c frame)
      return (some ctx, k')
    else .ok (none, k.tick) := by
  unfold timerIsr
  rw [h.tick.processGetCurrentRunningPcbPointer]
  have hsave : schedulerSaveContextToCurrentRunningPcb
      ((k.tick.processList c).context.save frame) k.tick = .ok (k.saveFrame c frame) :=
    bind_eq_ok.2 ⟨c, by rw [h.tick.current, processListIndex_val], rfl⟩
  split
  · dsimp only
    rw [hsave]
    rfl
  · rfl

/-- What a timer interrupt comes to. -/
theorem OneRunning.timerIsr_spec (h : OneRunning k c) (hrun : timerIsr frame k = .ok (ctx, k')) :
    (ctx = none ∧ k' = k.tick) ∨
      ∃ j, ctx = some ((k.saveFrame c frame).processList j).context ∧
        Switched (k.saveFrame c frame) k' j := by
  rw [h.timerIsr_eq] at hrun
  split at hrun
  · obtain ⟨⟨ctx', k''⟩, hswitch, hrun⟩ := bind_eq_ok.1 hrun
    cases hrun
    obtain ⟨j, hs, rfl⟩ := h.saveFrame.switch_spec hswitch
    exact .inr ⟨j, rfl, hs⟩
  · cases hrun
    exact .inl ⟨rfl, rfl⟩

/-- A timer interrupt completes, unless it switches from slot 15. -/
theorem OneRunning.timerIsr_ok (h : OneRunning k c) (hc : k.switches = true → c ≠ 15)
    (hdir : ∀ i, k.state i ≠ .terminated → (k.processList i).context.pageDirectory ≠ .null) :
    ∃ ctx k', timerIsr frame k = .ok (ctx, k') := by
  rw [h.timerIsr_eq]
  split
  · next hswitch =>
    have hsave : OneRunning (k.saveFrame c frame) c := h.saveFrame
    obtain ⟨ctx, k', hrun⟩ := hsave.switch_ok (hc hswitch) fun i hi => by
      rw [saveFrame_pageDirectory]
      rw [saveFrame_state] at hi
      exact hdir i hi
    rw [hrun]
    exact ⟨_, _, rfl⟩
  · exact ⟨_, _, rfl⟩

end Timer

end OsKernel
