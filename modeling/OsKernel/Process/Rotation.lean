import OsKernel.Process.Switch
import OsKernel.Fat32.Runs
import Mathlib.Data.Set.Finite.Lemmas

/-!
# The slot that is selected

`scheduler_switch_to_next_process` goes round the process list, starting behind the current slot,
and makes the NEW slots READY that it passes. It selects the first READY slot of the round, the
current one last; when none is READY it goes round once more and selects the first slot that was NEW
(`NextProcess`). The index wraps inside the loop only, so a search that starts behind slot 15 starts
outside of the list (`switch_selects_iff`).
-/

namespace OsKernel

open Lib

/-! ## Turns -/

/-- The number of slots from `s` to `i` in cyclic order. -/
def turn (s i : Fin 16) : Nat := (i.val + 16 - s.val) % 16

/-- The slot that is `n` slots behind `s`. -/
def behind (s : Fin 16) (n : Nat) : Fin 16 := ⟨(s.val + n) % 16, Nat.mod_lt _ (by decide)⟩

section Turn
variable {s i j : Fin 16} {n : Nat}

theorem turn_lt : turn s i < 16 := Nat.mod_lt _ (by decide)

theorem turn_self : turn s s = 0 := by
  unfold turn
  omega

theorem turn_lt_one : turn s i < 1 ↔ i = s := by
  unfold turn
  simp only [Fin.ext_iff]
  omega

theorem turn_behind_one :
    turn (behind s 1) i + 1 = turn s i ∨ i = s ∧ turn (behind s 1) i = 15 := by
  unfold turn behind
  simp only [Fin.ext_iff]
  omega

theorem behind_behind : behind (behind s 1) n = behind s (n + 1) := by
  unfold behind
  simp only [Fin.mk.injEq]
  omega

theorem behind_turn : behind s (turn s i) = i := by
  unfold turn behind
  simp only [Fin.ext_iff]
  omega

theorem behind_zero : behind s 0 = s := Fin.ext (Nat.mod_eq_of_lt s.isLt)

theorem behind_round : behind s (16 + n) = behind s n := by
  unfold behind
  simp only [Fin.mk.injEq]
  omega

end Turn

/-! ## Passing slots -/

/-- The kernel after the search has passed `n` slots from `s` on. -/
def Kernel.pass (k : Kernel) (s : Fin 16) (n : Nat) : Kernel :=
  { k with processList := fun i =>
      if turn s i < n ∧ k.state i = .new then (k.processList i).setState .ready
      else k.processList i }

section Pass
variable {k : Kernel} {s i j : Fin 16} {n steps : Nat}

theorem pass_state : (k.pass s n).state i =
    if turn s i < n ∧ k.state i = .new then .ready else k.state i := by
  show ((if _ then _ else _ : ProcessControlBlock)).metadata.state = _
  split <;> rfl

theorem pass_zero : k.pass s 0 = k := by
  simp [Kernel.pass]

theorem pass_one_state (hi : i ≠ s) : (k.pass s 1).state i = k.state i := by
  rw [pass_state, if_neg fun h => hi (turn_lt_one.1 h.1)]

/-- One slot is passed by the loop. -/
theorem selectProcess_pass_one (hs : k.state s ≠ .ready) :
    selectProcess (steps + 1) s.val k = selectProcess steps (behind s 1).val (k.pass s 1) := by
  have hkernel : (if k.state s = .new then k.setState s .ready else k) = k.pass s 1 := by
    unfold Kernel.pass
    simp only [turn_lt_one]
    split
    · next hnew =>
      unfold Kernel.setState
      congr 1
      funext i
      rw [Function.update_apply]
      split
      · next hi => rw [hi, if_pos ⟨rfl, hnew⟩]
      · next hi => rw [if_neg fun h => hi h.1]
    · next hnew =>
      have hnone : ∀ i, ¬ (i = s ∧ k.state i = .new) := by
        rintro i ⟨rfl, h⟩
        exact hnew h
      simp only [hnone, if_false]
  rw [selectProcess, processListIndex_val, ok_bind, if_neg hs, hkernel, selectProcess_next]
  rfl

/-- The search passes the slots before the first READY one. -/
theorem selectProcess_pass (hn : n ≤ 16) (hready : ∀ i, turn s i < n → k.state i ≠ .ready) :
    selectProcess (n + steps) s.val k = selectProcess steps (behind s n).val (k.pass s n) := by
  induction n generalizing s k with
  | zero =>
    rw [behind_zero, pass_zero, Nat.zero_add]
  | succ n ih =>
    have hs : k.state s ≠ .ready := by
      apply hready
      rw [turn_self]
      exact Nat.succ_pos n
    have hrest : ∀ i, turn (behind s 1) i < n → (k.pass s 1).state i ≠ .ready := by
      intro i hi
      rcases @turn_behind_one s i with hturn | ⟨-, hturn⟩
      · have hne : i ≠ s := by
          rintro rfl
          rw [turn_self] at hturn
          cases hturn
        rw [pass_one_state hne]
        apply hready
        omega
      · omega
    have hkernel : (k.pass s 1).pass (behind s 1) n = k.pass s (n + 1) := by
      unfold Kernel.pass
      congr 1
      funext i
      show (if turn (behind s 1) i < n ∧ (k.pass s 1).state i = .new
        then ((k.pass s 1).processList i).setState .ready else (k.pass s 1).processList i) = _
      rcases @turn_behind_one s i with hturn | ⟨rfl, hturn⟩
      · have hne : i ≠ s := by
          rintro rfl
          rw [turn_self] at hturn
          cases hturn
        have hslot : (k.pass s 1).processList i = k.processList i := by
          show (if _ then _ else _ : ProcessControlBlock) = _
          rw [if_neg]
          intro h
          omega
        have hlt : turn (behind s 1) i < n ↔ turn s i < n + 1 := by omega
        rw [pass_one_state hne, hslot]
        simp only [hlt]
      · rw [if_neg fun h => by omega]
        show (if _ then _ else _ : ProcessControlBlock) = _
        simp only [turn_self, Nat.succ_pos]
    rw [Nat.add_right_comm, selectProcess_pass_one hs, ih (by omega) hrest, hkernel, behind_behind]

/-- The search stops at a READY slot. -/
theorem selectProcess_ready (hs : k.state s = .ready) :
    selectProcess (steps + 1) s.val k = .ok (s, k) := by
  rw [selectProcess, processListIndex_val, ok_bind, if_pos hs]
  rfl

end Pass

/-! ## The next process -/

/-- A slot that counts as READY: it is, or it is the current one. -/
def Kernel.ReadyOrCurrent (k : Kernel) (i : Fin 16) : Prop :=
  k.state i = .ready ∨ k.currentProcessListId = i.val

/-- The slot behind the current one, which is slot 0 before the first process runs. -/
def Kernel.start (k : Kernel) : Fin 16 :=
  ⟨((k.currentProcessListId + 1) % 16).toNat, by omega⟩

/-- The slot to select, and the slots to pass: the first one in turn that counts as READY, or the
first NEW one after a whole round. -/
inductive NextProcess (k : Kernel) : Fin 16 → (Fin 16 → Prop) → Prop
  | ready {j : Fin 16} : k.ReadyOrCurrent j →
      (∀ i, k.ReadyOrCurrent i → turn k.start j ≤ turn k.start i) →
      NextProcess k j fun i => turn k.start i < turn k.start j
  | new {j : Fin 16} : (∀ i, ¬ k.ReadyOrCurrent i) → k.state j = .new →
      (∀ i, k.state i = .new → turn k.start j ≤ turn k.start i) → NextProcess k j fun _ => True

/-- The process list before the selected process is loaded: the slot `j` is RUNNING, the current one
READY, and so is a NEW one that was passed; nothing else has changed. -/
structure Rotates (k : Kernel) (j : Fin 16) (passed : Fin 16 → Prop) (k' : Kernel) : Prop where
  kernel : k' = { k with processList := k'.processList, currentProcessListId := j.val }
  slot : ∀ i, k'.processList i = (k.processList i).setState (k'.state i)
  selected : k'.state j = .running
  passedNew : ∀ i, i ≠ j → passed i → k.state i = .new → k'.state i = .ready
  current : ∀ i, i ≠ j → k.currentProcessListId = i.val → k'.state i = .ready
  other : ∀ i, i ≠ j → ¬ (passed i ∧ k.state i = .new) → k.currentProcessListId ≠ i.val →
    k'.state i = k.state i

/-- The rest of the switch: the page directory of the selected process, and its context. -/
def Kernel.loadProcess (k : Kernel) (j : Fin 16) : Except Fault (Context × Kernel) := do
  let paging ← pagingUsePageDirectory (k.processList j).context.pageDirectory k.paging
  return ((k.processList j).context, { k with paging := paging })

section Next
variable {k : Kernel} {s c i j : Fin 16} {n steps : Nat}

/-- The search of a list with a READY slot. -/
theorem selectProcess_firstReady (hj : k.state j = .ready)
    (hfirst : ∀ i, k.state i = .ready → turn s j ≤ turn s i) :
    selectProcess selectSteps s.val k = .ok (j, k.pass s (turn s j)) := by
  have hbefore : ∀ i, turn s i < turn s j → k.state i ≠ .ready := by
    intro i hi hready
    have := hfirst i hready
    omega
  have hready : (k.pass s (turn s j)).state j = .ready := by
    rw [pass_state, hj]
    simp
  obtain ⟨m, hm⟩ : ∃ m, selectSteps = turn s j + (m + 1) := by
    have hturn := @turn_lt s j
    refine ⟨selectSteps - turn s j - 1, ?_⟩
    simp only [selectSteps, processCountMax]
    omega
  rw [hm, selectProcess_pass turn_lt.le hbefore, behind_turn, selectProcess_ready hready]

/-- The search of a list without a READY slot goes round once to make the NEW slots READY. -/
theorem selectProcess_firstNew (hnone : ∀ i, k.state i ≠ .ready) (hj : k.state j = .new)
    (hfirst : ∀ i, k.state i = .new → turn s j ≤ turn s i) :
    selectProcess selectSteps s.val k = .ok (j, k.pass s 16) := by
  have hstate : ∀ i, (k.pass s 16).state i = if k.state i = .new then .ready else k.state i := by
    intro i
    rw [pass_state]
    simp only [turn_lt, true_and]
  have hready : (k.pass s 16).state j = .ready := by
    rw [hstate, if_pos hj]
  have hbefore : ∀ i, turn s i < turn s j → (k.pass s 16).state i ≠ .ready := by
    intro i hi
    rw [hstate, if_neg]
    · exact hnone i
    · intro hnew
      have := hfirst i hnew
      omega
  have hagain : (k.pass s 16).pass s (turn s j) = k.pass s 16 := by
    have hnew : ∀ i, (k.pass s 16).state i ≠ .new := by
      intro i
      rw [hstate]
      split
      · exact fun h => nomatch h
      · assumption
    rw [Kernel.pass]
    simp only [hnew, and_false, if_false]
  have hround : behind s 16 = s := behind_round.trans behind_zero
  obtain ⟨m, hm⟩ : ∃ m, selectSteps = 16 + (turn s j + (m + 1)) := by
    have hturn := @turn_lt s j
    refine ⟨selectSteps - 16 - turn s j - 1, ?_⟩
    simp only [selectSteps, processCountMax]
    omega
  rw [hm, selectProcess_pass le_rfl fun i _ => hnone i, hround,
    selectProcess_pass turn_lt.le hbefore, behind_turn, hagain, selectProcess_ready hready]

/-- The first slot in turn with a property. -/
theorem exists_first {P : Fin 16 → Prop} (hi : P i) :
    ∃ j, P j ∧ ∀ i, P i → turn s j ≤ turn s i :=
  Set.exists_min_image (Set.ofPred P) (turn s) (Set.toFinite _) ⟨i, hi⟩

/-- The current slot becomes READY before the search. -/
theorem readyCurrent_state {k₁ : Kernel} (h : readyCurrent k = .ok k₁) :
    k₁ = { k with processList := k₁.processList } ∧
    (∀ i, k₁.processList i = (k.processList i).setState (k₁.state i)) ∧
    ∀ i, k₁.state i = if k.currentProcessListId = i.val then .ready else k.state i := by
  unfold readyCurrent at h
  split at h
  · obtain ⟨c, hc, h⟩ := bind_eq_ok.1 h
    cases h
    rw [processListIndex_eq_ok] at hc
    have hcurrent : ∀ i : Fin 16, k.currentProcessListId = i.val ↔ i = c := by
      intro i
      rw [hc, Fin.ext_iff]
      omega
    refine ⟨rfl, fun i => ?_, fun i => ?_⟩
    · rw [Kernel.setState_apply, Kernel.state_setState]
      split <;> rfl
    · rw [Kernel.state_setState]
      simp only [hcurrent]
  · next hnone =>
    cases h
    have hcurrent : ∀ i : Fin 16, k.currentProcessListId ≠ i.val := by
      intro i
      omega
    refine ⟨rfl, fun i => rfl, fun i => ?_⟩
    rw [if_neg (hcurrent i)]

/-- The kernel after the search, with the selected slot RUNNING. -/
theorem rotates_pass {k₁ : Kernel} (h : readyCurrent k = .ok k₁)
    (hcurrent : ∀ i : Fin 16, k.currentProcessListId = i.val → k.state i = .running) :
    Rotates k j (fun i => turn s i < n)
      ({ k₁.pass s n with currentProcessListId := j.val }.setState j .running) := by
  obtain ⟨hkernel, hslot, hstate⟩ := readyCurrent_state h
  have hafter : ∀ i,
    ({ k₁.pass s n with currentProcessListId := j.val }.setState j .running).state i =
      if i = j then .running
      else if turn s i < n ∧ k₁.state i = .new then .ready else k₁.state i := by
    intro i
    rw [Kernel.state_setState]
    show (if i = j then .running else (k₁.pass s n).state i) = _
    rw [pass_state]
  refine ⟨?_, fun i => ?_, ?_, ?_, ?_, ?_⟩
  · rw [hkernel]
    rfl
  · rw [Kernel.setState_apply, Kernel.state_setState]
    split
    · next hi =>
      show ((if _ then _ else _ : ProcessControlBlock)).setState .running = _
      split
      · rw [setState_setState, hslot, setState_setState]
      · rw [hslot, setState_setState]
    · show (if _ then _ else _ : ProcessControlBlock) =
        (k.processList i).setState ((k₁.pass s n).state i)
      rw [pass_state]
      split
      · rw [hslot, setState_setState]
      · exact hslot i
  · rw [hafter, if_pos rfl]
  · intro i hi hpassed hnew
    have hne : k.currentProcessListId ≠ i.val := by
      intro heq
      rw [hcurrent i heq] at hnew
      cases hnew
    rw [hafter, if_neg hi, hstate, if_neg hne, if_pos ⟨hpassed, hnew⟩]
  · intro i hi heq
    rw [hafter, if_neg hi, hstate, if_pos heq, if_neg fun h => nomatch h.2]
  · intro i hi hnot hne
    rw [hafter, if_neg hi, hstate, if_neg hne, if_neg hnot]

/-- The first index that the search uses. -/
theorem start_val (hlow : -1 ≤ k.currentProcessListId) (hhigh : k.currentProcessListId < 15) :
    k.currentProcessListId + 1 = (k.start.val : Int) := by
  unfold Kernel.start
  show _ = (((k.currentProcessListId + 1) % 16).toNat : Int)
  omega

theorem switch_eq {k₁ k₂ : Kernel} (hready : readyCurrent k = .ok k₁)
    (hid : k.currentProcessListId + 1 = (k.start.val : Int))
    (hselect : selectProcess selectSteps k.start.val k₁ = .ok (j, k₂)) :
    schedulerSwitchToNextProcess k =
      ({ k₂ with currentProcessListId := j.val }.setState j .running).loadProcess j := by
  have hid₁ : k₁.currentProcessListId = k.currentProcessListId := by
    rw [(readyCurrent_state hready).1]
  unfold schedulerSwitchToNextProcess
  rw [hready, ok_bind, hid₁, hid, hselect]
  rfl

theorem loadProcess_ne_outside : k.loadProcess j ≠ .error (.processListIndex 16) := by
  unfold Kernel.loadProcess pagingUsePageDirectory
  split
  · exact fun h => nomatch h
  · exact fun h => nomatch h

/-- From a running process in slot 0 to 14, and before the first process when one is NEW, the switch
selects the next process, and uses no index outside of the list. It does not so from slot 15. -/
theorem switch_selects_iff
    (h : (∃ c : Fin 16, k.currentProcessListId = c.val ∧ k.state c = .running) ∨
      k.currentProcessListId = -1 ∧ ∃ i, k.state i = .new) :
    (∃ j passed k', NextProcess k j passed ∧ Rotates k j passed k' ∧
      schedulerSwitchToNextProcess k = k'.loadProcess j) ↔ k.currentProcessListId ≠ 15 := by
  constructor
  · rintro ⟨j, passed, k', -, -, hswitch⟩ hlast
    rw [switch_outside hlast] at hswitch
    exact loadProcess_ne_outside hswitch.symm
  · intro hne
    have hbounds : -1 ≤ k.currentProcessListId ∧ k.currentProcessListId < 15 := by
      rcases h with ⟨c, hc, -⟩ | ⟨hboot, -⟩
      · omega
      · omega
    have hid := start_val hbounds.1 hbounds.2
    have hcurrent : ∀ i : Fin 16, k.currentProcessListId = i.val → k.state i = .running := by
      intro i hi
      rcases h with ⟨c, hc, hrunning⟩ | ⟨hboot, -⟩
      · have hic : i = c := Fin.ext (by omega)
        rw [hic, hrunning]
      · omega
    obtain ⟨k₁, hready⟩ : ∃ k₁, readyCurrent k = .ok k₁ := by
      rcases h with ⟨c, hc, -⟩ | ⟨hboot, -⟩
      · refine ⟨k.setState c .ready, ?_⟩
        unfold readyCurrent
        rw [if_pos (by omega), hc, processListIndex_val]
        rfl
      · refine ⟨k, ?_⟩
        unfold readyCurrent
        rw [if_neg (by omega)]
    obtain ⟨-, -, hstate⟩ := readyCurrent_state hready
    have hcounts : ∀ i, k₁.state i = .ready ↔ k.ReadyOrCurrent i := by
      intro i
      rw [hstate, Kernel.ReadyOrCurrent]
      split
      · next heq => exact iff_of_true rfl (.inr heq)
      · next heq => exact (or_iff_left heq).symm
    by_cases hany : ∃ i, k.ReadyOrCurrent i
    · obtain ⟨i, hi⟩ := hany
      obtain ⟨j, hj, hfirst⟩ := @exists_first k.start i k.ReadyOrCurrent hi
      have hselect := selectProcess_firstReady ((hcounts j).2 hj)
        fun i hi => hfirst i ((hcounts i).1 hi)
      exact ⟨j, _, _, .ready hj hfirst, rotates_pass hready hcurrent, switch_eq hready hid hselect⟩
    · have hnone : ∀ i, ¬ k.ReadyOrCurrent i := fun i hi => hany ⟨i, hi⟩
      obtain ⟨i, hi⟩ : ∃ i, k.state i = .new := by
        rcases h with ⟨c, hc, -⟩ | ⟨-, hnew⟩
        · exact absurd (.inr hc) (hnone c)
        · exact hnew
      have hnew : ∀ i, k₁.state i = k.state i := by
        intro i
        rw [hstate, if_neg fun heq => hnone i (.inr heq)]
      obtain ⟨j, hj, hfirst⟩ := @exists_first k.start i (fun i => k.state i = .new) hi
      have hselect := selectProcess_firstNew (fun i hi => hnone i ((hcounts i).1 hi))
        ((hnew j).trans hj) fun i hi => hfirst i ((hnew i).symm.trans hi)
      have hpassed : (fun i => turn k.start i < 16) = fun _ => True := by
        funext i
        exact eq_true turn_lt
      exact ⟨j, _, _, .new hnone hj hfirst, hpassed ▸ rotates_pass hready hcurrent,
        switch_eq hready hid hselect⟩

end Next

/-- A kernel with a process in slot `c` only. -/
def oneProcess (c : Fin 16) (state : ProcessState) (currentProcessListId : Int) : Kernel :=
  { Kernel.initial blankFileSystem with
    processList := Function.update (fun _ => .zero) c (ProcessControlBlock.zero.setState state)
    currentProcessListId := currentProcessListId }

/-- A kernel with a running process in slot 2, a NEW one in slot 4 and a READY one in slot 5. -/
def threeProcesses : Kernel :=
  { Kernel.initial blankFileSystem with
    processList := fun i => ProcessControlBlock.zero.setState
      (if i = 2 then .running else if i = 4 then .new else if i = 5 then .ready else .terminated)
    currentProcessListId := 2 }

/-- The first switch selects the only process. The one from slot 2 passes the NEW process, which
becomes READY, and selects the READY one. -/
theorem switch_selects_next :
    (∃ j passed k', NextProcess (oneProcess 3 .new (-1)) j passed ∧
      Rotates (oneProcess 3 .new (-1)) j passed k' ∧
      schedulerSwitchToNextProcess (oneProcess 3 .new (-1)) = k'.loadProcess j) ∧
    ∃ passed k', Rotates threeProcesses 5 passed k' ∧
      schedulerSwitchToNextProcess threeProcesses = k'.loadProcess 5 ∧
      k'.state 2 = .ready ∧ k'.state 4 = .ready ∧ k'.state 5 = .running := by
  refine ⟨(switch_selects_iff (.inr ⟨rfl, 3, rfl⟩)).2 (by decide), ?_⟩
  obtain ⟨j, passed, k', hnext, hr, hswitch⟩ :=
    (@switch_selects_iff threeProcesses (.inl ⟨2, rfl, rfl⟩)).2 (by decide)
  cases hnext with
  | ready hj hfirst =>
    have hturn : turn 3 j ≤ 2 := hfirst 5 (.inl rfl)
    obtain rfl : j = 5 := by
      have hslot : ∀ i : Fin 16, turn 3 i ≤ 2 → i = 3 ∨ i = 4 ∨ i = 5 := by decide
      rcases hslot j hturn with rfl | rfl | rfl
      · rcases hj with hj | hj <;> cases hj
      · rcases hj with hj | hj <;> cases hj
      · rfl
    exact ⟨_, k', hr, hswitch, hr.current 2 (by decide) rfl,
      hr.passedNew 4 (by decide) (by decide) rfl, hr.selected⟩
  | new hnone => exact absurd (.inl rfl) (hnone 5)

/-- The process in slot 15 is the only one; the switch does not find it again. -/
theorem switch_last_outside :
    (oneProcess 15 .running 15).currentProcessListId = 15 ∧
      (oneProcess 15 .running 15).state 15 = .running ∧
      schedulerSwitchToNextProcess (oneProcess 15 .running 15) = .error (.processListIndex 16) :=
  ⟨rfl, rfl, switch_outside rfl⟩

end OsKernel
