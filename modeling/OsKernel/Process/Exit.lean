import OsKernel.Process.Pids

/-!
# The exit of a process

System call 20 passes `current_process_list_id`, the slot number of the process that exits, to
`process_destroy`, which looks for a pid. So the call removes the process of the first slot that has
the caller's slot number as its pid: the caller itself only when its pid is its slot number and no
earlier slot has that pid (`exit_removes_iff`). The pids are above the slot numbers for as long as
they have not come to an end, so until then no exit removes its process (`not_pidIsSlot`).
-/

namespace OsKernel

open Lib

/-- The process in slot `p` is removed, and every other one is unchanged. -/
structure RemovesOnly (k : Kernel) (p : Fin 16) (k' : Kernel) : Prop where
  removed : k'.state p = .terminated
  other : ∀ i, i ≠ p → k'.processList i = k.processList i

/-- The pid of the process in slot `p` is the slot number, and no earlier process has that pid. -/
def PidIsSlot (k : Kernel) (p : Fin 16) : Prop :=
  (k.processList p).metadata.pid = UInt32.ofNat p.val ∧
    ∀ i < p, k.state i ≠ .terminated → (k.processList i).metadata.pid ≠ UInt32.ofNat p.val

section Exit
variable {k k' : Kernel} {p i : Fin 16} {pid : UInt32} {fs : FileSystem}

/-- The search for a pid finds the first live slot with that pid. -/
theorem findProcess_eq_some : findProcess pid k = some i ↔
    ((k.processList i).metadata.pid = pid ∧ k.state i ≠ .terminated) ∧
      ∀ j < i, k.state j ≠ .terminated → (k.processList j).metadata.pid ≠ pid := by
  rw [findProcess, findFrom_eq_some, hasPid_iff]
  constructor
  · rintro ⟨-, hi, hbefore⟩
    refine ⟨hi, fun j hj hjlive hpid => ?_⟩
    have hfalse := hbefore j hj (Nat.zero_le _)
    rw [hasPid_iff.2 ⟨hpid, hjlive⟩] at hfalse
    cases hfalse
  · rintro ⟨hi, hbefore⟩
    refine ⟨Nat.zero_le _, hi, fun j hj _ => ?_⟩
    rw [← Bool.not_eq_true, hasPid_iff]
    rintro ⟨hpid, hjlive⟩
    exact hbefore j hj hjlive hpid

theorem exitPid_eq (hcurrent : k.currentProcessListId = p.val) :
    k.exitPid = UInt32.ofNat p.val := by
  have hofInt : ∀ p : Fin 16, UInt32.ofInt (p.val : Int) = UInt32.ofNat p.val := by decide
  rw [Kernel.exitPid, hcurrent, hofInt]

theorem removesOnly_destroyed {d : Fin 32} : RemovesOnly k p (k.destroyed p d) where
  removed := by rw [destroyed_state, if_pos rfl]
  other i hi := by rw [destroyed_processList, if_neg hi]

/-- What the exit of the process in slot `p` does. -/
theorem Consistent.exit_spec (hk : Consistent k) (hcurrent : k.currentProcessListId = p.val)
    (hp : k.state p = .running) :
    ∃ k', EventStep .exit k k' ∧ (RemovesOnly k p k' ↔ PidIsSlot k p) := by
  have hlive : k.state p ≠ .terminated := by
    rw [hp]
    rintro ⟨⟩
  have hfound : findProcess k.exitPid k = some p ↔ PidIsSlot k p := by
    rw [findProcess_eq_some, exitPid_eq hcurrent, and_iff_left hlive]
    rfl
  cases hfind : findProcess k.exitPid k with
  | none =>
    have hdestroy : OsKernel.processDestroy k.exitPid k = .ok (false, k) := by
      rw [OsKernel.processDestroy, hfind]
    refine ⟨k, bind_eq_ok.2 ⟨_, hdestroy, rfl⟩, ?_⟩
    rw [← hfound, hfind]
    exact iff_of_false (fun h => hlive h.removed) (by rintro ⟨⟩)
  | some i =>
    obtain ⟨d, hdir, -⟩ := hk.directory i (findProcess_live hfind).2
    have hdestroy := processDestroy_found hfind hdir (hk.pages i)
    refine ⟨k.destroyed i d, bind_eq_ok.2 ⟨_, hdestroy, rfl⟩, ?_⟩
    rw [← hfound, hfind, Option.some.injEq]
    constructor
    · intro h
      have hterm := h.removed
      rw [destroyed_state] at hterm
      split at hterm
      · next hpi => exact hpi.symm
      · exact absurd hterm hlive
    · rintro rfl
      exact removesOnly_destroyed

/-- In every kernel that is reached, the exit of the process that runs completes; it removes exactly
that process if and only if its pid is the number of its slot and no earlier process has that
pid. -/
theorem exit_removes_iff (hrun : Run ActionStep (fun _ _ => True) (.initial fs) k)
    (hcurrent : k.currentProcessListId = p.val) (hp : k.state p = .running) :
    ∃ k', EventStep .exit k k' ∧ (RemovesOnly k p k' ↔ PidIsSlot k p) :=
  (orderly_run hrun).consistent.exit_spec hcurrent hp

/-- That never is the case with fewer than 2^31 creations. -/
theorem not_pidIsSlot {n : Nat}
    (hrun : Run (Counted ActionStep KernelAction.creates) (fun _ _ => True) (.initial fs, 0) (k, n))
    (hn : n < 2 ^ 31) (hp : k.state p ≠ .terminated) : ¬ PidIsSlot k p := by
  rintro ⟨hpid, -⟩
  have habove := (pids_counted hrun hn).2.above p _ ⟨hp, rfl⟩
  rw [hpid, UInt32.toNat_ofNat_of_lt' (by have := p.isLt; show p.val < 2 ^ 32; omega)] at habove
  exact lt_irrefl _ habove

end Exit

/-- The first process runs in slot 0, with pid 1. -/
theorem exists_firstRun : ∃ fs k, Run ActionStep (fun _ _ => True) (.initial fs) k ∧
    Consistent k ∧ OneRunning k 0 ∧ ¬ PidIsSlot k 0 := by
  obtain ⟨fs, k₀, ctx, k, hstep, hfirst, hk, h, hpid⟩ := exists_firstRunning
  have hboot : k₀.currentProcessListId = -1 := (boot_spec (.single trivial hstep)).2.1
  have hcreate : EventStep (.call (.create (sampleRequest 'A' 2 0))) (.initial fs) k₀ := hstep
  refine ⟨fs, k, (Run.single trivial (.event hcreate)).tail trivial (.firstSwitch hboot hfirst), hk,
    h, fun hslot => ?_⟩
  have hzero := hslot.1
  rw [hpid] at hzero
  cases hzero

/-- Whether its exit removes it is a matter of its pid. -/
theorem exit_removes_first : ∃ fs k, Run ActionStep (fun _ _ => True) (.initial fs) k ∧
    k.state 0 = .running ∧ ∃ k', EventStep .exit k k' ∧ (RemovesOnly k 0 k' ↔ PidIsSlot k 0) := by
  obtain ⟨fs, k, hrun, -, h, -⟩ := exists_firstRun
  have hrunning : k.state 0 = .running := (h.running 0).2 rfl
  exact ⟨fs, k, hrun, hrunning, exit_removes_iff hrun h.current hrunning⟩

/-- Its pid is 1, so its exit looks for another process, and does not remove it. -/
theorem exit_first_stays : ∃ fs k k', Run ActionStep (fun _ _ => True) (.initial fs) k ∧
    k.currentProcessListId = 0 ∧ k.state 0 = .running ∧ EventStep .exit k k' ∧
    ¬ RemovesOnly k 0 k' := by
  obtain ⟨fs, k, hrun, hk, h, hpid⟩ := exists_firstRun
  have hrunning : k.state 0 = .running := (h.running 0).2 rfl
  obtain ⟨k', hexit, hiff⟩ := hk.exit_spec h.current hrunning
  exact ⟨fs, k, k', hrun, h.current, hrunning, hexit, fun hremoves => hpid (hiff.1 hremoves)⟩

end OsKernel
