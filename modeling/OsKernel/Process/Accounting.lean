import Mathlib.Data.Finset.Card
import Mathlib.Data.Fintype.Basic
import OsKernel.Fat32.Read
import OsKernel.Lib.Run
import OsKernel.Process.Lifecycle

/-!
# The count of processes

`active_process_count` counts the slots that are not TERMINATED (`CountsLive`). A creation whose
executable cannot be read ends in a `process_destroy`, which counts down although the creation has
not counted up yet, so the count is one too low from then on. Every other call keeps it right.
-/

namespace OsKernel

open Lib

/-- The slots of the processes. -/
def liveSlots (k : Kernel) : Finset (Fin 16) := Finset.univ.filter fun i => k.state i ≠ .terminated

/-- `active_process_count` is the number of processes. -/
def CountsLive (k : Kernel) : Prop := k.activeProcessCount = (liveSlots k).card

/-- A creation that passes the checks does not fail at the read of the executable. -/
def ReadsWell : ProcessCall → Kernel → Prop
  | .create request, k => checkCreate request k = none → ¬ ReadFails request k
  | .destroy _, _ => True

section Count
variable {k k' : Kernel} {i p : Fin 16} {d : Fin 32} {request : DriverRequest}
  {paging : PagingState} {fs : FileSystem} {c : ProcessCall} {pageDir : PageDirectoryPtr}

theorem mem_liveSlots : i ∈ liveSlots k ↔ k.state i ≠ .terminated := by
  simp [liveSlots]

theorem liveSlots_destroyed : liveSlots (k.destroyed i d) = (liveSlots k).erase i := by
  ext j
  rw [Finset.mem_erase, mem_liveSlots, mem_liveSlots, destroyed_state]
  split
  · next h => exact iff_of_false (fun h => h rfl) fun h' => h'.1 h
  · next h => exact ⟨fun hj => ⟨h, hj⟩, fun hj => hj.2⟩

theorem liveSlots_loading :
    liveSlots (k.loading request p d paging fs) = insert p (liveSlots k) := by
  ext j
  rw [Finset.mem_insert, mem_liveSlots, mem_liveSlots, loading_state]
  split
  · next h => exact iff_of_true (fun h => nomatch h) (.inl h)
  · next h => exact ⟨.inr, fun hj => hj.resolve_left h⟩

theorem liveSlots_started : liveSlots (k.started p) = liveSlots k := by
  ext j
  rw [mem_liveSlots, mem_liveSlots, started_state]

theorem liveSlots_useDirectory : liveSlots (k.useDirectory pageDir) = liveSlots k := rfl

/-- The free slot of a creation is not among the processes. -/
theorem not_mem_liveSlots (h : processListGetInactiveIndex k = some p) : p ∉ liveSlots k := by
  rw [mem_liveSlots, inactive_state h]
  exact fun h => h rfl

/-- With fewer processes than slots there is a free one. -/
theorem CountsLive.free (h : CountsLive k) (hmax : k.activeProcessCount < processCountMax) :
    ∃ p, processListGetInactiveIndex k = some p := by
  have hcard : (liveSlots k).card < Fintype.card (Fin 16) := by
    rw [CountsLive] at h
    rw [Fintype.card_fin]
    have hmax : k.activeProcessCount < 16 := hmax
    omega
  obtain ⟨p, hp⟩ := Finset.exists_mem_notMem_of_card_lt_card
    (s := liveSlots k) (t := Finset.univ) (by rwa [Finset.card_univ])
  have hterm : k.state p = .terminated := by
    by_contra hlive
    exact hp.2 (mem_liveSlots.2 hlive)
  exact findFrom_isSome (Nat.zero_le p.val) (beq_iff_eq.2 hterm)

/-- A call keeps the count right unless it is a creation that fails at the read. -/
theorem CountsLive.calls_iff (h : CountsLive k) (hc : Calls k c k') :
    CountsLive k' ↔ ReadsWell c k := by
  unfold CountsLive at h ⊢
  cases hc with
  | @create request code k' hc =>
    cases hc with
    | refused hcheck =>
      refine iff_of_true h fun hnone => ?_
      rw [hnone] at hcheck
      cases hcheck
    | @created p d paging r hr hcode =>
      have hwell : ReadsWell (.create request) k := fun _ => not_readFails hr.read hcode
      refine iff_of_true ?_ hwell
      rw [liveSlots_useDirectory, liveSlots_started, liveSlots_loading,
        Finset.card_insert_of_notMem (not_mem_liveSlots hr.slot)]
      show k.activeProcessCount + 1 = _
      rw [h]
      rfl
    | @failed p i d d' paging r hr hcode hfind hdir =>
      refine iff_of_false ?_ fun hwell => hwell hr.checked ⟨r, hr.read, hcode⟩
      have hi : i ∈ liveSlots (k.loading request p d paging r.fs) :=
        mem_liveSlots.2 (findProcess_live hfind).2
      rw [liveSlots_useDirectory, liveSlots_destroyed, Finset.card_erase_of_mem hi,
        liveSlots_loading, Finset.card_insert_of_notMem (not_mem_liveSlots hr.slot)]
      show ¬ k.activeProcessCount - 1 = _
      omega
  | destroy hd =>
    cases hd with
    | missing => exact iff_of_true h trivial
    | @destroyed i d hfind hlive hdir _ =>
      refine iff_of_true ?_ trivial
      have hpos : 0 < (liveSlots k).card := Finset.card_pos.2 ⟨i, mem_liveSlots.2 hlive⟩
      rw [liveSlots_destroyed, Finset.card_erase_of_mem (mem_liveSlots.2 hlive)]
      show k.activeProcessCount - 1 = _
      omega

end Count

/-! ## Runs -/

section Runs
variable {k : Kernel} {fs : FileSystem}

/-- What runs of calls keep. -/
theorem consistent_run (hrun : Run CallStep ReadsWell (.initial fs) k) :
    Consistent k ∧ CountsLive k := by
  refine hrun.invariant (I := fun k => Consistent k ∧ CountsLive k) ?_
    ⟨consistent_initial fs, rfl⟩
  intro c k k' ⟨hk, hcount⟩ hok hstep
  have hc := hk.callStep hstep
  exact ⟨hk.calls hc, (hcount.calls_iff hc).2 hok⟩

/-- In a run without a creation that fails at the read of the executable `active_process_count` is
the number of processes, and a creation that passes the capacity check finds a slot. The first such
creation makes the count wrong. -/
theorem activeProcessCount_counts_iff (hrun : Run CallStep ReadsWell (.initial fs) k) :
    k.activeProcessCount = (liveSlots k).card ∧
      (k.activeProcessCount < processCountMax →
        ∃ p, processListGetInactiveIndex k = some p) ∧
      ∀ c k', CallStep c k k' →
        (k'.activeProcessCount = (liveSlots k').card ↔ ReadsWell c k) := by
  obtain ⟨hk, hcount⟩ := consistent_run hrun
  exact ⟨hcount, hcount.free, fun c k' hstep => hcount.calls_iff (hk.callStep hstep)⟩

end Runs

/-- A creation of a missing executable on a blank disk leaves a count of -1 and no process. -/
theorem activeProcessCount_drifts : ∃ k,
    CallStep (.create (sampleRequest 'A' 2 0)) (.initial blankFileSystem) k ∧
      k.activeProcessCount = -1 ∧ liveSlots k = ∅ := by
  obtain ⟨r, hread, hcode⟩ := read_blank
  have hrun := processCreateUserProcess_failed (k := .initial blankFileSystem) (p := 0) rfl rfl rfl
    hread (fun h => nomatch h) hcode fun i hi => nomatch hi
  refine ⟨_, bind_eq_ok.2 ⟨_, hrun, rfl⟩, rfl, ?_⟩
  rw [liveSlots_useDirectory, liveSlots_destroyed, liveSlots_loading,
    Finset.erase_insert (not_mem_liveSlots rfl)]
  rfl

/-- The count is right after the first creation of a process on a disk with its executable. -/
theorem activeProcessCount_counts_one : ∃ fs k,
    CallStep (.create (sampleRequest 'A' 2 0)) (.initial fs) k ∧ k.activeProcessCount = 1 ∧
      (liveSlots k).card = 1 := by
  obtain ⟨fs, -, ⟨r, hread, hcode⟩, -⟩ := exists_executable
  have hrun := processCreateUserProcess_created (k := .initial fs) (p := 0) rfl rfl rfl hread
    (fun h => nomatch h) hcode
  have hstep : CallStep (.create (sampleRequest 'A' 2 0)) (.initial fs) _ :=
    bind_eq_ok.2 ⟨_, hrun, rfl⟩
  have hok : ReadsWell (.create (sampleRequest 'A' 2 0)) (.initial fs) :=
    fun _ => not_readFails hread hcode
  have hcount := (activeProcessCount_counts_iff (.single hok hstep)).1
  refine ⟨fs, _, hstep, rfl, ?_⟩
  exact Int.ofNat_inj.1 (hcount.symm.trans rfl)

end OsKernel
