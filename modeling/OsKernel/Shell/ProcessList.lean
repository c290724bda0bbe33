import OsKernel.Lib.Overwrite
import OsKernel.Fat32.Read
import OsKernel.Lib.Run
import OsKernel.Process.Lifecycle
import OsKernel.Shell.Input
import OsKernel.Stdlib.Numerals
import Mathlib.Data.Nat.Digits.Defs

/-!
# The list of processes

`process_get_processes_info` copies the metadata of the processes for `ps`, which prints them up to
the first pid 0. The loop of the kernel tests the state of the first slot each time round, not that
of the slot it is at, so it copies the metadata of all slots or none (`processGetProcessesInfo_eq`).
Both functions do what they are for exactly when there is no process or no free slot
(`processList_iff`); `ps` alone also prints the right processes when these come first and the others
have pid 0 (`ps_prints_iff`).
-/

namespace OsKernel

open Lib

/-! ## The functions -/

/-- The loop of `process_get_processes_info` over the slots, with the next element to store. Its
test `process_list->metadata.state` is about the first slot. -/
def processesInfoLoop (k : Kernel) :
    List (Fin 16) → Nat → (Fin 16 → ProcessMetadata) → Except Fault (Fin 16 → ProcessMetadata)
  | [], _, arr => .ok arr
  | i :: slots, arrIndex, arr =>
    if k.state 0 ≠ .terminated then
      if h : arrIndex < 16 then
        processesInfoLoop k slots (arrIndex + 1)
          (Function.update arr ⟨arrIndex, h⟩ (k.processList i).metadata)
      else .error (.arrayIndex arrIndex)
    else processesInfoLoop k slots arrIndex arr

/-- `process_get_processes_info`, for an array of `PROCESS_COUNT_MAX` elements. -/
def processGetProcessesInfo (k : Kernel) (arr : Fin 16 → ProcessMetadata) :
    Except Fault (Fin 16 → ProcessMetadata) :=
  processesInfoLoop k (List.finRange 16) 0 arr

/-- The characters of a text. -/
def textBytes (s : String) : List UInt8 := ascii s.toList

/-- `intToStr`: the digits are stored from the last one on and turned round. Of a negative number
there are none. -/
def intToStr (num : Int32) : List UInt8 :=
  if num = 0 then [0x30]
  else ((Nat.digits 10 num.toInt.toNat).map fun digit => UInt8.ofNat digit + 0x30).reverse

/-- Of the other numbers that is the numeral. -/
theorem intToStr_eq_numeral {num : Int32} (h : 0 ≤ num.toInt) :
    intToStr num = numeral num.toInt.toNat := by
  have hzero : num = 0 ↔ num.toInt.toNat = 0 := by
    rw [← Int32.toInt_inj, show (0 : Int32).toInt = 0 from rfl]
    omega
  rw [intToStr, numeral]
  refine if_congr hzero rfl ?_
  simp only [digitChar_natCast]

/-- The loops of `intToStr` store that string, and a zero behind it. -/
theorem intToStr_stored {num : Int32} (h : 0 ≤ num.toInt) (str : Chars) :
    Traced.Returns (fun i => i < 11) (intToStrAt id num.toInt str : Traced Nat Fault Chars)
      (putChars str 0 (intToStr num ++ [0])) := by
  have hlt : num.toInt.toNat < 10 ^ 10 := by
    have := num.toInt_lt
    omega
  have hnum : (num.toInt.toNat : Int) = num.toInt := Int.toNat_of_nonneg h
  rw [intToStr_eq_numeral h, ← hnum]
  refine intToStrAt_returns hlt fun k hk => ?_
  have hlen := length_numeral_le hlt
  rw [id]
  omega

/-- The number that stands for a state. -/
def ProcessState.code : ProcessState → UInt8
  | terminated => 0
  | running => 1
  | waiting => 2
  | new => 3
  | ready => 4

/-- The string `process_name`. The fields behind it hold a zero byte. -/
def ProcessMetadata.nameText (m : ProcessMetadata) : List UInt8 :=
  (m.processName.toList ++ (List.range 4).map (leByte m.priority.toUInt32.toNat) ++
    [m.state.code, 0, 0, 0]).takeWhile (· ≠ 0)

/-- The switch of `ps`. -/
def stateText : ProcessState → List UInt8
  | .new => textBytes "NEW\n"
  | .running => textBytes "RUNNING\n"
  | .waiting => textBytes "WAITING\n"
  | .ready => textBytes "READY\n"
  | .terminated => textBytes "Anomalous State\n"

/-- What `ps` prints for one process. -/
def processLines (m : ProcessMetadata) : List (List UInt8) :=
  [textBytes "\n\nProcess ", m.nameText, textBytes "\nProcess ID (pid) : ", intToStr m.pid.toInt32,
    textBytes "\nPriority : ", intToStr m.priority, textBytes "\nState : ", stateText m.state]

/-- The loop of `ps`. -/
def psLoop : List ProcessMetadata → List (List (List UInt8))
  | [] => []
  | m :: metadatas => if m.pid = 0 then [] else processLines m :: psLoop metadatas

/-- `ps`: what it prints, process by process. -/
def ps (k : Kernel) : Except Fault (List (List (List UInt8))) := do
  let metadatas ← processGetProcessesInfo k fun _ => ProcessControlBlock.zero.metadata
  return psLoop (List.ofFn metadatas)

/-- The metadata of the processes, in the order of their slots. -/
def liveMetadata (k : Kernel) : List ProcessMetadata :=
  ((List.finRange 16).filter fun i => (k.processList i).live).map fun i =>
  (k.processList i).metadata

/-- The two functions do what they are for: the metadata of the processes are stored one after the
other and nothing else is, and `ps` prints every process once. -/
structure ListsProcesses (k : Kernel) : Prop where
  writes : ∀ arr, processGetProcessesInfo k arr = .ok (overwrite (liveMetadata k) 0 arr)
  prints : ps k = .ok ((liveMetadata k).map processLines)

/-! ## What they do -/

section List
variable {k : Kernel} {arr : Fin 16 → ProcessMetadata} {i : Fin 16}

/-- While the first slot has a process the loop copies every slot. -/
theorem processesInfoLoop_copies (h : k.state 0 ≠ .terminated) {slots : List (Fin 16)} {m : Nat}
    (hm : m + slots.length ≤ 16) : processesInfoLoop k slots m arr =
      .ok (overwrite (slots.map fun i => (k.processList i).metadata) m arr) := by
  induction slots generalizing m arr with
  | nil => simp [processesInfoLoop]
  | cons i slots ih =>
    rw [List.length_cons] at hm
    have hlt : m < 16 := by omega
    rw [processesInfoLoop, if_pos h, dif_pos hlt, ih (by omega), List.map_cons, overwrite_cons hlt]

theorem processesInfoLoop_skips (h : k.state 0 = .terminated) {slots : List (Fin 16)} {m : Nat} :
    processesInfoLoop k slots m arr = .ok arr := by
  induction slots with
  | nil => rfl
  | cons i slots ih => rw [processesInfoLoop, if_neg (not_not.2 h), ih]

/-- The loop copies the metadata of all slots, or nothing. -/
theorem processGetProcessesInfo_eq : processGetProcessesInfo k arr = .ok
    (if k.state 0 = .terminated then arr else fun i => (k.processList i).metadata) := by
  rw [processGetProcessesInfo]
  split
  · next h => exact processesInfoLoop_skips h
  · next h =>
    rw [processesInfoLoop_copies h (by simp), ← List.ofFn_eq_map, overwrite_ofFn]

theorem psLoop_eq (l : List ProcessMetadata) :
    psLoop l = (l.takeWhile fun m => m.pid ≠ 0).map processLines := by
  induction l with
  | nil => rfl
  | cons m l ih =>
    rw [psLoop, ih]
    by_cases h : m.pid = 0
    · simp [h]
    · simp [h]

/-- Every slot has a process. -/
theorem liveMetadata_full (h : ∀ i, k.state i ≠ .terminated) :
    liveMetadata k = List.ofFn fun i => (k.processList i).metadata := by
  rw [liveMetadata, List.filter_eq_self.2 fun i _ => live_iff.2 (h i), ← List.ofFn_eq_map]

/-- There is no process. -/
theorem liveMetadata_eq_nil : liveMetadata k = [] ↔ ∀ i, k.state i = .terminated := by
  simp [liveMetadata, live_iff, List.filter_eq_nil_iff]

theorem liveMetadata_length_le : (liveMetadata k).length ≤ 16 := by
  rw [liveMetadata, List.length_map]
  exact (List.length_filter_le _ _).trans_eq List.length_finRange

/-- `ps` prints the processes up to the first pid 0 while the first slot has a process. -/
theorem ps_eq : ps k = .ok (if k.state 0 = .terminated then [] else
    ((List.ofFn fun i => (k.processList i).metadata).takeWhile fun m => m.pid ≠ 0).map
      processLines) := by
  rw [ps, processGetProcessesInfo_eq, ok_bind, psLoop_eq]
  split
  · simp [ProcessControlBlock.zero]
  · rfl

theorem stateText_terminated {state : ProcessState} :
    stateText state = stateText .terminated ↔ state = .terminated := by
  cases state <;> simp [stateText, textBytes, ascii]

/-- The slots that a loop up to the first pid 0 comes to. -/
def shownSlots (k : Kernel) : List (Fin 16) :=
  (List.finRange 16).takeWhile fun i => (k.processList i).metadata.pid ≠ 0

theorem mem_shownSlots : i ∈ shownSlots k ↔ ∀ j ≤ i, (k.processList j).metadata.pid ≠ 0 := by
  simp [shownSlots, mem_takeWhile_finRange]

theorem ps_shownSlots (h : k.state 0 ≠ .terminated) :
    ps k = .ok ((shownSlots k).map fun i => processLines (k.processList i).metadata) := by
  rw [ps_eq, if_neg h, List.ofFn_eq_map, List.takeWhile_map, List.map_map]
  rfl

/-- The lines of a process tell that its slot has one. -/
theorem live_of_lines {slots : List (Fin 16)}
    (h : slots.map (fun i => processLines (k.processList i).metadata) =
      (liveMetadata k).map processLines) (hi : i ∈ slots) : k.state i ≠ .terminated := by
  have hmem : processLines (k.processList i).metadata ∈ (liveMetadata k).map processLines := by
    rw [← h]
    exact List.mem_map_of_mem hi
  obtain ⟨m, hm, hlines⟩ := List.mem_map.1 hmem
  obtain ⟨j, hj, rfl⟩ := List.mem_map.1 hm
  have hlive : k.state j ≠ .terminated := live_iff.1 (List.mem_filter.1 hj).2
  have htext : stateText (k.state j) = stateText (k.state i) :=
    congrArg (fun l => l.getLastD []) hlines
  intro hterm
  rw [hterm, stateText_terminated] at htext
  exact hlive htext

end List

/-! ## When the list is right -/

/-- `ps` prints every process once exactly when there is none or the first slot has one, and the
processes are the slots before the first pid 0. -/
theorem ps_prints_iff (k : Kernel) : ps k = .ok ((liveMetadata k).map processLines) ↔
    (∀ i, k.state i = .terminated) ∨ k.state 0 ≠ .terminated ∧
      ∀ i, k.state i ≠ .terminated ↔ ∀ j ≤ i, (k.processList j).metadata.pid ≠ 0 := by
  by_cases h0 : k.state 0 = .terminated
  · rw [ps_eq, if_pos h0, Except.ok.injEq, eq_comm, List.map_eq_nil_iff, liveMetadata_eq_nil]
    simp [h0]
  · have hsome : ¬ ∀ i, k.state i = .terminated := fun hall => h0 (hall 0)
    rw [ps_shownSlots h0, Except.ok.injEq, or_iff_right hsome, and_iff_right h0]
    constructor
    · intro h
      have hlen := congrArg List.length h
      rw [List.length_map, List.length_map, liveMetadata, List.length_map] at hlen
      -- the slots that are shown are some of the processes, and as many as these
      have hsub : (shownSlots k).Sublist
          ((List.finRange 16).filter fun i => (k.processList i).live) := by
        have hshown : (shownSlots k).Sublist (List.finRange 16) := List.takeWhile_sublist _
        have hfilter := hshown.filter fun i => (k.processList i).live
        rwa [List.filter_eq_self.2 fun i hi => live_iff.2 (live_of_lines h hi)] at hfilter
      have heq := hsub.eq_of_length hlen
      intro i
      rw [← mem_shownSlots, heq, List.mem_filter, live_iff]
      simp
    · intro h
      have heq : shownSlots k = (List.finRange 16).filter fun i => (k.processList i).live := by
        refine takeWhile_eq_filter (List.pairwise_lt_finRange 16) fun i _ => ?_
        rw [live_iff, h i]
        simp
      rw [heq, liveMetadata, List.map_map]
      rfl

instance : Nontrivial ProcessMetadata :=
  ⟨⟨ProcessControlBlock.zero.metadata, { ProcessControlBlock.zero.metadata with pid := 1 },
    fun h => by simpa [ProcessControlBlock.zero] using congrArg ProcessMetadata.pid h⟩⟩

/-- The kernel stores the metadata of the processes and nothing else exactly when there is no
process, or no slot without one. -/
theorem processGetProcessesInfo_writes_iff (k : Kernel) :
    (∀ arr, processGetProcessesInfo k arr = .ok (overwrite (liveMetadata k) 0 arr)) ↔
      (∀ i, k.state i = .terminated) ∨ ∀ i, k.state i ≠ .terminated := by
  simp only [processGetProcessesInfo_eq, Except.ok.injEq]
  constructor
  · intro h
    by_cases h0 : k.state 0 = .terminated
    · have hnil : [] = liveMetadata k :=
        overwrite_inj (Nat.zero_le _) liveMetadata_length_le fun arr => by
          simpa [h0] using h arr
      exact .inl (liveMetadata_eq_nil.1 hnil.symm)
    · have hall : (List.ofFn fun i => (k.processList i).metadata) = liveMetadata k :=
        overwrite_inj (List.length_ofFn.le) liveMetadata_length_le fun arr => by
          rw [overwrite_ofFn, ← h arr, if_neg h0]
      refine .inr fun i => live_iff.1 ?_
      have hlen := congrArg List.length hall
      rw [List.length_ofFn, liveMetadata, List.length_map] at hlen
      have hfull := List.length_filter_eq_length_iff.1 (hlen.symm.trans List.length_finRange.symm)
      exact hfull i (List.mem_finRange i)
  · rintro (hnone | hall) arr
    · rw [if_pos (hnone 0), liveMetadata_eq_nil.2 hnone, overwrite_nil]
    · rw [if_neg (hall 0), liveMetadata_full hall, overwrite_ofFn]

/-- Both functions do what they are for exactly when there is no process, or a process with a pid in
every slot. -/
theorem processList_iff (k : Kernel) : ListsProcesses k ↔ (∀ i, k.state i = .terminated) ∨
    ∀ i, k.state i ≠ .terminated ∧ (k.processList i).metadata.pid ≠ 0 := by
  have hsplit : ListsProcesses k ↔
      (∀ arr, processGetProcessesInfo k arr = .ok (overwrite (liveMetadata k) 0 arr)) ∧
        ps k = .ok ((liveMetadata k).map processLines) :=
    ⟨fun h => ⟨h.writes, h.prints⟩, fun h => ⟨h.1, h.2⟩⟩
  rw [hsplit, processGetProcessesInfo_writes_iff, ps_prints_iff]
  constructor
  · rintro ⟨hnone | hall, hps⟩
    · exact .inl hnone
    · refine .inr fun i => ⟨hall i, ?_⟩
      have hpid := (hps.resolve_left fun hnone => hall 0 (hnone 0)).2 i
      exact hpid.1 (hall i) i le_rfl
  · rintro (hnone | hall)
    · exact ⟨.inl hnone, .inl hnone⟩
    · refine ⟨.inr fun i => (hall i).1, .inr ⟨(hall 0).1, fun i => ?_⟩⟩
      exact iff_of_true (hall i).1 fun j _ => (hall j).2

/-- Two processes are created and the first one is destroyed: `ps` prints nothing, although the
second one is still there. -/
theorem ps_misses : ∃ fs k, Run CallStep (fun _ _ => True) (.initial fs) k ∧
    k.state 0 = .terminated ∧ k.state 1 = .new ∧ ps k = .ok [] ∧ ¬ ListsProcesses k := by
  obtain ⟨fs, r, -, -, -, hfirst, hsecond⟩ := exists_twoCreated
  let k₂ := twoCreated fs r
  have hfind : findProcess 1 k₂ = some 0 :=
    findFrom_eq_some.2 ⟨Nat.zero_le _, rfl, fun j hj _ => absurd hj (Fin.not_lt_zero j)⟩
  have hpages : (1 : UInt32) ≤ 8 := by decide
  have hdestroy : processDestroy 1 k₂ = .ok (true, k₂.destroyed 0 0) :=
    processDestroy_found hfind rfl hpages
  have hrun : Run CallStep (fun _ _ => True) (.initial fs) (k₂.destroyed 0 0) := by
    have hthird : CallStep (.destroy 1) k₂ (k₂.destroyed 0 0) := bind_eq_ok.2 ⟨_, hdestroy, rfl⟩
    exact ((Run.single trivial hfirst).tail trivial hsecond).tail trivial hthird
  have h0 : (k₂.destroyed 0 0).state 0 = .terminated := rfl
  have hnew : (k₂.destroyed 0 0).state 1 = .new := rfl
  refine ⟨fs, _, hrun, h0, hnew, by rw [ps_eq, if_pos h0], fun hlists => ?_⟩
  rcases (processList_iff _).1 hlists with hnone | hall
  · rw [hnone 1] at hnew
    cases hnew
  · exact (hall 0).1 h0

end OsKernel
