import Mathlib.Data.List.Chain
import Mathlib.Data.UInt

/-!
# Sleeping

`sleep` polls the counters of the timer until what is left of the duration is zero, as an unsigned
number: a poll that comes too late does not end it. So it ends at the first poll at which the
duration has passed exactly if no poll steps over that moment (`sleep_ends_iff`). Polls at every
tick of the timer do not (`userSleep_each_tick`).
-/

namespace OsKernel

/-- `second_counter` and `tick_counter`. -/
structure Counters where
  second : UInt32
  tick : UInt32
  deriving DecidableEq

namespace Counters

/-- `init_counter` -/
def init : Counters := ⟨0, 0⟩

/-- The counters after `timer_isr`. -/
def timerIsr (t : Counters) : Counters :=
  let tick := t.tick + 1
  if tick ≥ 1000 then ⟨t.second + 1, tick - 1000⟩ else ⟨t.second, tick⟩

/-- The milliseconds that the counters stand for. -/
def total (t : Counters) : Nat := 1000 * t.second.toNat + t.tick.toNat

/-- The moment has come. -/
def reaches (moment : Nat) (t : Counters) : Bool := decide (moment ≤ t.total)

/-- A tick is a millisecond. -/
theorem timerIsr_total {t : Counters} (h : t.tick.toNat < 1000) (hsecond : t.total + 1 < 2 ^ 32) :
    t.timerIsr.total = t.total + 1 ∧ t.timerIsr.tick.toNat < 1000 := by
  have htick : (t.tick + 1).toNat = t.tick.toNat + 1 := by
    rw [UInt32.toNat_add]
    exact Nat.mod_eq_of_lt (by show t.tick.toNat + 1 < 4294967296; omega)
  rw [total] at hsecond
  rw [timerIsr]
  split
  · next hge =>
    have hle : 1000 ≤ t.tick.toNat + 1 := by
      rw [ge_iff_le, UInt32.le_iff_toNat_le, htick] at hge
      exact hge
    have hsec : (t.second + 1).toNat = t.second.toNat + 1 := by
      rw [UInt32.toNat_add]
      exact Nat.mod_eq_of_lt (by show t.second.toNat + 1 < 4294967296; omega)
    have hzero : (t.tick + 1 - 1000).toNat = 0 := by
      rw [UInt32.toNat_sub_of_le _ _ hge, htick]
      show t.tick.toNat + 1 - 1000 = 0
      omega
    rw [total, hsec, hzero, total]
    omega
  · next hlt =>
    have hlt' : t.tick.toNat + 1 < 1000 := by
      rw [ge_iff_le, UInt32.le_iff_toNat_le, htick] at hlt
      exact Nat.lt_of_not_le hlt
    rw [total, total]
    dsimp only
    rw [htick]
    exact ⟨rfl, hlt'⟩

/-- The counters after a number of ticks. -/
theorem iterate_timerIsr_total {n : Nat} (h : n < 2 ^ 32) :
    (timerIsr^[n] init).total = n ∧ (timerIsr^[n] init).tick.toNat < 1000 := by
  induction n with
  | zero => exact ⟨rfl, by decide⟩
  | succ n ih =>
    obtain ⟨htotal, htick⟩ := ih (by omega)
    rw [Function.iterate_succ_apply']
    have hnext := timerIsr_total htick (by rw [htotal]; exact h)
    rwa [htotal] at hnext

end Counters

/-! ## The loops -/

/-- The loop that polls while something is left, with the poll at which it ends. -/
def pollWhile (left : Counters → UInt32) : List Counters → Option Nat
  | [] => none
  | now :: later => if left now > 0 then (pollWhile left later).map (· + 1) else some 0

/-- `sleep` of the user programs, for what its polls observe. -/
def userSleep (secondDuration milisecondDuration : UInt32) (start : Counters) :
    List Counters → Option Nat :=
  pollWhile fun now => 1000 * start.second + 1000 * secondDuration + start.tick +
    milisecondDuration -
    1000 * now.second - now.tick

/-- `sleep` of the timer, for what its polls observe. -/
def timerSleep (second : UInt32) (start : Counters) : List Counters → Option Nat :=
  pollWhile fun now => start.second * 1000 + 1000 * second + start.tick -
    1000 * now.second - now.tick

/-- The first poll at which the duration has passed. -/
def firstPast (start : Counters) (duration : Nat) (polls : List Counters) : Option Nat :=
  polls.findIdx? (Counters.reaches (start.total + duration))

/-- The first poll at which the duration has passed is just at its end. A duration that goes beyond
the last moment of the counters does not pass, and no poll is at what its end is taken for. -/
def HitsEnd (start : Counters) (duration : Nat) (polls : List Counters) : Prop :=
  if start.total + duration < 2 ^ 32 then
    ∀ now ∈ polls.find? (Counters.reaches (start.total + duration)),
      now.total = start.total + duration
  else ∀ now ∈ polls, now.total ≠ (start.total + duration) % 2 ^ 32

section Loop
variable {left : Counters → UInt32} {start : Counters} {duration : Nat} {polls : List Counters}

/-- The condition of `sleep` of the user programs, as a congruence. -/
theorem userSleep_left (secondDuration milisecondDuration : UInt32) (start now : Counters) :
    1000 * start.second + 1000 * secondDuration + start.tick + milisecondDuration -
        1000 * now.second - now.tick = 0 ↔
      now.total % 2 ^ 32 =
        (start.total + (1000 * secondDuration.toNat + milisecondDuration.toNat)) % 2 ^ 32 := by
  rw [← UInt32.toNat_inj, Counters.total, Counters.total]
  have hsecond := now.second.toNat_lt
  have htick := now.tick.toNat_lt
  simp only [UInt32.toNat_sub, UInt32.toNat_add, UInt32.toNat_mul, UInt32.reduceToNat]
  omega

/-- The condition of `sleep` of the timer. -/
theorem timerSleep_left (second : UInt32) (start now : Counters) :
    start.second * 1000 + 1000 * second + start.tick - 1000 * now.second - now.tick = 0 ↔
      now.total % 2 ^ 32 = (start.total + 1000 * second.toNat) % 2 ^ 32 := by
  rw [← UInt32.toNat_inj, Counters.total, Counters.total]
  have hsecond := now.second.toNat_lt
  have htick := now.tick.toNat_lt
  simp only [UInt32.toNat_sub, UInt32.toNat_add, UInt32.toNat_mul, UInt32.reduceToNat]
  omega

theorem pollWhile_cons_zero {now : Counters} (h : left now = 0) :
    pollWhile left (now :: polls) = some 0 := by
  rw [pollWhile, if_neg]
  rw [h]
  exact lt_irrefl 0

theorem pollWhile_cons_pos {now : Counters} (h : left now ≠ 0) :
    pollWhile left (now :: polls) = (pollWhile left polls).map (· + 1) := by
  rw [pollWhile, if_pos]
  exact UInt32.pos_iff_ne_zero.2 h

/-- The loop ends when a poll is at the end of the duration, modulo what the counters can tell. -/
theorem pollWhile_eq_findIdx? {target : Nat}
    (hleft : ∀ now, left now = 0 ↔ now.total % 2 ^ 32 = target % 2 ^ 32)
    (hpolls : ∀ now ∈ polls, now.total < 2 ^ 32) :
    pollWhile left polls = polls.findIdx? fun now => decide (now.total = target % 2 ^ 32) := by
  induction polls with
  | nil => rfl
  | cons now polls ih =>
    rw [List.forall_mem_cons] at hpolls
    rw [List.findIdx?_cons]
    have hzero : left now = 0 ↔ now.total = target % 2 ^ 32 := by
      rw [hleft, Nat.mod_eq_of_lt hpolls.1]
    by_cases hnow : now.total = target % 2 ^ 32
    · rw [pollWhile_cons_zero (hzero.2 hnow), if_pos (decide_eq_true hnow)]
    · rw [pollWhile_cons_pos (hzero.not.2 hnow), if_neg (by simpa using hnow), ih hpolls.2]

/-- The first element from a bound on is the first one at the bound exactly if it is at the
bound. -/
theorem findIdx?_eq_iff {target : Nat} :
    (polls.findIdx? fun now => decide (now.total = target)) =
        polls.findIdx? (Counters.reaches target) ↔
      ∀ now ∈ polls.find? (Counters.reaches target), now.total = target := by
  induction polls with
  | nil => exact iff_of_true rfl nofun
  | cons now polls ih =>
    rw [List.findIdx?_cons, List.findIdx?_cons]
    rcases lt_trichotomy now.total target with hlt | heq | hgt
    · have hne : ¬ decide (now.total = target) = true := by simpa using hlt.ne
      have hnle : ¬ now.reaches target = true := by simpa [Counters.reaches] using hlt
      rw [if_neg hne, if_neg hnle, List.find?_cons_of_neg hnle, ← ih]
      exact (Option.map_injective Nat.succ_injective).eq_iff
    · have hle : now.reaches target = true := decide_eq_true heq.ge
      rw [if_pos (decide_eq_true heq), if_pos hle, List.find?_cons_of_pos hle]
      refine iff_of_true rfl fun a ha => ?_
      cases ha
      exact heq
    · have hne : ¬ decide (now.total = target) = true := by simpa using hgt.ne'
      have hle : now.reaches target = true := decide_eq_true hgt.le
      rw [if_neg hne, if_pos hle, List.find?_cons_of_pos hle]
      refine iff_of_false (fun h => ?_) fun h => hgt.ne' (h now rfl)
      obtain ⟨i, -, hi⟩ := Option.map_eq_some_iff.1 h
      exact absurd hi (Nat.succ_ne_zero i)

/-- The loop ends at the first poll at which the duration has passed exactly if no poll steps over
its end. -/
theorem pollWhile_eq_iff
    (hleft : ∀ now, left now = 0 ↔ now.total % 2 ^ 32 = (start.total + duration) % 2 ^ 32)
    (hpolls : ∀ now ∈ polls, now.total < 2 ^ 32) :
    pollWhile left polls = firstPast start duration polls ↔ HitsEnd start duration polls := by
  rw [pollWhile_eq_findIdx? hleft hpolls, firstPast, HitsEnd]
  split
  · next hlt =>
    rw [Nat.mod_eq_of_lt hlt]
    exact findIdx?_eq_iff
  · next hge =>
    have hnone : polls.findIdx? (Counters.reaches (start.total + duration)) = none := by
      refine List.findIdx?_eq_none_iff.2 fun now hnow => decide_eq_false ?_
      have hlt := hpolls now hnow
      omega
    rw [hnone, List.findIdx?_eq_none_iff]
    exact forall₂_congr fun now _ => decide_eq_false_iff_not

/-- Polls at every tick of the timer see the end of the duration. -/
theorem hitsEnd_of_each_tick (hstart : start.total + duration < 2 ^ 32) (hduration : 0 < duration)
    (heach : (start :: polls).IsChain fun t t' => t'.total ≤ t.total + 1) :
    HitsEnd start duration polls := by
  rw [HitsEnd, if_pos hstart]
  -- no poll so far has come to the end
  have hfirst : ∀ (polls : List Counters) (last : Counters), last.total < start.total + duration →
      (last :: polls).IsChain (fun t t' => t'.total ≤ t.total + 1) →
      ∀ now ∈ polls.find? (Counters.reaches (start.total + duration)),
        now.total = start.total + duration := by
    intro polls
    induction polls with
    | nil => exact fun _ _ _ => nofun
    | cons next polls ih =>
      intro last hlast hchain
      rw [List.isChain_cons_cons] at hchain
      by_cases hnext : next.reaches (start.total + duration) = true
      · rw [List.find?_cons_of_pos hnext]
        intro now hnow
        cases hnow
        have hpast := of_decide_eq_true hnext
        have hstep := hchain.1
        omega
      · rw [List.find?_cons_of_neg hnext]
        exact ih next (Nat.lt_of_not_le fun hle => hnext (decide_eq_true hle)) hchain.2
  exact hfirst polls start (by omega) heach

end Loop

/-- A program that polls at every tick wakes up at the end. -/
theorem userSleep_each_tick {n : Nat} {ns : List Nat} (hns : ∀ m ∈ n :: ns, m < 2 ^ 32)
    (heach : (n :: ns).IsChain fun m m' => m' ≤ m + 1) (secondDuration milisecondDuration : UInt32)
    (hduration : 0 < 1000 * secondDuration.toNat + milisecondDuration.toNat)
    (hend : n + (1000 * secondDuration.toNat + milisecondDuration.toNat) < 2 ^ 32) :
    userSleep secondDuration milisecondDuration (Counters.timerIsr^[n] .init)
        (ns.map fun m => Counters.timerIsr^[m] .init) =
      firstPast (Counters.timerIsr^[n] .init)
        (1000 * secondDuration.toNat + milisecondDuration.toNat)
        (ns.map fun m => Counters.timerIsr^[m] .init) := by
  have htotal : ∀ m ∈ n :: ns, (Counters.timerIsr^[m] .init).total = m := fun m hm =>
    (Counters.iterate_timerIsr_total (hns m hm)).1
  refine (pollWhile_eq_iff (userSleep_left _ _ _) fun now hnow => ?_).2
    (hitsEnd_of_each_tick ?_ hduration ?_)
  · obtain ⟨m, hm, rfl⟩ := List.mem_map.1 hnow
    rw [htotal m (List.mem_cons_of_mem n hm)]
    exact hns m (List.mem_cons_of_mem n hm)
  · rw [htotal n List.mem_cons_self]
    exact hend
  · rw [← List.map_cons (f := fun m => Counters.timerIsr^[m] .init), List.isChain_map]
    refine List.IsChain.imp_of_mem_imp (fun m m' hm hm' hle => ?_) heach
    rw [htotal m hm, htotal m' hm']
    exact hle

/-- Both kinds of `sleep` end at the first poll at which the duration has passed exactly if no poll
steps over its end. -/
theorem sleep_ends_iff (start : Counters) (polls : List Counters)
    (hpolls : ∀ now ∈ polls, now.total < 2 ^ 32) :
    (∀ secondDuration milisecondDuration : UInt32,
      userSleep secondDuration milisecondDuration start polls =
          firstPast start (1000 * secondDuration.toNat + milisecondDuration.toNat) polls ↔
        HitsEnd start (1000 * secondDuration.toNat + milisecondDuration.toNat) polls) ∧
    ∀ second : UInt32, timerSleep second start polls = firstPast start (1000 * second.toNat) polls ↔
      HitsEnd start (1000 * second.toNat) polls :=
  ⟨fun secondDuration milisecondDuration =>
    pollWhile_eq_iff (userSleep_left secondDuration milisecondDuration start) hpolls,
    fun second => pollWhile_eq_iff (timerSleep_left second start) hpolls⟩

/-- A poll at the end of one second. -/
theorem sleep_ends_second :
    (∀ secondDuration milisecondDuration : UInt32,
      userSleep secondDuration milisecondDuration .init [⟨1, 0⟩] =
          firstPast .init (1000 * secondDuration.toNat + milisecondDuration.toNat) [⟨1, 0⟩] ↔
        HitsEnd .init (1000 * secondDuration.toNat + milisecondDuration.toNat) [⟨1, 0⟩]) ∧
    ∀ second : UInt32, timerSleep second .init [⟨1, 0⟩] =
      firstPast .init (1000 * second.toNat) [⟨1, 0⟩] ↔
      HitsEnd .init (1000 * second.toNat) [⟨1, 0⟩] :=
  sleep_ends_iff .init [⟨1, 0⟩] (by decide)

/-- A poll 10 milliseconds before the end of two seconds and one 10 milliseconds behind it: neither
ends the loop. -/
theorem sleep_misses_end :
    userSleep 2 0 .init [⟨1, 990⟩, ⟨2, 10⟩] = none ∧ timerSleep 2 .init [⟨1, 990⟩, ⟨2, 10⟩] = none ∧
      firstPast .init 2000 [⟨1, 990⟩, ⟨2, 10⟩] = some 1 := by
  decide

end OsKernel
