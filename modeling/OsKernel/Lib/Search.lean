import Mathlib.Data.List.FinRange
import Mathlib.Data.Fintype.Basic

/-!
# Searching an array from an index

`findFrom lo p` is the value of the loop `for (i = lo; i < n; i++) if (p(i)) return i;` over an
array of `n` cells, and `matchesFrom lo p` the list of all the cells it could return. An allocator
that repeats the search takes the cells of that list one by one (`findFrom_eq_head?`,
`matchesFrom_erase`). A loop that stops at the first cell `p` rejects has passed the cells up to
which `p` holds everywhere (`takeWhile_eq_filter`).
-/

namespace OsKernel.Lib

section
variable {n : Nat} {lo : Nat} {p q : Fin n → Bool} {i : Fin n}

/-- The first index of `[lo, n)` at which `p` holds. -/
def findFrom {n : Nat} (lo : Nat) (p : Fin n → Bool) : Option (Fin n) :=
  (List.finRange n).find? fun i => decide (lo ≤ i.val) && p i

/-- The indices of `[lo, n)` at which `p` holds, in increasing order. -/
def matchesFrom {n : Nat} (lo : Nat) (p : Fin n → Bool) : List (Fin n) :=
  (List.finRange n).filter fun i => decide (lo ≤ i.val) && p i

/-- The search stops at `i` exactly when `i` is the first match. -/
theorem findFrom_eq_some :
    findFrom lo p = some i ↔ lo ≤ i.val ∧ p i = true ∧ ∀ j < i, lo ≤ j.val → p j = false := by
  rw [findFrom, List.find?_eq_some_iff_getElem]
  constructor
  · rintro ⟨hi, k, hk, rfl, hbefore⟩
    simp only [Bool.and_eq_true, decide_eq_true_eq] at hi
    refine ⟨hi.1, hi.2, fun j hj hlo => ?_⟩
    have := hbefore j.val (by simpa [Fin.lt_def] using hj)
    simpa [hlo] using this
  · rintro ⟨hlo, hp, hbefore⟩
    refine ⟨by simp [hlo, hp], i.val, by simp, by simp, fun j hj => ?_⟩
    have hn : j < n := hj.trans i.isLt
    by_cases hj' : lo ≤ j
    · simp [hbefore ⟨j, hn⟩ (by simpa [Fin.lt_def] using hj) hj']
    · simp [hj']

/-- The search runs off the end exactly when nothing matches. -/
theorem findFrom_eq_none : findFrom lo p = none ↔ ∀ i : Fin n, lo ≤ i.val → p i = false := by
  simp [findFrom, List.find?_eq_none, List.mem_finRange]

/-- A match makes the search succeed. -/
theorem findFrom_isSome (hlo : lo ≤ i.val) (hp : p i = true) :
    ∃ j, findFrom lo p = some j := by
  cases h : findFrom lo p with
  | some j => exact ⟨j, rfl⟩
  | none => rw [findFrom_eq_none.1 h i hlo] at hp; cases hp

@[simp] theorem mem_matchesFrom : i ∈ matchesFrom lo p ↔ lo ≤ i.val ∧ p i = true := by
  simp [matchesFrom, List.mem_finRange]

theorem nodup_matchesFrom (lo : Nat) (p : Fin n → Bool) : (matchesFrom lo p).Nodup :=
  (List.nodup_finRange n).filter _

/-- The search returns the head of the list of matches. -/
theorem findFrom_eq_head? (lo : Nat) (p : Fin n → Bool) :
    findFrom lo p = (matchesFrom lo p).head? := by
  rw [findFrom, matchesFrom, List.head?_filter]

/-- Once the first match no longer matches, the list of matches is its own tail. -/
theorem matchesFrom_erase {l : List (Fin n)} (h : matchesFrom lo p = i :: l)
    (hq : ∀ j, q j = (p j && decide (j ≠ i))) : matchesFrom lo q = l := by
  have hnd := nodup_matchesFrom lo p
  rw [h, List.nodup_cons] at hnd
  have hsplit : matchesFrom lo q = (matchesFrom lo p).filter fun j => decide (j ≠ i) := by
    rw [matchesFrom, matchesFrom, List.filter_filter]
    refine List.filter_congr fun j _ => ?_
    rw [hq j]
    cases p j <;> cases decide (lo ≤ j.val) <;> simp
  rw [hsplit, h, List.filter_cons_of_neg (by simp)]
  refine List.filter_eq_self.2 fun j hj => ?_
  have hne : j ≠ i := fun he => hnd.1 (he ▸ hj)
  simpa using hne

/-- The cells before the first that `p` rejects are the ones up to which `p` holds everywhere. -/
theorem takeWhile_eq_filter {n : Nat} {p q : Fin n → Bool} {l : List (Fin n)}
    (hl : l.Pairwise (· < ·)) (hq : ∀ i ∈ l, q i = true ↔ ∀ j ∈ l, j ≤ i → p j = true) :
    l.takeWhile p = l.filter q := by
  induction l with
  | nil => rfl
  | cons a l ih =>
    rw [List.pairwise_cons] at hl
    by_cases ha : p a = true
    · have hqa : q a = true := by
        refine (hq a List.mem_cons_self).2 fun j hj hja => ?_
        rcases List.mem_cons.1 hj with rfl | hj
        · exact ha
        · exact absurd (hl.1 j hj) (not_lt.2 hja)
      rw [List.takeWhile_cons_of_pos ha, List.filter_cons_of_pos hqa, ih hl.2]
      intro i hi
      rw [hq i (List.mem_cons_of_mem _ hi)]
      simp [ha]
    · have hnone : ∀ i ∈ a :: l, ¬ q i = true := by
        intro i hi h
        refine ha ((hq i hi).1 h a List.mem_cons_self ?_)
        rcases List.mem_cons.1 hi with rfl | hi
        · exact le_rfl
        · exact (hl.1 i hi).le
      rw [List.takeWhile_cons_of_neg ha, List.filter_eq_nil_iff.2 hnone]

theorem mem_takeWhile_finRange {n : Nat} {p : Fin n → Bool} {i : Fin n} :
    i ∈ (List.finRange n).takeWhile p ↔ ∀ j ≤ i, p j = true := by
  classical
  rw [takeWhile_eq_filter (q := fun i => decide (∀ j ≤ i, p j = true)) (List.pairwise_lt_finRange n)
    fun i _ => by simp]
  simp

end

end OsKernel.Lib
