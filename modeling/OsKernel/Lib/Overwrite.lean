import Mathlib.Data.List.Basic
import Mathlib.Logic.Function.Basic
import Mathlib.Logic.Nontrivial.Basic

/-!
# Overwriting a part of an array

`overwrite l m a` is the array `a` with the elements of `l` in the cells from `m` on. A loop that
stores one element after the other builds it up (`overwrite_cons`), and what is stored can be read
off the result when the rest of the array is arbitrary (`overwrite_inj`).
-/

namespace OsKernel.Lib

variable {α : Type*} {n m : Nat} {l l' : List α} {x : α} {a : Fin n → α}

/-- The array `a` with the elements of `l` from cell `m` on, as far as it has cells. -/
def overwrite (l : List α) (m : Nat) (a : Fin n → α) : Fin n → α :=
  fun j => if m ≤ j.val then l.getD (j.val - m) (a j) else a j

@[simp] theorem overwrite_nil : overwrite [] m a = a := by
  funext j
  simp [overwrite]

/-- The first element is stored, and then the others behind it. -/
theorem overwrite_cons (hm : m < n) :
    overwrite (x :: l) m a = overwrite l (m + 1) (Function.update a ⟨m, hm⟩ x) := by
  funext j
  simp only [overwrite, Function.update_apply, Fin.ext_iff]
  rcases Nat.lt_trichotomy j.val m with hlt | heq | hgt
  · rw [if_neg (by omega), if_neg (by omega), if_neg (by omega)]
  · rw [if_pos (by omega), if_neg (by omega), if_pos heq, heq, Nat.sub_self]
    rfl
  · obtain ⟨d, hd⟩ := Nat.exists_eq_add_of_lt hgt
    rw [if_pos (by omega), if_pos (by omega), if_neg (by omega), hd]
    have hsub : m + d + 1 - m = d + 1 ∧ m + d + 1 - (m + 1) = d := by omega
    rw [hsub.1, hsub.2]
    rfl

/-- A list as long as the array replaces all of it. -/
theorem overwrite_ofFn (f : Fin n → α) : overwrite (List.ofFn f) 0 a = f := by
  funext j
  simp [overwrite]

/-- Two lists that fit in and do the same to every array are the same. -/
theorem overwrite_inj [Nontrivial α] (hl : l.length ≤ n) (hl' : l'.length ≤ n)
    (h : ∀ a : Fin n → α, overwrite l 0 a = overwrite l' 0 a) : l = l' := by
  have hcell : ∀ i (_ : i < n) (d : α), l.getD i d = l'.getD i d := by
    intro i hi d
    have hi' := congrFun (h fun _ => d) ⟨i, hi⟩
    simpa [overwrite] using hi'
  refine List.ext_getElem? fun i => ?_
  by_cases hi : i < n
  · obtain ⟨d, d', hd⟩ := exists_pair_ne α
    have h1 := hcell i hi d
    have h2 := hcell i hi d'
    rw [List.getD_eq_getElem?_getD, List.getD_eq_getElem?_getD] at h1 h2
    cases hx : l[i]? with
    | none =>
      cases hx' : l'[i]? with
      | none => rfl
      | some y =>
        rw [hx, hx'] at h1 h2
        exact absurd (h1.trans h2.symm) hd
    | some x =>
      cases hx' : l'[i]? with
      | none =>
        rw [hx, hx'] at h1 h2
        exact absurd (h1.symm.trans h2) hd
      | some y =>
        rw [hx, hx'] at h1
        exact congrArg some h1
  · rw [List.getElem?_eq_none (by omega), List.getElem?_eq_none (by omega)]

end OsKernel.Lib
