import Mathlib.Logic.Function.Basic

/-!
# Memory behind a translation

The cells of a memory are reached through a partial translation of addresses. A list of values that
is stored to one address after the other can be loaded again, as long as the addresses have cells
and no two of them the same one (`loadAt_storeFrom`). Stores through a translation change nothing
but the cells behind it (`OnlyBehind`).
-/

namespace OsKernel.Lib

variable {V P β : Type*}

/-- The value at an address, if it has a cell. -/
def loadAt (translate : V → Option P) (m : P → β) (a : V) : Option β := (translate a).map m

/-- Every cell that no address is translated to stays as it is. -/
def OnlyBehind (translate : V → Option P) (m m' : P → β) : Prop :=
  ∀ p, (∀ a, translate a ≠ some p) → m' p = m p

theorem OnlyBehind.refl {translate : V → Option P} {m : P → β} : OnlyBehind translate m m :=
  fun _ _ => rfl

theorem OnlyBehind.trans {translate : V → Option P} {m m' m'' : P → β}
    (h : OnlyBehind translate m m') (h' : OnlyBehind translate m' m'') :
        OnlyBehind translate m m'' :=
  fun p hp => (h' p hp).trans (h p hp)

section Store
variable [DecidableEq P]

/-- The memory with the values of a list stored to the addresses from number `i` on; nothing as soon
as one of them has no cell. -/
def storeFrom (translate : V → Option P) (addr : Nat → V) : Nat → List β → (P → β) → Option (P → β)
  | _, [], m => some m
  | i, b :: bs, m =>
    match translate (addr i) with
    | some p => storeFrom translate addr (i + 1) bs (Function.update m p b)
    | none => none

/-- The addresses number `i` to `n - 1` have cells of their own. -/
structure OwnCells (translate : V → Option P) (addr : Nat → V) (i n : Nat) : Prop where
  mapped : ∀ j, i ≤ j → j < n → ∃ p, translate (addr j) = some p
  inj : ∀ j k p, i ≤ j → j < n → i ≤ k → k < n → translate (addr j) = some p →
    translate (addr k) = some p → j = k

variable {translate : V → Option P} {addr : Nat → V} {i n k : Nat} {bs : List β} {m m' : P → β}
  {p : P}

omit [DecidableEq P] in
theorem OwnCells.tail (h : OwnCells translate addr i n) : OwnCells translate addr (i + 1) n where
  mapped j hj hn := h.mapped j (Nat.le_of_succ_le hj) hn
  inj j k p hj hj' hk hk' := h.inj j k p (Nat.le_of_succ_le hj) hj' (Nat.le_of_succ_le hk) hk'

/-- Stores to addresses with cells succeed. -/
theorem exists_storeFrom (h : OwnCells translate addr i n) (hn : i + bs.length ≤ n) :
    ∃ m', storeFrom translate addr i bs m = some m' := by
  induction bs generalizing i m with
  | nil => exact ⟨m, rfl⟩
  | cons b bs ih =>
    rw [List.length_cons] at hn
    obtain ⟨p, hp⟩ := h.mapped i (Nat.le_refl i) (by omega)
    obtain ⟨m', hm'⟩ := ih (m := Function.update m p b) h.tail (by omega)
    exact ⟨m', by rw [storeFrom, hp]; exact hm'⟩

/-- A cell of no address that is stored to stays as it is. -/
theorem storeFrom_of_ne (h : storeFrom translate addr i bs m = some m')
    (hp : ∀ j, i ≤ j → j < i + bs.length → translate (addr j) ≠ some p) : m' p = m p := by
  induction bs generalizing i m with
  | nil =>
    cases h
    rfl
  | cons b bs ih =>
    rw [List.length_cons] at hp
    rw [storeFrom] at h
    split at h
    · next q hq =>
      have hne : p ≠ q := by
        rintro rfl
        exact hp i (Nat.le_refl i) (by omega) hq
      rw [ih h fun j hj hlt => hp j (by omega) (by omega), Function.update_of_ne hne]
    · cases h

/-- What was stored is loaded again. -/
theorem loadAt_storeFrom (h : storeFrom translate addr i bs m = some m')
    (hcells : OwnCells translate addr i n) (hn : i + bs.length ≤ n) (hk : k < bs.length) :
    loadAt translate m' (addr (i + k)) = some bs[k] := by
  induction bs generalizing i k m with
  | nil => exact absurd hk (Nat.not_lt_zero k)
  | cons b bs ih =>
    rw [List.length_cons] at hn hk
    rw [storeFrom] at h
    split at h
    · next p hp =>
      cases k with
      | zero =>
        have hkept : m' p = Function.update m p b p := by
          refine storeFrom_of_ne h fun j hj hlt heq => ?_
          have hij := hcells.inj i j p (Nat.le_refl i) (by omega) (by omega) (by omega) hp heq
          omega
        rw [Function.update_self] at hkept
        rw [loadAt, Nat.add_zero, hp, Option.map_some, hkept]
        rfl
      | succ k =>
        have hnext := ih h hcells.tail (by omega) (k := k) (by omega)
        rw [show i + (k + 1) = i + 1 + k by omega]
        exact hnext
    · cases h

end Store

end OsKernel.Lib
