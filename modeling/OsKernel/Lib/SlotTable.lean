import OsKernel.Lib.Search
import Mathlib.Data.Set.Insert
import Mathlib.Logic.Function.Basic

/-!
# Tables whose live slots come first

A table of `n` slots keeps its records in the slots from `lo` on; `live` tells a record from an
unused slot and `key` names it. The table is `Packed` when the live slots come before the unused
ones, and `KeyInj` when no two of them carry the same key. `records` is the set it stands for. The
two edits that keep such a table in order are storing in the first unused slot (`Packed.store`,
`records_store`) and removing a slot by moving the last live record into it (`swapRemove`,
`Packed.swapRemove`, `records_swapRemove`).
-/

namespace OsKernel.Lib

variable {n lo : Nat} {α β : Type*} {live : α → Bool} {key : α → β} {t : Fin n → α}
  {i j last : Fin n} {e empty : α}

/-- The live slots of the table come before the unused ones. -/
def Packed (lo : Nat) (live : α → Bool) (t : Fin n → α) : Prop :=
  ∀ i j : Fin n, lo ≤ i.val → i ≤ j → live (t j) = true → live (t i) = true

/-- No two live slots carry the same key. -/
def KeyInj (lo : Nat) (live : α → Bool) (key : α → β) (t : Fin n → α) : Prop :=
  ∀ i j : Fin n, lo ≤ i.val → lo ≤ j.val → live (t i) = true → live (t j) = true →
    key (t i) = key (t j) → i = j

/-- The records the table holds. -/
def records (lo : Nat) (live : α → Bool) (t : Fin n → α) : Set α :=
  {e | ∃ i : Fin n, lo ≤ i.val ∧ t i = e ∧ live e = true}

/-- `i` is the first unused slot of the table. -/
def IsFirstUnused (lo : Nat) (live : α → Bool) (t : Fin n → α) (i : Fin n) : Prop :=
  lo ≤ i.val ∧ live (t i) = false ∧ ∀ j < i, lo ≤ j.val → live (t j) = true

/-- `i` is the last live slot of the table. -/
def IsLastLive (lo : Nat) (live : α → Bool) (t : Fin n → α) (i : Fin n) : Prop :=
  lo ≤ i.val ∧ live (t i) = true ∧ ∀ j, i < j → live (t j) = false

theorem mem_records : e ∈ records lo live t ↔ ∃ i : Fin n, lo ≤ i.val ∧ t i = e ∧ live e = true :=
  Iff.rfl

theorem records_live (h : e ∈ records lo live t) : live e = true := by
  obtain ⟨_, _, _, hl⟩ := h
  exact hl

theorem slot_mem_records (hi : lo ≤ i.val) (hl : live (t i) = true) : t i ∈ records lo live t :=
  ⟨i, hi, rfl, hl⟩

/-- In a table without repeated keys a record is determined by its key. -/
theorem KeyInj.eq_of_key (hk : KeyInj lo live key t) {e e' : α} (h : e ∈ records lo live t)
    (h' : e' ∈ records lo live t) (hkey : key e = key e') : e = e' := by
  obtain ⟨i, hi, rfl, hl⟩ := h
  obtain ⟨j, hj, rfl, hl'⟩ := h'
  rw [hk i j hi hj hl hl' hkey]

/-- An unused first slot is the first unused one. -/
theorem IsFirstUnused.eq_of_unused (hi : IsFirstUnused lo live t i) (hlo : lo = j.val)
    (hj : live (t j) = false) : i = j := by
  have hle : i ≤ j := by
    by_contra hlt
    rw [hi.2.2 j (not_le.1 hlt) hlo.le] at hj
    cases hj
  exact le_antisymm hle (Fin.le_def.2 (hlo ▸ hi.1))

/-- There is one first unused slot. -/
theorem IsFirstUnused.unique (hi : IsFirstUnused lo live t i) (hj : IsFirstUnused lo live t j) :
    i = j := by
  rcases lt_trichotomy i j with h | h | h
  · exact absurd hi.2.1 (by simp [hj.2.2 i h hi.1])
  · exact h
  · exact absurd hj.2.1 (by simp [hi.2.2 j h hj.1])

/-- Past the first unused slot of a packed table every slot is unused. -/
theorem Packed.unused_after (hp : Packed lo live t) (hi : IsFirstUnused lo live t i)
    (hij : i ≤ j) : live (t j) = false := by
  cases h : live (t j) with
  | false => rfl
  | true =>
    have := hp i j hi.1 hij h
    rw [hi.2.1] at this
    cases this

/-- The slot before the first unused one is the last live one. -/
theorem Packed.isLastLive (hp : Packed lo live t) (hi : IsFirstUnused lo live t i)
    (hlast : last.val + 1 = i.val) (hlo : lo ≤ last.val) : IsLastLive lo live t last :=
  ⟨hlo, hi.2.2 last (by rw [Fin.lt_def]; omega) hlo,
    fun j hj => hp.unused_after hi (by rw [Fin.lt_def] at hj; rw [Fin.le_def]; omega)⟩

/-- The last live slot is unique. -/
theorem IsLastLive.unique (hi : IsLastLive lo live t i) (hj : IsLastLive lo live t j) : i = j := by
  rcases lt_trichotomy i j with h | h | h
  · exact absurd hj.2.1 (by simp [hi.2.2 j h])
  · exact h
  · exact absurd hi.2.1 (by simp [hj.2.2 i h])

/-- The slots before `lo` do not matter for the records. -/
theorem records_congr {t' : Fin n → α} (h : ∀ j : Fin n, lo ≤ j.val → t' j = t j) :
    records lo live t' = records lo live t := by
  ext x
  simp only [mem_records]
  refine exists_congr fun j => and_congr_right fun hj => ?_
  rw [h j hj]

/-- A live slot comes before the first unused one. -/
theorem Packed.lt_firstUnused (hp : Packed lo live t) (hi : IsFirstUnused lo live t i)
    (hj : live (t j) = true) : j < i := by
  by_contra hle
  rw [hp.unused_after hi (not_lt.1 hle)] at hj
  cases hj

section Store

/-- Storing a record in the first unused slot keeps the table packed. -/
theorem Packed.store (hp : Packed lo live t) (hi : IsFirstUnused lo live t i)
    (he : live e = true) : Packed lo live (Function.update t i e) := by
  intro a b ha hab hb
  by_cases hai : a = i
  · subst hai; simp [he]
  · rw [Function.update_of_ne hai]
    by_cases hbi : b = i
    · subst hbi; exact hi.2.2 a (lt_of_le_of_ne hab hai) ha
    · rw [Function.update_of_ne hbi] at hb
      exact hp a b ha hab hb

/-- Storing a record in the first unused slot adds it to the records. -/
theorem records_store (hi : IsFirstUnused lo live t i) (he : live e = true) :
    records lo live (Function.update t i e) = insert e (records lo live t) := by
  ext x
  rw [Set.mem_insert_iff, mem_records, mem_records]
  constructor
  · rintro ⟨j, hj, rfl, hl⟩
    by_cases hji : j = i
    · subst hji; exact .inl (by simp)
    · rw [Function.update_of_ne hji] at hl ⊢
      exact .inr ⟨j, hj, rfl, hl⟩
  · rintro (rfl | ⟨j, hj, rfl, hl⟩)
    · exact ⟨i, hi.1, by simp, he⟩
    · have hji : j ≠ i := by
        rintro rfl
        rw [hi.2.1] at hl
        cases hl
      exact ⟨j, hj, by rw [Function.update_of_ne hji], hl⟩

/-- A new key keeps the keys distinct. -/
theorem KeyInj.store (hk : KeyInj lo live key t)
    (hnew : ∀ x ∈ records lo live t, key x ≠ key e) :
    KeyInj lo live key (Function.update t i e) := by
  intro a b ha hb hla hlb hkey
  by_cases hai : a = i
  · by_cases hbi : b = i
    · rw [hai, hbi]
    · subst hai
      rw [Function.update_of_ne hbi, Function.update_self] at hkey
      rw [Function.update_of_ne hbi] at hlb
      exact absurd hkey.symm (hnew _ (slot_mem_records hb hlb))
  · rw [Function.update_of_ne hai] at hla hkey
    by_cases hbi : b = i
    · subst hbi
      rw [Function.update_self] at hkey
      exact absurd hkey (hnew _ (slot_mem_records ha hla))
    · rw [Function.update_of_ne hbi] at hlb hkey
      exact hk a b ha hb hla hlb hkey

end Store

section Remove

/-- The table with the record of the slot `last` moved into the slot `i` and `last` cleared. -/
def swapRemove (t : Fin n → α) (i last : Fin n) (empty : α) : Fin n → α :=
  Function.update (Function.update t i (t last)) last empty

theorem swapRemove_last : swapRemove t i last empty last = empty := by
  simp [swapRemove]

/-- Away from the cleared slot the shortened table holds what the old one held at the same slot, and
at the removed slot what it held at the last one. -/
theorem swapRemove_of_ne (h : j ≠ last) :
    swapRemove t i last empty j = t (if j = i then last else j) := by
  rw [swapRemove, Function.update_of_ne h, Function.update_apply]
  split <;> rfl

section
variable (hlast : IsLastLive lo live t last) (hempty : live empty = false)
include hlast hempty

/-- A live slot of the shortened table is not the cleared one. -/
theorem ne_last_of_live (hj : live (swapRemove t i last empty j) = true) : j ≠ last := by
  rintro rfl
  rw [swapRemove_last, hempty] at hj
  cases hj

/-- Removing a live slot keeps the table packed. -/
theorem Packed.swapRemove (hp : Packed lo live t) (hi : live (t i) = true) :
    Packed lo live (swapRemove t i last empty) := by
  intro a b ha hab hb
  have hil : i ≤ last := by
    by_contra h
    rw [hlast.2.2 i (not_le.1 h)] at hi
    cases hi
  have hbl := ne_last_of_live hlast hempty hb
  -- the live slots of the shortened table lie before the cleared one
  have hb' : b < last := by
    rcases lt_trichotomy b last with h | h | h
    · exact h
    · exact absurd h hbl
    · rw [swapRemove_of_ne hbl, if_neg (ne_of_gt (hil.trans_lt h)), hlast.2.2 b h] at hb
      cases hb
  rw [swapRemove_of_ne (ne_of_lt (hab.trans_lt hb'))]
  split
  · exact hlast.2.1
  · exact hp a last ha (hab.trans hb'.le) hlast.2.1

/-- Removing a slot removes its record and no other one. -/
theorem records_swapRemove (hk : KeyInj lo live key t) (hlo : lo ≤ i.val)
    (hi : live (t i) = true) :
    records lo live (swapRemove t i last empty) = records lo live t \ {t i} := by
  ext x
  rw [Set.mem_sdiff, Set.mem_singleton_iff, mem_records, mem_records]
  constructor
  · rintro ⟨j, hj, rfl, hl⟩
    have hjl := ne_last_of_live hlast hempty hl
    rw [swapRemove_of_ne hjl] at hl ⊢
    split at hl
    · next hji =>
      rw [if_pos hji]
      refine ⟨⟨last, hlast.1, rfl, hl⟩, fun he => hjl ?_⟩
      rw [hji, hk last i hlast.1 hlo hl hi (congrArg key he)]
    · next hji =>
      rw [if_neg hji]
      exact ⟨⟨j, hj, rfl, hl⟩, fun he => hji (hk j i hj hlo hl hi (congrArg key he))⟩
  · rintro ⟨⟨j, hj, rfl, hl⟩, hne⟩
    have hji : j ≠ i := fun h => hne (h ▸ rfl)
    by_cases hjl : j = last
    · subst hjl
      refine ⟨i, hlo, ?_, hl⟩
      rw [swapRemove_of_ne (Ne.symm hji), if_pos rfl]
    · exact ⟨j, hj, by rw [swapRemove_of_ne hjl, if_neg hji], hl⟩

omit hlast hempty in
/-- In the record slots, removing a slot before them clears the last record. -/
theorem swapRemove_of_lt (hi : i.val < lo) (hj : lo ≤ j.val) :
    swapRemove t i last empty j = swapRemove t last last empty j := by
  have hji : j ≠ i := by
    rintro rfl
    omega
  by_cases hjl : j = last
  · rw [hjl, swapRemove_last, swapRemove_last]
  · rw [swapRemove_of_ne hjl, swapRemove_of_ne hjl, if_neg hji, if_neg hjl]

/-- Removing a slot before `lo` removes the last record: it moves out of the record slots. -/
theorem records_swapRemove_of_lt (hk : KeyInj lo live key t) (hi : i.val < lo) :
    records lo live (swapRemove t i last empty) = records lo live t \ {t last} :=
  (records_congr fun _ hj => swapRemove_of_lt hi hj).trans
    (records_swapRemove hlast hempty hk hlast.1 hlast.2.1)

/-- Removing a slot keeps the keys distinct. -/
theorem KeyInj.swapRemove (hk : KeyInj lo live key t) :
    KeyInj lo live key (swapRemove t i last empty) := by
  intro a b ha hb hla hlb hkey
  have hal := ne_last_of_live hlast hempty hla
  have hbl := ne_last_of_live hlast hempty hlb
  rw [swapRemove_of_ne hal] at hla hkey
  rw [swapRemove_of_ne hbl] at hlb hkey
  have hsrc : ∀ j : Fin n, lo ≤ j.val → lo ≤ (if j = i then last else j).val := by
    intro j hj
    split
    · exact hlast.1
    · exact hj
  have heq := hk _ _ (hsrc a ha) (hsrc b hb) hla hlb hkey
  split at heq <;> split at heq
  · next h h' => rw [h, h']
  · exact absurd heq.symm hbl
  · exact absurd heq hal
  · exact heq

end

end Remove

end OsKernel.Lib
