import Mathlib.Logic.Basic

/-!
# Resources that are mapped once

Owners map resources at places: `maps i a r` says that owner `i` has resource `r` at place `a`. The
mapping is exclusive when no resource is mapped twice, neither by two owners nor at two places of
one. It stays so when mappings go away (`Exclusive.mono`) and when one owner gets resources that
nobody else has (`Exclusive.replace`).
-/

namespace OsKernel.Lib

/-- Every resource is mapped at one place of one owner, at most. -/
def Exclusive {ι κ ρ : Type*} (maps : ι → κ → ρ → Prop) : Prop :=
  ∀ i j a b r, maps i a r → maps j b r → i = j ∧ a = b

namespace Exclusive

variable {ι κ ρ : Type*} {maps maps' : ι → κ → ρ → Prop}

/-- Fewer mappings. -/
theorem mono (h : Exclusive maps) (hsub : ∀ i a r, maps' i a r → maps i a r) : Exclusive maps' :=
  fun i j a b r hi hj => h i j a b r (hsub i a r hi) (hsub j b r hj)

/-- Nobody maps anything. -/
theorem empty (h : ∀ i a r, ¬ maps i a r) : Exclusive maps :=
  fun i _ a _ r hi _ => absurd hi (h i a r)

/-- Owner `p` gets resources, each at one place, that no other owner maps. -/
theorem replace (h : Exclusive maps) (p : ι) (hother : ∀ i ≠ p, ∀ a r, maps' i a r → maps i a r)
    (hinj : ∀ a b r, maps' p a r → maps' p b r → a = b)
    (hfresh : ∀ i ≠ p, ∀ a b r, maps' p a r → ¬ maps i b r) : Exclusive maps' := by
  intro i j a b r hi hj
  by_cases hip : i = p
  · by_cases hjp : j = p
    · subst hip hjp
      exact ⟨rfl, hinj a b r hi hj⟩
    · subst hip
      exact absurd (hother j hjp b r hj) (hfresh j hjp a b r hi)
  · by_cases hjp : j = p
    · subst hjp
      exact absurd (hother i hip a r hi) (hfresh i hip b a r hj)
    · exact h i j a b r (hother i hip a r hi) (hother j hjp b r hj)

end Exclusive

end OsKernel.Lib
