import Mathlib.Data.List.Basic

/-!
# Loops that may fail

Rules for `List.foldlM` over `Except`: a loop completes when each iteration does (`foldlM_ok`, and
`foldlM_range_ok` with an invariant that counts the iterations), keeps what each iteration keeps
(`foldlM_inv`), follows another loop when each iteration does (`foldlM_simulates`), and fails only
as an iteration fails (`foldlM_ne_error`).
-/

namespace OsKernel.Lib

variable {α β ε : Type} {f : β → α → Except ε β} {l : List α} {b : β}

/-- A loop completes when each iteration does, from any state with the loop's invariant. -/
theorem foldlM_ok {P : β → Prop} (h : ∀ a ∈ l, ∀ b, P b → ∃ b', f b a = .ok b' ∧ P b')
    (hb : P b) : ∃ b', l.foldlM f b = .ok b' ∧ P b' := by
  induction l generalizing b with
  | nil => exact ⟨b, rfl, hb⟩
  | cons a l ih =>
    obtain ⟨b', hrun, hb'⟩ := h a List.mem_cons_self b hb
    obtain ⟨b'', hrun', hb''⟩ := ih (fun x hx => h x (List.mem_cons_of_mem _ hx)) hb'
    refine ⟨b'', ?_, hb''⟩
    rw [List.foldlM_cons, hrun]
    exact hrun'

/-- The invariant of a loop over a range may depend on how many iterations are over. -/
theorem foldlM_range_ok {f : β → Nat → Except ε β} {P : Nat → β → Prop} {n : Nat}
    (h : ∀ i < n, ∀ b, P i b → ∃ b', f b i = .ok b' ∧ P (i + 1) b') (hb : P 0 b) :
    ∃ b', (List.range n).foldlM f b = .ok b' ∧ P n b' := by
  induction n with
  | zero => exact ⟨b, rfl, hb⟩
  | succ n ih =>
    obtain ⟨b', hrun, hb'⟩ := ih fun i hi => h i (Nat.lt_succ_of_lt hi)
    obtain ⟨b'', hrun', hb''⟩ := h n (Nat.lt_succ_self n) b' hb'
    refine ⟨b'', ?_, hb''⟩
    rw [List.range_succ, List.foldlM_append, hrun]
    show [n].foldlM f b' = _
    rw [List.foldlM_cons, hrun']
    rfl

/-- What every iteration preserves holds after a loop that completes. -/
theorem foldlM_inv {b' : β} {P : β → Prop} (h : ∀ a ∈ l, ∀ b b', P b → f b a = .ok b' → P b')
    (hb : P b) (hrun : l.foldlM f b = .ok b') : P b' := by
  induction l generalizing b with
  | nil =>
    cases hrun
    exact hb
  | cons a l ih =>
    rw [List.foldlM_cons] at hrun
    cases hstep : f b a with
    | error e =>
      rw [hstep] at hrun
      cases hrun
    | ok b₁ =>
      rw [hstep] at hrun
      exact ih (fun x hx => h x (List.mem_cons_of_mem _ hx)) (h a List.mem_cons_self b b₁ hb hstep)
        hrun

/-- A loop that completes has a second one follow it, when the iterations keep the states
related. -/
theorem foldlM_simulates {γ : Type} {g : γ → α → Except ε γ} {R : β → γ → Prop} {b' : β} {c : γ}
    (h : ∀ a ∈ l, ∀ b c b', R b c → f b a = .ok b' → ∃ c', g c a = .ok c' ∧ R b' c')
    (hbc : R b c) (hrun : l.foldlM f b = .ok b') : ∃ c', l.foldlM g c = .ok c' ∧ R b' c' := by
  induction l generalizing b c with
  | nil =>
    cases hrun
    exact ⟨c, rfl, hbc⟩
  | cons a l ih =>
    rw [List.foldlM_cons] at hrun
    cases hstep : f b a with
    | error e =>
      rw [hstep] at hrun
      cases hrun
    | ok b₁ =>
      rw [hstep] at hrun
      obtain ⟨c₁, hfollow, hbc₁⟩ := h a List.mem_cons_self b c b₁ hbc hstep
      obtain ⟨c', hrest, hbc'⟩ := ih (fun x hx => h x (List.mem_cons_of_mem _ hx)) hbc₁ hrun
      refine ⟨c', ?_, hbc'⟩
      rw [List.foldlM_cons, hfollow]
      exact hrest

/-- A loop never fails in a way that no iteration fails in. -/
theorem foldlM_ne_error {e : ε} (h : ∀ a ∈ l, ∀ b, f b a ≠ .error e) :
    l.foldlM f b ≠ .error e := by
  induction l generalizing b with
  | nil => exact fun he => nomatch he
  | cons a l ih =>
    rw [List.foldlM_cons]
    cases hrun : f b a with
    | error e' => exact fun he => h a List.mem_cons_self b (hrun.trans he)
    | ok b' => exact ih fun x hx => h x (List.mem_cons_of_mem _ hx)

end OsKernel.Lib
