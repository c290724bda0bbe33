import Mathlib.Logic.Relation

/-!
# Runs of a labelled step

A system makes steps `step a s s'`, labelled with what happened. `Run step ok s s'` is a run from
`s` to `s'` each step of which meets the condition `ok` in the state it starts from. What a step
under the condition preserves holds after every run (`Run.invariant`), and a run is one for every
weaker condition (`Run.mono`). Where steps are computed, so are runs (`Run.of_runAll`). `Logged`
runs keep the labels of their steps: where every step of one system is one of another with the same
label, the two have the same logs (`Logged.simulates`). `Counted` steps count the labels of one
kind; where each of those lowers a measure while the system waits, the measure bounds their number
(`Counted.le_measure`).
-/

namespace OsKernel.Lib

variable {σ τ α : Type*} {step : α → σ → σ → Prop} {ok ok' : α → σ → Prop} {I : σ → Prop}
  {s s' : σ} {a : α}

/-- The states that steps under the condition `ok` lead to from `s`. -/
inductive Run (step : α → σ → σ → Prop) (ok : α → σ → Prop) (s : σ) : σ → Prop
  | refl : Run step ok s s
  | tail {s₁ s₂ : σ} {a : α} : Run step ok s s₁ → ok a s₁ → step a s₁ s₂ → Run step ok s s₂

namespace Run

/-- A step on its own is a run. -/
theorem single (hok : ok a s) (h : step a s s') : Run step ok s s' :=
  .tail .refl hok h

/-- What holds at first, and is preserved by every step under the condition, holds after a run. -/
theorem invariant (hinv : ∀ a s s', I s → ok a s → step a s s' → I s')
    (h : Run step ok s s') (hs : I s) : I s' := by
  induction h with
  | refl => exact hs
  | tail _ hok hstep ih => exact hinv _ _ _ ih hok hstep

/-- One run after another. -/
theorem trans {s'' : σ} (h : Run step ok s s') (h' : Run step ok s' s'') : Run step ok s s'' := by
  induction h' with
  | refl => exact h
  | tail _ hok hstep ih => exact ih.tail hok hstep

/-- A weaker condition allows more runs. -/
theorem mono (hok : ∀ a s, ok a s → ok' a s) (h : Run step ok s s') : Run step ok' s s' := by
  induction h with
  | refl => exact .refl
  | tail _ h hstep ih => exact ih.tail (hok _ _ h) hstep

end Run

/-- What happens one after the other, as long as it is allowed and completes. -/
def runAll {β : Type*} (ok : β → σ → Prop) [∀ b s, Decidable (ok b s)] (f : β → σ → Option σ) :
    List β → σ → Option σ
  | [], s => some s
  | b :: bs, s => if ok b s then (f b s).bind (runAll ok f bs) else none

/-- It makes a run. -/
theorem Run.of_runAll {β : Type*} {allowed : β → σ → Prop} [∀ b s, Decidable (allowed b s)]
    {f : β → σ → Option σ} {bs : List β} (g : β → α) (hok : ∀ b s, allowed b s → ok (g b) s)
    (hstep : ∀ b s s', f b s = some s' → step (g b) s s') (h : runAll allowed f bs s = some s') :
    Run step ok s s' := by
  induction bs generalizing s with
  | nil =>
    obtain rfl : s = s' := Option.some.inj h
    exact .refl
  | cons b bs ih =>
    rw [runAll] at h
    split at h
    · next hb =>
      obtain ⟨s₁, hs₁, h⟩ := Option.bind_eq_some_iff.1 h
      exact (Run.single (hok b s hb) (hstep b s s₁ hs₁)).trans (ih h)
    · cases h

/-- The states that steps under the condition `ok` lead to from `s`, with the labels of the
steps. -/
inductive Logged (step : α → σ → σ → Prop) (ok : α → σ → Prop) (s : σ) : List α → σ → Prop
  | refl : Logged step ok s [] s
  | tail {s₁ s₂ : σ} {a : α} {as : List α} : Logged step ok s as s₁ → ok a s₁ → step a s₁ s₂ →
      Logged step ok s (as ++ [a]) s₂

namespace Logged
variable {step' : α → τ → τ → Prop} {R : σ → τ → Prop} {as : List α} {t : τ}

/-- Without its labels it is a run. -/
theorem run (h : Logged step ok s as s') : Run step ok s s' := by
  induction h with
  | refl => exact .refl
  | tail _ hok hstep ih => exact ih.tail hok hstep

/-- The last step of a run. -/
theorem last (h : Logged step ok s (as ++ [a]) s') :
    ∃ s₁, Logged step ok s as s₁ ∧ ok a s₁ ∧ step a s₁ s' := by
  generalize hlog : as ++ [a] = log at h
  cases h with
  | refl => exact absurd hlog (List.append_ne_nil_of_right_ne_nil as (List.cons_ne_nil a []))
  | tail h hok hstep =>
    obtain ⟨rfl, ha⟩ := List.append_inj' hlog rfl
    obtain rfl := List.cons.inj ha |>.1
    exact ⟨_, h, hok, hstep⟩

theorem nil (h : Logged step ok s [] s') : s' = s := by
  generalize hlog : [] = log at h
  cases h with
  | refl => rfl
  | @tail _ _ _ as =>
    exact absurd hlog.symm (List.append_ne_nil_of_right_ne_nil as (List.cons_ne_nil _ []))

/-- A run leads to a related state by steps of the other system with the same labels, if every step
does. -/
theorem simulates
    (hstep : ∀ a s₁ s₂ t₁, R s₁ t₁ → ok a s₁ → step a s₁ s₂ → ∃ t₂, step' a t₁ t₂ ∧ R s₂ t₂)
    (h : Logged step ok s as s') (hR : R s t) :
    ∃ t', Logged step' (fun _ _ => True) t as t' ∧ R s' t' := by
  induction h with
  | refl => exact ⟨t, .refl, hR⟩
  | tail _ hok hs ih =>
    obtain ⟨t₁, hlog, hR₁⟩ := ih
    obtain ⟨t₂, hs', hR₂⟩ := hstep _ _ _ _ hR₁ hok hs
    exact ⟨t₂, hlog.tail trivial hs', hR₂⟩

end Logged

/-- A step of the system beside the number of steps so far whose labels `counts` picks. -/
def Counted (step : α → σ → σ → Prop) (counts : α → Bool) (a : α) (x x' : σ × Nat) : Prop :=
  step a x.1 x'.1 ∧ x'.2 = x.2 + if counts a then 1 else 0

/-- While `W` holds, the steps that count lower the measure, and the other ones do not raise it.
Then there are not more of them than what the measure has dropped by. -/
theorem Counted.le_measure {W : σ → Prop} {μ : σ → Nat} {counts : α → Bool} {n : Nat}
    (hinv : ∀ a s s', I s → ok a s → step a s s' → I s')
    (hlower : ∀ a s s', I s → ok a s → step a s s' → W s → W s' →
      μ s' + (if counts a then 1 else 0) ≤ μ s)
    (h : Run (Counted step counts) (fun a x => ok a x.1 ∧ W x.1) (s, 0) (s', n)) (hs : I s)
    (hwait : W s') : n + μ s' ≤ μ s := by
  have hrun : I s' ∧ (W s' → n + μ s' ≤ μ s) := by
    refine h.invariant (I := fun x => I x.1 ∧ (W x.1 → x.2 + μ x.1 ≤ μ s)) ?_
      ⟨hs, fun _ => Nat.le_of_eq (Nat.zero_add _)⟩
    rintro a ⟨s₁, m⟩ ⟨s₂, m'⟩ ⟨hs₁, hm⟩ ⟨hok, hwait₁⟩ ⟨hstep, hcount⟩
    refine ⟨hinv _ _ _ hs₁ hok hstep, fun hwait₂ => ?_⟩
    have hle := hlower _ _ _ hs₁ hok hstep hwait₁ hwait₂
    have hm := hm hwait₁
    simp only at hcount hle hm ⊢
    omega
  exact hrun.2 hwait

end OsKernel.Lib
