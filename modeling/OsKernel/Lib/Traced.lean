import Mathlib.Data.List.Basic

/-!
# Computations that record what they do

A `Traced ω ε α` may fail, and records its effects in the order in which they happen; the effects
before a failure stay. There are three properties of such a computation, each with its rule for the
sequence `x >>= f`: it returns a value after effects that have a property (`Returns`), it has only
such effects and returns only values that go with them (`Ensures`), or it fails or has another
effect (`Breaks`). A condition that says which of the last two holds decides the computation
(`Decides`), and a sequence is decided by the conditions of its parts (`Decides.bind`).
-/

namespace OsKernel.Lib

/-- A computation with its effects and its result. -/
structure Traced (ω ε α : Type) where
  trace : List ω
  result : Except ε α

namespace Traced
variable {ω ε α β : Type} {x : Traced ω ε α} {f : α → Traced ω ε β} {a : α} {b : β}
  {P : ω → Prop} {Q Q' : List ω → α → Prop} {R : List ω → β → Prop}

/-- Effects that happen only where nothing failed before. -/
protected def bind (x : Traced ω ε α) (f : α → Traced ω ε β) : Traced ω ε β :=
  match x.result with
  | .ok a => ⟨x.trace ++ (f a).trace, (f a).result⟩
  | .error e => ⟨x.trace, .error e⟩

instance : Monad (Traced ω ε) where
  pure a := ⟨[], .ok a⟩
  bind := Traced.bind

/-- A computation without effects. -/
def lift (result : Except ε α) : Traced ω ε α := ⟨[], result⟩

theorem bind_ok (h : x.result = .ok a) :
    (x >>= f) = ⟨x.trace ++ (f a).trace, (f a).result⟩ := by
  show x.bind f = _
  rw [Traced.bind, h]

theorem lift_ok_bind (a : α) (f : α → Traced ω ε β) : (lift (.ok a) >>= f) = f a :=
  bind_ok rfl

theorem bind_error {e : ε} (h : x.result = .error e) : (x >>= f) = ⟨x.trace, .error e⟩ := by
  show x.bind f = _
  rw [Traced.bind, h]

/-- A sequence returns what its second part returns. -/
theorem bind_result_eq_ok : (x >>= f).result = .ok b ↔
    ∃ a, x.result = .ok a ∧ (f a).result = .ok b := by
  cases hr : x.result with
  | error e =>
    rw [bind_error hr]
    exact iff_of_false (fun h => nomatch h) fun ⟨a, ha, _⟩ => nomatch ha
  | ok a =>
    rw [bind_ok hr]
    exact ⟨fun h => ⟨a, rfl, h⟩, fun ⟨a', ha, h⟩ => by cases ha; exact h⟩

/-! ## A result after effects of one kind -/

/-- The computation returns `a`, and its effects are in `P`. -/
structure Returns (P : ω → Prop) (x : Traced ω ε α) (a : α) : Prop where
  result : x.result = .ok a
  effects : ∀ w ∈ x.trace, P w

theorem Returns.pure (a : α) : Returns P (pure a : Traced ω ε α) a :=
  ⟨rfl, fun _ h => nomatch h⟩

theorem Returns.bind (hx : Returns P x a) (hf : Returns P (f a) b) : Returns P (x >>= f) b := by
  rw [bind_ok hx.result]
  refine ⟨hf.result, fun w hw => ?_⟩
  rcases List.mem_append.1 hw with hw | hw
  · exact hx.effects w hw
  · exact hf.effects w hw

/-- A loop over a range, whose invariant may depend on how far it has come. -/
theorem Returns.foldlM_range' {f : α → Nat → Traced ω ε α} {I : Nat → α → Prop} {k n : Nat}
    (h : ∀ j, k ≤ j → j < k + n → ∀ a, I j a → ∃ a', Returns P (f a j) a' ∧ I (j + 1) a')
    (hstart : I k a) : ∃ a', Returns P ((List.range' k n).foldlM f a) a' ∧ I (k + n) a' := by
  induction n generalizing k a with
  | zero => exact ⟨a, .pure a, hstart⟩
  | succ n ih =>
    obtain ⟨a₁, hrun, hnext⟩ := h k (Nat.le_refl k) (by omega) a hstart
    obtain ⟨a', hrun', hend⟩ := ih (fun j hj hlt => h j (by omega) (by omega)) hnext
    refine ⟨a', hrun.bind hrun', ?_⟩
    rwa [Nat.add_right_comm] at hend

/-! ## Every result goes with the effects -/

/-- The effects are in `P`, and a result is related to them by `Q`. -/
structure Ensures (P : ω → Prop) (Q : List ω → α → Prop) (x : Traced ω ε α) : Prop where
  effects : ∀ w ∈ x.trace, P w
  result : ∀ a, x.result = .ok a → Q x.trace a

theorem Ensures.mono (h : Ensures P Q x) (hQ : ∀ t a, Q t a → Q' t a) : Ensures P Q' x :=
  ⟨h.effects, fun a ha => hQ _ _ (h.result a ha)⟩

theorem Ensures.lift {r : Except ε α} (h : ∀ a, r = .ok a → Q [] a) :
    Ensures P Q (lift r : Traced ω ε α) :=
  ⟨(fun _ h => nomatch h), h⟩

/-- In a sequence the second part continues the effects of the first one. -/
theorem Ensures.bind (hx : Ensures P Q x)
    (hf : ∀ t a, Q t a → Ensures P (fun t' b => R (t ++ t') b) (f a)) : Ensures P R (x >>= f) := by
  cases hr : x.result with
  | error e =>
    rw [bind_error hr]
    exact ⟨hx.effects, fun b hb => nomatch hb⟩
  | ok a =>
    have hfa := hf _ a (hx.result a hr)
    rw [bind_ok hr]
    refine ⟨fun w hw => ?_, fun b hb => hfa.result b hb⟩
    rcases List.mem_append.1 hw with hw | hw
    · exact hx.effects w hw
    · exact hfa.effects w hw

/-! ## Failures and other effects -/

/-- The computation fails, or one of its effects is not in `P`. -/
def Breaks (P : ω → Prop) (x : Traced ω ε α) : Prop :=
  (∀ a, x.result ≠ .ok a) ∨ ∃ w ∈ x.trace, ¬ P w

theorem Breaks.of_mem {w : ω} (h : w ∈ x.trace) (hw : ¬ P w) : Breaks P x :=
  .inr ⟨w, h, hw⟩

theorem Breaks.bind_left (h : Breaks P x) : Breaks P (x >>= f) := by
  cases hr : x.result with
  | error e =>
    rw [bind_error hr]
    exact .inl fun b hb => nomatch hb
  | ok a =>
    rw [bind_ok hr]
    rcases h with h | ⟨w, hw, hP⟩
    · exact absurd hr (h a)
    · exact .inr ⟨w, List.mem_append_left _ hw, hP⟩

theorem Breaks.bind_right (h : ∀ a, x.result = .ok a → Breaks P (f a)) : Breaks P (x >>= f) := by
  cases hr : x.result with
  | error e =>
    rw [bind_error hr]
    exact .inl fun b hb => nomatch hb
  | ok a =>
    rw [bind_ok hr]
    rcases h a hr with hfail | ⟨w, hw, hP⟩
    · exact .inl hfail
    · exact .inr ⟨w, List.mem_append_right _ hw, hP⟩

/-- A computation that breaks the property ensures it only by failing. -/
theorem Breaks.not_returns (h : Breaks P x) (hr : x.result = .ok a) : ¬ ∀ w ∈ x.trace, P w := by
  rcases h with h | ⟨w, hw, hP⟩
  · exact absurd hr (h a)
  · exact fun hall => hP (hall w hw)

/-! ## A condition that decides -/

/-- The condition `fits` decides whether the effects are in `P`: under it they are, a result goes
with them, and a failure is one of `F`; without it the computation breaks the property. -/
structure Decides (P : ω → Prop) (F : ε → Prop) (fits : Prop) (Q : List ω → α → Prop)
    (x : Traced ω ε α) : Prop where
  ensures : fits → Ensures P Q x
  fails : fits → ∀ e, x.result = .error e → F e
  breaks : ¬ fits → Breaks P x

variable {F : ε → Prop} {p q : Prop}

theorem Returns.decides (h : Returns P x a) (hQ : Q x.trace a) : Decides P F True Q x where
  ensures _ := by
    refine ⟨h.effects, fun b hb => ?_⟩
    rw [h.result] at hb
    cases hb
    exact hQ
  fails _ e he := by
    rw [h.result] at he
    exact nomatch he
  breaks hn := absurd trivial hn

theorem Decides.lift {r : Except ε α} (hQ : ∀ a, r = .ok a → Q [] a)
    (hF : ∀ e, r = .error e → F e) :
    Decides P F True Q (lift r : Traced ω ε α) where
  ensures _ := .lift hQ
  fails _ := hF
  breaks hn := absurd trivial hn

/-- A result that is there under the condition only. -/
theorem Decides.lift_iff {r : Except ε α} (hok : p → ∃ a, r = .ok a ∧ Q [] a)
    (herr : ¬ p → ∀ a, r ≠ .ok a) : Decides P F p Q (Traced.lift r : Traced ω ε α) where
  ensures hp := by
    obtain ⟨a, ha, hQ⟩ := hok hp
    refine .lift fun b hb => ?_
    cases ha.symm.trans hb
    exact hQ
  fails hp e he := by
    obtain ⟨a, ha, -⟩ := hok hp
    have hr : r = .error e := he
    cases ha.symm.trans hr
  breaks hn := .inl (herr hn)

theorem Decides.congr (h : Decides P F p Q x) (hiff : p ↔ q) : Decides P F q Q x :=
  ⟨fun hq => h.ensures (hiff.2 hq), fun hq => h.fails (hiff.2 hq),
    fun hq => h.breaks fun hp => hq (hiff.1 hp)⟩

theorem Decides.mono (h : Decides P F p Q x) (hQ : p → ∀ t a, Q t a → Q' t a) :
    Decides P F p Q' x :=
  ⟨fun hp => (h.ensures hp).mono (hQ hp), h.fails, h.breaks⟩

/-- Without failures the condition says whether the computation returns a good result. -/
theorem Decides.returns_iff {good : α → Prop}
    (h : Decides P (fun _ => False) p (fun _ a => good a) x) :
    (∃ a, Returns P x a ∧ good a) ↔ p := by
  constructor
  · rintro ⟨a, ha, -⟩
    by_contra hp
    exact (h.breaks hp).not_returns ha.result ha.effects
  · intro hp
    obtain ⟨heffects, hresult⟩ := h.ensures hp
    cases hr : x.result with
    | error e => exact (h.fails hp e hr).elim
    | ok a => exact ⟨a, ⟨hr, heffects⟩, hresult a hr⟩

/-- With one possible result the condition and that result say it. -/
theorem Decides.returns_eq_iff {good : α → Prop}
    (h : Decides P (fun _ => False) p (fun _ b => b = a) x) :
    (∃ b, Returns P x b ∧ good b) ↔ p ∧ good a := by
  constructor
  · rintro ⟨b, hb, hgood⟩
    by_cases hp : p
    · cases (h.ensures hp).result b hb.result
      exact ⟨hp, hgood⟩
    · exact absurd hb.effects ((h.breaks hp).not_returns hb.result)
  · rintro ⟨hp, hgood⟩
    have hreturns : (∃ b, Returns P x b ∧ b = a) ↔ p := h.returns_iff
    obtain ⟨b, hb, rfl⟩ := hreturns.2 hp
    exact ⟨b, hb, hgood⟩

/-- A sequence needs both conditions. -/
theorem Decides.bind (hx : Decides P F p Q x)
    (hf : p → ∀ t a, Q t a → Decides P F q (fun t' b => R (t ++ t') b) (f a)) :
    Decides P F (p ∧ q) R (x >>= f) where
  ensures := fun ⟨hp, hq⟩ => (hx.ensures hp).bind fun t a ha => (hf hp t a ha).ensures hq
  fails := by
    rintro ⟨hp, hq⟩ e he
    cases hr : x.result with
    | error e' =>
      rw [bind_error hr] at he
      cases he
      exact hx.fails hp e hr
    | ok a =>
      rw [bind_ok hr] at he
      exact (hf hp _ a ((hx.ensures hp).result a hr)).fails hq e he
  breaks hn := by
    by_cases hp : p
    · refine .bind_right fun a ha => (hf hp _ a ((hx.ensures hp).result a ha)).breaks fun hq => ?_
      exact hn ⟨hp, hq⟩
    · exact (hx.breaks hp).bind_left

/-- A function of the result needs no condition of its own. -/
theorem Decides.map {G : α → Prop} {K : β → Prop} {g : α → β}
    (hx : Decides P F p (fun _ a => G a) x) (hg : p → ∀ a, G a → K (g a)) :
    Decides P F p (fun _ b => K b) (x >>= fun a => pure (g a)) :=
  (hx.bind (q := True) fun hp _ a ha => (Returns.pure (g a)).decides (hg hp a ha)).congr
    (by rw [and_true])

/-- A part that always keeps to `P` leaves the condition to the rest. -/
theorem Decides.bind_true (hx : Decides P F True Q x)
    (hf : ∀ t a, Q t a → Decides P F q (fun t' b => R (t ++ t') b) (f a)) :
    Decides P F q R (x >>= f) :=
  (hx.bind fun _ => hf).congr (by rw [true_and])

end Traced

end OsKernel.Lib
