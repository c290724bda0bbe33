import OsKernel.Screen.Bounds

/-!
# Backspace

What is typed behind an empty buffer never reaches behind the cursor, and starts in the first cell
(`Screen.Packed`). So the cell of the last newline or tab is the first one that is written when
`handle_backspace` goes back, and the cursor comes back to where it was (`backspace_undoes`).
-/

namespace OsKernel

open Lib

/-- A character that moves the cursor on. -/
def TypedKey (c : UInt8) : Prop := Printable c ∨ c = 0x0A ∨ c = 0x09

theorem TypedKey.ne_zero {k : UInt8} (hk : TypedKey k) : k ≠ 0 := by
  rintro rfl
  rcases hk with hk | hk | hk
  · exact absurd hk (by decide)
  · cases hk
  · cases hk

namespace Screen

/-- Nothing is written from the cursor on, and before the cursor the first cell is. -/
structure Packed (s : Screen) : Prop where
  inRange : s.InRange
  blank : ∀ i, s.pos ≤ i → s.cell i = 0
  first : s.pos ≠ 0 → s.cell 0 ≠ 0

variable {s s' : Screen} {i : Int} {c k : UInt8} {q : Int}

theorem SameText.packed (h : s.SameText s') (hs : s.Packed) : s'.Packed where
  inRange := by
    rw [InRange, h.pos]
    exact hs.inRange
  blank i hi := by
    rw [h.cell]
    exact hs.blank i (h.pos ▸ hi)
  first hpos := by
    rw [h.cell]
    exact hs.first (h.pos ▸ hpos)

theorem cell_val (s : Screen) (j : Fin 6144) : s.cell j.val = s.charBuffer j := by
  have hj := j.isLt
  rw [cell, dif_pos (by omega)]
  rfl

/-- The cells are all there is to the buffer. -/
theorem sameText_of_cell (hpos : s'.pos = s.pos) (hcell : ∀ i, s'.cell i = s.cell i) :
    s.SameText s' := by
  refine ⟨hpos, funext fun j => ?_⟩
  rw [← cell_val, ← cell_val]
  exact hcell j.val

theorem packed_resetBuffer (s : Screen) : s.resetBuffer.Packed where
  inRange := resetBuffer_inRange
  blank i _ := by
    unfold cell
    split <;> rfl
  first h := absurd rfl h

/-! ## What a key does -/

/-- A key that moves the cursor on is stored in the cell where the cursor was. -/
theorem keyHandler_typed (h : s.InRange) (hk : TypedKey k) :
    ∃ s', s.keyHandler k = .ok s' ∧ s.pos < s'.pos ∧ s'.pos ≤ 6144 ∧
      (∀ i, s'.cell i = if i = s.pos then k else s.cell i) ∧
      (Printable k → s'.pos = s.pos + 1) := by
  obtain ⟨hlo, hhi⟩ := id h
  rcases hk with hk | rfl | rfl
  · obtain ⟨t, hrun, hpos, hcell⟩ := handleOthers_eq h hk
    exact ⟨t, (keyHandler_printable hk).trans hrun, by omega, by omega, hcell, fun _ => hpos⟩
  · obtain ⟨t, hrun, hpos, hcell⟩ := handleNewline_eq h
    exact ⟨t, hrun, by omega, by omega, hcell, fun hp => absurd hp (by decide)⟩
  · obtain ⟨t, hrun, hpos, hcell⟩ := handleTab_eq h
    exact ⟨t, hrun, by omega, by omega, hcell, fun hp => absurd hp (by decide)⟩

/-- Before the cursor a character is written. -/
theorem Packed.exists_lastWritten (h : s.Packed) (hpos : s.pos ≠ 0) : ∃ q, s.LastWritten q := by
  obtain ⟨hlo, hhi⟩ := h.inRange
  rcases skipZeros_cases (s := s) 6145 (by omega) (by omega) with ⟨q, hq, -⟩ | ⟨hall, -⟩
  · exact ⟨q, hq⟩
  · exact absurd (hall 0 le_rfl hlo) (h.first hpos)

theorem Packed.lastWritten_lt (h : s.Packed) (hq : s.LastWritten q) : q < s.pos := by
  refine lt_of_le_of_ne hq.le fun heq => hq.written ?_
  exact h.blank q heq.ge

/-- A backspace behind the cells that are written takes one character away and goes back to its
cell, or behind a character that it keeps. -/
theorem Packed.handleBackspace (h : s.Packed) :
    ∃ s', s.handleBackspace = .ok s' ∧ s'.Packed ∧ s'.pos ≤ s.pos ∧
      ∀ i, i < s'.pos → s'.cell i = s.cell i := by
  obtain ⟨hlo, hhi⟩ := h.inRange
  by_cases hzero : s.pos = 0
  · exact ⟨s, by rw [Screen.handleBackspace, if_pos hzero], h, le_rfl, fun _ _ => rfl⟩
  have hpos : 0 < s.pos := by omega
  by_cases hc : Printable (s.cell (s.pos - 1))
  · obtain ⟨t, hrun, ht, hcell⟩ := handleBackspace_printable ⟨hpos, hhi.le⟩ hc
    refine ⟨t, hrun, ⟨by rw [InRange, ht]; omega, fun i hi => ?_, fun hne => ?_⟩, by omega,
      fun i hi => ?_⟩
    · rw [hcell]
      split
      · rfl
      · exact h.blank i (by omega)
    · rw [hcell, if_neg (by omega)]
      exact h.first hzero
    · rw [hcell, if_neg (by omega)]
  -- the cursor goes back to the last cell that is written
  obtain ⟨q, hq⟩ := h.exists_lastWritten hzero
  have hlt := h.lastWritten_lt hq
  have hnonneg := hq.nonneg
  obtain ⟨t, hrun, ht⟩ := handleBackspace_skip ⟨hpos, hhi⟩ hc hq
  split at ht
  · obtain ⟨ht, hcell⟩ := ht
    refine ⟨t, hrun, ⟨by rw [InRange, ht]; omega, fun i hi => ?_, fun hne => ?_⟩, by omega,
      fun i hi => ?_⟩
    · rw [hcell]
      split
      · rfl
      · rcases le_or_gt i s.pos with hle | hgt
        · exact hq.blank i (by omega) hle
        · exact h.blank i hgt.le
    · rw [hcell, if_neg (by omega)]
      exact h.first hzero
    · rw [hcell, if_neg (by omega)]
  · obtain ⟨ht, hcell⟩ := ht
    refine ⟨t, hrun, ⟨by rw [InRange, ht]; omega, fun i hi => ?_, fun hne => ?_⟩, by omega,
      fun i hi => hcell i⟩
    · rw [hcell]
      rcases le_or_gt i s.pos with hle | hgt
      · exact hq.blank i (by omega) hle
      · exact h.blank i hgt.le
    · rw [hcell]
      exact h.first hzero

/-- A backspace behind a key finds its character. -/
theorem Packed.handleBackspace_typed (h : s.Packed) (hk : TypedKey k) (hin : s'.InRange)
    (hlt : s.pos < s'.pos) (hcell : ∀ i, s'.cell i = if i = s.pos then k else s.cell i)
    (hprint : Printable k → s'.pos = s.pos + 1) :
    ∃ s'', s'.handleBackspace = .ok s'' ∧ s''.pos = s.pos ∧
      ∀ i, s''.cell i = if i = s.pos then 0 else s'.cell i := by
  obtain ⟨hlo, -⟩ := h.inRange
  obtain ⟨-, hhi⟩ := hin
  by_cases hp : Printable k
  · have hpos := hprint hp
    have hprev : s'.pos - 1 = s.pos := by omega
    have hlast : Printable (s'.cell (s'.pos - 1)) := by
      rw [hprev, hcell, if_pos rfl]
      exact hp
    obtain ⟨t, hrun, ht, htcell⟩ := handleBackspace_printable (by omega) hlast
    rw [hprev] at ht htcell
    exact ⟨t, hrun, ht, htcell⟩
  · have hcontrol : k = 0x0A ∨ k = 0x09 := hk.resolve_left hp
    have hlast : ¬ Printable (s'.cell (s'.pos - 1)) := by
      rw [hcell]
      split
      · exact hp
      · rw [h.blank _ (by omega)]
        decide
    have hq : s'.LastWritten s.pos := by
      refine ⟨hlo, hlt.le, ?_, fun i hi _ => ?_⟩
      · rw [hcell, if_pos rfl]
        exact hk.ne_zero
      · rw [hcell, if_neg (by omega)]
        exact h.blank i hi.le
    obtain ⟨t, hrun, ht⟩ := handleBackspace_skip (by omega) hlast hq
    have hchar : s'.cell s.pos = k := by rw [hcell, if_pos rfl]
    rw [hchar, if_pos hcontrol] at ht
    exact ⟨t, hrun, ht⟩

/-- Every key keeps the buffer packed while the cursor is at a cell. -/
theorem Packed.keyHandler (h : s.Packed) (c : UInt8) :
    ∃ s', s.keyHandler c = .ok s' ∧ 0 ≤ s'.pos ∧ s'.pos ≤ 6144 ∧
      (∀ i, s'.pos ≤ i → s'.cell i = 0) ∧ (s'.pos ≠ 0 → s'.cell 0 ≠ 0) ∧
      ∀ i, i < s.pos → i < s'.pos → s'.cell i = s.cell i := by
  obtain ⟨hlo, hhi⟩ := h.inRange
  by_cases hk : TypedKey c
  · obtain ⟨t, hrun, hlt, hle, hcell, -⟩ := keyHandler_typed h.inRange hk
    refine ⟨t, hrun, by omega, hle, fun i hi => ?_, fun _ => ?_, fun i hi _ => ?_⟩
    · rw [hcell, if_neg (by omega)]
      exact h.blank i (by omega)
    · rw [hcell]
      split
      · exact hk.ne_zero
      · exact h.first (by omega)
    · rw [hcell, if_neg (by omega)]
  by_cases hback : c = 0x08
  · obtain ⟨t, hrun, ht, hle, hcell⟩ := h.handleBackspace
    subst hback
    exact ⟨t, hrun, ht.inRange.1, ht.inRange.2.le, ht.blank, ht.first, fun i _ hi => hcell i hi⟩
  · have hrun : s.keyHandler c = .ok s := by
      rw [TypedKey, not_or, not_or] at hk
      rw [Screen.keyHandler, if_neg hk.2.1, if_neg hk.2.2, if_neg hback, handleOthers, if_neg hk.1,
        ite_self]
    exact ⟨s, hrun, hlo, hhi.le, h.blank, h.first, fun _ _ _ => rfl⟩

/-! ## Runs -/

/-- A key after which the cursor is at a cell. -/
def KeyStep (c : UInt8) (s s' : Screen) : Prop := s.keyHandler c = .ok s' ∧ s'.InRange

theorem Packed.keyStep (h : s.Packed) (hstep : KeyStep c s s') : s'.Packed := by
  obtain ⟨hrun, hin⟩ := hstep
  obtain ⟨t, ht, -, -, hblank, hfirst, -⟩ := h.keyHandler c
  rw [ht] at hrun
  cases hrun
  exact ⟨hin, hblank, hfirst⟩

/-- After every run of keys a backspace takes back exactly what a further key has done, and does
nothing at the start of the buffer. -/
theorem backspace_undoes {s₀ : Screen}
    (hrun : Run KeyStep (fun c _ => TypedKey c ∨ c = 0x08) s₀.resetBuffer s) :
    (∀ k, TypedKey k → ∃ s', s.keyHandler k = .ok s' ∧
      (s'.InRange → ∃ s'', s'.handleBackspace = .ok s'' ∧ s.SameText s'')) ∧
    (s.pos = 0 → s.handleBackspace = .ok s) := by
  have h : s.Packed :=
    hrun.invariant (fun _ _ _ ht _ hstep => ht.keyStep hstep) (packed_resetBuffer s₀)
  refine ⟨fun k hk => ?_, fun hzero => by rw [Screen.handleBackspace, if_pos hzero]⟩
  obtain ⟨s', hkey, hlt, -, hcell, hprint⟩ := keyHandler_typed h.inRange hk
  refine ⟨s', hkey, fun hin => ?_⟩
  obtain ⟨s'', hback, hpos, hcell'⟩ := h.handleBackspace_typed hk hin hlt hcell hprint
  refine ⟨s'', hback, sameText_of_cell hpos fun i => ?_⟩
  rw [hcell', hcell]
  split
  · next heq => rw [heq, h.blank _ le_rfl]
  · rfl

/-- A tab behind a letter is taken back. -/
theorem backspace_undoes_tab : ∃ s s' s'', Screen.initial.keyHandler 0x41 = .ok s ∧
    s.keyHandler 0x09 = .ok s' ∧ s'.pos = 4 ∧ s'.handleBackspace = .ok s'' ∧ s.SameText s'' := by
  obtain ⟨s, hkey, hpos, -⟩ :=
    handleOthers_eq (s := Screen.initial) (c := 0x41) (by decide) (by decide)
  have hin : s.InRange := by
    rw [InRange, hpos]
    decide
  have hstep : KeyStep 0x41 (Screen.initial).resetBuffer s := ⟨hkey, hin⟩
  obtain ⟨s', htab, hpos', -⟩ := handleTab_eq hin
  have hin' : s'.InRange := by
    rw [InRange, hpos', hpos]
    decide
  have htyped : TypedKey 0x41 := .inl (by decide)
  obtain ⟨t, ht, hback⟩ := (backspace_undoes (.single (.inl htyped) hstep)).1 0x09 (.inr (.inr rfl))
  have heq : s' = t := Except.ok.inj (htab.symm.trans ht)
  obtain ⟨s'', hrun, hsame⟩ := hback (heq ▸ hin')
  exact ⟨s, s', s'', hkey, htab, by rw [hpos', hpos]; rfl, heq ▸ hrun, hsame⟩

end Screen

end OsKernel
