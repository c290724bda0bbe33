import Mathlib.Tactic.Linarith
import OsKernel.Lib.Loop
import OsKernel.Lib.Run
import OsKernel.Screen.Charframe

/-!
# The bounds of the screen

Nothing checks `pos`, so what keeps it and the accesses to `charBuffer` in bounds is where a
character is printed or an arrow key pressed (`Screen.CharFits`, `ScreenAction.Fits`). Drawing only
ever faults outside of the screen, and leaves the text alone (`drawCharAt_sameText`), so a key is
handled without a fault, and its cells are drawn, exactly when the handler completes
(`bufferedDraw_cases`). The long loop of `handle_backspace` stops at the last written cell
(`skipZeros_cases`).
-/

namespace OsKernel

open Lib

namespace Screen

/-! ## Cells -/

/-- The cursor is at a cell. -/
def InRange (s : Screen) : Prop := 0 ≤ s.pos ∧ s.pos < 6144

instance (s : Screen) : Decidable s.InRange := inferInstanceAs (Decidable (_ ∧ _))

/-- The cursor and the cells are the same. -/
structure SameText (s s' : Screen) : Prop where
  pos : s'.pos = s.pos
  charBuffer : s'.charBuffer = s.charBuffer

variable {s s' s'' : Screen} {i j q : Int} {c : UInt8}

theorem SameText.refl (s : Screen) : SameText s s := ⟨rfl, rfl⟩

theorem SameText.trans (h : SameText s s') (h' : SameText s' s'') : SameText s s'' :=
  ⟨h'.pos.trans h.pos, h'.charBuffer.trans h.charBuffer⟩

theorem SameText.cell (h : SameText s s') (i : Int) : s'.cell i = s.cell i := by
  unfold Screen.cell
  rw [h.charBuffer]

theorem charAt_eq (h : 0 ≤ i ∧ i < 6144) : s.charAt i = .ok (s.cell i) := by
  rw [charAt, cell, dif_pos h, dif_pos h]

theorem charAt_error (h : ¬ (0 ≤ i ∧ i < 6144)) : s.charAt i = .error (.charBufferIndex i) :=
  dif_neg h

/-- An assignment to a cell. -/
theorem setChar_eq (h : 0 ≤ i ∧ i < 6144) :
    ∃ s', s.setChar i c = .ok s' ∧ s'.pos = s.pos ∧
      ∀ j, s'.cell j = if j = i then c else s.cell j := by
  refine ⟨_, dif_pos h, rfl, fun j => ?_⟩
  unfold cell
  dsimp only
  by_cases hj : 0 ≤ j ∧ j < 6144
  · rw [dif_pos hj, dif_pos hj, Function.update_apply]
    have hiff : (⟨j.toNat, by omega⟩ : Fin 6144) = ⟨i.toNat, by omega⟩ ↔ j = i := by
      rw [Fin.mk.injEq]
      omega
    simp only [hiff]
  · have hne : j ≠ i := fun he => hj (he ▸ h)
    rw [dif_neg hj, dif_neg hj, if_neg hne]

end Screen

/-! ## Drawing -/

section Drawing
variable {s s' : Screen} {row column : Int} {color : Nat → Nat → Color16} {c : UInt8}

theorem drawPixelAt_sameText {p : Color16} (hrow : 0 ≤ row ∧ row < 768)
    (hcol : 0 ≤ column ∧ column < 1024) :
    ∃ s', drawPixelAt row column p s = .ok s' ∧ s.SameText s' :=
  ⟨_, dif_pos ⟨hrow.1, hrow.2, hcol⟩, rfl, rfl⟩

/-- All pixels of a cell of the screen are on the screen. -/
theorem drawCell_sameText (hrow : 0 ≤ row ∧ row < 48) (hcol : 0 ≤ column ∧ column < 128) :
    ∃ s', drawCell color row column s = .ok s' ∧ s.SameText s' := by
  refine foldlM_ok (P := s.SameText) (fun y hy t ht => ?_) (Screen.SameText.refl s)
  refine foldlM_ok (P := s.SameText) (fun x hx u hu => ?_) ht
  have hy := List.mem_range.1 hy
  have hx := List.mem_range.1 hx
  have hpixel : ∃ u', drawPixelAt (row * 16 + y) (column * 8 + 7 - x) (color y x) u = .ok u' ∧
      u.SameText u' := drawPixelAt_sameText (by omega) (by omega)
  obtain ⟨u', hrun, hsame⟩ := hpixel
  exact ⟨u', hrun, hu.trans hsame⟩

theorem drawCharAt_sameText (font : Nat → UInt8) (fg bg : Color16) (hrow : 0 ≤ row ∧ row < 48)
    (hcol : 0 ≤ column ∧ column < 128) :
    ∃ s', drawCharAt font c row column fg bg s = .ok s' ∧ s.SameText s' := by
  unfold drawCharAt
  split
  · exact drawCell_sameText hrow hcol
  · exact drawCell_sameText hrow hcol

/-- The row and the column of a cell. -/
theorem tdiv_tmod_cell {i : Int} (h : 0 ≤ i ∧ i < 6144) :
    (0 ≤ i.tdiv 128 ∧ i.tdiv 128 < 48) ∧ 0 ≤ i.tmod 128 ∧ i.tmod 128 < 128 := by
  rw [Int.tdiv_eq_ediv_of_nonneg h.1, Int.tmod_eq_emod_of_nonneg h.1]
  omega

/-- A character drawn at a cell. -/
theorem drawCharAt_cell (font : Nat → UInt8) (fg bg : Color16) {i : Int} (h : 0 ≤ i ∧ i < 6144) :
    ∃ s', drawCharAt font c (i.tdiv 128) (i.tmod 128) fg bg s = .ok s' ∧ s.SameText s' :=
  drawCharAt_sameText font fg bg (tdiv_tmod_cell h).1 (tdiv_tmod_cell h).2

end Drawing

namespace Screen
variable {s s' s'' : Screen} {i j q : Int} {c : UInt8} {font : Nat → UInt8}

/-- The rule for the loop of `buffered_draw`: what each drawn cell carries on holds at the
cursor. -/
theorem drawBack_rule (font : Nat → UInt8) (fg bg : Color16) {t : Screen} {P : Int → Screen → Prop}
    (hpos : 0 ≤ s.pos ∧ s.pos ≤ 6144)
    (hdraw : ∀ i t, 0 ≤ i ∧ i < 6144 → i ≠ s.pos → s.SameText t → P i t →
      ∃ u, drawCharAt font (s.cell i) (i.tdiv 128) (i.tmod 128) fg bg t = .ok u ∧ t.SameText u ∧
        P (i + if s.pos > i then 1 else -1) u)
    {steps : Nat} (ht : s.SameText t) (hi : (0 ≤ i ∧ i < 6144) ∨ i = s.pos)
    (hsteps : (s.pos - i).natAbs < steps) (hP : P i t) :
    ∃ s', drawBack font fg bg steps i t = .ok s' ∧ s.SameText s' ∧ P s.pos s' := by
  induction steps generalizing t i with
  | zero => exact absurd hsteps (Nat.not_lt_zero _)
  | succ steps ih =>
    unfold drawBack
    rw [ht.pos]
    split
    · next hne =>
      have hcell := hi.resolve_right (Ne.symm hne)
      obtain ⟨u, hrun, hu, hnext⟩ := hdraw i t hcell (Ne.symm hne) ht hP
      obtain ⟨s', hrest, hs'⟩ := ih (ht.trans hu) (by split <;> omega) (by split <;> omega) hnext
      refine ⟨s', ?_, hs'⟩
      rw [charAt_eq hcell, ht.cell]
      simp only [ok_bind, hrun, (ht.trans hu).pos]
      exact hrest
    · next heq =>
      obtain rfl : s.pos = i := not_not.1 heq
      exact ⟨t, rfl, ht, hP⟩

/-- What is between two cursors of the screen is drawn. -/
theorem drawBack_sameText (font : Nat → UInt8) (fg bg : Color16) (hpos : 0 ≤ s.pos ∧ s.pos ≤ 6144)
    (hi : (0 ≤ i ∧ i < 6144) ∨ i = s.pos) {steps : Nat} (hsteps : (s.pos - i).natAbs < steps) :
    ∃ s', drawBack font fg bg steps i s = .ok s' ∧ s.SameText s' := by
  have hdraws : ∀ i t, 0 ≤ i ∧ i < 6144 → ∃ u,
      drawCharAt font (s.cell i) (i.tdiv 128) (i.tmod 128) fg bg t = .ok u ∧
          t.SameText u ∧ True := by
    intro i t hcell
    obtain ⟨u, hdraw, hu⟩ := drawCharAt_cell (s := t) (c := s.cell i) font fg bg hcell
    exact ⟨u, hdraw, hu, trivial⟩
  obtain ⟨s', hrun, hs', -⟩ := drawBack_rule font fg bg (P := fun _ _ => True) hpos
    (fun i t hcell _ _ _ => hdraws i t hcell) (.refl s) hi hsteps trivial
  exact ⟨s', hrun, hs'⟩

/-! ## The loop of `handle_backspace` -/

/-- `q` is the last cell up to the cursor that holds a character. -/
structure LastWritten (s : Screen) (q : Int) : Prop where
  nonneg : 0 ≤ q
  le : q ≤ s.pos
  written : s.cell q ≠ 0
  blank : ∀ i, q < i → i ≤ s.pos → s.cell i = 0

theorem LastWritten.unique {q' : Int} (h : s.LastWritten q) (h' : s.LastWritten q') : q = q' := by
  rcases lt_trichotomy q q' with hlt | heq | hgt
  · exact absurd (h.blank q' hlt h'.le) h'.written
  · exact heq
  · exact absurd (h'.blank q hgt h.le) h.written

/-- The loop stops at the last written cell, or in front of the first one. -/
theorem skipZeros_cases (steps : Nat) (hpos : -1 ≤ s.pos ∧ s.pos < 6144)
    (hsteps : s.pos + 1 < steps) :
    (∃ q, s.LastWritten q ∧ skipZeros steps s = .ok { s with pos := q }) ∨
      ((∀ i, 0 ≤ i → i ≤ s.pos → s.cell i = 0) ∧
        skipZeros steps s = .error (.charBufferIndex (-1))) := by
  induction steps generalizing s with
  | zero => omega
  | succ steps ih =>
    unfold skipZeros
    rcases hpos.1.eq_or_lt with hneg | hnonneg
    · refine .inr ⟨fun i hi hle => by omega, ?_⟩
      rw [charAt_error (by omega), ← hneg]
      rfl
    · rw [charAt_eq (by omega)]
      simp only [ok_bind, pure_eq_ok]
      split
      · next hzero =>
        have hstep : ∀ i, i ≤ s.pos → i ≤ s.pos - 1 ∨ i = s.pos := fun i hi => by omega
        rcases ih (s := { s with pos := s.pos - 1 }) (by dsimp only; omega)
            (by dsimp only; omega) with
          ⟨q, hq, hrun⟩ | ⟨hall, hrun⟩
        · refine .inl ⟨q, ⟨hq.nonneg, ?_, hq.written, fun i hi hle => ?_⟩, hrun⟩
          · have hle := hq.le
            dsimp only at hle
            omega
          · rcases hstep i hle with hlt | rfl
            · exact hq.blank i hi hlt
            · exact hzero
        · refine .inr ⟨fun i hi hle => ?_, hrun⟩
          rcases hstep i hle with hlt | rfl
          · exact hall i hi hlt
          · exact hzero
      · next hne => exact .inl ⟨s.pos, ⟨by omega, le_refl _, hne, fun i hi hle => by omega⟩, rfl⟩

/-! ## The handlers -/

theorem handleNewline_eq (h : s.InRange) :
    ∃ s', s.handleNewline = .ok s' ∧ s'.pos = (s.pos / 128 + 1) * 128 ∧
      ∀ j, s'.cell j = if j = s.pos then 0x0A else s.cell j := by
  obtain ⟨t, hset, hpos, hcell⟩ := setChar_eq (s := s) (c := 0x0A) h
  refine ⟨{ t with pos := nextRowIndex t.pos }, ?_, ?_, hcell⟩
  · rw [handleNewline, hset]
    rfl
  · rw [nextRowIndex, hpos, Int.tdiv_eq_ediv_of_nonneg h.1]

theorem handleTab_eq (h : s.InRange) :
    ∃ s', s.handleTab = .ok s' ∧ s'.pos = (s.pos / 4 + 1) * 4 ∧
      ∀ j, s'.cell j = if j = s.pos then 0x09 else s.cell j := by
  obtain ⟨t, hset, hpos, hcell⟩ := setChar_eq (s := s) (c := 0x09) h
  refine ⟨{ t with pos := nextTabIndex t.pos }, ?_, ?_, hcell⟩
  · rw [handleTab, hset]
    rfl
  · rw [nextTabIndex, hpos, Int.tdiv_eq_ediv_of_nonneg h.1]

theorem handleOthers_eq (h : s.InRange) (hc : Printable c) :
    ∃ s', s.handleOthers c = .ok s' ∧ s'.pos = s.pos + 1 ∧
      ∀ j, s'.cell j = if j = s.pos then c else s.cell j := by
  obtain ⟨t, hset, hpos, hcell⟩ := setChar_eq (s := s) (c := c) h
  refine ⟨{ t with pos := t.pos + 1 }, ?_, by rw [hpos], hcell⟩
  rw [handleOthers, if_pos hc, hset]
  rfl

theorem handleBackspace_printable (hpos : 0 < s.pos ∧ s.pos ≤ 6144)
    (hc : Printable (s.cell (s.pos - 1))) :
    ∃ s', s.handleBackspace = .ok s' ∧ s'.pos = s.pos - 1 ∧
      ∀ j, s'.cell j = if j = s.pos - 1 then 0 else s.cell j := by
  have hi : 0 ≤ s.pos - 1 ∧ s.pos - 1 < 6144 := by omega
  obtain ⟨t, hset, ht, hcell⟩ := setChar_eq (s := s) (c := 0) hi
  refine ⟨{ t with pos := t.pos - 1 }, ?_, by rw [ht], hcell⟩
  rw [handleBackspace, if_neg (by omega), charAt_eq hi]
  simp only [ok_bind, if_pos hc, hset, pure_eq_ok]

/-- Behind anything else the cursor goes back over the cells that hold nothing. -/
theorem handleBackspace_skip (hpos : 0 < s.pos ∧ s.pos < 6144)
    (hc : ¬ Printable (s.cell (s.pos - 1))) (hq : s.LastWritten q) :
    ∃ s', s.handleBackspace = .ok s' ∧
      if s.cell q = 0x0A ∨ s.cell q = 0x09 then
        s'.pos = q ∧ ∀ j, s'.cell j = if j = q then 0 else s.cell j
      else s'.pos = q + 1 ∧ ∀ j, s'.cell j = s.cell j := by
  have hrange : 0 ≤ q ∧ q < 6144 := ⟨hq.nonneg, by linarith [hq.le]⟩
  have hskip : skipZeros 6145 s = .ok { s with pos := q } := by
    rcases skipZeros_cases (s := s) 6145 (by omega) (by omega) with
      ⟨q', hq', hrun⟩ | ⟨hall, -⟩
    · rw [hrun, hq'.unique hq]
    · exact absurd (hall q hq.nonneg hq.le) hq.written
  rw [handleBackspace, if_neg (by omega), charAt_eq (by omega), ok_bind, if_neg hc, hskip, ok_bind]
  dsimp only
  rw [charAt_eq hrange, ok_bind]
  change ∃ s', (if s.cell q ≠ 0x0A ∧ s.cell q ≠ 0x09 then _ else _) = _ ∧ _
  by_cases hstop : s.cell q = 0x0A ∨ s.cell q = 0x09
  · obtain ⟨t, hset, ht, hcell⟩ := setChar_eq (s := { s with pos := q }) (c := 0) hrange
    refine ⟨t, ?_, ?_⟩
    · rw [if_neg (by tauto), hset]
    · rw [if_pos hstop]
      exact ⟨ht, hcell⟩
  · refine ⟨{ s with pos := q + 1 }, ?_, ?_⟩
    · rw [if_pos (by tauto)]
      rfl
    · rw [if_neg hstop]
      exact ⟨rfl, fun j => rfl⟩

/-- There is nothing to go back to. -/
theorem handleBackspace_blank (hpos : 0 < s.pos ∧ s.pos < 6144)
    (hall : ∀ i, 0 ≤ i → i ≤ s.pos → s.cell i = 0) :
    s.handleBackspace = .error (.charBufferIndex (-1)) := by
  have hc : ¬ Printable (s.cell (s.pos - 1)) := by
    rw [hall _ (by omega) (by omega)]
    decide
  rcases skipZeros_cases (s := s) 6145 (by omega) (by omega) with
    ⟨q, hq, -⟩ | ⟨-, hrun⟩
  · exact absurd (hall q hq.nonneg hq.le) hq.written
  · rw [handleBackspace, if_neg (by omega), charAt_eq (by omega), ok_bind, if_neg hc, hrun]
    rfl

/-! ## Where a character fits -/

/-- A backspace finds a character to take away, and does not go behind the last cell. -/
def BackspaceFits (s : Screen) : Prop :=
  s.pos = 0 ∨ Printable (s.cell (s.pos - 1)) ∨
    (∃ i, 0 ≤ i ∧ i ≤ s.pos ∧ s.cell i ≠ 0) ∧
      (s.pos = 6143 → s.cell 6143 = 0 ∨ s.cell 6143 = 0x0A ∨ s.cell 6143 = 0x09)

/-- The cursor stays at a cell when the character is printed. -/
def CharFits (s : Screen) (c : UInt8) : Prop :=
  if c = 0x0A then s.pos < 6016
  else if c = 0x09 then s.pos < 6140
  else if c = 0x08 then s.BackspaceFits
  else Printable c → s.pos < 6143

/-- A handler that completes leaves the cursor at a cell, or behind the last one if the character
does not fit. It fails only for a character that does not fit. -/
def Lands (fits : Prop) : Except Fault Screen → Prop
  | .ok s => 0 ≤ s.pos ∧ s.pos ≤ 6144 ∧ (s.pos < 6144 ↔ fits)
  | .error _ => ¬ fits

theorem handleBackspace_lands (h : s.InRange) : Lands s.BackspaceFits s.handleBackspace := by
  obtain ⟨hlo, hhi⟩ := h
  unfold BackspaceFits
  rcases hlo.eq_or_lt with hzero | hpos
  · rw [handleBackspace, if_pos hzero.symm]
    exact ⟨hlo, hhi.le, iff_of_true hhi (.inl hzero.symm)⟩
  by_cases hc : Printable (s.cell (s.pos - 1))
  · obtain ⟨t, hrun, ht, -⟩ := handleBackspace_printable ⟨hpos, hhi.le⟩ hc
    rw [hrun]
    exact ⟨by omega, by omega, iff_of_true (by omega) (.inr (.inl hc))⟩
  rw [or_iff_right hpos.ne', or_iff_right hc]
  -- the loop: where it stops decides
  rcases skipZeros_cases (s := s) 6145 (by omega) (by omega) with
    ⟨q, hq, -⟩ | ⟨hall, -⟩
  · have hle := hq.le
    have hnonneg := hq.nonneg
    rw [and_iff_right ⟨q, hnonneg, hle, hq.written⟩]
    obtain ⟨t, hrun, ht⟩ := handleBackspace_skip ⟨hpos, hhi⟩ hc hq
    rw [hrun]
    split at ht
    · next hstop =>
      refine ⟨by omega, by omega, iff_of_true (by omega) fun hlast => ?_⟩
      rcases hle.eq_or_lt with heq | hlt
      · rw [← hlast, ← heq]
        exact .inr hstop
      · exact .inl (hlast ▸ hq.blank s.pos hlt le_rfl)
    · next hstop =>
      refine ⟨by omega, by omega, ?_, ?_⟩
      · intro hin hlast
        exact .inl (hlast ▸ hq.blank s.pos (by omega) le_rfl)
      · intro hlast
        refine lt_of_le_of_ne (by omega) fun heq => ?_
        have hend : s.pos = 6143 := by omega
        have hcell : s.cell 6143 = s.cell q := congrArg _ (by omega)
        rw [hcell] at hlast
        rcases hlast hend with hzero | hchar
        · exact hq.written hzero
        · exact hstop hchar
  · rw [handleBackspace_blank ⟨hpos, hhi⟩ hall]
    exact fun ⟨⟨i, hi, hle, hne⟩, _⟩ => hne (hall i hi hle)

theorem keyHandler_lands (h : s.InRange) : Lands (s.CharFits c) (s.keyHandler c) := by
  obtain ⟨hlo, hhi⟩ := id h
  unfold keyHandler CharFits
  by_cases hzero : c = 0
  · subst hzero
    rw [if_pos rfl]
    exact ⟨hlo, hhi.le, iff_of_true hhi fun hc => absurd hc (by decide)⟩
  rw [if_neg hzero]
  split
  · obtain ⟨t, hrun, ht, -⟩ := handleNewline_eq h
    rw [hrun]
    exact ⟨by omega, by omega, by omega⟩
  split
  · obtain ⟨t, hrun, ht, -⟩ := handleTab_eq h
    rw [hrun]
    exact ⟨by omega, by omega, by omega⟩
  split
  · exact handleBackspace_lands h
  · by_cases hc : Printable c
    · obtain ⟨t, hrun, ht, -⟩ := handleOthers_eq h hc
      rw [hrun]
      simp only [hc, true_imp_iff]
      exact ⟨by omega, by omega, by omega⟩
    · rw [handleOthers, if_neg hc]
      exact ⟨hlo, hhi.le, iff_of_true hhi fun hc' => absurd hc' hc⟩

/-- `buffered_draw` does what the handler does, and draws it. -/
theorem bufferedDraw_cases (font : Nat → UInt8) (fg bg : Color16) (h : s.InRange) :
    (∃ t s', s.keyHandler c = .ok t ∧ s.bufferedDraw font c fg bg = .ok s' ∧ t.SameText s') ∨
      ∃ e, s.keyHandler c = .error e ∧ s.bufferedDraw font c fg bg = .error e := by
  have hlands := keyHandler_lands (c := c) h
  cases hkey : s.keyHandler c with
  | error e =>
    refine .inr ⟨e, rfl, ?_⟩
    rw [bufferedDraw, hkey]
    rfl
  | ok t =>
    rw [hkey] at hlands
    have hsteps : (t.pos - s.pos).natAbs < 6145 := by
      obtain ⟨hlo, hhi⟩ := h
      obtain ⟨hlow, hhigh, -⟩ := hlands
      omega
    obtain ⟨s', hrun, hs'⟩ := drawBack_sameText (s := t) font fg bg
      ⟨hlands.1, hlands.2.1⟩ (.inl h) hsteps
    refine .inl ⟨t, s', rfl, ?_, hs'⟩
    rw [bufferedDraw, hkey]
    exact hrun

theorem keyHandler_printable (hc : Printable c) : s.keyHandler c = s.handleOthers c := by
  have hne : ∀ d : UInt8, ¬ Printable d → c ≠ d := fun d hd heq => hd (heq ▸ hc)
  rw [keyHandler, if_neg (hne 0 (by decide)), if_neg (hne 0x0A (by decide)),
    if_neg (hne 0x09 (by decide)), if_neg (hne 0x08 (by decide))]

/-- `putchar` changes the text as the handler does. -/
theorem putchar_ok {t : Screen} (font : Nat → UInt8) (color : UInt16) (h : s.InRange)
    (hkey : s.keyHandler c = .ok t) :
    ∃ s', s.putchar font c color = .ok s' ∧ t.SameText s' := by
  rcases bufferedDraw_cases (c := c) font (intToColor color) black h with
    ⟨t', s', hkey', hrun, hs'⟩ | ⟨e, hkey', -⟩
  · rw [hkey] at hkey'
    cases hkey'
    exact ⟨s', hrun, hs'⟩
  · rw [hkey] at hkey'
    cases hkey'

/-- Behind the last cell there is no room. -/
theorem putchar_end {color : UInt16} (h : s.pos = 6144) (hc : Printable c) :
    s.putchar font c color = .error (.charBufferIndex 6144) := by
  have hset : s.setChar s.pos c = .error (.charBufferIndex 6144) := by
    rw [h]
    exact dif_neg (by omega)
  rw [putchar, bufferedDraw, keyHandler_printable hc, handleOthers, if_pos hc, hset]
  rfl

/-- From there a backspace is drawn outside of the buffer. -/
theorem putchar_backspace_end {color : UInt16} (h : s.pos = 6144) (hc : Printable (s.cell 6143)) :
    s.putchar font 0x08 color = .error (.charBufferIndex 6144) := by
  have hprev : s.cell (s.pos - 1) = s.cell 6143 := congrArg _ (by omega)
  obtain ⟨t, hrun, ht, -⟩ := handleBackspace_printable (by omega) (hprev ▸ hc)
  have hkey : s.keyHandler 0x08 = .ok t := hrun
  rw [putchar, bufferedDraw, hkey, ok_bind, drawBack, if_pos (by omega), h, charAt_error (by omega)]
  rfl

/-- A character that is zero is not printed. -/
theorem putchar_zero {color : UInt16} : s.putchar font 0 color = .ok s := by
  have hkey : s.keyHandler 0 = .ok s := rfl
  rw [putchar, bufferedDraw, hkey, ok_bind, drawBack, if_neg (not_not.2 rfl)]

/-- A function of the screen completes, with the cursor at a cell. -/
def Stays (run : Except Fault Screen) : Prop := ∃ s', run = .ok s' ∧ s'.InRange

/-- A character is printed in bounds exactly when it fits. -/
theorem putchar_stays_iff {color : UInt16} (h : s.InRange) :
    Stays (s.putchar font c color) ↔ s.CharFits c := by
  have hlands := keyHandler_lands (c := c) h
  rcases bufferedDraw_cases (c := c) font (intToColor color) black h with
    ⟨t, s', hkey, hrun, hs'⟩ | ⟨e, hkey, hrun⟩ <;> rw [hkey] at hlands <;> rw [putchar, hrun]
  · refine Iff.trans ⟨?_, ?_⟩ hlands.2.2
    · rintro ⟨u, heq, hu⟩
      cases heq
      exact hs'.pos ▸ hu.2
    · intro hpos
      exact ⟨s', rfl, by rw [InRange, hs'.pos]; exact ⟨hlands.1, hpos⟩⟩
  · exact iff_of_false (fun ⟨_, heq, _⟩ => nomatch heq) hlands

theorem resetBuffer_inRange : s.resetBuffer.InRange :=
  ⟨le_rfl, (by decide : (0 : Int) < 6144)⟩

/-! ## Arrow keys -/

/-- The cursor moves to `q`, and the character there is copied to `p`, where it is drawn. -/
theorem copyCell_eq {p : Int} (font : Nat → UInt8) (hq : 0 ≤ q ∧ q < 6144) (hp : 0 ≤ p ∧ p < 6144)
    (f : Screen → Int)
    (hf : ∀ t : Screen, t.pos = q → f t = p) :
    ∃ s', (do
        let temp ← ({ s with pos := q } : Screen).charAt q
        let t ← ({ s with pos := q } : Screen).setChar p temp
        drawCharAt font temp ((f t).tdiv 128) ((f t).tmod 128) white black t) = .ok s' ∧
      s'.pos = q ∧ ∀ j, s'.cell j = if j = p then s.cell q else s.cell j := by
  rw [charAt_eq hq, ok_bind]
  obtain ⟨t, hset, ht, hcell⟩ := setChar_eq (s := { s with pos := q })
    (c := ({ s with pos := q } : Screen).cell q) hp
  rw [hset, ok_bind, hf t ht]
  obtain ⟨s', hdraw, hs'⟩ := drawCharAt_cell (s := t)
    (c := ({ s with pos := q } : Screen).cell q) font white black hp
  exact ⟨s', hdraw, hs'.pos.trans ht, fun j => (hs'.cell j).trans (hcell j)⟩

/-- A slash stops the cursor. -/
theorem handleLeftArrow_slash (h : 2 ≤ s.pos ∧ s.pos ≤ 6144) (hc : s.cell (s.pos - 2) = 0x2F) :
    s.handleLeftArrow font = .ok s := by
  rw [handleLeftArrow, charAt_eq (by omega), ok_bind, if_neg (not_not.2 hc)]
  rfl

theorem handleLeftArrow_moves (font : Nat → UInt8) (h : 2 ≤ s.pos ∧ s.pos < 6144)
    (hc : s.cell (s.pos - 2) ≠ 0x2F) :
    ∃ s', s.handleLeftArrow font = .ok s' ∧ s'.pos = s.pos - 1 ∧
      ∀ j, s'.cell j = if j = s.pos then s.cell (s.pos - 1) else s.cell j := by
  obtain ⟨s', hrun, hpos, hcell⟩ := copyCell_eq (s := s) (q := s.pos - 1)
    (p := s.pos - 1 + 1) font (by omega) (by omega) (fun t => t.pos + 1) (by intro t ht; rw [ht])
  rw [Int.sub_add_cancel] at hcell
  refine ⟨s', ?_, hpos, hcell⟩
  rw [handleLeftArrow, charAt_eq (by omega), ok_bind, if_pos hc]
  exact hrun

/-- An empty cell stops the cursor. -/
theorem handleRightArrow_zero (h : 0 ≤ s.pos ∧ s.pos < 6143) (hc : s.cell (s.pos + 1) = 0) :
    s.handleRightArrow font = .ok s := by
  rw [handleRightArrow, charAt_eq (by omega), ok_bind, if_neg (not_not.2 hc)]
  rfl

theorem handleRightArrow_moves (font : Nat → UInt8) (h : 0 ≤ s.pos ∧ s.pos < 6143)
    (hc : s.cell (s.pos + 1) ≠ 0) :
    ∃ s', s.handleRightArrow font = .ok s' ∧ s'.pos = s.pos + 1 ∧
      ∀ j, s'.cell j = if j = s.pos then s.cell (s.pos + 1) else s.cell j := by
  obtain ⟨s', hrun, hpos, hcell⟩ := copyCell_eq (s := s) (q := s.pos + 1)
    (p := s.pos + 1 - 1) font (by omega) (by omega) (fun t => t.pos - 1) (by intro t ht; rw [ht])
  rw [Int.add_sub_cancel] at hcell
  refine ⟨s', ?_, hpos, hcell⟩
  rw [handleRightArrow, charAt_eq (by omega), ok_bind, if_pos hc]
  exact hrun

theorem handleLeftArrow_error (h : s.pos < 2) :
    s.handleLeftArrow font = .error (.charBufferIndex (s.pos - 2)) := by
  rw [handleLeftArrow, charAt_error (by omega)]
  rfl

/-- Behind the last cell there is nothing to copy to. -/
theorem handleLeftArrow_end (h : s.pos = 6144) (hc : s.cell (s.pos - 2) ≠ 0x2F) :
    s.handleLeftArrow font = .error (.charBufferIndex 6144) := by
  have hset : ∀ t : Screen, ∀ d, t.setChar (s.pos - 1 + 1) d = .error (.charBufferIndex 6144) := by
    intro t d
    rw [Int.sub_add_cancel, h]
    exact dif_neg (by omega)
  rw [handleLeftArrow, charAt_eq (by omega), ok_bind, if_pos hc]
  dsimp only
  rw [charAt_eq (by omega), ok_bind, hset]
  rfl

theorem handleRightArrow_error (h : 6143 ≤ s.pos) :
    s.handleRightArrow font = .error (.charBufferIndex (s.pos + 1)) := by
  rw [handleRightArrow, charAt_error (by omega)]
  rfl

theorem handleLeftArrow_stays_iff (h : s.InRange) : Stays (s.handleLeftArrow font) ↔ 2 ≤ s.pos := by
  obtain ⟨hlo, hhi⟩ := id h
  rcases lt_or_ge s.pos 2 with hlt | hge
  · rw [handleLeftArrow_error hlt]
    exact iff_of_false (fun ⟨_, heq, _⟩ => nomatch heq) (by omega)
  refine iff_of_true ?_ hge
  by_cases hc : s.cell (s.pos - 2) = 0x2F
  · exact ⟨s, handleLeftArrow_slash ⟨hge, hhi.le⟩ hc, h⟩
  · obtain ⟨s', hrun, hpos, -⟩ := handleLeftArrow_moves font ⟨hge, hhi⟩ hc
    exact ⟨s', hrun, by rw [InRange, hpos]; omega⟩

theorem handleRightArrow_stays_iff (h : s.InRange) :
    Stays (s.handleRightArrow font) ↔ s.pos < 6143 := by
  obtain ⟨hlo, hhi⟩ := id h
  rcases lt_or_ge s.pos 6143 with hlt | hge
  · refine iff_of_true ?_ hlt
    by_cases hc : s.cell (s.pos + 1) = 0
    · exact ⟨s, handleRightArrow_zero ⟨hlo, hlt⟩ hc, h⟩
    · obtain ⟨s', hrun, hpos, -⟩ := handleRightArrow_moves font ⟨hlo, hlt⟩ hc
      exact ⟨s', hrun, by rw [InRange, hpos]; omega⟩
  · rw [handleRightArrow_error hge]
    exact iff_of_false (fun ⟨_, heq, _⟩ => nomatch heq) (by omega)

/-! ## `puts` -/

theorem puts_zero {buffer : Nat → UInt8} {color : UInt16} :
    s.puts font buffer (0 : Nat) color = .ok s := rfl

theorem puts_succ {buffer : Nat → UInt8} {color : UInt16} (n : Nat) :
    s.puts font buffer (n + 1 : Nat) color =
      s.puts font buffer n color >>= fun t => t.putchar font (buffer n) color := by
  simp only [puts, Int.toNat_natCast, List.range_succ, List.foldlM_append, List.foldlM_cons,
    List.foldlM_nil, bind_pure]

/-- All characters are printed in bounds exactly when each one fits behind the ones before it. -/
theorem puts_stays_iff {buffer : Nat → UInt8} {color : UInt16} (h : s.InRange) (count : Nat) :
    (∀ n : Nat, n ≤ count → Stays (s.puts font buffer n color)) ↔
      ∀ n : Nat, n < count → ∀ s', s.puts font buffer n color = .ok s' →
          s'.CharFits (buffer n) := by
  constructor
  · intro hall n hn s' hrun
    obtain ⟨t, ht, hin⟩ := hall n hn.le
    rw [hrun] at ht
    cases ht
    obtain ⟨u, hu, hrange⟩ := hall (n + 1) hn
    rw [puts_succ, hrun, ok_bind] at hu
    exact (putchar_stays_iff hin).1 ⟨u, hu, hrange⟩
  · intro hfits n
    induction n with
    | zero => exact fun _ => ⟨s, puts_zero, h⟩
    | succ n ih =>
      intro hn
      obtain ⟨t, ht, hin⟩ := ih (by omega)
      rw [puts_succ, ht, ok_bind]
      exact (putchar_stays_iff hin).2 (hfits n hn t ht)

end Screen

/-! ## Actions -/

/-- What reaches the screen from the system calls and from `keyboard_isr`. -/
inductive ScreenAction
  | putchar (c : UInt8) (textColor : UInt16)
  | puts (buffer : Nat → UInt8) (charCount : Int) (textColor : UInt16)
  | leftArrow
  | rightArrow
  | resetBuffer

namespace ScreenAction
variable (font : Nat → UInt8)

/-- The effect of an action on the screen. -/
def run : ScreenAction → Screen → Except Fault Screen
  | .putchar c textColor, s => s.putchar font c textColor
  | .puts buffer charCount textColor, s => s.puts font buffer charCount textColor
  | .leftArrow, s => s.handleLeftArrow font
  | .rightArrow, s => s.handleRightArrow font
  | .resetBuffer, s => .ok s.resetBuffer

/-- An action that completes. -/
def Step (a : ScreenAction) (s s' : Screen) : Prop := a.run font s = .ok s'

/-- The action completes without an access out of bounds, and the cursor is at a cell; in `puts`
after every character. -/
def StaysInBounds (a : ScreenAction) (s : Screen) : Prop :=
  match a with
  | .puts buffer charCount textColor =>
    ∀ n : Nat, n ≤ charCount.toNat → Screen.Stays (s.puts font buffer n textColor)
  | a => Screen.Stays (a.run font s)

/-- The action fits on the screen: a character as `CharFits` says, in `puts` each one behind the
ones before it. -/
def Fits (a : ScreenAction) (s : Screen) : Prop :=
  match a with
  | .putchar c _ => s.CharFits c
  | .puts buffer charCount textColor =>
    ∀ n : Nat, n < charCount.toNat → ∀ s', s.puts font buffer n textColor = .ok s' →
      s'.CharFits (buffer n)
  | .leftArrow => 2 ≤ s.pos
  | .rightArrow => s.pos < 6143
  | .resetBuffer => True

variable {font} {s s' : Screen} {a : ScreenAction}

theorem staysInBounds_iff (h : s.InRange) : a.StaysInBounds font s ↔ a.Fits font s := by
  cases a with
  | putchar c textColor => exact Screen.putchar_stays_iff h
  | puts buffer charCount textColor => exact Screen.puts_stays_iff h charCount.toNat
  | leftArrow => exact Screen.handleLeftArrow_stays_iff h
  | rightArrow => exact Screen.handleRightArrow_stays_iff h
  | resetBuffer => exact iff_of_true ⟨_, rfl, Screen.resetBuffer_inRange⟩ trivial

/-- A completed action that stays in bounds leaves the cursor at a cell. -/
theorem StaysInBounds.inRange (h : a.StaysInBounds font s) (hrun : a.Step font s s') :
    s'.InRange := by
  have hstays : Screen.Stays (a.run font s) := by
    cases a with
    | puts buffer charCount textColor =>
      have hlast := h charCount.toNat le_rfl
      simp only [Screen.puts, Int.toNat_natCast] at hlast
      exact hlast
    | putchar c textColor => exact h
    | leftArrow => exact h
    | rightArrow => exact h
    | resetBuffer => exact h
  obtain ⟨t, ht, hin⟩ := hstays
  rw [Step, ht] at hrun
  cases hrun
  exact hin

/-- In a run whose actions all fit on the screen the cursor stays at a cell; and where it is, an
action keeps to the screen exactly when it fits. -/
theorem screen_bounds_iff (font : Nat → UInt8) (s s' : Screen) (hs : s.InRange)
    (hrun : Run (Step font) (Fits font) s s') :
    s'.InRange ∧ ∀ a : ScreenAction, a.StaysInBounds font s' ↔ a.Fits font s' := by
  have hin : s'.InRange := hrun.invariant
    (fun a t t' ht hfits hstep => ((staysInBounds_iff ht).2 hfits).inRange hstep) hs
  exact ⟨hin, fun a => staysInBounds_iff hin⟩

/-- There is room for a newline, or for a character that is printed. -/
def RoomFor (c : UInt8) (s : Screen) : Prop := c = 0x0A ∧ s.pos < 6016 ∨ Printable c ∧ s.pos < 6143

instance (c : UInt8) (s : Screen) : Decidable (RoomFor c s) :=
  inferInstanceAs (Decidable (c = 0x0A ∧ s.pos < 6016 ∨ Printable c ∧ s.pos < 6143))

theorem RoomFor.fits {c : UInt8} (h : RoomFor c s) : (putchar c 0xFFFF).Fits font s := by
  show s.CharFits c
  rcases h with ⟨rfl, hpos⟩ | ⟨hc, hpos⟩
  · exact hpos
  · have hne : c ≠ 0x0A ∧ c ≠ 0x09 ∧ c ≠ 0x08 := by
      refine ⟨?_, ?_, ?_⟩ <;> rintro rfl <;> exact absurd hc (by decide)
    rw [Screen.CharFits, if_neg hne.1, if_neg hne.2.1, if_neg hne.2.2]
    exact fun _ => hpos

/-- `rm abc` with a newline, and `l` behind it. -/
def printedKeys : List UInt8 := [0x72, 0x6D, 0x20, 0x61, 0x62, 0x63, 0x0A, 0x6C]

/-- The cursor is near the end of the first row. -/
def rowEnd : Screen := { Screen.initial with pos := 119 }

/-- The screen after them. -/
def printedScreen : Option Screen :=
  runAll RoomFor (fun c s => (s.putchar (fun _ => 0) c 0xFFFF).toOption) printedKeys rowEnd

/-- A line with a command and a word is printed, and the cursor is behind the letter in the next
row. -/
theorem screen_bounds_lines :
    ∃ s', printedScreen = some s' ∧ s'.pos = 129 ∧ s'.InRange ∧
      ∀ a : ScreenAction, a.StaysInBounds (fun _ => 0) s' ↔ a.Fits (fun _ => 0) s' := by
  have hpos : printedScreen.map (·.pos) = some 129 := by decide +kernel
  obtain ⟨s', hs', hp⟩ := Option.map_eq_some_iff.1 hpos
  have hrun : Run (Step fun _ => 0) (Fits fun _ => 0) rowEnd s' :=
    .of_runAll (putchar · 0xFFFF) (fun _ _ h => h.fits) (fun _ _ _ => toOption_eq_some.1) hs'
  exact ⟨s', hs', hp, screen_bounds_iff (fun _ => 0) rowEnd s' (by decide) hrun⟩

/-- Every newline goes to the next row, also in the last one. -/
theorem puts_newlines (font : Nat → UInt8) (color : UInt16) {n : Nat} (hn : n ≤ 48) :
    ∃ s', Screen.initial.puts font (fun _ => 0x0A) n color = .ok s' ∧ s'.pos = 128 * n := by
  induction n with
  | zero => exact ⟨_, Screen.puts_zero, rfl⟩
  | succ n ih =>
    obtain ⟨t, ht, hpos⟩ := ih (by omega)
    have hin : t.InRange := by
      rw [Screen.InRange, hpos]
      omega
    obtain ⟨u, hkey, hu, -⟩ := Screen.handleNewline_eq hin
    obtain ⟨s', hrun, hs'⟩ := Screen.putchar_ok (c := 0x0A) font color hin hkey
    rw [Screen.puts_succ, ht, ok_bind]
    exact ⟨s', hrun, by rw [hs'.pos, hu, hpos]; omega⟩

/-- The newline in the last row leaves the cursor behind the buffer, where the next letter is
stored. -/
theorem last_row_overruns :
    ∃ s', (puts (fun _ => 0x0A) 48 0xFFFF).Step (fun _ => 0) Screen.initial s' ∧ s'.pos = 6144 ∧
      (putchar 0x41 0xFFFF).run (fun _ => 0) s' = .error (.charBufferIndex 6144) := by
  obtain ⟨s', hrun, hpos⟩ := puts_newlines (fun _ => 0) 0xFFFF (n := 48) le_rfl
  exact ⟨s', hrun, hpos, Screen.putchar_end hpos (by decide)⟩

end ScreenAction

end OsKernel
