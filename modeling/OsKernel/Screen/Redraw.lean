import OsKernel.Screen.Backspace

/-!
# What is on the screen

`draw_char_at` paints the pixels of one cell (`Paints`), and `buffered_draw` repaints only the cells
between the old cursor and the new one, without the cell at the new cursor, all in the colour of the
current `putchar`. That is enough: a key changes only these cells and the one at the new cursor
(`Packed.keyHandler`), and it finds a character to draw only where it has stored one
(`Packed.printable_onTheWay`). So after every run of `putchar` all other cells show the character in
`charBuffer`, in the colour that it was typed in (`putchar_redraws`).
-/

namespace OsKernel

open Lib

/-! ## Cells of pixels -/

/-- The pixel of a cell that `draw_char_at` paints for `x` and `y`. -/
def pixelOf (i : Fin 6144) (y : Fin 16) (x : Fin 8) : Fin 786432 :=
  ⟨(i.val / 128 * 16 + y.val) * 1024 + (i.val % 128 * 8 + 7 - x.val), by omega⟩

theorem pixelOf_inj {i j : Fin 6144} {y y' : Fin 16} {x x' : Fin 8} :
    pixelOf j y' x' = pixelOf i y x ↔ j = i ∧ y' = y ∧ x' = x := by
  simp only [pixelOf, Fin.ext_iff]
  omega

/-- The colour of a pixel in the glyph of a character; there is none for a character that is not
printable. -/
def glyphColor (font : Nat → UInt8) (c : UInt8) (fg bg : Color16) (y x : Nat) : Color16 :=
  if Printable c ∧ (font (c.toNat * 16 + y) >>> UInt8.ofNat x) &&& 1 = 1 then fg else bg

section Paints
variable {s s' t : Screen} {i : Fin 6144} {color : Nat → Nat → Color16} {p q : Nat → Nat → Prop}
  {font : Nat → UInt8} {c : UInt8} {fg bg : Color16}

theorem drawCharAt_eq {row column : Int} : drawCharAt font c row column fg bg s =
    drawCell (glyphColor font c fg bg) row column s := by
  unfold drawCharAt
  split
  · next hc =>
    have hcolor : glyphColor font c fg bg = fun _ _ => bg := by
      funext y x
      rw [glyphColor, if_neg fun h => hc h.1]
    rw [hcolor]
    rfl
  · next hc =>
    have hcolor : glyphColor font c fg bg = fun y x =>
        if (font (c.toNat * 16 + y) >>> UInt8.ofNat x) &&& 1 = 1 then fg else bg := by
      funext y x
      simp only [glyphColor, not_not.1 hc, true_and]
    rw [hcolor]

/-- The pixels of the cell `i` in `p` have got their colours, and nothing else has changed. -/
structure Paints (s : Screen) (i : Fin 6144) (color : Nat → Nat → Color16) (p : Nat → Nat → Prop)
    (s' : Screen) : Prop where
  sameText : s.SameText s'
  inside : ∀ y x, p y.val x.val → s'.vidmem (pixelOf i y x) = colorToInt (color y x)
  outside : ∀ j y x, ¬ (j = i ∧ p y.val x.val) →
    s'.vidmem (pixelOf j y x) = s.vidmem (pixelOf j y x)

theorem Paints.refl (h : ∀ y x, ¬ p y x) : Paints s i color p s :=
  ⟨.refl s, fun y x hp => absurd hp (h y x), fun _ _ _ _ => rfl⟩

theorem Paints.congr (h : Paints s i color p s')
    (hpq : ∀ y < 16, ∀ x < 8, p y x ↔ q y x) : Paints s i color q s' where
  sameText := h.sameText
  inside y x hq := h.inside y x ((hpq y y.isLt x x.isLt).2 hq)
  outside j y x hq := h.outside j y x fun hp => hq ⟨hp.1, (hpq y y.isLt x x.isLt).1 hp.2⟩

/-- One more pixel. -/
theorem Paints.drawPixelAt (h : Paints s i color p t) {y x : Nat} (hy : y < 16) (hx : x < 8) :
    ∃ t', OsKernel.drawPixelAt ((i.val : Int).tdiv 128 * 16 + (y : Int))
        ((i.val : Int).tmod 128 * 8 + 7 - (x : Int)) (color y x) t = .ok t' ∧
      Paints s i color (fun y' x' => p y' x' ∨ y' = y ∧ x' = x) t' := by
  have hi := i.isLt
  rw [Int.tdiv_eq_ediv_of_nonneg (Int.natCast_nonneg _),
    Int.tmod_eq_emod_of_nonneg (Int.natCast_nonneg _)]
  have hrange : 0 ≤ (i.val : Int) / 128 * 16 + y ∧ (i.val : Int) / 128 * 16 + y < 768 ∧
      0 ≤ (i.val : Int) % 128 * 8 + 7 - x ∧ (i.val : Int) % 128 * 8 + 7 - x < 1024 := by
    omega
  refine ⟨_, dif_pos hrange, ?_⟩
  have hpixel : (⟨(((i.val : Int) / 128 * 16 + y) * 1024 + ((i.val : Int) % 128 * 8 + 7 - x)).toNat,
      by omega⟩ : Fin 786432) = pixelOf i ⟨y, hy⟩ ⟨x, hx⟩ := by
    simp only [pixelOf, Fin.ext_iff]
    omega
  rw [hpixel]
  refine ⟨⟨h.sameText.pos, h.sameText.charBuffer⟩, fun y' x' hp => ?_, fun j y' x' hp => ?_⟩
  · dsimp only
    rw [Function.update_apply]
    split
    · next heq =>
      obtain ⟨-, rfl, rfl⟩ := pixelOf_inj.1 heq
      rfl
    · next hne =>
      refine h.inside y' x' (hp.resolve_right fun heq => hne (pixelOf_inj.2 ⟨rfl, ?_⟩))
      exact ⟨Fin.ext heq.1, Fin.ext heq.2⟩
  · dsimp only
    rw [Function.update_apply, if_neg]
    · exact h.outside j y' x' fun hj => hp ⟨hj.1, .inl hj.2⟩
    · intro heq
      obtain ⟨hj, rfl, rfl⟩ := pixelOf_inj.1 heq
      exact hp ⟨hj, .inr ⟨rfl, rfl⟩⟩

/-- A character is painted to its cell. -/
theorem drawCell_paints (s : Screen) (i : Fin 6144) (color : Nat → Nat → Color16) :
    ∃ s', drawCell color ((i.val : Int).tdiv 128) ((i.val : Int).tmod 128) s = .ok s' ∧
      Paints s i color (fun _ _ => True) s' := by
  have hrows : ∃ s', drawCell color ((i.val : Int).tdiv 128) ((i.val : Int).tmod 128) s = .ok s' ∧
      Paints s i color (fun y _ => y < 16) s' := by
    refine foldlM_range_ok (P := fun n => Paints s i color fun y _ => y < n) (fun y hy t ht => ?_)
      (.refl fun y _ => Nat.not_lt_zero y)
    obtain ⟨t', hrun, ht'⟩ : ∃ t', (List.range 8).foldlM (fun (u : Screen) (x : Nat) =>
        drawPixelAt ((i.val : Int).tdiv 128 * 16 + (y : Int))
          ((i.val : Int).tmod 128 * 8 + 7 - (x : Int)) (color y x) u) t = .ok t' ∧
        Paints s i color (fun y' x' => y' < y ∨ y' = y ∧ x' < 8) t' := by
      refine foldlM_range_ok
        (P := fun n => Paints s i color fun y' x' => y' < y ∨ y' = y ∧ x' < n)
        (fun x hx u hu => ?_) (ht.congr fun y' _ x' _ => by omega)
      obtain ⟨u', hrun, hu'⟩ := hu.drawPixelAt hy hx
      exact ⟨u', hrun, hu'.congr fun y' _ x' _ => by omega⟩
    exact ⟨t', hrun, ht'.congr fun y' _ x' hx' => by omega⟩
  obtain ⟨s', hrun, hs'⟩ := hrows
  exact ⟨s', hrun, hs'.congr fun y hy x _ => iff_of_true hy trivial⟩

theorem drawCharAt_paints (s : Screen) (i : Fin 6144) (font : Nat → UInt8) (c : UInt8)
    (fg bg : Color16) :
    ∃ s', drawCharAt font c ((i.val : Int).tdiv 128) ((i.val : Int).tmod 128) fg bg s = .ok s' ∧
      Paints s i (glyphColor font c fg bg) (fun _ _ => True) s' := by
  rw [drawCharAt_eq]
  exact drawCell_paints s i _

end Paints

namespace Screen
variable {s s' t : Screen} {i : Int} {j : Fin 6144} {c : UInt8} {font : Nat → UInt8}
  {fg fg' : Color16}

/-- A cell shows a character in the colour `fg` on black. -/
def Shows (font : Nat → UInt8) (fg : Color16) (s : Screen) (j : Fin 6144) (c : UInt8) : Prop :=
  ∀ y x, s.vidmem (pixelOf j y x) = colorToInt (glyphColor font c fg black y x)

theorem Shows.congr (h : s.Shows font fg j c)
    (heq : ∀ y x, s'.vidmem (pixelOf j y x) = s.vidmem (pixelOf j y x)) : s'.Shows font fg j c :=
  fun y x => (heq y x).trans (h y x)

/-- A character without a glyph is blank in every colour. -/
theorem Shows.blank (h : s.Shows font fg j c) (hc : ¬ Printable c) : s.Shows font fg' j c := by
  intro y x
  rw [h y x, glyphColor, glyphColor, if_neg fun hp => hc hp.1, if_neg fun hp => hc hp.1]

/-- The cells that `buffered_draw` draws on the way from `i` to `pos`. -/
def OnTheWay (i pos : Int) (j : Fin 6144) : Prop :=
  (i ≤ j.val ∧ j.val < pos) ∨ (pos < j.val ∧ j.val ≤ i)

/-- What has been drawn when the next cell is `k`. -/
structure DrawnUpTo (font : Nat → UInt8) (fg : Color16) (s : Screen) (i k : Int) (t : Screen) :
    Prop where
  ahead : ∀ j, OnTheWay k s.pos j → OnTheWay i s.pos j
  behind : ∀ j, OnTheWay i s.pos j → ¬ OnTheWay k s.pos j → t.Shows font fg j (s.charBuffer j)
  aside : ∀ j, ¬ OnTheWay i s.pos j → ∀ y x, t.vidmem (pixelOf j y x) = s.vidmem (pixelOf j y x)

/-- The next cell is the only one that leaves the way. -/
theorem onTheWay_next {pos : Int} {k : Fin 6144} (hk : (k.val : Int) ≠ pos) :
    OnTheWay k pos j ↔ j = k ∨ OnTheWay (k + if pos > k then 1 else -1) pos j := by
  rw [OnTheWay, OnTheWay, ← Fin.val_inj]
  split <;> omega

/-- One more cell is drawn. -/
theorem DrawnUpTo.next {k : Fin 6144} (h : DrawnUpTo font fg s i k t) (hk : (k.val : Int) ≠ s.pos) :
    ∃ u, drawCharAt font (s.charBuffer k) ((k.val : Int).tdiv 128) ((k.val : Int).tmod 128) fg
        black t = .ok u ∧
      t.SameText u ∧ DrawnUpTo font fg s i (k + if s.pos > k then 1 else -1) u := by
  have hway := fun j => onTheWay_next (j := j) hk
  obtain ⟨u, hdraw, hu⟩ := drawCharAt_paints t k font (s.charBuffer k) fg black
  refine ⟨u, hdraw, hu.sameText, fun j hj => ?_, fun j hj hnot => ?_, fun j hj y x => ?_⟩
  · exact h.ahead j ((hway j).2 (.inr hj))
  · by_cases hjk : j = k
    · subst hjk
      exact fun y x => hu.inside y x trivial
    · -- this cell was drawn before
      have hold : ¬ OnTheWay k s.pos j := fun hold => hnot (((hway j).1 hold).resolve_left hjk)
      exact (h.behind j hj hold).congr fun y x => hu.outside j y x fun h => hjk h.1
  · have hjk : j ≠ k := by
      rintro rfl
      exact hj (h.ahead j ((hway j).2 (.inl rfl)))
    rw [hu.outside j y x fun h => hjk h.1, h.aside j hj]

/-- The cells on the way show their characters, and the others are left alone. -/
theorem drawBack_shows (font : Nat → UInt8) (fg : Color16) (hpos : 0 ≤ s.pos ∧ s.pos ≤ 6144)
    (hi : (0 ≤ i ∧ i < 6144) ∨ i = s.pos) {steps : Nat} (hsteps : (s.pos - i).natAbs < steps) :
    ∃ s', drawBack font fg black steps i s = .ok s' ∧ s.SameText s' ∧
      (∀ j, OnTheWay i s.pos j → s'.Shows font fg j (s.charBuffer j)) ∧
      ∀ j, ¬ OnTheWay i s.pos j → ∀ y x, s'.vidmem (pixelOf j y x) = s.vidmem (pixelOf j y x) := by
  have hstart : DrawnUpTo font fg s i i s :=
    ⟨fun _ hj => hj, fun _ hj hnot => absurd hj hnot, fun _ _ _ _ => rfl⟩
  have hdraws : ∀ n t, 0 ≤ n ∧ n < 6144 → n ≠ s.pos → s.SameText t → DrawnUpTo font fg s i n t →
    ∃ u, drawCharAt font (s.cell n) (n.tdiv 128) (n.tmod 128) fg black t = .ok u ∧ t.SameText u ∧
        DrawnUpTo font fg s i (n + if s.pos > n then 1 else -1) u := by
    intro n t hcell hne _ hdrawn
    obtain ⟨k, rfl⟩ : ∃ k : Fin 6144, (k.val : Int) = n :=
      ⟨⟨n.toNat, by omega⟩, Int.toNat_of_nonneg hcell.1⟩
    rw [cell_val]
    exact hdrawn.next hne
  obtain ⟨s', hrun, hsame, hdrawn⟩ :=
    drawBack_rule font fg black hpos hdraws (.refl s) hi hsteps hstart
  have hend : ∀ j, ¬ OnTheWay s.pos s.pos j := by
    intro j
    rw [OnTheWay]
    omega
  exact ⟨s', hrun, hsame, fun j hj => hdrawn.behind j hj (hend j), hdrawn.aside⟩

/-! ## The handlers do not draw -/

theorem setChar_vidmem (h : s.setChar i c = .ok s') : s'.vidmem = s.vidmem := by
  rw [setChar] at h
  split at h
  · cases h
    rfl
  · cases h

theorem skipZeros_vidmem {steps : Nat} (h : skipZeros steps s = .ok s') : s'.vidmem = s.vidmem := by
  induction steps generalizing s with
  | zero => cases h
  | succ steps ih =>
    obtain ⟨c, -, h⟩ := bind_eq_ok.1 h
    split at h
    · exact ih (s := { s with pos := s.pos - 1 }) h
    · cases h
      rfl

theorem handleBackspace_vidmem (h : s.handleBackspace = .ok s') : s'.vidmem = s.vidmem := by
  rw [handleBackspace] at h
  split at h
  · cases h
    rfl
  obtain ⟨c, -, h⟩ := bind_eq_ok.1 h
  split at h
  · obtain ⟨t, hset, h⟩ := bind_eq_ok.1 h
    cases h
    show t.vidmem = s.vidmem
    exact setChar_vidmem hset
  · obtain ⟨t, hskip, h⟩ := bind_eq_ok.1 h
    obtain ⟨d, -, h⟩ := bind_eq_ok.1 h
    split at h
    · cases h
      show t.vidmem = s.vidmem
      exact skipZeros_vidmem hskip
    · exact (setChar_vidmem h).trans (skipZeros_vidmem hskip)

theorem keyHandler_vidmem (h : s.keyHandler c = .ok s') : s'.vidmem = s.vidmem := by
  unfold keyHandler at h
  split_ifs at h
  · cases h
    rfl
  · obtain ⟨t, hset, h⟩ := bind_eq_ok.1 h
    cases h
    show t.vidmem = s.vidmem
    exact setChar_vidmem hset
  · obtain ⟨t, hset, h⟩ := bind_eq_ok.1 h
    cases h
    show t.vidmem = s.vidmem
    exact setChar_vidmem hset
  · exact handleBackspace_vidmem h
  · rw [handleOthers] at h
    split at h
    · obtain ⟨t, hset, h⟩ := bind_eq_ok.1 h
      cases h
      show t.vidmem = s.vidmem
      exact setChar_vidmem hset
    · cases h
      rfl

/-! ## Characters on the way -/

theorem zero_not_printable : ¬ Printable 0 := by decide

theorem erase_not_printable : ¬ Printable 0x08 := by decide

/-- Between the old cursor and the new one only a character that has just been typed has a glyph. -/
theorem Packed.printable_onTheWay (h : s.Packed) (hkey : s.keyHandler c = .ok t)
    (hj : OnTheWay s.pos t.pos j) (hp : Printable (t.charBuffer j)) :
    Printable c ∧ (j.val : Int) = s.pos := by
  rw [OnTheWay] at hj
  rw [← cell_val] at hp
  by_cases hk : TypedKey c
  · obtain ⟨u, hrun, hlt, -, hcell, -⟩ := keyHandler_typed h.inRange hk
    cases hkey.symm.trans hrun
    rw [hcell] at hp
    split at hp
    · next heq => exact ⟨hp, heq⟩
    · rw [h.blank _ (by omega)] at hp
      exact absurd hp zero_not_printable
  · -- a backspace goes back over cells that are empty now, and another key does not move the cursor
    obtain ⟨u, hrun, -, -, hblank, -, -⟩ := h.keyHandler c
    cases hkey.symm.trans hrun
    have hle : t.pos ≤ s.pos := by
      by_cases hback : c = 0x08
      · subst hback
        obtain ⟨u, hrun, -, hle, -⟩ := h.handleBackspace
        cases hkey.symm.trans hrun
        exact hle
      · rw [TypedKey, not_or, not_or] at hk
        have hsame : s.keyHandler c = .ok s := by
          rw [Screen.keyHandler, if_neg hk.2.1, if_neg hk.2.2, if_neg hback, handleOthers,
            if_neg hk.1, ite_self]
        cases hkey.symm.trans hsame
        exact le_rfl
    rw [hblank _ (by omega)] at hp
    exact absurd hp zero_not_printable

/-- The cell of a character that has just been typed is on the way. -/
theorem onTheWay_typed (h : s.InRange) (hkey : s.keyHandler c = .ok t) (hc : Printable c)
    (hj : (j.val : Int) = s.pos) : OnTheWay s.pos t.pos j := by
  obtain ⟨u, hrun, hlt, -⟩ := keyHandler_typed h (.inl hc)
  cases hkey.symm.trans hrun
  exact .inl ⟨hj.ge, hj.trans_lt hlt⟩

/-! ## Runs of `putchar` -/

/-- The colours of the cells after `putchar` for a character: a printable one is typed in the colour
of the call. -/
def inksAfter (a : UInt8 × UInt16) (s : Screen) (inks : Fin 6144 → Color16) (j : Fin 6144) :
    Color16 :=
  if Printable a.1 ∧ (j.val : Int) = s.pos then intToColor a.2 else inks j

/-- Every cell but the one at the cursor shows the character that is stored for it, in its
colour. -/
structure Drawn (font : Nat → UInt8) (inks : Fin 6144 → Color16) (s : Screen) :
    Prop extends s.Packed where
  shows : ∀ j : Fin 6144, (j.val : Int) ≠ s.pos → s.Shows font (inks j) j (s.charBuffer j)

variable {inks inks' inks₀ : Fin 6144 → Color16}

/-- A character is drawn completely, as far as the cells between the cursors go. -/
theorem Drawn.putchar (h : s.Drawn font inks) (c : UInt8) (textColor : UInt16) : ∃ s',
    s.putchar font c textColor = .ok s' ∧
      (s'.InRange → s'.Drawn font (inksAfter (c, textColor) s inks)) := by
  obtain ⟨hlo, hhi⟩ := h.inRange
  obtain ⟨t, hkey, htlo, hthi, hblank, hfirst, hkept⟩ := h.toPacked.keyHandler c
  have hsteps : (t.pos - s.pos).natAbs < 6145 := by omega
  obtain ⟨s', hdraw, hsame, hway, hrest⟩ :=
    drawBack_shows font (intToColor textColor) ⟨htlo, hthi⟩ (.inl h.inRange) hsteps
  refine ⟨s', ?_, fun hin => ?_⟩
  · rw [Screen.putchar, bufferedDraw, hkey]
    exact hdraw
  have ht : t.InRange := by
    rw [InRange, ← hsame.pos]
    exact hin
  refine ⟨hsame.packed ⟨ht, hblank, hfirst⟩, fun j hj => ?_⟩
  rw [hsame.pos] at hj
  rw [hsame.charBuffer]
  by_cases hon : OnTheWay s.pos t.pos j
  · by_cases hp : Printable (t.charBuffer j)
    · rw [inksAfter, if_pos (h.toPacked.printable_onTheWay hkey hon hp)]
      exact hway j hon
    · exact (hway j hon).blank hp
  -- behind both cursors nothing is written, and before both nothing has changed
  have hchar : t.charBuffer j = s.charBuffer j := by
    rw [OnTheWay] at hon
    rw [← cell_val, ← cell_val]
    by_cases hbefore : (j.val : Int) < s.pos
    · exact hkept _ hbefore (by omega)
    · rw [hblank _ (by omega), h.blank _ (by omega)]
  have hink : inksAfter (c, textColor) s inks j = inks j :=
    if_neg fun htyped => hon (onTheWay_typed h.inRange hkey htyped.1 htyped.2)
  have hold : s.Shows font (inks j) j (s.charBuffer j) := by
    refine h.shows j ?_
    rw [OnTheWay] at hon
    omega
  rw [hchar, hink]
  refine hold.congr fun y x => ?_
  rw [hrest j hon, keyHandler_vidmem hkey]

/-- A `putchar` after which the cursor is at a cell, and the colours in which the cells are
typed. -/
def PutcharStep (font : Nat → UInt8) (a : UInt8 × UInt16) (x x' : Screen × (Fin 6144 → Color16)) :
    Prop :=
  x.1.putchar font a.1 a.2 = .ok x'.1 ∧ x'.1.InRange ∧ x'.2 = inksAfter a x.1 x.2

/-- A blank screen shows an empty buffer. -/
theorem drawn_resetBuffer (hblank : ∀ p, s.vidmem p = colorToInt black) :
    s.resetBuffer.Drawn font inks where
  toPacked := packed_resetBuffer s
  shows _ _ _ _ :=
    (hblank _).trans (congrArg colorToInt (if_neg fun h => zero_not_printable h.1).symm)

/-- After every run of `putchar` on a blank screen all cells but the one at the cursor show what
`charBuffer` holds, each in the text colour of the call that stored the character; and `putchar`
always completes. -/
theorem putchar_redraws (font : Nat → UInt8) {s₀ : Screen}
    (hblank : ∀ p, s₀.vidmem p = colorToInt black)
    (hrun : Run (PutcharStep font) (fun _ _ => True) (s₀.resetBuffer, inks₀) (s, inks)) :
    (∀ j : Fin 6144, (j.val : Int) ≠ s.pos → s.Shows font (inks j) j (s.charBuffer j)) ∧
      ∀ c textColor, ∃ s', s.putchar font c textColor = .ok s' := by
  have h : s.Drawn font inks := by
    refine hrun.invariant (I := fun x => x.1.Drawn font x.2) (fun a x x' hx _ hstep => ?_)
      (drawn_resetBuffer hblank)
    obtain ⟨u, hu, hdrawn⟩ := hx.putchar a.1 a.2
    rw [hstep.1] at hu
    cases hu
    rw [hstep.2.2]
    exact hdrawn hstep.2.1
  refine ⟨h.shows, fun c textColor => ?_⟩
  obtain ⟨s', hs', -⟩ := h.putchar c textColor
  exact ⟨s', hs'⟩

section Steps
variable (font : Nat → UInt8) (inks : Fin 6144 → Color16) (textColor : UInt16)

/-- A character is typed in front of the last cell. -/
theorem putcharStep_typed (hpos : 0 ≤ s.pos ∧ s.pos < 6143) (hc : Printable c) : ∃ s',
    PutcharStep font (c, textColor) (s, inks) (s', inksAfter (c, textColor) s inks) ∧
      s'.pos = s.pos + 1 ∧ ∀ i, s'.cell i = if i = s.pos then c else s.cell i := by
  have hin : s.InRange := ⟨hpos.1, by omega⟩
  obtain ⟨t, hkey, ht, hcell⟩ := handleOthers_eq hin hc
  obtain ⟨s', hrun, hs'⟩ := putchar_ok font textColor hin ((keyHandler_printable hc).trans hkey)
  have hpos' := hs'.pos.trans ht
  refine ⟨s', ⟨hrun, ?_, rfl⟩, hpos', fun i => by rw [hs'.cell, hcell]⟩
  show 0 ≤ s'.pos ∧ s'.pos < 6144
  omega

/-- A character is taken back. -/
theorem putcharStep_erased (hpos : 0 < s.pos ∧ s.pos < 6144) (hc : Printable (s.cell (s.pos - 1))) :
    ∃ s', PutcharStep font (0x08, textColor) (s, inks) (s', inks) ∧
      s'.pos = s.pos - 1 ∧ ∀ i, s'.cell i = if i = s.pos - 1 then 0 else s.cell i := by
  obtain ⟨t, hkey, ht, hcell⟩ := handleBackspace_printable ⟨hpos.1, hpos.2.le⟩ hc
  obtain ⟨s', hrun, hs'⟩ := putchar_ok (c := 0x08) font textColor ⟨hpos.1.le, hpos.2⟩ hkey
  have hpos' := hs'.pos.trans ht
  have hinks : inks = inksAfter (0x08, textColor) s inks :=
    funext fun _ => (if_neg fun h => erase_not_printable h.1).symm
  refine ⟨s', ⟨hrun, ?_, hinks⟩, hpos', fun i => by rw [hs'.cell, hcell]⟩
  show 0 ≤ s'.pos ∧ s'.pos < 6144
  omega

end Steps

/-- A font with the glyph of `A`. -/
def sampleFont (k : Nat) : UInt8 :=
  if k < 0x410 then 0
  else [0, 0, 0x10, 0x38, 0x6C, 0xC6, 0xC6, 0xFE, 0xC6, 0xC6, 0xC6, 0xC6].getD (k - 0x410) 0

/-- After `A` in white, `A` in blue and a backspace the first cell shows the glyph in white. -/
theorem putchar_redraws_letter : ∃ s inks,
    Run (PutcharStep sampleFont) (fun _ _ => True) (Screen.initial.resetBuffer, fun _ => black)
        (s, inks) ∧
      s.pos = 1 ∧ s.charBuffer 0 = 0x41 ∧ inks 0 = white ∧ s.vidmem (pixelOf 0 2 4) = 0xFFFF ∧
      ∀ j : Fin 6144, (j.val : Int) ≠ s.pos → s.Shows sampleFont (inks j) j (s.charBuffer j) := by
  have hprint : Printable 0x41 := by decide
  obtain ⟨s₁, hstep₁, hpos₁, hcell₁⟩ :=
    putcharStep_typed (s := Screen.initial.resetBuffer) sampleFont
    (fun _ => black) 0xFFFF ⟨le_rfl, by decide⟩ hprint
  have hpos₁ : s₁.pos = 1 := hpos₁
  obtain ⟨s₂, hstep₂, hpos₂, hcell₂⟩ := putcharStep_typed (s := s₁) sampleFont
    (inksAfter (0x41, 0xFFFF) Screen.initial.resetBuffer fun _ => black) 0x001F (by omega) hprint
  have hlast : s₂.cell (s₂.pos - 1) = 0x41 := by rw [hcell₂, if_pos (by omega)]
  obtain ⟨s₃, hstep₃, hpos₃, hcell₃⟩ := putcharStep_erased (s := s₂) sampleFont
    (inksAfter (0x41, 0x001F) s₁ _) 0xFFFF (by omega) (hlast ▸ hprint)
  have hrun : Run (PutcharStep sampleFont) (fun _ _ => True)
      (Screen.initial.resetBuffer, fun _ => black) (s₃, _) :=
    ((Run.single trivial hstep₁).tail trivial hstep₂).tail trivial hstep₃
  have hfirst : s₃.charBuffer 0 = 0x41 := by
    rw [← cell_val, hcell₃, if_neg (by rw [hpos₂, hpos₁]; decide), hcell₂,
      if_neg (by rw [hpos₁]; decide), hcell₁]
    rfl
  have hink : inksAfter (0x41, 0x001F) s₁
      (inksAfter (0x41, 0xFFFF) Screen.initial.resetBuffer fun _ => black) 0 = white := by
    rw [inksAfter, if_neg (by rw [hpos₁]; decide)]
    rfl
  have hblank : ∀ p, Screen.initial.vidmem p = colorToInt black := fun _ => rfl
  have hshows := (putchar_redraws sampleFont hblank hrun).1
  refine ⟨s₃, _, hrun, by omega, hfirst, hink, ?_, hshows⟩
  rw [hshows 0 (show (0 : Int) ≠ s₃.pos by omega) 2 4, hfirst, hink]
  rfl

end Screen

end OsKernel
