import OsKernel.Screen.Bounds
import OsKernel.Stdlib.Numerals

/-!
# The clock in the last row

`cmos.c` reads the time from the registers of the clock, and `show_HMS` draws two digits for each of
its numbers, out of arrays of two characters. `intToStrPad` stores three characters for 0, so the
arrays are written past their ends whenever a number of the time is 0 (`clock_digits_iff`).
-/

namespace OsKernel

open Lib

/-! ## The time -/

/-- `second`, `minute` and `hour`. -/
structure ClockTime where
  second : UInt8
  minute : UInt8
  hour : UInt8

/-- What `read_rtc` makes of the values that it has read twice in a row, with `registerB`. -/
def readRtc (registers : ClockTime) (registerB : UInt8) : ClockTime :=
  let time : ClockTime :=
    if registerB &&& 0x04 = 0 then
      { second := (registers.second &&& 0x0F) + registers.second / 16 * 10
        minute := (registers.minute &&& 0x0F) + registers.minute / 16 * 10
        hour := ((registers.hour &&& 0x0F) + (registers.hour &&& 0x70) / 16 * 10) |||
          (registers.hour &&& 0x80) }
    else registers
  let hour : UInt8 :=
    if registerB &&& 0x02 = 0 ∧ time.hour &&& 0x80 ≠ 0 then
      UInt8.ofNat (((time.hour &&& 0x7F).toNat + 12) % 24)
    else time.hour
  { time with hour := UInt8.ofNat ((hour.toNat + 7) % 24) }

/-! ## `show_HMS` -/

/-- A store to one of the strings of `show_HMS`. -/
inductive ClockStore
  | hourStr (i : Nat)
  | minuteStr (i : Nat)
  | secondStr (i : Nat)

/-- The store is inside of its array. -/
def ClockStore.InRange : ClockStore → Prop
  | hourStr i => i < 2
  | minuteStr i => i < 2
  | secondStr i => i < 2

section Font
variable (font : Nat → UInt8)

/-- The characters in the last row of the screen, from `column` on. -/
def drawLastRow : List UInt8 → Int → Screen → Except Fault Screen
  | [], _, s => .ok s
  | c :: chars, column, s => do
    let s ← drawCharAt font c (48 - 1) column white black s
    drawLastRow chars (column + 1) s

/-- `show_HMS`, behind `read_rtc`. -/
def showHMS (time : ClockTime) (s : Screen) : Traced ClockStore Fault Screen := do
  let hourStr ← intToStrPad .hourStr time.hour.toNat (fun _ => 0) 2
  let minuteStr ← intToStrPad .minuteStr time.minute.toNat (fun _ => 0) 2
  let secondStr ← intToStrPad .secondStr time.second.toNat (fun _ => 0) 2
  .lift (drawLastRow font [hourStr 0, hourStr 1, 0x3A, minuteStr 0, minuteStr 1, 0x3A, secondStr 0,
    secondStr 1] (128 - 8) s)

end Font

section Clock
variable {font : Nat → UInt8} {s : Screen} {elem : Nat → ClockStore} {c : UInt8}
  {chars : List UInt8} {column : Int}

/-- The row is drawn as far as it is on the screen. -/
theorem drawLastRow_sameText (h : 0 ≤ column ∧ column + chars.length ≤ 128) :
    ∃ s', drawLastRow font chars column s = .ok s' ∧ s.SameText s' := by
  induction chars generalizing column s with
  | nil => exact ⟨s, rfl, .refl s⟩
  | cons c chars ih =>
    rw [List.length_cons] at h
    obtain ⟨t, hdraw, ht⟩ := drawCharAt_sameText (s := s) (c := c) font white black
      (show (0 : Int) ≤ 48 - 1 ∧ (48 - 1 : Int) < 48 by decide)
      (show 0 ≤ column ∧ column < 128 by omega)
    obtain ⟨s', hrun, hs'⟩ : ∃ s', drawLastRow font chars (column + 1) t = .ok s' ∧ t.SameText s' :=
      ih (by omega)
    refine ⟨s', ?_, ht.trans hs'⟩
    rw [drawLastRow, hdraw, ok_bind, hrun]

/-- The digits of one number stay inside of their array exactly if the number is not 0. -/
theorem intToStrPad_decides (helem : ∀ i, (elem i).InRange ↔ i < 2) :
    Traced.Decides ClockStore.InRange (fun _ => False) (c ≠ 0) (fun _ _ => True)
      (intToStrPad elem c.toNat (fun _ => 0) 2 : Traced ClockStore Fault Chars) where
  ensures hc := by
    have hrun : Traced.Returns ClockStore.InRange
        (intToStrPad elem c.toNat (fun _ => 0) 2 : Traced ClockStore Fault Chars) _ :=
      intToStrPad_returns [] (if_neg fun h => hc (UInt8.toNat_inj.1 h)).symm
        fun k hk => (helem k).2 (by simpa using hk)
    exact ⟨hrun.effects, fun _ _ => trivial⟩
  fails hc e he := by
    have hrun : Traced.Returns (fun _ => True)
        (intToStrPad elem c.toNat (fun _ => 0) 2 : Traced ClockStore Fault Chars) _ :=
      intToStrPad_returns _ rfl fun _ _ => trivial
    rw [hrun.result] at he
    cases he
  breaks hc := by
    obtain rfl := not_not.1 hc
    have htrace : (intToStrPad elem (0 : UInt8).toNat (fun _ => 0) 2 :
        Traced ClockStore Fault Chars).trace = [elem 0, elem 1, elem 2, elem 0, elem 2] := rfl
    have hmem : elem 2 ∈ [elem 0, elem 1, elem 2, elem 0, elem 2] := by simp
    exact .of_mem (htrace ▸ hmem) fun h => absurd ((helem 2).1 h) (lt_irrefl 2)

/-- `show_HMS` stays inside of its arrays exactly if no number of the time is 0. -/
theorem showHMS_decides (time : ClockTime) :
    Traced.Decides ClockStore.InRange (fun _ => False)
      (time.hour ≠ 0 ∧ time.minute ≠ 0 ∧ time.second ≠ 0) (fun _ s' => s.SameText s')
      (showHMS font time s) := by
  refine (intToStrPad_decides fun _ => Iff.rfl).bind fun _ _ hourStr _ => ?_
  refine (intToStrPad_decides fun _ => Iff.rfl).bind fun _ _ minuteStr _ => ?_
  refine ((intToStrPad_decides fun _ => Iff.rfl).bind fun _ _ secondStr _ => ?_).congr
    (iff_of_eq (and_true _))
  obtain ⟨s', hdraw, hs'⟩ : ∃ s', drawLastRow font [hourStr 0, hourStr 1, 0x3A, minuteStr 0,
      minuteStr 1, 0x3A, secondStr 0, secondStr 1] (128 - 8) s = .ok s' ∧ s.SameText s' :=
    drawLastRow_sameText ⟨by decide, le_rfl⟩
  have hreturns : Traced.Returns ClockStore.InRange
      (.lift (.ok s') : Traced ClockStore Fault Screen) s' :=
    .pure s'
  rw [hdraw]
  exact hreturns.decides hs'

/-- `intToStrPad` stores the digits that it should exactly for the numbers that are not 0; and
`show_HMS` stays inside of its strings exactly when the hour, the minute and the second are not
0. -/
theorem clock_digits_iff (num : Nat) (bufferLength : Int) (font : Nat → UInt8) (time : ClockTime)
    (s : Screen) :
    (PadsNumber num bufferLength ↔ num ≠ 0) ∧
      ((∃ s', Traced.Returns ClockStore.InRange (showHMS font time s) s' ∧ s.SameText s') ↔
        time.hour ≠ 0 ∧ time.minute ≠ 0 ∧ time.second ≠ 0) :=
  ⟨padsNumber_iff, (showHMS_decides time).returns_iff⟩

/-- At ten o'clock a third character is stored behind the string of the minutes. -/
theorem clock_overruns : ∃ time, readRtc ⟨0x00, 0x00, 0x03⟩ 0x02 = time ∧
    ¬ PadsNumber time.minute.toNat 2 ∧
    ∀ (font : Nat → UInt8) s, ClockStore.minuteStr 2 ∈ (showHMS font time s).trace := by
  refine ⟨⟨0, 0, 10⟩, rfl, fun h => padsNumber_iff.1 h rfl, fun font s => ?_⟩
  have htrace : (showHMS font ⟨0, 0, 10⟩ s).trace = [.hourStr 0, .hourStr 1, .hourStr 0, .hourStr 1,
    .minuteStr 0, .minuteStr 1, .minuteStr 2, .minuteStr 0, .minuteStr 2,
    .secondStr 0, .secondStr 1, .secondStr 2, .secondStr 0, .secondStr 2] := rfl
  rw [htrace]
  simp

end Clock

end OsKernel
