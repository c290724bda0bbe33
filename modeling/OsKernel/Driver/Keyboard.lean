import OsKernel.Lib.Run
import Mathlib.Data.UInt

/-!
# The keyboard driver

What a poll should answer is said about the events before it (`KeyboardEvent.answer`): the character
of the last key that has one, from the map of the shift keys that were held then. `keyboard_isr`
keeps one flag for both shift keys and one character, which a key without a character overwrites
with zero. As long as no shift key is released while the other one is held, and no such key is
pressed while a character is pending, each poll answers as it should (`keyboard_answers_iff`).
-/

namespace OsKernel

open Lib

/-! ## The driver -/

/-- `keyboard_scancode_1_to_ascii_map`. The entries behind the last one here are zero. -/
def keyboardScancode1ToAsciiMap : List UInt8 := [
  0, 0x1B, 0x31, 0x32, 0x33, 0x34, 0x35, 0x36, 0x37, 0x38, 0x39, 0x30, 0x2D, 0x3D, 0x08, 0x09,
  0x71, 0x77, 0x65, 0x72, 0x74, 0x79, 0x75, 0x69, 0x6F, 0x70, 0x5B, 0x5D, 0x0A, 0, 0x61, 0x73,
  0x64, 0x66, 0x67, 0x68, 0x6A, 0x6B, 0x6C, 0x3B, 0x27, 0x60, 0, 0x5C, 0x7A, 0x78, 0x63, 0x76,
  0x62, 0x6E, 0x6D, 0x2C, 0x2E, 0x2F, 0, 0x2A, 0, 0x20, 0, 0, 0, 0, 0, 0,
  0, 0, 0, 0, 0, 0, 0, 0, 0x11, 0, 0x2D, 0, 0, 0, 0x2B, 0]

/-- `keyboard_scancode_1_to_ascii_map_with_shift`. The entries behind the last one here are zero. -/
def keyboardScancode1ToAsciiMapWithShift : List UInt8 := [
  0, 0x7E, 0x21, 0x40, 0x23, 0x24, 0x25, 0x5E, 0x26, 0x2A, 0x28, 0x29, 0x5F, 0x2B, 0x08, 0x09,
  0x51, 0x57, 0x45, 0x52, 0x54, 0x59, 0x55, 0x49, 0x4F, 0x50, 0x7B, 0x7D, 0x0A, 0, 0x41, 0x53,
  0x44, 0x46, 0x47, 0x48, 0x4A, 0x4B, 0x4C, 0x3A, 0x22, 0x7E, 0, 0x7C, 0x5A, 0x58, 0x43, 0x56,
  0x42, 0x4E, 0x4D, 0x3C, 0x3E, 0x3F, 0, 0x2A, 0, 0x20, 0, 0, 0, 0, 0, 0,
  0, 0, 0, 0, 0, 0, 0, 0, 0, 0, 0x2D, 0, 0, 0, 0x2B, 0]

/-- The character of a key in one of the maps. -/
def asciiOf (shifted : Bool) (scancode : UInt8) : UInt8 :=
  (if shifted then keyboardScancode1ToAsciiMapWithShift else keyboardScancode1ToAsciiMap).getD
    scancode.toNat 0

/-- `struct KeyboardDriverState` -/
structure KeyboardDriverState where
  readExtendedMode : Bool
  keyboardInputOn : Bool
  keyboardBuffer : UInt8
  shiftPressed : Bool
  deriving DecidableEq

/-- `handle_left_arrow` or `handle_right_arrow`, which move the cursor of the screen. -/
inductive ArrowHandler
  | left
  | right
  deriving DecidableEq

/-- The codes from 128 on are those of a key that is released. -/
def isBreakCode (scancode : UInt8) : Bool := scancode &&& 0x80 == 0x80

namespace KeyboardDriverState

/-- The initial value of `keyboard_state`. -/
def initial : KeyboardDriverState := ⟨false, false, 0, false⟩

/-- `keyboard_state_activate` -/
def activate (k : KeyboardDriverState) : KeyboardDriverState := { k with keyboardInputOn := true }

/-- `get_keyboard_buffer`, with the character that it stores. -/
def getKeyboardBuffer (k : KeyboardDriverState) : UInt8 × KeyboardDriverState :=
  (k.keyboardBuffer, { k with keyboardBuffer := 0 })

/-- `keyboard_isr` for a scancode, with the handler that it calls. -/
def keyboardIsr (scancode : UInt8) (k : KeyboardDriverState) :
    KeyboardDriverState × Option ArrowHandler :=
  if k.keyboardInputOn then
    if isBreakCode scancode then
      if scancode = 0xAA ∨ scancode = 0xB6 then ({ k with shiftPressed := false }, none)
        else (k, none)
    else if scancode = 0x2A ∨ scancode = 0x36 then ({ k with shiftPressed := true }, none)
    else if scancode = 0x4B then (k, some .left)
    else if scancode = 0x4D then (k, some .right)
    else ({ k with keyboardBuffer := asciiOf k.shiftPressed scancode }, none)
  else (k, none)

end KeyboardDriverState

/-! ## What polls should answer -/

/-- A scancode arrives, or the buffer is polled. -/
inductive KeyboardEvent
  | interrupt (scancode : UInt8)
  | poll
  deriving DecidableEq

namespace KeyboardEvent

/-- Whether a key is held after the events, the last of which comes first. -/
def held (makeCode breakCode : UInt8) : List KeyboardEvent → Bool
  | [] => false
  | .poll :: past => held makeCode breakCode past
  | .interrupt scancode :: past =>
    if scancode = makeCode then true
    else if scancode = breakCode then false
    else held makeCode breakCode past

/-- The left shift key is held. -/
def leftShift (past : List KeyboardEvent) : Bool := held 0x2A 0xAA past

/-- The right shift key is held. -/
def rightShift (past : List KeyboardEvent) : Bool := held 0x36 0xB6 past

/-- The character of a key that is pressed after the events. Released keys have none. -/
def character (past : List KeyboardEvent) (scancode : UInt8) : UInt8 :=
  if isBreakCode scancode then 0 else asciiOf (leftShift past || rightShift past) scancode

/-- The character of the last key with a character since the last poll, or zero. -/
def answer : List KeyboardEvent → UInt8
  | [] => 0
  | .poll :: _ => 0
  | .interrupt scancode :: past =>
    if character past scancode = 0 then answer past else character past scancode

end KeyboardEvent

/-- The driver, and the events since it was activated, the last of which comes first. -/
structure Keyboard where
  driver : KeyboardDriverState
  past : List KeyboardEvent

namespace Keyboard

open KeyboardEvent

/-- The driver when it is activated. -/
def start : Keyboard := ⟨KeyboardDriverState.initial.activate, []⟩

/-- The keyboard after an event. -/
def next (e : KeyboardEvent) (x : Keyboard) : Keyboard where
  driver := match e with
    | .interrupt scancode => (x.driver.keyboardIsr scancode).1
    | .poll => x.driver.getKeyboardBuffer.2
  past := e :: x.past

def Step (e : KeyboardEvent) (x x' : Keyboard) : Prop := x' = x.next e

/-- A poll answers as it should. -/
def PollRight (x : Keyboard) : Prop := x.driver.getKeyboardBuffer.1 = answer x.past

/-- A shift key is released only when the other one is not held, and a key without a character,
except for the shift keys and the two arrows that move the cursor, is pressed only when no character
is pending. -/
def Fits (e : KeyboardEvent) (x : Keyboard) : Prop :=
  match e with
  | .poll => True
  | .interrupt scancode =>
    (scancode = 0xAA → rightShift x.past = false) ∧ (scancode = 0xB6 → leftShift x.past = false) ∧
      (isBreakCode scancode = false → scancode ∉ [0x2A, 0x36, 0x4B, 0x4D] →
        character x.past scancode = 0 → answer x.past = 0)

/-- The driver knows whether a shift key is held, and the character that is pending. -/
structure Agrees (x : Keyboard) : Prop where
  inputOn : x.driver.keyboardInputOn = true
  shift : x.driver.shiftPressed = (leftShift x.past || rightShift x.past)
  buffer : x.driver.keyboardBuffer = answer x.past

variable {x : Keyboard} {e : KeyboardEvent} {c : UInt8}

theorem leftShift_interrupt (past : List KeyboardEvent) (c : UInt8) :
    leftShift (.interrupt c :: past) =
    if c = 0x2A then true else if c = 0xAA then false else leftShift past := rfl

theorem rightShift_interrupt (past : List KeyboardEvent) (c : UInt8) :
    rightShift (.interrupt c :: past) =
    if c = 0x36 then true else if c = 0xB6 then false else rightShift past := rfl

theorem answer_interrupt (past : List KeyboardEvent) (c : UInt8) : answer (.interrupt c :: past) =
    if character past c = 0 then answer past else character past c := rfl

/-- The shift keys and the two arrows have no character. -/
theorem character_special (past : List KeyboardEvent) (h : c ∈ [0x2A, 0x36, 0x4B, 0x4D]) :
    character past c = 0 := by
  have hnone : ∀ shifted, asciiOf shifted c = 0 := by
    simp only [List.mem_cons, List.not_mem_nil, or_false] at h
    rcases h with rfl | rfl | rfl | rfl <;> decide
  rw [character, hnone, ite_self]

theorem character_break (past : List KeyboardEvent) (h : isBreakCode c = true) :
    character past c = 0 := if_pos h

theorem Agrees.poll (h : x.Agrees) : (x.next .poll).Agrees := ⟨h.inputOn, h.shift, rfl⟩

/-- A key that is neither a shift key nor changes the pending character. -/
theorem Agrees.silent (h : x.Agrees) (hleft : c ≠ 0x2A ∧ c ≠ 0xAA) (hright : c ≠ 0x36 ∧ c ≠ 0xB6)
    (hdriver : (x.driver.keyboardIsr c).1 = x.driver) (hnone : character x.past c = 0) :
    (x.next (.interrupt c)).Agrees where
  inputOn := by
    rw [next, hdriver]
    exact h.inputOn
  shift := by
    rw [next, hdriver, leftShift_interrupt, rightShift_interrupt, if_neg hleft.1, if_neg hleft.2,
      if_neg hright.1, if_neg hright.2]
    exact h.shift
  buffer := by
    rw [next, hdriver, answer_interrupt, if_pos hnone]
    exact h.buffer

theorem keyboardIsr_break (h : x.Agrees) (hbreak : isBreakCode c = true) :
    (x.driver.keyboardIsr c).1 =
      if c = 0xAA ∨ c = 0xB6 then { x.driver with shiftPressed := false } else x.driver := by
  rw [KeyboardDriverState.keyboardIsr, if_pos h.inputOn, if_pos hbreak]
  split <;> rfl

/-- The left shift key is released: the flag is false, whatever the right one does. -/
theorem Agrees.releaseLeft_iff (h : x.Agrees) :
    (x.next (.interrupt 0xAA)).Agrees ↔ rightShift x.past = false := by
  have hdriver : (x.next (.interrupt 0xAA)).driver = { x.driver with shiftPressed := false } :=
    (keyboardIsr_break h (by decide)).trans (if_pos (.inl rfl))
  have hleft : leftShift (x.next (.interrupt 0xAA)).past = false := rfl
  have hright : rightShift (x.next (.interrupt 0xAA)).past = rightShift x.past := rfl
  constructor
  · intro h'
    have hshift := h'.shift
    rw [hdriver, hleft, hright] at hshift
    exact hshift.symm
  · intro hreleased
    refine ⟨?_, ?_, ?_⟩
    · rw [hdriver]
      exact h.inputOn
    · rw [hdriver, hleft, hright, hreleased]
      rfl
    · rw [hdriver]
      exact h.buffer

/-- The right shift key is released. -/
theorem Agrees.releaseRight_iff (h : x.Agrees) :
    (x.next (.interrupt 0xB6)).Agrees ↔ leftShift x.past = false := by
  have hdriver : (x.next (.interrupt 0xB6)).driver = { x.driver with shiftPressed := false } :=
    (keyboardIsr_break h (by decide)).trans (if_pos (.inr rfl))
  have hleft : leftShift (x.next (.interrupt 0xB6)).past = leftShift x.past := rfl
  have hright : rightShift (x.next (.interrupt 0xB6)).past = false := rfl
  constructor
  · intro h'
    have hshift := h'.shift
    rw [hdriver, hleft, hright, Bool.or_false] at hshift
    exact hshift.symm
  · intro hreleased
    refine ⟨?_, ?_, ?_⟩
    · rw [hdriver]
      exact h.inputOn
    · rw [hdriver, hleft, hright, hreleased]
      rfl
    · rw [hdriver]
      exact h.buffer

/-- A shift key is pressed. -/
theorem Agrees.pressShift (h : x.Agrees) (hc : c = 0x2A ∨ c = 0x36) :
    (x.next (.interrupt c)).Agrees := by
  have hdriver : (x.next (.interrupt c)).driver = { x.driver with shiftPressed := true } := by
    rw [next]
    dsimp only
    rw [KeyboardDriverState.keyboardIsr, if_pos h.inputOn,
      if_neg (by rcases hc with rfl | rfl <;> decide), if_pos hc]
  have hnone : character x.past c = 0 :=
    character_special x.past (by rcases hc with rfl | rfl <;> decide)
  refine ⟨?_, ?_, ?_⟩
  · rw [hdriver]
    exact h.inputOn
  · rw [hdriver]
    rcases hc with rfl | rfl
    · rfl
    · exact (Bool.or_true _).symm
  · rw [hdriver]
    show x.driver.keyboardBuffer = answer (.interrupt c :: x.past)
    rw [answer_interrupt, if_pos hnone]
    exact h.buffer

/-- An ordinary key is pressed: its character is the pending one, also where it has none. -/
theorem Agrees.press_iff (h : x.Agrees) (hmake : isBreakCode c = false)
    (hc : c ∉ [0x2A, 0x36, 0x4B, 0x4D]) :
    (x.next (.interrupt c)).Agrees ↔ (character x.past c = 0 → answer x.past = 0) := by
  simp only [List.mem_cons, List.not_mem_nil, or_false, not_or] at hc
  obtain ⟨hleftShift, hrightShift, hleftArrow, hrightArrow⟩ := hc
  have hne : c ≠ 0xAA ∧ c ≠ 0xB6 := by
    constructor <;> · rintro rfl; exact absurd hmake (by decide)
  have hdriver : (x.next (.interrupt c)).driver =
      { x.driver with keyboardBuffer := character x.past c } := by
    rw [next, character, ← h.shift]
    dsimp only
    rw [KeyboardDriverState.keyboardIsr, if_pos h.inputOn, hmake, if_neg Bool.false_ne_true,
      if_neg (not_or.2 ⟨hleftShift, hrightShift⟩), if_neg hleftArrow, if_neg hrightArrow,
      if_neg Bool.false_ne_true]
  have hanswer : answer (x.next (.interrupt c)).past =
      if character x.past c = 0 then answer x.past else character x.past c := rfl
  constructor
  · intro h' hnone
    have hbuffer := h'.buffer
    rw [hdriver, hanswer, if_pos hnone] at hbuffer
    exact hbuffer.symm.trans hnone
  · intro hpending
    refine ⟨?_, ?_, ?_⟩
    · rw [hdriver]
      exact h.inputOn
    · rw [hdriver]
      show x.driver.shiftPressed =
        (leftShift (.interrupt c :: x.past) || rightShift (.interrupt c :: x.past))
      rw [leftShift_interrupt, rightShift_interrupt, if_neg hleftShift, if_neg hne.1,
        if_neg hrightShift, if_neg hne.2]
      exact h.shift
    · rw [hdriver, hanswer]
      split
      · next hnone => exact hnone.trans (hpending hnone).symm
      · rfl

/-- An event keeps the driver right exactly if it fits. -/
theorem Agrees.next_iff (h : x.Agrees) : (x.next e).Agrees ↔ Fits e x := by
  cases e with
  | poll => exact iff_of_true h.poll trivial
  | interrupt c =>
    by_cases hbreak : isBreakCode c = true
    · have hpress : isBreakCode c = false → c ∉ [0x2A, 0x36, 0x4B, 0x4D] →
          character x.past c = 0 → answer x.past = 0 := fun hmake => by
        rw [hbreak] at hmake
        exact nomatch hmake
      by_cases hleft : c = 0xAA
      · subst hleft
        exact h.releaseLeft_iff.trans
          ⟨fun hr => ⟨fun _ => hr, fun heq => absurd heq (by decide), hpress⟩,
          fun hfits => hfits.1 rfl⟩
      by_cases hright : c = 0xB6
      · subst hright
        exact h.releaseRight_iff.trans
          ⟨fun hl => ⟨fun heq => absurd heq (by decide), fun _ => hl, hpress⟩,
          fun hfits => hfits.2.1 rfl⟩
      · refine iff_of_true (h.silent ⟨?_, hleft⟩ ⟨?_, hright⟩ ?_ (character_break _ hbreak))
          ⟨fun heq => absurd heq hleft, fun heq => absurd heq hright, hpress⟩
        · rintro rfl
          exact absurd hbreak (by decide)
        · rintro rfl
          exact absurd hbreak (by decide)
        · rw [keyboardIsr_break h hbreak, if_neg (not_or.2 ⟨hleft, hright⟩)]
    · rw [Bool.not_eq_true] at hbreak
      have hrelease : (c = 0xAA → rightShift x.past = false) ∧
          (c = 0xB6 → leftShift x.past = false) := by
        constructor <;> · rintro rfl; exact absurd hbreak (by decide)
      by_cases hspecial : c ∈ [0x2A, 0x36, 0x4B, 0x4D]
      · refine iff_of_true ?_ ⟨hrelease.1, hrelease.2, fun _ hc => absurd hspecial hc⟩
        by_cases hshift : c = 0x2A ∨ c = 0x36
        · exact h.pressShift hshift
        obtain ⟨hleft, hright⟩ := not_or.1 hshift
        -- an arrow
        have harrow : c = 0x4B ∨ c = 0x4D := by
          simp only [List.mem_cons, List.not_mem_nil, or_false] at hspecial
          exact (hspecial.resolve_left hleft).resolve_left hright
        refine h.silent ⟨hleft, ?_⟩ ⟨hright, ?_⟩ ?_ (character_special _ hspecial)
        · rintro rfl
          exact absurd hbreak (by decide)
        · rintro rfl
          exact absurd hbreak (by decide)
        · rw [KeyboardDriverState.keyboardIsr, if_pos h.inputOn, hbreak, if_neg Bool.false_ne_true,
            if_neg hshift]
          rcases harrow with rfl | rfl <;> rfl
      · exact (h.press_iff hbreak hspecial).trans
          ⟨fun hp => ⟨hrelease.1, hrelease.2, fun _ _ => hp⟩,
            fun hfits => hfits.2.2 hbreak hspecial⟩

theorem Agrees.pollRight (h : x.Agrees) : x.PollRight := h.buffer

theorem start_agrees : start.Agrees := ⟨rfl, rfl, rfl⟩

/-- In a run of events that fit the driver stays right. -/
theorem Agrees.run {y : Keyboard} (h : x.Agrees) (hrun : Run Step Fits x y) : y.Agrees := by
  refine hrun.invariant (fun e z z' hz hfits hstep => ?_) h
  rw [hstep]
  exact hz.next_iff.2 hfits

/-- A wrong flag or a wrong character shows at a poll: at once, or when a letter has been
pressed. -/
theorem exists_wrong_poll (hon : x.driver.keyboardInputOn = true) (h : ¬ x.Agrees) :
    ∃ y, Run Step Fits x y ∧ ¬ y.PollRight := by
  by_cases hbuffer : x.driver.keyboardBuffer = answer x.past
  · have hshift : x.driver.shiftPressed ≠ (leftShift x.past || rightShift x.past) :=
      fun hshift => h ⟨hon, hshift, hbuffer⟩
    have hletter : ∀ shifted, asciiOf shifted 0x1E ≠ 0 := by decide
    have hcase : ∀ shifted shifted', shifted ≠ shifted' →
        asciiOf shifted 0x1E ≠ asciiOf shifted' 0x1E := by
      decide
    have hchar : character x.past 0x1E = asciiOf (leftShift x.past || rightShift x.past) 0x1E := rfl
    have hfits : Fits (.interrupt 0x1E) x := ⟨nofun, nofun,
      fun _ _ hnone => absurd (hchar.symm.trans hnone) (hletter _)⟩
    refine ⟨x.next (.interrupt 0x1E), .single hfits rfl, fun hright => ?_⟩
    have hdriver : (x.next (.interrupt 0x1E)).driver.keyboardBuffer =
        asciiOf x.driver.shiftPressed 0x1E := by
      rw [next]
      dsimp only
      rw [KeyboardDriverState.keyboardIsr, if_pos hon]
      rfl
    have hanswer : answer (x.next (.interrupt 0x1E)).past = character x.past 0x1E :=
      if_neg (hchar ▸ hletter _)
    exact hcase _ _ hshift (hdriver.symm.trans (hright.trans (hanswer.trans hchar)))
  · exact ⟨x, .refl, hbuffer⟩

theorem inputOn_next (e : KeyboardEvent) (h : x.driver.keyboardInputOn = true) :
    (x.next e).driver.keyboardInputOn = true := by
  cases e with
  | poll => exact h
  | interrupt c =>
    rw [next]
    dsimp only
    rw [KeyboardDriverState.keyboardIsr]
    split_ifs <;> exact h

/-- In a run of events that fit every poll answers as it should. There an event that fits keeps all
later polls right, as long as the events fit; after one that does not fit some poll is wrong. -/
theorem keyboard_answers_iff (hrun : Run Step Fits start x) :
    x.PollRight ∧ ∀ e, Fits e x ↔ ∀ y, Run Step Fits (x.next e) y → y.PollRight := by
  have hx := start_agrees.run hrun
  refine ⟨hx.pollRight, fun e => ⟨fun hfits y hy => ?_, fun hall => ?_⟩⟩
  · exact ((hx.next_iff.2 hfits).run hy).pollRight
  · by_contra hfits
    obtain ⟨y, hy, hwrong⟩ := exists_wrong_poll (inputOn_next e hx.inputOn)
      fun h' => hfits (hx.next_iff.1 h')
    exact hwrong (hall y hy)

/-- A letter is pressed. -/
theorem keyboard_answers_letter :
    Run Step Fits start (start.next (.interrupt 0x1E)) ∧ (start.next (.interrupt 0x1E)).PollRight ∧
      ∀ e, Fits e (start.next (.interrupt 0x1E)) ↔
        ∀ y, Run Step Fits ((start.next (.interrupt 0x1E)).next e) y → y.PollRight := by
  have hfits : Fits (.interrupt 0x1E) start :=
    ⟨nofun, nofun, fun _ _ hnone => absurd hnone (by decide)⟩
  have hrun : Run Step Fits start (start.next (.interrupt 0x1E)) := .single hfits rfl
  exact ⟨hrun, keyboard_answers_iff hrun⟩

/-- Both shift keys are pressed, the left one is released, and a letter is pressed: it is not a
capital one. A letter and a function key are pressed: the letter is lost. -/
theorem keyboard_answers_wrong :
    ¬ ((((start.next (.interrupt 0x2A)).next (.interrupt 0x36)).next (.interrupt 0xAA)).next
        (.interrupt 0x1E)).PollRight ∧
      ¬ ((start.next (.interrupt 0x1E)).next (.interrupt 0x3B)).PollRight := by
  unfold PollRight
  decide

end Keyboard

end OsKernel
