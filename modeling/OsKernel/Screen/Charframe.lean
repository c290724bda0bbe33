import OsKernel.Lib.Loop
import OsKernel.Fat32.Types

/-!
# The text screen

`charframe.c` keeps the characters on the screen in `charBuffer` and the cursor in `pos`, and
`graphics.c` draws them into the video memory. The handlers index `charBuffer` relative to `pos` and
do not check it: an access outside of the buffer, and a pixel outside of the screen, is a fault
here. The font is a parameter.
-/

namespace OsKernel

/-! ## Colours -/

/-- `Color16` -/
structure Color16 where
  red : Fin 32
  green : Fin 64
  blue : Fin 32

/-- `color_to_int` -/
def colorToInt (color : Color16) : UInt16 :=
  UInt16.ofNat (color.red.val + color.green.val * 32 + color.blue.val * 2048)

/-- `int_to_color` -/
def intToColor (color16 : UInt16) : Color16 where
  red := Fin.ofNat 32 color16.toNat
  green := Fin.ofNat 64 (color16.toNat / 32)
  blue := Fin.ofNat 32 (color16.toNat / 2048)

/-- `BLACK` -/
def black : Color16 := ⟨0, 0, 0⟩

/-- `WHITE` -/
def white : Color16 := ⟨31, 63, 31⟩

/-- `BLUE` -/
def blue : Color16 := ⟨31, 0, 0⟩

/-! ## State -/

/-- `pos`, `charBuffer` and the video memory. `TEXT_SIZE` is 6144, the screen has 768 times 1024
pixels. -/
structure Screen where
  pos : Int
  charBuffer : Fin 6144 → UInt8
  vidmem : Fin 786432 → UInt16

namespace Screen

/-- The screen before anything is printed. -/
def initial : Screen where
  pos := 0
  charBuffer _ := 0
  vidmem _ := 0

/-- `charBuffer[i]` -/
def charAt (s : Screen) (i : Int) : Except Fault UInt8 :=
  if h : 0 ≤ i ∧ i < 6144 then .ok (s.charBuffer ⟨i.toNat, by omega⟩)
  else .error (.charBufferIndex i)

/-- The character of a cell; nothing is outside of `charBuffer`. -/
def cell (s : Screen) (i : Int) : UInt8 :=
  if h : 0 ≤ i ∧ i < 6144 then s.charBuffer ⟨i.toNat, by omega⟩ else 0

/-- `charBuffer[i] = c` -/
def setChar (s : Screen) (i : Int) (c : UInt8) : Except Fault Screen :=
  if h : 0 ≤ i ∧ i < 6144 then
    .ok { s with charBuffer := Function.update s.charBuffer ⟨i.toNat, by omega⟩ c }
  else .error (.charBufferIndex i)

end Screen

/-- A character that has a glyph. A `char` from 128 on is negative. -/
def Printable (c : UInt8) : Prop := 32 ≤ c ∧ c ≤ 126

instance (c : UInt8) : Decidable (Printable c) := inferInstanceAs (Decidable (_ ∧ _))

/-! ## Drawing -/

/-- `draw_pixel_at` -/
def drawPixelAt (row column : Int) (color : Color16) (s : Screen) : Except Fault Screen :=
  if h : 0 ≤ row ∧ row < 768 ∧ 0 ≤ column ∧ column < 1024 then
    .ok { s with vidmem :=
      Function.update s.vidmem ⟨(row * 1024 + column).toNat, by omega⟩ (colorToInt color) }
  else .error (.pixel row column)

/-- The two loops of `draw_char_at` and `draw_null_char`, for the colours of the pixels of a
cell. -/
def drawCell (color : Nat → Nat → Color16) (row column : Int) (s : Screen) : Except Fault Screen :=
  (List.range 16).foldlM (fun (s : Screen) (y : Nat) =>
    (List.range 8).foldlM (fun (s : Screen) (x : Nat) =>
      drawPixelAt (row * 16 + (y : Int)) (column * 8 + 7 - (x : Int)) (color y x) s) s) s

/-- `draw_null_char` -/
def drawNullChar (row column : Int) (bg : Color16) (s : Screen) : Except Fault Screen :=
  drawCell (fun _ _ => bg) row column s

section Font
-- `font8x16`
variable (font : Nat → UInt8)

/-- `draw_char_at` -/
def drawCharAt (c : UInt8) (row column : Int) (fg bg : Color16) (s : Screen) :
    Except Fault Screen :=
  if ¬ Printable c then drawNullChar row column bg s
  else
    drawCell (fun y x =>
      if (font (c.toNat * 16 + y) >>> UInt8.ofNat x) &&& 1 = 1 then fg else bg) row column s

/-! ## The handlers -/

namespace Screen

/-- `next_row_index` -/
def nextRowIndex (pos : Int) : Int := (pos.tdiv 128 + 1) * 128

/-- `next_tab_index` -/
def nextTabIndex (pos : Int) : Int := (pos.tdiv 4 + 1) * 4

/-- `handle_newline` -/
def handleNewline (s : Screen) : Except Fault Screen := do
  let s ← s.setChar s.pos 0x0A
  return { s with pos := nextRowIndex s.pos }

/-- `handle_tab` -/
def handleTab (s : Screen) : Except Fault Screen := do
  let s ← s.setChar s.pos 0x09
  return { s with pos := nextTabIndex s.pos }

/-- The loop of `handle_backspace`. -/
def skipZeros : Nat → Screen → Except Fault Screen
  | 0, _ => .error .outOfSteps
  | steps + 1, s => do
    let c ← s.charAt s.pos
    if c = 0 then skipZeros steps { s with pos := s.pos - 1 }
    else return s

/-- `handle_backspace` -/
def handleBackspace (s : Screen) : Except Fault Screen :=
  if s.pos = 0 then .ok s
  else do
    let c ← s.charAt (s.pos - 1)
    if Printable c then
      let s ← s.setChar (s.pos - 1) 0
      return { s with pos := s.pos - 1 }
    else
      let s ← skipZeros 6145 s
      let c ← s.charAt s.pos
      if c ≠ 0x0A ∧ c ≠ 0x09 then return { s with pos := s.pos + 1 }
      else s.setChar s.pos 0

/-- `handle_others` -/
def handleOthers (key : UInt8) (s : Screen) : Except Fault Screen :=
  if Printable key then do
    let s ← s.setChar s.pos key
    return { s with pos := s.pos + 1 }
  else .ok s

/-- `handle_left_arrow` -/
def handleLeftArrow (s : Screen) : Except Fault Screen := do
  let c ← s.charAt (s.pos - 2)
  if c ≠ 0x2F then
    let s := { s with pos := s.pos - 1 }
    let temp ← s.charAt s.pos
    let s ← s.setChar (s.pos + 1) temp
    drawCharAt font temp ((s.pos + 1).tdiv 128) ((s.pos + 1).tmod 128) white black s
  else return s

/-- `handle_right_arrow` -/
def handleRightArrow (s : Screen) : Except Fault Screen := do
  let c ← s.charAt (s.pos + 1)
  if c ≠ 0 then
    let s := { s with pos := s.pos + 1 }
    let temp ← s.charAt s.pos
    let s ← s.setChar (s.pos - 1) temp
    drawCharAt font temp ((s.pos - 1).tdiv 128) ((s.pos - 1).tmod 128) white black s
  else return s

/-- `key_handler` -/
def keyHandler (c : UInt8) (s : Screen) : Except Fault Screen :=
  if c = 0 then .ok s
  else if c = 0x0A then s.handleNewline
  else if c = 0x09 then s.handleTab
  else if c = 0x08 then s.handleBackspace
  else s.handleOthers c

/-- `set_screen_color` -/
def setScreenColor (color : Color16) (s : Screen) : Screen :=
  { s with vidmem := fun _ => colorToInt color }

/-- `draw_title_screen`, with the image `title`. -/
def drawTitleScreen (title : Nat → UInt16) (s : Screen) : Screen :=
  { s with vidmem := fun i => title i.val }

/-- `reset_buffer` -/
def resetBuffer (s : Screen) : Screen :=
  { s with pos := 0, charBuffer := fun _ => 0 }

/-- The loop of `buffered_draw`. -/
def drawBack (fg bg : Color16) : Nat → Int → Screen → Except Fault Screen
  | 0, _, _ => .error .outOfSteps
  | steps + 1, lastPos, s =>
    if s.pos ≠ lastPos then do
      let c ← s.charAt lastPos
      let s ← drawCharAt font c (lastPos.tdiv 128) (lastPos.tmod 128) fg bg s
      drawBack fg bg steps (lastPos + if s.pos > lastPos then 1 else -1) s
    else .ok s

/-- `buffered_draw` -/
def bufferedDraw (c : UInt8) (fg bg : Color16) (s : Screen) : Except Fault Screen := do
  let lastPos := s.pos
  let s ← s.keyHandler c
  drawBack font fg bg 6145 lastPos s

/-- `putchar` -/
def putchar (c : UInt8) (textColor : UInt16) (s : Screen) : Except Fault Screen :=
  s.bufferedDraw font c (intToColor textColor) black

/-- `puts` -/
def puts (buffer : Nat → UInt8) (charCount : Int) (textColor : UInt16) (s : Screen) :
    Except Fault Screen :=
  (List.range charCount.toNat).foldlM (fun s i => s.putchar font (buffer i) textColor) s

/-- `draw_cursor`, for the value of `tick_counter`. -/
def drawCursor (tick : UInt32) (s : Screen) : Except Fault Screen :=
  drawCharAt font (if tick < 500 then 0x7C else 0x20) (s.pos.tdiv 128) (s.pos.tmod 128) blue black s

end Screen

end Font

end OsKernel
