import OsKernel.Screen.Bounds
import OsKernel.Shell.Line

/-!
# The line on the screen

A key press changes two lines: the one in `userBuffer`, and the one that the kernel shows behind the
prompt. The shell sends every character to the screen with a system call; the arrow keys are handled
by `keyboard_isr`, and the shell does not learn of them. The two lines agree (`Console.Agrees`) as
long as no key changes only one of them (`LineKey.Fits`): a tab does, since `handle_tab` sends the
character behind it, and an arrow key does whenever it moves the cursor.
-/

namespace OsKernel

open Lib

/-- The shell and the screen. -/
structure Console where
  shell : ShellState
  screen : Screen

/-- A key that is pressed within a line. -/
inductive LineKey
  | character (c : UInt8) (h : Printable c)
  | tab
  | backspace
  | leftArrow
  | rightArrow

namespace Console

section Font
variable (font : Nat → UInt8)

/-- `syscall(5, c, color_to_int(WHITE), 0)` -/
def putchar (c : UInt8) (x : Console) : Except Fault Console := do
  let screen ← x.screen.putchar font c (colorToInt white)
  return { x with screen }

/-- `handle_tab` of the shell. -/
def handleTab (x : Console) : Except Fault Console := do
  let s ← (OsKernel.handleTab x.shell).result
  let c ← s.load s.userBufferPos.toNat
  putchar font c { x with shell := s }

/-- `handle_backspace` of the shell. -/
def handleBackspace (x : Console) : Except Fault Console :=
  if x.shell.userBufferPos = 0 then .ok x
  else do
    let s ← (OsKernel.handleBackspace x.shell).result
    putchar font 0x08 { x with shell := s }

/-- `handle_others` of the shell. -/
def handleOthers (key : UInt8) (x : Console) : Except Fault Console :=
  if Printable key then do
    let s ← (OsKernel.handleOthers key x.shell).result
    putchar font key { x with shell := s }
  else .ok x

/-- `inputChar` for the characters, `keyboard_isr` for the arrow keys. -/
def press : LineKey → Console → Except Fault Console
  | .character c _, x => x.handleOthers font c
  | .tab, x => x.handleTab font
  | .backspace, x => x.handleBackspace font
  | .leftArrow, x => do
    let screen ← x.screen.handleLeftArrow font
    return { x with screen }
  | .rightArrow, x => do
    let screen ← x.screen.handleRightArrow font
    return { x with screen }

end Font

/-! ## Agreement -/

/-- The line between the end of the prompt and the cursor. A tab stop leaves cells without a
character. -/
def shown (prompt : Int) (x : Console) : List UInt8 :=
  ((List.range (x.screen.pos - prompt).toNat).map fun k : Nat => x.screen.cell (prompt + k)).filter
    (· ≠ 0)

/-- What is shown behind the prompt of the screen `start` is the line in `userBuffer`, and the
prompt is still there. -/
structure Agrees (start : Screen) (x : Console) : Prop where
  inBuffer : x.shell.userBufferPos.toNat ≤ 6144
  behind : start.pos ≤ x.screen.pos
  shown : x.shown start.pos = x.shell.line
  prompt : ∀ i < start.pos, x.screen.cell i = start.cell i

/-- A line begins: the prompt is on the screen, and nothing is typed. -/
structure LineStart (x : Console) : Prop where
  pos : 0 ≤ x.screen.pos ∧ x.screen.pos ≤ 6144
  typed : x.shell.Typed []

end Console

/-- The key changes both lines, or none: there is room on the screen for a character; an arrow key
does not move the cursor, as the one to the left does not behind a slash and the one to the right
not in front of an empty cell. -/
def LineKey.Fits (key : LineKey) (x : Console) : Prop :=
  match key with
  | .character _ _ => x.screen.pos < 6144
  | .tab => False
  | .backspace => x.shell.userBufferPos = 0 ∨ x.screen.pos < 6144
  | .leftArrow => 2 ≤ x.screen.pos ∧ x.screen.cell (x.screen.pos - 2) = 0x2F
  | .rightArrow => x.screen.pos < 6143 ∧ x.screen.cell (x.screen.pos + 1) = 0

/-- A key press that completes. -/
def LineKey.Step (font : Nat → UInt8) (key : LineKey) (x x' : Console) : Prop :=
  x.press font key = .ok x'

namespace Console
variable {x x' : Console} {start : Screen} {line : List UInt8} {font : Nat → UInt8} {c : UInt8}

/-- Both lines are `line`, character by character. -/
structure Synced (start : Screen) (line : List UInt8) (x : Console) : Prop where
  range : 0 ≤ start.pos ∧ x.screen.pos ≤ 6144
  typed : x.shell.Typed line
  printable : ∀ c ∈ line, Printable c
  pos : x.screen.pos = start.pos + line.length
  cells : ∀ k < line.length, x.screen.cell (start.pos + k) = line.getD k 0
  prompt : ∀ i < start.pos, x.screen.cell i = start.cell i

/-- The cells that hold a character are shown as they are. -/
theorem shown_eq {prompt : Int} {n : Nat} (hpos : x.screen.pos = prompt + n)
    (hcells : ∀ k < n, x.screen.cell (prompt + k) ≠ 0) :
    x.shown prompt = (List.range n).map fun k : Nat => x.screen.cell (prompt + k) := by
  have hn : (x.screen.pos - prompt).toNat = n := by omega
  rw [Console.shown, hn, List.filter_eq_self]
  intro c hc
  obtain ⟨k, hk, rfl⟩ := List.mem_map.1 hc
  exact decide_eq_true (hcells k (List.mem_range.1 hk))

theorem Synced.cell_ne_zero (h : x.Synced start line) {k : Nat} (hk : k < line.length) :
    x.screen.cell (start.pos + k) ≠ 0 := by
  rw [h.cells k hk, List.getD_eq_getElem _ _ hk]
  intro hzero
  have hp := h.printable _ (List.getElem_mem hk)
  rw [hzero] at hp
  exact absurd hp (by decide)

theorem Synced.pos_nonneg (h : x.Synced start line) : 0 ≤ x.screen.pos := by
  have hrange := h.range
  rw [h.pos]
  omega

theorem Synced.agrees (h : x.Synced start line) : x.Agrees start where
  inBuffer := h.typed.pos ▸ h.typed.length_le
  behind := by
    rw [h.pos]
    omega
  shown := by
    rw [shown_eq h.pos fun k hk => h.cell_ne_zero hk, h.typed.line_eq]
    refine List.ext_getElem (by simp) fun i hi hi' => ?_
    rw [List.getElem_map, List.getElem_range, h.cells i hi', List.getD_eq_getElem _ _ hi']
  prompt := h.prompt

theorem LineStart.synced (h : x.LineStart) : x.Synced x.screen [] where
  range := h.pos
  typed := h.typed
  printable := fun _ hc => nomatch hc
  pos := (Int.add_zero _).symm
  cells := fun _ hk => nomatch hk
  prompt := fun _ _ => rfl

/-! ## Key presses -/

/-- A character that fits is added to both lines. -/
theorem Synced.character (font : Nat → UInt8) (h : x.Synced start line) (hc : Printable c)
    (hroom : x.screen.pos < 6144) :
    ∃ x', x.handleOthers font c = .ok x' ∧ x'.Synced start (line ++ [c]) := by
  obtain ⟨hstart, -⟩ := h.range
  have hpos := h.pos
  obtain ⟨s', hput, htyped, -⟩ := h.typed.put (c := c) (by omega)
  have hin : x.screen.InRange := ⟨by omega, hroom⟩
  obtain ⟨t, hkey, htpos, htcell⟩ := Screen.handleOthers_eq hin hc
  obtain ⟨u, hdraw, hu⟩ := Screen.putchar_ok (c := c) font (colorToInt white) hin
    ((Screen.keyHandler_printable hc).trans hkey)
  have hshell : (OsKernel.handleOthers c x.shell).result = .ok s' := by
    rw [OsKernel.handleOthers, if_pos (show 32 ≤ c ∧ c ≤ 126 from hc)]
    exact hput.result
  refine ⟨⟨s', u⟩, ?_, ⟨⟨hstart, ?_⟩, htyped, ?_, ?_, ?_, ?_⟩⟩
  · rw [handleOthers, if_pos hc, hshell, ok_bind, putchar, hdraw]
    rfl
  · rw [hu.pos, htpos]
    omega
  · intro d hd
    rcases List.mem_append.1 hd with hd | hd
    · exact h.printable d hd
    · exact List.mem_singleton.1 hd ▸ hc
  · rw [hu.pos, htpos, hpos, List.length_append]
    push_cast
    exact Int.add_assoc _ _ _
  · intro k hk
    rw [List.length_append] at hk
    rw [hu.cell, htcell, ShellState.getD_concat, hpos]
    by_cases hlast : k = line.length
    · rw [if_pos hlast, if_pos (by omega)]
    · rw [if_neg hlast, if_neg (by omega), h.cells k (by simp at hk; omega)]
  · intro i hi
    rw [hu.cell, htcell, if_neg (by omega), h.prompt i hi]

/-- A backspace takes the last character from both lines. -/
theorem Synced.backspace (font : Nat → UInt8) (h : x.Synced start (line ++ [c]))
    (hroom : x.screen.pos < 6144) :
    ∃ x', x.handleBackspace font = .ok x' ∧ x'.Synced start line := by
  obtain ⟨hstart, -⟩ := h.range
  have hpos : x.screen.pos = start.pos + line.length + 1 := by
    rw [h.pos, List.length_append]
    push_cast
    exact (Int.add_assoc _ _ _).symm
  have hne : x.shell.userBufferPos ≠ 0 := by
    intro heq
    have hlen := h.typed.pos
    rw [heq, List.length_append] at hlen
    exact nomatch hlen
  obtain ⟨s', herase, htyped, -⟩ := h.typed.erase
  have hlast : x.screen.cell (x.screen.pos - 1) = c := by
    have hcell := h.cells line.length (by simp)
    rw [ShellState.getD_concat, if_pos rfl] at hcell
    rw [← hcell]
    exact congrArg _ (by omega)
  have hc : Printable (x.screen.cell (x.screen.pos - 1)) := hlast ▸ h.printable c (by simp)
  obtain ⟨t, hkey, htpos, htcell⟩ := Screen.handleBackspace_printable (by omega) hc
  obtain ⟨u, hdraw, hu⟩ := Screen.putchar_ok (c := 0x08) font (colorToInt white)
    ⟨by omega, hroom⟩ hkey
  refine ⟨⟨s', u⟩, ?_, ⟨⟨hstart, ?_⟩, htyped, ?_, ?_, ?_, ?_⟩⟩
  · rw [handleBackspace, if_neg hne, herase.result, ok_bind, putchar, hdraw]
    rfl
  · rw [hu.pos, htpos]
    omega
  · exact fun d hd => h.printable d (List.mem_append_left _ hd)
  · rw [hu.pos, htpos]
    omega
  · intro k hk
    rw [hu.cell, htcell, if_neg (by omega), h.cells k (by simp; omega), ShellState.getD_concat,
      if_neg hk.ne]
  · intro i hi
    rw [hu.cell, htcell, if_neg (by omega), h.prompt i hi]

/-- The run of a key that fits. -/
theorem Synced.step (font : Nat → UInt8) (h : x.Synced start line) {key : LineKey}
    (hfits : key.Fits x) :
    ∃ x' line', x.press font key = .ok x' ∧ x'.Synced start line' := by
  cases key with
  | character c hc =>
    obtain ⟨x', hrun, hx'⟩ := h.character font hc hfits
    exact ⟨x', _, hrun, hx'⟩
  | tab => exact hfits.elim
  | backspace =>
    rcases List.eq_nil_or_concat' line with rfl | ⟨l, c, rfl⟩
    · have hpos : x.shell.userBufferPos = 0 := UInt32.toNat_inj.1 h.typed.pos
      exact ⟨x, [], if_pos hpos, h⟩
    · rcases hfits with hzero | hroom
      · have hlen := h.typed.pos
        rw [hzero] at hlen
        simp at hlen
      · obtain ⟨x', hrun, hx'⟩ := h.backspace font hroom
        exact ⟨x', l, hrun, hx'⟩
  | leftArrow =>
    refine ⟨x, line, ?_, h⟩
    rw [press, Screen.handleLeftArrow_slash ⟨hfits.1, h.range.2⟩ hfits.2]
    rfl
  | rightArrow =>
    refine ⟨x, line, ?_, h⟩
    rw [press, Screen.handleRightArrow_zero ⟨h.pos_nonneg, hfits.1⟩ hfits.2]
    rfl

/-! ## Keys that change one line only -/

theorem shown_length_le (prompt : Int) (x : Console) :
    (x.shown prompt).length ≤ (x.screen.pos - prompt).toNat := by
  refine (List.length_filter_le _ _).trans ?_
  rw [List.length_map, List.length_range]

/-- In agreement the lines are of one length. -/
theorem Agrees.length (h : x.Agrees start) :
    (x.shown start.pos).length = x.shell.userBufferPos.toNat := by
  rw [h.shown, ShellState.line, List.length_take, List.length_ofFn]
  exact Nat.min_eq_left h.inBuffer

theorem putchar_shell (h : x.putchar font c = .ok x') : x'.shell = x.shell := by
  obtain ⟨s, -, h⟩ := bind_eq_ok.1 h
  cases h
  rfl

/-- The screen shows as many characters as it did, and the shell has another number. -/
theorem Synced.not_agrees (h : x.Synced start line) (hscreen : x'.screen = x.screen)
    (hlen : x'.shell.userBufferPos.toNat ≠ line.length) : ¬ x'.Agrees start := by
  intro hagrees
  have hshown : x'.shown start.pos = x.shown start.pos := by
    rw [Console.shown, Console.shown, hscreen]
  refine hlen ?_
  rw [← hagrees.length, hshown, h.agrees.length, h.typed.pos]

/-- `handle_tab` sends the character behind the tab, which is zero. -/
theorem handleTab_eq (font : Nat → UInt8) (h : x.shell.Typed line) (hlt : line.length < 6144) :
    ∃ s', x.handleTab font = .ok { x with shell := s' } ∧ s'.Typed (line ++ [0x09]) := by
  obtain ⟨s', hput, htyped, -⟩ := h.put (c := 0x09) hlt
  have hload : s'.load s'.userBufferPos.toNat = .ok 0 := by
    rw [htyped.pos]
    exact htyped.load_end
  have htab : (OsKernel.handleTab x.shell).result = .ok s' := hput.result
  refine ⟨s', ?_, htyped⟩
  rw [handleTab, htab, ok_bind, hload, ok_bind, putchar, Screen.putchar_zero]
  rfl

/-- A tab changes only the line of the shell. -/
theorem Synced.tab_diverges (h : x.Synced start line) (hrun : x.handleTab font = .ok x') :
    ¬ x'.Agrees start := by
  have hpos := h.typed.pos
  rcases h.typed.length_le.lt_or_eq with hlt | hfull
  · obtain ⟨s', htab, htyped⟩ := handleTab_eq font h.typed hlt
    rw [htab] at hrun
    cases hrun
    refine h.not_agrees rfl ?_
    rw [htyped.pos, List.length_append]
    exact Nat.succ_ne_self _
  · -- the tab is stored to `userBufferPos` itself
    have hfull : x.shell.userBufferPos = 6144 := UInt32.toNat_inj.1 (hpos.trans hfull)
    rw [handleTab, OsKernel.handleTab, ShellState.putCharacter_full hfull, ok_bind] at hrun
    obtain ⟨c, -, hrun⟩ := bind_eq_ok.1 hrun
    intro hagrees
    have hin := hagrees.inBuffer
    rw [putchar_shell hrun] at hin
    have hpast : ¬ (setByte 6144 0 0x09 + 1).toNat ≤ 6144 := by decide
    exact hpast hin

/-- A key that does not fit does not complete, or breaks the agreement. -/
theorem Synced.diverges (h : x.Synced start line) {key : LineKey} (hfits : ¬ key.Fits x)
    (hrun : x.press font key = .ok x') : ¬ x'.Agrees start := by
  obtain ⟨hstart, hend⟩ := h.range
  have hpos := h.pos
  cases key with
  | character c hc =>
    have hlast : x.screen.pos = 6144 := le_antisymm hend (not_lt.1 hfits)
    rw [press, handleOthers, if_pos hc] at hrun
    obtain ⟨s', -, hrun⟩ := bind_eq_ok.1 hrun
    rw [putchar, Screen.putchar_end hlast hc] at hrun
    cases hrun
  | tab => exact h.tab_diverges hrun
  | backspace =>
    obtain ⟨hne, hroom⟩ := not_or.1 hfits
    have hlast : x.screen.pos = 6144 := le_antisymm hend (not_lt.1 hroom)
    have hlen : line.length ≠ 0 := fun hzero => hne (UInt32.toNat_inj.1 (h.typed.pos.trans hzero))
    have hc : Printable (x.screen.cell 6143) := by
      have hcell := h.cells (line.length - 1) (by omega)
      rw [List.getD_eq_getElem _ _ (by omega)] at hcell
      rw [show (6143 : Int) = start.pos + (line.length - 1 : Nat) by omega, hcell]
      exact h.printable _ (List.getElem_mem _)
    rw [press, handleBackspace, if_neg hne] at hrun
    obtain ⟨s', -, hrun⟩ := bind_eq_ok.1 hrun
    rw [putchar, Screen.putchar_backspace_end hlast hc] at hrun
    cases hrun
  | leftArrow =>
    rw [press] at hrun
    rcases lt_or_ge x.screen.pos 2 with hlt | hge
    · rw [Screen.handleLeftArrow_error hlt] at hrun
      cases hrun
    have hc : x.screen.cell (x.screen.pos - 2) ≠ 0x2F := fun hc => hfits ⟨hge, hc⟩
    rcases hend.lt_or_eq with hlt | hlast
    · obtain ⟨t, hmove, htpos, -⟩ := Screen.handleLeftArrow_moves font ⟨hge, hlt⟩ hc
      rw [hmove] at hrun
      cases hrun
      intro hagrees
      have hshown := shown_length_le start.pos { x with screen := t }
      rw [hagrees.length] at hshown
      have hbehind := hagrees.behind
      dsimp only at hshown hbehind
      rw [htpos] at hshown hbehind
      rw [h.typed.pos] at hshown
      omega
    · rw [Screen.handleLeftArrow_end hlast hc] at hrun
      cases hrun
  | rightArrow =>
    rw [press] at hrun
    rcases lt_or_ge x.screen.pos 6143 with hlt | hge
    · have hc : x.screen.cell (x.screen.pos + 1) ≠ 0 := fun hc => hfits ⟨hlt, hc⟩
      obtain ⟨t, hmove, htpos, htcell⟩ :=
        Screen.handleRightArrow_moves font ⟨h.pos_nonneg, hlt⟩ hc
      rw [hmove] at hrun
      cases hrun
      intro hagrees
      -- the copied character is shown
      have hcells : ∀ k < line.length + 1, t.cell (start.pos + k) ≠ 0 := by
        intro k hk
        rw [htcell]
        split
        · exact hc
        · exact h.cell_ne_zero (by omega)
      have hshown := hagrees.length
      rw [shown_eq (n := line.length + 1) (by dsimp only; push_cast; omega) hcells, List.length_map,
        List.length_range] at hshown
      dsimp only at hshown
      rw [h.typed.pos] at hshown
      omega
    · rw [Screen.handleRightArrow_error hge] at hrun
      cases hrun

/-! ## Agreement over a line -/

/-- In a run of keys that fit, what is on the screen is what is in `userBuffer`, and the prompt is
left alone; a further key keeps it so exactly when it fits. -/
theorem lines_agree_iff (font : Nat → UInt8) (x x' : Console) (h : x.LineStart)
    (hrun : Run (LineKey.Step font) LineKey.Fits x x') :
    x'.Agrees x.screen ∧
      ∀ key : LineKey, (∃ x'', x'.press font key = .ok x'' ∧ x''.Agrees x.screen) ↔
          key.Fits x' := by
  obtain ⟨line, hsynced⟩ : ∃ line, x'.Synced x.screen line := by
    refine hrun.invariant (I := fun y => ∃ line, y.Synced x.screen line)
      (fun key y y' ⟨line, hy⟩ hfits hstep => ?_) ⟨[], h.synced⟩
    obtain ⟨y'', line', hpress, hy''⟩ := hy.step font hfits
    rw [LineKey.Step, hpress] at hstep
    cases hstep
    exact ⟨line', hy''⟩
  refine ⟨hsynced.agrees, fun key => ⟨fun ⟨x'', hpress, hagrees⟩ => ?_, fun hfits => ?_⟩⟩
  · by_contra hfits
    exact hsynced.diverges hfits hpress hagrees
  · obtain ⟨x'', line', hpress, hx''⟩ := hsynced.step font hfits
    exact ⟨x'', hpress, hx''.agrees⟩

theorem initial_typed : ShellState.initial.Typed [] where
  length_le := Nat.zero_le _
  pos := rfl
  buffer _ := rfl

/-- A prompt of 19 characters. -/
def prompted : Console where
  shell := .initial
  screen := { Screen.initial with pos := 19, charBuffer := fun i => if i < 19 then 0x3E else 0 }

instance (key : LineKey) (x : Console) : Decidable (key.Fits x) :=
  match key with
  | .character _ _ => inferInstanceAs (Decidable (x.screen.pos < 6144))
  | .tab => inferInstanceAs (Decidable False)
  | .backspace => inferInstanceAs (Decidable (x.shell.userBufferPos = 0 ∨ x.screen.pos < 6144))
  | .leftArrow =>
    inferInstanceAs (Decidable (2 ≤ x.screen.pos ∧ x.screen.cell (x.screen.pos - 2) = 0x2F))
  | .rightArrow =>
    inferInstanceAs (Decidable (x.screen.pos < 6143 ∧ x.screen.cell (x.screen.pos + 1) = 0))

/-- `rm abc`, and a backspace. -/
def removeKeys : List LineKey :=
  [.character 0x72 (by decide), .character 0x6D (by decide), .character 0x20 (by decide),
    .character 0x61 (by decide), .character 0x62 (by decide), .character 0x63 (by decide),
    .backspace]

/-- The console after them. -/
def removeTyped : Option Console :=
  runAll LineKey.Fits (fun key x => (x.press (fun _ => 0) key).toOption) removeKeys prompted

/-- A command and a word are typed behind the prompt, and the last letter is taken back. -/
theorem lines_agree_typed :
    ∃ x', removeTyped = some x' ∧ x'.shell.line = [0x72, 0x6D, 0x20, 0x61, 0x62] ∧
      x'.Agrees prompted.screen ∧
      ∀ key : LineKey, (∃ x'', x'.press (fun _ => 0) key = .ok x'' ∧ x''.Agrees prompted.screen) ↔
        key.Fits x' := by
  have hline : removeTyped.map (·.shell.line) = some [0x72, 0x6D, 0x20, 0x61, 0x62] := by
    decide +kernel
  obtain ⟨x', hx', hl⟩ := Option.map_eq_some_iff.1 hline
  have hstart : prompted.LineStart := ⟨by decide, initial_typed⟩
  have hrun : Run (LineKey.Step fun _ => 0) LineKey.Fits prompted x' :=
    .of_runAll id (fun _ _ h => h) (fun _ _ _ => toOption_eq_some.1) hx'
  exact ⟨x', hx', hl, lines_agree_iff (fun _ => 0) prompted x' hstart hrun⟩

/-- A tab is in the line and not on the screen, and a backspace behind it takes a character of the
prompt. -/
theorem tab_takes_prompt :
    prompted.LineStart ∧ ∃ x x', LineKey.Step (fun _ => 0) .tab prompted x ∧ x.shell.line = [0x09] ∧
      x.shown 19 = [] ∧ LineKey.Step (fun _ => 0) .backspace x x' ∧ x'.shell.line = [] ∧
      x'.screen.pos = 18 := by
  have hstart : prompted.LineStart := ⟨by decide, initial_typed⟩
  obtain ⟨s, htab, htyped⟩ := handleTab_eq (x := prompted) (fun _ => 0) initial_typed (by decide)
  obtain ⟨s', herase, htyped', -⟩ := htyped.erase
  have hne : s.userBufferPos ≠ 0 := fun heq => by
    have hlen := htyped.pos
    rw [heq] at hlen
    exact nomatch hlen
  -- the screen takes the character in front of the cursor, which is the prompt's
  have hc : Printable (prompted.screen.cell (prompted.screen.pos - 1)) := by decide
  obtain ⟨t, hkey, ht, -⟩ := Screen.handleBackspace_printable (s := prompted.screen) (by decide) hc
  obtain ⟨u, hdraw, hu⟩ := Screen.putchar_ok (s := prompted.screen) (c := 0x08) (fun _ => 0)
    (colorToInt white) (by decide) hkey
  refine ⟨hstart, _, ⟨s', u⟩, htab, htyped.line_eq, rfl, ?_, htyped'.line_eq, hu.pos.trans ht⟩
  rw [LineKey.Step, press, handleBackspace, if_neg hne, herase.result, ok_bind, putchar, hdraw]
  rfl

end Console

end OsKernel
