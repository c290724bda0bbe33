import OsKernel.Lib.Traced
import OsKernel.Shell.Paths
import OsKernel.Process.Process

/-!
# The line editor of the shell

`main_state` and the functions that a keystroke runs. They record every assignment to `main_state`.
The fields lie one behind the other: an element that is written outside of its array is a byte of
another field (`ShellState.store`), and an array that is read to its end goes on with the next field
(`ShellState.load`). What is printed is left out, as it does not depend on anything that is assigned
here; the commands other than `cd` and `clear` do not assign to `main_state`, so what they do to the
kernel is a parameter.
-/

namespace OsKernel

open Lib

/-! ## `main_state` -/

/-- `struct ShellState`. `TEXT_HEIGHT*TEXT_WIDTH` is 48 times 128. -/
structure ShellState where
  userBuffer : Fin 6144 → UInt8
  userBufferPos : UInt32
  readPointer : UInt32
  currentWord : Fin 64 → UInt8
  cwdClusterNumber : UInt32
  lastIndexArrow : UInt32

/-- An assignment to `main_state`: of an element, of the first elements with `memset`, or of a
field. -/
inductive Assignment
  | userBuffer (i : Nat)
  | currentWord (i : Nat)
  | memsetUserBuffer (n : Nat)
  | memsetCurrentWord (n : Nat)
  | userBufferPos (value : UInt32)
  | readPointer (value : UInt32)
  | cwdClusterNumber (value : UInt32)

/-- A function of the shell. -/
abbrev Shell := Traced Assignment Fault

/-- The integer with the byte `k` replaced. -/
def setByte (v : UInt32) (k : Nat) (b : UInt8) : UInt32 :=
  let byte (j : Nat) : UInt8 := if j = k then b else leByte v.toNat j
  le32 (byte 0) (byte 1) (byte 2) (byte 3)

namespace ShellState

/-- The initial value of `main_state`. -/
def initial : ShellState where
  userBuffer _ := 0
  userBufferPos := 0
  readPointer := 0
  currentWord _ := 0
  cwdClusterNumber := 2
  lastIndexArrow := 0

/-- The byte at an offset in `main_state`. -/
def load (s : ShellState) (offset : Nat) : Except Fault UInt8 :=
  if h : offset < 6144 then .ok (s.userBuffer ⟨offset, h⟩)
  else if offset < 6148 then .ok (leByte s.userBufferPos.toNat (offset - 6144))
  else if offset < 6152 then .ok (leByte s.readPointer.toNat (offset - 6148))
  else if h : offset - 6152 < 64 then .ok (s.currentWord ⟨offset - 6152, h⟩)
  else if offset < 6220 then .ok (leByte s.cwdClusterNumber.toNat (offset - 6216))
  else if offset < 6224 then .ok (leByte s.lastIndexArrow.toNat (offset - 6220))
  else .error (.arrayIndex offset)

/-- A store to the byte at an offset in `main_state`. -/
def store (s : ShellState) (offset : Nat) (b : UInt8) : Except Fault ShellState :=
  if h : offset < 6144 then
    .ok { s with userBuffer := Function.update s.userBuffer ⟨offset, h⟩ b }
  else if offset < 6148 then
    .ok { s with userBufferPos := setByte s.userBufferPos (offset - 6144) b }
  else if offset < 6152 then
    .ok { s with readPointer := setByte s.readPointer (offset - 6148) b }
  else if h : offset - 6152 < 64 then
    .ok { s with currentWord := Function.update s.currentWord ⟨offset - 6152, h⟩ b }
  else if offset < 6220 then
    .ok { s with cwdClusterNumber := setByte s.cwdClusterNumber (offset - 6216) b }
  else if offset < 6224 then
    .ok { s with lastIndexArrow := setByte s.lastIndexArrow (offset - 6220) b }
  else .error (.arrayIndex offset)

/-- `main_state.userBuffer[i] = b` -/
def setUserBuffer (i : UInt32) (b : UInt8) (s : ShellState) : Shell ShellState :=
  ⟨[.userBuffer i.toNat], s.store i.toNat b⟩

/-- `main_state.currentWord[i] = b` -/
def setCurrentWord (i : Nat) (b : UInt8) (s : ShellState) : Shell ShellState :=
  ⟨[.currentWord i], s.store (6152 + i) b⟩

/-- `main_state.userBufferPos = value` -/
def setUserBufferPos (value : UInt32) (s : ShellState) : Shell ShellState :=
  ⟨[.userBufferPos value], .ok { s with userBufferPos := value }⟩

/-- `main_state.readPointer = value` -/
def setReadPointer (value : UInt32) (s : ShellState) : Shell ShellState :=
  ⟨[.readPointer value], .ok { s with readPointer := value }⟩

/-- `main_state.cwd_cluster_number = value` -/
def setCwdClusterNumber (value : UInt32) (s : ShellState) : Shell ShellState :=
  ⟨[.cwdClusterNumber value], .ok { s with cwdClusterNumber := value }⟩

/-- `memset(main_state.userBuffer, 0, TEXT_HEIGHT*TEXT_WIDTH)` -/
def memsetUserBuffer (s : ShellState) : Shell ShellState :=
  ⟨[.memsetUserBuffer 6144], .ok { s with userBuffer := fun _ => 0 }⟩

/-- `memset(main_state.currentWord, 0, 64)` -/
def memsetCurrentWord (s : ShellState) : Shell ShellState :=
  ⟨[.memsetCurrentWord 64], .ok { s with currentWord := fun _ => 0 }⟩

/-- The string `main_state.currentWord`. A word without a zero byte behind it goes on in the fields
that follow. -/
def word (s : ShellState) : Except Fault (List UInt8) :=
  cString (List.ofFn s.currentWord ++
    ((List.range 4).map (leByte s.cwdClusterNumber.toNat) ++
      (List.range 4).map (leByte s.lastIndexArrow.toNat)))

end ShellState

/-! ## Words -/

/-- `isBlank` -/
def isBlank (c : UInt8) : Bool := c == 0x20 || c == 0x0A || c == 0 || c == 0x09

/-- The first loop of `get_next_word`. -/
def skipBlanks : Nat → ShellState → Shell ShellState
  | 0, _ => .lift (.error .outOfSteps)
  | steps + 1, s => do
    let c ← .lift (s.load s.readPointer.toNat)
    if isBlank c && c != 0 then
      let s ← s.setReadPointer (s.readPointer + 1)
      skipBlanks steps s
    else return s

/-- The second loop of `get_next_word`. -/
def copyWord : Nat → Nat → ShellState → Shell ShellState
  | 0, _, _ => .lift (.error .outOfSteps)
  | steps + 1, charPointer, s => do
    let c ← .lift (s.load s.readPointer.toNat)
    if isBlank c then return s
    else
      let s ← s.setCurrentWord charPointer c
      let s ← s.setReadPointer (s.readPointer + 1)
      copyWord steps (charPointer + 1) s

/-- The number of bytes of `main_state` and one more: a loop that reads byte after byte is over
before. -/
def wordSteps : Nat := 6225

/-- `get_next_word` -/
def getNextWord (s : ShellState) : Shell ShellState := do
  let s ← s.memsetCurrentWord
  let s ← skipBlanks wordSteps s
  copyWord wordSteps 0 s

/-! ## Commands -/

/-- The commands that `cmdHandler` knows, in the order in which it compares. -/
inductive ShellCommand
  | ls
  | mkdir
  | cat
  | cd
  | rm
  | cp
  | mv
  | debug
  | find
  | clear
  | exec
  | ps
  | kill
  | invalid
  deriving DecidableEq

/-- The characters of a string literal. -/
def ascii (chars : List Char) : List UInt8 := chars.map Char.toUInt8

/-- The comparisons of `cmdHandler`. Its second one with `rm` never succeeds. -/
def shellCommand (word : List UInt8) : ShellCommand :=
  if isStrEqual word (ascii ['l', 's']) then .ls
  else if isStrEqual word (ascii ['m', 'k', 'd', 'i', 'r']) then .mkdir
  else if isStrEqual word (ascii ['c', 'a', 't']) then .cat
  else if isStrEqual word (ascii ['c', 'd']) then .cd
  else if isStrEqual word (ascii ['r', 'm']) then .rm
  else if isStrEqual word (ascii ['c', 'p']) then .cp
  else if isStrEqual word (ascii ['m', 'v']) then .mv
  else if isStrEqual word (ascii ['d', 'e', 'b', 'u', 'g']) then .debug
  else if isStrEqual word (ascii ['f', 'i', 'n', 'd']) then .find
  else if isStrEqual word (ascii ['c', 'l', 'e', 'a', 'r']) then .clear
  else if isStrEqual word (ascii ['e', 'x', 'e', 'c']) then .exec
  else if isStrEqual word (ascii ['p', 's']) then .ps
  else if isStrEqual word (ascii ['k', 'i', 'l', 'l']) then .kill
  else .invalid

/-- `isStrEqual(word, "-r")` -/
def isDashR (word : List UInt8) : Bool := isStrEqual word (ascii ['-', 'r'])

/-- A call of one of the functions for the commands, with its arguments. -/
inductive ShellCall
  | ls
  | mkdir (goal : List UInt8)
  | cat (goal : List UInt8)
  | rm (goal : List UInt8)
  | rmr (goal : List UInt8)
  | cp (goal : Fin 64 → UInt8) (dest : List UInt8)
  | mv (goal : Fin 64 → UInt8) (dest : List UInt8)
  | find (goal : List UInt8)
  | exec (filePath : List UInt8)
  | ps
  | kill (pid : List UInt8)

/-- `main_state` and the kernel. -/
structure Session where
  state : ShellState
  kernel : Kernel

/-- `get_next_word` -/
def Session.getNextWord (x : Session) : Shell Session := do
  let s ← OsKernel.getNextWord x.state
  return { x with state := s }

/-- `cd`. The result `-1` stands for a goal that is no folder. -/
def cd (goal : List UInt8) (x : Session) : Shell Session := do
  let newCluster ← .lift
    (getDeepFolderCluster x.kernel.fs (goal.length + 2) goal x.state.cwdClusterNumber)
  if newCluster = 0xFFFFFFFF then return x
  else if newCluster ≠ 0 then
    let s ← x.state.setCwdClusterNumber newCluster
    return { x with state := s }
  else return x

/-- `reset_user_buffer` -/
def resetUserBuffer (s : ShellState) : Shell ShellState := do
  let s ← s.memsetUserBuffer
  let s ← s.setUserBufferPos 0
  s.setReadPointer 0

section Handlers
-- what a function for a command does to the kernel in a given working directory
variable (perform : ShellCall → UInt32 → Kernel → Except Fault Kernel)

/-- A call of a function that does not assign to `main_state`. -/
def Session.call (call : ShellCall) (x : Session) : Shell Session := do
  let k ← .lift (perform call x.state.cwdClusterNumber x.kernel)
  return { x with kernel := k }

/-- A call with `main_state.currentWord` as the last argument. -/
def Session.callWord (call : List UInt8 → ShellCall) (x : Session) : Shell Session := do
  let goal ← .lift x.state.word
  x.call perform (call goal)

/-- `get_next_word` and a call with the word. -/
def Session.callNextWord (call : List UInt8 → ShellCall) (x : Session) : Shell Session := do
  let x ← x.getNextWord
  x.callWord perform call

/-- The body of the loop of `cmdHandler`, for the string in `main_state.currentWord`. -/
def handleCommand (word : List UInt8) (x : Session) : Shell Session :=
  match shellCommand word with
  | .ls => x.call perform .ls
  | .mkdir => x.callNextWord perform .mkdir
  | .cat => x.callNextWord perform .cat
  | .cd => do
    let x ← x.getNextWord
    let goal ← .lift x.state.word
    cd goal x
  | .rm => do
    let x ← x.getNextWord
    let option ← .lift x.state.word
    if isDashR option then x.callNextWord perform .rmr
    else x.callWord perform .rm
  | .cp => do
    let x ← x.getNextWord
    let goal := x.state.currentWord
    x.callNextWord perform (.cp goal)
  | .mv => do
    let x ← x.getNextWord
    let goal := x.state.currentWord
    x.callNextWord perform (.mv goal)
  | .debug => return x
  | .find => x.callNextWord perform .find
  | .clear => do
    let s ← x.state.memsetUserBuffer
    return { x with state := s }
  | .exec => x.callNextWord perform .exec
  | .ps => x.call perform .ps
  | .kill => x.callNextWord perform .kill
  | .invalid => return x

/-- `cmdHandler` -/
def cmdHandler : Nat → Session → Shell Session
  | 0, _ => .lift (.error .outOfSteps)
  | steps + 1, x =>
    if x.state.currentWord 0 ≠ 0 then do
      let word ← .lift x.state.word
      let x ← handleCommand perform word x
      let x ← x.getNextWord
      cmdHandler steps x
    else do
      let s ← resetUserBuffer x.state
      return { x with state := s }

/-! ## Keystrokes -/

/-- `main_state.userBuffer[main_state.userBufferPos] = c; main_state.userBufferPos++` -/
def putCharacter (c : UInt8) (s : ShellState) : Shell ShellState := do
  let s ← s.setUserBuffer s.userBufferPos c
  s.setUserBufferPos (s.userBufferPos + 1)

/-- `handle_newline` -/
def handleNewline (x : Session) : Shell Session := do
  let s ← putCharacter 0x0A x.state
  let s ← getNextWord s
  cmdHandler perform wordSteps { x with state := s }

/-- `handle_tab` -/
def handleTab (s : ShellState) : Shell ShellState := putCharacter 0x09 s

/-- `handle_others`. A `char` from 128 on is negative. -/
def handleOthers (key : UInt8) (s : ShellState) : Shell ShellState :=
  if 32 ≤ key ∧ key ≤ 126 then putCharacter key s else return s

/-- `handle_backspace` -/
def handleBackspace (s : ShellState) : Shell ShellState :=
  if s.userBufferPos = 0 then return s
  else do
    let s ← s.setUserBuffer (s.userBufferPos - 1) 0
    s.setUserBufferPos (s.userBufferPos - 1)

/-- `inputChar` -/
def inputChar (c : UInt8) (x : Session) : Shell Session :=
  if c = 0 then return x
  else if c = 0x0A then handleNewline perform x
  else do
    let s ←
      if c = 0x09 then handleTab x.state
      else if c = 0x08 then handleBackspace x.state
      else handleOthers c x.state
    return { x with state := s }

end Handlers

end OsKernel
