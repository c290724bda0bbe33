import OsKernel.Lib.Run
import OsKernel.Shell.Reading

/-!
# Typing

Which words `cmdHandler` reads is decided by the words before them (`handled`). A keystroke assigns
inside of the arrays of `main_state` exactly when there is room for its character and, at a newline,
each word that is read fits into `currentWord` (`KeyFits`). Each command is followed from the words
that are ahead of it to the ones behind its arguments (`handleCommand_decides`), the loop of
`cmdHandler` from one command to the next (`cmdHandler_decides`).
-/

namespace OsKernel

open Lib

/-! ## The words that are read -/

/-- What `cmdHandler` reads next: a command, the option or the goal of `rm`, or an argument. After
`clear` there is no word left. -/
inductive Reads
  | command
  | option
  | argument (next : Reads)
  | nothing

/-- What is read after a command. -/
def ShellCommand.reads : ShellCommand → Reads
  | .ls | .debug | .ps | .invalid => .command
  | .mkdir | .cat | .cd | .find | .exec | .kill => .argument .command
  | .cp | .mv => .argument (.argument .command)
  | .rm => .option
  | .clear => .nothing

/-- The words of a line that are read. -/
def handled : Reads → List (List UInt8) → List (List UInt8)
  | .command, w :: ws => w :: handled (shellCommand w).reads ws
  | .option, w :: ws => w :: handled (if isDashR w then .argument .command else .command) ws
  | .argument next, w :: ws => w :: handled next ws
  | .nothing, _ => []
  | _, [] => []

/-- Every word has at most 64 characters. -/
def FitAll (ws : List (List UInt8)) : Prop := ∀ w ∈ ws, w.length ≤ 64

/-- The keystroke assigns inside of the arrays of `main_state`. -/
def KeyFits (c : UInt8) (x : Session) : Prop :=
  if c = 0x0A then
    x.state.userBufferPos.toNat < 6144 ∧ FitAll (handled .command (words isBlank x.state.line))
  else if c = 0x09 ∨ 32 ≤ c ∧ c ≤ 126 then x.state.userBufferPos.toNat < 6144
  else True

instance (ws : List (List UInt8)) : Decidable (FitAll ws) :=
  inferInstanceAs (Decidable (∀ w ∈ ws, w.length ≤ 64))

instance (c : UInt8) (x : Session) : Decidable (KeyFits c x) :=
  inferInstanceAs (Decidable (if c = 0x0A then
    x.state.userBufferPos.toNat < 6144 ∧ FitAll (handled .command (words isBlank x.state.line))
  else if c = 0x09 ∨ 32 ≤ c ∧ c ≤ 126 then x.state.userBufferPos.toNat < 6144
  else True))

section Commands
variable (perform : ShellCall → UInt32 → Kernel → Except Fault Kernel)

/-- A keystroke that completes. -/
def KeyStep (c : UInt8) (x x' : Session) : Prop := (inputChar perform c x).result = .ok x'

/-- A failure of a command: of the function that performs it, or of the resolution of the goal of
`cd`, which does not run out of steps (`getDeepFolderCluster_ends`). -/
inductive CommandFault : Fault → Prop
  | perform {e : Fault} {call : ShellCall} {cwd : UInt32} {k : Kernel} :
    perform call cwd k = .error e → CommandFault e
  | folder {e : Fault} {fs : FileSystem} {goal : List UInt8} {cwd : UInt32} : e ≠ .outOfSteps →
    getDeepFolderCluster fs (goal.length + 2) goal cwd = .error e → CommandFault e

variable {perform} {x y : Session} {w word : List UInt8} {ws : List (List UInt8)} {k : Reads}

/-! ## The words behind a command -/

/-- The words that a command reads. -/
def taken : Reads → List (List UInt8) → List (List UInt8)
  | .option, ws =>
    if isDashR (ws.headD []) then [ws.headD [], ws.tail.headD []] else [ws.headD []]
  | .argument next, ws => ws.headD [] :: taken next ws.tail
  | _, _ => []

/-- The words that are ahead after it. -/
def after : Reads → List (List UInt8) → List (List UInt8)
  | .command, ws => ws
  | .option, ws => if isDashR (ws.headD []) then ws.tail.tail else ws.tail
  | .argument next, ws => after next ws.tail
  | .nothing, _ => []

@[simp] theorem handled_nil (k : Reads) : handled k [] = [] := by
  cases k <;> rfl

theorem fitAll_cons : FitAll (w :: ws) ↔ w.length ≤ 64 ∧ FitAll ws := List.forall_mem_cons

theorem fitAll_nil : FitAll [] := fun _ h => nomatch h

theorem fitAll_command (ws : List (List UInt8)) :
    FitAll (handled .command ws) ↔
      (ws.headD []).length ≤ 64 ∧ FitAll (handled (shellCommand (ws.headD [])).reads ws.tail) := by
  cases ws with
  | nil => simp [fitAll_nil]
  | cons w ws => exact fitAll_cons

theorem fitAll_argument (ws : List (List UInt8)) :
    FitAll (handled (.argument k) ws) ↔ (ws.headD []).length ≤ 64 ∧ FitAll (handled k ws.tail) := by
  cases ws with
  | nil => simp [fitAll_nil]
  | cons w ws => exact fitAll_cons

theorem fitAll_option (ws : List (List UInt8)) :
    FitAll (handled .option ws) ↔ (ws.headD []).length ≤ 64 ∧
      FitAll
        (handled (if isDashR (ws.headD []) then .argument .command else .command) ws.tail) := by
  cases ws with
  | nil => simp [fitAll_nil]
  | cons w ws => exact fitAll_cons

/-- The words of a line fit when the ones of its first command do, and the ones behind them. -/
theorem fitAll_handled (k : Reads) (ws : List (List UInt8)) :
    FitAll (handled k ws) ↔ FitAll (taken k ws) ∧ FitAll (handled .command (after k ws)) := by
  induction k generalizing ws with
  | command => exact (and_iff_right fitAll_nil).symm
  | nothing => simp [taken, after, fitAll_nil, handled]
  | argument next ih => rw [fitAll_argument, ih, taken, fitAll_cons, and_assoc]; rfl
  | option =>
    rw [fitAll_option, taken, after]
    split
    · rw [fitAll_argument, fitAll_cons, fitAll_cons, and_iff_left fitAll_nil, and_assoc]
    · rw [fitAll_cons, and_iff_left fitAll_nil]

theorem length_after_le (k : Reads) (ws : List (List UInt8)) : (after k ws).length ≤ ws.length := by
  induction k generalizing ws with
  | command => exact le_rfl
  | nothing => exact Nat.zero_le _
  | argument next ih => exact (ih ws.tail).trans (by simp)
  | option =>
    rw [after]
    split <;> simp only [List.length_tail] <;> omega

/-! ## The name of a command -/

/-- No command has a long name. -/
theorem shellCommand_long (h : 6 ≤ word.length) (h' : word.length < 256) :
    shellCommand word = .invalid := by
  have hne : ∀ str : List UInt8, str.length < 6 → isStrEqual word str = false := by
    intro str hstr
    rw [← Bool.not_eq_true, isStrEqual_of_lt h' (by omega)]
    exact fun heq => by rw [heq] at h; omega
  simp [shellCommand, hne, ascii]

theorem isDashR_long (h : 6 ≤ word.length) (h' : word.length < 256) : isDashR word = false := by
  rw [← Bool.not_eq_true, isDashR, isStrEqual_of_lt h' (by decide)]
  intro heq
  rw [heq] at h
  exact absurd h (by decide)

/-! ## The commands -/

/-- The session is in front of the words `ws`. -/
structure Session.Ready (ws : List (List UInt8)) (x : Session) : Prop where
  ahead : x.state.Ahead ws
  last : x.state.lastIndexArrow = 0

/-- The string in `currentWord` is taken for the same command as the word. -/
theorem word_decides (hw : x.state.Holding w) (hlast : x.state.lastIndexArrow = 0) :
    Traced.Decides Assignment.InRange (CommandFault perform) True
      (fun t word => t = [] ∧ shellCommand word = shellCommand w ∧ isDashR word = isDashR w)
      (.lift x.state.word) := by
  obtain ⟨v, hword, hv, hshort⟩ := hw.word_eq hlast
  have hle := hw.length_le
  refine .lift (fun word h => ?_) fun e h => ?_
  · rw [hword] at h
    cases h
    rcases hle.lt_or_eq with hlt | hfull
    · rw [hshort hlt, List.append_nil]
      exact ⟨rfl, rfl, rfl⟩
    · have hlong : 6 ≤ (w ++ v).length ∧ (w ++ v).length < 256 := by
        rw [List.length_append]
        omega
      rw [shellCommand_long hlong.1 hlong.2, shellCommand_long (by omega) (by omega),
        isDashR_long hlong.1 hlong.2, isDashR_long (by omega) (by omega)]
      exact ⟨rfl, rfl, rfl⟩
  · rw [hword] at h
    exact nomatch h

theorem Session.Ready.getNextWord (h : x.Ready ws) :
    Traced.Decides Assignment.InRange (CommandFault perform) ((ws.headD []).length ≤ 64)
      (fun t y => y.Ready ws.tail ∧ x.state.Follows t y.state ∧ y.state.Holding (ws.headD []))
      x.getNextWord := by
  have hread := h.ahead.getNextWord (F := CommandFault perform)
  refine (hread.bind (q := True) fun _ t s ⟨hs, hf, hw⟩ => ?_).congr (and_iff_left trivial)
  refine (Traced.Returns.pure _).decides ⟨⟨hs, hf.lastIndexArrow.trans h.last⟩, ?_, hw⟩
  exact (List.append_nil t).symm ▸ hf

theorem Session.call_decides (call : ShellCall) (x : Session) :
    Traced.Decides Assignment.InRange (CommandFault perform) True
      (fun t y => t = [] ∧ y.state = x.state) (x.call perform call) := by
  have hlift : Traced.Decides Assignment.InRange (CommandFault perform) True (fun t _ => t = [])
      (.lift (perform call x.state.cwdClusterNumber x.kernel)) :=
    .lift (fun _ _ => rfl) fun e he => .perform he
  refine hlift.bind_true fun t k ht => ?_
  rw [ht]
  exact (Traced.Returns.pure _).decides ⟨rfl, rfl⟩

theorem Session.callWord_decides (call : List UInt8 → ShellCall) (hw : x.state.Holding w)
    (hlast : x.state.lastIndexArrow = 0) :
    Traced.Decides Assignment.InRange (CommandFault perform) True
      (fun t y => t = [] ∧ y.state = x.state) (x.callWord perform call) := by
  refine (word_decides hw hlast).bind_true fun t word ⟨ht, _⟩ => ?_
  rw [ht]
  exact Session.call_decides (call word) x

theorem Session.Ready.callNextWord (h : x.Ready ws) (call : List UInt8 → ShellCall) :
    Traced.Decides Assignment.InRange (CommandFault perform) ((ws.headD []).length ≤ 64)
      (fun t y => y.Ready ws.tail ∧ x.state.Follows t y.state) (x.callNextWord perform call) := by
  refine (h.getNextWord.bind (q := True) fun _ t y ⟨hy, hf, hw⟩ => ?_).congr (and_iff_left trivial)
  refine (Session.callWord_decides call hw hy.last).mono fun _ t' z ⟨ht, hz⟩ => ?_
  rw [ht, List.append_nil]
  exact ⟨⟨hz ▸ hy.ahead, hz ▸ hy.last⟩, hz ▸ hf⟩

/-- `cd` changes the working directory, and records it. -/
theorem Session.Ready.cd (h : x.Ready ws) (goal : List UInt8) :
    Traced.Decides Assignment.InRange (CommandFault perform) True
      (fun t y => y.Ready ws ∧ x.state.Follows t y.state) (cd goal x) := by
  have hsame : Traced.Decides Assignment.InRange (CommandFault perform) True
      (fun t y => y.Ready ws ∧ x.state.Follows t y.state) (pure x) :=
    (Traced.Returns.pure x).decides ⟨h, .refl _⟩
  have hlift : Traced.Decides Assignment.InRange (CommandFault perform) True
      (fun t _ => t = [])
      (.lift (getDeepFolderCluster x.kernel.fs (goal.length + 2) goal x.state.cwdClusterNumber)) :=
    .lift (fun _ _ => rfl) fun e he =>
      .folder (fun heq => getDeepFolderCluster_ends (by omega) (heq ▸ he)) he
  refine hlift.bind_true fun t newCluster ht => ?_
  rw [ht]
  split
  · exact hsame
  split
  · next hfail hzero =>
    have hset : Traced.Returns Assignment.InRange (x.state.setCwdClusterNumber newCluster)
        { x.state with cwdClusterNumber := newCluster } := by
      refine ⟨rfl, fun a ha => ?_⟩
      rw [List.mem_singleton.1 ha]
      exact ⟨hfail, hzero⟩
    obtain ⟨rest, hread, hws⟩ := h.ahead
    refine Traced.Returns.decides (hset.bind (.pure _)) ?_
    exact ⟨⟨⟨rest, ⟨hread.bound, hread.pos_le, hread.ne_zero, hread.buffer⟩, hws⟩, h.last⟩, rfl,
      rfl⟩
  · exact hsame

/-- `clear` leaves no word. -/
theorem Session.Ready.clear (h : x.Ready ws) :
    Traced.Decides Assignment.InRange (CommandFault perform) True
      (fun t y => y.Ready [] ∧ x.state.Follows t y.state) (do
        let s ← x.state.memsetUserBuffer
        return { x with state := s }) := by
  obtain ⟨rest, hread, -⟩ := h.ahead
  have hbound := hread.bound
  have hset : Traced.Returns Assignment.InRange x.state.memsetUserBuffer
      { x.state with userBuffer := fun _ => 0 } := by
    refine ⟨rfl, fun a ha => ?_⟩
    rw [List.mem_singleton.1 ha]
    exact le_refl 6144
  refine Traced.Returns.decides (hset.bind (.pure _))
    ⟨⟨⟨[], ⟨?_, hread.pos_le, ?_, ?_⟩, rfl⟩, h.last⟩, rfl, rfl⟩
  · dsimp only [List.length_nil]
    omega
  · exact fun _ hc => nomatch hc
  · exact fun _ _ => rfl

/-! ## The arguments of a command -/

theorem fitAll_one : FitAll [w] ↔ w.length ≤ 64 := by
  rw [fitAll_cons, and_iff_left fitAll_nil]

theorem fitAll_two {v : List UInt8} : FitAll [v, w] ↔ v.length ≤ 64 ∧ w.length ≤ 64 := by
  rw [fitAll_cons, fitAll_one]

/-- A command without arguments. -/
theorem Session.Ready.noArgument (h : x.Ready ws) (call : ShellCall) :
    Traced.Decides Assignment.InRange (CommandFault perform) (FitAll (taken .command ws))
      (fun t y => y.Ready (after .command ws) ∧ x.state.Follows t y.state)
      (x.call perform call) := by
  refine ((Session.call_decides call x).mono fun _ t y ⟨ht, hy⟩ => ?_).congr
    (iff_of_true trivial fitAll_nil)
  rw [ht, hy]
  exact ⟨⟨hy ▸ h.ahead, hy ▸ h.last⟩, .refl _⟩

/-- What is no command, or does nothing. -/
theorem Session.Ready.skip (h : x.Ready ws) :
    Traced.Decides Assignment.InRange (CommandFault perform) (FitAll (taken .command ws))
      (fun t y => y.Ready (after .command ws) ∧ x.state.Follows t y.state) (pure x) :=
  ((Traced.Returns.pure x).decides ⟨h, .refl _⟩).congr (iff_of_true trivial fitAll_nil)

/-- A command with one argument. -/
theorem Session.Ready.oneArgument (h : x.Ready ws) (call : List UInt8 → ShellCall) :
    Traced.Decides Assignment.InRange (CommandFault perform)
      (FitAll (taken (.argument .command) ws))
      (fun t y => y.Ready (after (.argument .command) ws) ∧ x.state.Follows t y.state)
      (x.callNextWord perform call) :=
  (h.callNextWord call).congr fitAll_one.symm

/-- A command with two arguments, the first of which it copies. -/
theorem Session.Ready.twoArguments (h : x.Ready ws)
    (call : (Fin 64 → UInt8) → List UInt8 → ShellCall) :
    Traced.Decides Assignment.InRange (CommandFault perform)
      (FitAll (taken (.argument (.argument .command)) ws))
      (fun t y => y.Ready (after (.argument (.argument .command)) ws) ∧ x.state.Follows t y.state)
      (do
        let y ← x.getNextWord
        y.callNextWord perform (call y.state.currentWord)) := by
  refine (h.getNextWord.bind fun _ t y ⟨hy, hf, _⟩ => ?_).congr fitAll_two.symm
  exact (hy.callNextWord _).mono fun _ t' z ⟨hz, hf'⟩ => ⟨hz, hf.trans hf'⟩

/-- `cd` and its goal. -/
theorem Session.Ready.cdNextWord (h : x.Ready ws) :
    Traced.Decides Assignment.InRange (CommandFault perform)
      (FitAll (taken (.argument .command) ws))
      (fun t y => y.Ready (after (.argument .command) ws) ∧ x.state.Follows t y.state) (do
        let y ← x.getNextWord
        let goal ← .lift y.state.word
        OsKernel.cd goal y) := by
  refine (h.getNextWord.bind (q := True) fun _ t y ⟨hy, hf, hw⟩ => ?_).congr
    ((and_iff_left trivial).trans fitAll_one.symm)
  refine (word_decides hw hy.last).bind_true fun t' goal ⟨ht', _⟩ => ?_
  refine (hy.cd goal).mono fun _ t'' z ⟨hz, hf'⟩ => ?_
  rw [ht', List.nil_append]
  exact ⟨hz, hf.trans hf'⟩

/-- `rm` reads one more word when the first one is `-r`. -/
theorem Session.Ready.rm (h : x.Ready ws) :
    Traced.Decides Assignment.InRange (CommandFault perform) (FitAll (taken .option ws))
      (fun t y => y.Ready (after .option ws) ∧ x.state.Follows t y.state) (do
        let y ← x.getNextWord
        let option ← .lift y.state.word
        if isDashR option then y.callNextWord perform .rmr else y.callWord perform .rm) := by
  rw [taken, after]
  split
  · next hdash =>
    refine (h.getNextWord.bind fun _ t y ⟨hy, hf, hw⟩ => ?_).congr fitAll_two.symm
    refine (word_decides hw hy.last).bind_true fun t' option ⟨ht', _, hoption⟩ => ?_
    rw [ht', hoption, if_pos hdash]
    exact (hy.callNextWord .rmr).mono fun _ t'' z ⟨hz, hf'⟩ => ⟨hz, hf.trans hf'⟩
  · next hdash =>
    refine (h.getNextWord.bind (q := True) fun _ t y ⟨hy, hf, hw⟩ => ?_).congr
      ((and_iff_left trivial).trans fitAll_one.symm)
    refine (word_decides hw hy.last).bind_true fun t' option ⟨ht', _, hoption⟩ => ?_
    rw [ht', hoption, if_neg hdash]
    refine (Session.callWord_decides .rm hw hy.last).mono fun _ t'' z ⟨ht'', hz⟩ => ?_
    rw [ht'', hz, List.append_nil, List.append_nil]
    exact ⟨⟨hz ▸ hy.ahead, hz ▸ hy.last⟩, hf⟩

/-- A command reads its arguments, and leaves the words behind them. -/
theorem handleCommand_decides (h : x.Ready ws) (hword : shellCommand word = shellCommand w) :
    Traced.Decides Assignment.InRange (CommandFault perform)
      (FitAll (taken (shellCommand w).reads ws))
      (fun t y => y.Ready (after (shellCommand w).reads ws) ∧ x.state.Follows t y.state)
      (handleCommand perform word x) := by
  unfold handleCommand
  rw [hword]
  cases shellCommand w with
  | ls => exact h.noArgument .ls
  | ps => exact h.noArgument .ps
  | debug => exact h.skip
  | invalid => exact h.skip
  | mkdir => exact h.oneArgument .mkdir
  | cat => exact h.oneArgument .cat
  | find => exact h.oneArgument .find
  | exec => exact h.oneArgument .exec
  | kill => exact h.oneArgument .kill
  | cp => exact h.twoArguments .cp
  | mv => exact h.twoArguments .mv
  | cd => exact h.cdNextWord
  | rm => exact h.rm
  | clear => exact h.clear.congr (iff_of_true trivial fitAll_nil)

/-! ## Lines -/

/-- Between two lines: nothing is read, and the line is typed. -/
structure Session.Typing (line : List UInt8) (x : Session) : Prop where
  typed : x.state.Typed line
  readPointer : x.state.readPointer = 0
  ne_zero : ∀ c ∈ line, c ≠ 0
  last : x.state.lastIndexArrow = 0

theorem resetUserBuffer_decides (hlast : x.state.lastIndexArrow = 0) :
    Traced.Decides Assignment.InRange (CommandFault perform) True
      (fun t y => y.Typing [] ∧ x.state.Follows t y.state) (do
        let s ← resetUserBuffer x.state
        return { x with state := s }) := by
  have hreset : Traced.Returns Assignment.InRange (resetUserBuffer x.state)
      { x.state with userBuffer := fun _ => 0, userBufferPos := 0, readPointer := 0 } := by
    refine ⟨rfl, fun a ha => ?_⟩
    have ha : a ∈ [Assignment.memsetUserBuffer 6144, .userBufferPos 0, .readPointer 0] := ha
    simp only [List.mem_cons, List.not_mem_nil, or_false] at ha
    rcases ha with rfl | rfl | rfl
    · exact le_refl 6144
    · exact Nat.zero_le 6144
    · exact Nat.zero_le 6144
  refine Traced.Returns.decides (hreset.bind (.pure _))
    ⟨⟨⟨Nat.zero_le _, rfl, fun _ => rfl⟩, rfl, ?_, hlast⟩, rfl, rfl⟩
  exact fun _ hc => nomatch hc

/-- The loop of `cmdHandler` goes through the commands of the line. -/
theorem cmdHandler_decides {steps : Nat} (h : x.Ready ws) (hw : x.state.Holding w)
    (hempty : w = [] → ws = []) (hsteps : 0 < steps ∧ (w ≠ [] → ws.length + 1 < steps)) :
    Traced.Decides Assignment.InRange (CommandFault perform)
      (FitAll (handled (shellCommand w).reads ws))
      (fun t y => y.Typing [] ∧ x.state.Follows t y.state) (cmdHandler perform steps x) := by
  induction steps generalizing x w ws with
  | zero => exact absurd hsteps.1 (Nat.lt_irrefl 0)
  | succ steps ih =>
    have hfirst : x.state.currentWord 0 = w.getD 0 0 := hw.word 0
    rw [cmdHandler]
    cases w with
    | nil =>
      have hzero : ¬ x.state.currentWord 0 ≠ 0 := not_not.2 hfirst
      rw [if_neg hzero, hempty rfl, handled_nil]
      exact (resetUserBuffer_decides h.last).congr (iff_of_true trivial fitAll_nil)
    | cons c w =>
      have hc : x.state.currentWord 0 ≠ 0 := by
        rw [hfirst]
        exact hw.ne_zero c List.mem_cons_self
      have hroom := hsteps.2 (List.cons_ne_nil c w)
      rw [if_pos hc]
      refine (word_decides hw h.last).bind_true fun t word ⟨ht, hword, _⟩ => ?_
      rw [ht]
      -- the arguments of this command, the next command, and what is behind it
      refine ((handleCommand_decides h hword).bind fun _ t₁ y ⟨hy, hf₁⟩ => ?_).congr
        (fitAll_handled _ _).symm
      refine ((hy.getNextWord).bind fun _ t₂ z ⟨hz, hf₂, hwz⟩ => ?_).congr (fitAll_command _).symm
      have hle := length_after_le (shellCommand (c :: w)).reads ws
      refine (ih hz hwz hy.ahead.tail_eq_nil ⟨by omega, fun hne => ?_⟩).mono
        fun _ t₃ u ⟨hu, hf₃⟩ => ⟨hu, hf₁.trans (hf₂.trans hf₃)⟩
      cases hafter : after (shellCommand (c :: w)).reads ws with
      | nil =>
        rw [hafter] at hne
        exact absurd rfl hne
      | cons v vs =>
        rw [hafter, List.length_cons] at hle
        dsimp only [List.tail_cons]
        omega

/-! ## Keystrokes -/

/-- A line with its newline is ready to be read. -/
theorem Session.Typing.ready {line : List UInt8} {s : ShellState} (h : x.Typing line)
    (hs : s.Typed (line ++ [0x0A])) (hrest : x.state.SameRest s) :
    s.Ahead (words isBlank line) := by
  have hzero : s.readPointer = 0 := hrest.readPointer.trans h.readPointer
  refine ⟨line ++ [0x0A], ⟨?_, ?_, ?_, ?_⟩, words_concat_of_pos (by decide) line⟩
  · rw [hzero, hs.pos]
    exact (Nat.zero_add _).le
  · exact hs.pos.trans_le hs.length_le
  · intro c hc
    rcases List.mem_append.1 hc with hc | hc
    · exact h.ne_zero c hc
    · rw [List.mem_singleton.1 hc]
      decide
  · intro i _
    rw [hzero]
    exact hs.buffer i

/-- A store to the line and the new length leave the working directory alone. -/
theorem foldl_cwd_store {i cwd : UInt32} {c : UInt8} (value : ShellState → UInt32)
    (s : ShellState) :
    (s.setUserBuffer i c >>= fun t => t.setUserBufferPos (value t)).trace.foldl Assignment.cwd cwd =
      cwd := by
  cases hstore : (s.setUserBuffer i c).result with
  | error e =>
    rw [Traced.bind_error hstore]
    rfl
  | ok t =>
    rw [Traced.bind_ok hstore]
    rfl

/-- A character is stored when there is room for it. -/
theorem putCharacter_decides {line : List UInt8} {c : UInt8} (h : x.Typing line) :
    Traced.Decides Assignment.InRange (CommandFault perform) (line.length < 6144)
      (fun t s => s.Typed (line ++ [c]) ∧ x.state.SameRest s ∧ x.state.Follows t s)
      (putCharacter c x.state) := by
  rcases h.typed.length_le.lt_or_eq with hlt | hfull
  · obtain ⟨s, hput, htyped, hrest⟩ := h.typed.put (c := c) hlt
    refine (hput.decides ⟨htyped, hrest, ?_, hrest.lastIndexArrow⟩).congr (iff_of_true trivial hlt)
    rw [putCharacter, foldl_cwd_store fun t => t.userBufferPos + 1]
    exact hrest.cwdClusterNumber
  · have hmem : Assignment.userBuffer 6144 ∈
      (x.state.setUserBuffer x.state.userBufferPos c).trace := by
      rw [← hfull, ← h.typed.pos]
      exact List.mem_singleton_self _
    have hout : ¬ (Assignment.userBuffer 6144).InRange := lt_irrefl 6144
    exact ⟨fun hlt => absurd hfull hlt.ne, fun hlt => absurd hfull hlt.ne,
      fun _ => (Traced.Breaks.of_mem hmem hout).bind_left⟩

theorem handleNewline_decides {line : List UInt8} (h : x.Typing line) :
    Traced.Decides Assignment.InRange (CommandFault perform)
      (line.length < 6144 ∧ FitAll (handled .command (words isBlank line)))
      (fun t y => y.Typing [] ∧ x.state.Follows t y.state) (handleNewline perform x) := by
  refine (putCharacter_decides h).bind fun hlt t₁ s hput => ?_
  obtain ⟨hs, hrest, hf₁⟩ := hput
  have hahead := h.ready hs hrest
  refine (hahead.getNextWord.bind fun _ t₂ s₂ hword => ?_).congr (fitAll_command _).symm
  obtain ⟨hs₂, hf₂, hw₂⟩ := hword
  have hlast : s₂.lastIndexArrow = 0 :=
    hf₂.lastIndexArrow.trans (hf₁.lastIndexArrow.trans h.last)
  have hle := hahead.length_le
  have hloop : Traced.Decides Assignment.InRange (CommandFault perform) _ _
      (cmdHandler perform wordSteps { x with state := s₂ }) :=
    cmdHandler_decides ⟨hs₂, hlast⟩ hw₂ hahead.tail_eq_nil
      ⟨by decide, fun _ => by rw [List.length_tail, wordSteps]; omega⟩
  exact hloop.mono fun _ t₃ y hy => ⟨hy.1, hf₁.trans (hf₂.trans hy.2)⟩

/-- A backspace always has its place. -/
theorem handleBackspace_decides {line : List UInt8} (h : x.Typing line) :
    Traced.Decides Assignment.InRange (CommandFault perform) True
      (fun t s => s.Typed line.dropLast ∧ x.state.SameRest s ∧ x.state.Follows t s)
      (handleBackspace x.state) := by
  rcases List.eq_nil_or_concat' line with rfl | ⟨l, c, rfl⟩
  · rw [h.typed.erase_nil]
    exact (Traced.Returns.pure _).decides ⟨h.typed, ⟨rfl, rfl, rfl, rfl⟩, .refl _⟩
  · obtain ⟨s, herase, htyped, hrest⟩ := h.typed.erase
    rw [List.dropLast_concat]
    refine herase.decides ⟨htyped, hrest, ?_, hrest.lastIndexArrow⟩
    rw [handleBackspace]
    split
    · exact hrest.cwdClusterNumber
    · rw [foldl_cwd_store fun t => t.userBufferPos - 1]
      exact hrest.cwdClusterNumber

/-- The line goes on. -/
theorem Session.Typing.goOn {line line' : List UInt8} {s : ShellState} (h : x.Typing line)
    (hs : s.Typed line') (hne : ∀ c ∈ line', c ≠ 0) (hrest : x.state.SameRest s) :
    ({ x with state := s } : Session).Typing line' :=
  ⟨hs, hrest.readPointer.trans h.readPointer, hne, hrest.lastIndexArrow.trans h.last⟩

/-- A keystroke within a line. -/
theorem handleKey_decides {line : List UInt8} {c : UInt8} (h : x.Typing line) (hne : c ≠ 0)
    (hc : c ≠ 0x0A) :
    Traced.Decides Assignment.InRange (CommandFault perform) (KeyFits c x)
      (fun t y => (∃ line', y.Typing line') ∧ x.state.Follows t y.state)
      (inputChar perform c x) := by
  have hroom : line.length < 6144 ↔ x.state.userBufferPos.toNat < 6144 := by rw [h.typed.pos]
  -- what the handler leaves is the state of the session
  have hreturn : ∀ {fits : Prop} {m : Shell ShellState}, Traced.Decides Assignment.InRange
      (CommandFault perform) fits (fun t s => ∃ line', (s.Typed line' ∧ ∀ c ∈ line', c ≠ 0) ∧
        x.state.SameRest s ∧ x.state.Follows t s) m →
      Traced.Decides Assignment.InRange (CommandFault perform) fits
        (fun t y => (∃ line', y.Typing line') ∧ x.state.Follows t y.state)
        (m >>= fun s => pure { x with state := s }) := by
    refine fun hm => (hm.bind (q := True) fun _ t s ⟨line', ⟨hs, hzero⟩, hrest, hf⟩ => ?_).congr
      (and_iff_left trivial)
    refine (Traced.Returns.pure _).decides ⟨⟨line', h.goOn hs hzero hrest⟩, ?_⟩
    exact (List.append_nil t).symm ▸ hf
  have hput := hreturn ((putCharacter_decides (c := c) h).mono fun _ t s ⟨hs, hrest, hf⟩ =>
    ⟨_, ⟨hs, List.forall_mem_append.2 ⟨h.ne_zero, List.forall_mem_singleton.2 hne⟩⟩, hrest, hf⟩)
  rw [inputChar, if_neg hne, if_neg hc, KeyFits, if_neg hc]
  dsimp only
  by_cases htab : c = 0x09
  · rw [if_pos htab, if_pos (.inl htab)]
    subst htab
    exact hput.congr hroom
  by_cases hback : c = 0x08
  · rw [if_neg htab, if_pos hback, hback, if_neg (by decide)]
    exact hreturn ((handleBackspace_decides h).mono fun _ t s ⟨hs, hrest, hf⟩ =>
      ⟨_, ⟨hs, fun d hd => h.ne_zero d (List.mem_of_mem_dropLast hd)⟩, hrest, hf⟩)
  rw [if_neg htab, if_neg hback, handleOthers]
  by_cases hprint : 32 ≤ c ∧ c ≤ 126
  · rw [if_pos hprint, if_pos (.inr hprint)]
    exact hput.congr hroom
  · rw [if_neg hprint, if_neg (not_or.2 ⟨htab, hprint⟩)]
    exact hreturn ((Traced.Returns.pure _).decides
      ⟨line, ⟨h.typed, h.ne_zero⟩, ⟨rfl, rfl, rfl, rfl⟩, .refl _⟩)

/-- A keystroke assigns inside of the arrays exactly when it fits. -/
theorem inputChar_decides {line : List UInt8} (c : UInt8) (h : x.Typing line) :
    Traced.Decides Assignment.InRange (CommandFault perform) (KeyFits c x)
      (fun t y => (∃ line', y.Typing line') ∧ x.state.Follows t y.state)
      (inputChar perform c x) := by
  by_cases hzero : c = 0
  · rw [inputChar, if_pos hzero, hzero]
    exact ((Traced.Returns.pure x).decides ⟨⟨line, h⟩, .refl _⟩).congr (iff_of_true trivial (by
      rw [KeyFits, if_neg (by decide), if_neg (by decide)]
      trivial))
  by_cases hnewline : c = 0x0A
  · rw [inputChar, if_neg hzero, if_pos hnewline, KeyFits, if_pos hnewline, h.typed.pos,
      h.typed.line_eq]
    exact (handleNewline_decides h).mono fun _ t y ⟨hy, hf⟩ => ⟨⟨[], hy⟩, hf⟩
  · exact handleKey_decides h hzero hnewline

/-- The keystroke writes only inside of the arrays, keeps the indices of `userBuffer` in its bounds,
and changes the working directory only where `cd` does. -/
def KeepsState (perform : ShellCall → UInt32 → Kernel → Except Fault Kernel) (c : UInt8)
    (x : Session) :
    Prop :=
  (∀ a ∈ (inputChar perform c x).trace, a.InRange) ∧
    ∀ x', KeyStep perform c x x' → x'.state.cwdClusterNumber =
      (inputChar perform c x).trace.foldl Assignment.cwd x.state.cwdClusterNumber

theorem Session.Typing.step {line : List UInt8} {c : UInt8} (h : x.Typing line)
    (hfits : KeyFits c x)
    (hstep : KeyStep perform c x y) : ∃ line', y.Typing line' :=
  (((inputChar_decides c h).ensures hfits).result y hstep).1

theorem initial_typing (k : Kernel) : (⟨.initial, k⟩ : Session).Typing [] where
  typed := ⟨Nat.zero_le _, rfl, fun _ => rfl⟩
  readPointer := rfl
  ne_zero _ hc := nomatch hc
  last := rfl

/-- In a run of keystrokes that fit the indices stay in bounds. There a keystroke that fits keeps to
the state, and fails only as a command does; one that completes and keeps to the state fits. -/
theorem typing_inRange_iff (perform : ShellCall → UInt32 → Kernel → Except Fault Kernel)
    (k : Kernel)
    (x : Session) (hrun : Run (KeyStep perform) KeyFits ⟨.initial, k⟩ x) :
    (x.state.userBufferPos.toNat ≤ 6144 ∧ x.state.readPointer.toNat ≤ 6144) ∧
      ∀ c : UInt8,
        (KeyFits c x → KeepsState perform c x ∧
          ∀ e, (inputChar perform c x).result = .error e → CommandFault perform e) ∧
        ∀ x', KeyStep perform c x x' → KeepsState perform c x → KeyFits c x := by
  obtain ⟨line, hx⟩ : ∃ line, x.Typing line :=
    hrun.invariant (I := fun y => ∃ line, y.Typing line)
      (fun _ _ _ ⟨_, hy⟩ hfits hstep => hy.step hfits hstep) ⟨[], initial_typing k⟩
  refine ⟨⟨hx.typed.pos ▸ hx.typed.length_le, ?_⟩,
    fun c => ⟨fun hfits => ?_, fun x' hstep hkeeps => ?_⟩⟩
  · rw [hx.readPointer]
    exact Nat.zero_le 6144
  · have hkey : Traced.Decides Assignment.InRange (CommandFault perform) _ _
        (inputChar perform c x) := inputChar_decides c hx
    refine ⟨⟨(hkey.ensures hfits).effects, fun x' hstep => ?_⟩, hkey.fails hfits⟩
    exact ((hkey.ensures hfits).result x' hstep).2.cwdClusterNumber
  · by_contra hfits
    exact ((inputChar_decides c hx).breaks hfits).not_returns hstep hkeeps.1

/-- A line with the command `mkdir` and a word, and a letter behind it. -/
def mkdirKeys : List UInt8 := ascii ['m', 'k', 'd', 'i', 'r', ' ', 'a', 'b', 'c'] ++ [0x0A, 0x6C]

/-- The session after them. -/
def mkdirTyped : Option Session :=
  runAll KeyFits (fun c x => (inputChar (fun _ _ k => .ok k) c x).result.toOption) mkdirKeys
    ⟨.initial, .initial blankFileSystem⟩

/-- The line is typed and performed, and the first letter of the next one is typed. -/
theorem typing_inRange_line :
    ∃ x, mkdirTyped = some x ∧ x.state.line = [0x6C] ∧
      (x.state.userBufferPos.toNat ≤ 6144 ∧ x.state.readPointer.toNat ≤ 6144) ∧
      ∀ c : UInt8,
        (KeyFits c x → KeepsState (fun _ _ k => .ok k) c x ∧
          ∀ e, (inputChar (fun _ _ k => .ok k) c x).result = .error e →
            CommandFault (fun _ _ k => .ok k) e) ∧
        ∀ x', KeyStep (fun _ _ k => .ok k) c x x' → KeepsState (fun _ _ k => .ok k) c x →
          KeyFits c x := by
  have hline : mkdirTyped.map (·.state.line) = some [0x6C] := by decide +kernel
  obtain ⟨x, hx, hl⟩ := Option.map_eq_some_iff.1 hline
  have hrun : Run (KeyStep fun _ _ k => .ok k) KeyFits ⟨.initial, .initial blankFileSystem⟩ x :=
    .of_runAll id (fun _ _ h => h) (fun _ _ _ => toOption_eq_some.1) hx
  exact ⟨x, hx, hl, typing_inRange_iff (fun _ _ k => .ok k) (.initial blankFileSystem) x hrun⟩

/-- A word of 65 letters and a newline. -/
def longWord : Shell Session :=
  (List.replicate 65 (0x41 : UInt8) ++ [0x0A]).foldlM
  (fun x c => inputChar (fun _ _ k => .ok k) c x)
    ⟨.initial, .initial blankFileSystem⟩

/-- The last letter is stored behind `currentWord`, and is the new working directory, though nothing
is assigned to that. -/
theorem longWord_overruns :
    longWord.result.toOption.map (fun x : Session => x.state.cwdClusterNumber) = some 0x41 ∧
      longWord.trace.foldl Assignment.cwd 2 = 2 := by
  decide +kernel

end Commands

end OsKernel
