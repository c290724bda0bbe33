import OsKernel.Lib.Words
import OsKernel.Shell.Line

/-!
# Reading the words of a line

`get_next_word` goes on at `readPointer`, with what is left of the line in front of it
(`ShellState.Reading`, `ShellState.Scanning`): the first loop skips blanks (`skipBlanks_decides`),
the second one copies up to the next blank, into an array that it does not check
(`copyWord_decides`). So the next word is read inside of the arrays exactly when it has at most 64
characters (`getNextWord_decides`). Call after call takes the words of a line one by one, up to the
zero behind it (`getNextWords_words`).
-/

namespace OsKernel

open Lib

/-- The working directory after an assignment. -/
def Assignment.cwd (cwd : UInt32) : Assignment → UInt32
  | .cwdClusterNumber value => value
  | _ => cwd

/-- The assignment writes inside of its array, and leaves `readPointer` at `stop` or in front of
it. -/
def Assignment.UpTo (stop : Nat) : Assignment → Prop
  | .readPointer value => value.toNat ≤ stop
  | a => a.InRange

/-- Successive calls of `get_next_word`. -/
def getNextWords : Nat → ShellState → Shell ShellState
  | 0, s => pure s
  | n + 1, s => do
    let s ← getNextWords n s
    getNextWord s

namespace ShellState
variable {s s' s'' : ShellState} {rest w : List UInt8} {c : UInt8} {t t' : List Assignment}
  {F : Fault → Prop}

/-- The working directory is changed only by the assignments to it, and the last field not at
all. -/
structure Follows (s : ShellState) (t : List Assignment) (s' : ShellState) : Prop where
  cwdClusterNumber : s'.cwdClusterNumber = t.foldl Assignment.cwd s.cwdClusterNumber
  lastIndexArrow : s'.lastIndexArrow = s.lastIndexArrow

theorem Follows.refl (s : ShellState) : s.Follows [] s := ⟨rfl, rfl⟩

theorem Follows.trans (h : s.Follows t s') (h' : s'.Follows t' s'') : s.Follows (t ++ t') s'' where
  cwdClusterNumber := by rw [h'.cwdClusterNumber, h.cwdClusterNumber, List.foldl_append]
  lastIndexArrow := h'.lastIndexArrow.trans h.lastIndexArrow

/-- `rest` is what is left of the line from `readPointer` on. -/
structure Reading (rest : List UInt8) (s : ShellState) : Prop where
  bound : s.readPointer.toNat + rest.length ≤ s.userBufferPos.toNat
  pos_le : s.userBufferPos.toNat ≤ 6144
  ne_zero : ∀ c ∈ rest, c ≠ 0
  buffer : ∀ i : Fin 6144, s.readPointer.toNat ≤ i →
    s.userBuffer i = rest.getD (i - s.readPointer.toNat) 0

/-- `currentWord` holds the word, and zeros behind it. -/
structure Holding (w : List UInt8) (s : ShellState) : Prop where
  length_le : w.length ≤ 64
  ne_zero : ∀ c ∈ w, c ≠ 0
  word : ∀ i : Fin 64, s.currentWord i = w.getD i 0

/-- `rest` is what is left from `readPointer` on of a line that is over at `stop`, where there is a
zero. Behind a full buffer that is the lowest byte of `userBufferPos`. -/
structure Scanning (stop : Nat) (pos : UInt32) (rest : List UInt8) (s : ShellState) : Prop where
  stop_eq : s.readPointer.toNat + rest.length = stop
  stop_le : stop ≤ 6144
  pos_eq : s.userBufferPos = pos
  full : stop = 6144 → leByte pos.toNat 0 = 0
  ne_zero : ∀ c ∈ rest, c ≠ 0
  buffer : ∀ i : Fin 6144, s.readPointer.toNat ≤ i →
    s.userBuffer i = rest.getD (i - s.readPointer.toNat) 0

/-- The property of assignments allows `readPointer` up to `stop`, and `currentWord` in its
array. -/
structure Bounding (stop : Nat) (P : Assignment → Prop) : Prop where
  readPointer : ∀ value : UInt32, value.toNat ≤ stop → P (.readPointer value)
  currentWord : ∀ i, P (.currentWord i) ↔ i < 64
  memsetCurrentWord : P (.memsetCurrentWord 64)

theorem Reading.scanning (h : s.Reading rest) :
    s.Scanning (s.readPointer.toNat + rest.length) s.userBufferPos rest where
  stop_eq := rfl
  stop_le := h.bound.trans h.pos_le
  pos_eq := rfl
  full hfull := by
    have hbound := h.bound
    have hpos := h.pos_le
    rw [show s.userBufferPos.toNat = 6144 by omega]
    rfl
  ne_zero := h.ne_zero
  buffer := h.buffer

theorem Holding.congr (h : s.Holding w) (heq : s'.currentWord = s.currentWord) : s'.Holding w :=
  ⟨h.length_le, h.ne_zero, fun i => heq ▸ h.word i⟩

section Scan
variable {stop : Nat} {pos : UInt32} {P : Assignment → Prop}

theorem Scanning.reading (h : s.Scanning stop pos rest) (hstop : stop ≤ pos.toNat)
    (hpos : pos.toNat ≤ 6144) : s.Reading rest where
  bound := h.stop_eq ▸ h.pos_eq ▸ hstop
  pos_le := h.pos_eq ▸ hpos
  ne_zero := h.ne_zero
  buffer := h.buffer

theorem Scanning.load_cons (h : s.Scanning stop pos (c :: rest)) :
    s.load s.readPointer.toNat = .ok c := by
  have hstop := h.stop_eq
  have hle := h.stop_le
  rw [List.length_cons] at hstop
  rw [load, dif_pos (by omega), h.buffer _ le_rfl]
  dsimp only
  rw [Nat.sub_self]
  rfl

theorem Scanning.load_nil (h : s.Scanning stop pos []) : s.load s.readPointer.toNat = .ok 0 := by
  have hstop : s.readPointer.toNat = stop := h.stop_eq
  rcases h.stop_le.lt_or_eq with hlt | hend
  · rw [load, dif_pos (hstop.trans_lt hlt), h.buffer _ le_rfl]
    rfl
  · rw [load, dif_neg (by omega), if_pos (by omega), h.pos_eq, hstop, hend]
    exact congrArg Except.ok (h.full hend)

/-- `main_state.readPointer++` -/
theorem Scanning.advance (h : s.Scanning stop pos (c :: rest)) (hP : Bounding stop P) :
    Traced.Decides P F True
      (fun t s' => s'.Scanning stop pos rest ∧ s.Follows t s' ∧ s'.currentWord = s.currentWord)
      (s.setReadPointer (s.readPointer + 1)) := by
  have hstop := h.stop_eq
  have hle := h.stop_le
  rw [List.length_cons] at hstop
  have hnext : (s.readPointer + 1).toNat = s.readPointer.toNat + 1 := by
    rw [UInt32.toNat_add]
    exact Nat.mod_eq_of_lt (by show s.readPointer.toNat + 1 < 4294967296; omega)
  have hreturns : Traced.Returns P (s.setReadPointer (s.readPointer + 1))
      { s with readPointer := s.readPointer + 1 } := by
    refine ⟨rfl, fun a ha => ?_⟩
    rw [List.mem_singleton.1 ha]
    exact hP.readPointer _ (by omega)
  refine hreturns.decides ⟨⟨?_, hle, h.pos_eq, h.full, ?_, ?_⟩, ⟨rfl, rfl⟩, rfl⟩
  · dsimp only
    omega
  · exact fun d hd => h.ne_zero d (List.mem_cons_of_mem _ hd)
  · intro i hi
    dsimp only at hi ⊢
    rw [hnext] at hi ⊢
    rw [h.buffer i (by omega),
      show (i : Nat) - s.readPointer.toNat = (i - (s.readPointer.toNat + 1)) + 1 by omega,
      List.getD_cons_succ]

/-- The first loop skips the blanks. -/
theorem skipBlanks_decides {steps : Nat} (hP : Bounding stop P) (h : s.Scanning stop pos rest)
    (hsteps : rest.length < steps) :
    Traced.Decides P F True
      (fun t s' => s'.Scanning stop pos (rest.dropWhile isBlank) ∧ s.Follows t s' ∧
        s'.currentWord = s.currentWord) (skipBlanks steps s) := by
  induction rest generalizing s steps with
  | nil =>
    cases steps with
    | zero => exact nomatch hsteps
    | succ steps =>
      rw [skipBlanks, h.load_nil, Traced.lift_ok_bind, if_neg (by decide)]
      exact (Traced.Returns.pure s).decides ⟨h, .refl s, rfl⟩
  | cons c rest ih =>
    cases steps with
    | zero => exact nomatch hsteps
    | succ steps =>
      rw [skipBlanks, h.load_cons, Traced.lift_ok_bind]
      have hc : c ≠ 0 := h.ne_zero c List.mem_cons_self
      by_cases hblank : isBlank c = true
      · rw [if_pos (by simp [hblank, hc]), List.dropWhile_cons_of_pos hblank]
        refine (h.advance hP).bind_true fun t s' ⟨hscan, hfollows, hword⟩ => ?_
        refine (ih hscan (Nat.lt_of_succ_lt_succ hsteps)).mono
          fun _ t' s'' ⟨hscan', hfollows', hword'⟩ => ?_
        exact ⟨hscan', hfollows.trans hfollows', hword'.trans hword⟩
      · rw [if_neg (by simp [hblank]), List.dropWhile_cons_of_neg hblank]
        exact (Traced.Returns.pure s).decides ⟨h, .refl s, rfl⟩

/-- `memset(main_state.currentWord, 0, 64)` -/
theorem Scanning.memsetCurrentWord (h : s.Scanning stop pos rest) (hP : Bounding stop P) :
    Traced.Decides P F True
      (fun t s' => s'.Scanning stop pos rest ∧ s.Follows t s' ∧ s'.Holding [])
          s.memsetCurrentWord := by
  have hreturns : Traced.Returns P s.memsetCurrentWord { s with currentWord := fun _ => 0 } := by
    refine ⟨rfl, fun a ha => ?_⟩
    rw [List.mem_singleton.1 ha]
    exact hP.memsetCurrentWord
  exact hreturns.decides ⟨⟨h.stop_eq, h.stop_le, h.pos_eq, h.full, h.ne_zero, h.buffer⟩, ⟨rfl, rfl⟩,
    Nat.zero_le _, (fun _ hc => nomatch hc), fun _ => rfl⟩

/-- A character behind the ones of the word. -/
theorem Scanning.setCurrentWord (h : s.Scanning stop pos rest) (hP : Bounding stop P)
    (hw : s.Holding w) (hlt : w.length < 64) (hc : c ≠ 0) :
    Traced.Decides P F True
      (fun t s' => s'.Scanning stop pos rest ∧ s.Follows t s' ∧ s'.Holding (w ++ [c]))
      (s.setCurrentWord w.length c) := by
  have hoffset : 6152 + w.length - 6152 < 64 := by omega
  have hreturns : Traced.Returns P (s.setCurrentWord w.length c)
      { s with
        currentWord := Function.update s.currentWord ⟨6152 + w.length - 6152, hoffset⟩ c } := by
    refine ⟨?_, fun a ha => ?_⟩
    · show s.store (6152 + w.length) c = _
      rw [store, dif_neg (by omega), if_neg (by omega), if_neg (by omega), dif_pos hoffset]
    · rw [List.mem_singleton.1 ha]
      exact (hP.currentWord _).2 hlt
  refine hreturns.decides ⟨⟨h.stop_eq, h.stop_le, h.pos_eq, h.full, h.ne_zero, h.buffer⟩,
    ⟨rfl, rfl⟩, ?_, fun d hd => ?_, fun i => ?_⟩
  · rw [List.length_append]
    exact hlt
  · rcases List.mem_append.1 hd with hd | hd
    · exact hw.ne_zero d hd
    · exact List.mem_singleton.1 hd ▸ hc
  · dsimp only
    rw [Function.update_apply, getD_concat, hw.word i]
    simp only [Fin.ext_iff, Nat.add_sub_cancel_left]

/-- The word is complete. -/
theorem Scanning.pure_decides (h : s.Scanning stop pos rest) (hw : s.Holding w) :
    Traced.Decides P F (w.length ≤ 64)
      (fun t s' => s'.Scanning stop pos rest ∧ s.Follows t s' ∧ s'.Holding w) (pure s) :=
  ((Traced.Returns.pure s).decides ⟨h, .refl s, hw⟩).congr (iff_of_true trivial hw.length_le)

/-- The second loop copies the word, as long as the array has room for it. -/
theorem copyWord_decides (steps : Nat) (hP : Bounding stop P) (h : s.Scanning stop pos rest)
    (hw : s.Holding w) (hsteps : rest.length < steps) :
    Traced.Decides P F
      (w.length + (rest.takeWhile fun c => !isBlank c).length ≤ 64)
      (fun t s' => s'.Scanning stop pos (rest.dropWhile fun c => !isBlank c) ∧ s.Follows t s' ∧
        s'.Holding (w ++ rest.takeWhile fun c => !isBlank c)) (copyWord steps w.length s) := by
  induction rest generalizing s w steps with
  | nil =>
    cases steps with
    | zero => exact nomatch hsteps
    | succ steps =>
      rw [copyWord, h.load_nil, Traced.lift_ok_bind, if_pos (by decide), List.takeWhile_nil,
        List.append_nil]
      exact h.pure_decides hw
  | cons c rest ih =>
    cases steps with
    | zero => exact nomatch hsteps
    | succ steps =>
      rw [copyWord, h.load_cons, Traced.lift_ok_bind]
      by_cases hblank : isBlank c = true
      · rw [if_pos hblank, List.takeWhile_cons_of_neg (by simp [hblank]),
          List.dropWhile_cons_of_neg (by simp [hblank]), List.append_nil]
        exact h.pure_decides hw
      rw [if_neg hblank, List.takeWhile_cons_of_pos (by simp [hblank]),
        List.dropWhile_cons_of_pos (by simp [hblank]), List.length_cons]
      rcases hw.length_le.lt_or_eq with hlt | hfull
      · refine (h.setCurrentWord hP hw hlt (h.ne_zero c List.mem_cons_self)).bind_true
          fun t₁ s₁ ⟨h₁, hf₁, hw₁⟩ => ?_
        refine (h₁.advance hP).bind_true fun t₂ s₂ ⟨h₂, hf₂, heq₂⟩ => ?_
        have hrest := ih steps h₂ (hw₁.congr heq₂) (Nat.lt_of_succ_lt_succ hsteps)
        rw [List.append_assoc, List.length_append, List.length_singleton, Nat.add_assoc,
          Nat.add_comm 1] at hrest
        exact hrest.mono fun _ t₃ s₃ ⟨h₃, hf₃, hw₃⟩ => ⟨h₃, hf₁.trans (hf₂.trans hf₃), hw₃⟩
      · -- the array is full
        have hmem : Assignment.currentWord w.length ∈ (s.setCurrentWord w.length c).trace :=
          List.mem_singleton_self _
        have hout : ¬ P (Assignment.currentWord w.length) := by
          rw [hP.currentWord, hfull]
          exact lt_irrefl 64
        exact ⟨fun hfits => by omega, fun hfits => by omega,
          fun _ => (Traced.Breaks.of_mem hmem hout).bind_left⟩

/-- `get_next_word` takes the next word, and stays in front of `stop`. -/
theorem Scanning.getNextWord (hP : Bounding stop P) (h : s.Scanning stop pos rest) :
    Traced.Decides P F (((words isBlank rest).headD []).length ≤ 64)
      (fun t s' => s'.Scanning stop pos ((rest.dropWhile isBlank).dropWhile fun c => !isBlank c) ∧
        s.Follows t s' ∧ s'.Holding ((words isBlank rest).headD [])) (OsKernel.getNextWord s) := by
  have hlength : rest.length < wordSteps := by
    have hstop := h.stop_eq
    have hle := h.stop_le
    rw [wordSteps]
    omega
  rw [headD_words, OsKernel.getNextWord]
  refine (h.memsetCurrentWord hP).bind_true fun t₁ s₁ ⟨h₁, hf₁, hw₁⟩ => ?_
  refine (skipBlanks_decides hP h₁ hlength).bind_true fun t₂ s₂ ⟨h₂, hf₂, heq₂⟩ => ?_
  have hcopy := copyWord_decides (F := F) wordSteps hP h₂ (hw₁.congr heq₂)
    ((List.dropWhile_suffix _).length_le.trans_lt hlength)
  rw [List.length_nil, Nat.zero_add, List.nil_append] at hcopy
  exact hcopy.mono fun _ t₃ s₃ ⟨h₃, hf₃, hw₃⟩ => ⟨h₃, hf₁.trans (hf₂.trans hf₃), hw₃⟩

end Scan

theorem inRange_bounding {stop : Nat} (h : stop ≤ 6144) : Bounding stop Assignment.InRange where
  readPointer _ hvalue := hvalue.trans h
  currentWord _ := .rfl
  memsetCurrentWord := le_refl 64

/-- `get_next_word` takes the next word. -/
theorem getNextWord_decides (h : s.Reading rest) :
    Traced.Decides Assignment.InRange F (((words isBlank rest).headD []).length ≤ 64)
      (fun t s' => s'.Reading ((rest.dropWhile isBlank).dropWhile fun c => !isBlank c) ∧
        s.Follows t s' ∧ s'.Holding ((words isBlank rest).headD [])) (getNextWord s) :=
  (h.scanning.getNextWord (inRange_bounding h.scanning.stop_le)).mono fun _ _ _ ⟨h', hf, hw⟩ =>
    ⟨h'.reading h.bound h.pos_le, hf, hw⟩

/-- The words that are left of the line. -/
def Ahead (ws : List (List UInt8)) (s : ShellState) : Prop :=
  ∃ rest, s.Reading rest ∧ words isBlank rest = ws

theorem Ahead.getNextWord {ws : List (List UInt8)} (h : s.Ahead ws) :
    Traced.Decides Assignment.InRange F ((ws.headD []).length ≤ 64)
      (fun t s' => s'.Ahead ws.tail ∧ s.Follows t s' ∧ s'.Holding (ws.headD []))
      (OsKernel.getNextWord s) := by
  obtain ⟨rest, hread, rfl⟩ := h
  exact (getNextWord_decides hread).mono fun _ t s' ⟨h', hf, hw⟩ =>
    ⟨⟨_, h', (tail_words rest).symm⟩, hf, hw⟩

/-- There are fewer words left than bytes in the buffer. -/
theorem Ahead.length_le {ws : List (List UInt8)} (h : s.Ahead ws) : ws.length ≤ 6144 := by
  obtain ⟨rest, hread, rfl⟩ := h
  have hbound := hread.bound
  have hpos := hread.pos_le
  have hle := length_words_le (p := isBlank) rest
  omega

theorem Ahead.tail_eq_nil {ws : List (List UInt8)} (h : s.Ahead ws) (hhead : ws.headD [] = []) :
    ws.tail = [] := by
  obtain ⟨rest, -, rfl⟩ := h
  cases hws : words isBlank rest with
  | nil => rfl
  | cons w ws =>
    rw [hws] at hhead
    exact absurd hhead (ne_nil_of_mem_words (hws ▸ List.mem_cons_self))

/-! ## The word as a string -/

/-- The string is the word. A word of 64 characters has no zero behind it, and the string goes on
with the bytes of the working directory. -/
theorem Holding.word_eq (h : s.Holding w) (hlast : s.lastIndexArrow = 0) :
    ∃ v, s.word = .ok (w ++ v) ∧ v.length ≤ 8 ∧ (w.length < 64 → v = []) := by
  have hle := h.length_le
  have harray : List.ofFn s.currentWord = w ++ List.replicate (64 - w.length) 0 := by
    refine List.ext_getElem ?_ fun i hi hi' => ?_
    · rw [List.length_ofFn, List.length_append, List.length_replicate]
      omega
    · rw [List.length_ofFn] at hi
      rw [List.getElem_ofFn, h.word, List.getElem_append]
      split
      · next hlt => exact List.getD_eq_getElem _ _ hlt
      · next hge => rw [List.getElem_replicate, List.getD_eq_default _ _ (not_lt.1 hge)]
  obtain ⟨b, hb, hword⟩ : ∃ b : List UInt8, b.length = 8 ∧ s.word =
      .ok ((w ++ (List.replicate (64 - w.length) 0 ++ b)).takeWhile (· ≠ 0)) := by
    refine ⟨(List.range 4).map (leByte s.cwdClusterNumber.toNat) ++
      (List.range 4).map (leByte s.lastIndexArrow.toNat), rfl, ?_⟩
    rw [ShellState.word, harray, List.append_assoc]
    have hzero : (0 : UInt8) ∈ (List.range 4).map (leByte s.lastIndexArrow.toNat) := by
      rw [hlast]
      decide
    have hstring : cString (_ ++ []) = _ :=
      cString_append (List.mem_append_right w (List.mem_append_right
      (List.replicate (64 - w.length) 0) (List.mem_append_right
        ((List.range 4).map (leByte s.cwdClusterNumber.toNat)) hzero)))
    rwa [List.append_nil] at hstring
  rw [List.takeWhile_append_of_pos fun c hc => decide_eq_true (h.ne_zero c hc)] at hword
  refine ⟨_, hword, ?_, fun hlt => ?_⟩
  · cases hn : 64 - w.length with
    | zero =>
      rw [List.replicate_zero, List.nil_append, ← hb]
      exact (List.takeWhile_sublist _).length_le
    | succ n => exact Nat.zero_le 8
  · cases hn : 64 - w.length with
    | zero => omega
    | succ n => rfl

/-! ## Successive calls -/

/-- `userBuffer` holds the line with its newline, and zeros behind it, and nothing of it has been
read. -/
structure HoldsLine (line : List UInt8) (s : ShellState) : Prop where
  length_lt : line.length < 6144
  printable : ∀ c ∈ line, 32 ≤ c ∧ c ≤ 126 ∨ c = 0x09
  buffer : ∀ i : Fin 6144, s.userBuffer i = (line ++ [0x0A]).getD i 0
  zero : s.load (line.length + 1) = .ok 0
  readPointer : s.readPointer = 0

theorem HoldsLine.scanning {line : List UInt8} (h : s.HoldsLine line) :
    s.Scanning (line.length + 1) s.userBufferPos (line ++ [0x0A]) where
  stop_eq := by
    rw [h.readPointer, List.length_append]
    exact Nat.zero_add _
  stop_le := h.length_lt
  pos_eq := rfl
  full hfull := by
    have hzero := h.zero
    rw [hfull, load, dif_neg (lt_irrefl 6144), if_pos (by decide)] at hzero
    exact Except.ok.inj hzero
  ne_zero c hc := by
    rcases List.mem_append.1 hc with hc | hc
    · rintro rfl
      exact absurd (h.printable 0 hc) (by decide)
    · rw [List.mem_singleton.1 hc]
      decide
  buffer i _ := by
    rw [h.readPointer]
    exact h.buffer i

theorem length_getD_le {ws : List (List UInt8)} {n : Nat} (h : ∀ w ∈ ws, w.length ≤ n) (i : Nat) :
    (ws.getD i []).length ≤ n := by
  rcases lt_or_ge i ws.length with hlt | hge
  · rw [List.getD_eq_getElem _ _ hlt]
    exact h _ (List.getElem_mem hlt)
  · rw [List.getD_eq_default _ _ hge]
    exact Nat.zero_le n

theorem upTo_bounding (stop : Nat) : Bounding stop (Assignment.UpTo stop) where
  readPointer _ hvalue := hvalue
  currentWord _ := .rfl
  memsetCurrentWord := le_refl 64

/-- The calls stay in front of `stop`, and each one takes the next word. -/
theorem Scanning.getNextWords {stop : Nat} {pos : UInt32} (h : s.Scanning stop pos rest)
    (hshort : ∀ w ∈ words isBlank rest, w.length ≤ 63) (n : Nat) :
    ∃ s', Traced.Returns (Assignment.UpTo stop) (OsKernel.getNextWords n s) s' ∧
      (∃ rest', s'.Scanning stop pos rest' ∧ words isBlank rest' = (words isBlank rest).drop n) ∧
      ∀ m, n = m + 1 → s'.Holding ((words isBlank rest).getD m []) := by
  induction n with
  | zero => exact ⟨s, .pure s, ⟨rest, h, rfl⟩, fun m hm => nomatch hm⟩
  | succ n ih =>
    obtain ⟨s₁, hrun, ⟨rest₁, h₁, hwords⟩, -⟩ := ih
    have hhead : (words isBlank rest₁).headD [] = (words isBlank rest).getD n [] := by
      rw [hwords, List.headD_eq_head?_getD, List.head?_drop, List.getD_eq_getElem?_getD]
    have hfits : ((words isBlank rest).getD n []).length ≤ 64 :=
      (length_getD_le hshort n).trans (by decide)
    have hnext : Traced.Decides (Assignment.UpTo stop) (fun _ => False) _
        (fun _ s' => s'.Scanning stop pos
        ((rest₁.dropWhile isBlank).dropWhile fun c => !isBlank c) ∧
          s'.Holding ((words isBlank rest₁).headD [])) (OsKernel.getNextWord s₁) :=
      (h₁.getNextWord (upTo_bounding stop)).mono fun _ _ _ ⟨hscan, _, hw⟩ => ⟨hscan, hw⟩
    obtain ⟨s', hcall, h', hw'⟩ := hnext.returns_iff.2 (hhead ▸ hfits)
    refine ⟨s', hrun.bind hcall, ⟨_, h', ?_⟩, fun m hm => ?_⟩
    · rw [← tail_words, hwords, List.tail_drop]
    · cases hm
      exact hhead ▸ hw'

end ShellState

/-- A line whose words have at most 63 characters is read word by word, and then come empty words.
No call goes beyond the first zero. -/
theorem getNextWords_words (line : List UInt8) (s : ShellState) (h : s.HoldsLine line)
    (hshort : ∀ w ∈ words isBlank line, w.length ≤ 63) (n : Nat) :
    ∃ s', Traced.Returns (Assignment.UpTo (line.length + 1)) (getNextWords (n + 1) s) s' ∧
      ((words isBlank line).getD n []).length ≤ 63 ∧
      (∀ i : Fin 64, s'.currentWord i = ((words isBlank line).getD n []).getD i 0) ∧
      s'.readPointer.toNat ≤ line.length + 1 := by
  have hwords : words isBlank (line ++ [0x0A]) = words isBlank line :=
    words_concat_of_pos (by decide) line
  obtain ⟨s', hrun, ⟨rest, hscan, -⟩, hword⟩ :=
    h.scanning.getNextWords (fun w hw => hshort w (hwords ▸ hw)) (n + 1)
  have hw := hword n rfl
  rw [hwords] at hw
  refine ⟨s', hrun, ShellState.length_getD_le hshort n, hw.word, ?_⟩
  rw [← hscan.stop_eq]
  exact Nat.le_add_right _ _

/-- `rm`, two blanks and `abc`. -/
def twoWords : List UInt8 := [0x72, 0x6D, 0x20, 0x20, 0x61, 0x62, 0x63]

/-- Three calls read the two words of a line, and the empty one behind them. -/
theorem getNextWords_words_two :
    ∃ s, s.HoldsLine twoWords ∧ ∃ s₀ s₁ s₂,
      Traced.Returns (Assignment.UpTo 8) (getNextWords 1 s) s₀ ∧
        (∀ i : Fin 64, s₀.currentWord i = [0x72, 0x6D].getD i 0) ∧
      Traced.Returns (Assignment.UpTo 8) (getNextWords 2 s) s₁ ∧
        (∀ i : Fin 64, s₁.currentWord i = [0x61, 0x62, 0x63].getD i 0) ∧
      Traced.Returns (Assignment.UpTo 8) (getNextWords 3 s) s₂ ∧
        (∀ i : Fin 64, s₂.currentWord i = 0) ∧
        s₂.readPointer.toNat ≤ 8 := by
  have hwords : words isBlank twoWords = [[0x72, 0x6D], [0x61, 0x62, 0x63]] := by
    simp [twoWords, words, isBlank, List.splitOnP_cons_eq_if_modifyHead]
  have hline : ShellState.HoldsLine twoWords
      { ShellState.initial with userBuffer := fun i => (twoWords ++ [0x0A]).getD i 0 } :=
    ⟨by decide, by simp [twoWords], fun _ => rfl, rfl, rfl⟩
  have hshort : ∀ w ∈ words isBlank twoWords, w.length ≤ 63 := by
    rw [hwords]
    decide
  obtain ⟨s₀, h₀, -, hw₀, -⟩ := getNextWords_words twoWords _ hline hshort 0
  obtain ⟨s₁, h₁, -, hw₁, -⟩ := getNextWords_words twoWords _ hline hshort 1
  obtain ⟨s₂, h₂, -, hw₂, hend⟩ := getNextWords_words twoWords _ hline hshort 2
  rw [hwords] at hw₀ hw₁ hw₂
  exact ⟨_, hline, s₀, s₁, s₂, h₀, hw₀, h₁, hw₁, h₂, hw₂, hend⟩

end OsKernel
