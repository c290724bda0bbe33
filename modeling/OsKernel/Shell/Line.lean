import Mathlib.Data.List.GetD
import OsKernel.Shell.Input

/-!
# The line that is typed

While a line is typed `userBuffer` holds its characters, zeros behind them, and `userBufferPos` is
its length (`ShellState.Typed`). A character that is stored makes the line longer, as long as it
fits (`Typed.put`), a backspace takes the last one away (`Typed.erase`), and both assign inside of
the arrays (`Assignment.InRange`).
-/

namespace OsKernel

open Lib

/-- The assignment writes inside of its array, leaves an index of `userBuffer` in the buffer or
right behind it, or is the one of `cd` to a folder that it found. -/
def Assignment.InRange : Assignment → Prop
  | .userBuffer i => i < 6144
  | .currentWord i => i < 64
  | .memsetUserBuffer n => n ≤ 6144
  | .memsetCurrentWord n => n ≤ 64
  | .userBufferPos value => value.toNat ≤ 6144
  | .readPointer value => value.toNat ≤ 6144
  | .cwdClusterNumber value => value ≠ 0xFFFFFFFF ∧ value ≠ 0

namespace ShellState

/-- The line in `userBuffer`. -/
def line (s : ShellState) : List UInt8 := (List.ofFn s.userBuffer).take s.userBufferPos.toNat

variable {s s' : ShellState} {line : List UInt8} {c : UInt8}

/-- `userBuffer` holds the line, and zeros behind it. -/
structure Typed (line : List UInt8) (s : ShellState) : Prop where
  length_le : line.length ≤ 6144
  pos : s.userBufferPos.toNat = line.length
  buffer : ∀ i : Fin 6144, s.userBuffer i = line.getD i 0

theorem Typed.line_eq (h : s.Typed line) : s.line = line := by
  have hle := h.length_le
  refine List.ext_getElem ?_ fun i hi hi' => ?_
  · rw [ShellState.line, List.length_take, List.length_ofFn, h.pos]
    omega
  · have hb := h.buffer ⟨i, by omega⟩
    rw [List.getD_eq_getElem _ _ hi'] at hb
    simp only [ShellState.line, List.getElem_take, List.getElem_ofFn, hb]

/-- The fields that typing leaves alone. -/
structure SameRest (s s' : ShellState) : Prop where
  readPointer : s'.readPointer = s.readPointer
  currentWord : s'.currentWord = s.currentWord
  cwdClusterNumber : s'.cwdClusterNumber = s.cwdClusterNumber
  lastIndexArrow : s'.lastIndexArrow = s.lastIndexArrow

theorem store_userBuffer {i : Nat} (hi : i < 6144) :
    s.store i c = .ok { s with userBuffer := Function.update s.userBuffer ⟨i, hi⟩ c } := dif_pos hi

/-- A store to the line. -/
theorem setUserBuffer_returns {i : UInt32} (hi : i.toNat < 6144) :
    Traced.Returns Assignment.InRange (s.setUserBuffer i c)
      { s with userBuffer := Function.update s.userBuffer ⟨i.toNat, hi⟩ c } := by
  refine ⟨store_userBuffer hi, fun w hw => ?_⟩
  rw [List.mem_singleton.1 hw]
  exact hi

theorem setUserBufferPos_returns {value : UInt32} (h : value.toNat ≤ 6144) :
    Traced.Returns Assignment.InRange (s.setUserBufferPos value)
      { s with userBufferPos := value } := by
  refine ⟨rfl, fun w hw => ?_⟩
  rw [List.mem_singleton.1 hw]
  exact h

/-- The characters of a line with one more. -/
theorem getD_concat (line : List UInt8) (i : Nat) :
    (line ++ [c]).getD i 0 = if i = line.length then c else line.getD i 0 := by
  rcases lt_trichotomy i line.length with hlt | heq | hgt
  · rw [List.getD_append _ _ _ _ hlt, if_neg hlt.ne]
  · rw [if_pos heq, heq, List.getD_append_right _ _ _ _ le_rfl, Nat.sub_self]
    rfl
  · rw [if_neg hgt.ne', List.getD_eq_default _ _ hgt.le, List.getD_eq_default]
    rw [List.length_append]
    exact hgt

/-- A character at the end of the line. -/
theorem Typed.put (h : s.Typed line) (hlt : line.length < 6144) :
    ∃ s', Traced.Returns Assignment.InRange (putCharacter c s) s' ∧ s'.Typed (line ++ [c]) ∧
      s.SameRest s' := by
  have hpos : s.userBufferPos.toNat < 6144 := h.pos ▸ hlt
  have hnext : (s.userBufferPos + 1).toNat = line.length + 1 := by
    rw [UInt32.toNat_add, h.pos]
    exact Nat.mod_eq_of_lt (by show line.length + 1 < 4294967296; omega)
  refine ⟨_, (setUserBuffer_returns hpos).bind (setUserBufferPos_returns ?_), ⟨?_, ?_, ?_⟩,
    rfl, rfl, rfl, rfl⟩
  · rw [hnext]
    exact hlt
  · rw [List.length_append]
    exact hlt
  · rw [List.length_append]
    exact hnext
  · intro i
    dsimp only
    rw [Function.update_apply, getD_concat, h.buffer i]
    simp only [Fin.ext_iff, h.pos]

/-- The last character goes. -/
theorem Typed.erase (h : s.Typed (line ++ [c])) :
    ∃ s', Traced.Returns Assignment.InRange (handleBackspace s) s' ∧ s'.Typed line ∧
      s.SameRest s' := by
  have hlen : line.length + 1 ≤ 6144 := by simpa using h.length_le
  have hpos : s.userBufferPos.toNat = line.length + 1 := by simpa using h.pos
  have hne : s.userBufferPos ≠ 0 := fun heq => by rw [heq] at hpos; exact nomatch hpos
  have hprev : (s.userBufferPos - 1).toNat = line.length := by
    rw [UInt32.toNat_sub_of_le _ _
      (UInt32.le_iff_toNat_le.2 (by rw [hpos]; exact Nat.le_add_left 1 _)), hpos]
    rfl
  have hrun := (setUserBuffer_returns (s := s) (c := 0) (i := s.userBufferPos - 1) (by omega)).bind
    (f := fun t => t.setUserBufferPos (t.userBufferPos - 1)) (setUserBufferPos_returns (by
      show (s.userBufferPos - 1).toNat ≤ 6144
      omega))
  rw [← show handleBackspace s = _ from if_neg hne] at hrun
  refine ⟨_, hrun, ⟨?_, ?_, ?_⟩, rfl, rfl, rfl, rfl⟩
  · omega
  · exact hprev
  · intro i
    dsimp only
    rw [Function.update_apply, h.buffer i, getD_concat]
    simp only [Fin.ext_iff, hprev]
    split
    · next heq => rw [List.getD_eq_default _ _ heq.ge]
    · rfl

/-- There is nothing to take away. -/
theorem Typed.erase_nil (h : s.Typed []) : handleBackspace s = pure s := by
  have hpos : s.userBufferPos = 0 := UInt32.toNat_inj.1 h.pos
  rw [handleBackspace, if_pos hpos]

/-- Behind the line is a zero; behind a full buffer it is the lowest byte of `userBufferPos`. -/
theorem Typed.load_end (h : s.Typed line) : s.load line.length = .ok 0 := by
  rcases h.length_le.lt_or_eq with hlt | hfull
  · rw [load, dif_pos hlt, h.buffer, List.getD_eq_default _ _ le_rfl]
  · rw [load, dif_neg (by omega), if_pos (by omega), h.pos, hfull]
    rfl

/-- A character behind a full buffer is stored to `userBufferPos` itself. -/
theorem putCharacter_full (h : s.userBufferPos = 6144) :
    (putCharacter c s).result = .ok { s with userBufferPos := setByte 6144 0 c + 1 } := by
  have hstore : (s.setUserBuffer s.userBufferPos c).result =
      .ok { s with userBufferPos := setByte 6144 0 c } := by
    have hindex : (6144 : UInt32).toNat = 6144 := rfl
    rw [setUserBuffer, h, hindex]
    dsimp only
    rw [store, dif_neg (by omega), if_pos (by omega), h]
  rw [putCharacter, Traced.bind_ok hstore]
  rfl

end ShellState

end OsKernel
