import Mathlib.Data.List.TakeWhile

/-!
# Words

The words of a list are its maximal runs without a separator. The first word and the rest of the
words are what a scanner finds that skips separators and then takes what is not one (`headD_words`,
`tail_words`).
-/

namespace OsKernel.Lib

variable {α : Type} {p : α → Bool} {a : α} {l w r : List α}

/-- The words of a list with the separators `p`. -/
def words (p : α → Bool) (l : List α) : List (List α) := (l.splitOnP p).filter fun w => !w.isEmpty

theorem words_cons_of_pos (h : p a = true) : words p (a :: l) = words p l := by
  rw [words, List.splitOnP_cons_eq_if_modifyHead, if_pos h]
  rfl

/-- Separators in front change nothing. -/
theorem words_dropWhile (l : List α) : words p (l.dropWhile p) = words p l := by
  induction l with
  | nil => rfl
  | cons a l ih =>
    by_cases h : p a = true
    · rw [List.dropWhile_cons_of_pos h, ih, words_cons_of_pos h]
    · rw [List.dropWhile_cons_of_neg h]

theorem filter_cons_word (hne : w ≠ []) (ws : List (List α)) :
    (w :: ws).filter (fun v => !v.isEmpty) = w :: ws.filter fun v => !v.isEmpty := by
  cases w with
  | nil => exact absurd rfl hne
  | cons x w => rfl

/-- A run without separators, up to the end or to a separator, is a word. -/
theorem words_append (hw : ∀ x ∈ w, p x = false) (hne : w ≠ []) (hr : ∀ x ∈ r.head?, p x = true) :
    words p (w ++ r) = w :: words p r := by
  cases r with
  | nil => rw [List.append_nil, words, List.splitOnP_eq_singleton hw, filter_cons_word hne]; rfl
  | cons b r =>
    have hb : p b = true := hr b rfl
    rw [words, List.splitOnP_append_cons_of_forall_mem hw b hb, filter_cons_word hne,
      words_cons_of_pos hb]
    rfl

/-- The words behind the separators in front, split at the end of the first one. -/
theorem words_span (l : List α) :
    words p l = if l.dropWhile p = [] then []
      else (l.dropWhile p).takeWhile (fun x => !p x) :: words p
          ((l.dropWhile p).dropWhile fun x => !p x) := by
  rw [← words_dropWhile]
  cases hd : l.dropWhile p with
  | nil => rfl
  | cons a r =>
    have ha : p a = false := by
      have hhead := List.head?_dropWhile_not p l
      rw [hd] at hhead
      simpa using hhead
    rw [if_neg (List.cons_ne_nil a r)]
    refine (congrArg (words p) (List.takeWhile_append_dropWhile (p := fun x => !p x)).symm).trans ?_
    refine words_append (fun x hx => ?_) ?_ fun x hx => ?_
    · simpa using List.mem_takeWhile_imp hx
    · rw [List.takeWhile_cons_of_pos (by simp [ha])]
      exact List.cons_ne_nil _ _
    · have hhead := List.head?_dropWhile_not (fun x => !p x) (a :: r)
      rw [Option.mem_def.1 hx] at hhead
      simpa using hhead

theorem headD_words (l : List α) :
    (words p l).headD [] = (l.dropWhile p).takeWhile fun x => !p x := by
  rw [words_span]
  split
  · next h => rw [h]; rfl
  · rfl

theorem tail_words (l : List α) :
    (words p l).tail = words p ((l.dropWhile p).dropWhile fun x => !p x) := by
  rw [words_span]
  split
  · next h => rw [h]; rfl
  · rfl

theorem ne_nil_of_mem_words (h : w ∈ words p l) : w ≠ [] := by
  intro hw
  rw [hw] at h
  exact nomatch (List.mem_filter.1 h).2

/-- A separator at the end changes nothing. -/
theorem words_concat_of_pos (h : p a = true) (l : List α) : words p (l ++ [a]) = words p l := by
  rw [words, List.splitOnP_append_cons l [] h, List.filter_append]
  exact List.append_nil _

/-- A list has at most as many words as elements. -/
theorem length_words_le (l : List α) : (words p l).length ≤ l.length := by
  induction l with
  | nil => exact Nat.le_refl 0
  | cons a l ih =>
    by_cases h : p a = true
    · rw [words_cons_of_pos h]
      exact Nat.le_succ_of_le ih
    · obtain ⟨v, vs, hv⟩ := List.exists_cons_of_ne_nil (List.splitOnP_ne_nil p l)
      rw [words, List.splitOnP_cons_eq_if_modifyHead, if_neg h, hv]
      rw [words, hv] at ih
      have hle : (vs.filter fun w : List α => !w.isEmpty).length ≤
          ((v :: vs).filter fun w : List α => !w.isEmpty).length :=
        ((List.sublist_cons_self v vs).filter _).length_le
      exact Nat.succ_le_succ (hle.trans ih)

end OsKernel.Lib
