import Mathlib.Data.List.Nodup
import Mathlib.Logic.Function.Basic

/-!
# Chains in a successor map

A successor map `next : α → α` with an end mark `stop` threads its cells into chains: `c`, `next c`,
`next (next c)`, up to a cell whose successor is `stop`. `IsChain next stop c l` says that `l` lists
the chain that starts at `c`. A chain is determined by its start (`IsChain.unique`), lists no cell
twice (`IsChain.nodup`), and depends on the map at its own cells only (`IsChain.congr`), so a write
outside it changes nothing. `link` threads a list of cells into a chain.
-/

namespace OsKernel.Lib

variable {α : Type*} {next next' : α → α} {stop c : α} {l l' : List α}

/-- `l` lists the cells of the chain that starts at `c` and ends at the mark `stop`. -/
inductive IsChain (next : α → α) (stop : α) : α → List α → Prop
  | last {c : α} : next c = stop → IsChain next stop c [c]
  | cons {c : α} {l : List α} : next c ≠ stop → IsChain next stop (next c) l →
      IsChain next stop c (c :: l)

/-- A chain lists its first cell first. -/
theorem IsChain.eq_cons (h : IsChain next stop c l) : ∃ t, l = c :: t := by
  cases h with
  | last _ => exact ⟨[], rfl⟩
  | cons _ _ => exact ⟨_, rfl⟩

theorem IsChain.head_mem (h : IsChain next stop c l) : c ∈ l := by
  obtain ⟨t, rfl⟩ := h.eq_cons
  exact List.mem_cons_self

theorem IsChain.ne_nil (h : IsChain next stop c l) : l ≠ [] := by
  obtain ⟨t, rfl⟩ := h.eq_cons
  exact List.cons_ne_nil _ _

/-- The chain of a cell is determined by the cell. -/
theorem IsChain.unique (h : IsChain next stop c l) (h' : IsChain next stop c l') : l = l' := by
  induction h generalizing l' with
  | last hc =>
    cases h' with
    | last _ => rfl
    | cons hne _ => exact absurd hc hne
  | cons hne _ ih =>
    cases h' with
    | last hc => exact absurd hc hne
    | cons _ ht => rw [ih ht]

/-- A chain read in a map that agrees on its cells is the same chain. -/
theorem IsChain.congr (h : IsChain next stop c l) (heq : ∀ x ∈ l, next' x = next x) :
    IsChain next' stop c l := by
  induction h with
  | @last c hc => exact .last ((heq c List.mem_cons_self).trans hc)
  | @cons c l hne _ ih =>
    have hc := heq c List.mem_cons_self
    refine .cons (hc ▸ hne) ?_
    rw [hc]
    exact ih fun x hx => heq x (List.mem_cons_of_mem _ hx)

/-- From any cell of a chain the rest of the list is that cell's chain. -/
theorem IsChain.suffix (h : IsChain next stop c l) {x : α} (hx : x ∈ l) :
    ∃ pre suf, l = pre ++ suf ∧ IsChain next stop x suf := by
  induction h with
  | @last c hc =>
    obtain rfl := List.mem_singleton.1 hx
    exact ⟨[], [x], rfl, .last hc⟩
  | @cons c l hne ht ih =>
    rcases List.mem_cons.1 hx with rfl | hx
    · exact ⟨[], x :: l, rfl, .cons hne ht⟩
    · obtain ⟨pre, suf, rfl, hs⟩ := ih hx
      exact ⟨c :: pre, suf, rfl, hs⟩

/-- A chain visits no cell twice: from a cell met twice two chains of different lengths would
start. -/
theorem IsChain.nodup (h : IsChain next stop c l) : l.Nodup := by
  induction h with
  | last _ => exact List.nodup_singleton _
  | @cons c l hne ht ih =>
    refine List.nodup_cons.2 ⟨fun hc => ?_, ih⟩
    obtain ⟨pre, suf, rfl, hs⟩ := ht.suffix hc
    have hlen := congrArg List.length (hs.unique (.cons hne ht))
    simp only [List.length_cons, List.length_append] at hlen
    omega

/-- Every cell of a chain has its successor on the chain, or is the last one. -/
theorem IsChain.next_mem (h : IsChain next stop c l) {x : α} (hx : x ∈ l) :
    next x = stop ∨ next x ∈ l := by
  obtain ⟨pre, suf, rfl, hs⟩ := h.suffix hx
  cases hs with
  | last hc => exact .inl hc
  | cons _ ht => exact .inr (by simp [ht.head_mem])

section Follow
variable [DecidableEq α]

/-- The first `n` cells on the way from a cell to the end mark. -/
def follow (next : α → α) (stop : α) : Nat → α → List α
  | 0, _ => []
  | n + 1, c => c :: if next c = stop then [] else follow next stop n (next c)

theorem length_follow_le {n : Nat} : (follow next stop n c).length ≤ n := by
  induction n generalizing c with
  | zero => exact Nat.le_refl 0
  | succ n ih =>
    rw [follow, List.length_cons]
    split
    · exact Nat.succ_le_succ (Nat.zero_le n)
    · exact Nat.succ_le_succ ih

/-- On a chain they are its beginning. -/
theorem IsChain.follow_eq_take (h : IsChain next stop c l) {n : Nat} :
    follow next stop n c = l.take n := by
  induction h generalizing n with
  | last hc =>
    cases n with
    | zero => rfl
    | succ n => rw [follow, if_pos hc, List.take_succ_cons, List.take_nil]
  | cons hne _ ih =>
    cases n with
    | zero => rfl
    | succ n => rw [follow, if_neg hne, ih, List.take_succ_cons]

end Follow

section Link
variable [DecidableEq α]

/-- The map `next` with the cells of a list threaded into a chain that ends at `stop`. -/
def link (next : α → α) (stop : α) : List α → α → α
  | [] => next
  | [c] => Function.update next c stop
  | c :: c' :: l => link (Function.update next c c') stop (c' :: l)

/-- Threading a list leaves the other cells alone. -/
theorem link_of_notMem : ∀ {l : List α} {next : α → α} {x : α}, x ∉ l →
    link next stop l x = next x
  | [], _, _, _ => rfl
  | [c], next, x, hx => by
    have hne : x ≠ c := by simpa using hx
    simp [link, hne]
  | c :: c' :: l, next, x, hx => by
    have hne : x ≠ c := fun he => hx (he ▸ List.mem_cons_self)
    rw [link, link_of_notMem fun h => hx (List.mem_cons_of_mem _ h)]
    simp [hne]

/-- The first cell of a threaded list points to the second one. -/
theorem link_head {c c' : α} {l : List α} (hnd : (c :: c' :: l).Nodup) :
    link next stop (c :: c' :: l) c = c' := by
  rw [link, link_of_notMem (List.nodup_cons.1 hnd).1]
  simp

/-- A threaded list of distinct cells, none of them the end mark, is a chain. -/
theorem isChain_link : ∀ {l : List α} {next : α → α} {c : α}, (c :: l).Nodup →
    stop ∉ l → IsChain (link next stop (c :: l)) stop c (c :: l)
  | [], _, _, _, _ => .last (by simp [link])
  | c' :: l, next, c, hnd, hstop => by
    have hc : link next stop (c :: c' :: l) c = c' := link_head hnd
    refine .cons ?_ ?_
    · rw [hc]
      exact fun he => hstop (he ▸ List.mem_cons_self)
    · rw [hc]
      exact isChain_link (List.nodup_cons.1 hnd).2 fun h => hstop (List.mem_cons_of_mem _ h)

end Link

end OsKernel.Lib
