import Mathlib.Data.List.Basic

/-!
# Searching a forest

A forest is a row of trees: a node, the forest below it and the trees next to it. A search goes
through the nodes in preorder and collects the ones it looks for, but no more than `limit`: it does
not go below a node when so many are collected, and fails at a node it would have to collect then,
and at a node that it does not get past. It comes to the nodes of the forest that is left without
the ones it does not go down to (`Forest.prune`), it succeeds exactly when it gets past all of these
and has room for the ones to collect (`search_eq_some_iff`), and these are the first ones of the
whole forest (`hits_prune`).
-/

namespace OsKernel.Lib

/-- A row of trees. -/
inductive Forest (α : Type*)
  | nil
  | node (a : α) (sub next : Forest α)

namespace Forest
variable {α : Type*} {ok : α → Prop} {p : α → Bool} {limit n : Nat}
  {f sub next : Forest α} {a : α} {found found' : List α}

/-- The nodes in preorder. -/
def toList : Forest α → List α
  | nil => []
  | node a sub next => a :: (sub.toList ++ next.toList)

/-- The number of nodes on the longest way down. -/
def depth : Forest α → Nat
  | nil => 0
  | node _ sub next => max (sub.depth + 1) next.depth

/-- The nodes that are looked for. -/
def hits (p : α → Bool) (f : Forest α) : List α := f.toList.filter p

/-- What is left without the nodes below which, and beginning with which, `limit` nodes are
collected: `n` are there at the start. -/
def prune (p : α → Bool) (limit : Nat) : Forest α → Nat → Forest α
  | nil, _ => nil
  | node a sub next, n =>
    let here := n + ([a].filter p).length
    let below := if limit ≤ here then nil else sub.prune p limit here
    node a below (next.prune p limit (here + (below.hits p).length))

/-- A node that is looked for is collected, if there is room for it. -/
def collect (p : α → Bool) (limit : Nat) (a : α) (found : List α) : Option (List α) :=
  if p a then
    if found.length < limit then some (found ++ [a]) else none
  else some found

/-- The search, with the nodes that it has collected. -/
def search (ok : α → Prop) [DecidablePred ok] (p : α → Bool) (limit : Nat) :
    Forest α → List α → Option (List α)
  | nil, found => some found
  | node a sub next, found =>
    if ok a then
      (collect p limit a found).bind fun here =>
        (if limit ≤ here.length then some here else sub.search ok p limit here).bind fun there =>
          next.search ok p limit there
    else none

/-- The search gets past every node, and has room for the ones to collect when `n` are there. -/
structure Passable (ok : α → Prop) (p : α → Bool) (limit : Nat) (f : Forest α) (n : Nat) :
    Prop where
  ok : ∀ a ∈ f.toList, ok a
  room : n + (f.hits p).length ≤ limit

@[simp] theorem hits_nil : (nil : Forest α).hits p = [] := rfl

theorem hits_node : (node a sub next).hits p = [a].filter p ++ (sub.hits p ++ next.hits p) := by
  rw [hits, toList, List.filter_cons, List.filter_append, List.filter_singleton]
  cases p a <;> rfl

theorem mem_hits : a ∈ f.hits p ↔ a ∈ f.toList ∧ p a = true := List.mem_filter

theorem passable_nil (h : n ≤ limit) : (nil : Forest α).Passable ok p limit n :=
  ⟨(fun _ hmem => nomatch hmem), h⟩

/-- The nodes one after the other. -/
theorem passable_node : (node a sub next).Passable ok p limit n ↔
    ok a ∧ n + ([a].filter p).length ≤ limit ∧
      sub.Passable ok p limit (n + ([a].filter p).length) ∧
      next.Passable ok p limit (n + ([a].filter p).length + (sub.hits p).length) := by
  constructor
  · rintro ⟨hok, hroom⟩
    rw [hits_node, List.length_append, List.length_append] at hroom
    refine ⟨hok a List.mem_cons_self, by omega, ⟨fun b hb => hok b ?_, by omega⟩,
      ⟨fun b hb => hok b ?_, by omega⟩⟩
    · exact List.mem_cons_of_mem _ (List.mem_append_left _ hb)
    · exact List.mem_cons_of_mem _ (List.mem_append_right _ hb)
  · rintro ⟨hok, -, hsub, hnext⟩
    refine ⟨fun b hb => ?_, ?_⟩
    · rcases List.mem_cons.1 hb with rfl | hb
      · exact hok
      · exact (List.mem_append.1 hb).elim (hsub.ok b) (hnext.ok b)
    · have hroom := hnext.room
      rw [hits_node, List.length_append, List.length_append]
      omega

/-- A node is collected, or passed over. -/
theorem collect_cases (h : collect p limit a found = some found') :
    (p a = true ∧ found.length < limit ∧ found' = found ++ [a]) ∨
    (p a = false ∧ found' = found) := by
  rw [collect] at h
  cases hp : p a with
  | false =>
    rw [hp] at h
    exact .inr ⟨rfl, (Option.some.inj h).symm⟩
  | true =>
    rw [hp, if_pos rfl] at h
    split at h
    · next hroom => exact .inl ⟨rfl, hroom, (Option.some.inj h).symm⟩
    · cases h

theorem collect_eq_some_iff (h : found.length ≤ limit) : collect p limit a found = some found' ↔
    found.length + ([a].filter p).length ≤ limit ∧ found' = found ++ [a].filter p := by
  rw [collect, List.filter_singleton]
  cases p a with
  | false => simp [h, eq_comm]
  | true =>
    by_cases hlt : found.length < limit
    · simp [hlt, Nat.succ_le_of_lt hlt, eq_comm]
    · have hno : ¬ found.length + 1 ≤ limit := hlt
      simp [hlt, hno]

/-- The search of a node, of what is below it and of the trees next to it. -/
theorem search_node [DecidablePred ok] : (node a sub next).search ok p limit found = some found' ↔
    ok a ∧ ∃ here, collect p limit a found = some here ∧ ∃ there,
      (if limit ≤ here.length then some here else sub.search ok p limit here) = some there ∧
        next.search ok p limit there = some found' := by
  rw [search]
  split
  · next hok => simp only [Option.bind_eq_some_iff, hok, true_and]
  · next hok => simp only [hok, false_and, reduceCtorEq]

/-- The search succeeds exactly when it gets past all the nodes it comes to and there is room for
the ones to collect. -/
theorem search_eq_some_iff [DecidablePred ok] (h : found.length ≤ limit) :
    f.search ok p limit found = some found' ↔
    (f.prune p limit found.length).Passable ok p limit found.length ∧
      found' = found ++ (f.prune p limit found.length).hits p := by
  induction f generalizing found found' with
  | nil => simp [search, prune, passable_nil h, eq_comm]
  | node a sub next ihs ihn =>
    have hbelow : ∀ {here there : List α}, here.length ≤ limit →
        ((if limit ≤ here.length then some here else sub.search ok p limit here) = some there ↔
          (if limit ≤ here.length then nil else sub.prune p limit here.length).Passable ok p limit
            here.length ∧
          there = here ++ (if limit ≤ here.length then nil
            else sub.prune p limit here.length).hits p) := by
      intro here there hle
      split
      · simp [passable_nil hle, eq_comm]
      · exact ihs hle
    have hlen : (found ++ [a].filter p).length = found.length + ([a].filter p).length :=
      List.length_append
    rw [search_node, prune, passable_node, hits_node, ← hlen]
    have hdown := @hbelow (found ++ [a].filter p)
    generalize (if limit ≤ (found ++ [a].filter p).length then nil
      else sub.prune p limit (found ++ [a].filter p).length) = below at hdown ⊢
    have hlen' : (found ++ [a].filter p ++ below.hits p).length =
        (found ++ [a].filter p).length + (below.hits p).length := List.length_append
    rw [← hlen', ← List.append_assoc, ← List.append_assoc]
    constructor
    · rintro ⟨hok, here, hcollect, there, hsub, hnext⟩
      obtain ⟨hroom, rfl⟩ := (collect_eq_some_iff h).1 hcollect
      rw [← hlen] at hroom
      obtain ⟨hpass, rfl⟩ := (hdown hroom).1 hsub
      obtain ⟨hpass', rfl⟩ := (ihn (hlen' ▸ hpass.room)).1 hnext
      exact ⟨⟨hok, hroom, hpass, hpass'⟩, rfl⟩
    · rintro ⟨⟨hok, hroom, hpass, hpass'⟩, rfl⟩
      refine ⟨hok, _, (collect_eq_some_iff h).2 ⟨hlen ▸ hroom, rfl⟩, _,
        (hdown hroom).2 ⟨hpass, rfl⟩, ?_⟩
      exact (ihn (hlen' ▸ hpass.room)).2 ⟨hpass', rfl⟩

/-- The nodes to collect in what is left are the first ones of the whole forest. -/
theorem hits_prune (h : n + ((f.prune p limit n).hits p).length ≤ limit) :
    (f.prune p limit n).hits p = (f.hits p).take (limit - n) := by
  induction f generalizing n with
  | nil => simp [prune]
  | node a sub next ihs ihn =>
    rw [prune, hits_node] at h
    rw [prune, hits_node, hits_node]
    generalize hb : (if limit ≤ n + ([a].filter p).length then nil
      else sub.prune p limit (n + ([a].filter p).length)) = below at h ⊢
    simp only [List.length_append] at h
    have hsub : below.hits p = (sub.hits p).take (limit - (n + ([a].filter p).length)) := by
      split at hb
      · next hle =>
        rw [← hb, Nat.sub_eq_zero_of_le hle]
        rfl
      · rw [← hb] at h ⊢
        exact ihs (by omega)
    have hnext := ihn (n := n + ([a].filter p).length + (below.hits p).length) (by omega)
    have hlen : (below.hits p).length =
        min (limit - (n + ([a].filter p).length)) (sub.hits p).length := by
      rw [hsub, List.length_take]
    have hfirst : ([a].filter p).take (limit - n) = [a].filter p :=
      List.take_of_length_le (by omega)
    have hrest : limit - (n + ([a].filter p).length + (below.hits p).length) =
        limit - n - ([a].filter p).length - (sub.hits p).length := by omega
    rw [hnext, hrest, hsub, List.take_append, List.take_append, hfirst, Nat.sub_add_eq]

end Forest

end OsKernel.Lib
