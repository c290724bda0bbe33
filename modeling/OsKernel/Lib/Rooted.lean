import Mathlib.Data.Set.Card
import Mathlib.Logic.Relation

/-!
# Trees in a directed graph

A rooted graph is an edge relation `E` with a root `r`; its nodes are the ones reachable from `r`.
`IsTree E r` says that it is a tree: the root has no incoming edge and every other node has one. A
tree has no cycle (`IsTree.acyclic`), and a walk down a finite tree ends: the number of nodes below
a node shrinks along every edge (`IsTree.below_lt`). The module follows reachability through the
edits a tree of records goes through: a new leaf (`reach_addLeaf`), the removal of a subtree
(`IsTree.reach_prune`) and a new parent for a subtree, which keeps all nodes when the new parent
lies outside of it (`IsTree.reach_reparent`) and cuts the subtree off when it lies inside
(`IsTree.reach_reparent_below`).
-/

namespace OsKernel.Lib

open Relation

variable {α : Type*} {E E' : α → α → Prop} {r c p q x y : α}

/-- The graph with root `r` and edges `E` is a tree. -/
structure IsTree (E : α → α → Prop) (r : α) : Prop where
  root : ∀ {x}, ReflTransGen E r x → ¬ E x r
  unique : ∀ {x x' y}, ReflTransGen E r x → ReflTransGen E r x' → E x y → E x' y → x = x'

/-- The number of nodes strictly below `x`. -/
noncomputable def below (E : α → α → Prop) (x : α) : Nat := Set.ncard {y | TransGen E x y}

/-- Reachability depends on the edges that leave reachable nodes only. -/
theorem reach_congr (h : ∀ x, ReflTransGen E r x → ∀ y, E' x y ↔ E x y) :
    ReflTransGen E' r x ↔ ReflTransGen E r x := by
  constructor
  · intro hx
    induction hx with
    | refl => exact .refl
    | tail _ he ih => exact ih.tail ((h _ ih _).1 he)
  · intro hx
    induction hx with
    | refl => exact .refl
    | tail hb he ih => exact ih.tail ((h _ hb _).2 he)

/-- Edges that lead back to reachable nodes reach nothing new. -/
theorem reach_of_edges (h : ∀ x, ReflTransGen E r x → ∀ y, E' x y → ReflTransGen E r y)
    (hx : ReflTransGen E' r x) : ReflTransGen E r x := by
  induction hx with
  | refl => exact .refl
  | tail _ he ih => exact h _ ih _ he

/-- A new leaf is the one node it adds. -/
theorem reach_addLeaf (hp : ReflTransGen E r p)
    (h : ∀ x, ReflTransGen E r x → ∀ y, E' x y ↔ E x y ∨ (x = p ∧ y = c))
    (hc : ∀ y, ¬ E' c y) : ReflTransGen E' r x ↔ ReflTransGen E r x ∨ x = c := by
  have hmono : ∀ x, ReflTransGen E r x → ReflTransGen E' r x := by
    intro x hx
    induction hx with
    | refl => exact .refl
    | tail hb he ih => exact ih.tail ((h _ hb _).2 (.inl he))
  constructor
  · intro hx
    induction hx with
    | refl => exact .inl .refl
    | @tail b y _ he ih =>
      rcases ih with hb | rfl
      · rcases (h _ hb _).1 he with he | ⟨_, rfl⟩
        · exact .inl (hb.tail he)
        · exact .inr rfl
      · exact absurd he (hc y)
  · rintro (hx | rfl)
    · exact hmono _ hx
    · exact (hmono _ hp).tail ((h _ hp _).2 (.inr ⟨rfl, rfl⟩))

/-- From a node without edges only the node itself is reachable. -/
theorem reach_leaf (hc : ∀ y, ¬ E c y) (h : ReflTransGen E c x) : x = c := by
  rcases h.cases_head with rfl | ⟨b, hb, _⟩
  · rfl
  · exact absurd hb (hc b)

namespace IsTree

/-- A tree has no cycle: a cycle through a node runs through the node's parent too, and so on up to
the root, which has none. -/
theorem acyclic (ht : IsTree E r) (hx : ReflTransGen E r x) : ¬ TransGen E x x := by
  induction hx with
  | refl =>
    intro h
    obtain ⟨b, hb, he⟩ := TransGen.tail'_iff.1 h
    exact ht.root hb he
  | @tail b y hb he ih =>
    intro h
    obtain ⟨b', hb', he'⟩ := TransGen.tail'_iff.1 h
    obtain rfl := ht.unique ((hb.tail he).trans hb') hb he' he
    exact ih (TransGen.head' he hb')

/-- Fewer nodes lie below a child than below its parent: the child itself is one of them. -/
theorem below_lt [Finite α] (ht : IsTree E r) (hx : ReflTransGen E r x) (he : E x y) :
    below E y < below E x := by
  have hy : ReflTransGen E r y := hx.tail he
  refine Set.ncard_lt_ncard ⟨fun z hz => TransGen.head he hz, fun hsub => ?_⟩
  exact ht.acyclic hy (hsub (TransGen.single he))

/-- Two nodes of a tree that reach each other are equal. -/
theorem antisymm (ht : IsTree E r) (hx : ReflTransGen E r x) (hxy : ReflTransGen E x y)
    (hyx : ReflTransGen E y x) : x = y := by
  rcases hxy.cases_head with rfl | ⟨b, hb, hby⟩
  · rfl
  · exact absurd (TransGen.head' hb (hby.trans hyx)) (ht.acyclic hx)

/-- A node of a subtree other than its top has its parent in the subtree. -/
theorem parent_below (ht : IsTree E r) (hc : ReflTransGen E r c) (hx : ReflTransGen E r x)
    (he : E x y) (hne : y ≠ c) (hy : ReflTransGen E c y) : ReflTransGen E c x := by
  rcases hy.cases_tail with rfl | ⟨b, hb, hby⟩
  · exact absurd rfl hne
  · obtain rfl := ht.unique (hc.trans hb) hx hby he
    exact hb

/-- A node outside a subtree stays reachable when the edges into the subtree's top are cut. -/
theorem reach_outside (h : ∀ x, ReflTransGen E r x → ∀ y, E x y → y ≠ c → E' x y)
    (hx : ReflTransGen E r x) (hout : ¬ ReflTransGen E c x) : ReflTransGen E' r x := by
  induction hx with
  | refl => exact .refl
  | @tail b y hb he ih =>
    have hby : ¬ ReflTransGen E c b := fun hcb => hout (hcb.tail he)
    exact (ih hby).tail (h _ hb _ he fun hyc => hout (hyc ▸ .refl))

/-- Cutting the edges into `c` removes the subtree of `c` and nothing else. -/
theorem reach_prune (ht : IsTree E r) (hc : ReflTransGen E r c) (hcr : c ≠ r)
    (h : ∀ x, ReflTransGen E r x → ¬ ReflTransGen E c x → ∀ y, E' x y ↔ E x y ∧ y ≠ c) :
    ReflTransGen E' r x ↔ ReflTransGen E r x ∧ ¬ ReflTransGen E c x := by
  constructor
  · intro hx
    induction hx with
    | refl => exact ⟨.refl, fun hcr' => hcr (ht.antisymm hc hcr' hc)⟩
    | @tail b y _ he ih =>
      obtain ⟨hby, hne⟩ := (h _ ih.1 ih.2 _).1 he
      exact ⟨ih.1.tail hby, fun hy => ih.2 (ht.parent_below hc ih.1 hby hne hy)⟩
  · rintro ⟨hx, hout⟩
    induction hx with
    | refl => exact .refl
    | @tail b y hb he ih =>
      have hby : ¬ ReflTransGen E c b := fun hcb => hout (hcb.tail he)
      exact (ih hby).tail ((h _ hb hby _).2 ⟨he, fun hyc => hout (hyc ▸ .refl)⟩)

section Reparent
variable (h : ∀ x, ReflTransGen E r x → ∀ y, E' x y ↔ (E x y ∧ y ≠ c) ∨ (x = q ∧ y = c))
include h

/-- A subtree that gets a parent outside of it stays in the tree, with all of its nodes. -/
theorem reach_reparent (hc : ReflTransGen E r c) (hq : ReflTransGen E r q)
    (hout : ¬ ReflTransGen E c q) : ReflTransGen E' r x ↔ ReflTransGen E r x := by
  have hq' : ReflTransGen E' r q :=
    reach_outside (fun x hx y he hne => (h x hx y).2 (.inl ⟨he, hne⟩)) hq hout
  have hc' : ReflTransGen E' r c := hq'.tail ((h q hq c).2 (.inr ⟨rfl, rfl⟩))
  constructor
  · intro hx
    induction hx with
    | refl => exact .refl
    | tail _ he ih =>
      rcases (h _ ih _).1 he with ⟨he, _⟩ | ⟨_, rfl⟩
      · exact ih.tail he
      · exact hc
  · intro hx
    induction hx with
    | refl => exact .refl
    | @tail b y hb he ih =>
      by_cases hy : y = c
      · exact hy ▸ hc'
      · exact ih.tail ((h _ hb _).2 (.inl ⟨he, hy⟩))

/-- A subtree that gets a parent inside itself is cut off: nothing of it is reachable any more. -/
theorem reach_reparent_below (ht : IsTree E r) (hc : ReflTransGen E r c) (hcr : c ≠ r)
    (hin : ReflTransGen E c q) (hx : ReflTransGen E' r x) :
    ReflTransGen E r x ∧ ¬ ReflTransGen E c x := by
  induction hx with
  | refl => exact ⟨.refl, fun hcr' => hcr (ht.antisymm hc hcr' hc)⟩
  | @tail b y _ he ih =>
    rcases (h _ ih.1 _).1 he with ⟨he, hne⟩ | ⟨rfl, _⟩
    · exact ⟨ih.1.tail he, fun hy => ih.2 (ht.parent_below hc ih.1 he hne hy)⟩
    · exact absurd hin ih.2

end Reparent

end IsTree

end OsKernel.Lib
