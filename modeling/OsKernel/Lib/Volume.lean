import OsKernel.Lib.Chain
import OsKernel.Lib.Rooted
import Mathlib.Data.Set.Insert

/-!
# Volumes: a tree of records that own chains

A volume has folders, named by cells. `records d` is the set of records of the folder `d`; a record
that is a folder itself names it by its first cell, and every record owns the chain that starts at
its first cell in the allocation map `next`. A volume is well formed (`Volume.WellFormed`) when the
chains of the records of its live folders, those reachable from the root, have the right length,
belong to one record each, and make up the allocated cells; its folders then form a tree
(`WellFormed.folderTree`, `FolderTree.isTree`).

Three edits keep a volume well formed: a record that gets a chain of free cells (`Grows`), a record
without anything below it that gives its chain back (`Shrinks`) and a record that moves to another
folder (`Relinks`). Each comes with what it does to the live folders and to ownership. A record that
goes away with all that is below it (`Prunes`) may leave allocated cells behind that no record owns;
what is left of a well-formed volume then is `Sound`.
-/

namespace OsKernel.Lib

open Relation

/-- How records and cells are to be read. -/
structure Format (κ ε : Type*) where
  /-- The first cell of a record. -/
  first : ε → κ
  isFolder : ε → Bool
  /-- The length of a record's chain. -/
  size : ε → Nat
  root : κ
  stop : κ
  free : κ
  /-- The cells that may lie on chains. -/
  IsData : κ → Prop
  stop_ne_free : stop ≠ free
  stop_notData : ¬ IsData stop
  free_notData : ¬ IsData free
  root_notData : ¬ IsData root

/-- The records of each folder, and the allocation map. -/
structure Volume (κ ε : Type*) where
  records : κ → Set ε
  next : κ → κ

namespace Volume

variable {κ ε : Type*} {F : Format κ ε} {v v' : Volume κ ε} {d d' p q c : κ} {e e' : ε}
  {l : List κ}

/-- Folder `d` holds a record of the folder `c`. -/
def Edge (F : Format κ ε) (v : Volume κ ε) (d c : κ) : Prop :=
  ∃ e ∈ v.records d, F.isFolder e = true ∧ F.first e = c

/-- The folder `d` is reachable from the root. -/
def Live (F : Format κ ε) (v : Volume κ ε) (d : κ) : Prop := ReflTransGen (v.Edge F) F.root d

/-- The cell `c` lies on the chain of the record `e` of the live folder `d`. -/
def Owns (F : Format κ ε) (v : Volume κ ε) (d : κ) (e : ε) (c : κ) : Prop :=
  v.Live F d ∧ e ∈ v.records d ∧ ∃ l, IsChain v.next F.stop (F.first e) l ∧ c ∈ l

/-- The live folders form a tree: no record is the root's, and no two are the same folder's. -/
structure FolderTree (F : Format κ ε) (v : Volume κ ε) : Prop where
  root : ∀ {d e}, v.Live F d → e ∈ v.records d → F.isFolder e = true → F.first e ≠ F.root
  unique : ∀ {d d' e e'}, v.Live F d → v.Live F d' → e ∈ v.records d → e' ∈ v.records d' →
    F.isFolder e = true → F.isFolder e' = true → F.first e = F.first e' → d = d' ∧ e = e'

/-- The chains of the live records are of the right length, disjoint, and all there is. -/
structure WellFormed (F : Format κ ε) (v : Volume κ ε) : Prop where
  chain : ∀ {d e}, v.Live F d → e ∈ v.records d →
    ∃ l, IsChain v.next F.stop (F.first e) l ∧ (∀ c ∈ l, F.IsData c) ∧ l.length = F.size e
  unique : ∀ {d d' e e' c}, v.Owns F d e c → v.Owns F d' e' c → d = d' ∧ e = e'
  owned : ∀ {c}, F.IsData c → (v.next c ≠ F.free ↔ ∃ d e, v.Owns F d e c)

/-- The chains of the live records are of the right length, disjoint and allocated. Unlike in a
well-formed volume there may be allocated cells that no record owns. -/
structure Sound (F : Format κ ε) (v : Volume κ ε) : Prop where
  chain : ∀ {d e}, v.Live F d → e ∈ v.records d →
    ∃ l, IsChain v.next F.stop (F.first e) l ∧ (∀ c ∈ l, F.IsData c) ∧ l.length = F.size e
  unique : ∀ {d d' e e' c}, v.Owns F d e c → v.Owns F d' e' c → d = d' ∧ e = e'
  notFree : ∀ {d e c}, v.Owns F d e c → v.next c ≠ F.free

/-! ## Live folders -/

theorem Live.root : v.Live F F.root := .refl

theorem Live.tail (hd : v.Live F d) (he : e ∈ v.records d) (hf : F.isFolder e = true) :
    v.Live F (F.first e) :=
  ReflTransGen.tail hd ⟨e, he, hf, rfl⟩

/-- A live folder is the root, or a record of a live folder names it. -/
theorem Live.cases (h : v.Live F d) :
    d = F.root ∨ ∃ b e, v.Live F b ∧ e ∈ v.records b ∧ F.isFolder e = true ∧ F.first e = d := by
  rcases ReflTransGen.cases_tail h with rfl | ⟨b, hb, e, he, hf, hd⟩
  · exact .inl rfl
  · exact .inr ⟨b, e, hb, he, hf, hd⟩

/-- A folder tree is a tree. -/
theorem FolderTree.isTree (h : FolderTree F v) : IsTree (v.Edge F) F.root where
  root hx he := by
    obtain ⟨e, he, hf, hr⟩ := he
    exact h.root hx he hf hr
  unique hx hx' he he' := by
    obtain ⟨e, he, hf, hy⟩ := he
    obtain ⟨e', he', hf', hy'⟩ := he'
    exact (h.unique hx hx' he he' hf hf' (hy.trans hy'.symm)).1

/-- The folder tree depends on the records of folders only. -/
theorem live_congr (h : ∀ d, v.Live F d → ∀ e, F.isFolder e = true →
    (e ∈ v'.records d ↔ e ∈ v.records d)) : v'.Live F d ↔ v.Live F d := by
  refine reach_congr fun x hx y => ?_
  refine exists_congr fun e => ?_
  constructor
  · rintro ⟨he, hf, hy⟩
    exact ⟨(h x hx e hf).1 he, hf, hy⟩
  · rintro ⟨he, hf, hy⟩
    exact ⟨(h x hx e hf).2 he, hf, hy⟩

theorem FolderTree.congr (ht : FolderTree F v) (h : ∀ d, v.Live F d → ∀ e, F.isFolder e = true →
    (e ∈ v'.records d ↔ e ∈ v.records d)) : FolderTree F v' where
  root hd he hf :=
    have hd := (live_congr h).1 hd
    ht.root hd ((h _ hd _ hf).1 he) hf
  unique hd hd' he he' hf hf' heq :=
    have hd := (live_congr h).1 hd
    have hd' := (live_congr h).1 hd'
    ht.unique hd hd' ((h _ hd _ hf).1 he) ((h _ hd' _ hf').1 he') hf hf' heq

/-! ## Ownership -/

namespace Sound

theorem first_owned (h : v.Sound F) (hd : v.Live F d) (he : e ∈ v.records d) :
    v.Owns F d e (F.first e) := by
  obtain ⟨l, hl, _, _⟩ := h.chain hd he
  exact ⟨hd, he, l, hl, hl.head_mem⟩

/-- An owned cell is a data cell. -/
theorem data (h : v.Sound F) (ho : v.Owns F d e c) : F.IsData c := by
  obtain ⟨hd, he, l, hl, hc⟩ := ho
  obtain ⟨l', hl', hdata, _⟩ := h.chain hd he
  exact hdata c (hl.unique hl' ▸ hc)

/-- The folders of a sound volume form a tree. -/
theorem folderTree (h : v.Sound F) : FolderTree F v where
  root hd he _ hr := F.root_notData (hr ▸ h.data (h.first_owned hd he))
  unique hd hd' he he' _ _ heq := h.unique (h.first_owned hd he) (heq ▸ h.first_owned hd' he')

/-- A live folder is the root, or it is the first cell of a record. -/
theorem live_owned (h : v.Sound F) (hd : v.Live F d) :
    d = F.root ∨ ∃ b e, v.Owns F b e d ∧ F.isFolder e = true ∧ F.first e = d := by
  rcases hd.cases with rfl | ⟨b, e, hb, he, hf, rfl⟩
  · exact .inl rfl
  · exact .inr ⟨b, e, h.first_owned hb he, hf, rfl⟩

/-- A free data cell is not a live folder. -/
theorem not_live_of_free (h : v.Sound F) (hdata : F.IsData c) (hfree : v.next c = F.free) :
    ¬ v.Live F c := by
  intro hc
  rcases h.live_owned hc with rfl | ⟨b, e, ho, _⟩
  · exact F.root_notData hdata
  · exact h.notFree ho hfree

/-- A live folder on the chain of a record is that record's folder. -/
theorem eq_first_of_live (h : v.Sound F) (ho : v.Owns F p e d) (hd : v.Live F d) :
    F.isFolder e = true ∧ d = F.first e := by
  rcases h.live_owned hd with rfl | ⟨b, e', ho', hf, hfirst⟩
  · exact absurd (h.data ho) F.root_notData
  · obtain ⟨_, rfl⟩ := h.unique ho ho'
    exact ⟨hf, hfirst.symm⟩

end Sound

/-- In a well-formed volume the allocated cells are the owned ones. -/
theorem WellFormed.sound (h : v.WellFormed F) : v.Sound F where
  chain := h.chain
  unique := h.unique
  notFree {d e c} ho := by
    obtain ⟨hd, he, l, hl, hc⟩ := id ho
    obtain ⟨l', hl', hdata, -⟩ := h.chain hd he
    exact (h.owned (hdata c (hl.unique hl' ▸ hc))).2 ⟨d, e, ho⟩

/-! ## A new record -/

/-- `v'` is `v` with the record `e` added to the folder `p` and the free cells `l` threaded into its
chain. -/
structure Grows [DecidableEq κ] (F : Format κ ε) (v v' : Volume κ ε) (p : κ) (e : ε) (l : List κ) :
    Prop where
  parent : v.Live F p
  first : ∃ t, l = F.first e :: t
  nodup : l.Nodup
  fresh : ∀ c ∈ l, F.IsData c ∧ v.next c = F.free
  size : l.length = F.size e
  next : v'.next = link v.next F.stop l
  records : v'.records p = insert e (v.records p)
  other : ∀ d, v.Live F d → d ≠ p → v'.records d = v.records d
  folder : F.isFolder e = true → v'.records (F.first e) = ∅

namespace Grows
variable [DecidableEq κ] (g : Grows F v v' p e l)
include g

/-- The records of the live folders: the old ones, and the new one. -/
theorem mem_records_iff (hd : v.Live F d) {x : ε} :
    x ∈ v'.records d ↔ x ∈ v.records d ∨ (d = p ∧ x = e) := by
  by_cases hp : d = p
  · subst hp
    rw [g.records]
    simp [or_comm]
  · rw [g.other d hd hp]
    simp [hp]

/-- The edges that leave live folders: the old ones, and the one of the new record. -/
theorem edge_iff (hd : v.Live F d) :
    v'.Edge F d c ↔ v.Edge F d c ∨ (d = p ∧ F.isFolder e = true ∧ c = F.first e) := by
  constructor
  · rintro ⟨x, hx, hf, rfl⟩
    rcases (g.mem_records_iff hd).1 hx with hx | ⟨hp, rfl⟩
    · exact .inl ⟨x, hx, hf, rfl⟩
    · exact .inr ⟨hp, hf, rfl⟩
  · rintro (⟨x, hx, hf, rfl⟩ | ⟨hp, hf, rfl⟩)
    · exact ⟨x, (g.mem_records_iff hd).2 (.inl hx), hf, rfl⟩
    · exact ⟨e, (g.mem_records_iff hd).2 (.inr ⟨hp, rfl⟩), hf, rfl⟩

/-- The live folders: the old ones, and the new record's if it is a folder. -/
theorem live_iff : v'.Live F d ↔ v.Live F d ∨ (F.isFolder e = true ∧ d = F.first e) := by
  by_cases hf : F.isFolder e = true
  · have h : ReflTransGen (v'.Edge F) F.root d ↔
        ReflTransGen (v.Edge F) F.root d ∨ d = F.first e := by
      refine reach_addLeaf g.parent (fun x hx y => ?_) fun y hy => ?_
      · simp only [g.edge_iff hx, hf, true_and]
      · obtain ⟨e', he', _⟩ := hy
        rw [g.folder hf] at he'
        exact he'
    exact h.trans (by simp [Live, hf])
  · have h : ReflTransGen (v'.Edge F) F.root d ↔ ReflTransGen (v.Edge F) F.root d :=
      reach_congr fun x hx y => by rw [g.edge_iff hx]; simp [hf]
    exact h.trans (by simp [Live, hf])

/-- Every record of a live folder is an old one, or the new one. -/
theorem mem_cases (hd : v'.Live F d) (he : e' ∈ v'.records d) :
    (v.Live F d ∧ e' ∈ v.records d) ∨ (d = p ∧ e' = e) := by
  rcases g.live_iff.1 hd with hd | ⟨hf, rfl⟩
  · exact ((g.mem_records_iff hd).1 he).imp_left fun he => ⟨hd, he⟩
  · rw [g.folder hf] at he
    exact absurd he (Set.notMem_empty _)

theorem isChain : IsChain v'.next F.stop (F.first e) l := by
  obtain ⟨t, rfl⟩ := g.first
  rw [g.next]
  exact isChain_link g.nodup fun h =>
    F.stop_notData (g.fresh _ (List.mem_cons_of_mem _ h)).1

/-- The chains of the old records are still there. -/
theorem chain_of_old (h : v.Sound F) (hd : v.Live F d) (he : e' ∈ v.records d)
    {l' : List κ} (hl : IsChain v.next F.stop (F.first e') l') :
    IsChain v'.next F.stop (F.first e') l' := by
  refine hl.congr fun c hc => ?_
  have hnot : c ∉ l := fun hcl => h.notFree ⟨hd, he, l', hl, hc⟩ (g.fresh c hcl).2
  rw [g.next, link_of_notMem hnot]

/-- The cells and their owners: the old ones, and the new chain. -/
theorem owns_iff (h : v.Sound F) :
    v'.Owns F d e' c ↔ v.Owns F d e' c ∨ (d = p ∧ e' = e ∧ c ∈ l) := by
  constructor
  · rintro ⟨hd, he, l', hl', hc⟩
    rcases g.mem_cases hd he with ⟨hd, he⟩ | ⟨rfl, rfl⟩
    · obtain ⟨l₀, hl₀, _, _⟩ := h.chain hd he
      have := (g.chain_of_old h hd he hl₀).unique hl'
      exact .inl ⟨hd, he, l₀, hl₀, this ▸ hc⟩
    · exact .inr ⟨rfl, rfl, g.isChain.unique hl' ▸ hc⟩
  · rintro (⟨hd, he, l', hl', hc⟩ | ⟨rfl, rfl, hc⟩)
    · exact ⟨g.live_iff.2 (.inl hd), (g.mem_records_iff hd).2 (.inl he), l',
        g.chain_of_old h hd he hl', hc⟩
    · exact ⟨g.live_iff.2 (.inl g.parent), (g.mem_records_iff g.parent).2 (.inr ⟨rfl, rfl⟩), l,
        g.isChain, hc⟩

/-- The cells of the new chain are allocated. -/
theorem notFree (hc : c ∈ l) : v'.next c ≠ F.free := by
  rcases g.isChain.next_mem hc with hstop | hmem
  · exact hstop ▸ F.stop_ne_free
  · exact fun hfree => F.free_notData (hfree ▸ (g.fresh _ hmem).1)

/-- The other cells keep their contents. -/
theorem next_of_notMem (hc : c ∉ l) : v'.next c = v.next c := by
  rw [g.next, link_of_notMem hc]

/-- The new volume is sound. -/
theorem sound (h : v.Sound F) : v'.Sound F where
  chain hd he := by
    rcases g.mem_cases hd he with ⟨hd, he⟩ | ⟨rfl, rfl⟩
    · obtain ⟨l', hl', hdata, hsize⟩ := h.chain hd he
      exact ⟨l', g.chain_of_old h hd he hl', hdata, hsize⟩
    · exact ⟨l, g.isChain, fun c hc => (g.fresh c hc).1, g.size⟩
  unique ho ho' := by
    rcases (g.owns_iff h).1 ho with ho | ⟨rfl, rfl, hc⟩ <;>
      rcases (g.owns_iff h).1 ho' with ho' | ⟨rfl, rfl, hc'⟩
    · exact h.unique ho ho'
    · exact absurd (g.fresh _ hc').2 (h.notFree ho)
    · exact absurd (g.fresh _ hc).2 (h.notFree ho')
    · exact ⟨rfl, rfl⟩
  notFree {d e' c} ho := by
    by_cases hc : c ∈ l
    · exact g.notFree hc
    · rw [g.next_of_notMem hc]
      rcases (g.owns_iff h).1 ho with ho | ⟨-, -, hcl⟩
      · exact h.notFree ho
      · exact absurd hcl hc

/-- The new volume is well formed. -/
theorem wellFormed (h : v.WellFormed F) : v'.WellFormed F where
  chain := (g.sound h.sound).chain
  unique := (g.sound h.sound).unique
  owned {c} hdata := by
    simp only [g.owns_iff h.sound, exists_or]
    by_cases hc : c ∈ l
    · exact iff_of_true (g.notFree hc) (.inr ⟨p, e, rfl, rfl, hc⟩)
    · rw [g.next_of_notMem hc, h.owned hdata]
      simp [hc]

end Grows

/-! ## A record less -/

/-- The folder `d` is the record's own, or below it. -/
def Below (F : Format κ ε) (v : Volume κ ε) (e : ε) (d : κ) : Prop :=
  F.isFolder e = true ∧ ReflTransGen (v.Edge F) (F.first e) d

/-- `v'` is `v` without the record `e` of the folder `p` and the folders below it. Cells of its
chain may have changed, the ones of the records below it are as before. -/
structure Prunes (F : Format κ ε) (v v' : Volume κ ε) (p : κ) (e : ε) : Prop where
  parent : v.Live F p
  mem : e ∈ v.records p
  kept : ∀ c, ¬ v.Owns F p e c → v'.next c = v.next c
  records : v'.records p = v.records p \ {e}
  other : ∀ d, v.Live F d → ¬ v.Below F e d → d ≠ p → v'.records d = v.records d

namespace Prunes
variable (g : Prunes F v v' p e) (h : v.Sound F)
include g

theorem mem_records_iff (hd : v.Live F d) (hout : ¬ v.Below F e d) :
    e' ∈ v'.records d ↔ e' ∈ v.records d ∧ ¬ (d = p ∧ e' = e) := by
  by_cases hp : d = p
  · subst hp
    rw [g.records]
    simp
  · rw [g.other d hd hout hp]
    simp [hp]

include h

/-- The edges that leave live folders: the ones of the other records. -/
theorem edge_iff (hd : v.Live F d) (hout : ¬ v.Below F e d) :
    v'.Edge F d c ↔ v.Edge F d c ∧ ¬ (F.isFolder e = true ∧ c = F.first e) := by
  constructor
  · rintro ⟨x, hx, hf, rfl⟩
    obtain ⟨hx, hxe⟩ := (g.mem_records_iff hd hout).1 hx
    refine ⟨⟨x, hx, hf, rfl⟩, fun ⟨hfe, heq⟩ => hxe ?_⟩
    exact h.folderTree.unique hd g.parent hx g.mem hf hfe heq
  · rintro ⟨⟨x, hx, hf, rfl⟩, hxe⟩
    exact ⟨x, (g.mem_records_iff hd hout).2 ⟨hx, fun ⟨_, he⟩ => hxe ⟨he ▸ hf, he ▸ rfl⟩⟩, hf, rfl⟩

/-- The live folders: all but the removed ones. -/
theorem live_iff : v'.Live F d ↔ v.Live F d ∧ ¬ v.Below F e d := by
  by_cases hf : F.isFolder e = true
  · have hprune : ReflTransGen (v'.Edge F) F.root d ↔
        ReflTransGen (v.Edge F) F.root d ∧ ¬ ReflTransGen (v.Edge F) (F.first e) d := by
      refine h.folderTree.isTree.reach_prune (g.parent.tail g.mem hf)
        (h.folderTree.root g.parent g.mem hf) fun x hx hout y => ?_
      rw [g.edge_iff h hx fun hbelow => hout hbelow.2]
      simp [hf]
    exact hprune.trans (by simp [Live, Below, hf])
  · have hcongr : ReflTransGen (v'.Edge F) F.root d ↔ ReflTransGen (v.Edge F) F.root d :=
      reach_congr fun x hx y => by rw [g.edge_iff h hx fun hbelow => hf hbelow.1]; simp [hf]
    exact hcongr.trans (by simp [Live, Below, hf])

/-- The records of the live folders were there, outside of what is removed. -/
theorem mem_of_live (hd : v'.Live F d) (he : e' ∈ v'.records d) :
    v.Live F d ∧ ¬ v.Below F e d ∧ e' ∈ v.records d ∧ ¬ (d = p ∧ e' = e) := by
  obtain ⟨hd, hout⟩ := (g.live_iff h).1 hd
  exact ⟨hd, hout, (g.mem_records_iff hd hout).1 he⟩

/-- The chains of the other records are still there. -/
theorem chain_of_old (hd : v.Live F d) (he : e' ∈ v.records d) (hne : ¬ (d = p ∧ e' = e))
    {l' : List κ} (hl : IsChain v.next F.stop (F.first e') l') :
    IsChain v'.next F.stop (F.first e') l' :=
  hl.congr fun _ hc => g.kept _ fun ho => hne (h.unique ⟨hd, he, l', hl, hc⟩ ho)

/-- The cells and their owners: all but the removed records. -/
theorem owns_iff :
    v'.Owns F d e' c ↔ v.Owns F d e' c ∧ ¬ (d = p ∧ e' = e) ∧ ¬ v.Below F e d := by
  constructor
  · rintro ⟨hd, he, l', hl', hc⟩
    obtain ⟨hd, hout, he, hne⟩ := g.mem_of_live h hd he
    obtain ⟨l₀, hl₀, _, _⟩ := h.chain hd he
    have := (g.chain_of_old h hd he hne hl₀).unique hl'
    exact ⟨⟨hd, he, l₀, hl₀, this ▸ hc⟩, hne, hout⟩
  · rintro ⟨⟨hd, he, l', hl', hc⟩, hne, hout⟩
    exact ⟨(g.live_iff h).2 ⟨hd, hout⟩, (g.mem_records_iff hd hout).2 ⟨he, hne⟩, l',
      g.chain_of_old h hd he hne hl', hc⟩

/-- The new volume is sound. -/
theorem sound : v'.Sound F where
  chain hd he := by
    obtain ⟨hd, -, he, hne⟩ := g.mem_of_live h hd he
    obtain ⟨l', hl', hdata, hsize⟩ := h.chain hd he
    exact ⟨l', g.chain_of_old h hd he hne hl', hdata, hsize⟩
  unique ho ho' := h.unique ((g.owns_iff h).1 ho).1 ((g.owns_iff h).1 ho').1
  notFree ho := by
    obtain ⟨ho, hne, -⟩ := (g.owns_iff h).1 ho
    rw [g.kept _ fun hce => hne (h.unique ho hce)]
    exact h.notFree ho

end Prunes

/-- `v'` is `v` without the record `e` of the folder `p`, with its chain `l` free again; a folder is
removed only when it holds no record. -/
structure Shrinks (F : Format κ ε) (v v' : Volume κ ε) (p : κ) (e : ε) (l : List κ) : Prop where
  parent : v.Live F p
  mem : e ∈ v.records p
  chain : IsChain v.next F.stop (F.first e) l
  freed : ∀ c ∈ l, v'.next c = F.free
  kept : ∀ c, c ∉ l → v'.next c = v.next c
  records : v'.records p = v.records p \ {e}
  other : ∀ d, v.Live F d → d ≠ p → d ∉ l → v'.records d = v.records d
  folder : F.isFolder e = true → v.records (F.first e) = ∅

namespace Shrinks
variable (g : Shrinks F v v' p e l) (h : v.Sound F)
include g

theorem owns_of_mem (hc : c ∈ l) : v.Owns F p e c := ⟨g.parent, g.mem, l, g.chain, hc⟩

/-- Nothing is below a folder without records. -/
theorem below_iff : v.Below F e d ↔ F.isFolder e = true ∧ d = F.first e := by
  refine and_congr_right fun hf => ⟨fun hd => reach_leaf (fun y hy => ?_) hd, fun hd => hd ▸ .refl⟩
  obtain ⟨e', he', _⟩ := hy
  rw [g.folder hf] at he'
  exact he'

include h

/-- A live folder whose cell is freed is the removed record's. -/
theorem freed_live (hd : v.Live F d) (hc : d ∈ l) : F.isFolder e = true ∧ d = F.first e :=
  h.eq_first_of_live (g.owns_of_mem hc) hd

theorem prunes : Prunes F v v' p e where
  parent := g.parent
  mem := g.mem
  kept c hc := g.kept c fun hcl => hc (g.owns_of_mem hcl)
  records := g.records
  other d hd hout hp := g.other d hd hp fun hc => hout (g.below_iff.2 (g.freed_live h hd hc))

/-- The edges that leave live folders: the ones of the other records. -/
theorem edge_iff (hd : v.Live F d) (hne : ¬ (F.isFolder e = true ∧ d = F.first e)) :
    v'.Edge F d c ↔ v.Edge F d c ∧ ¬ (F.isFolder e = true ∧ c = F.first e) :=
  (g.prunes h).edge_iff h hd fun hbelow => hne (g.below_iff.1 hbelow)

/-- The live folders: all but the removed one. -/
theorem live_iff :
    v'.Live F d ↔ v.Live F d ∧ ¬ (F.isFolder e = true ∧ d = F.first e) := by
  rw [(g.prunes h).live_iff h, g.below_iff]

/-- The chains of the other records are still there. -/
theorem chain_of_old (hd : v.Live F d) (he : e' ∈ v.records d) (hne : ¬ (d = p ∧ e' = e))
    {l' : List κ} (hl : IsChain v.next F.stop (F.first e') l') :
    IsChain v'.next F.stop (F.first e') l' :=
  (g.prunes h).chain_of_old h hd he hne hl

/-- The cells and their owners: all but the removed record's. -/
theorem owns_iff : v'.Owns F d e' c ↔ v.Owns F d e' c ∧ ¬ (d = p ∧ e' = e) := by
  rw [(g.prunes h).owns_iff h]
  refine and_congr_right fun ho => and_iff_left fun hbelow => ?_
  -- the removed folder holds no record that could own a cell
  obtain ⟨hf, rfl⟩ := g.below_iff.1 hbelow
  have he := ho.2.1
  rw [g.folder hf] at he
  exact he

/-- The new volume is sound. -/
theorem sound : v'.Sound F := (g.prunes h).sound h

omit h in
/-- The new volume is well formed. -/
theorem wellFormed (h : v.WellFormed F) : v'.WellFormed F where
  chain := (g.sound h.sound).chain
  unique := (g.sound h.sound).unique
  owned {c} hdata := by
    simp only [g.owns_iff h.sound]
    by_cases hc : c ∈ l
    · refine iff_of_false (fun hne => hne (g.freed c hc)) ?_
      rintro ⟨d, e', ho, hne⟩
      exact hne (h.unique ho (g.owns_of_mem hc))
    · rw [g.kept c hc, h.owned hdata]
      refine exists_congr fun d => exists_congr fun e' => ⟨fun ho => ⟨ho, ?_⟩, And.left⟩
      rintro ⟨rfl, rfl⟩
      obtain ⟨_, _, l', hl', hc'⟩ := ho
      exact hc (g.chain.unique hl' ▸ hc')

end Shrinks

/-! ## A record that moves -/

/-- `v'` is `v` with the record `e` of the folder `p` moved to the folder `q` as `e'`. -/
structure Relinks (F : Format κ ε) (v v' : Volume κ ε) (p q : κ) (e e' : ε) : Prop where
  source : v.Live F p
  target : v.Live F q
  ne : p ≠ q
  mem : e ∈ v.records p
  first : F.first e' = F.first e
  isFolder : F.isFolder e' = F.isFolder e
  recordsSource : v'.records p = v.records p \ {e}
  recordsTarget : v'.records q = insert e' (v.records q)
  other : ∀ d, v.Live F d → d ≠ p → d ≠ q → v'.records d = v.records d

namespace Relinks
variable (g : Relinks F v v' p q e e') (h : FolderTree F v)
include g

theorem mem_records_iff (hd : v.Live F d) {x : ε} :
    x ∈ v'.records d ↔ (x ∈ v.records d ∧ ¬ (d = p ∧ x = e)) ∨ (d = q ∧ x = e') := by
  by_cases hp : d = p
  · subst hp
    rw [g.recordsSource]
    simp [g.ne]
  · by_cases hq : d = q
    · subst hq
      rw [g.recordsTarget]
      simp only [Set.mem_insert_iff, hp, false_and, not_false_eq_true, and_true, true_and]
      exact or_comm
    · rw [g.other d hd hp hq]
      simp [hp, hq]

include h

/-- The edges that leave live folders: the ones of the other records, and the moved one. -/
theorem edge_iff (hd : v.Live F d) :
    v'.Edge F d c ↔ (v.Edge F d c ∧ ¬ (F.isFolder e = true ∧ c = F.first e)) ∨
      (d = q ∧ F.isFolder e = true ∧ c = F.first e) := by
  constructor
  · rintro ⟨x, hx, hf, rfl⟩
    rcases (g.mem_records_iff hd).1 hx with ⟨hx, hne⟩ | ⟨rfl, rfl⟩
    · refine .inl ⟨⟨x, hx, hf, rfl⟩, fun ⟨hfe, heq⟩ => hne ?_⟩
      exact h.unique hd g.source hx g.mem hf hfe heq
    · exact .inr ⟨rfl, g.isFolder ▸ hf, g.first⟩
  · rintro (⟨⟨x, hx, hf, rfl⟩, hne⟩ | ⟨rfl, hf, rfl⟩)
    · refine ⟨x, (g.mem_records_iff hd).2 (.inl ⟨hx, fun ⟨_, he⟩ => hne ?_⟩), hf, rfl⟩
      exact ⟨he ▸ hf, he ▸ rfl⟩
    · exact ⟨e', (g.mem_records_iff hd).2 (.inr ⟨rfl, rfl⟩), g.isFolder ▸ hf, g.first⟩

/-- A folder that moves below itself takes its target out of the tree. -/
theorem target_lost (hf : F.isFolder e = true)
    (hin : ReflTransGen (v.Edge F) (F.first e) q) : ¬ v'.Live F q := by
  intro hq
  have hc := g.source.tail g.mem hf
  refine (h.isTree.reach_reparent_below (fun x hx y => ?_) hc (h.root g.source g.mem hf) hin hq).2
    hin
  rw [g.edge_iff h hx]
  simp [hf]

section Outside
variable (hout : F.isFolder e = true → ¬ ReflTransGen (v.Edge F) (F.first e) q)
include hout

/-- The live folders stay the same when a folder moves to a place that is not below it. -/
theorem live_iff : v'.Live F d ↔ v.Live F d := by
  by_cases hf : F.isFolder e = true
  · exact IsTree.reach_reparent (fun x hx y => by rw [g.edge_iff h hx]; simp [hf])
      (g.source.tail g.mem hf) g.target (hout hf)
  · exact reach_congr fun x hx y => by rw [g.edge_iff h hx]; simp [hf]

/-- The folders still form a tree. -/
theorem folderTree : FolderTree F v' where
  root hd hx hf := by
    have hd := (g.live_iff h hout).1 hd
    rcases (g.mem_records_iff hd).1 hx with ⟨hx, _⟩ | ⟨rfl, rfl⟩
    · exact h.root hd hx hf
    · rw [g.first]
      exact h.root g.source g.mem (g.isFolder ▸ hf)
  unique {d d' x x'} hd hd' hx hx' hf hf' heq := by
    have hd := (g.live_iff h hout).1 hd
    have hd' := (g.live_iff h hout).1 hd'
    rcases (g.mem_records_iff hd).1 hx with ⟨hx, hne⟩ | ⟨rfl, rfl⟩ <;>
      rcases (g.mem_records_iff hd').1 hx' with ⟨hx', hne'⟩ | ⟨rfl, rfl⟩
    · exact h.unique hd hd' hx hx' hf hf' heq
    · rw [g.first] at heq
      exact absurd (h.unique hd g.source hx g.mem hf (g.isFolder ▸ hf') heq) hne
    · rw [g.first] at heq
      exact absurd (h.unique hd' g.source hx' g.mem hf' (g.isFolder ▸ hf) heq.symm) hne'
    · exact ⟨rfl, rfl⟩

end Outside

end Relinks

/-! The moved record keeps its chain, so the volume stays sound. -/

namespace Relinks
variable (g : Relinks F v v' p q e e') (h : v.Sound F) (hnext : v'.next = v.next)
  (hsize : F.size e' = F.size e)
  (hout : F.isFolder e = true → ¬ ReflTransGen (v.Edge F) (F.first e) q)
include g h hnext hout

/-- The cells and their owners: the moved record keeps its chain. -/
theorem owns_iff {x : ε} : v'.Owns F d x c ↔
    (v.Owns F d x c ∧ ¬ (d = p ∧ x = e)) ∨ (d = q ∧ x = e' ∧ v.Owns F p e c) := by
  unfold Owns
  rw [hnext]
  constructor
  · rintro ⟨hd, hx, l, hl, hc⟩
    have hd := (g.live_iff h.folderTree hout).1 hd
    rcases (g.mem_records_iff hd).1 hx with ⟨hx, hne⟩ | ⟨rfl, rfl⟩
    · exact .inl ⟨⟨hd, hx, l, hl, hc⟩, hne⟩
    · exact .inr ⟨rfl, rfl, g.source, g.mem, l, g.first ▸ hl, hc⟩
  · rintro (⟨⟨hd, hx, l, hl, hc⟩, hne⟩ | ⟨rfl, rfl, -, -, l, hl, hc⟩)
    · exact ⟨(g.live_iff h.folderTree hout).2 hd, (g.mem_records_iff hd).2 (.inl ⟨hx, hne⟩), l, hl,
        hc⟩
    · exact ⟨(g.live_iff h.folderTree hout).2 g.target,
        (g.mem_records_iff g.target).2 (.inr ⟨rfl, rfl⟩), l, g.first.symm ▸ hl, hc⟩

include hsize

/-- The new volume is sound. -/
theorem sound : v'.Sound F where
  chain {d x} hd hx := by
    have hd := (g.live_iff h.folderTree hout).1 hd
    rw [hnext]
    rcases (g.mem_records_iff hd).1 hx with ⟨hx, -⟩ | ⟨rfl, rfl⟩
    · exact h.chain hd hx
    · rw [g.first, hsize]
      exact h.chain g.source g.mem
  unique ho ho' := by
    rcases (g.owns_iff h hnext hout).1 ho with ⟨ho, hne⟩ | ⟨rfl, rfl, ho⟩ <;>
      rcases (g.owns_iff h hnext hout).1 ho' with ⟨ho', hne'⟩ | ⟨rfl, rfl, ho'⟩
    · exact h.unique ho ho'
    · exact absurd (h.unique ho ho') hne
    · exact absurd (h.unique ho' ho) hne'
    · exact ⟨rfl, rfl⟩
  notFree ho := by
    rw [hnext]
    rcases (g.owns_iff h hnext hout).1 ho with ⟨ho, -⟩ | ⟨-, -, ho⟩
    · exact h.notFree ho
    · exact h.notFree ho

end Relinks

end Volume

end OsKernel.Lib
