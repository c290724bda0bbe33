import OsKernel.Lib.Volume

/-!
# Stores of named nodes

A store is what a tree of folders is for: every folder holds files and folders under names, and a
file has contents. `Represents` relates it to a volume, whose records have names and whose chains
hold the contents: below the live folders both hold the same. The edits of a volume are edits of the
store: a record that `Grows` is a new file or folder, one that is pruned is a name that goes away
(`Prunes.represents`), and one that is relinked a name that moves (`Relinks.represents`).
-/

namespace OsKernel.Lib

open Relation

/-- What a name stands for. -/
inductive Node (κ β : Type*)
  | file (data : β)
  | folder (dir : κ)

/-- What every folder holds under every name. -/
abbrev Store (κ ν β : Type*) := κ → ν → Option (Node κ β)

namespace Store

variable {κ ν β : Type*}

/-- The store without any name. -/
def empty : Store κ ν β := fun _ _ => none

/-- The folder `d` is reachable from the folder `r`. -/
def Reach (s : Store κ ν β) (r d : κ) : Prop :=
  ReflTransGen (fun x y => ∃ k, s x k = some (.folder y)) r d

/-- A folder stays reachable when the reachable folders keep their folders. -/
theorem Reach.mono {s s' : Store κ ν β} {r x : κ} (h : s.Reach r x)
    (hkeep : ∀ y k c, s.Reach r y → s y k = some (.folder c) → s' y k = some (.folder c)) :
    s'.Reach r x := by
  induction h with
  | refl => exact .refl
  | tail hy hedge ih =>
    obtain ⟨k, hk⟩ := hedge
    exact .tail ih ⟨k, hkeep _ k _ hy hk⟩

variable [DecidableEq κ] [DecidableEq ν] {s : Store κ ν β} {d x c : κ} {k y : ν}
  {n : Option (Node κ β)}

/-- The name `k` of the folder `d` stands for something else, or for nothing. -/
def set (s : Store κ ν β) (d : κ) (k : ν) (n : Option (Node κ β)) : Store κ ν β :=
  Function.update s d (Function.update (s d) k n)

/-- The name goes away. -/
def erase (s : Store κ ν β) (d : κ) (k : ν) : Store κ ν β := s.set d k none

/-- A file gets a name. -/
def put (s : Store κ ν β) (d : κ) (k : ν) (data : β) : Store κ ν β := s.set d k (some (.file data))

/-- An empty folder `c` gets a name. -/
def mkdir (s : Store κ ν β) (d : κ) (k : ν) (c : κ) : Store κ ν β :=
  Function.update (s.set d k (some (.folder c))) c fun _ => none

/-- What has a name gets another one, in any folder. -/
def move (s : Store κ ν β) (d : κ) (k : ν) (d' : κ) (k' : ν) : Store κ ν β :=
  (s.erase d k).set d' k' (s d k)

theorem set_apply : s.set d k n x y = if x = d ∧ y = k then n else s x y := by
  rw [set]
  by_cases hx : x = d
  · subst hx
    rw [Function.update_self, Function.update_apply]
    simp only [true_and]
  · rw [Function.update_of_ne hx, if_neg fun h => hx h.1]

theorem set_self : s.set d k n d k = n := by rw [set_apply, if_pos ⟨rfl, rfl⟩]

theorem set_of_ne (h : ¬ (x = d ∧ y = k)) : s.set d k n x y = s x y := by rw [set_apply, if_neg h]

theorem mkdir_of_ne (h : x ≠ c) : s.mkdir d k c x = s.set d k (some (.folder c)) x :=
  Function.update_of_ne h _ _

theorem mkdir_new : s.mkdir d k c c y = none := by rw [mkdir, Function.update_self]

/-! ## Reachable folders -/

section Reach
variable {r : κ}

/-- A new name leaves the folders reachable. -/
theorem Reach.set (h : s.Reach r x) (hk : s d k = none) : (s.set d k n).Reach r x := by
  refine h.mono fun y k' c _ hc => ?_
  rw [set_of_ne, hc]
  rintro ⟨rfl, rfl⟩
  rw [hk] at hc
  cases hc

theorem Reach.mkdir (h : s.Reach r x) (hk : s d k = none) (hc : ¬ s.Reach r c) :
    (s.mkdir d k c).Reach r x := by
  refine h.mono fun y k' c' hy hc' => ?_
  have hyc : y ≠ c := by
    rintro rfl
    exact hc hy
  rw [mkdir_of_ne hyc, set_of_ne, hc']
  rintro ⟨rfl, rfl⟩
  rw [hk] at hc'
  cases hc'

/-- A name that goes away leaves its own folder reachable: the way there does not lead through the
name. -/
theorem Reach.erase (h : s.Reach r d) (k : ν) : (s.erase d k).Reach r d := by
  have hway : ∀ {x}, s.Reach r x → (s.erase d k).Reach r x ∨ (s.erase d k).Reach r d := by
    intro x hx
    induction hx with
    | refl => exact .inl .refl
    | @tail y z _ hedge ih =>
      refine ih.elim (fun hy => ?_) .inr
      obtain ⟨k', hk'⟩ := hedge
      by_cases hname : y = d ∧ k' = k
      · exact .inr (hname.1 ▸ hy)
      · refine .inl (.tail hy ⟨k', ?_⟩)
        rw [Store.erase, set_of_ne hname, hk']
  exact (hway h).elim id id

end Reach

end Store

/-! ## Volumes with names and contents -/

variable {κ ν β ε : Type*} {F : Format κ ε} {name : ε → ν} {data data' : κ → ε → β → Prop}
  {v v' : Volume κ ε} {s : Store κ ν β} {p q c d : κ} {e e' : ε}

/-- The node is what the record `e` of the folder `d` stands for. -/
def Denotes (F : Format κ ε) (data : κ → ε → β → Prop) (d : κ) (e : ε) : Node κ β → Prop
  | .file b => F.isFolder e = false ∧ data d e b
  | .folder c => F.isFolder e = true ∧ c = F.first e

/-- In the live folders the store holds what the records stand for, under their names. -/
structure Represents (F : Format κ ε) (name : ε → ν) (data : κ → ε → β → Prop) (v : Volume κ ε)
    (s : Store κ ν β) : Prop where
  entry : ∀ {d e}, v.Live F d → e ∈ v.records d → ∃ n, s d (name e) = some n ∧ Denotes F data d e n
  named : ∀ {d k}, v.Live F d → s d k ≠ none → ∃ e ∈ v.records d, name e = k

/-- Records whose contents are kept stand for the same. -/
theorem Denotes.mono {n : Node κ β} (h : Denotes F data d e n)
    (hdata : F.isFolder e = false → ∀ b, data d e b → data' d e b) : Denotes F data' d e n := by
  cases n with
  | file b => exact ⟨h.1, hdata h.1 b h.2⟩
  | folder c => exact h

namespace Represents

/-- A volume without records represents the store without names. -/
theorem empty (h : ∀ d, v.Live F d → v.records d = ∅) : Represents F name data v .empty where
  entry hd he := by
    rw [h _ hd] at he
    exact absurd he (Set.notMem_empty _)
  named _ hk := absurd rfl hk

/-- A name that no record has stands for nothing. -/
theorem eq_none (h : Represents F name data v s) (hd : v.Live F d) {k : ν}
    (hk : ∀ e ∈ v.records d, name e ≠ k) : s d k = none := by
  by_contra hne
  obtain ⟨e, he, hek⟩ := h.named hd hne
  exact hk e he hek

/-- The live folders are the reachable ones. -/
theorem reach_iff (h : Represents F name data v s) : s.Reach F.root d ↔ v.Live F d := by
  refine reach_congr fun x hx y => ?_
  constructor
  · rintro ⟨k, hk⟩
    obtain ⟨e, he, rfl⟩ := h.named hx (by rw [hk]; exact Option.some_ne_none _)
    obtain ⟨n, hn, hden⟩ := h.entry hx he
    rw [hk] at hn
    cases hn
    exact ⟨e, he, hden.1, hden.2.symm⟩
  · rintro ⟨e, he, hf, rfl⟩
    obtain ⟨n, hn, hden⟩ := h.entry hx he
    cases n with
    | file b => exact absurd (hf.symm.trans hden.1) (by decide)
    | folder c => exact ⟨name e, hden.2 ▸ hn⟩

/-- A file and its record. -/
theorem file (h : Represents F name data v s) (hd : v.Live F d) {b : β}
    (hk : s d (name e) = some (.file b)) (he : e ∈ v.records d) :
    F.isFolder e = false ∧ data d e b := by
  obtain ⟨n, hn, hden⟩ := h.entry hd he
  rw [hk] at hn
  cases hn
  exact hden

end Represents

variable [DecidableEq κ] [DecidableEq ν]

/-! ## Edits -/

section Grows
variable {l : List κ} (g : v.Grows F v' p e l) (h : Represents F name data v s)
  (hnew : ∀ x ∈ v.records p, name x ≠ name e)
  (hdata : ∀ {d x b}, v.Live F d → x ∈ v.records d → F.isFolder x = false →
    data d x b → data' d x b)
include g h hnew hdata

/-- What the old records stand for is still there. -/
theorem Volume.Grows.entry_set (hd : v.Live F d) {x : ε} (hx : x ∈ v.records d) (n : Node κ β) :
    ∃ m, s.set p (name e) (some n) d (name x) = some m ∧ Denotes F data' d x m := by
  obtain ⟨m, hm, hden⟩ := h.entry hd hx
  refine ⟨m, ?_, hden.mono fun hf b => hdata hd hx hf⟩
  rw [Store.set_of_ne, hm]
  rintro ⟨rfl, hname⟩
  exact hnew x hx hname

omit hnew hdata in
/-- Every name of a live folder is that of a record. -/
theorem Volume.Grows.named_set (hd : v.Live F d) {k : ν} {n : Option (Node κ β)}
    (hk : s.set p (name e) n d k ≠ none) : ∃ x ∈ v'.records d, name x = k := by
  by_cases hpe : d = p ∧ k = name e
  · exact ⟨e, (g.mem_records_iff hd).2 (.inr ⟨hpe.1, rfl⟩), hpe.2.symm⟩
  · rw [Store.set_of_ne hpe] at hk
    obtain ⟨x, hx, hxk⟩ := h.named hd hk
    exact ⟨x, (g.mem_records_iff hd).2 (.inl hx), hxk⟩

/-- A new record that is no folder is a new file. -/
theorem Volume.Grows.represents_put (hf : F.isFolder e = false) {b : β} (hb : data' p e b) :
    Represents F name data' v' (s.put p (name e) b) where
  entry {d x} hd hx := by
    rcases g.mem_cases hd hx with ⟨hd, hx⟩ | ⟨rfl, rfl⟩
    · exact g.entry_set h hnew hdata hd hx _
    · exact ⟨_, Store.set_self, hf, hb⟩
  named hd hk := by
    rcases g.live_iff.1 hd with hd | ⟨hf', rfl⟩
    · exact g.named_set h hd hk
    · rw [hf] at hf'
      cases hf'

/-- A new record that is a folder is a new folder, without any name in it. -/
theorem Volume.Grows.represents_mkdir (hv : v.Sound F) (hf : F.isFolder e = true) :
    Represents F name data' v' (s.mkdir p (name e) (F.first e)) where
  entry {d x} hd hx := by
    have hfresh : ¬ v.Live F (F.first e) := by
      obtain ⟨t, rfl⟩ := g.first
      obtain ⟨hdata, hfree⟩ := g.fresh _ List.mem_cons_self
      exact hv.not_live_of_free hdata hfree
    have hne : d ≠ F.first e := by
      rintro rfl
      rw [g.folder hf] at hx
      exact absurd hx (Set.notMem_empty _)
    rw [Store.mkdir_of_ne hne]
    rcases g.mem_cases hd hx with ⟨hd, hx⟩ | ⟨rfl, rfl⟩
    · exact g.entry_set h hnew hdata hd hx _
    · exact ⟨_, Store.set_self, hf, rfl⟩
  named {d k} hd hk := by
    have hne : d ≠ F.first e := by
      rintro rfl
      exact hk Store.mkdir_new
    rw [Store.mkdir_of_ne hne] at hk
    rcases g.live_iff.1 hd with hd | ⟨-, rfl⟩
    · exact g.named_set h hd hk
    · exact absurd rfl hne

end Grows

/-- A record that goes away with all below it is a name that goes away. -/
theorem Volume.Prunes.represents (g : v.Prunes F v' p e) (hv : v.Sound F)
    (h : Represents F name data v s) (hinj : ∀ x ∈ v.records p, name x = name e → x = e)
    (hdata : ∀ {d x b}, v.Live F d → ¬ v.Below F e d → x ∈ v.records d → ¬ (d = p ∧ x = e) →
      F.isFolder x = false → data d x b → data' d x b) :
    Represents F name data' v' (s.erase p (name e)) where
  entry {d x} hd hx := by
    obtain ⟨hd, hout, hx, hne⟩ := g.mem_of_live hv hd hx
    obtain ⟨n, hn, hden⟩ := h.entry hd hx
    refine ⟨n, ?_, hden.mono fun hf b => hdata hd hout hx hne hf⟩
    rw [Store.erase, Store.set_of_ne, hn]
    rintro ⟨rfl, hname⟩
    exact hne ⟨rfl, hinj x hx hname⟩
  named {d k} hd hk := by
    obtain ⟨hd, hout⟩ := (g.live_iff hv).1 hd
    have hpe : ¬ (d = p ∧ k = name e) := by
      rintro ⟨rfl, rfl⟩
      exact hk Store.set_self
    rw [Store.erase, Store.set_of_ne hpe] at hk
    obtain ⟨x, hx, rfl⟩ := h.named hd hk
    refine ⟨x, (g.mem_records_iff hd hout).2 ⟨hx, ?_⟩, rfl⟩
    rintro ⟨rfl, rfl⟩
    exact hpe ⟨rfl, rfl⟩

/-- A record that goes to another folder is a name that moves. -/
theorem Volume.Relinks.represents (g : v.Relinks F v' p q e e') (hv : FolderTree F v)
    (hout : F.isFolder e = true → ¬ ReflTransGen (v.Edge F) (F.first e) q)
    (h : Represents F name data v s) (hinj : ∀ x ∈ v.records p, name x = name e → x = e)
    (hnew : ∀ x ∈ v.records q, name x ≠ name e')
    (hdata : ∀ {d x b}, v.Live F d → x ∈ v.records d → ¬ (d = p ∧ x = e) → F.isFolder x = false →
      data d x b → data' d x b)
    (hmoved : ∀ {b}, F.isFolder e = false → data p e b → data' q e' b) :
    Represents F name data' v' (s.move p (name e) q (name e')) where
  entry {d x} hd hx := by
    have hd := (g.live_iff hv hout).1 hd
    rcases (g.mem_records_iff hd).1 hx with ⟨hx, hne⟩ | ⟨rfl, rfl⟩
    · obtain ⟨n, hn, hden⟩ := h.entry hd hx
      refine ⟨n, ?_, hden.mono fun hf b => hdata hd hx hne hf⟩
      rw [Store.move, Store.set_of_ne, Store.erase, Store.set_of_ne, hn]
      · rintro ⟨rfl, hname⟩
        exact hne ⟨rfl, hinj x hx hname⟩
      · rintro ⟨rfl, hname⟩
        exact hnew x hx hname
    · obtain ⟨n, hn, hden⟩ := h.entry g.source g.mem
      refine ⟨n, ?_, ?_⟩
      · rw [Store.move, Store.set_self, hn]
      · cases n with
        | file b => exact ⟨g.isFolder.trans hden.1, hmoved hden.1 hden.2⟩
        | folder c => exact ⟨g.isFolder.trans hden.1, hden.2.trans g.first.symm⟩
  named {d k} hd hk := by
    have hd := (g.live_iff hv hout).1 hd
    by_cases hq : d = q ∧ k = name e'
    · exact ⟨e', (g.mem_records_iff hd).2 (.inr ⟨hq.1, rfl⟩), hq.2.symm⟩
    · have hp : ¬ (d = p ∧ k = name e) := by
        rintro ⟨rfl, rfl⟩
        rw [Store.move, Store.set_of_ne hq] at hk
        exact hk Store.set_self
      rw [Store.move, Store.set_of_ne hq, Store.erase, Store.set_of_ne hp] at hk
      obtain ⟨x, hx, rfl⟩ := h.named hd hk
      refine ⟨x, (g.mem_records_iff hd).2 (.inl ⟨hx, ?_⟩), rfl⟩
      rintro ⟨rfl, rfl⟩
      exact hp ⟨rfl, rfl⟩

end OsKernel.Lib
