import OsKernel.Fat32.Heads
import OsKernel.Shell.Paths

/-!
# The two resolvers of paths

`get_deep_folder_cluster` follows all components of a path, `get_final_parent_cluster` all but the
last. One looks from slot 1 on, the other from slot 0 on, where a directory has the entry for
itself. So a component that is the name of the directory it is looked up in leads
`get_final_parent_cluster` along that entry, whose cluster is not the directory's own
(`FileSystem.Misled`). Apart from that, and as long as every component fits into the 9 characters of
`parent` and none is taken for the rest of its path, the two come to the same directory, or to none
(`resolvers_agree_iff`).
-/

namespace OsKernel

open Lib Relation

/-! ## The function of the shell -/

/-- `get_final_parent_cluster`, down to a depth of `steps` directories. -/
def getFinalParentCluster (fs : FileSystem) : Nat → List UInt8 → UInt32 → Except Fault UInt32
  | 0, _, _ => .error .outOfSteps
  | steps + 1, path, currentFolderCluster => do
    let parent ← getParent path
    if isStrEqual parent path then return currentFolderCluster
    else do
      let dirTable := fs.tableAt currentFolderCluster
      match ← findFolder dirTable parent (List.finRange 64) with
      | none => return 0
      | some i =>
        getFinalParentCluster fs steps (path.drop ((strlen parent).toNat + 1)) (dirTable i).cluster

/-! ## Paths -/

/-- A component of a path, and the separator behind it. -/
structure PathPart where
  component : List UInt8
  separator : UInt8
  nonempty : component ≠ []
  plain : ∀ c ∈ component, isSeparator c = false
  separates : isSeparator separator = true

/-- The text of the components, each with its separator. -/
def prefixText (parts : List PathPart) : List UInt8 :=
  parts.flatMap fun part => part.component ++ [part.separator]

/-- The text of the components without the last separator. -/
def folderText (parts : List PathPart) : List UInt8 := (prefixText parts).dropLast

/-- What a component leads to: the folder of that name in the directory at `b`, or its parent. The
parent of the root directory is the root directory. -/
inductive FileSystem.LeadsTo (fs : FileSystem) (b : UInt32) : List UInt8 → UInt32 → Prop
  | child {e : DirectoryEntry} : e ∈ fs.entries b → e.isSubdirectory = true →
      LeadsTo fs b (nameChars e.name) e.cluster
  | parent {a : UInt32} : fs.LiveDir a → fs.volume.Edge fatFormat a b →
      LeadsTo fs b [0x2E, 0x2E] a
  | root : b = rootClusterNumber → LeadsTo fs b [0x2E, 0x2E] rootClusterNumber

/-- The components lead from the directory at `b` to the one at `d`. -/
inductive FileSystem.Follows (fs : FileSystem) : UInt32 → List PathPart → UInt32 → Prop
  | nil {b : UInt32} : Follows fs b [] b
  | cons {b c d : UInt32} {part : PathPart} {parts : List PathPart} :
      fs.LeadsTo b part.component c → Follows fs c parts d → Follows fs b (part :: parts) d

/-- The directory at `b` is itself called `component`, and its entry for itself does not carry the
cluster that `component` leads to. -/
def FileSystem.Misled (fs : FileSystem) (b : UInt32) (component : List UInt8) : Prop :=
  nameChars (fs.tableAt b 0).name = component ∧ ¬ fs.LeadsTo b component (fs.tableAt b 0).cluster

/-- Behind no component that is looked up the rest of the path is a multiple of 256 characters
long. -/
def FileSystem.Unwrapped (fs : FileSystem) (c : UInt32) (parts : List PathPart)
    (leaf : List UInt8) :
    Prop :=
  ∀ pre part rest, pre ++ part :: rest <+: parts → (∃ b, fs.Follows c pre b) →
    ¬ 256 ∣ (prefixText rest).length + 1 + leaf.length ∧
      (rest ≠ [] → ¬ 256 ∣ (prefixText rest).length)

section Text
variable {fs : FileSystem} {c d : UInt32} {part : PathPart} {parts : List PathPart}
  {leaf : List UInt8}

theorem prefixText_cons :
    prefixText (part :: parts) = part.component ++ part.separator :: prefixText parts := by
  rw [prefixText, List.flatMap_cons, List.append_assoc]
  rfl

theorem prefixText_ne_nil (h : parts ≠ []) : prefixText parts ≠ [] := by
  cases parts with
  | nil => exact absurd rfl h
  | cons part parts =>
    rw [prefixText_cons]
    exact List.append_ne_nil_of_right_ne_nil _ (List.cons_ne_nil _ _)

theorem folderText_singleton : folderText [part] = part.component := by
  rw [folderText, prefixText_cons, show prefixText [] = [] from rfl, List.dropLast_concat]

theorem folderText_cons (h : parts ≠ []) :
    folderText (part :: parts) = part.component ++ part.separator :: folderText parts := by
  have hne := prefixText_ne_nil h
  rw [folderText, prefixText_cons, List.dropLast_append_of_ne_nil (List.cons_ne_nil _ _),
    List.dropLast_cons_of_ne_nil hne]
  rfl

theorem length_folderText (h : parts ≠ []) :
    (folderText parts).length + 1 = (prefixText parts).length := by
  have hpos := List.length_pos_iff.2 (prefixText_ne_nil h)
  rw [folderText, List.length_dropLast]
  omega

theorem FileSystem.Unwrapped.of_prefix {parts' : List PathPart} (h : fs.Unwrapped c parts leaf)
    (hp : parts' <+: parts) : fs.Unwrapped c parts' leaf :=
  fun pre part rest hrest => h pre part rest (hrest.trans hp)

theorem FileSystem.Unwrapped.tail (h : fs.Unwrapped c (part :: parts) leaf)
    (hlead : fs.LeadsTo c part.component d) : fs.Unwrapped d parts leaf :=
  fun pre x rest hrest ⟨b, hb⟩ =>
    h (part :: pre) x rest (List.cons_prefix_cons.2 ⟨rfl, hrest⟩) ⟨b, .cons hlead hb⟩

/-- Paths of less than 256 characters are unwrapped, like all that the shell reads. -/
theorem unwrapped_of_length_lt (h : (prefixText parts).length + leaf.length < 256) :
    fs.Unwrapped c parts leaf := by
  rintro pre x rest ⟨post, hprefix⟩ -
  have hle : (prefixText (x :: rest)).length ≤ (prefixText parts).length := by
    rw [← hprefix]
    simp only [prefixText, List.flatMap_append, List.length_append]
    omega
  rw [prefixText_cons, List.length_append, List.length_cons] at hle
  refine ⟨fun hdvd => ?_, fun hne hdvd => ?_⟩
  · have := Nat.le_of_dvd (by omega) hdvd
    omega
  · have := Nat.le_of_dvd (List.length_pos_iff.2 (prefixText_ne_nil hne)) hdvd
    omega

/-- The first component of a path. -/
theorem getParent_append {component rest : List UInt8}
    (hplain : ∀ c ∈ component, isSeparator c = false)
    (hrest : ∀ c ∈ rest.head?, isSeparator c = true) : getParent (component ++ rest) =
      if component.length < 10 then .ok component else .error (.arrayIndex 10) := by
  have htake : (component ++ rest).takeWhile (fun c => !isSeparator c) = component := by
    rw [List.takeWhile_append_of_pos fun c hc => by simp [hplain c hc]]
    cases rest with
    | nil => exact List.append_nil _
    | cons c rest =>
      rw [List.takeWhile_cons_of_neg (by simp [hrest c rfl]), List.append_nil]
  rw [getParent, htake]

end Text

/-! ## Where components lead -/

section Leads
variable {fs : FileSystem} {b c d d' : UInt32} {component : List UInt8} {part : PathPart}
  {parts pre : List PathPart}

theorem FileSystem.LeadsTo.live (h : fs.LeadsTo b component d) (hb : fs.LiveDir b) :
    fs.LiveDir d := by
  cases h with
  | child he hf => exact hb.tail he hf
  | parent ha => exact ha
  | root => exact .root

/-- A component leads to one directory at most. -/
theorem FileSystem.LeadsTo.unique (h : fs.Headed) (hb : fs.LiveDir b)
    (hd : fs.LeadsTo b component d) (hd' : fs.LeadsTo b component d') : d = d' := by
  have hdot : ∀ {e}, e ∈ fs.entries b → nameChars e.name ≠ [0x2E, 0x2E] := fun he =>
    (h.proper hb he).name.ne_dotdot
  have hup : ∀ {a}, fs.LiveDir a → fs.volume.Edge fatFormat a b → b ≠ rootClusterNumber := by
    rintro a ha ⟨e, he, hf, hfirst⟩ heq
    exact h.volume.folderTree.root ha he hf (hfirst.trans heq)
  generalize hx : component = x at hd'
  cases hd with
  | @child e he hf =>
    cases hd' with
    | @child e' he' hf' =>
      have hext := fun {e} he hf => (h.proper (e := e) hb he).folder hf
      have hname := (h.proper hb he).name.ext (h.proper hb he').name hx
      rw [h.eq_of_key hb he he' (Prod.ext hname ((hext he hf).trans (hext he' hf').symm))]
    | parent => exact absurd hx (hdot he)
    | root => exact absurd hx (hdot he)
  | parent ha hab =>
    cases hd' with
    | child he => exact absurd hx.symm (hdot he)
    | parent ha' hab' => rw [← h.parent ha hab, ← h.parent ha' hab']
    | root hroot => exact absurd hroot (hup ha hab)
  | root hroot =>
    cases hd' with
    | child he => exact absurd hx.symm (hdot he)
    | parent ha' hab' => exact absurd hroot (hup ha' hab')
    | root => rfl

theorem FileSystem.Follows.live (h : fs.Follows b parts d) (hb : fs.LiveDir b) : fs.LiveDir d := by
  induction h with
  | nil => exact hb
  | cons hlead _ ih => exact ih (hlead.live hb)

/-- The beginning of a path leads to a directory, too. -/
theorem FileSystem.Follows.exists_prefix {rest : List PathPart} (h : fs.Follows b (pre ++ rest) d) :
    ∃ c, fs.Follows b pre c := by
  induction pre generalizing b with
  | nil => exact ⟨b, .nil⟩
  | cons part pre ih =>
    rw [List.cons_append] at h
    cases h with
    | cons hlead hrest =>
      obtain ⟨c, hc⟩ := ih hrest
      exact ⟨c, .cons hlead hc⟩

/-- What leads on behind a path leads on from the directory that the path leads to. -/
theorem FileSystem.Follows.of_append (h : fs.Headed) (hb : fs.LiveDir b) (hpre : fs.Follows b pre c)
    (hd : fs.Follows b (pre ++ [part]) d) : fs.LeadsTo c part.component d := by
  induction hpre with
  | nil =>
    cases hd with
    | cons hlead hrest =>
      cases hrest
      exact hlead
  | cons hlead _ ih =>
    cases hd with
    | cons hlead' hrest =>
      rw [hlead'.unique h hb hlead] at hrest
      exact ih (hlead.live hb) hrest

/-! ## Looking up a component -/

/-- Slot `i` of the directory at `b` is a folder called `component`. -/
theorem FileSystem.Headed.leadsTo_slot (h : fs.Headed) (hb : fs.LiveDir b)
    (hlen : component.length < 10) {i : Fin 64} (hi : 1 ≤ i.val)
    (hmatch : matchesFolder component (fs.tableAt b i) = true) :
    fs.LeadsTo b component (fs.tableAt b i).cluster := by
  rw [matchesFolder, Bool.and_eq_true] at hmatch
  obtain ⟨heq, hf⟩ := hmatch
  rcases h.slot_cases hb hi with rfl | hzero | hmem
  · rw [DirectoryEntry.text_of_isDotDot (h.dotdot hb), isStrEqual_of_lt (by omega) (by simp)] at heq
    subst heq
    rcases hb.cases with rfl | ⟨a, e, ha, he, hef, hfirst⟩
    · have hup : (fs.tableAt fatFormat.root 1).cluster = rootClusterNumber := h.rootUp
      rw [hup]
      exact .root rfl
    · rw [h.parent ha ⟨e, he, hef, hfirst⟩]
      exact .parent ha ⟨e, he, hef, hfirst⟩
  · rw [hzero] at hf
    cases hf
  · have hext := (h.proper hb hmem).folder hf
    have hname := nameChars_length_le (fs.tableAt b i).name
    rw [DirectoryEntry.text_eq hext, isStrEqual_of_lt (by omega) (by omega)] at heq
    rw [heq]
    exact .child hmem hf

/-- A directory that a component leads to is in a slot of that name. -/
theorem FileSystem.Headed.exists_slot (h : fs.Headed) (hb : fs.LiveDir b)
    (hlen : component.length < 10) (hlead : fs.LeadsTo b component d) :
    ∃ i : Fin 64, 1 ≤ i.val ∧ matchesFolder component (fs.tableAt b i) = true := by
  have hdot : matchesFolder [0x2E, 0x2E] (fs.tableAt b 1) = true := by
    rw [matchesFolder, DirectoryEntry.text_of_isDotDot (h.dotdot hb), h.folder hb 1 (by decide)]
    rfl
  cases hlead with
  | @child e he hf =>
    obtain ⟨i, hi, hslot, -⟩ := mem_records.1 he
    exact ⟨i, by omega, (h.matchesFolder_iff hb he hf (by omega)).2 hslot⟩
  | parent => exact ⟨1, le_rfl, hdot⟩
  | root => exact ⟨1, le_rfl, hdot⟩

/-- The loop of `get_deep_folder_cluster` finds where a component leads. -/
theorem FileSystem.Headed.findFolder_deep (h : fs.Headed) (hb : fs.LiveDir b)
    (hlen : component.length < 10) :
    (∃ i, findFolder (fs.tableAt b) component ((List.finRange 64).drop 1) = .ok (some i) ∧
      fs.LeadsTo b component (fs.tableAt b i).cluster) ∨
    findFolder (fs.tableAt b) component ((List.finRange 64).drop 1) = .ok none ∧
      ∀ d, ¬ fs.LeadsTo b component d := by
  have hlo : ∀ i ∈ (List.finRange 64).drop 1, 1 ≤ i.val := by decide
  have hin : ∀ i : Fin 64, 1 ≤ i.val → i ∈ (List.finRange 64).drop 1 := by decide
  have hfind : findFolder (fs.tableAt b) component ((List.finRange 64).drop 1) = _ :=
    findFolder_eq fun i hi => h.zero_mem_slot hb (hlo i hi)
  cases hres : ((List.finRange 64).drop 1).find? fun i =>
      matchesFolder component (fs.tableAt b i) with
  | some i =>
    have hi := hlo i (List.mem_of_find?_eq_some hres)
    exact .inl ⟨i, hfind.trans (congrArg _ hres), h.leadsTo_slot hb hlen hi
      (List.find?_some (p := fun i => matchesFolder component (fs.tableAt b i)) hres)⟩
  | none =>
    refine .inr ⟨hfind.trans (congrArg _ hres), fun d hd => ?_⟩
    obtain ⟨i, hi, hmatch⟩ := h.exists_slot hb hlen hd
    exact List.find?_eq_none.1 hres i (hin i hi) hmatch

/-- The string of the entry of a directory for itself is its name. -/
theorem FileSystem.Headed.text_zero (h : fs.Headed) (hb : fs.LiveDir b) :
    0 ∈ (fs.tableAt b 0).bytes ∧ (fs.tableAt b 0).text = nameChars (fs.tableAt b 0).name := by
  rcases hb.cases with rfl | ⟨a, e, ha, he, hf, rfl⟩
  · have hroot : nameChars (fs.tableAt rootClusterNumber 0).name = [0x2E] := h.root
    obtain ⟨rest, hbytes⟩ := (fs.tableAt rootClusterNumber 0).bytes_eq
    have hzero : 0 ∈ (fs.tableAt rootClusterNumber 0).name.toList := by
      by_contra hnone
      have hall : (fs.tableAt rootClusterNumber 0).name.toList.takeWhile (· ≠ 0) =
          (fs.tableAt rootClusterNumber 0).name.toList :=
        List.takeWhile_eq_self_iff.2 fun c hc => by
          simpa using fun heq : c = 0 => hnone (heq ▸ hc)
      have hlen := congrArg List.length (hall.symm.trans hroot)
      rw [Vector.length_toList] at hlen
      cases hlen
    refine ⟨DirectoryEntry.zero_mem_bytes (.inl hzero), ?_⟩
    have hchars : (fs.tableAt rootClusterNumber 0).name.toList.takeWhile (· ≠ 0) = [0x2E] := hroot
    show (fs.tableAt rootClusterNumber 0).text = nameChars (fs.tableAt rootClusterNumber 0).name
    rw [DirectoryEntry.text, hbytes, List.takeWhile_append, hchars, Vector.length_toList, hroot]
    rfl
  · have hkey : (fs.tableAt e.cluster 0).key = e.key := h.self ha he hf
    have hext : (fs.tableAt e.cluster 0).ext = Vector.replicate 3 0 :=
      (congrArg Prod.snd hkey).trans ((h.proper ha he).folder hf)
    have hzero : 0 ∈ (fs.tableAt e.cluster 0).bytes :=
      DirectoryEntry.zero_mem_bytes (.inr (.inl (by rw [hext]; decide)))
    exact ⟨hzero, DirectoryEntry.text_eq hext⟩

/-- The loop of `get_final_parent_cluster` finds the directory itself first, if it has the name. -/
theorem FileSystem.Headed.findFolder_final (h : fs.Headed) (hb : fs.LiveDir b)
    (hlen : component.length < 10) :
    findFolder (fs.tableAt b) component (List.finRange 64) =
      if nameChars (fs.tableAt b 0).name = component then .ok (some 0)
      else findFolder (fs.tableAt b) component ((List.finRange 64).drop 1) := by
  obtain ⟨hzero, htext⟩ := h.text_zero hb
  have hlen' := nameChars_length_le (fs.tableAt b 0).name
  have hsplit : List.finRange 64 = 0 :: (List.finRange 64).drop 1 := by decide
  have hmatch : isStrEqual component (nameChars (fs.tableAt b 0).name) = true ↔
      nameChars (fs.tableAt b 0).name = component := by
    rw [isStrEqual_of_lt (by omega) (by omega), eq_comm]
  rw [hsplit, findFolder, entryName_eq hzero, ok_bind, htext, h.folder hb 0 (by decide),
    Bool.and_true]
  by_cases hown : nameChars (fs.tableAt b 0).name = component
  · rw [if_pos (hmatch.2 hown), if_pos hown]
    rfl
  · rw [if_neg fun heq => hown (hmatch.1 heq), if_neg hown]
    rfl

end Leads

/-! ## The steps of the two -/

section Steps
variable {fs : FileSystem} {b c d : UInt32} {part : PathPart} {parts : List PathPart}
  {leaf rest : List UInt8} {steps : Nat}

/-- Behind a component and its separator the rest of the path starts. -/
theorem drop_component {component : List UInt8} (hlen : component.length < 10) :
    (component ++ rest).drop ((strlen component).toNat + 1) = rest.drop 1 := by
  rw [toNat_strlen, Nat.mod_eq_of_lt (by omega), List.drop_length_add_append]

section
variable (part rest steps) (h : fs.Headed) (hb : fs.LiveDir b) (hlen : part.component.length < 10)
  (hrest : ∀ c ∈ rest.head?, isSeparator c = true)
include h hb hlen hrest

/-- One step of `get_deep_folder_cluster`. -/
theorem FileSystem.Headed.deep_cons :
    (∀ d, fs.LeadsTo b part.component d →
      getDeepFolderCluster fs (steps + 1) (part.component ++ rest) b =
        if 256 ∣ rest.length then .ok d else getDeepFolderCluster fs steps (rest.drop 1) d) ∧
    ((∀ d, ¬ fs.LeadsTo b part.component d) →
      getDeepFolderCluster fs (steps + 1) (part.component ++ rest) b = .ok 0) := by
  have hne : part.component ++ rest ≠ [] := List.append_ne_nil_of_left_ne_nil part.nonempty _
  rw [getDeepFolderCluster, if_neg hne, getParent_append part.plain hrest, if_pos hlen, ok_bind]
  dsimp only
  rcases h.findFolder_deep hb hlen with ⟨i, hfind, hlead⟩ | ⟨hfind, hnone⟩
  · refine ⟨fun d hd => ?_, fun hnone => absurd hlead (hnone _)⟩
    rw [hfind, ok_bind]
    dsimp only
    rw [hlead.unique h hb hd, drop_component hlen]
    by_cases hdvd : 256 ∣ rest.length
    · rw [if_pos hdvd, if_pos ((isStrEqual_append_left (by omega)).2 hdvd)]
      rfl
    · rw [if_neg hdvd, if_neg fun heq => hdvd ((isStrEqual_append_left (by omega)).1 heq)]
  · refine ⟨fun d hd => absurd hd (hnone d), fun _ => ?_⟩
    rw [hfind]
    rfl

/-- One step of `get_final_parent_cluster`, with a component that is not the last one. -/
theorem FileSystem.Headed.final_cons (hdvd : ¬ 256 ∣ rest.length) :
    (nameChars (fs.tableAt b 0).name = part.component →
      getFinalParentCluster fs (steps + 1) (part.component ++ rest) b =
        getFinalParentCluster fs steps (rest.drop 1) (fs.tableAt b 0).cluster) ∧
    (¬ fs.Misled b part.component →
      (∀ d, fs.LeadsTo b part.component d →
        getFinalParentCluster fs (steps + 1) (part.component ++ rest) b =
          getFinalParentCluster fs steps (rest.drop 1) d) ∧
      ((∀ d, ¬ fs.LeadsTo b part.component d) →
        getFinalParentCluster fs (steps + 1) (part.component ++ rest) b = .ok 0)) := by
  rw [getFinalParentCluster, getParent_append part.plain hrest, if_pos hlen, ok_bind,
    if_neg fun heq => hdvd ((isStrEqual_append_right (by omega)).1 heq)]
  dsimp only
  rw [h.findFolder_final hb hlen, drop_component hlen]
  by_cases hown : nameChars (fs.tableAt b 0).name = part.component
  · rw [if_pos hown, ok_bind]
    dsimp only
    refine ⟨fun _ => rfl, fun hmisled => ?_⟩
    have hself : fs.LeadsTo b part.component (fs.tableAt b 0).cluster := by
      by_contra hself
      exact hmisled ⟨hown, hself⟩
    exact ⟨fun d hd => by rw [hself.unique h hb hd], fun hnone => absurd hself (hnone _)⟩
  · rw [if_neg hown]
    refine ⟨fun heq => absurd heq hown, fun _ => ?_⟩
    rcases h.findFolder_deep hb hlen with ⟨i, hfind, hlead⟩ | ⟨hfind, hnone⟩
    · refine ⟨fun d hd => ?_, fun hnone => absurd hlead (hnone _)⟩
      rw [hfind, ok_bind]
      dsimp only
      rw [hlead.unique h hb hd]
    · refine ⟨fun d hd => absurd hd (hnone d), fun _ => ?_⟩
      rw [hfind]
      rfl

end

/-- `get_final_parent_cluster` stops at the last component. -/
theorem final_leaf (hleaf : ∀ c ∈ leaf, isSeparator c = false) :
    getFinalParentCluster fs (steps + 1) leaf b =
      if leaf.length < 10 then .ok b else .error (.arrayIndex 10) := by
  have hparent : getParent (leaf ++ []) = _ := getParent_append hleaf (by simp)
  rw [List.append_nil] at hparent
  rw [getFinalParentCluster, hparent]
  split
  · next hlen =>
    rw [ok_bind, if_pos ((isStrEqual_of_lt (by omega) (by omega)).2 rfl)]
    rfl
  · rfl

/-- The components of a path can be looked up, and none of them leads astray. -/
def FileSystem.Straight (fs : FileSystem) (c : UInt32) (parts : List PathPart) : Prop :=
  ∀ pre part, pre ++ [part] <+: parts → ∀ b, fs.Follows c pre b →
    part.component.length < 10 ∧ ¬ fs.Misled b part.component

theorem FileSystem.Straight.of_prefix {pre : List PathPart} (h : fs.Straight c parts)
    (hpre : pre <+: parts) : fs.Straight c pre :=
  fun pre' part hp => h pre' part (hp.trans hpre)

theorem FileSystem.Straight.head (h : fs.Straight c (part :: parts)) :
    part.component.length < 10 ∧ ¬ fs.Misled c part.component :=
  h [] part ⟨parts, rfl⟩ c .nil

theorem FileSystem.Straight.tail (h : fs.Straight c (part :: parts))
    (hlead : fs.LeadsTo c part.component d) : fs.Straight d parts :=
  fun pre x hp b hb => h (part :: pre) x (List.cons_prefix_cons.2 ⟨rfl, hp⟩) b (.cons hlead hb)

/-- `get_final_parent_cluster` comes along a straight path to the directory that it leads to, and
goes on from there. -/
theorem FileSystem.Follows.final (h : fs.Headed) (hb : fs.LiveDir b) (hwalk : fs.Follows b parts d)
    (hstraight : fs.Straight b parts)
    (hunwrapped : ∀ part suffix, part :: suffix <:+ parts →
      ¬ 256 ∣ (prefixText suffix).length + 1 + leaf.length) :
    getFinalParentCluster fs (steps + parts.length) (prefixText parts ++ leaf) b =
      getFinalParentCluster fs steps leaf d := by
  induction hwalk with
  | nil => rfl
  | @cons b c d part parts hlead _ ih =>
    obtain ⟨hlen, hmisled⟩ := hstraight.head
    have hlength : (part.separator :: (prefixText parts ++ leaf)).length =
        (prefixText parts).length + 1 + leaf.length := by
      rw [List.length_cons, List.length_append]
      omega
    have hstep := (h.final_cons part (part.separator :: (prefixText parts ++ leaf))
      (steps + parts.length) hb hlen (by simp [part.separates])
      (by rw [hlength]; exact hunwrapped part parts List.suffix_rfl)).2 hmisled
    rw [prefixText_cons, List.append_assoc, List.cons_append, List.length_cons, ← Nat.add_assoc,
      hstep.1 c hlead]
    exact ih (hlead.live hb) (hstraight.tail hlead)
      fun x suffix hs => hunwrapped x suffix (hs.trans (List.suffix_cons _ _))

end Steps

/-! ## Agreement -/

/-- On the components `parts` and a leaf behind them the two resolvers come to the directory that
the components lead to, and to 0 if one of them names none. -/
def FileSystem.ResolvesAlike (fs : FileSystem) (c : UInt32) (parts : List PathPart)
    (leaf : List UInt8) : Prop :=
  ∃ bound r, (∀ steps ≥ bound,
      getFinalParentCluster fs steps (prefixText parts ++ leaf) c = .ok r ∧
      getDeepFolderCluster fs steps (folderText parts) c = .ok r) ∧
    (fs.Follows c parts r ∨ r = 0 ∧ ∀ d, ¬ fs.Follows c parts d)

section Agree
variable {fs : FileSystem} {c d : UInt32} {part : PathPart} {parts pre : List PathPart}
  {leaf : List UInt8}

/-- Straight paths are resolved alike. -/
theorem FileSystem.Straight.resolvesAlike (h : fs.Headed) (hc : fs.LiveDir c)
    (hstraight : fs.Straight c parts) (hunwrapped : fs.Unwrapped c parts leaf)
    (hleaf : ∀ c ∈ leaf, isSeparator c = false) (hlen : leaf.length < 10) :
    fs.ResolvesAlike c parts leaf := by
  induction parts generalizing c with
  | nil =>
    refine ⟨1, c, fun steps hsteps => ?_, .inl .nil⟩
    obtain ⟨steps, rfl⟩ := Nat.exists_eq_add_of_le' hsteps
    refine ⟨?_, if_pos rfl⟩
    show getFinalParentCluster fs (steps + 1) leaf c = .ok c
    rw [final_leaf hleaf, if_pos hlen]
  | cons part parts ih =>
    obtain ⟨hpart, hmisled⟩ := hstraight.head
    obtain ⟨hfinalWrap, hdeepWrap⟩ := hunwrapped [] part parts List.prefix_rfl ⟨c, .nil⟩
    have hlength : (part.separator :: (prefixText parts ++ leaf)).length =
        (prefixText parts).length + 1 + leaf.length := by
      rw [List.length_cons, List.length_append]
      omega
    have hfinal := fun steps => (h.final_cons part (part.separator :: (prefixText parts ++ leaf))
      steps hc hpart (by simp [part.separates])
      (by rw [hlength]; exact hfinalWrap)).2 hmisled
    have htext : prefixText (part :: parts) ++ leaf =
        part.component ++ part.separator :: (prefixText parts ++ leaf) := by
      rw [prefixText_cons, List.append_assoc, List.cons_append]
    rw [FileSystem.ResolvesAlike, htext]
    by_cases hlead : ∃ d, fs.LeadsTo c part.component d
    · obtain ⟨d, hlead⟩ := hlead
      obtain ⟨bound, r, hrun, hend⟩ :=
        ih (hlead.live hc) (hstraight.tail hlead) (hunwrapped.tail hlead)
      refine ⟨bound + 1, r, fun steps hsteps => ?_, ?_⟩
      · obtain ⟨steps, rfl⟩ := Nat.exists_eq_add_of_le' (Nat.le_of_add_left_le hsteps)
        obtain ⟨hf, hd⟩ := hrun steps (by omega)
        refine ⟨((hfinal steps).1 d hlead).trans hf, ?_⟩
        cases parts with
        | nil =>
          have hone := (h.deep_cons part [] steps hc hpart (by simp)).1 d hlead
          rw [List.append_nil, if_pos (by simp)] at hone
          have hdr : d = r := by
            rcases hend with hend | ⟨-, hnone⟩
            · cases hend
              rfl
            · exact absurd .nil (hnone d)
          rw [folderText_singleton, hone, hdr]
        | cons x xs =>
          have hne : x :: xs ≠ [] := List.cons_ne_nil _ _
          have hnot : ¬ 256 ∣ (part.separator :: folderText (x :: xs)).length := by
            rw [List.length_cons, length_folderText hne]
            exact hdeepWrap hne
          have hstep := (h.deep_cons part (part.separator :: folderText (x :: xs)) steps
            hc hpart (by simp [part.separates])).1 d hlead
          rw [if_neg hnot] at hstep
          rw [folderText_cons hne, hstep]
          exact hd
      · refine hend.imp (fun hend => .cons hlead hend) fun ⟨hzero, hnone⟩ => ⟨hzero, ?_⟩
        rintro d' (_ | ⟨hlead', hrest⟩)
        rw [hlead'.unique h hc hlead] at hrest
        exact hnone _ hrest
    · have hnone : ∀ d, ¬ fs.LeadsTo c part.component d := fun d hd => hlead ⟨d, hd⟩
      refine ⟨1, 0, fun steps hsteps => ?_, .inr ⟨rfl, ?_⟩⟩
      · obtain ⟨steps, rfl⟩ := Nat.exists_eq_add_of_le' hsteps
        refine ⟨(hfinal steps).2 hnone, ?_⟩
        cases parts with
        | nil =>
          have hone := (h.deep_cons part [] steps hc hpart (by simp)).2 hnone
          rw [List.append_nil] at hone
          rw [folderText_singleton, hone]
        | cons x xs =>
          rw [folderText_cons (List.cons_ne_nil _ _)]
          exact (h.deep_cons part _ steps hc hpart (by simp [part.separates])).2 hnone
      · rintro d' (_ | ⟨hlead', -⟩)
        exact hnone _ hlead'

/-- A path that is resolved alike up to a component, and with it, does not go astray there. -/
theorem FileSystem.Headed.straight_step (h : fs.Headed) (hc : fs.LiveDir c)
    (hunwrapped : fs.Unwrapped c (pre ++ [part]) leaf) (hleaf : ∀ c ∈ leaf, isSeparator c = false)
    (hlen : leaf.length < 10) (hstraight : fs.Straight c pre) (hwalk : fs.Follows c pre d)
    (hagree : fs.ResolvesAlike c (pre ++ [part]) leaf) :
    part.component.length < 10 ∧ ¬ fs.Misled d part.component := by
  have hd := hwalk.live hc
  obtain ⟨bound, r, hrun, hend⟩ := hagree
  have htext : prefixText (pre ++ [part]) ++ leaf =
      prefixText pre ++ (part.component ++ part.separator :: leaf) := by
    simp [prefixText]
  -- `get_final_parent_cluster` comes to the directory of the last component
  have hfinal : getFinalParentCluster fs (bound + 2) (part.component ++ part.separator :: leaf) d =
      .ok r := by
    rw [← (hrun (bound + 2 + pre.length) (by omega)).1, htext]
    refine (hwalk.final h hc hstraight fun x suffix hs => ?_).symm
    obtain ⟨l, hl⟩ := hs
    have hlooked : ∃ b, fs.Follows c l b := by
      rw [← hl] at hwalk
      exact hwalk.exists_prefix
    have hprefix : l ++ x :: (suffix ++ [part]) <+: pre ++ [part] := ⟨[], by rw [← hl]; simp⟩
    have hnot := (hunwrapped l x _ hprefix hlooked).1
    have hsum : (prefixText suffix).length + 1 + (part.component ++ part.separator :: leaf).length =
        (prefixText (suffix ++ [part])).length + 1 + leaf.length := by
      simp [prefixText]
      omega
    rwa [hsum]
  have hpart : part.component.length < 10 := by
    by_contra hlong
    rw [getFinalParentCluster, getParent_append part.plain (by simp [part.separates]),
      if_neg hlong] at hfinal
    cases hfinal
  refine ⟨hpart, fun ⟨hown, hself⟩ => ?_⟩
  have hnot : ¬ 256 ∣ (part.separator :: leaf).length := by
    rw [List.length_cons]
    omega
  rw [(h.final_cons part _ (bound + 1) hd hpart (by simp [part.separates]) hnot).1 hown,
    List.drop_one, List.tail_cons, final_leaf hleaf, if_pos hlen] at hfinal
  obtain rfl := Except.ok.inj hfinal
  rcases hend with hend | ⟨hzero, -⟩
  · exact hself (hwalk.of_append h hc hend)
  · exact h.own hd hzero

/-- In every file system that proper calls lead to, the two resolvers agree on a path and on its
beginnings if the leaf and the components that are looked up fit into the 9 characters of `parent`,
no component is looked up in the directory of that name, unless the entry of that directory for
itself leads to the same place, and behind no component that is looked up the rest is a multiple of
256 characters long. Where the last of these holds, the others have to. -/
theorem resolvers_agree_iff {pad0 : Vector UInt8 6} {pad1 : Vector UInt8 5} {disk : Disk}
    (hrun : Run TreeStep TreeCall.Proper (createFat32 pad0 pad1 (.zeroed disk)) fs)
    (hc : fs.LiveDir c) (hleaf : ∀ c ∈ leaf, isSeparator c = false) :
    (leaf.length < 10 ∧ fs.Straight c parts ∧ fs.Unwrapped c parts leaf →
      ∀ pre, pre <+: parts → fs.ResolvesAlike c pre leaf) ∧
    (fs.Unwrapped c parts leaf →
      ((∀ pre, pre <+: parts → fs.ResolvesAlike c pre leaf) ↔
        leaf.length < 10 ∧ fs.Straight c parts)) := by
  have h := headed_run hrun headed_createFat32
  have henough : leaf.length < 10 ∧ fs.Straight c parts ∧ fs.Unwrapped c parts leaf →
      ∀ pre, pre <+: parts → fs.ResolvesAlike c pre leaf := by
    rintro ⟨hlen, hstraight, hunwrapped⟩ pre hpre
    exact (hstraight.of_prefix hpre).resolvesAlike h hc (hunwrapped.of_prefix hpre) hleaf hlen
  refine ⟨henough, fun hunwrapped => ⟨fun hagree => ?_, fun hcond => ?_⟩⟩
  · have hlen : leaf.length < 10 := by
      obtain ⟨bound, r, hrun, -⟩ := hagree [] (List.nil_prefix ..)
      have hfinal : getFinalParentCluster fs (bound + 1) leaf c = .ok r := (hrun _ (by omega)).1
      rw [final_leaf hleaf] at hfinal
      by_contra hlong
      rw [if_neg hlong] at hfinal
      cases hfinal
    refine ⟨hlen, fun pre => ?_⟩
    -- by induction on the length of the path before the component
    induction hn : pre.length using Nat.strong_induction_on generalizing pre with
    | _ n ih =>
      intro part hpre b hb
      have hstraight : fs.Straight c pre := by
        intro pre' x hp
        refine ih pre'.length ?_ pre' rfl x ((hp.trans (List.prefix_append _ _)).trans hpre)
        have := hp.length_le
        rw [List.length_append, List.length_singleton] at this
        omega
      exact h.straight_step hc (hunwrapped.of_prefix hpre) hleaf hlen hstraight hb (hagree _ hpre)
  · exact henough ⟨hcond.1, hcond.2, hunwrapped⟩

end Agree

/-! ### A folder called `AAAA` -/

/-- The component `AAAA/`. -/
def nestPart : PathPart where
  component := [0x41, 0x41, 0x41, 0x41]
  separator := 0x2F
  nonempty := by decide
  plain := by simp [isSeparator]
  separates := by decide

theorem component_nestPart : nestPart.component = nameChars (nestRequest 0).name := rfl

/-- A path of one component is straight when the component does not lead astray. -/
theorem straight_singleton {fs : FileSystem} {c : UInt32} {part : PathPart} :
    fs.Straight c [part] ↔ part.component.length < 10 ∧ ¬ fs.Misled c part.component := by
  constructor
  · exact fun h => h.head
  · intro h pre x hp b hb
    obtain ⟨l, hl⟩ := hp
    cases pre with
    | nil =>
      cases hb
      cases hl
      exact h
    | cons y pre =>
      have hlen := congrArg List.length hl
      simp at hlen

/-- The one step of a walk of length one. -/
theorem FileSystem.Walk.exists_entry {fs : FileSystem} {b c : UInt32} {name : Vector UInt8 8}
    (h : fs.Walk b [name] c) :
    ∃ e ∈ fs.entries b, e.isSubdirectory = true ∧ e.name = name ∧ e.cluster = c := by
  rcases h.cases_snoc with ⟨hnil, -⟩ | ⟨names, d, e, hnames, hw, he, hf, hc⟩
  · cases hnil
  · obtain ⟨rfl, hname⟩ := List.append_eq_singleton_iff.1 hnames.symm |>.resolve_right (by simp)
    cases hw
    exact ⟨e, he, hf, (List.singleton_inj.1 hname), hc⟩

/-- From the root directory `AAAA/x` leads to the folder `AAAA`. -/
theorem resolvers_agree_nest : ∃ fs c, Run TreeStep TreeCall.Proper blankFileSystem fs ∧
    fs.LeadsTo rootClusterNumber nestPart.component c ∧
    fs.ResolvesAlike rootClusterNumber [nestPart] [0x78] := by
  obtain ⟨fs, c, hrun, hwalk, -, -⟩ := exists_nest 1 (by decide)
  have h := labelled_run hrun labelled_createFat32
  have hroot : nameChars (fs.tableAt rootClusterNumber 0).name = [0x2E] := h.root
  obtain ⟨e, he, hf, hname, rfl⟩ := hwalk.exists_entry
  have hlead : fs.LeadsTo rootClusterNumber nestPart.component e.cluster := by
    rw [component_nestPart, ← hname]
    exact .child he hf
  refine ⟨fs, e.cluster, hrun, hlead, (resolvers_agree_iff hrun .root (by simp [isSeparator])).1
    ⟨by decide, straight_singleton.2 ⟨by decide, ?_⟩, unwrapped_of_length_lt (by decide)⟩ _
      List.prefix_rfl⟩
  rintro ⟨hown, -⟩
  cases hroot.symm.trans hown

/-- In an empty folder called `AAAA` there is no folder `AAAA`, and `get_deep_folder_cluster` finds
none; but `get_final_parent_cluster` takes the entry of the folder for itself. -/
theorem final_misled : ∃ fs c r, Run TreeStep TreeCall.Proper blankFileSystem fs ∧ fs.LiveDir c ∧
    (∀ d, ¬ fs.Follows c [nestPart] d) ∧ r ≠ 0 ∧
    (∀ steps, getDeepFolderCluster fs (steps + 1) (folderText [nestPart]) c = .ok 0) ∧
    (∀ steps, getFinalParentCluster fs (steps + 2) (prefixText [nestPart] ++ [0x78]) c = .ok r) ∧
    ¬ fs.ResolvesAlike c [nestPart] [0x78] := by
  obtain ⟨fs, c, hrun, hwalk, hdead, -⟩ := exists_nest 1 (by decide)
  have h := headed_run hrun headed_createFat32
  have hc : fs.LiveDir c := hwalk.reach
  have hnone : ∀ d, ¬ fs.LeadsTo c nestPart.component d := by
    intro d hd
    generalize hx : nestPart.component = x at hd
    cases hd with
    | child he =>
      obtain ⟨j, hj, hslot, hlive⟩ := mem_records.1 he
      rw [← hslot, hdead j hj] at hlive
      cases hlive
    | parent => cases hx
    | root => cases hx
  have hown : nameChars (fs.tableAt c 0).name = nestPart.component := by
    obtain ⟨e, he, hf, hname, rfl⟩ := hwalk.exists_entry
    have hkey : (fs.tableAt e.cluster 0).key = e.key := h.self .root he hf
    rw [component_nestPart, ← hname]
    exact congrArg (fun key => nameChars key.1) hkey
  have hfollows : ∀ d, ¬ fs.Follows c [nestPart] d := by
    rintro d (_ | ⟨hlead, -⟩)
    exact hnone _ hlead
  have hdeep : ∀ steps, getDeepFolderCluster fs (steps + 1) (folderText [nestPart]) c = .ok 0 := by
    intro steps
    have hstep := h.deep_cons nestPart [] steps hc (by decide) (by simp)
    exact hstep.2 hnone
  have hfinal : ∀ steps, getFinalParentCluster fs (steps + 2) (prefixText [nestPart] ++ [0x78]) c =
      .ok (fs.tableAt c 0).cluster := by
    intro steps
    have hstep := (h.final_cons nestPart [0x2F, 0x78] (steps + 1) hc
      (by decide) (by simp [isSeparator]) (by decide)).1 hown
    refine hstep.trans ?_
    show getFinalParentCluster fs (steps + 1) [0x78] _ = _
    rw [final_leaf (by simp [isSeparator]), if_pos (by decide)]
  refine ⟨fs, c, _, hrun, hc, hfollows, h.own hc, hdeep, hfinal, ?_⟩
  rintro ⟨bound, r, hboth, -⟩
  obtain ⟨hf, hd⟩ := hboth (bound + 2) (by omega)
  rw [hfinal] at hf
  rw [show bound + 2 = bound + 1 + 1 from rfl, hdeep] at hd
  exact h.own hc ((Except.ok.inj hf).trans (Except.ok.inj hd).symm)

end OsKernel
