import OsKernel.Stdlib.Strings
import OsKernel.Fat32.Labels

/-!
# Paths

`print_path_from_root` follows slot 1 of the directories up to the root directory and prints the
name in slot 0 of each on the way back; `get_deep_folder_cluster` follows the names of a path down.
In a labelled file system the printed text is the path of the tree, and the resolution of that text
leads back to the directory (`pathRoundTrip_iff`), unless `isStrEqual` takes the rest of the path
for its next component: their lengths agree modulo 256.
-/

namespace OsKernel

open Lib Relation

/-! ## Strings of a directory table -/

/-- The 32 bytes of an entry. -/
def DirectoryEntry.bytes (e : DirectoryEntry) : List UInt8 :=
  (List.finRange 32).map fun k => e.byte k.val

/-- The string that starts at `table[i].name`: a name of eight characters runs on into the fields
behind it. -/
def entryName (t : DirectoryTable) (i : Fin 64) : Except Fault (List UInt8) :=
  cString (((List.finRange 64).drop i.val).flatMap fun j => (t j).bytes)

/-- The string of an entry that holds a zero byte. -/
def DirectoryEntry.text (e : DirectoryEntry) : List UInt8 := e.bytes.takeWhile (· ≠ 0)

section EntryName
variable {t : DirectoryTable} {i : Fin 64} {e : DirectoryEntry}

/-- An entry starts with its name, its extension and its attribute. -/
theorem DirectoryEntry.bytes_eq (e : DirectoryEntry) :
    ∃ rest, e.bytes = e.name.toList ++ (e.ext.toList ++ e.attr :: rest) := by
  refine ⟨((List.finRange 32).drop 12).map fun k => e.byte k.val, ?_⟩
  obtain ⟨⟨⟨name⟩, hname⟩, ⟨⟨ext⟩, hext⟩, attr, _, _, _, _, _, _, _, _, _, _⟩ := e
  match name, hname, ext, hext with
  | [_, _, _, _, _, _, _, _], _, [_, _, _], _ => rfl

theorem entryName_eq (h : 0 ∈ (t i).bytes) : entryName t i = .ok (t i).text := by
  have hdrop : (List.finRange 64).drop i.val = i :: (List.finRange 64).drop (i.val + 1) := by
    rw [List.drop_eq_getElem_cons (by simp), List.getElem_finRange]
    rfl
  rw [entryName, hdrop, List.flatMap_cons]
  exact cString_append h

theorem DirectoryEntry.zero_mem_bytes (h : 0 ∈ e.name.toList ∨ 0 ∈ e.ext.toList ∨ e.attr = 0) :
    0 ∈ e.bytes := by
  obtain ⟨rest, hbytes⟩ := e.bytes_eq
  rw [hbytes]
  simp only [List.mem_append, List.mem_cons]
  rcases h with h | h | h
  · exact .inl h
  · exact .inr (.inl h)
  · exact .inr (.inr (.inl h.symm))

/-- The string of an entry without an extension is its name. -/
theorem DirectoryEntry.text_eq (h : e.ext = Vector.replicate 3 0) : e.text = nameChars e.name := by
  obtain ⟨rest, hbytes⟩ := e.bytes_eq
  rw [text, hbytes, List.takeWhile_append, h]
  split
  · next hlen =>
    have hwhole := (e.name.toList.takeWhile_sublist (· ≠ 0)).eq_of_length hlen
    rw [nameChars, hwhole]
    exact List.append_nil _
  · rfl

/-- The string of an entry named `..`. -/
theorem DirectoryEntry.text_of_isDotDot (h : isDotDot e.name = true) : e.text = [0x2E, 0x2E] := by
  obtain ⟨rest, hbytes⟩ := e.bytes_eq
  have hchars : e.name.toList.takeWhile (· ≠ 0) = [0x2E, 0x2E] := nameChars_of_isDotDot h
  rw [text, hbytes, List.takeWhile_append, hchars, Vector.length_toList]
  rfl

theorem DirectoryEntry.zero_mem_of_isDotDot (h : isDotDot e.name = true) : 0 ∈ e.name.toList := by
  rw [isDotDot, Bool.and_eq_true, beq_iff_eq] at h
  have hmem : e.name[2] ∈ e.name.toList := Vector.mem_toList_iff.2 (Vector.getElem_mem _)
  rwa [h.2] at hmem

end EntryName

/-! ## The functions of the shell -/

/-- The text `root/`. -/
def rootText : List UInt8 := [0x72, 0x6F, 0x6F, 0x74, 0x2F]

/-- `print_path_from_root`, up to a depth of `steps` directories: the characters it prints. -/
def printedPath (fs : FileSystem) : Nat → UInt32 → Except Fault (List UInt8)
  | 0, _ => .error .outOfSteps
  | steps + 1, clusterNumber =>
    if clusterNumber = rootClusterNumber then .ok rootText
    else do
      let dirTable := fs.tableAt clusterNumber
      let printed ← printedPath fs steps (dirTable 1).cluster
      let name ← entryName dirTable 0
      return printed ++ name ++ [0x2F]

/-- `get_parent`: `parent` has room for 10 characters, and without a zero byte left in it it is no
string. -/
def getParent (path : List UInt8) : Except Fault (List UInt8) :=
  let parent := path.takeWhile fun c => !isSeparator c
  if parent.length < 10 then .ok parent else .error (.arrayIndex 10)

/-- The loop of `get_deep_folder_cluster` over the slots `slots`: the first folder with the name. -/
def findFolder (dirTable : DirectoryTable) (parent : List UInt8) :
    List (Fin 64) → Except Fault (Option (Fin 64))
  | [] => .ok none
  | i :: slots => do
    let name ← entryName dirTable i
    if isStrEqual parent name && (dirTable i).isSubdirectory then return some i
    else findFolder dirTable parent slots

/-- `get_deep_folder_cluster`, down to a depth of `steps` directories. Its check for a file stands
behind the check for a folder and never succeeds. -/
def getDeepFolderCluster (fs : FileSystem) : Nat → List UInt8 → UInt32 → Except Fault UInt32
  | 0, _, _ => .error .outOfSteps
  | steps + 1, path, currentFolderCluster =>
    if path = [] then .ok currentFolderCluster
    else do
      let parent ← getParent path
      let dirTable := fs.tableAt currentFolderCluster
      match ← findFolder dirTable parent ((List.finRange 64).drop 1) with
      | none => return 0
      | some i =>
        let folder := (dirTable i).cluster
        if isStrEqual path parent then return folder
        else getDeepFolderCluster fs steps (path.drop ((strlen parent).toNat + 1)) folder

theorem entryName_ne_outOfSteps {t : DirectoryTable} {i : Fin 64} :
    entryName t i ≠ .error .outOfSteps := by
  unfold entryName cString
  dsimp only
  split
  · exact fun h => nomatch h
  · exact fun h => nomatch h

theorem findFolder_ne_outOfSteps {dirTable : DirectoryTable} {parent : List UInt8}
    {slots : List (Fin 64)} : findFolder dirTable parent slots ≠ .error .outOfSteps := by
  induction slots with
  | nil => exact fun h => nomatch h
  | cons i slots ih =>
    refine bind_ne_error entryName_ne_outOfSteps fun name _ => ?_
    split
    · exact fun h => nomatch h
    · exact ih

/-- Every step takes a character of the path, so the resolution does not run on. -/
theorem getDeepFolderCluster_ends {fs : FileSystem} {steps : Nat} {path : List UInt8} {c : UInt32}
    (hsteps : path.length < steps) : getDeepFolderCluster fs steps path c ≠ .error .outOfSteps := by
  induction steps generalizing path c with
  | zero => exact absurd hsteps (Nat.not_lt_zero _)
  | succ steps ih =>
    rw [getDeepFolderCluster]
    split
    · exact fun h => nomatch h
    · next hne =>
      have hparent : getParent path ≠ .error .outOfSteps := by
        unfold getParent
        dsimp only
        split
        · exact fun h => nomatch h
        · exact fun h => nomatch h
      refine bind_ne_error hparent fun parent _ => ?_
      refine bind_ne_error findFolder_ne_outOfSteps fun found _ => ?_
      cases found with
      | none => exact fun h => nomatch h
      | some i =>
        dsimp only
        split
        · exact fun h => nomatch h
        · have hpos := List.length_pos_of_ne_nil hne
          refine ih ?_
          rw [List.length_drop]
          omega

/-! ## Walks down the tree -/

/-- The folders called `names`, one in the other, lead from the directory at `b` to the one at
`c`. -/
inductive FileSystem.Walk (fs : FileSystem) : UInt32 → List (Vector UInt8 8) → UInt32 → Prop
  | nil {b} : Walk fs b [] b
  | cons {b c e names} : e ∈ fs.entries b → e.isSubdirectory = true → Walk fs e.cluster names c →
      Walk fs b (e.name :: names) c

namespace FileSystem.Walk
variable {fs fs' : FileSystem} {b c : UInt32} {names : List (Vector UInt8 8)} {e : DirectoryEntry}

theorem snoc (h : fs.Walk b names c) (he : e ∈ fs.entries c) (hf : e.isSubdirectory = true) :
    fs.Walk b (names ++ [e.name]) e.cluster := by
  induction h with
  | nil => exact .cons he hf .nil
  | cons hx hxf _ ih => exact .cons hx hxf (ih he)

/-- The last step of a walk. -/
theorem cases_snoc (h : fs.Walk b names c) : (names = [] ∧ c = b) ∨
    ∃ names' d e, names = names' ++ [e.name] ∧ fs.Walk b names' d ∧ e ∈ fs.entries d ∧
      e.isSubdirectory = true ∧ e.cluster = c := by
  induction h with
  | nil => exact .inl ⟨rfl, rfl⟩
  | @cons b c e names he hf hw ih =>
    refine .inr ?_
    rcases ih with ⟨rfl, rfl⟩ | ⟨names', d, x, rfl, hd, hx, hxf, hxc⟩
    · exact ⟨[], b, e, rfl, .nil, he, hf, rfl⟩
    · exact ⟨e.name :: names', d, x, rfl, .cons he hf hd, hx, hxf, hxc⟩

theorem reach (h : fs.Walk b names c) : ReflTransGen (fs.volume.Edge fatFormat) b c := by
  induction h with
  | nil => exact .refl
  | cons he hf _ ih => exact .head ⟨_, he, hf, rfl⟩ ih

/-- A walk stays one when entries are added. -/
theorem mono (h : fs.Walk b names c) (hb : fs.LiveDir b)
    (hmem : ∀ {d e}, fs.LiveDir d → e ∈ fs.entries d → e ∈ fs'.entries d) :
    fs'.Walk b names c := by
  induction h with
  | nil => exact .nil
  | cons he hf _ ih => exact .cons (hmem hb he) hf (ih (hb.tail he hf))

end FileSystem.Walk

/-- Every live directory is at the end of a walk from the root directory. -/
theorem FileSystem.exists_walk {fs : FileSystem} {c : UInt32} (hc : fs.LiveDir c) :
    ∃ names, fs.Walk rootClusterNumber names c := by
  induction hc with
  | refl => exact ⟨[], .nil⟩
  | tail _ he ih =>
    obtain ⟨names, hw⟩ := ih
    obtain ⟨e, he, hf, rfl⟩ := he
    exact ⟨_, hw.snoc he hf⟩

/-- The text of a path: every name with a slash behind it. -/
def pathText (names : List (Vector UInt8 8)) : List UInt8 :=
  names.flatMap fun name => nameChars name ++ [0x2F]

/-! ## Printing -/

section Print
variable {fs : FileSystem} {c : UInt32} {names : List (Vector UInt8 8)} {steps : Nat}

/-- The names that `print_path_from_root` comes to are the ones on the path. -/
theorem FileSystem.Walk.printPathFromRoot (h : fs.Labelled)
    (hw : fs.Walk rootClusterNumber names c) (hsteps : names.length < steps) :
    OsKernel.printPathFromRoot fs steps c = .ok names := by
  induction steps generalizing names c with
  | zero => exact absurd hsteps (Nat.not_lt_zero _)
  | succ steps ih =>
    rw [OsKernel.printPathFromRoot]
    rcases hw.cases_snoc with ⟨rfl, rfl⟩ | ⟨names, d, e, rfl, hd, he, hf, rfl⟩
    · rw [if_pos rfl]
    · have hlive : fs.LiveDir d := hd.reach
      have hne : e.cluster ≠ rootClusterNumber := h.volume.folderTree.root hlive he hf
      have hparent : (fs.tableAt e.cluster 1).cluster = d := h.parent hlive ⟨e, he, hf, rfl⟩
      have hname : (fs.tableAt e.cluster 0).name = e.name := congrArg Prod.fst (h.self hlive he hf)
      rw [List.length_append, List.length_singleton] at hsteps
      rw [if_neg hne]
      dsimp only
      rw [hparent, ih hd (by omega), hname]
      rfl

/-- The string in slot 0 of a directory is its name. -/
theorem FileSystem.Labelled.entryName_zero (h : fs.Labelled) (hc : fs.LiveDir c)
    (hne : c ≠ rootClusterNumber) :
    entryName (fs.tableAt c) 0 = .ok (nameChars (fs.tableAt c 0).name) := by
  obtain ⟨d, e, hd, he, hf, rfl⟩ := hc.cases.resolve_left hne
  have hkey : (fs.tableAt e.cluster 0).key = e.key := h.self hd he hf
  have hext : (fs.tableAt e.cluster 0).ext = Vector.replicate 3 0 :=
    (congrArg Prod.snd hkey).trans ((h.proper hd he).folder hf)
  have hzero : 0 ∈ (fs.tableAt e.cluster 0).bytes :=
    DirectoryEntry.zero_mem_bytes (.inr (.inl (by rw [hext]; decide)))
  have htext := DirectoryEntry.text_eq hext
  exact (entryName_eq hzero).trans (congrArg Except.ok htext)

/-- The characters that `print_path_from_root` prints are the ones of these names. -/
theorem FileSystem.Labelled.printedPath_eq (h : fs.Labelled) (hc : fs.LiveDir c)
    (hrun : printPathFromRoot fs steps c = .ok names) :
    printedPath fs steps c = .ok (rootText ++ pathText names) := by
  induction steps generalizing names c with
  | zero => cases hrun
  | succ steps ih =>
    rw [printPathFromRoot] at hrun
    rw [printedPath]
    split at hrun
    · next hroot =>
      cases hrun
      rw [if_pos hroot]
      rfl
    · next hne =>
      obtain ⟨names', hup, hrun⟩ := bind_eq_ok.1 hrun
      cases hrun
      obtain ⟨d, e, hd, he, hf, hfirst⟩ := hc.cases.resolve_left hne
      have hparent : (fs.tableAt c 1).cluster = d := h.parent hd ⟨e, he, hf, hfirst⟩
      rw [hparent] at hup
      have hprint := ih hd hup
      have hname := h.entryName_zero hc hne
      rw [if_neg hne]
      dsimp only
      rw [hparent, hprint, ok_bind, hname, ok_bind, pathText, pathText, List.flatMap_append]
      simp

end Print

/-! ## Resolving -/

section Resolve
variable {fs : FileSystem} {b c : UInt32} {e e' : DirectoryEntry}
  {names : List (Vector UInt8 8)} {name : Vector UInt8 8} {steps : Nat}

theorem pathText_cons :
    pathText (name :: names) = nameChars name ++ 0x2F :: pathText names := by
  rw [pathText, List.flatMap_cons, List.append_assoc]
  rfl

/-- The first component of a path is the first name. -/
theorem getParent_pathText (hname : ProperName name) :
    getParent (pathText (name :: names)) = .ok (nameChars name) := by
  have htake : (pathText (name :: names)).takeWhile (fun c => !isSeparator c) = nameChars name := by
    rw [pathText_cons, List.takeWhile_append_of_pos fun c hc => by simp [hname.separator c hc],
      List.takeWhile_cons_of_neg (by decide), List.append_nil]
  have hle := nameChars_length_le name
  rw [getParent, htake]
  exact if_pos (by omega)

/-- A slot of a directory is the entry for the parent directory, an unused one, or an entry. -/
theorem FileSystem.Labelled.slot_cases (h : fs.Labelled) (hb : fs.LiveDir b) {i : Fin 64}
    (hi : 1 ≤ i.val) : i = 1 ∨ fs.tableAt b i = .zero ∨ fs.tableAt b i ∈ fs.entries b := by
  by_cases h1 : i = 1
  · exact .inl h1
  · have hi2 : 2 ≤ i.val := by omega
    cases hlive : (fs.tableAt b i).live with
    | true => exact .inr (.inr (slot_mem_records hi2 hlive))
    | false => exact .inr (.inl (h.clean hb i hi2 hlive))

/-- The strings of the slots end within the slot. -/
theorem FileSystem.Labelled.zero_mem_slot (h : fs.Labelled) (hb : fs.LiveDir b) {i : Fin 64}
    (hi : 1 ≤ i.val) : 0 ∈ (fs.tableAt b i).bytes := by
  refine DirectoryEntry.zero_mem_bytes ?_
  rcases h.slot_cases hb hi with rfl | hzero | hmem
  · exact .inl (DirectoryEntry.zero_mem_of_isDotDot (h.dotdot hb))
  · rw [hzero]
    exact .inr (.inr rfl)
  · cases hf : (fs.tableAt b i).isSubdirectory with
    | true =>
      rw [(h.proper hb hmem).folder hf]
      exact .inr (.inl (by decide))
    | false => exact .inr (.inr ((h.proper hb hmem).file hf))

/-- The test of `get_deep_folder_cluster` for the folder called `name`. -/
def matchesFolder (parent : List UInt8) (e : DirectoryEntry) : Bool :=
  isStrEqual parent e.text && e.isSubdirectory

theorem findFolder_eq {t : DirectoryTable} {parent : List UInt8} {slots : List (Fin 64)}
    (hzero : ∀ i ∈ slots, 0 ∈ (t i).bytes) :
    findFolder t parent slots = .ok (slots.find? fun i => matchesFolder parent (t i)) := by
  induction slots with
  | nil => rfl
  | cons i slots ih =>
    rw [findFolder, entryName_eq (hzero i List.mem_cons_self), ok_bind, List.find?_cons]
    change (if matchesFolder parent (t i) then _ else _) = _
    cases hmatch : matchesFolder parent (t i) with
    | true => rfl
    | false => exact ih fun j hj => hzero j (List.mem_cons_of_mem _ hj)

/-- Two folders of a directory compare equal only if they are the same. -/
theorem FileSystem.Labelled.matchesFolder_iff (h : fs.Labelled) (hb : fs.LiveDir b)
    (he : e ∈ fs.entries b) (hf : e.isSubdirectory = true) {i : Fin 64} (hi : 1 ≤ i.val) :
    matchesFolder (nameChars e.name) (fs.tableAt b i) = true ↔ fs.tableAt b i = e := by
  have hlen := fun name => (nameChars_length_le name).trans_lt (by decide : 8 < 256)
  have hname := (h.proper hb he).name
  rw [matchesFolder, Bool.and_eq_true]
  constructor
  · rintro ⟨heq, hif⟩
    rcases h.slot_cases hb hi with rfl | hzero | hmem
    · rw [DirectoryEntry.text_of_isDotDot (h.dotdot hb),
        isStrEqual_of_lt (hlen _) (by simp)] at heq
      exact absurd heq hname.ne_dotdot
    · rw [hzero] at hif
      cases hif
    · have hext := (h.proper hb hmem).folder hif
      rw [DirectoryEntry.text_eq hext, isStrEqual_of_lt (hlen _) (hlen _)] at heq
      refine h.eq_of_key hb hmem he (Prod.ext ?_ ?_)
      · exact (h.proper hb hmem).name.ext hname heq.symm
      · exact hext.trans ((h.proper hb he).folder hf).symm
  · rintro heq
    rw [heq, DirectoryEntry.text_eq ((h.proper hb he).folder hf),
      isStrEqual_of_lt (hlen _) (hlen _)]
    exact ⟨rfl, hf⟩

/-- The loop finds the folder with the name. -/
theorem FileSystem.Labelled.findFolder_spec (h : fs.Labelled) (hb : fs.LiveDir b)
    (he : e ∈ fs.entries b) (hf : e.isSubdirectory = true) :
    ∃ i, fs.tableAt b i = e ∧
      findFolder (fs.tableAt b) (nameChars e.name) ((List.finRange 64).drop 1) = .ok (some i) := by
  have hlo : ∀ i ∈ (List.finRange 64).drop 1, 1 ≤ i.val := by decide
  have hfind : findFolder (fs.tableAt b) (nameChars e.name) ((List.finRange 64).drop 1) = _ :=
    findFolder_eq fun i hi => h.zero_mem_slot hb (hlo i hi)
  obtain ⟨j, hj, hslot, -⟩ := mem_records.1 he
  have hin : ∀ j : Fin 64, 2 ≤ j.val → j ∈ (List.finRange 64).drop 1 := by decide
  have hj := hin j hj
  cases hres : ((List.finRange 64).drop 1).find? fun i =>
      matchesFolder (nameChars e.name) (fs.tableAt b i) with
  | none =>
    have hmatch := (h.matchesFolder_iff hb he hf (hlo j hj)).2 hslot
    exact absurd hmatch (List.find?_eq_none.1 hres j hj)
  | some i =>
    have hi := hlo i (List.mem_of_find?_eq_some hres)
    have hmatch := List.find?_some hres
    exact ⟨i, (h.matchesFolder_iff hb he hf hi).1 hmatch, hfind.trans (congrArg _ hres)⟩

/-- The rest of the path behind a name is a multiple of 256 characters long, so that `isStrEqual`
takes the whole path for its first component. -/
def Wraps (rest : List (Vector UInt8 8)) : Prop := 256 ∣ (pathText rest).length + 1

instance (rest : List (Vector UInt8 8)) : Decidable (Wraps rest) :=
  inferInstanceAs (Decidable (256 ∣ _))

/-- One step of `get_deep_folder_cluster` down a path. -/
theorem FileSystem.Labelled.getDeepFolderCluster_cons (h : fs.Labelled) (hb : fs.LiveDir b)
    (he : e ∈ fs.entries b) (hf : e.isSubdirectory = true) :
    (Wraps names → getDeepFolderCluster fs (steps + 1) (pathText (e.name :: names)) b =
      .ok e.cluster) ∧
    (¬ Wraps names → getDeepFolderCluster fs (steps + 1) (pathText (e.name :: names)) b =
      getDeepFolderCluster fs steps (pathText names) e.cluster) := by
  have hname := (h.proper hb he).name
  obtain ⟨i, hslot, hfind⟩ := h.findFolder_spec hb he hf
  have hle := nameChars_length_le e.name
  have hne : pathText (e.name :: names) ≠ [] := by simp [pathText_cons]
  have heq : isStrEqual (pathText (e.name :: names)) (nameChars e.name) = true ↔ Wraps names := by
    rw [pathText_cons, isStrEqual_append_left (by omega), List.length_cons]
    rfl
  have hdrop : (pathText (e.name :: names)).drop ((strlen (nameChars e.name)).toNat + 1) =
      pathText names := by
    rw [toNat_strlen, Nat.mod_eq_of_lt (by omega), pathText_cons, List.drop_length_add_append,
      List.drop_one, List.tail_cons]
  rw [getDeepFolderCluster, if_neg hne, getParent_pathText hname, ok_bind]
  dsimp only
  rw [hfind, ok_bind]
  dsimp only
  rw [hslot, hdrop]
  exact ⟨fun hw => if_pos (heq.2 hw), fun hw => if_neg fun h => hw (heq.1 h)⟩

/-- No name of a path is taken for the end of it. -/
def NeverWraps (names : List (Vector UInt8 8)) : Prop :=
  ∀ name rest, name :: rest <:+ names → ¬ Wraps rest

theorem neverWraps_nil : NeverWraps [] :=
  fun _ _ hs => absurd (List.eq_nil_of_suffix_nil hs) (List.cons_ne_nil _ _)

theorem neverWraps_cons : NeverWraps (name :: names) ↔ ¬ Wraps names ∧ NeverWraps names := by
  constructor
  · intro h
    exact ⟨h name names List.suffix_rfl,
      fun x rest hs => h x rest (hs.trans (List.suffix_cons _ _))⟩
  · rintro ⟨hw, h⟩ x rest hs
    rcases List.suffix_cons_iff.1 hs with heq | hs
    · cases heq
      exact hw
    · exact h x rest hs

/-- `get_deep_folder_cluster` ends on the path of a directory, and it comes to the directory exactly
when no name is taken for the end of the path. -/
theorem FileSystem.Walk.resolve (hw : fs.Walk b names c) (h : fs.Labelled) (hb : fs.LiveDir b) :
    ∃ d, (∀ steps > names.length, getDeepFolderCluster fs steps (pathText names) b = .ok d) ∧
      (d = c ↔ NeverWraps names) := by
  induction hw with
  | @nil b =>
    refine ⟨b, fun steps hsteps => ?_, iff_of_true rfl neverWraps_nil⟩
    obtain ⟨steps, rfl⟩ := Nat.exists_eq_add_of_lt hsteps
    exact if_pos rfl
  | @cons b c e names he hf hw ih =>
    have hchild : fs.LiveDir e.cluster := hb.tail he hf
    have hstep := fun steps => @FileSystem.Labelled.getDeepFolderCluster_cons fs b e names
      steps h hb he hf
    rw [neverWraps_cons]
    by_cases hwraps : Wraps names
    · refine ⟨e.cluster, fun steps hsteps => ?_, iff_of_false (fun heq => ?_) fun hn => hn.1 hwraps⟩
      · obtain ⟨steps, rfl⟩ := Nat.exists_eq_add_of_lt hsteps
        exact (hstep _).1 hwraps
      -- the rest of the path is not empty, so the directory lies below its first folder
      · rcases hw.cases_snoc with ⟨rfl, -⟩ | ⟨names', d, x, -, hd, hx, hxf, hxc⟩
        · exact absurd hwraps (by decide)
        · refine h.volume.folderTree.isTree.acyclic hchild
            (TransGen.tail' hd.reach ⟨x, hx, hxf, hxc.trans heq.symm⟩)
    · obtain ⟨d, hd, hiff⟩ := ih hchild
      refine ⟨d, fun steps hsteps => ?_, hiff.trans (and_iff_right hwraps).symm⟩
      obtain ⟨steps, rfl⟩ := Nat.exists_eq_add_of_lt hsteps
      rw [(hstep _).2 hwraps]
      exact hd _ (by simp; omega)

end Resolve

/-! ## Printing and resolving -/

/-- `print_path_from_root` prints `root/` and the path `names`, and `get_deep_folder_cluster` leads
from the root directory along the text behind `root/` back to `c`. -/
structure PathRoundTrip (fs : FileSystem) (names : List (Vector UInt8 8)) (c : UInt32) : Prop where
  prints : ∃ bound, ∀ steps ≥ bound, printedPath fs steps c = .ok (rootText ++ pathText names)
  resolves : ∃ bound, ∀ steps ≥ bound,
    getDeepFolderCluster fs steps (pathText names) rootClusterNumber = .ok c

section RoundTrip
variable {fs : FileSystem} {c : UInt32}

/-- The names on the path to a directory are unique. -/
theorem FileSystem.Labelled.walk_unique (h : fs.Labelled) {names names' : List (Vector UInt8 8)}
    (hw : fs.Walk rootClusterNumber names c) (hw' : fs.Walk rootClusterNumber names' c) :
    names = names' := by
  let steps := names.length + names'.length + 1
  have hp := hw.printPathFromRoot h (show names.length < steps by omega)
  have hp' := hw'.printPathFromRoot h (show names'.length < steps by omega)
  rw [hp] at hp'
  exact Except.ok.inj hp'

section
variable {names : List (Vector UInt8 8)} (h : fs.Labelled)
  (hw : fs.Walk rootClusterNumber names c)
include h hw

/-- The path to a directory is printed. -/
theorem FileSystem.Walk.prints : ∃ bound, ∀ steps ≥ bound,
    printedPath fs steps c = .ok (rootText ++ pathText names) :=
  ⟨names.length + 1, fun _ hsteps => h.printedPath_eq hw.reach (hw.printPathFromRoot h hsteps)⟩

/-- The resolution of the path leads back to the directory exactly when it never wraps. -/
theorem FileSystem.Walk.roundTrip_iff : PathRoundTrip fs names c ↔ NeverWraps names := by
  obtain ⟨d, hd, hiff⟩ := hw.resolve h .root
  constructor
  · rintro ⟨-, bound, hres⟩
    have hmax := hd (max bound (names.length + 1)) (lt_max_of_lt_right (Nat.lt_succ_self _))
    rw [hres _ (le_max_left _ _)] at hmax
    exact hiff.1 (Except.ok.inj hmax).symm
  · intro hn
    refine ⟨hw.prints h, names.length + 1, ?_⟩
    rw [← hiff.2 hn]
    exact hd

end

/-- After any run of proper calls there is one path from the root directory to every directory. It
is printed, the resolution of it ends, and it leads back to the directory exactly when the rest of
the path behind any of its names has another length than a multiple of 256. -/
theorem pathRoundTrip_iff {pad0 : Vector UInt8 6} {pad1 : Vector UInt8 5} {disk : Disk}
    (hrun : Run TreeStep TreeCall.Proper (createFat32 pad0 pad1 (.zeroed disk)) fs)
    (hc : fs.LiveDir c) :
    ∃ names, (∀ names', fs.Walk rootClusterNumber names' c ↔ names' = names) ∧
      (∃ bound, ∀ steps ≥ bound, printedPath fs steps c = .ok (rootText ++ pathText names)) ∧
      (∃ bound d, ∀ steps ≥ bound,
        getDeepFolderCluster fs steps (pathText names) rootClusterNumber = .ok d) ∧
      (PathRoundTrip fs names c ↔ NeverWraps names) := by
  have h := labelled_run hrun labelled_createFat32
  obtain ⟨names, hw⟩ := FileSystem.exists_walk hc
  obtain ⟨d, hd, -⟩ := hw.resolve h .root
  exact ⟨names, fun names' => ⟨fun hw' => h.walk_unique hw' hw, fun heq => heq ▸ hw⟩, hw.prints h,
    ⟨names.length + 1, d, hd⟩, hw.roundTrip_iff h⟩

end RoundTrip

/-! ## Folders in folders -/

/-- The request for a folder called `AAAA` in the directory at `parent`. -/
def nestRequest (parent : UInt32) : DriverRequest :=
  ⟨0, #v[0x41, 0x41, 0x41, 0x41, 0, 0, 0, 0], Vector.replicate 3 0, parent, 0⟩

theorem length_pathText_replicate (n : Nat) (name : Vector UInt8 8) :
    (pathText (List.replicate n name)).length = n * ((nameChars name).length + 1) := by
  simp [pathText, List.length_flatMap]

theorem properName_nest (parent : UInt32) : ProperName (nestRequest parent).name where
  padded := rfl
  nonempty := List.cons_ne_nil _ _
  separator c hc := by
    have hchars : c ∈ List.replicate 4 (0x41 : UInt8) := hc
    rw [List.eq_of_mem_replicate hchars]
    rfl
  ne_dot h := nomatch h
  ne_dotdot h := nomatch h

/-- Folders called `AAAA` can be made one in the other; the last one is empty. -/
theorem exists_nest (n : Nat) (hn : n ≤ 60) : ∃ fs c,
    Run TreeStep TreeCall.Proper blankFileSystem fs ∧
    fs.Walk rootClusterNumber (List.replicate n (nestRequest 0).name) c ∧
    (∀ i : Fin 64, 2 ≤ i.val → (fs.tableAt c i).live = false) ∧
    (freeClusters blankFileSystem.clusterMap).length ≤ (freeClusters fs.clusterMap).length + n := by
  have hblank : 509 ≤ (freeClusters blankFileSystem.clusterMap).length :=
    length_freeClusters_createFat32
  induction n with
  | zero =>
    refine ⟨blankFileSystem, rootClusterNumber, .refl, .nil, fun i hi => ?_, Nat.le_add_right _ 0⟩
    have hzero : blankFileSystem.tableAt rootClusterNumber i = .zero := tableAt_createFat32 i hi
    rw [hzero]
    rfl
  | succ n ih =>
    obtain ⟨fs, c, hrun, hwalk, hdead, hfree⟩ := ih (Nat.le_of_succ_le hn)
    have h := labelled_run hrun labelled_createFat32
    have hc : fs.LiveDir c := hwalk.reach
    have ha : fs.Accepts (nestRequest c) := by
      refine ⟨hc, fun hfull => ?_, fun e he => ?_, ?_⟩
      · exact absurd ((hfull 2 (by decide)).symm.trans (hdead 2 (by decide))) (by simp)
      · obtain ⟨j, hj, rfl, hlive⟩ := he
        exact absurd (hlive.symm.trans (hdead j hj)) (by simp)
      · have hwanted : clustersWanted 0 ≤ 2 := by decide
        exact hwanted.trans (by omega)
    obtain ⟨i, c', l, fs', hwrite, hw⟩ := write_spec (fun _ => 0) h.toSound ha
    obtain ⟨nextFree, htable⟩ := hw.folder rfl
    have hg := hw.grows h.toSound
    have hcluster : (createdEntry (nestRequest c) c').cluster = c' := createdEntry_cluster
    have hproper : (TreeCall.request (.write (fun _ => 0) (nestRequest c))).Proper fs :=
      ⟨Request.permitted_of_accepts _ ha (properName_nest c).ne_zero, properName_nest c,
        fun _ => rfl⟩
    refine ⟨fs', c', hrun.tail hproper ⟨0, hwrite⟩, ?_, fun j hj => ?_, ?_⟩
    · have hold : fs'.Walk rootClusterNumber (List.replicate n (nestRequest 0).name) c :=
        hwalk.mono .root fun hd he => (hg.mem_records_iff hd).2 (.inl he)
      have hnew := hold.snoc hw.mem_entries (createdEntry_isSubdirectory.2 rfl)
      rw [hcluster] at hnew
      rw [List.replicate_succ']
      exact hnew
    · rw [htable, newFolderTable_slot hj]
      rfl
    · have hlen := hw.length_freeClusters
      have hone : clusterNeeded (nestRequest c).bufferSize = 1 := by
        show clusterNeeded 0 = 1
        decide
      omega

/-- The path of a folder that lies in two others is printed and resolved. -/
theorem pathRoundTrip_nested : ∃ fs c, Run TreeStep TreeCall.Proper blankFileSystem fs ∧
    fs.LiveDir c ∧ c ≠ rootClusterNumber ∧
    PathRoundTrip fs [(nestRequest 0).name, (nestRequest 0).name, (nestRequest 0).name] c := by
  obtain ⟨fs, c, hrun, hwalk, -, -⟩ := exists_nest 3 (by decide)
  have h := labelled_run hrun labelled_createFat32
  obtain ⟨names, hnames, -, -, hiff⟩ := pathRoundTrip_iff hrun hwalk.reach
  have heq := (hnames _).1 hwalk
  have hnever : NeverWraps [(nestRequest 0).name, (nestRequest 0).name, (nestRequest 0).name] := by
    refine neverWraps_cons.2 ⟨by decide, neverWraps_cons.2 ⟨by decide, ?_⟩⟩
    exact neverWraps_cons.2 ⟨by decide, neverWraps_nil⟩
  rw [← heq] at hiff
  refine ⟨fs, c, hrun, hwalk.reach, ?_, hiff.2 hnever⟩
  rintro rfl
  exact absurd (h.walk_unique hwalk .nil) (List.cons_ne_nil _ _)

/-- The path of 52 folders called `AAAA`, one in the other, is printed, but the resolution of it
ends early: `isStrEqual` takes its 260 characters for the 4 of its first component. -/
theorem resolve_stops_early : ∃ fs c d names,
    Run TreeStep TreeCall.Proper blankFileSystem fs ∧ fs.LiveDir c ∧
    fs.Walk rootClusterNumber names c ∧ (pathText names).length = 260 ∧
    (∃ bound, ∀ steps ≥ bound, printedPath fs steps c = .ok (rootText ++ pathText names)) ∧
    (∃ bound, ∀ steps ≥ bound,
      getDeepFolderCluster fs steps (pathText names) rootClusterNumber = .ok d) ∧
    d ≠ c ∧ ¬ PathRoundTrip fs names c := by
  obtain ⟨fs, c, hrun, hwalk, -, -⟩ := exists_nest 52 (by decide)
  have h := labelled_run hrun labelled_createFat32
  have hlength : (pathText (List.replicate 52 (nestRequest 0).name)).length = 260 :=
    length_pathText_replicate 52 _
  have hwraps : Wraps (List.replicate 51 (nestRequest 0).name) :=
    ⟨1, congrArg (· + 1) (length_pathText_replicate 51 _)⟩
  have hnot : ¬ NeverWraps (List.replicate 52 (nestRequest 0).name) :=
    fun hn => (neverWraps_cons.1 hn).1 hwraps
  obtain ⟨d, hd, hiff⟩ := hwalk.resolve h .root
  exact ⟨fs, c, d, _, hrun, hwalk.reach, hwalk, hlength, hwalk.prints h, ⟨_, hd⟩,
    fun heq => hnot (hiff.1 heq), fun hp => hnot ((hwalk.roundTrip_iff h).1 hp)⟩

end OsKernel
