import OsKernel.Shell.Cat
import OsKernel.Shell.Tree

/-!
# `find`

`dfs_find` goes through the tree of directories and appends the path of every entry with the goal's
name to an array of 64 paths; it looks at the number of paths only when it comes to a directory. On
its way it builds the name of every entry in an array that is one character short of the zero byte
it stores, and the path in an array of 256 characters. In a labelled file system its loops are a
search of the forest that the root directory unfolds to (`Unfolds.foldlM_iff`), so `find` finds what
it is to find exactly when it gets past every entry that it comes to and there is room for the paths
(`find_paths_iff`). Where it returns, it follows the walk with the names alone
(`dfsFindPaths_dfsFind`).
-/

namespace OsKernel

open Lib Relation

/-! ## The functions of the shell -/

/-- `memcpy(dest, str, strlen(str) + 1)`: the string in `dest`. -/
def memcpyString (str : List UInt8) : Except Fault (List UInt8) :=
  cString ((str ++ [0]).take ((strlen str).toNat + 1))

/-- The string that starts at `table[i].ext`. -/
def entryExt (t : DirectoryTable) (i : Fin 64) : Except Fault (List UInt8) :=
  cString ((((List.finRange 64).drop i.val).flatMap fun j => (t j).bytes).drop 8)

/-- Whether the byte behind the array `entryname` of a folder and the one of a file is padding, so
that the zero byte that `dfs_find` stores there does no harm. -/
structure Padding where
  folder : Bool
  file : Bool

/-- The array `entryname` of a folder: the last of its 9 bytes is never stored. -/
def folderEntryname (pad : Padding) (e : DirectoryEntry) : Except Fault (List UInt8) :=
  if pad.folder then cString e.name.toList else .error (.arrayIndex 9)

/-- The array `entryname` of a file: of its 13 bytes `strcat` finds the name in the first 8. -/
def fileEntryname (pad : Padding) (dirTable : DirectoryTable) (i : Fin 64) :
    Except Fault (List UInt8) :=
  if (dirTable i).ext.get 0 = 0 then cString ((dirTable i).name.toList ++ [0])
  else do
    let entryname ← cString (dirTable i).name.toList
    let entryname ← strcat 13 entryname [0x2E]
    let ext ← entryExt dirTable i
    let entryname ← strcat 13 entryname ext
    if pad.file then return entryname else .error (.arrayIndex 13)

/-- The array `entryname`. -/
def slotEntryname (pad : Padding) (dirTable : DirectoryTable) (i : Fin 64) :
    Except Fault (List UInt8) :=
  if (dirTable i).isSubdirectory then folderEntryname pad (dirTable i)
  else fileEntryname pad dirTable i

/-- A path goes into `paths[*pathCount]` if the entry's name is the goal. -/
def recordPath (goal entryname subpath : List UInt8) (paths : List (List UInt8)) :
    Except Fault (List (List UInt8)) :=
  if isStrEqual entryname goal then
    if paths.length < 64 then do
      let copy ← memcpyString subpath
      return paths ++ [copy]
    else .error (.arrayIndex paths.length)
  else .ok paths

/-- The body of the loop of `dfs_find`, with the function that it calls for a folder. -/
def findSlot (pad : Padding) (goal : List UInt8) (dirTable : DirectoryTable) (path : List UInt8)
    (dfs : UInt32 → List UInt8 → List (List UInt8) → Except Fault (List (List UInt8)))
    (paths : List (List UInt8)) (i : Fin 64) : Except Fault (List (List UInt8)) := do
  let name ← entryName dirTable i
  if isStrEqual name [0x2E, 0x2E] then return paths
  else if (dirTable i).live then do
    let entryname ← slotEntryname pad dirTable i
    let copy ← memcpyString path
    let subpath ← strcat 256 copy entryname
    let paths ← recordPath goal entryname subpath paths
    if (dirTable i).isSubdirectory then do
      let subpath ← strcat 256 subpath [0x2F]
      dfs (dirTable i).cluster subpath paths
    else return paths
  else return paths

/-- `dfs_find`, down to a depth of `steps` directories, with the strings in `paths`. -/
def dfsFindPaths (pad : Padding) (fs : FileSystem) (goal : List UInt8) : Nat → UInt32 → List UInt8 →
    List (List UInt8) → Except Fault (List (List UInt8))
  | 0, _, _, _ => .error .outOfSteps
  | steps + 1, clusterNumber, path, paths =>
    if 64 ≤ paths.length then .ok paths
    else ((List.finRange 64).drop 1).foldlM
      (findSlot pad goal (fs.tableAt clusterNumber) path (dfsFindPaths pad fs goal steps)) paths

/-- The array `path` of `find`. -/
def findRoot : List UInt8 := 0x0A :: rootText

/-- The call of `dfs_find` in `find`. -/
def findPaths (pad : Padding) (fs : FileSystem) (goal : List UInt8) (steps : Nat) :
    Except Fault (List (List UInt8)) :=
  dfsFindPaths pad fs goal steps rootClusterNumber findRoot []

/-- `find`: what it returns, and what it has `puts` print. -/
def find (pad : Padding) (fs : FileSystem) (goal : Argument) (steps : Nat) :
    Except Fault (Int × List (List UInt8)) := do
  let paths ← findPaths pad fs goal.chars steps
  if paths.length = 0 then return (1, [literal "\n\nNo such file or directory\n"].map printToScreen)
  else return (0, paths.flatMap fun path => [path, literal "\n"].map printToScreen)

/-! ## Names and paths -/

/-- The characters of an extension. -/
def extChars (ext : Vector UInt8 3) : List UInt8 := ext.toList.takeWhile (· ≠ 0)

/-- The name of a folder or a file without extension, and `name.ext` otherwise. -/
def DirectoryEntry.fullName (e : DirectoryEntry) : List UInt8 :=
  if e.isSubdirectory = true ∨ e.ext.get 0 = 0 then nameChars e.name
  else nameChars e.name ++ 0x2E :: extChars e.ext

/-- The path of a folder, with the slash at its end. -/
def folderPath (names : List (Vector UInt8 8)) : List UInt8 := findRoot ++ pathText names

/-- The full path of an entry. -/
def Visit.path (fs : FileSystem) (v : Visit) : List UInt8 :=
  folderPath v.names ++ (v.entry fs).fullName

/-- The entries with the name that is looked for. -/
def isGoal (fs : FileSystem) (goal : List UInt8) (v : Visit) : Bool :=
  decide ((v.entry fs).fullName = goal)

/-- `dfs_find` builds the name of an entry: the one of a file without extension, and a name of at
most 7 characters where the byte behind the array `entryname` is padding. -/
def NameFits (pad : Padding) (e : DirectoryEntry) : Prop :=
  (e.isSubdirectory = false ∧ e.ext.get 0 = 0) ∨
    ((if e.isSubdirectory then pad.folder else pad.file) = true ∧ (nameChars e.name).length ≤ 7)

/-- `dfs_find` gets past an entry: it builds the name, and the path has room in `subpath`. -/
structure Visit.Fits (pad : Padding) (fs : FileSystem) (v : Visit) : Prop where
  name : NameFits pad (v.entry fs)
  path : (v.path fs).length + (if (v.entry fs).isSubdirectory then 1 else 0) < 256

instance (pad : Padding) (e : DirectoryEntry) : Decidable (NameFits pad e) :=
  inferInstanceAs (Decidable (_ ∨ _))

instance (pad : Padding) (fs : FileSystem) (v : Visit) : Decidable (v.Fits pad fs) :=
  decidable_of_iff (NameFits pad (v.entry fs) ∧
    (v.path fs).length + (if (v.entry fs).isSubdirectory then 1 else 0) < 256)
    ⟨fun ⟨hname, hpath⟩ => ⟨hname, hpath⟩, fun ⟨hname, hpath⟩ => ⟨hname, hpath⟩⟩

/-! ## Strings -/

/-- A string whose length fits into a byte is copied. -/
theorem memcpyString_eq {str : List UInt8} (h : ∀ c ∈ str, c ≠ 0) (hlen : str.length < 256) :
    memcpyString str = .ok str := by
  rw [memcpyString, toNat_strlen, Nat.mod_eq_of_lt hlen, List.take_of_length_le (by simp),
    cString_zero, List.takeWhile_eq_self_iff.2 fun c hc => decide_eq_true (h c hc)]

theorem nameChars_ne_zero (name : Vector UInt8 8) : ∀ c ∈ nameChars name, c ≠ 0 := by
  intro c hc
  simpa using List.mem_takeWhile_imp hc

theorem extChars_ne_zero (ext : Vector UInt8 3) : ∀ c ∈ extChars ext, c ≠ 0 := by
  intro c hc
  simpa using List.mem_takeWhile_imp hc

theorem extChars_length_le (ext : Vector UInt8 3) : (extChars ext).length ≤ 3 := by
  have hle := (ext.toList.takeWhile_sublist (· ≠ 0)).length_le
  rwa [Vector.length_toList] at hle

/-! ## The name of an entry -/

section Name
variable {pad : Padding} {t : DirectoryTable} {i : Fin 64} {e : DirectoryEntry} {r : List UInt8}

/-- A name of at most 7 characters is a string in its 8 bytes. -/
theorem cString_name {name : Vector UInt8 8} : cString name.toList = .ok r ↔
    (nameChars name).length ≤ 7 ∧ r = nameChars name := by
  rw [cString_eq_ok, Vector.length_toList, Nat.lt_succ_iff]
  rfl

/-- The extension of a file ends at its attribute. -/
theorem entryExt_eq (h : (t i).attr = 0) : entryExt t i = .ok (extChars (t i).ext) := by
  obtain ⟨rest, hbytes⟩ := (t i).bytes_eq
  have hdrop : (List.finRange 64).drop i.val = i :: (List.finRange 64).drop (i.val + 1) := by
    rw [List.drop_eq_getElem_cons (by simp), List.getElem_finRange]
    rfl
  have hname : (t i).name.toList.length = 8 := Vector.length_toList
  rw [entryExt, hdrop, List.flatMap_cons, hbytes, List.append_assoc, List.drop_left' hname, h,
    List.append_assoc, List.cons_append, cString_zero, extChars]

/-- What `dfs_find` builds as the name of an entry. -/
theorem slotEntryname_eq_ok (h : ProperEntry (t i)) : slotEntryname pad t i = .ok r ↔
    NameFits pad (t i) ∧ r = (t i).fullName := by
  rw [slotEntryname, NameFits, DirectoryEntry.fullName]
  cases hf : (t i).isSubdirectory with
  | true =>
    rw [if_pos rfl, folderEntryname]
    cases hpad : pad.folder with
    | true => simp [cString_name]
    | false => simp
  | false =>
    have hext := entryExt_eq (h.file hf)
    have hlen := extChars_length_le (t i).ext
    rw [if_neg (by decide), fileEntryname]
    split
    · next hplain =>
      rw [cString_zero, if_pos (show false = true ∨ (t i).ext.get 0 = 0 from .inr hplain)]
      exact ⟨fun hr => ⟨.inl ⟨rfl, hplain⟩, (Except.ok.inj hr).symm⟩,
        fun hr => congrArg _ hr.2.symm⟩
    · next hplain =>
      simp only [hext, pure_eq_ok, ok_bind, bind_eq_ok, cString_name, strcat_eq_ok,
        List.length_cons,
        List.length_nil, zero_add, ↓existsAndEq, and_true, List.length_append, List.append_assoc,
        List.cons_append, List.nil_append, hplain, and_false, false_or, Bool.false_eq_true, or_self,
        ↓reduceIte]
      cases hpad : pad.file with
      | false => simp
      | true =>
        constructor
        · rintro ⟨hname, -, -, hr⟩
          exact ⟨⟨rfl, hname⟩, (Except.ok.inj hr).symm⟩
        · rintro ⟨⟨-, hname⟩, rfl⟩
          exact ⟨hname, by omega, by omega, rfl⟩

end Name

/-! ## Paths in the tree -/

section Slots
variable {pad : Padding} {fs : FileSystem} {goal : Argument} {names : List (Vector UInt8 8)}
  {d : UInt32} {i : Fin 64} {slots : List (Fin 64)} {f : Forest Visit} {v w : Visit}
  {found found' : List Visit} {paths r : List (List UInt8)} {steps : Nat}
  {dfs : UInt32 → List UInt8 → List (List UInt8) → Except Fault (List (List UInt8))}

theorem folderPath_ne_zero (names : List (Vector UInt8 8)) : ∀ c ∈ folderPath names, c ≠ 0 := by
  intro c hc
  rcases List.mem_append.1 hc with hc | hc
  · have hroot : ∀ c ∈ findRoot, c ≠ 0 := by simp [findRoot, rootText]
    exact hroot c hc
  · obtain ⟨name, -, hc⟩ := List.mem_flatMap.1 hc
    rcases List.mem_append.1 hc with hc | hc
    · exact nameChars_ne_zero name c hc
    · rw [List.mem_singleton.1 hc]
      decide

theorem DirectoryEntry.fullName_ne_zero (e : DirectoryEntry) : ∀ c ∈ e.fullName, c ≠ 0 := by
  intro c hc
  rw [fullName] at hc
  split at hc
  · exact nameChars_ne_zero e.name c hc
  · rcases List.mem_append.1 hc with hc | hc
    · exact nameChars_ne_zero e.name c hc
    · rcases List.mem_cons.1 hc with rfl | hc
      · decide
      · exact extChars_ne_zero e.ext c hc

theorem DirectoryEntry.fullName_length_le (e : DirectoryEntry) : e.fullName.length ≤ 12 := by
  have hname := nameChars_length_le e.name
  have hext := extChars_length_le e.ext
  rw [fullName]
  split
  · omega
  · rw [List.length_append, List.length_cons]
    omega

theorem Visit.path_ne_zero (v : Visit) : ∀ c ∈ v.path fs, c ≠ 0 := fun c hc =>
  (List.mem_append.1 hc).elim (folderPath_ne_zero v.names c) ((v.entry fs).fullName_ne_zero c)

theorem folderPath_snoc (name : Vector UInt8 8) :
    folderPath (names ++ [name]) = folderPath names ++ nameChars name ++ [0x2F] := by
  simp [folderPath, pathText]

theorem DirectoryEntry.fullName_folder {e : DirectoryEntry} (h : e.isSubdirectory = true) :
    e.fullName = nameChars e.name := if_pos (.inl h)

/-- A path is stored for an entry with the goal's name. -/
theorem recordPath_eq_ok (hpath : (v.path fs).length < 256) :
    recordPath goal.chars (v.entry fs).fullName (v.path fs) (found.map (Visit.path fs)) = .ok r ↔
      ∃ found', Forest.collect (isGoal fs goal.chars) 64 v found = some found' ∧
        r = found'.map (Visit.path fs) := by
  have hgoal : isStrEqual (v.entry fs).fullName goal.chars = isGoal fs goal.chars v := by
    rw [Bool.eq_iff_iff, isStrEqual_of_lt ((v.entry fs).fullName_length_le.trans_lt (by decide))
      (goal.short.trans_lt (by decide)), isGoal, decide_eq_true_iff]
  rw [recordPath, hgoal, Forest.collect, List.length_map, memcpyString_eq v.path_ne_zero hpath]
  split
  · split
    · simp [eq_comm]
    · simp
  · simp [eq_comm]

/-- The name in an entry's slot is not taken for the one of the entry for the parent directory. -/
theorem ProperEntry.text_ne_dotdot {e : DirectoryEntry} (h : ProperEntry e) :
    isStrEqual e.text [0x2E, 0x2E] = false := by
  obtain ⟨rest, hbytes⟩ := e.bytes_eq
  have hle := (e.bytes.takeWhile_sublist (· ≠ 0)).length_le
  have hshort : e.text.length < 256 :=
    hle.trans_lt (by rw [DirectoryEntry.bytes, List.length_map]; decide)
  rw [← Bool.not_eq_true, isStrEqual_of_lt hshort (by decide)]
  intro heq
  rw [DirectoryEntry.text, hbytes, List.takeWhile_append] at heq
  split at heq
  · next hlen =>
    have h8 := congrArg List.length heq
    rw [List.length_append, Vector.length_toList] at h8
    simp at h8
    omega
  · exact h.name.ne_dotdot heq

/-- The loop goes past an unused slot. -/
theorem FileSystem.Labelled.findSlot_unused (h : fs.Labelled) (hd : fs.LiveDir d)
    (hi : 2 ≤ i.val) (hlive : (fs.tableAt d i).live = false) (path : List UInt8) :
    findSlot pad goal.chars (fs.tableAt d) path dfs paths i = .ok paths := by
  rw [findSlot, entryName_eq (h.zero_mem_slot hd (Nat.le_of_succ_le hi)), ok_bind, hlive]
  split <;> rfl

/-- The loop goes past the entry for the parent directory. -/
theorem FileSystem.Labelled.findSlot_one (h : fs.Labelled) (hd : fs.LiveDir d) (path : List UInt8) :
    findSlot pad goal.chars (fs.tableAt d) path dfs paths 1 = .ok paths := by
  rw [findSlot, entryName_eq (h.zero_mem_slot hd (by decide)), ok_bind,
    DirectoryEntry.text_of_isDotDot (h.dotdot hd), if_pos (by decide)]
  rfl

/-- What the loop does at an entry. -/
theorem FileSystem.Labelled.findSlot_entry (h : fs.Labelled) (hd : fs.LiveDir d)
    (hi : 2 ≤ i.val) (hlive : (fs.tableAt d i).live = true)
    (hpath : (folderPath names).length < 256) (hv : v = ⟨names, d, i⟩) :
    findSlot pad goal.chars (fs.tableAt d) (folderPath names) dfs (found.map (Visit.path fs)) i =
        .ok r ↔
      v.Fits pad fs ∧ ∃ found', Forest.collect (isGoal fs goal.chars) 64 v found = some found' ∧
        (if (v.entry fs).isSubdirectory then
          dfs (v.entry fs).cluster (folderPath (names ++ [(v.entry fs).name]))
            (found'.map (Visit.path fs)) = .ok r
        else r = found'.map (Visit.path fs)) := by
  have hproper := h.proper hd (slot_mem_records hi hlive)
  have hentry : v.entry fs = fs.tableAt d i := by rw [hv, Visit.entry]
  have hwhole : v.path fs = folderPath names ++ (fs.tableAt d i).fullName := by
    rw [Visit.path, hentry, hv]
  have hdown : (fs.tableAt d i).isSubdirectory = true →
      folderPath (names ++ [(fs.tableAt d i).name]) = v.path fs ++ [0x2F] := by
    intro hf
    rw [hwhole, DirectoryEntry.fullName_folder hf, folderPath_snoc]
  rw [findSlot, entryName_eq (h.zero_mem_slot hd (Nat.le_of_succ_le hi)), ok_bind,
    hproper.text_ne_dotdot, hlive, memcpyString_eq (folderPath_ne_zero names) hpath,
    if_neg Bool.false_ne_true, if_pos rfl, hentry]
  have hlen : (v.path fs).length =
      (folderPath names).length + (fs.tableAt d i).fullName.length := by
    rw [hwhole, List.length_append]
  constructor
  · intro hrun
    obtain ⟨entryname, hname, hrun⟩ := bind_eq_ok.1 hrun
    obtain ⟨hnameFits, rfl⟩ := (slotEntryname_eq_ok hproper).1 hname
    rw [ok_bind] at hrun
    obtain ⟨subpath, hsubpath, hrun⟩ := bind_eq_ok.1 hrun
    obtain ⟨hroom, rfl⟩ := strcat_eq_ok.1 hsubpath
    obtain ⟨paths, hrecord, hrun⟩ := bind_eq_ok.1 hrun
    rw [← hlen] at hroom
    rw [← hwhole, ← hentry] at hrecord
    obtain ⟨found', hcollect, rfl⟩ := (recordPath_eq_ok hroom).1 hrecord
    split at hrun
    · next hf =>
      obtain ⟨down, hstrcat, hrun⟩ := bind_eq_ok.1 hrun
      obtain ⟨hroom', rfl⟩ := strcat_eq_ok.1 hstrcat
      rw [← hwhole] at hroom' hrun
      refine ⟨⟨hentry ▸ hnameFits, ?_⟩, found', hcollect, ?_⟩
      · rw [hentry, if_pos hf]
        exact hroom'
      · rw [if_pos hf, hdown hf]
        exact hrun
    · next hf =>
      refine ⟨⟨hentry ▸ hnameFits, ?_⟩, found', hcollect, ?_⟩
      · rw [hentry, if_neg hf]
        exact hroom
      · rw [if_neg hf]
        exact (Except.ok.inj hrun).symm
  · rintro ⟨hfits, found', hcollect, hrun⟩
    have hfit := hfits.path
    rw [hentry] at hfit
    have hroom : (v.path fs).length < 256 := Nat.lt_of_le_of_lt (Nat.le_add_right _ _) hfit
    have hname : slotEntryname pad (fs.tableAt d) i = .ok (fs.tableAt d i).fullName :=
      (slotEntryname_eq_ok hproper).2 ⟨hentry ▸ hfits.name, rfl⟩
    have hrecord : recordPath goal.chars _ _ _ = .ok _ :=
      (recordPath_eq_ok hroom).2 ⟨found', hcollect, rfl⟩
    rw [hentry, hwhole] at hrecord
    rw [hname, ok_bind, ok_bind, strcat_eq_ok.2 ⟨hlen ▸ hroom, rfl⟩, ok_bind, hrecord, ok_bind]
    split at hrun
    · next hf =>
      rw [if_pos hf] at hfit ⊢
      rw [← hwhole, strcat_eq_ok.2 ⟨hfit, rfl⟩, ok_bind, ← hdown hf]
      exact hrun
    · next hf =>
      rw [if_neg hf, hrun]
      rfl

/-- The path of a folder that `dfs_find` gets past has room, with its slash. -/
theorem Visit.Fits.folderPath_lt (h : Visit.Fits pad fs ⟨names, d, i⟩)
    (hf : (fs.tableAt d i).isSubdirectory = true) :
    (folderPath (names ++ [(fs.tableAt d i).name])).length < 256 := by
  have hfit := h.path
  rw [Visit.entry, if_pos hf, Visit.path, Visit.entry] at hfit
  rw [folderPath_snoc, ← DirectoryEntry.fullName_folder hf, List.length_append]
  exact hfit

/-! ## The search -/

/-- The loop at an entry, when the call for what is below it and the rest of the loop are
searches. -/
theorem FileSystem.Labelled.foldlM_entry {sub next : Forest Visit} (h : fs.Labelled)
    (hd : fs.LiveDir d) (hi : 2 ≤ i.val) (hlive : (fs.tableAt d i).live = true)
    (hpath : (folderPath names).length < 256) (hv : v = ⟨names, d, i⟩)
    (hdown : v.Fits pad fs → ∀ {here : List Visit} {paths},
      (if (v.entry fs).isSubdirectory then
        dfs (v.entry fs).cluster (folderPath (names ++ [(v.entry fs).name]))
          (here.map (Visit.path fs)) = .ok paths
      else paths = here.map (Visit.path fs)) ↔
      ∃ there, (if 64 ≤ here.length then some here
          else sub.search (Visit.Fits pad fs) (isGoal fs goal.chars) 64 here) = some there ∧
        paths = there.map (Visit.path fs))
    (hnext : ∀ {there : List Visit}, slots.foldlM
        (findSlot pad goal.chars (fs.tableAt d) (folderPath names) dfs)
        (there.map (Visit.path fs)) = .ok r ↔
      ∃ found', next.search (Visit.Fits pad fs) (isGoal fs goal.chars) 64 there = some found' ∧
        r = found'.map (Visit.path fs)) :
    (i :: slots).foldlM (findSlot pad goal.chars (fs.tableAt d) (folderPath names) dfs)
        (found.map (Visit.path fs)) = .ok r ↔
      ∃ found', (Forest.node v sub next).search (Visit.Fits pad fs) (isGoal fs goal.chars) 64
          found = some found' ∧ r = found'.map (Visit.path fs) := by
  rw [List.foldlM_cons, bind_eq_ok]
  constructor
  · rintro ⟨paths, hslot, hrest⟩
    obtain ⟨hfits, here, hcollect, hrun⟩ := (h.findSlot_entry hd hi hlive hpath hv).1 hslot
    obtain ⟨there, hbelow, rfl⟩ := (hdown hfits).1 hrun
    obtain ⟨found', hsearch, rfl⟩ := hnext.1 hrest
    exact ⟨found', Forest.search_node.2 ⟨hfits, here, hcollect, there, hbelow, hsearch⟩, rfl⟩
  · rintro ⟨found', hsearch, rfl⟩
    obtain ⟨hfits, here, hcollect, there, hbelow, hsearch⟩ := Forest.search_node.1 hsearch
    refine ⟨there.map (Visit.path fs), ?_, hnext.2 ⟨found', hsearch, rfl⟩⟩
    exact (h.findSlot_entry hd hi hlive hpath hv).2
      ⟨hfits, here, hcollect, (hdown hfits).2 ⟨there, hbelow, rfl⟩⟩

/-- A call of `dfs_find` goes through the entries of the directory. -/
theorem FileSystem.Labelled.dfsFindPaths_succ (h : fs.Labelled) (hd : fs.LiveDir d)
    (path : List UInt8) : dfsFindPaths pad fs goal.chars (steps + 1) d path paths =
      if 64 ≤ paths.length then .ok paths
      else childSlots.foldlM (findSlot pad goal.chars (fs.tableAt d) path
        (dfsFindPaths pad fs goal.chars steps)) paths := by
  have hslots : (List.finRange 64).drop 1 = 1 :: childSlots := by decide
  rw [dfsFindPaths, hslots, List.foldlM_cons, h.findSlot_one hd]
  rfl

/-- A call of `dfs_find` is a search, unless the paths that are there fill the array. -/
theorem FileSystem.Labelled.dfsFindPaths_iff (h : fs.Labelled) (hd : fs.LiveDir d)
    (hloop : ∀ {r : List (List UInt8)}, childSlots.foldlM (findSlot pad goal.chars (fs.tableAt d)
        (folderPath names) (dfsFindPaths pad fs goal.chars steps)) (found.map (Visit.path fs)) =
        .ok r ↔
      ∃ found', f.search (Visit.Fits pad fs) (isGoal fs goal.chars) 64 found = some found' ∧
        r = found'.map (Visit.path fs)) :
    dfsFindPaths pad fs goal.chars (steps + 1) d (folderPath names)
        (found.map (Visit.path fs)) = .ok r ↔
      ∃ found', (if 64 ≤ found.length then some found
          else f.search (Visit.Fits pad fs) (isGoal fs goal.chars) 64 found) = some found' ∧
        r = found'.map (Visit.path fs) := by
  rw [h.dfsFindPaths_succ hd, List.length_map]
  split
  · simp [eq_comm]
  · exact hloop

/-- The loop of `dfs_find` over the slots of a directory is the search of what they hold. -/
theorem FileSystem.Unfolds.foldlM_iff (hu : fs.Unfolds names d slots f) (h : fs.Labelled)
    (hd : fs.LiveDir d) (hslots : ∀ i ∈ slots, 2 ≤ i.val) (hpath : (folderPath names).length < 256)
    (hsteps : f.depth ≤ steps) :
    slots.foldlM (findSlot pad goal.chars (fs.tableAt d) (folderPath names)
        (dfsFindPaths pad fs goal.chars steps)) (found.map (Visit.path fs)) = .ok r ↔
      ∃ found', f.search (Visit.Fits pad fs) (isGoal fs goal.chars) 64 found = some found' ∧
        r = found'.map (Visit.path fs) := by
  induction hu generalizing found r steps with
  | nil => simp [Forest.search, eq_comm]
  | @unused names d i slots f hlive _ ih =>
    have hunused : findSlot pad goal.chars (fs.tableAt d) (folderPath names)
        (dfsFindPaths pad fs goal.chars steps) (found.map (Visit.path fs)) i = .ok _ :=
      h.findSlot_unused hd (hslots i List.mem_cons_self) hlive _
    rw [List.foldlM_cons, hunused]
    exact ih hd (fun j hj => hslots j (List.mem_cons_of_mem _ hj)) hpath hsteps
  | @file names d i slots next hlive hf _ ih =>
    refine h.foldlM_entry hd (hslots i List.mem_cons_self) hlive hpath rfl (fun _ => ?_) ?_
    · intro here paths
      rw [if_neg (by rw [Visit.entry, hf]; decide)]
      split <;> simp [Forest.search]
    · exact ih hd (fun j hj => hslots j (List.mem_cons_of_mem _ hj)) hpath
        ((le_max_right _ _).trans hsteps)
  | @folder names d i slots sub next hlive hf _ _ ihs ihn =>
    have hi := hslots i List.mem_cons_self
    refine h.foldlM_entry hd hi hlive hpath rfl (fun hfits => ?_) ?_
    · intro here paths
      have hentry : Visit.entry fs ⟨names, d, i⟩ = fs.tableAt d i := rfl
      rw [hentry, if_pos hf]
      have hchild : fs.LiveDir (fs.tableAt d i).cluster := hd.tail (slot_mem_records hi hlive) hf
      obtain ⟨steps, rfl⟩ := Nat.exists_eq_add_of_le'
        (Nat.le_of_add_left_le ((le_max_left _ _).trans hsteps))
      have hdepth : sub.depth ≤ steps :=
        Nat.le_of_succ_le_succ ((le_max_left _ _).trans hsteps)
      exact h.dfsFindPaths_iff hchild
        (ihs hchild (fun j hj => mem_childSlots.1 hj) (hfits.folderPath_lt hf) hdepth)
    · exact ihn hd (fun j hj => hslots j (List.mem_cons_of_mem _ hj)) hpath
        ((le_max_right _ _).trans hsteps)

/-! ## The names on the paths -/

/-- The names on the path of an entry. -/
def Visit.trail (fs : FileSystem) (v : Visit) : List (Vector UInt8 8) :=
  v.names ++ [(v.entry fs).name]

/-- An entry has the name that is looked for. -/
def DirectoryEntry.isNamed (goal : List UInt8) (e : DirectoryEntry) : Bool :=
  decide (e.fullName = goal)

/-- The strings and the lists of names that belong to the same entries. -/
def SamePaths (fs : FileSystem) (paths : List (List UInt8))
    (trails : List (List (Vector UInt8 8))) :
    Prop :=
  ∃ found : List Visit, paths = found.map (Visit.path fs) ∧ trails = found.map (Visit.trail fs)

/-- `dfs_find` with its strings, where it returns, does what it does with the names. -/
theorem FileSystem.Labelled.dfsFindPaths_dfsFind (h : fs.Labelled) (hd : fs.LiveDir d)
    (hpath : (folderPath names).length < 256) {trails : List (List (Vector UInt8 8))}
    (hsame : SamePaths fs paths trails)
    (hrun : dfsFindPaths pad fs goal.chars steps d (folderPath names) paths = .ok r) :
    ∃ trails', dfsFind (DirectoryEntry.isNamed goal.chars) fs steps d names trails = .ok trails' ∧
      SamePaths fs r trails' := by
  induction steps generalizing d names paths trails r with
  | zero => cases hrun
  | succ steps ih =>
    have hslots : (List.finRange 64).drop 1 = 1 :: childSlots := by decide
    have hlen : trails.length = paths.length := by
      obtain ⟨found, rfl, rfl⟩ := hsame
      rw [List.length_map, List.length_map]
    rw [h.dfsFindPaths_succ hd] at hrun
    rw [dfsFind, hlen]
    split at hrun
    · next hfull =>
      cases hrun
      exact ⟨trails, if_pos hfull, hsame⟩
    · next hroom =>
      rw [if_neg hroom, hslots, List.foldlM_cons]
      dsimp only
      rw [if_pos (h.dotdot hd)]
      refine foldlM_simulates (R := SamePaths fs) (fun i hi paths trails paths' hsame hslot => ?_)
        hsame hrun
      obtain ⟨found, rfl, rfl⟩ := hsame
      have hi := mem_childSlots.1 hi
      cases hlive : (fs.tableAt d i).live with
      | false =>
        rw [h.findSlot_unused hd hi hlive] at hslot
        cases hslot
        refine ⟨_, ?_, found, rfl, rfl⟩
        split <;> rfl
      | true =>
        have hdot := (h.proper hd (slot_mem_records hi hlive)).name.not_isDotDot
        obtain ⟨hfits, found', hcollect, hslot⟩ := (h.findSlot_entry hd hi hlive hpath rfl).1 hslot
        have hentry : Visit.entry fs ⟨names, d, i⟩ = fs.tableAt d i := rfl
        rw [hentry] at hslot
        have hdown : ∃ trails', (if (fs.tableAt d i).isSubdirectory then
            dfsFind (DirectoryEntry.isNamed goal.chars) fs steps (fs.tableAt d i).cluster
              (names ++ [(fs.tableAt d i).name]) (found'.map (Visit.trail fs))
            else .ok (found'.map (Visit.trail fs))) = .ok trails' ∧
                SamePaths fs paths' trails' := by
          by_cases hf : (fs.tableAt d i).isSubdirectory = true
          · rw [if_pos hf] at hslot ⊢
            have hchild : fs.LiveDir (fs.tableAt d i).cluster :=
              hd.tail (slot_mem_records hi hlive) hf
            exact ih hchild (hfits.folderPath_lt hf) ⟨found', rfl, rfl⟩ hslot
          · rw [if_neg hf] at hslot ⊢
            exact ⟨_, rfl, found', hslot, rfl⟩
        obtain ⟨trails', hdown, hsame⟩ := hdown
        refine ⟨trails', ?_, hsame⟩
        rw [← hdown, if_neg (Bool.eq_false_iff.1 hdot)]
        have hgoal : isGoal fs goal.chars ⟨names, d, i⟩ =
          (fs.tableAt d i).isNamed goal.chars := rfl
        rcases Forest.collect_cases hcollect with ⟨hnamed, hroom, rfl⟩ | ⟨hnamed, rfl⟩
        · rw [hgoal] at hnamed
          rw [if_pos hnamed, List.length_map, if_pos hroom, List.map_append]
          rfl
        · rw [hgoal] at hnamed
          rw [hnamed]
          rfl

end Slots

/-! ## What `find` finds -/

section Find
variable {pad : Padding} {fs : FileSystem} {goal : Argument} {f : Forest Visit} {steps : Nat}
  {r : List (List UInt8)}

/-- The first 64 entries with the name that is looked for, in the order of the tree. -/
def firstHits (fs : FileSystem) (goal : Argument) (f : Forest Visit) : List Visit :=
  (f.hits (isGoal fs goal.chars)).take 64

/-- `dfs_find` returns with the paths of these entries, at most 64 and all different, and stores
nothing behind its arrays. -/
def FindsPaths (pad : Padding) (fs : FileSystem) (goal : Argument) (f : Forest Visit) : Prop :=
  ∃ bound paths, (∀ steps ≥ bound, findPaths pad fs goal.chars steps = .ok paths) ∧
    paths.length ≤ 64 ∧ paths = (firstHits fs goal f).map (Visit.path fs) ∧ paths.Nodup

/-- `dfs_find` gets past the entries that it comes to, there are at most 64 to find among them, and
no two of these in one directory. -/
structure Findable (pad : Padding) (fs : FileSystem) (goal : Argument) (f : Forest Visit) :
    Prop where
  passable : (f.prune (isGoal fs goal.chars) 64 0).Passable (Visit.Fits pad fs)
    (isGoal fs goal.chars) 64 0
  single : ∀ v ∈ firstHits fs goal f, ∀ w ∈ firstHits fs goal f, v.directory = w.directory → v = w

/-- What `dfs_find` leaves in `paths`, given enough steps. -/
theorem findPaths_eq_ok (h : fs.Labelled) (ht : fs.Tree f) (hsteps : f.depth < steps) :
    findPaths pad fs goal.chars steps = .ok r ↔
      (f.prune (isGoal fs goal.chars) 64 0).Passable (Visit.Fits pad fs)
        (isGoal fs goal.chars) 64 0 ∧ r = (firstHits fs goal f).map (Visit.path fs) := by
  obtain ⟨steps, rfl⟩ := Nat.exists_eq_add_of_le' (Nat.succ_le_of_lt (Nat.zero_lt_of_lt hsteps))
  have hroot : findRoot = folderPath [] := by simp [folderPath, pathText]
  have hcall : dfsFindPaths pad fs goal.chars (steps + 1) rootClusterNumber (folderPath [])
        ([].map (Visit.path fs)) = .ok r ↔ _ :=
    h.dfsFindPaths_iff .root (ht.foldlM_iff h .root (fun j hj => mem_childSlots.1 hj) (by decide)
      (Nat.le_of_lt_succ hsteps))
  have hsearch : ∀ found, f.search (Visit.Fits pad fs) (isGoal fs goal.chars) 64 [] = some found ↔
      (f.prune (isGoal fs goal.chars) 64 0).Passable (Visit.Fits pad fs)
        (isGoal fs goal.chars) 64 0 ∧
      found = (f.prune (isGoal fs goal.chars) 64 0).hits (isGoal fs goal.chars) :=
    fun _ => Forest.search_eq_some_iff (Nat.zero_le 64)
  rw [findPaths, hroot]
  refine hcall.trans ?_
  rw [if_neg (by decide)]
  simp only [hsearch]
  constructor
  · rintro ⟨_, ⟨hpass, rfl⟩, rfl⟩
    exact ⟨hpass, congrArg _ (Forest.hits_prune hpass.room)⟩
  · rintro ⟨hpass, rfl⟩
    exact ⟨_, ⟨hpass, rfl⟩, congrArg _ (Forest.hits_prune hpass.room).symm⟩

section
variable {v w : Visit} (h : fs.Labelled) (ht : fs.Tree f) (hv : v ∈ firstHits fs goal f)
  (hw : w ∈ firstHits fs goal f)

theorem mem_firstHits (hv : v ∈ firstHits fs goal f) :
    v ∈ f.toList ∧ (v.entry fs).fullName = goal.chars := by
  obtain ⟨hmem, hgoal⟩ := Forest.mem_hits.1 (List.mem_of_mem_take hv)
  exact ⟨hmem, of_decide_eq_true hgoal⟩

include h ht hv hw

/-- Two entries with the name that is looked for have the same path exactly if they lie in one
directory. -/
theorem path_eq_iff : v.path fs = w.path fs ↔ v.directory = w.directory := by
  have hwalk : ∀ {v}, v ∈ firstHits fs goal f → fs.Walk rootClusterNumber v.names v.directory :=
    fun hv => ht.walk .nil (fun j hj => mem_childSlots.1 hj) (mem_firstHits hv).1
  rw [Visit.path, Visit.path, (mem_firstHits hv).2, (mem_firstHits hw).2]
  constructor
  · intro heq
    have htext := List.append_cancel_left (List.append_cancel_right heq)
    exact (hwalk hv).eq_of_text h .root (hwalk hw) htext
  · intro hdir
    have hw' := hwalk hw
    rw [← hdir] at hw'
    rw [h.walk_unique (hwalk hv) hw']

end

/-- `find` finds what it is to find exactly when it gets past all the entries it comes to, there are
at most 64 of these to find, and no two of the ones it finds lie in one directory. -/
theorem find_paths_iff (h : fs.Labelled) (pad : Padding) (goal : Argument) : (∃ f, fs.Tree f) ∧
    ∀ f, fs.Tree f → (FindsPaths pad fs goal f ↔ Findable pad fs goal f) := by
  refine ⟨h.exists_unfolds .root [], fun f ht => ⟨?_, fun hfind => ?_⟩⟩
  · rintro ⟨bound, paths, hrun, -, rfl, hnodup⟩
    have hpass := ((findPaths_eq_ok h ht (Nat.lt_of_lt_of_le (Nat.lt_succ_self f.depth)
      (le_max_right bound (f.depth + 1)))).1 (hrun _ (le_max_left _ _))).1
    refine ⟨hpass, fun v hv w hw hdir => ?_⟩
    exact List.inj_on_of_nodup_map hnodup hv hw ((path_eq_iff h ht hv hw).2 hdir)
  · have hnodup : (firstHits fs goal f).Nodup :=
      ((ht.nodup h .root (fun j hj => mem_childSlots.1 hj)
        nodup_childSlots).filter _).sublist
        (List.take_sublist 64 _)
    refine ⟨f.depth + 1, _, fun steps hsteps =>
      (findPaths_eq_ok h ht hsteps).2 ⟨hfind.passable, rfl⟩, ?_, rfl, ?_⟩
    · rw [List.length_map]
      exact List.length_take_le 64 _
    · exact hnodup.map_on fun v hv w hw heq =>
        hfind.single v hv w hw ((path_eq_iff h ht hv hw).1 heq)

/-- `find` then prints every path it has found as a whole. -/
theorem find_prints (h : fs.Labelled) (ht : fs.Tree f) (hfind : Findable pad fs goal f) :
    ∃ bound, ∀ steps ≥ bound, find pad fs goal steps = .ok
      (if firstHits fs goal f = [] then (1, [literal "\n\nNo such file or directory\n"])
      else (0, (firstHits fs goal f).flatMap fun v => [v.path fs, literal "\n"])) := by
  have hhits : (f.prune (isGoal fs goal.chars) 64 0).hits (isGoal fs goal.chars) =
      firstHits fs goal f := Forest.hits_prune hfind.passable.room
  have hwhole : ∀ v ∈ firstHits fs goal f, printToScreen (v.path fs) = v.path fs := by
    intro v hv
    rw [← hhits] at hv
    have hfits := (hfind.passable.ok v (Forest.mem_hits.1 hv).1).path
    exact printToScreen_eq_iff.2 (Nat.lt_of_le_of_lt (Nat.le_add_right _ _) hfits)
  refine ⟨f.depth + 1, fun steps hsteps => ?_⟩
  rw [find, (findPaths_eq_ok h ht hsteps).2 ⟨hfind.passable, rfl⟩, ok_bind, List.length_map]
  simp only [List.length_eq_zero_iff]
  split
  · rfl
  · refine congrArg (fun printed => Except.ok ((0 : Int), printed)) ?_
    rw [List.flatMap_map]
    refine List.flatMap_congr fun v hv => ?_
    rw [List.map_cons, hwhole v hv]
    rfl

end Find

/-! ### One folder -/

/-- The tree of a new file system with one folder. -/
def oneFolder : Forest Visit := .node ⟨[], rootClusterNumber, 2⟩ .nil .nil

/-- A folder can be made in the root directory of a new file system. -/
theorem exists_oneFolder {request : DriverRequest}
    (hp : request.parentClusterNumber = rootClusterNumber) (hsize : request.bufferSize = 0)
    (hname : ProperName request.name) (hext : request.ext = Vector.replicate 3 0) :
    ∃ fs : FileSystem, fs.Labelled ∧ fs.Tree oneFolder ∧
      (fs.tableAt rootClusterNumber 2).name = request.name ∧
      (fs.tableAt rootClusterNumber 2).isSubdirectory = true := by
  obtain ⟨c, l, fs, hwrite, hw⟩ := write_blank (fun _ => 0) request hp (by rw [hsize]; decide)
  have hproper : (TreeCall.request (.write (fun _ => 0) request)).Proper blankFileSystem :=
    ⟨Request.permitted_of_accepts _ hw.toAccepts hname.ne_zero, hname, fun _ => hext⟩
  have hlabelled : fs.Labelled :=
    labelled_run (Run.tail .refl hproper ⟨0, hwrite⟩) labelled_createFat32
  have htable := hw.table
  rw [hp] at htable
  have htwo : fs.tableAt rootClusterNumber 2 = createdEntry request c := by
    rw [htable, Function.update_self]
  have hfolder : (createdEntry request c).isSubdirectory = true :=
    createdEntry_isSubdirectory.2 hsize
  obtain ⟨nextFree, hnew⟩ := hw.folder hsize
  refine ⟨fs, hlabelled, ?_, by rw [htwo]; rfl, htwo ▸ hfolder⟩
  have hslots : childSlots = 2 :: (List.finRange 64).drop 3 := by decide
  rw [FileSystem.Tree, hslots]
  refine .folder (htwo ▸ ?_) (htwo ▸ hfolder) (unfolds_unused fun j hj => ?_)
    (unfolds_unused fun j hj => ?_)
  · rfl
  · rw [htwo, createdEntry_cluster, hnew, newFolderTable_slot (mem_childSlots.1 hj)]
    rfl
  · have hlo : ∀ j ∈ (List.finRange 64).drop 3, 2 ≤ j.val ∧ j ≠ 2 := by decide
    rw [htable, Function.update_of_ne (hlo j hj).2, blankFileSystem,
      tableAt_createFat32 j (hlo j hj).1]
    rfl

/-- The word `AAAA`. -/
def fourWord : Argument where
  chars := [0x41, 0x41, 0x41, 0x41]
  behind := []
  plain := by simp [isBlank]
  short := by decide

/-- A folder with a short name is found. -/
theorem find_paths_short : ∃ (fs : FileSystem) (f : Forest Visit), fs.Labelled ∧ fs.Tree f ∧
    firstHits fs fourWord f ≠ [] ∧ FindsPaths ⟨true, false⟩ fs fourWord f := by
  obtain ⟨fs, h, ht, hname, hf⟩ := exists_oneFolder
    (show (nestRequest rootClusterNumber).parentClusterNumber = rootClusterNumber from rfl) rfl
    (properName_nest _) rfl
  have hfull : (Visit.entry fs ⟨[], rootClusterNumber, 2⟩).fullName = fourWord.chars := by
    rw [Visit.entry, DirectoryEntry.fullName_folder hf, hname]
    rfl
  have hhits : oneFolder.hits (isGoal fs fourWord.chars) = [⟨[], rootClusterNumber, 2⟩] := by
    rw [oneFolder, Forest.hits_node, List.filter_singleton, isGoal, hfull, decide_eq_true rfl]
    rfl
  have hprune : oneFolder.prune (isGoal fs fourWord.chars) 64 0 = oneFolder := by
    simp [oneFolder, Forest.prune]
  have hfirst : firstHits fs fourWord oneFolder = [⟨[], rootClusterNumber, 2⟩] := by
    rw [firstHits, hhits]
    rfl
  refine ⟨fs, oneFolder, h, ht, hfirst ▸ List.cons_ne_nil _ _,
    ((find_paths_iff h _ fourWord).2 _ ht).2 ⟨⟨fun v hv => ?_, ?_⟩, fun v hv w hw _ => ?_⟩⟩
  · rw [hprune] at hv
    obtain rfl : v = ⟨[], rootClusterNumber, 2⟩ := List.mem_singleton.1 hv
    refine ⟨.inr ⟨?_, ?_⟩, ?_⟩
    · rw [Visit.entry, hf]
      rfl
    · rw [Visit.entry, hname]
      decide
    · rw [Visit.path, hfull, Visit.entry, hf]
      decide
  · rw [hprune, hhits]
    decide
  · rw [hfirst] at hv hw
    rw [List.mem_singleton.1 hv, List.mem_singleton.1 hw]

theorem properName_full (parent : UInt32) : ProperName (sampleRequest 'A' parent 0).name where
  padded := rfl
  nonempty := List.cons_ne_nil _ _
  separator c hc := by
    have hchars : c ∈ List.replicate 8 (0x41 : UInt8) := hc
    rw [List.eq_of_mem_replicate hchars]
    rfl
  ne_dot h := nomatch h
  ne_dotdot h := nomatch h

/-- The name of a folder that fills its 8 bytes is no string in `entryname`. -/
theorem find_paths_full : ∃ (fs : FileSystem) (f : Forest Visit), fs.Labelled ∧ fs.Tree f ∧
    ∀ pad goal, ¬ FindsPaths pad fs goal f := by
  obtain ⟨fs, h, ht, hname, hf⟩ := exists_oneFolder
    (show (sampleRequest 'A' rootClusterNumber 0).parentClusterNumber = rootClusterNumber from rfl)
    rfl (properName_full _) rfl
  refine ⟨fs, oneFolder, h, ht, fun pad goal => ?_⟩
  rintro ⟨bound, paths, hrun, -⟩
  have hpass := ((findPaths_eq_ok h ht (Nat.lt_of_lt_of_le (Nat.lt_succ_self _)
    (le_max_right bound (oneFolder.depth + 1)))).1 (hrun _ (le_max_left _ _))).1
  have hprune : oneFolder.prune (isGoal fs goal.chars) 64 0 = oneFolder := by
    simp [oneFolder, Forest.prune]
  rw [hprune] at hpass
  rcases (hpass.ok ⟨[], rootClusterNumber, 2⟩ List.mem_cons_self).name with ⟨hfile, -⟩ | ⟨-, hshort⟩
  · rw [Visit.entry, hf] at hfile
    cases hfile
  · rw [Visit.entry, hname] at hshort
    exact absurd hshort (by decide)

end OsKernel
