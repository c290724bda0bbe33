import OsKernel.Lib.Forest
import OsKernel.Shell.Paths

/-!
# The tree of directories

A directory unfolds to the forest of its entries, each with what lies below it
(`FileSystem.Unfolds`); an entry is given by the folders on the way down to it, the directory that
holds it and its slot there (`Visit`). In a labelled file system every directory unfolds
(`exists_unfolds`), every entry is in the tree once (`Unfolds.nodup`), and the text of a path leads
to one directory (`Walk.eq_of_text`).
-/

namespace OsKernel

open Lib Relation

/-- An entry in the tree: the folders on the way down to it, the directory that holds it and its
slot. -/
structure Visit where
  names : List (Vector UInt8 8)
  directory : UInt32
  slot : Fin 64
  deriving DecidableEq

def Visit.entry (fs : FileSystem) (v : Visit) : DirectoryEntry := fs.tableAt v.directory v.slot

/-- The slots of the entries of a directory. -/
def childSlots : List (Fin 64) := (List.finRange 64).drop 2

/-- The entries in the slots `slots` of the directory at `d`, with all that is below them. -/
inductive FileSystem.Unfolds (fs : FileSystem) :
    List (Vector UInt8 8) → UInt32 → List (Fin 64) → Forest Visit → Prop
  | nil {names d} : Unfolds fs names d [] .nil
  | unused {names d i slots f} : (fs.tableAt d i).live = false → Unfolds fs names d slots f →
      Unfolds fs names d (i :: slots) f
  | file {names d i slots next} : (fs.tableAt d i).live = true →
      (fs.tableAt d i).isSubdirectory = false → Unfolds fs names d slots next →
      Unfolds fs names d (i :: slots) (.node ⟨names, d, i⟩ .nil next)
  | folder {names d i slots sub next} : (fs.tableAt d i).live = true →
      (fs.tableAt d i).isSubdirectory = true →
      Unfolds fs (names ++ [(fs.tableAt d i).name]) (fs.tableAt d i).cluster childSlots sub →
      Unfolds fs names d slots next → Unfolds fs names d (i :: slots) (.node ⟨names, d, i⟩ sub next)

/-- The tree of the directories. -/
def FileSystem.Tree (fs : FileSystem) (f : Forest Visit) : Prop :=
  fs.Unfolds [] rootClusterNumber childSlots f

theorem mem_childSlots {i : Fin 64} : i ∈ childSlots ↔ 2 ≤ i.val := by
  revert i
  decide

theorem nodup_childSlots : childSlots.Nodup :=
  (List.nodup_finRange 64).sublist (List.drop_sublist 2 _)

section Unfolds
variable {fs : FileSystem} {names : List (Vector UInt8 8)} {name : Vector UInt8 8} {d : UInt32}
  {slots : List (Fin 64)} {f : Forest Visit} {v : Visit}

/-- Unused slots hold nothing. -/
theorem unfolds_unused (h : ∀ i ∈ slots, (fs.tableAt d i).live = false) :
    fs.Unfolds names d slots .nil := by
  induction slots with
  | nil => exact .nil
  | cons i slots ih =>
    exact .unused (h i List.mem_cons_self) (ih fun j hj => h j (List.mem_cons_of_mem _ hj))

/-- Every directory unfolds to the entries below it. -/
theorem FileSystem.Labelled.exists_unfolds (h : fs.Labelled) (hd : fs.LiveDir d)
    (names : List (Vector UInt8 8)) : ∃ f, fs.Unfolds names d childSlots f := by
  obtain ⟨bound, hbound⟩ : ∃ bound, below (fs.volume.Edge fatFormat) d < bound :=
    ⟨_, Nat.lt_succ_self _⟩
  induction bound generalizing d names with
  | zero => exact absurd hbound (Nat.not_lt_zero _)
  | succ bound ih =>
    have hsome : ∀ slots : List (Fin 64), (∀ i ∈ slots, 2 ≤ i.val) →
        ∃ f, fs.Unfolds names d slots f := by
      intro slots hslots
      induction slots with
      | nil => exact ⟨_, .nil⟩
      | cons i slots ihs =>
        obtain ⟨next, hnext⟩ := ihs fun j hj => hslots j (List.mem_cons_of_mem _ hj)
        cases hlive : (fs.tableAt d i).live with
        | false => exact ⟨_, .unused hlive hnext⟩
        | true =>
          cases hf : (fs.tableAt d i).isSubdirectory with
          | false => exact ⟨_, .file hlive hf hnext⟩
          | true =>
            have hmem := slot_mem_records (hslots i List.mem_cons_self) hlive
            have hbelow := h.volume.folderTree.isTree.below_lt hd ⟨_, hmem, hf, rfl⟩
            obtain ⟨sub, hsub⟩ := ih (hd.tail hmem hf) _
              (lt_of_lt_of_le hbelow (Nat.le_of_lt_succ hbound))
            exact ⟨_, .folder hlive hf hsub hnext⟩
    exact hsome childSlots fun i hi => mem_childSlots.1 hi

/-- An entry of the tree lies in the directory to which the folders on its path lead. -/
theorem FileSystem.Unfolds.walk (hu : fs.Unfolds names d slots f)
    (hw : fs.Walk rootClusterNumber names d) (hslots : ∀ i ∈ slots, 2 ≤ i.val)
    (hv : v ∈ f.toList) : fs.Walk rootClusterNumber v.names v.directory := by
  induction hu with
  | nil => exact nomatch hv
  | unused _ _ ih => exact ih hw (fun j hj => hslots j (List.mem_cons_of_mem _ hj)) hv
  | file _ _ _ ih =>
    rcases List.mem_cons.1 hv with rfl | hv
    · exact hw
    · exact ih hw (fun j hj => hslots j (List.mem_cons_of_mem _ hj)) hv
  | @folder names d i slots sub next hlive hf _ _ ihs ihn =>
    rcases List.mem_cons.1 hv with rfl | hv
    · exact hw
    · rcases List.mem_append.1 hv with hv | hv
      · have hmem := slot_mem_records (hslots i List.mem_cons_self) hlive
        exact ihs (hw.snoc hmem hf) (fun j hj => mem_childSlots.1 hj) hv
      · exact ihn hw (fun j hj => hslots j (List.mem_cons_of_mem _ hj)) hv

/-- What is below a directory has the folders to that directory on its path. -/
theorem FileSystem.Unfolds.prefix_names (hu : fs.Unfolds names d slots f) (hv : v ∈ f.toList) :
    names <+: v.names := by
  induction hu with
  | nil => exact nomatch hv
  | unused _ _ ih => exact ih hv
  | file _ _ _ ih =>
    rcases List.mem_cons.1 hv with rfl | hv
    · exact List.prefix_refl _
    · exact ih hv
  | folder _ _ _ _ ihs ihn =>
    rcases List.mem_cons.1 hv with rfl | hv
    · exact List.prefix_refl _
    · rcases List.mem_append.1 hv with hv | hv
      · exact (List.prefix_append _ _).trans (ihs hv)
      · exact ihn hv

/-- An entry lies in one of the slots, or below a folder in one of them. -/
theorem FileSystem.Unfolds.cases_mem (hu : fs.Unfolds names d slots f) (hv : v ∈ f.toList) :
    (v.names = names ∧ v.slot ∈ slots) ∨ ∃ i ∈ slots, (fs.tableAt d i).live = true ∧
      (fs.tableAt d i).isSubdirectory = true ∧ names ++ [(fs.tableAt d i).name] <+: v.names := by
  induction hu with
  | nil => exact nomatch hv
  | unused _ _ ih =>
    rcases ih hv with ⟨hnames, hslot⟩ | ⟨i, hi, hrest⟩
    · exact .inl ⟨hnames, List.mem_cons_of_mem _ hslot⟩
    · exact .inr ⟨i, List.mem_cons_of_mem _ hi, hrest⟩
  | file _ _ _ ih =>
    rcases List.mem_cons.1 hv with rfl | hv
    · exact .inl ⟨rfl, List.mem_cons_self⟩
    · rcases ih hv with ⟨hnames, hslot⟩ | ⟨i, hi, hrest⟩
      · exact .inl ⟨hnames, List.mem_cons_of_mem _ hslot⟩
      · exact .inr ⟨i, List.mem_cons_of_mem _ hi, hrest⟩
  | @folder names d i slots sub next hlive hf hsub _ _ ihn =>
    rcases List.mem_cons.1 hv with rfl | hv
    · exact .inl ⟨rfl, List.mem_cons_self⟩
    · rcases List.mem_append.1 hv with hv | hv
      · exact .inr ⟨i, List.mem_cons_self, hlive, hf, hsub.prefix_names hv⟩
      · rcases ihn hv with ⟨hnames, hslot⟩ | ⟨j, hj, hrest⟩
        · exact .inl ⟨hnames, List.mem_cons_of_mem _ hslot⟩
        · exact .inr ⟨j, List.mem_cons_of_mem _ hj, hrest⟩

theorem not_snoc_prefix : ¬ names ++ [name] <+: names := by
  intro hprefix
  have hle := hprefix.length_le
  rw [List.length_append, List.length_singleton] at hle
  omega

/-- Every entry is in the tree once. -/
theorem FileSystem.Unfolds.nodup (hu : fs.Unfolds names d slots f) (h : fs.Labelled)
    (hd : fs.LiveDir d) (hslots : ∀ i ∈ slots, 2 ≤ i.val) (hnodup : slots.Nodup) :
    f.toList.Nodup := by
  induction hu with
  | nil => exact List.nodup_nil
  | unused _ _ ih =>
    exact ih hd (fun j hj => hslots j (List.mem_cons_of_mem _ hj)) (List.nodup_cons.1 hnodup).2
  | @file names d i slots next _ _ hnext ih =>
    obtain ⟨hnot, hnodup⟩ := List.nodup_cons.1 hnodup
    refine List.nodup_cons.2 ⟨fun hmem => ?_,
      ih hd (fun j hj => hslots j (List.mem_cons_of_mem _ hj)) hnodup⟩
    rcases hnext.cases_mem hmem with ⟨-, hslot⟩ | ⟨j, -, -, -, hprefix⟩
    · exact hnot hslot
    · exact not_snoc_prefix hprefix
  | @folder names d i slots sub next hlive hf hsub hnext ihs ihn =>
    obtain ⟨hnot, hnodup⟩ := List.nodup_cons.1 hnodup
    have hi := hslots i List.mem_cons_self
    have hrest : ∀ j ∈ slots, 2 ≤ j.val := fun j hj => hslots j (List.mem_cons_of_mem _ hj)
    have hmem := slot_mem_records hi hlive
    have hinside : ∀ w ∈ sub.toList, names ++ [(fs.tableAt d i).name] <+: w.names :=
      fun w hw => hsub.prefix_names hw
    refine List.nodup_cons.2 ⟨fun hv => ?_, List.nodup_append.2 ⟨?_, ihn hd hrest hnodup, ?_⟩⟩
    · rcases List.mem_append.1 hv with hv | hv
      · exact not_snoc_prefix (hinside _ hv)
      · rcases hnext.cases_mem hv with ⟨-, hslot⟩ | ⟨j, -, -, -, hprefix⟩
        · exact hnot hslot
        · exact not_snoc_prefix hprefix
    · exact ihs (hd.tail hmem hf) (fun j hj => mem_childSlots.1 hj) nodup_childSlots
    · rintro w hw _ hw' rfl
      rcases hnext.cases_mem hw' with ⟨hnames, -⟩ | ⟨j, hj, hlive', hf', hprefix⟩
      · exact not_snoc_prefix (hnames ▸ hinside w hw)
      · -- two folders of one directory with one name
        have hname := List.prefix_of_prefix_length_le (hinside w hw) hprefix (by simp)
        have hsame : (fs.tableAt d i).name = (fs.tableAt d j).name := by simpa using hname
        have hmem' := slot_mem_records (hrest j hj) hlive'
        have hkey : (fs.tableAt d i).key = (fs.tableAt d j).key := Prod.ext hsame
          (((h.proper hd hmem).folder hf).trans ((h.proper hd hmem').folder hf').symm)
        have hij := (h.table hd).keyInj i j hi (hrest j hj) hlive hlive' hkey
        exact hnot (hij ▸ hj)

/-- The text of a path leads to one directory. -/
theorem FileSystem.Walk.eq_of_text {b c c' : UInt32} {names names' : List (Vector UInt8 8)}
    (hw : fs.Walk b names c) (h : fs.Labelled) (hb : fs.LiveDir b) (hw' : fs.Walk b names' c')
    (htext : pathText names = pathText names') : c = c' := by
  induction hw generalizing names' with
  | nil =>
    cases hw' with
    | nil => rfl
    | cons =>
      rw [pathText_cons] at htext
      simp [pathText] at htext
  | @cons b c e names he hf _ ih =>
    cases hw' with
    | nil =>
      rw [pathText_cons] at htext
      simp [pathText] at htext
    | @cons _ _ e' names' he' hf' hw' =>
      have hproper := h.proper hb he
      have hproper' := h.proper hb he'
      have hfirst : getParent (pathText (e.name :: names)) = .ok (nameChars e.name) :=
        getParent_pathText hproper.name
      rw [htext, getParent_pathText hproper'.name] at hfirst
      have hchars := Except.ok.inj hfirst
      have hkey : e.key = e'.key := Prod.ext (hproper.name.ext hproper'.name hchars.symm)
        ((hproper.folder hf).trans (hproper'.folder hf').symm)
      obtain rfl := h.eq_of_key hb he he' hkey
      rw [pathText_cons, pathText_cons] at htext
      exact ih (hb.tail he hf) hw' (List.cons.inj (List.append_cancel_left htext)).2

end Unfolds

end OsKernel
