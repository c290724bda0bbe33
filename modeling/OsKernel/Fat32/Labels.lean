import OsKernel.Lib.Run
import OsKernel.Fat32.MoveRuns
import Mathlib.Data.List.TakeWhile

/-!
# The names that directories carry

A directory carries its own name in slot 0, where `init_directory_table` puts it and `move` renames
it along with the entry. In a labelled file system (`FileSystem.Labelled`) slot 0 of every folder
agrees with the entry for it, slot 1 names the directory that holds it, and all names are proper
(`ProperName`). Runs of `write`, `delete` and `move` keep it labelled (`labelled_run`), as long as
new names are proper and a `move` takes an entry across to a directory that does not lie below it
(`ProperMove`).
-/

namespace OsKernel

open Lib Relation

/-! ## Proper names -/

/-- The characters of a name: the bytes before the first zero byte. -/
def nameChars (name : Vector UInt8 8) : List UInt8 := name.toList.takeWhile (· ≠ 0)

/-- `\` and `/` end a component of a path. -/
def isSeparator (c : UInt8) : Bool := c == 0x5C || c == 0x2F

/-- A name of 1 to 8 characters, filled up with zero bytes: no character is a separator, and the
name is neither `.` nor `..`. -/
structure ProperName (name : Vector UInt8 8) : Prop where
  padded : name.toList =
    nameChars name ++ List.replicate (8 - (nameChars name).length) 0
  nonempty : nameChars name ≠ []
  separator : ∀ c ∈ nameChars name, isSeparator c = false
  ne_dot : nameChars name ≠ [0x2E]
  ne_dotdot : nameChars name ≠ [0x2E, 0x2E]

section ProperName
variable {name name' : Vector UInt8 8}

theorem nameChars_length_le (name : Vector UInt8 8) : (nameChars name).length ≤ 8 := by
  have hle := (name.toList.takeWhile_sublist (· ≠ 0)).length_le
  rwa [Vector.length_toList] at hle

/-- Proper names with the same characters are the same. -/
theorem ProperName.ext (h : ProperName name) (h' : ProperName name')
    (hchars : nameChars name = nameChars name') : name = name' := by
  have hlist : name.toList = name'.toList := by rw [h.padded, h'.padded, hchars]
  exact Vector.toList_inj.1 hlist

/-- A proper name is not the name of zero bytes. -/
theorem ProperName.ne_zero (h : ProperName name) : name ≠ Vector.replicate 8 0 := by
  rintro rfl
  exact h.nonempty rfl

/-- The characters of a name that `..` compares equal to. -/
theorem nameChars_of_isDotDot (h : isDotDot name = true) : nameChars name = [0x2E, 0x2E] := by
  obtain ⟨⟨l⟩, hl⟩ := name
  match l, hl with
  | [a, b, c, _, _, _, _, _], _ =>
    simp only [isDotDot, Vector.getElem_mk, List.getElem_toArray, List.getElem_cons_zero,
      List.getElem_cons_succ, Bool.and_eq_true, beq_iff_eq] at h
    obtain ⟨⟨rfl, rfl⟩, rfl⟩ := h
    rfl

/-- A proper name is not compared equal to `..`. -/
theorem ProperName.not_isDotDot (h : ProperName name) : isDotDot name = false := by
  cases hdot : isDotDot name with
  | false => rfl
  | true => exact absurd (nameChars_of_isDotDot hdot) h.ne_dotdot

end ProperName

/-- An entry with a proper name. The extension of a folder is zero, the attribute of a file too. -/
structure ProperEntry (e : DirectoryEntry) : Prop where
  name : ProperName e.name
  folder : e.isSubdirectory = true → e.ext = Vector.replicate 3 0
  file : e.isSubdirectory = false → e.attr = 0

/-- The entries are in order, they have proper names, and the first two slots of a folder name the
folder itself and the directory that holds it. -/
structure FileSystem.Labelled (fs : FileSystem) : Prop extends fs.Tidy, fs.LinksUp where
  proper : ∀ {d e}, fs.LiveDir d → e ∈ fs.entries d → ProperEntry e
  self : ∀ {d e}, fs.LiveDir d → e ∈ fs.entries d → e.isSubdirectory = true →
    (fs.tableAt e.cluster 0).key = e.key
  root : nameChars (fs.tableAt rootClusterNumber 0).name = [0x2E]

/-- A new file system is labelled. -/
theorem labelled_createFat32 {pad0 : Vector UInt8 6} {pad1 : Vector UInt8 5} {disk : Disk} :
    (createFat32 pad0 pad1 (.zeroed disk)).Labelled := by
  have hnone : ∀ {d e}, (createFat32 pad0 pad1 (.zeroed disk)).LiveDir d →
      e ∉ (createFat32 pad0 pad1 (.zeroed disk)).entries d := by
    rintro d e hd ⟨i, hi, rfl, hlive⟩
    rw [live_createFat32 hd, tableAt_createFat32 i hi] at hlive
    cases hlive
  refine ⟨inOrder_createFat32.tidy, linksUp_createFat32, fun hd he => absurd he (hnone hd),
    fun hd he _ => absurd he (hnone hd), ?_⟩
  rw [createFat32, FileSystem.tableAt_writeClusters, Function.update_of_ne (by decide),
    Function.update_self]
  show nameChars ((#v[0x2E, 0] : Vector UInt8 2) ++ pad0) = _
  rw [nameChars, Vector.toList_append]
  rfl

/-! ## Requests -/

/-- The new name of a `write` is proper, and the extension of a new folder zero. -/
def Request.Labels : Request → Prop
  | .write _ request =>
    ProperName request.name ∧ (request.bufferSize = 0 → request.ext = Vector.replicate 3 0)
  | .delete _ => True

/-- A new entry for a proper name is proper. -/
theorem properEntry_created {request : DriverRequest} {c : UInt32} (hname : ProperName request.name)
    (hext : request.bufferSize = 0 → request.ext = Vector.replicate 3 0) :
    ProperEntry (createdEntry request c) where
  name := hname
  folder hf := hext (createdEntry_isSubdirectory.1 hf)
  file hf := by
    have h0 : request.bufferSize ≠ 0 := by
      intro h0
      rw [createdEntry_isSubdirectory.2 h0] at hf
      cases hf
    exact if_neg h0

/-- A request for a proper name keeps the file system labelled. -/
theorem Request.Outcome.labelled {q : Request} {fs fs' : FileSystem} {code : Int8}
    (h : fs.Labelled) (hq : q.Labels) (ho : Outcome q fs code fs') : fs'.Labelled := by
  have htidy := ho.tidy h.toTidy
  have hup := ho.linksUp h.toSound h.toLinksUp
  have hroot : fs.LiveDir rootClusterNumber := .root
  have hroot' : fs'.LiveDir rootClusterNumber := .root
  cases ho with
  | refused _ => exact ⟨htidy, hup, h.proper, h.self, h.root⟩
  | @created _ request _ i c l _ hw =>
    have hg := hw.grows h.toSound
    have hslot : ∀ {d}, fs.LiveDir d → fs'.tableAt d 0 = fs.tableAt d 0 :=
      fun hd => hw.slot_head h.toSound hd (by decide)
    refine ⟨htidy, hup, fun {d e} hd he => ?_, fun {d e} hd he hf => ?_, ?_⟩
    · rcases hg.mem_cases hd he with ⟨hd, he⟩ | ⟨rfl, rfl⟩
      · exact h.proper hd he
      · exact properEntry_created hq.1 hq.2
    · rcases hg.mem_cases hd he with ⟨hd, he⟩ | ⟨rfl, rfl⟩
      · have hchild : fs.LiveDir e.cluster := hd.tail he hf
        rw [hslot hchild]
        exact h.self hd he hf
      · obtain ⟨nextFree, htable⟩ := hw.folder (createdEntry_isSubdirectory.1 hf)
        have hext := hq.2 (createdEntry_isSubdirectory.1 hf)
        rw [createdEntry_cluster, htable, newFolderTable_zero, createdEntry_key]
        exact Prod.ext rfl hext.symm
    · rw [hslot hroot]
      exact h.root
  | @deleted request _ e l _ hw _ =>
    have hp := (hw.shrinks h.toSound).prunes h.volume
    have hslot : ∀ {d}, fs'.LiveDir d → fs'.tableAt d 0 = fs.tableAt d 0 :=
      fun hd => hw.slot_head h.toSound hd (by decide)
    refine ⟨htidy, hup, fun {d e} hd he => ?_, fun {d e} hd he hf => ?_, ?_⟩
    · obtain ⟨hd, -, he, -⟩ := hp.mem_of_live h.volume hd he
      exact h.proper hd he
    · have hchild : fs'.LiveDir e.cluster := hd.tail he hf
      rw [hslot hchild]
      obtain ⟨hd, -, he, -⟩ := hp.mem_of_live h.volume hd he
      exact h.self hd he hf
    · rw [hslot hroot']
      exact h.root

/-! ## Moves -/

section Moved
variable {fs fs' : FileSystem} {S T : UInt32} {i k : Fin 64}
  {key : Vector UInt8 8 × Vector UInt8 3} {t : DirectoryTable}

/-- Taking the child entry of slot `i` of the directory at `S` to the directory at `T`, under the
name `key`: `T` is another directory, which does not lie below the entry, and the name is proper. -/
structure Carries (fs : FileSystem) (S T : UInt32) (i : Fin 64)
    (key : Vector UInt8 8 × Vector UInt8 3) : Prop where
  child : 2 ≤ i.val
  live : (fs.tableAt S i).live = true
  ne : T ≠ S
  outside : (fs.tableAt S i).isSubdirectory = true →
    ¬ ReflTransGen (fs.volume.Edge fatFormat) (fs.tableAt S i).cluster T
  name : ProperName key.1
  ext : (fs.tableAt S i).isSubdirectory = true → key.2 = Vector.replicate 3 0

theorem Carries.safeTo (hc : Carries fs S T i key) (hnf : ¬ fs.Full S) : SafeTo fs S i T where
  notFull := hnf
  within heq := absurd heq hc.ne
  live _ := hc.live
  loses _ := ⟨_, .inl ⟨hc.child, rfl⟩, rfl, rfl⟩
  outside _ := hc.outside

variable (hm : Moved fs S T i k ((fs.tableAt S i).rename key) t fs') (h : fs.Labelled)
  (hS : fs.LiveDir S) (hT : fs.LiveDir T) (hk : FreeSlot (fs.tableAt T) key k)
  (hc : Carries fs S T i key)
include hm h hS hT hk hc

theorem Moved.relinks_child :
    fs.volume.Relinks fatFormat fs'.volume S T (fs.tableAt S i) ((fs.tableAt S i).rename key) :=
  hm.relinks h.live_lt (h.table hS) hS hT hc.ne.symm hk hc.live (.inl ⟨hc.child, rfl⟩) rfl rfl

/-- The live directories are the same. -/
theorem Moved.live_iff_child {d : UInt32} : fs'.LiveDir d ↔ fs.LiveDir d :=
  (hm.relinks_child h hS hT hk hc).live_iff h.volume.folderTree hc.outside

/-- The entries stay in order. -/
theorem Moved.sound : fs'.Sound where
  volume := by
    have hnext : fs'.volume.next = fs.volume.next := congrArg ClusterMap.next hm.map
    exact (hm.relinks_child h hS hT hk hc).sound h.volume hnext rfl hc.outside
  table hd := hm.tableOk h.treeOk hS hT hk (slot_mem_records hc.child hc.live) (fun _ => hc.live)
    ((hm.live_iff_child h hS hT hk hc).1 hd)

omit hk in
/-- The allocation table stays on the disk: no directory is stored there. -/
theorem Moved.fatOnDisk : fs'.clusterAt fatClusterNumber = fs'.clusterMap.bytes := by
  have hfat : ∀ {d}, fs.LiveDir d → blockAddress fatClusterNumber ≠ blockAddress d := fun hd =>
    FileSystem.blockAddress_ne (h.live_lt hd) (by decide) (h.live_ne_fat hd).symm
  have htable : fs'.tableAt fatClusterNumber = fs.tableAt fatClusterNumber := by
    rw [hm.table, if_neg (hfat hT), if_neg (hfat hS), if_neg]
    rintro ⟨hf, hblock⟩
    have hchild : fs.LiveDir (fs.tableAt S i).cluster :=
      hS.tail (slot_mem_records hc.child hc.live) hf
    exact hfat hchild hblock
  rw [toDirectoryTable_inj.1 htable, h.fatOnDisk, hm.map]

/-- The unused slots hold zero bytes. -/
theorem Moved.clean {d : UInt32} (hd : fs.LiveDir d) {j : Fin 64} (hj : 2 ≤ j.val)
    (hdead : (fs'.tableAt d j).live = false) : fs'.tableAt d j = .zero := by
  by_cases hdT : d = T
  · subst hdT
    rw [hm.table_target] at hdead ⊢
    by_cases hjk : j = k
    · rw [hjk, Function.update_self] at hdead
      exact absurd (hdead.symm.trans (rename_live.trans hc.live)) (by simp)
    · rw [Function.update_of_ne hjk] at hdead ⊢
      exact h.clean hd j hj hdead
  · by_cases hdS : d = S
    · subst hdS
      have hmem := slot_mem_records hc.child hc.live
      obtain ⟨last, hlast, rfl⟩ := (h.table hd).of_removeEntry hmem hm.removed
      rw [hm.table_source h.live_lt hS hT hc.ne] at hdead ⊢
      exact clean_swapRemove hlast (h.clean hd) hj hdead
    · rw [hm.slot_other h.live_lt hS hT hd hdS hdT hj] at hdead ⊢
      exact h.clean hd j hj hdead

/-- Slot 0 of a directory stays the same, unless the directory moves. -/
theorem Moved.slot_zero {d : UInt32} (hd : fs.LiveDir d) :
    fs'.tableAt d 0 = fs.tableAt d 0 ∨
      ((fs.tableAt S i).isSubdirectory = true ∧ d = (fs.tableAt S i).cluster) := by
  have hmem := slot_mem_records hc.child hc.live
  have hi : i ≠ 0 := by
    rintro rfl
    exact absurd hc.child (by decide)
  refine (hm.slot_head h.treeOk hS hT hk hmem (by decide) hi hd).imp_right ?_
  rintro ⟨hf, hblock, -⟩
  have hchild : fs.LiveDir (fs.tableAt S i).cluster := hS.tail hmem hf
  exact ⟨hf, (FileSystem.blockAddress_inj (h.live_lt hd) (h.live_lt hchild)).1 hblock⟩

/-- A `move` across directories keeps the file system labelled. -/
theorem Moved.labelled : fs'.Labelled := by
  have hmem : fs.tableAt S i ∈ fs.entries S := slot_mem_records hc.child hc.live
  have hr := hm.relinks_child h hS hT hk hc
  have hlive : ∀ {d}, fs'.LiveDir d ↔ fs.LiveDir d := hm.live_iff_child h hS hT hk hc
  have htree := h.volume.folderTree
  have hi1 : i ≠ 1 := by
    rintro rfl
    exact absurd hc.child (by decide)
  have hnf : ¬ fs.Full S := by
    intro hfull
    have hremoved := hm.removed
    rw [removeEntry_full hfull] at hremoved
    cases hremoved
  have hroot : fs.LiveDir rootClusterNumber := .root
  refine ⟨⟨hm.sound h hS hT hk hc, fun hd j hj hdead => ?_, hm.fatOnDisk h hS hT hc⟩,
    hm.linksUp h.treeOk hS hT hk hmem (hc.safeTo hnf) hi1 hc.live h.toLinksUp,
    fun {d e} hd he => ?_, fun {d e} hd he hf => ?_, ?_⟩
  · exact hm.clean h hS hT hk hc (hlive.1 hd) hj hdead
  · have hd := hlive.1 hd
    rcases (hr.mem_records_iff hd).1 he with ⟨he, -⟩ | ⟨rfl, rfl⟩
    · exact h.proper hd he
    · exact ⟨hc.name, hc.ext, (h.proper hS hmem).file⟩
  · have hd := hlive.1 hd
    rcases (hr.mem_records_iff hd).1 he with ⟨he, hne⟩ | ⟨rfl, rfl⟩
    · have hchild : fs.LiveDir e.cluster := hd.tail he hf
      rcases hm.slot_zero h hS hT hk hc hchild with h0 | ⟨hf', heq⟩
      · rw [h0]
        exact h.self hd he hf
      · exact absurd (htree.unique hd hS he hmem hf hf' heq) hne
    · have hedge : fs.volume.Edge fatFormat S (fs.tableAt S i).cluster := ⟨_, hmem, hf, rfl⟩
      rw [rename_cluster, hm.table_folder h.treeOk hS hT hf hedge (hc.outside hf),
        movedFolderTable_zero, rename_key, rename_key]
  · rcases hm.slot_zero h hS hT hk hc hroot with h0 | ⟨hf, heq⟩
    · rw [h0]
      exact h.root
    · exact absurd heq.symm (htree.root hS hmem hf)

end Moved

/-- A `move` of a child entry out of a directory that is not full and that has another name. If the
searches find a slot for it, it is in another directory, which is not the moved one and does not lie
below it; the new name is proper, and the one of a folder has no extension. -/
structure ProperMove (fs : FileSystem) (src tar : DriverRequest) : Prop extends
    IsMove fs src tar where
  notFull : ¬ fs.Full src.parentClusterNumber
  named : ∀ {b e}, fs.LiveDir b → e ∈ fs.entries b → e.isSubdirectory = true →
    e.cluster = src.parentClusterNumber → e.key ≠ src.key
  ne : ∀ {T k key}, targetSlot fs src tar = some (T, k, key) → T ≠ src.parentClusterNumber
  outside : ∀ {T k key e}, targetSlot fs src tar = some (T, k, key) →
    e ∈ fs.entries src.parentClusterNumber → e.key = src.key → e.isSubdirectory = true →
    ¬ ReflTransGen (fs.volume.Edge fatFormat) e.cluster T
  name : ∀ {T k key}, targetSlot fs src tar = some (T, k, key) → ProperName key.1
  ext : ∀ {T k key e}, targetSlot fs src tar = some (T, k, key) →
    e ∈ fs.entries src.parentClusterNumber → e.key = src.key → e.isSubdirectory = true →
    key.2 = Vector.replicate 3 0

section Move
variable {fs : FileSystem} {src tar : DriverRequest} {i k : Fin 64} {T : UInt32}
  {key : Vector UInt8 8 × Vector UInt8 3}

/-- Slot 0 of the source directory does not carry the name of the source. -/
theorem ProperMove.slot_zero_ne (hq : ProperMove fs src tar) (h : fs.Labelled) :
    (fs.tableAt src.parentClusterNumber 0).key ≠ src.key := by
  obtain ⟨e, he, hkey⟩ := hq.entry
  rcases hq.source.cases with hroot | ⟨b, x, hb, hx, hf, hfirst⟩
  · intro heq
    refine (h.proper hq.source he).name.ne_dot ?_
    have hname : e.name = (fs.tableAt src.parentClusterNumber 0).name :=
      congrArg Prod.fst (hkey.trans heq.symm)
    have hdot := h.root
    rw [show rootClusterNumber = src.parentClusterNumber from hroot.symm] at hdot
    rw [hname, hdot]
  · have hfirst : x.cluster = src.parentClusterNumber := hfirst
    rw [← hfirst, h.self hb hx hf]
    exact hq.named hb hx hf hfirst

/-- The source search finds the entry itself. -/
theorem ProperMove.carries (hq : ProperMove fs src tar) (h : fs.Labelled)
    (hs : Selected fs src tar i T k key) : Carries fs src.parentClusterNumber T i key := by
  have ht := h.table hq.source
  obtain ⟨e, he, hkey⟩ := hq.entry
  have hname : ProperName src.name := by
    rw [show src.name = e.name from congrArg Prod.fst hkey.symm]
    exact (h.proper hq.source he).name
  have hi0 : i ≠ 0 := by
    rintro rfl
    exact hq.slot_zero_ne h hs.key_eq
  have hi1 := hs.ne_one hq.toIsMove hname.not_isDotDot h.toLinksUp
  have hi : 2 ≤ i.val := by omega
  have hlive := hs.live hq.toIsMove ht hi1
  have hmem : fs.tableAt src.parentClusterNumber i ∈ fs.entries src.parentClusterNumber :=
    slot_mem_records hi hlive
  exact ⟨hi, hlive, hq.ne hs.target, hq.outside hs.target hmem hs.key_eq, hq.name hs.target,
    hq.ext hs.target hmem hs.key_eq⟩

/-- What a `move` of the kind comes to: it carries the entry to its new place, or fills the buffer
at most. -/
theorem ProperMove.outcome (hq : ProperMove fs src tar) (h : fs.Labelled) :
    ∃ code fs', move src tar fs = .ok (code, fs') ∧
      ((∃ i k T key t, Moved fs src.parentClusterNumber T i k
          ((fs.tableAt src.parentClusterNumber i).rename key) t fs' ∧ fs.LiveDir T ∧
          FreeSlot (fs.tableAt T) key k ∧ Carries fs src.parentClusterNumber T i key) ∨
        fs' = fs.readDirTableBuf src.parentClusterNumber) := by
  have ht := h.table hq.source
  obtain ⟨e, he, hkey⟩ := hq.entry
  obtain ⟨i, hi⟩ := hq.exists_source
  by_cases hsel : ∃ T k key, Selected fs src tar i T k key
  · obtain ⟨T, k, key, hs⟩ := hsel
    obtain ⟨u, hu⟩ := FileSystem.exists_firstUnused hq.notFull
    obtain ⟨last, _, hremove⟩ := ht.removeEntry hu he
    obtain ⟨fs', hrun, hm⟩ := hs.exists_moved ht.self (hremove i)
    exact ⟨0, fs', hrun, .inl ⟨i, k, T, key, _, hm, hs.target_live hq.target,
      targetSlot_freeSlot hs.target, hq.carries h hs⟩⟩
  · obtain ⟨code, _, hrun⟩ := move_refused ht.self hi fun T k key hs => hsel ⟨T, k, key, hs⟩
    exact ⟨code, _, hrun, .inr rfl⟩

/-- A `move` of the kind completes and keeps the file system labelled. -/
theorem ProperMove.labelled (hq : ProperMove fs src tar) (h : fs.Labelled) :
    ∃ code fs', move src tar fs = .ok (code, fs') ∧ fs'.Labelled := by
  obtain ⟨code, fs', hrun, ⟨i, k, T, key, t, hm, hT, hk, hc⟩ | rfl⟩ := hq.outcome h
  · exact ⟨code, fs', hrun, hm.labelled h hq.source hT hk hc⟩
  · exact ⟨code, _, hrun, ⟨⟨⟨h.volume, h.table⟩, h.clean, h.fatOnDisk⟩, ⟨h.parent, h.dotdot⟩,
      h.proper, h.self, h.root⟩⟩

end Move

/-! ## Runs -/

/-- A system call that changes the tree of directories. -/
inductive TreeCall
  | request (q : Request)
  | move (src tar : DriverRequest)

namespace TreeCall

/-- The function of the driver that the call runs. -/
def run : TreeCall → FileSystem → Except Fault (Int8 × FileSystem)
  | request q => q.run
  | move src tar => OsKernel.move src tar

/-- The calls of a run: permitted requests for proper names, and proper moves. -/
def Proper : TreeCall → FileSystem → Prop
  | request q, fs => q.Permitted fs ∧ q.Labels
  | move src tar, fs => ProperMove fs src tar

/-- A proper call completes and keeps the file system labelled. -/
theorem Proper.labelled {q : TreeCall} {fs : FileSystem} (hq : q.Proper fs) (h : fs.Labelled) :
    ∃ code fs', q.run fs = .ok (code, fs') ∧ fs'.Labelled := by
  cases q with
  | request q =>
    obtain ⟨hperm, hlabels⟩ := hq
    obtain ⟨code, fs', hrun, ho⟩ := hperm.outcome h.toTidy
    exact ⟨code, fs', hrun, ho.labelled h hlabels⟩
  | move src tar => exact ProperMove.labelled hq h

end TreeCall

/-- The call completes. -/
def TreeStep (q : TreeCall) (fs fs' : FileSystem) : Prop := ∃ code, q.run fs = .ok (code, fs')

/-- The file system is labelled after every run of proper calls. -/
theorem labelled_run {fs fs' : FileSystem} (hrun : Run TreeStep TreeCall.Proper fs fs')
    (h : fs.Labelled) : fs'.Labelled := by
  refine hrun.invariant (fun q fs₁ fs₂ h hq hstep => ?_) h
  obtain ⟨code, hstep⟩ := hstep
  obtain ⟨code', fs₂', hstep', h'⟩ := hq.labelled h
  rw [hstep] at hstep'
  cases hstep'
  exact h'

end OsKernel
