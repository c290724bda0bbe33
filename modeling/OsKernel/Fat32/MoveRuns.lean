import OsKernel.Fat32.MoveEffect
import OsKernel.Shell.Walk

/-!
# When `move` keeps the tree of directories

A `move` leaves the directories a tree with everything in it still reachable exactly when it is
refused, or takes an entry across to a directory that does not lie below it, or moves a file within
its directory (`TreeSafe`, `move_keepsTree_iff`). The check of the code, that the item is not moved
into itself, covers neither the folders below the item nor a folder that stays in its directory.
Runs of safe moves keep the tree, so the recursions over it end after any of them.
-/

namespace OsKernel

open Lib Relation

/-! ## Tables in order -/

section Table
variable {t t' : DirectoryTable} {key : Vector UInt8 8 × Vector UInt8 3} {k : Fin 64}
  {e : DirectoryEntry} {T : UInt32}

/-- A table is in order by its entry for itself and its child slots. -/
theorem TableOk.congr (ht : TableOk t) (hself : (t' 0).live = true)
    (h : ∀ j : Fin 64, 2 ≤ j.val → t' j = t j) : TableOk t' where
  self := hself
  packed i j hi hij hlive := by
    rw [h j (hi.trans hij)] at hlive
    rw [h i hi]
    exact ht.packed i j hi hij hlive
  keyInj i j hi hj hli hlj hkey := by
    rw [h i hi] at hli hkey
    rw [h j hj] at hlj hkey
    exact ht.keyInj i j hi hj hli hlj hkey

theorem TableOk.movedFolderTable (ht : TableOk t) : TableOk (movedFolderTable t key T) := by
  refine ht.congr ?_ fun j hj => movedFolderTable_slot hj t
  rw [movedFolderTable_zero]
  exact ht.self

/-- No entry of the table carries the name a free slot was searched for. -/
theorem FreeSlot.key_ne (hk : FreeSlot t key k) (ht : TableOk t)
    (he : e ∈ records 2 DirectoryEntry.live t) : e.key ≠ key := by
  obtain ⟨j, hj, rfl, hlive⟩ := he
  exact hk.new j (ht.packed.lt_firstUnused hk.unused hlive) hj

/-- A free slot is a child slot. -/
theorem FreeSlot.ne_of_lt {j : Fin 64} (hk : FreeSlot t key k) (hj : j.val < 2) : j ≠ k := by
  rintro rfl
  exact absurd hk.unused.1 (not_le.2 hj)

/-- Storing an entry in a free slot keeps the table in order. -/
theorem TableOk.store (ht : TableOk t) (hk : FreeSlot t key k) (hkey : e.key = key) :
    TableOk (Function.update t k e) where
  self := by
    rw [Function.update_of_ne (hk.ne_of_lt (by decide))]
    exact ht.self
  packed := by
    cases hlive : e.live with
    | true => exact ht.packed.store hk.unused hlive
    | false =>
      have hsame : ∀ j, (Function.update t k e j).live = (t j).live := by
        intro j
        rw [Function.update_apply]
        split
        · next hjk => rw [hlive, hjk, hk.unused.2.1]
        · rfl
      intro i j hi hij hj
      rw [hsame] at hj ⊢
      exact ht.packed i j hi hij hj
  keyInj := ht.keyInj.store fun x hx => hkey ▸ hk.key_ne ht hx

end Table

/-! ## States and steps -/

/-- The directories are a tree, with tables in order. -/
structure FileSystem.TreeOk (fs : FileSystem) : Prop where
  lt : ∀ {d}, fs.LiveDir d → d.toNat < 512
  tree : Volume.FolderTree fatFormat fs.volume
  table : ∀ {d}, fs.LiveDir d → TableOk (fs.tableAt d)

theorem FileSystem.Sound.treeOk {fs : FileSystem} (h : fs.Sound) : fs.TreeOk :=
  ⟨h.live_lt, h.volume.folderTree, h.table⟩

/-- The directories of `fs'` are a tree, no directory is its own ancestor, they are the ones of
`fs`, and every file and folder of `fs` still has an entry in one of them. -/
structure KeepsTree (fs fs' : FileSystem) : Prop where
  tree : Volume.FolderTree fatFormat fs'.volume
  acyclic : ∀ {d}, fs'.LiveDir d → ¬ TransGen (fs'.volume.Edge fatFormat) d d
  live : ∀ {d}, fs'.LiveDir d ↔ fs.LiveDir d
  kept : ∀ {d e}, fs.LiveDir d → e ∈ fs.entries d → ∃ d' e', fs'.LiveDir d' ∧ e' ∈ fs'.entries d' ∧
    e'.cluster = e.cluster ∧ e'.isSubdirectory = e.isSubdirectory

namespace KeepsTree
variable {fs fs' fs'' : FileSystem}

/-- The same volume is the same tree. -/
theorem of_volume_eq (hv : fs'.volume = fs.volume)
    (ht : Volume.FolderTree fatFormat fs.volume) : KeepsTree fs fs' := by
  have hlive : ∀ {d}, fs'.LiveDir d ↔ fs.LiveDir d := by
    intro d
    rw [FileSystem.LiveDir, hv]
  refine ⟨hv.symm ▸ ht, fun hd => ?_, hlive, fun {d e} hd he => ⟨d, e, hlive.2 hd, ?_, rfl, rfl⟩⟩
  · rw [hv]
    exact ht.isTree.acyclic (hlive.1 hd)
  · show e ∈ fs'.volume.records d
    rw [hv]
    exact he

theorem trans (h : KeepsTree fs fs') (h' : KeepsTree fs' fs'') : KeepsTree fs fs'' where
  tree := h'.tree
  acyclic := h'.acyclic
  live := h'.live.trans h.live
  kept hd he := by
    obtain ⟨d', e', hd', he', hc, hf⟩ := h.kept hd he
    obtain ⟨d'', e'', hd'', he'', hc', hf'⟩ := h'.kept hd' he'
    exact ⟨d'', e'', hd'', he'', hc'.trans hc, hf'.trans hf⟩

end KeepsTree

/-- Taking the entry of slot `i` of the directory at `S` to the directory at `T` is safe: the slot
does not hold a folder that stays where it is; an entry that goes to another directory refers to
what `S` loses, and does not go below itself. -/
structure SafeTo (fs : FileSystem) (S : UInt32) (i : Fin 64) (T : UInt32) : Prop where
  notFull : ¬ fs.Full S
  within : T = S → ¬ ((fs.tableAt S i).live = true ∧ (fs.tableAt S i).isSubdirectory = true)
  live : T ≠ S → (fs.tableAt S i).live = true
  loses : T ≠ S → ∃ y, Loses (fs.tableAt S) i y ∧ y.cluster = (fs.tableAt S i).cluster ∧
    y.isSubdirectory = (fs.tableAt S i).isSubdirectory
  outside : T ≠ S → (fs.tableAt S i).isSubdirectory = true →
    ¬ ReflTransGen (fs.volume.Edge fatFormat) (fs.tableAt S i).cluster T

/-- A `move` is refused or safe. -/
def TreeSafe (fs : FileSystem) (src tar : DriverRequest) : Prop :=
  ∀ i T k key, Selected fs src tar i T k key → SafeTo fs src.parentClusterNumber i T

/-- The requests of a `move` name live directories, and the source is a live entry. -/
structure IsMove (fs : FileSystem) (src tar : DriverRequest) : Prop where
  source : fs.LiveDir src.parentClusterNumber
  target : fs.LiveDir tar.parentClusterNumber
  entry : ∃ e ∈ fs.entries src.parentClusterNumber, e.key = src.key

/-! ## The tables after a move -/

section Moved
variable {fs fs' : FileSystem} {src tar : DriverRequest} {S T d : UInt32} {i k : Fin 64}
  {key : Vector UInt8 8 × Vector UInt8 3} {e : DirectoryEntry} {t : DirectoryTable}

/-- The target directory of a `move` is live. -/
theorem Selected.target_live (hs : Selected fs src tar i T k key)
    (htar : fs.LiveDir tar.parentClusterNumber) : fs.LiveDir T := by
  rcases targetSlot_cases hs.target with ⟨rfl, _⟩ | ⟨_, x, hx, _, hf, rfl⟩
  · exact htar
  · exact htar.tail hx hf

section
variable (hm : Moved fs S T i k ((fs.tableAt S i).rename key) t fs')
  (hlt : ∀ {d}, fs.LiveDir d → d.toNat < 512) (hS : fs.LiveDir S) (hT : fs.LiveDir T)
include hm

theorem Moved.table_target :
    fs'.tableAt T = Function.update (fs.tableAt T) k ((fs.tableAt S i).rename key) := by
  rw [hm.table, if_pos rfl]

include hlt hS hT

theorem Moved.table_source (hne : T ≠ S) : fs'.tableAt S = t := by
  rw [hm.table, if_neg fun h => hne ((FileSystem.blockAddress_inj (hlt hS) (hlt hT)).1 h).symm,
    if_pos rfl]

theorem Moved.table_other (hd : fs.LiveDir d) (hdS : d ≠ S) (hdT : d ≠ T) :
    fs'.tableAt d = if (fs.tableAt S i).isSubdirectory = true ∧
        blockAddress d = blockAddress (fs.tableAt S i).cluster then
      movedFolderTable (fs.tableAt d) key T else fs.tableAt d := by
  rw [hm.table, if_neg fun h => hdT ((FileSystem.blockAddress_inj (hlt hd) (hlt hT)).1 h),
    if_neg fun h => hdS ((FileSystem.blockAddress_inj (hlt hd) (hlt hS)).1 h)]
  split
  · next h => rw [FileSystem.tableAt_of_blockAddress h.2, rename_key]
  · rfl

/-- The child slots of the other directories stay the same. -/
theorem Moved.slot_other (hd : fs.LiveDir d) (hdS : d ≠ S) (hdT : d ≠ T) {j : Fin 64}
    (hj : 2 ≤ j.val) : fs'.tableAt d j = fs.tableAt d j := by
  rw [hm.table_other hlt hS hT hd hdS hdT]
  split
  · exact movedFolderTable_slot hj _
  · rfl

end

section
variable (hm : Moved fs S T i k ((fs.tableAt S i).rename key) t fs') (h : fs.TreeOk)
  (hS : fs.LiveDir S) (hT : fs.LiveDir T) (hk : FreeSlot (fs.tableAt T) key k)
include hm h hS hT hk

/-- A `move` leaves the tables of the directories in order. -/
theorem Moved.tableOk (he : e ∈ fs.entries S) (hlive : T ≠ S → (fs.tableAt S i).live = true)
    (hd : fs.LiveDir d) : TableOk (fs'.tableAt d) := by
  by_cases hdT : d = T
  · rw [hdT, hm.table_target]
    exact (h.table hT).store hk rfl
  · by_cases hdS : d = S
    · have hne : T ≠ S := fun heq => hdT (hdS.trans heq.symm)
      obtain ⟨last, hlast, rfl⟩ := (h.table hS).of_removeEntry he hm.removed
      rw [hdS, hm.table_source h.lt hS hT hne]
      exact (h.table hS).swapRemove hlast (hlive hne)
    · rw [hm.table_other h.lt hS hT hd hdS hdT]
      split
      · exact (h.table hd).movedFolderTable
      · exact h.table hd

/-- A folder's entry is neither new nor gone when a file moves within its directory. -/
theorem Moved.folders_within (heq : T = S)
    (hfile : ¬ ((fs.tableAt S i).live = true ∧ (fs.tableAt S i).isSubdirectory = true))
    (hd : fs.LiveDir d) {x : DirectoryEntry} (hx : x.isSubdirectory = true) :
    x ∈ fs'.entries d ↔ x ∈ fs.entries d := by
  by_cases hdT : d = T
  · subst hdT
    have hdead := hk.unused.2.1
    constructor
    · rintro ⟨j, hj, rfl, hlive⟩
      rw [hm.table_target] at hx hlive ⊢
      by_cases hjk : j = k
      · rw [hjk, Function.update_self] at hx hlive
        exact absurd ⟨hlive, hx⟩ hfile
      · rw [Function.update_of_ne hjk] at hlive ⊢
        exact slot_mem_records hj hlive
    · rintro ⟨j, hj, rfl, hlive⟩
      have hjk : j ≠ k := by
        rintro rfl
        rw [hdead] at hlive
        cases hlive
      refine ⟨j, hj, ?_, hlive⟩
      rw [hm.table_target, Function.update_of_ne hjk]
  · refine iff_of_eq (congrArg (x ∈ ·) (records_congr fun j hj => ?_))
    exact hm.slot_other h.lt hS hT hd (heq ▸ hdT) hdT hj

/-- What was in the directories is still there when a `move` stays within its directory. -/
theorem Moved.mem_within (heq : T = S) {x : DirectoryEntry} (hd : fs.LiveDir d)
    (hx : x ∈ fs.entries d) : x ∈ fs'.entries d := by
  obtain ⟨j, hj, rfl, hlive⟩ := hx
  refine ⟨j, hj, ?_, hlive⟩
  by_cases hdT : d = T
  · have hjk : j ≠ k := by
      rintro rfl
      rw [hdT, hk.unused.2.1] at hlive
      cases hlive
    rw [hdT, hm.table_target, Function.update_of_ne hjk]
  · exact hm.slot_other h.lt hS hT hd (heq ▸ hdT) hdT hj

variable (he : e ∈ fs.entries S)
include he

/-- A safe `move` keeps the tree. -/
theorem Moved.keepsTree (hsafe : SafeTo fs S i T) : KeepsTree fs fs' := by
  by_cases heq : T = S
  · have hfolders :=
      fun d hd x hx => hm.folders_within h hS hT hk heq (hsafe.within heq) (d := d) hd
      (x := x) hx
    have htree : Volume.FolderTree fatFormat fs'.volume := h.tree.congr hfolders
    have hlive : ∀ {d}, fs'.LiveDir d ↔ fs.LiveDir d := Volume.live_congr hfolders
    exact ⟨htree, htree.isTree.acyclic, hlive, fun hd hx =>
      ⟨_, _, hlive.2 hd, hm.mem_within h hS hT hk heq hd hx, rfl, rfl⟩⟩
  · obtain ⟨y, hy, hfirst, hfolder⟩ := hsafe.loses heq
    have hr := hm.relinks h.lt (h.table hS) hS hT (Ne.symm heq) hk (hsafe.live heq) hy hfirst.symm
      hfolder.symm
    have hout : y.isSubdirectory = true →
        ¬ ReflTransGen (fs.volume.Edge fatFormat) y.cluster T := by
      rw [hfirst, hfolder]
      exact hsafe.outside heq
    have htree := hr.folderTree h.tree hout
    have hlive : ∀ {d}, fs'.LiveDir d ↔ fs.LiveDir d := hr.live_iff h.tree hout
    refine ⟨htree, htree.isTree.acyclic, hlive, fun {d x} hd hx => ?_⟩
    by_cases hxy : d = S ∧ x = y
    · obtain ⟨rfl, rfl⟩ := hxy
      exact ⟨T, _, hlive.2 hT, (hr.mem_records_iff hT).2 (.inr ⟨rfl, rfl⟩), hfirst.symm,
        hfolder.symm⟩
    · exact ⟨d, x, hlive.2 hd, (hr.mem_records_iff hd).2 (.inl ⟨hx, hxy⟩), rfl, rfl⟩

omit hk he in
/-- A moved folder that does not go below itself gets its new name and parent. -/
theorem Moved.table_folder (hf : (fs.tableAt S i).isSubdirectory = true)
    (hedge : fs.volume.Edge fatFormat S (fs.tableAt S i).cluster)
    (hout : ¬ ReflTransGen (fs.volume.Edge fatFormat) (fs.tableAt S i).cluster T) :
    fs'.tableAt (fs.tableAt S i).cluster =
      movedFolderTable (fs.tableAt (fs.tableAt S i).cluster) key T := by
  have hd : fs.LiveDir (fs.tableAt S i).cluster := ReflTransGen.tail hS hedge
  have hdT : (fs.tableAt S i).cluster ≠ T := fun heq => hout (heq ▸ .refl)
  have hdS : (fs.tableAt S i).cluster ≠ S := by
    intro heq
    rw [heq] at hedge
    exact h.tree.isTree.acyclic hS (.single hedge)
  rw [hm.table_other h.lt hS hT hd hdS hdT, if_pos ⟨hf, rfl⟩]

/-- The first two slots of a directory stay the same, unless the slot was found as the source or the
directory moves. -/
theorem Moved.slot_head {j : Fin 64} (hj : j.val < 2) (hi : i ≠ j) (hd : fs.LiveDir d) :
    fs'.tableAt d j = fs.tableAt d j ∨ ((fs.tableAt S i).isSubdirectory = true ∧
      blockAddress d = blockAddress (fs.tableAt S i).cluster ∧
      fs'.tableAt d j = movedFolderTable (fs.tableAt d) key T j) := by
  by_cases hdT : d = T
  · refine .inl ?_
    rw [hdT, hm.table_target, Function.update_of_ne (hk.ne_of_lt hj)]
  · by_cases hdS : d = S
    · have hne : T ≠ S := fun heq => hdT (hdS.trans heq.symm)
      obtain ⟨last, hlast, rfl⟩ := (h.table hS).of_removeEntry he hm.removed
      have hjlast : j ≠ last := by
        rintro rfl
        exact absurd hlast.1 (not_le.2 hj)
      rw [hdS, hm.table_source h.lt hS hT hne, swapRemove_of_ne hjlast, if_neg (Ne.symm hi)]
      exact .inl rfl
    · rw [hm.table_other h.lt hS hT hd hdS hdT]
      split
      · next hf => exact .inr ⟨hf.1, hf.2, rfl⟩
      · exact .inl rfl

/-- A safe `move` of another slot than slot 1 keeps the entries for the parent directories. -/
theorem Moved.linksUp (hsafe : SafeTo fs S i T) (hi : i ≠ 1)
    (hlive : (fs.tableAt S i).live = true) (hup : fs.LinksUp) : fs'.LinksUp := by
  have hkeep := hm.keepsTree h hS hT hk he hsafe
  refine ⟨fun {b d} hb hbd => ?_, fun {d} hd => ?_⟩
  · have hd := hkeep.live.1 (ReflTransGen.tail hb hbd)
    have hb := hkeep.live.1 hb
    -- an edge that was there before still has the parent's cluster in slot 1
    have hsame : fs.volume.Edge fatFormat b d → ¬ ((fs.tableAt S i).isSubdirectory = true ∧
        blockAddress d = blockAddress (fs.tableAt S i).cluster) →
            (fs'.tableAt d 1).cluster = b := by
      intro hold hnot
      rcases hm.slot_head h hS hT hk he (by decide) hi hd with h1 | ⟨hf, hblock, _⟩
      · rw [h1, hup.parent hb hold]
      · exact absurd ⟨hf, hblock⟩ hnot
    by_cases heq : T = S
    · obtain ⟨x, hx, hf, rfl⟩ := hbd
      have hfile := hsafe.within heq
      exact hsame ⟨x, (hm.folders_within h hS hT hk heq hfile hb hf).1 hx, hf, rfl⟩
        fun hfolder => hfile ⟨hlive, hfolder.1⟩
    · obtain ⟨y, hy, hfirst, hfolder⟩ := hsafe.loses heq
      have hr := hm.relinks h.lt (h.table hS) hS hT (Ne.symm heq) hk hlive hy hfirst.symm
        hfolder.symm
      have hmem : y ∈ fs.entries S := hy.mem fun _ => hlive
      rcases (hr.edge_iff h.tree hb).1 hbd with ⟨hold, hnot⟩ | ⟨rfl, hf, hdy⟩
      · refine hsame hold fun hx => hnot ?_
        have hyf : y.isSubdirectory = true := hfolder.trans hx.1
        refine ⟨hyf, (FileSystem.blockAddress_inj (h.lt hd) (h.lt (hS.tail hmem hyf))).1 ?_⟩
        exact hx.2.trans (congrArg blockAddress hfirst.symm)
      · have hdx : d = (fs.tableAt S i).cluster := hdy.trans hfirst
        have hxf : (fs.tableAt S i).isSubdirectory = true := hfolder.symm.trans hf
        have hedge : fs.volume.Edge fatFormat S (fs.tableAt S i).cluster := ⟨y, hmem, hf, hfirst⟩
        rw [hdx, hm.table_folder h hS hT hxf hedge (hsafe.outside heq hxf), movedFolderTable_one,
          DirectoryEntry.cluster_setCluster]
  · have hd := hkeep.live.1 hd
    rcases hm.slot_head h hS hT hk he (by decide) hi hd with h1 | ⟨_, _, h1⟩
    · rw [h1]
      exact hup.dotdot hd
    · rw [h1, movedFolderTable_one, DirectoryEntry.setCluster_name]
      exact hup.dotdot hd

end

end Moved

/-! ## One move -/

section Step
variable {fs fs' : FileSystem} {src tar : DriverRequest} {i k : Fin 64} {T : UInt32}
  {key : Vector UInt8 8 × Vector UInt8 3} {code : Int8}

/-- The slot that the source search finds is live, unless it is slot 1. -/
theorem Selected.live (hs : Selected fs src tar i T k key) (hq : IsMove fs src tar)
    (ht : TableOk (fs.tableAt src.parentClusterNumber)) (hi : i ≠ 1) :
    (fs.tableAt src.parentClusterNumber i).live = true := by
  obtain ⟨e, ⟨j, hj, rfl, hlive⟩, hkey⟩ := hq.entry
  by_cases h0 : i = 0
  · rw [h0]
    exact ht.self
  · refine ht.packed i j (by omega) ?_ hlive
    by_contra hji
    have := (findFrom_eq_some.1 hs.source).2.2 j (not_le.1 hji) (Nat.zero_le _)
    simp [hkey] at this

/-- A source that is not named `..` is not found in slot 1. -/
theorem Selected.ne_one (hs : Selected fs src tar i T k key) (hq : IsMove fs src tar)
    (hname : isDotDot src.name = false) (hup : fs.LinksUp) : i ≠ 1 := by
  rintro rfl
  have hdot := hup.dotdot hq.source
  have heq : (fs.tableAt src.parentClusterNumber 1).name = src.name := congrArg Prod.fst hs.key_eq
  rw [heq, hname] at hdot
  cases hdot

/-- The source search finds a slot. -/
theorem IsMove.exists_source (hq : IsMove fs src tar) :
    ∃ i, findFrom 0 (fun i => (fs.tableAt src.parentClusterNumber i).hasKey src.key) = some i := by
  obtain ⟨e, ⟨j, _, rfl, _⟩, hkey⟩ := hq.entry
  exact findFrom_isSome (i := j) (Nat.zero_le _) (by simp [hkey])

/-- A safe `move` completes and keeps the tree, and the entries for the parent directories too when
the source is not named like them. -/
theorem IsMove.safe (hq : IsMove fs src tar) (h : fs.TreeOk) (hsafe : TreeSafe fs src tar) :
    ∃ code fs', move src tar fs = .ok (code, fs') ∧ fs'.TreeOk ∧ KeepsTree fs fs' ∧
      (isDotDot src.name = false → fs.LinksUp → fs'.LinksUp) := by
  have ht := h.table hq.source
  obtain ⟨e, he, hkey⟩ := hq.entry
  obtain ⟨i, hi⟩ := hq.exists_source
  by_cases hsel : ∃ T k key, Selected fs src tar i T k key
  · obtain ⟨T, k, key, hs⟩ := hsel
    have hto := hsafe i T k key hs
    have hT := hs.target_live hq.target
    have hk := targetSlot_freeSlot hs.target
    obtain ⟨u, hu⟩ := FileSystem.exists_firstUnused hto.notFull
    obtain ⟨last, _, hremove⟩ := ht.removeEntry hu he
    obtain ⟨fs', hrun, hm⟩ := hs.exists_moved ht.self (hremove i)
    have hkeep := hm.keepsTree h hq.source hT hk he hto
    refine ⟨0, fs', hrun, ⟨fun hd => h.lt (hkeep.live.1 hd), hkeep.tree, fun hd => ?_⟩, hkeep,
      fun hname hup => ?_⟩
    · exact hm.tableOk h hq.source hT hk he hto.live (hkeep.live.1 hd)
    · have hi1 := hs.ne_one hq hname hup
      exact hm.linksUp h hq.source hT hk he hto hi1 (hs.live hq ht hi1) hup
  · obtain ⟨code, _, hrun⟩ := move_refused ht.self hi fun T k key hs => hsel ⟨T, k, key, hs⟩
    exact ⟨code, _, hrun, ⟨h.lt, h.tree, h.table⟩, .of_volume_eq rfl h.tree, fun _ hup =>
      ⟨hup.parent, hup.dotdot⟩⟩

section Necessary
variable (h : fs.Sound) (hq : IsMove fs src tar) (hs : Selected fs src tar i T k key)
  {t : DirectoryTable} (hm : Moved fs src.parentClusterNumber T i k
    ((fs.tableAt src.parentClusterNumber i).rename key) t fs') (hkeep : KeepsTree fs fs')
include h hq hs hm hkeep

/-- A folder that stays in its directory under another name has two entries there. -/
theorem KeepsTree.within (heq : T = src.parentClusterNumber) :
    ¬ ((fs.tableAt src.parentClusterNumber i).live = true ∧
      (fs.tableAt src.parentClusterNumber i).isSubdirectory = true) := by
  rintro ⟨hlive, hf⟩
  have hT := hs.target_live hq.target
  have hk := targetSlot_freeSlot hs.target
  have hnew : (fs.tableAt src.parentClusterNumber i).rename key ∈ fs'.entries T :=
    ⟨k, hk.unused.1, by rw [hm.table_target, Function.update_self], rename_live.trans hlive⟩
  have hT' := hkeep.live.2 hT
  have hc := hkeep.live.1 (hT'.tail hnew hf)
  rcases hc.cases with hroot | ⟨b, y, hb, hy, hyf, hyc⟩
  · exact hkeep.tree.root hT' hnew hf hroot
  · have hy' := hm.mem_within h.treeOk hq.source hT hk heq hb hy
    obtain ⟨rfl, rfl⟩ := hkeep.tree.unique (hkeep.live.2 hb) hT' hy' hnew hyf hf hyc
    exact hk.key_ne (h.table hT) hy rfl

/-- The only entry for what the source directory loses is the new one in the target directory. -/
theorem KeepsTree.loses (hne : T ≠ src.parentClusterNumber) :
    (fs.tableAt src.parentClusterNumber i).live = true ∧
      ∃ y, Loses (fs.tableAt src.parentClusterNumber) i y ∧
        y.cluster = (fs.tableAt src.parentClusterNumber i).cluster ∧
        y.isSubdirectory = (fs.tableAt src.parentClusterNumber i).isSubdirectory := by
  have ht := h.table hq.source
  have hT := hs.target_live hq.target
  obtain ⟨e, he, _⟩ := hq.entry
  obtain ⟨last, hlast, rfl⟩ := ht.of_removeEntry he hm.removed
  have hchild : 2 ≤ i.val → (fs.tableAt src.parentClusterNumber i).live = true := by
    intro hi
    refine hs.live hq ht ?_
    rintro rfl
    exact absurd hi (by decide)
  obtain ⟨y, hy⟩ : ∃ y, Loses (fs.tableAt src.parentClusterNumber) i y := by
    by_cases hi : 2 ≤ i.val
    · exact ⟨_, .inl ⟨hi, rfl⟩⟩
    · exact ⟨_, .inr ⟨not_le.1 hi, last, hlast, rfl⟩⟩
  have hmem : y ∈ fs.entries src.parentClusterNumber := hy.mem hchild
  obtain ⟨d, z, hd, hz, hzc, hzf⟩ := hkeep.kept hq.source hmem
  have hd := hkeep.live.1 hd
  -- an entry that was there before is `y` itself, which is gone
  have hold : z ∈ fs.entries d → d ≠ src.parentClusterNumber → False := fun hz hdS =>
    hdS (eq_of_first h hq.source hmem hd hz hzc).1
  by_cases hdT : d = T
  · subst hdT
    obtain ⟨j, hj, rfl, hlive⟩ := hz
    rw [hm.table_target] at hzc hzf hlive
    by_cases hjk : j = k
    · rw [hjk, Function.update_self] at hzc hzf hlive
      exact ⟨hlive, y, hy, hzc.symm, hzf.symm⟩
    · have hslot : fs'.tableAt d j = fs.tableAt d j := by
        rw [hm.table_target, Function.update_of_ne hjk]
      rw [Function.update_of_ne hjk] at hlive
      exact (hold ⟨j, hj, hslot.symm, hslot.symm ▸ hlive⟩ hne).elim
  · by_cases hdS : d = src.parentClusterNumber
    · subst hdS
      have hsource := hm.table_source h.live_lt hq.source hT hne
      rw [FileSystem.entries, hsource, hy.records ht hlast hchild] at hz
      exact absurd (eq_of_first h hq.source hmem hd hz.1 hzc).2 hz.2
    · have hrec : fs'.entries d = fs.entries d := records_congr fun j hj =>
        hm.slot_other h.live_lt hq.source hT hd hdS hdT hj
      exact (hold (hrec ▸ hz) hdS).elim

/-- A `move` that keeps the tree was safe. -/
theorem KeepsTree.safeTo : SafeTo fs src.parentClusterNumber i T where
  notFull hfull := by
    have hremoved := hm.removed
    rw [removeEntry_full hfull] at hremoved
    cases hremoved
  within := hkeep.within h hq hs hm
  live hne := (hkeep.loses h hq hs hm hne).1
  loses hne := (hkeep.loses h hq hs hm hne).2
  outside hne hf hin := by
    obtain ⟨hlive, y, hy, hfirst, hfolder⟩ := hkeep.loses h hq hs hm hne
    have hT := hs.target_live hq.target
    rw [← hfirst] at hin
    exact (hm.relinks h.live_lt (h.table hq.source) hq.source hT hne.symm
      (targetSlot_freeSlot hs.target) hlive hy hfirst.symm hfolder.symm).target_lost
      h.volume.folderTree (hfolder.trans hf) hin (hkeep.live.2 hT)

end Necessary

end Step

/-! ## Runs of moves -/

/-- The states that safe moves of sources with the given property lead to. -/
inductive Moves (sources : DriverRequest → Prop) (fs : FileSystem) : FileSystem → Prop
  | refl : Moves sources fs fs
  | step {fs₁ fs₂ : FileSystem} {src tar : DriverRequest} {code : Int8} : Moves sources fs fs₁ →
      IsMove fs₁ src tar → TreeSafe fs₁ src tar → sources src →
      move src tar fs₁ = .ok (code, fs₂) → Moves sources fs fs₂

section Runs
variable {fs fs' : FileSystem} {sources : DriverRequest → Prop}

/-- Safe moves keep the tree. -/
theorem Moves.keepsTree (hr : Moves sources fs fs') (h : fs.TreeOk) :
    fs'.TreeOk ∧ KeepsTree fs fs' := by
  induction hr with
  | refl => exact ⟨h, .of_volume_eq rfl h.tree⟩
  | step _ hq hsafe _ hrun ih =>
    obtain ⟨hok, hkeep⟩ := ih
    obtain ⟨code', fs'', hrun', hok', hkeep', _⟩ := hq.safe hok hsafe
    rw [hrun] at hrun'
    cases hrun'
    exact ⟨hok', hkeep.trans hkeep'⟩

/-- Safe moves of sources with other names than `..` keep the entries for the parent directories. -/
theorem Moves.linksUp (hr : Moves (fun src => isDotDot src.name = false) fs fs') (h : fs.TreeOk)
    (hup : fs.LinksUp) : fs'.LinksUp := by
  induction hr with
  | refl => exact hup
  | step hr hq hsafe hname hrun ih =>
    obtain ⟨code', fs'', hrun', _, _, hkeep⟩ := hq.safe (hr.keepsTree h).1 hsafe
    rw [hrun] at hrun'
    cases hrun'
    exact hkeep hname ih

/-- A `move` in a well-formed state keeps the tree of directories exactly when it is safe. After any
run of safe moves the tree is kept, the next safe move completes, and the recursions end:
`delete_all_folder` always, `print_path_from_root` and `dfs_find` when the directories name their
parents and no source was named `..`. -/
theorem move_keepsTree_iff (h : fs.WellFormed) :
    (∀ src tar, IsMove fs src tar →
      ((∃ code fs', move src tar fs = .ok (code, fs') ∧ KeepsTree fs fs') ↔ TreeSafe fs src tar)) ∧
    (∀ fs', Moves (fun _ => True) fs fs' → KeepsTree fs fs' ∧
      (∀ src tar, IsMove fs' src tar → TreeSafe fs' src tar →
        ∃ code fs'', move src tar fs' = .ok (code, fs'')) ∧
      ∀ d, fs'.LiveDir d →
        ∃ bound, ∀ steps ≥ bound, ∃ disk, deleteAllFolder steps d fs'.disk = .ok disk) ∧
    (fs.LinksUp → ∀ fs', Moves (fun src => isDotDot src.name = false) fs fs' →
      ∀ d, fs'.LiveDir d →
        (∃ bound names, ∀ steps ≥ bound, printPathFromRoot fs' steps d = .ok names) ∧
        ∃ bound, ∀ steps ≥ bound, ∀ isGoal path paths,
          dfsFind isGoal fs' steps d path paths ≠ .error .outOfSteps) := by
  refine ⟨fun src tar hq => ⟨?_, fun hsafe => ?_⟩, fun fs' hr => ?_, fun hup fs' hr d hd => ?_⟩
  · rintro ⟨code, fs', hrun, hkeep⟩ i T k key hs
    obtain ⟨t, hm⟩ := hs.moved (h.table hq.source).self hrun
    exact hkeep.safeTo h.sound hq hs hm
  · obtain ⟨code, fs', hrun, _, hkeep, _⟩ := hq.safe h.sound.treeOk hsafe
    exact ⟨code, fs', hrun, hkeep⟩
  · obtain ⟨hok, hkeep⟩ := hr.keepsTree h.sound.treeOk
    refine ⟨hkeep, fun src tar hq hsafe => ?_, fun d hd => deleteAllFolder_ends hok.tree hd⟩
    obtain ⟨code, fs'', hrun, _⟩ := hq.safe hok hsafe
    exact ⟨code, fs'', hrun⟩
  · have hok := (hr.keepsTree h.sound.treeOk).1
    have hup' := hr.linksUp h.sound.treeOk hup
    refine ⟨printPathFromRoot_ends hup' hd, below (fs'.volume.Edge fatFormat) d + 1, ?_⟩
    exact fun steps hsteps isGoal path paths =>
      dfsFind_ends hok.tree hup' isGoal hd hsteps path paths

end Runs

section NestedFolders
variable {fs : FileSystem} {a b : DirectoryEntry}

/-- The selection of a `move` is unique. -/
theorem Selected.safe {src tar : DriverRequest} {i k : Fin 64} {T : UInt32}
    {key : Vector UInt8 8 × Vector UInt8 3} (hs : Selected fs src tar i T k key)
    (hto : SafeTo fs src.parentClusterNumber i T) : TreeSafe fs src tar := by
  intro i' T' k' key' hs'
  obtain rfl := Option.some.inj (hs.source.symm.trans hs'.source)
  have htarget := Option.some.inj (hs.target.symm.trans hs'.target)
  cases htarget
  exact hto

namespace NestedFolders

/-- A new name in `b` gets slot 2. -/
theorem target_inner (h : NestedFolders fs a b) {src : DriverRequest} :
    targetSlot fs src (sampleRequest 'C' b.cluster 0) =
      some (b.cluster, 2, (sampleRequest 'C' b.cluster 0).key) := by
  obtain ⟨nextFree, hinner⟩ := h.inner
  have hdead : (fs.tableAt b.cluster 2).live = false := by
    rw [hinner, newFolderTable_slot (by decide)]
    rfl
  have hfind : findFrom 2 (fun i => !(fs.tableAt b.cluster i).live ||
      (fs.tableAt b.cluster i).hasKey (sampleRequest 'C' b.cluster 0).key) = some 2 := by
    refine findFrom_eq_some.2 ⟨by decide, by simp [hdead], fun j hj hlo => ?_⟩
    exact absurd (Fin.lt_def.1 hj) (not_lt.2 hlo)
  have hsearch : searchTarget (fs.tableAt b.cluster) (sampleRequest 'C' b.cluster 0).key =
      .slot 2 := by
    rw [searchTarget, hfind]
    simp only [hdead, Bool.false_eq_true, ↓reduceIte]
  rw [targetSlot]
  simp only [sampleRequest] at hsearch ⊢
  rw [hsearch]

theorem slot_outer (h : NestedFolders fs a b) : fs.tableAt rootClusterNumber 2 = a := by
  rw [h.root, Function.update_self]

theorem slot_inner (h : NestedFolders fs a b) : fs.tableAt a.cluster 2 = b := by
  obtain ⟨nextFree, houter⟩ := h.outer
  rw [houter, Function.update_self]

/-- The folder `a` can move into `b`. -/
theorem selected_below (h : NestedFolders fs a b) :
    Selected fs (sampleRequest 'A' rootClusterNumber 0) (sampleRequest 'C' b.cluster 0) 2 b.cluster
      2 (sampleRequest 'C' b.cluster 0).key where
  source := h.find_outer
  target := h.target_inner
  ne := by
    show (fs.tableAt rootClusterNumber 2).cluster ≠ b.cluster
    rw [h.slot_outer]
    intro heq
    exact h.inOrder.sound.volume.folderTree.isTree.acyclic h.liveOuter
      (.single ⟨b, h.memInner, h.folderInner, heq.symm⟩)

/-- Moving `b` to the root directory is safe. -/
theorem safeTo_inner (h : NestedFolders fs a b) : SafeTo fs a.cluster 2 rootClusterNumber := by
  have htree := h.inOrder.sound.volume.folderTree
  have hne : rootClusterNumber ≠ a.cluster := (htree.root .root h.memOuter h.folderOuter).symm
  refine ⟨h.notFull_outer, fun heq => absurd heq hne, fun _ => ?_, fun _ => ?_, fun _ hf hin => ?_⟩
  · rw [h.slot_inner]
    exact records_live h.memInner
  · exact ⟨b, .inl ⟨by decide, h.slot_inner⟩, by rw [h.slot_inner], by rw [h.slot_inner]⟩
  · rw [h.slot_inner] at hin
    exact htree.root h.liveOuter h.memInner h.folderInner
      (htree.isTree.antisymm h.liveInner hin h.liveInner)

end NestedFolders

end NestedFolders

/-- Moving a folder up into the root directory keeps the tree, and the walks end afterwards. -/
theorem move_keepsTree_up : ∃ (fs₁ fs fs' : FileSystem) (a b : DirectoryEntry) (code : Int8),
    write (fun _ => 0) (sampleRequest 'A' rootClusterNumber 0) blankFileSystem = .ok (0, fs₁) ∧
    write (fun _ => 0) (sampleRequest 'B' a.cluster 0) fs₁ = .ok (0, fs) ∧
    move (sampleRequest 'B' a.cluster 0) (sampleRequest 'C' rootClusterNumber 0) fs =
      .ok (code, fs') ∧
    KeepsTree fs fs' ∧ fs'.LiveDir b.cluster ∧
    (∃ bound, ∀ steps ≥ bound, ∃ disk, deleteAllFolder steps b.cluster fs'.disk = .ok disk) ∧
    ∃ bound names, ∀ steps ≥ bound, printPathFromRoot fs' steps b.cluster = .ok names := by
  obtain ⟨fs₁, fs, a, b, hrun₁, hrun₂, h⟩ := exists_nestedFolders
  have hq : IsMove fs (sampleRequest 'B' a.cluster 0) (sampleRequest 'C' rootClusterNumber 0) :=
    ⟨h.liveOuter, .root, b, h.memInner, h.keyInner⟩
  have hsafe : TreeSafe fs (sampleRequest 'B' a.cluster 0)
      (sampleRequest 'C' rootClusterNumber 0) :=
    h.selected_inner.safe h.safeTo_inner
  have hname : isDotDot (sampleRequest 'B' 0 0).name = false := by decide
  obtain ⟨hiff, hruns, hwalks⟩ := move_keepsTree_iff h.inOrder.toWellFormed
  obtain ⟨code, fs', hrun, hkeep⟩ := (hiff _ _ hq).2 hsafe
  have hd : fs'.LiveDir b.cluster := hkeep.live.2 h.liveInner
  have hdelete := (hruns fs' (.step .refl hq hsafe trivial hrun)).2.2 b.cluster hd
  have hwalk := hwalks h.reachable.linksUp fs' (.step .refl hq hsafe hname hrun) b.cluster hd
  exact ⟨fs₁, fs, fs', a, b, code, hrun₁, hrun₂, hrun, hkeep, hd, hdelete, hwalk.1⟩

/-- A folder that moves into a folder of its own is not refused, and both are cut off. -/
theorem move_not_keepsTree : ∃ (fs₁ fs fs' : FileSystem) (a b : DirectoryEntry),
    write (fun _ => 0) (sampleRequest 'A' rootClusterNumber 0) blankFileSystem = .ok (0, fs₁) ∧
    write (fun _ => 0) (sampleRequest 'B' a.cluster 0) fs₁ = .ok (0, fs) ∧
    fs.WellFormed ∧
    IsMove fs (sampleRequest 'A' rootClusterNumber 0) (sampleRequest 'C' b.cluster 0) ∧
    move (sampleRequest 'A' rootClusterNumber 0) (sampleRequest 'C' b.cluster 0) fs =
      .ok (0, fs') ∧
    fs.LiveDir b.cluster ∧ ¬ fs'.LiveDir b.cluster ∧ ¬ KeepsTree fs fs' := by
  obtain ⟨fs₁, fs, a, b, hrun₁, hrun₂, h⟩ := exists_nestedFolders
  have hwf := h.inOrder.toWellFormed
  have hs := h.selected_below
  have ht : TableOk (fs.tableAt rootClusterNumber) := hwf.table .root
  obtain ⟨u, hu⟩ := FileSystem.exists_firstUnused h.notFull_root
  obtain ⟨last, _, hremove⟩ := ht.removeEntry hu h.memOuter
  obtain ⟨fs', hmove, hm⟩ := hs.exists_moved ht.self (hremove 2)
  have hne : rootClusterNumber ≠ b.cluster :=
    (hwf.sound.volume.folderTree.root h.liveOuter h.memInner h.folderInner).symm
  have hlive : (fs.tableAt rootClusterNumber 2).live = true := by
    rw [h.slot_outer]
    exact records_live h.memOuter
  have hr :=
    hm.relinks hwf.sound.live_lt ht .root h.liveInner hne (targetSlot_freeSlot hs.target) hlive
    (.inl ⟨by decide, rfl⟩) rfl rfl
  have hbelow : ReflTransGen (fs.volume.Edge fatFormat) a.cluster b.cluster :=
    .single ⟨b, h.memInner, h.folderInner, rfl⟩
  have hlost : ¬ fs'.LiveDir b.cluster := by
    refine hr.target_lost hwf.sound.volume.folderTree ?_ ?_
    · exact h.slot_outer.symm ▸ h.folderOuter
    · exact h.slot_outer.symm ▸ hbelow
  exact ⟨fs₁, fs, fs', a, b, hrun₁, hrun₂, hwf,
    ⟨.root, h.liveInner, a, h.memOuter, h.keyOuter⟩, hmove, h.liveInner, hlost,
    fun hkeep => hlost (hkeep.live.2 h.liveInner)⟩

end OsKernel
