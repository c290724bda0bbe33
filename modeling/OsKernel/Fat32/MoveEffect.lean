import OsKernel.Fat32.Move

/-!
# When `move` moves an entry

A `move` that is not refused relinks the source entry in the tree of directories exactly when the
source search finds the entry itself, the source directory is not full, and the target is another
live directory that does not lie below the moved item (`move_moves_iff`). Otherwise it indexes past
the table, moves the directory's own entry instead, loses the removal (source and target directory
are one table, written twice), or cuts the moved folder off.
-/

namespace OsKernel

open Lib Relation

/-! ## The tables after a move -/

section Effect
variable {fs fs' : FileSystem} {S T : UInt32} {i k : Fin 64} {e : DirectoryEntry}
  {key : Vector UInt8 8 × Vector UInt8 3} {t : DirectoryTable}

/-- The new name and parent of a moved folder do not touch its entries. -/
theorem movedFolderTable_slot {j : Fin 64} (hj : 2 ≤ j.val) (t : DirectoryTable) :
    movedFolderTable t key T j = t j := by
  have h0 : j ≠ 0 := by
    rintro rfl
    exact absurd hj (by decide)
  have h1 : j ≠ 1 := by
    rintro rfl
    exact absurd hj (by decide)
  rw [movedFolderTable, Function.update_of_ne h1, Function.update_of_ne h0]

theorem movedFolderTable_zero (t : DirectoryTable) :
    movedFolderTable t key T 0 = (t 0).rename key := by
  rw [movedFolderTable, Function.update_of_ne (by decide), Function.update_self]

theorem movedFolderTable_one (t : DirectoryTable) :
    movedFolderTable t key T 1 = (t 1).setCluster T := by
  rw [movedFolderTable, Function.update_self]

theorem records_movedFolderTable (t : DirectoryTable) :
    records 2 DirectoryEntry.live (movedFolderTable t key T) = records 2 DirectoryEntry.live t :=
  records_congr fun _ hj => movedFolderTable_slot hj t

/-- Removing slot `i` takes the entry `y` out of the table. Slots 0 and 1 are no child slots: the
last entry moves there and is gone. -/
def Loses (t : DirectoryTable) (i : Fin 64) (y : DirectoryEntry) : Prop :=
  (2 ≤ i.val ∧ t i = y) ∨ (i.val < 2 ∧ ∃ last, IsLastLive 2 DirectoryEntry.live t last ∧ t last = y)

/-- An entry that is lost was there. -/
theorem Loses.mem {t : DirectoryTable} {y : DirectoryEntry} (hy : Loses t i y)
    (hlive : 2 ≤ i.val → (t i).live = true) : y ∈ records 2 DirectoryEntry.live t := by
  rcases hy with ⟨hi, rfl⟩ | ⟨_, last, hlast, rfl⟩
  · exact slot_mem_records hi (hlive hi)
  · exact slot_mem_records hlast.1 hlast.2.1

theorem Loses.records {last : Fin 64} {t : DirectoryTable} {y : DirectoryEntry} (ht : TableOk t)
    (hlast : IsLastLive 2 DirectoryEntry.live t last) (hlive : 2 ≤ i.val → (t i).live = true)
    (hy : Loses t i y) : Lib.records 2 DirectoryEntry.live (swapRemove t i last .zero) =
      Lib.records 2 DirectoryEntry.live t \ {y} := by
  rcases hy with ⟨hi, rfl⟩ | ⟨hi, last', hlast', rfl⟩
  · exact records_swapRemove hlast DirectoryEntry.live_zero ht.keyInj hi (hlive hi)
  · obtain rfl := hlast.unique hlast'
    exact records_swapRemove_of_lt hlast DirectoryEntry.live_zero ht.keyInj hi

/-- A completed `move` to another live directory relinks the entry that the source directory loses,
when the one that the target directory gets has the same first cluster. -/
theorem Moved.relinks {y : DirectoryEntry}
    (hm : Moved fs S T i k ((fs.tableAt S i).rename key) t fs')
    (hlt : ∀ {d}, fs.LiveDir d → d.toNat < 512) (ht : TableOk (fs.tableAt S))
    (hS : fs.LiveDir S) (hT : fs.LiveDir T) (hne : S ≠ T) (hk : FreeSlot (fs.tableAt T) key k)
    (hlive : (fs.tableAt S i).live = true) (hy : Loses (fs.tableAt S) i y)
    (hfirst : (fs.tableAt S i).cluster = y.cluster)
    (hfolder : (fs.tableAt S i).isSubdirectory = y.isSubdirectory) :
    fs.volume.Relinks fatFormat fs'.volume S T y ((fs.tableAt S i).rename key) where
  source := hS
  target := hT
  ne := hne
  mem := hy.mem fun _ => hlive
  first := hfirst
  isFolder := hfolder
  recordsSource := by
    obtain ⟨last, hlast, rfl⟩ := ht.of_removeEntry (hy.mem fun _ => hlive) hm.removed
    show fs'.entries S = _
    rw [FileSystem.entries, hm.table,
      if_neg fun h => hne ((FileSystem.blockAddress_inj (hlt hS) (hlt hT)).1 h), if_pos rfl,
      hy.records ht hlast fun _ => hlive]
    rfl
  recordsTarget := by
    show fs'.entries T = _
    rw [FileSystem.entries, hm.table, if_pos rfl,
      records_store hk.unused (rename_live.trans hlive)]
    rfl
  other d hd hdS hdT := by
    show fs'.entries d = fs.entries d
    rw [FileSystem.entries, hm.table,
      if_neg fun h => hdT ((FileSystem.blockAddress_inj (hlt hd) (hlt hT)).1 h),
      if_neg fun h => hdS ((FileSystem.blockAddress_inj (hlt hd) (hlt hS)).1 h)]
    split
    · next h =>
      rw [records_movedFolderTable, FileSystem.entries, FileSystem.tableAt_of_blockAddress h.2]
    · rfl

/-- What a `move` of the entry `e` itself adds to the tree is an edge to a live directory, so
nothing becomes reachable. Neither does it when no live directory is stored where the target table
is. -/
theorem Moved.live_of_live {e' : DirectoryEntry} (hm : Moved fs S T i k e' t fs')
    (hlt : ∀ {d}, fs.LiveDir d → d.toNat < 512) (ht : TableOk (fs.tableAt S))
    (hS : fs.LiveDir S) (he : e ∈ fs.entries S)
    (hnew : (e'.cluster = e.cluster ∧ e'.isSubdirectory = e.isSubdirectory) ∨
      ∀ x, fs.LiveDir x → blockAddress x ≠ blockAddress T)
    {d : UInt32} (hd : fs'.LiveDir d) : fs.LiveDir d := by
  refine reach_of_edges (fun x hx y hxy => ?_) hd
  have hx : fs.LiveDir x := hx
  obtain ⟨z, ⟨j, hj, hz, hlive⟩, hf, rfl⟩ := hxy
  have hslot : ∀ j' : Fin 64, 2 ≤ j'.val → fs.tableAt x j' = z → fs.LiveDir z.cluster :=
    fun j' hj' hz' => hx.tail ⟨j', hj', hz', hlive⟩ hf
  rw [hm.table] at hz
  split at hz
  · next hblock =>
    by_cases hjk : j = k
    · subst hjk
      rw [Function.update_self] at hz
      rcases hnew with ⟨hfirst, hfolder⟩ | hnone
      · subst hz
        have hold : fs.LiveDir e.cluster := hS.tail he (hfolder.symm.trans hf)
        rw [← hfirst] at hold
        exact hold
      · exact absurd hblock (hnone x hx)
    · rw [Function.update_of_ne hjk, ← FileSystem.tableAt_of_blockAddress hblock] at hz
      exact hslot j hj hz
  · split at hz
    · next hblock =>
      obtain rfl := (FileSystem.blockAddress_inj (hlt hx) (hlt hS)).1 hblock
      obtain ⟨last, hlast, rfl⟩ := ht.of_removeEntry he hm.removed
      have hjl := ne_last_of_live hlast DirectoryEntry.live_zero (hz.symm ▸ hlive)
      rw [swapRemove_of_ne hjl] at hz
      split at hz
      · exact hslot last hlast.1 hz
      · exact hslot j hj hz
    · split at hz
      · next h =>
        rw [movedFolderTable_slot hj, ← FileSystem.tableAt_of_blockAddress h.2] at hz
        exact hslot j hj hz
      · exact hslot j hj hz

end Effect

/-! ## The effect of a move -/

/-- Slot `j` of the live directory at `d` holds a live entry with the first cluster `c`. -/
structure FileSystem.Refers (fs : FileSystem) (c d : UInt32) (j : Fin 64) : Prop where
  parent : fs.LiveDir d
  slot : 2 ≤ j.val
  live : (fs.tableAt d j).live = true
  cluster : (fs.tableAt d j).cluster = c

/-- The entry `e` of the directory at `S` has become the entry `e'` of the directory at `T`: the
only live entry that refers to its first cluster. The name of `e` is gone from `S`, unless `e'`
carries it there, and the other entries of both directories are the same. -/
structure MovedProperly (fs fs' : FileSystem) (S T : UInt32) (e e' : DirectoryEntry) : Prop where
  one : ∃ k, fs'.tableAt T k = e' ∧ ∀ d j, fs'.Refers e.cluster d j ↔ d = T ∧ j = k
  gone : ∀ x ∈ fs'.entries S, x.key = e.key → S = T ∧ x = e'
  others : ∀ d, d = S ∨ d = T → ∀ x, x ≠ e → x ≠ e' → (x ∈ fs'.entries d ↔ x ∈ fs.entries d)

/-- The directory and the name a `move` is for: the existing folder that carries the target's name,
with the source's name, or else the target's parent with the target's name. -/
def moveTarget (fs : FileSystem) (src tar : DriverRequest) :
    UInt32 × (Vector UInt8 8 × Vector UInt8 3) :=
  match searchTarget (fs.tableAt tar.parentClusterNumber) tar.key with
  | .folder c => (c, src.key)
  | _ => (tar.parentClusterNumber, tar.key)

/-- The source search from slot 0 on finds the entry itself, or a copy of it in slot 0 or 1 when the
entry is the last one, and the directory loses it; the source directory is not full; and the target
is another live directory, which does not lie below the entry. -/
structure CanMove (fs : FileSystem) (src tar : DriverRequest) (e : DirectoryEntry) : Prop where
  notFull : ¬ fs.Full src.parentClusterNumber
  source : ∃ i, findFrom 0 (fun i => (fs.tableAt src.parentClusterNumber i).hasKey src.key) =
    some i ∧
    fs.tableAt src.parentClusterNumber i = e ∧ Loses (fs.tableAt src.parentClusterNumber) i e
  target : fs.LiveDir (moveTarget fs src tar).1
  ne : src.parentClusterNumber ≠ (moveTarget fs src tar).1
  outside : e.isSubdirectory = true →
    ¬ ReflTransGen (fs.volume.Edge fatFormat) e.cluster (moveTarget fs src tar).1

section
variable {fs fs' : FileSystem} {src tar : DriverRequest} {i k : Fin 64} {T : UInt32}
  {key : Vector UInt8 8 × Vector UInt8 3} {e : DirectoryEntry} {t : DirectoryTable}

theorem moveTarget_eq (h : targetSlot fs src tar = some (T, k, key)) :
    moveTarget fs src tar = (T, key) := by
  rw [targetSlot] at h
  rw [moveTarget]
  split at h
  · next hs =>
    cases h
    simp only [hs]
  · next hs =>
    split at h
    · cases h
      simp only [hs]
    · cases h
  · cases h

/-- A `move` of a live entry that is not refused goes through its searches. -/
theorem exists_selected (hself : (fs.tableAt src.parentClusterNumber 0).live = true)
    (he : e ∈ fs.entries src.parentClusterNumber) (hkey : e.key = src.key)
    (hret : ∀ code fs', move src tar fs = .ok (code, fs') → code = 0) :
    ∃ i T k key, Selected fs src tar i T k key := by
  obtain ⟨j, _, rfl, _⟩ := he
  obtain ⟨i, hi⟩ := findFrom_isSome (i := j)
    (p := fun i => (fs.tableAt src.parentClusterNumber i).hasKey src.key) (Nat.zero_le _)
    (by simp [hkey])
  by_contra hnone
  obtain ⟨code, hcode, hrun⟩ := move_refused hself hi fun T k key hs => hnone ⟨i, T, k, key, hs⟩
  exact hcode (hret _ _ hrun)

/-- Only the source entry itself refers to its first cluster. -/
theorem eq_of_first (h : fs.Sound) {S d : UInt32} {x : DirectoryEntry} (hS : fs.LiveDir S)
    (he : e ∈ fs.entries S) (hd : fs.LiveDir d) (hx : x ∈ fs.entries d)
    (hfirst : x.cluster = e.cluster) : d = S ∧ x = e := by
  have ho : fs.Owns d x x.cluster := h.volume.first_owned hd hx
  rw [hfirst] at ho
  exact h.volume.unique ho (h.volume.first_owned hS he)

section Sufficient
variable (h : fs.Sound) (hS : fs.LiveDir src.parentClusterNumber)
  (he : e ∈ fs.entries src.parentClusterNumber) (hs : Selected fs src tar i T k key)
include h hS he hs

/-- Under the condition the entry moves. -/
theorem CanMove.movedProperly (hc : CanMove fs src tar e) :
    ∃ fs', move src tar fs = .ok (0, fs') ∧
      MovedProperly fs fs' src.parentClusterNumber T e (e.rename key) := by
  obtain ⟨hnf, ⟨i', hi', rfl, hloses⟩, hT, hne, hout⟩ := hc
  rw [moveTarget_eq hs.target] at hT hne hout
  obtain rfl : i' = i := Option.some.inj (hi'.symm.trans hs.source)
  have ht := h.table hS
  obtain ⟨u, hu⟩ := FileSystem.exists_firstUnused hnf
  obtain ⟨last, _, hremove⟩ := ht.removeEntry hu he
  obtain ⟨fs', hrun, hm⟩ := hs.exists_moved ht.self (hremove i')
  refine ⟨fs', hrun, ?_⟩
  have hk := targetSlot_freeSlot hs.target
  have hr := hm.relinks h.live_lt ht hS hT hne hk (records_live he) hloses rfl rfl
  have hlive : ∀ {d}, fs'.LiveDir d ↔ fs.LiveDir d := hr.live_iff h.volume.folderTree hout
  have hslot : fs'.tableAt T k = (fs.tableAt src.parentClusterNumber i').rename key := by
    rw [hm.table, if_pos rfl, Function.update_self]
  refine ⟨⟨k, hslot, fun d j => ⟨fun hrefers => ?_, ?_⟩⟩, fun x hx hkey => ?_, ?_⟩
  · have hd := hlive.1 hrefers.parent
    rcases (hr.mem_records_iff hd).1 (slot_mem_records hrefers.slot hrefers.live) with
      ⟨hx, hnot⟩ | ⟨rfl, hx⟩
    · exact absurd (eq_of_first h hS he hd hx hrefers.cluster) hnot
    · refine ⟨rfl, by_contra fun hjk => ?_⟩
      rw [hm.table, if_pos rfl, Function.update_of_ne hjk] at hx
      have hl : (fs.tableAt d j).live = true := by
        rw [hx]
        exact rename_live.trans (records_live he)
      have hmem := slot_mem_records hrefers.slot hl
      exact hne (eq_of_first h hS he hd hmem (by rw [hx]; rfl)).1.symm
  · rintro ⟨rfl, rfl⟩
    refine ⟨hlive.2 hT, hk.unused.1, ?_, ?_⟩
    · rw [hslot]
      exact rename_live.trans (records_live he)
    · rw [hslot]
      rfl
  · rcases (hr.mem_records_iff hS).1 hx with ⟨hx, hnot⟩ | htarget
    · exact absurd ⟨rfl, h.eq_of_key hS hx he hkey⟩ hnot
    · exact htarget
  · intro d hd x hxe hxe'
    have hd' : fs.LiveDir d := hd.elim (fun h => h ▸ hS) fun h => h ▸ hT
    rw [show x ∈ fs'.entries d ↔ _ from hr.mem_records_iff hd']
    simp only [hxe, hxe', and_false, not_false_eq_true, and_true, or_false]
    rfl

end Sufficient

section Necessary
variable (h : fs.Sound) (hS : fs.LiveDir src.parentClusterNumber)
  (he : e ∈ fs.entries src.parentClusterNumber) (hs : Selected fs src tar i T k key)
  (hm : Moved fs src.parentClusterNumber T i k
    ((fs.tableAt src.parentClusterNumber i).rename key) t fs')
  (hp : MovedProperly fs fs' src.parentClusterNumber T e (e.rename key))
include h hS he hs hm hp

/-- An entry that has arrived was found by the source search. Otherwise it would be an old entry of
the target table, behind the slot the target search stopped at. -/
theorem MovedProperly.source_eq (hkey : e.key = src.key) :
    fs.tableAt src.parentClusterNumber i = e := by
  have hk := targetSlot_freeSlot hs.target
  obtain ⟨k', hslot, hone⟩ := hp.one
  have hrefers : fs'.Refers e.cluster T k' := (hone T k').2 ⟨rfl, rfl⟩
  rw [hm.table, if_pos rfl] at hslot
  by_cases hkk : k' = k
  · rw [hkk, Function.update_self] at hslot
    exact (rename_inj (hs.key_eq.trans hkey.symm)).1 hslot
  · rw [Function.update_of_ne hkk] at hslot
    have hlive : (fs.tableAt T k').live = true := by
      rw [hslot]
      exact rename_live.trans (records_live he)
    have hnone : ∀ x, fs.LiveDir x → blockAddress x ≠ blockAddress T := by
      intro x hx hblock
      have hpacked := (h.table hx).packed
      rw [FileSystem.tableAt_of_blockAddress hblock] at hpacked
      refine hk.new k' (hpacked.lt_firstUnused hk.unused hlive) hrefers.slot ?_
      rw [hslot, rename_key]
    exact absurd rfl (hnone T (hm.live_of_live h.live_lt (h.table hS) hS he (.inr hnone)
      hrefers.parent))

variable (hi : fs.tableAt src.parentClusterNumber i = e)
include hi

omit hs in
/-- The target is live: the entry adds no directory to the tree. -/
theorem MovedProperly.target_live : fs.LiveDir T := by
  obtain ⟨k', _, hone⟩ := hp.one
  have hrefers : fs'.Refers e.cluster T k' := (hone T k').2 ⟨rfl, rfl⟩
  refine hm.live_of_live h.live_lt (h.table hS) hS he (.inl ?_) hrefers.parent
  rw [hi]
  exact ⟨rfl, rfl⟩

omit h hS in
/-- The target is another directory: in the source directory the old entry would still be there. -/
theorem MovedProperly.target_ne : src.parentClusterNumber ≠ T := by
  intro heq
  have hk := targetSlot_freeSlot hs.target
  obtain ⟨k', _, hone⟩ := hp.one
  have hparent := ((hone T k').2 ⟨rfl, rfl⟩).parent
  have htable : fs'.tableAt T = Function.update (fs.tableAt T) k (e.rename key) := by
    rw [hm.table, if_pos rfl, hi]
  obtain ⟨j, hj, hej, hlive⟩ := he
  rw [heq] at hej
  have hjk : j ≠ k := by
    rintro rfl
    rw [← hej, hk.unused.2.1] at hlive
    cases hlive
  have hold : fs'.tableAt T j = e := by rw [htable, Function.update_of_ne hjk, hej]
  have hnew : fs'.tableAt T k = e.rename key := by rw [htable, Function.update_self]
  have h1 := ((hone T j).1 ⟨hparent, hj, by rw [hold, hlive], by rw [hold]⟩).2
  have h2 := ((hone T k).1 ⟨hparent, hk.unused.1, by rw [hnew]; exact hlive, by rw [hnew]; rfl⟩).2
  exact hjk (h1.trans h2.symm)

/-- The slot that was found is a child slot, or the entry is the last one: the other entries of the
source directory are still there. -/
theorem MovedProperly.loses (hT : fs.LiveDir T) (hne : src.parentClusterNumber ≠ T) :
    Loses (fs.tableAt src.parentClusterNumber) i e := by
  have ht := h.table hS
  obtain ⟨last, hlast, rfl⟩ := ht.of_removeEntry he hm.removed
  by_cases hlo : 2 ≤ i.val
  · exact .inl ⟨hlo, hi⟩
  · refine .inr ⟨not_le.1 hlo, last, hlast, by_contra fun hlost => ?_⟩
    have hmem := slot_mem_records hlast.1 hlast.2.1
    have hnew : fs.tableAt src.parentClusterNumber last ≠ e.rename key := fun heq =>
      hlost (eq_of_first h hS he hS hmem (by rw [heq]; rfl)).2
    obtain ⟨j, hj, hslot, hlive⟩ := (hp.others _ (.inl rfl) _ hlost hnew).2 hmem
    rw [hm.table, if_neg fun hb => hne ((FileSystem.blockAddress_inj (h.live_lt hS)
      (h.live_lt hT)).1 hb), if_pos rfl] at hslot
    have hjl := ne_last_of_live hlast DirectoryEntry.live_zero (hslot.symm ▸ hlive)
    have hji : j ≠ i := by
      rintro rfl
      exact hlo hj
    rw [swapRemove_of_ne hjl, if_neg hji] at hslot
    exact hjl (ht.keyInj j last hj hlast.1 (hslot.symm ▸ hlive) hlast.2.1 (by rw [hslot]))

end Necessary

/-- A `move` of a live entry that is not refused completes and moves the entry, in the whole tree,
exactly when the condition `CanMove` holds. -/
theorem move_moves_iff (h : fs.WellFormed) (hS : fs.LiveDir src.parentClusterNumber)
    (he : e ∈ fs.entries src.parentClusterNumber) (hkey : e.key = src.key)
    (hret : ∀ code fs', move src tar fs = .ok (code, fs') → code = 0) :
    (∃ fs', move src tar fs = .ok (0, fs') ∧
      MovedProperly fs fs' src.parentClusterNumber (moveTarget fs src tar).1 e
        (e.rename (moveTarget fs src tar).2)) ↔ CanMove fs src tar e := by
  have hsound := h.sound
  have ht := h.table hS
  obtain ⟨i, T, k, key, hs⟩ := exists_selected ht.self he hkey hret
  have htarget := moveTarget_eq hs.target
  rw [htarget]
  refine ⟨?_, fun hc => hc.movedProperly hsound hS he hs⟩
  rintro ⟨fs', hrun, hp⟩
  obtain ⟨t, hm⟩ := hs.moved ht.self hrun
  have hi := hp.source_eq hsound hS he hs hm hkey
  have hT := hp.target_live hsound hS he hm hi
  have hne := hp.target_ne he hs hm hi
  have hloses := hp.loses hsound hS he hs hm hi hT hne
  refine ⟨fun hfull => ?_, ⟨i, hs.source, hi, hloses⟩, ?_, ?_, ?_⟩
  · have hremoved := hm.removed
    rw [removeEntry_full hfull] at hremoved
    cases hremoved
  · rw [htarget]
    exact hT
  · rw [htarget]
    exact hne
  · rw [htarget]
    intro hf hin
    obtain ⟨k', _, hone⟩ := hp.one
    rw [hi] at hm
    rw [← hi] at hm hloses hf hin he
    exact (hm.relinks hsound.live_lt ht hS hT hne (targetSlot_freeSlot hs.target) (records_live he)
      hloses rfl rfl).target_lost hsound.volume.folderTree hf hin ((hone T k').2 ⟨rfl, rfl⟩).parent

end

/-! ## A folder in a folder -/

/-- The root directory holds the folder `a`, named `AAAAAAAA`, and `a` the folder `b`, named
`BBBBBBBB`; there is nothing else. -/
structure NestedFolders (fs : FileSystem) (a b : DirectoryEntry) : Prop where
  reachable : Reachable fs
  root : fs.tableAt rootClusterNumber =
    Function.update (blankFileSystem.tableAt rootClusterNumber) 2 a
  outer : ∃ nextFree, fs.tableAt a.cluster = Function.update
    (newFolderTable (sampleRequest 'A' rootClusterNumber 0).name rootClusterNumber nextFree) 2 b
  inner : ∃ nextFree, fs.tableAt b.cluster =
    newFolderTable (sampleRequest 'B' a.cluster 0).name a.cluster nextFree
  memOuter : a ∈ fs.entries rootClusterNumber
  memInner : b ∈ fs.entries a.cluster
  keyOuter : a.key = (sampleRequest 'A' rootClusterNumber 0).key
  keyInner : b.key = (sampleRequest 'B' a.cluster 0).key
  folderOuter : a.isSubdirectory = true
  folderInner : b.isSubdirectory = true

/-- Two `write` requests on a blank disk make a folder in a folder. -/
theorem exists_nestedFolders : ∃ (fs₁ fs : FileSystem) (a b : DirectoryEntry),
    write (fun _ => 0) (sampleRequest 'A' rootClusterNumber 0) blankFileSystem = .ok (0, fs₁) ∧
    write (fun _ => 0) (sampleRequest 'B' a.cluster 0) fs₁ = .ok (0, fs) ∧
    NestedFolders fs a b := by
  have hblank : Reachable blankFileSystem := .create _ _ _
  obtain ⟨c, l, fs₁, hrun, hw⟩ := write_blank (fun _ => 0)
    (sampleRequest 'A' rootClusterNumber 0) rfl (by decide)
  obtain ⟨nextFree, htable⟩ := hw.folder rfl
  have hr₁ : Reachable fs₁ :=
    .step hblank (Request.permitted_of_accepts (fun _ => 0) hw.toAccepts (by decide)) hrun
  have hwf₁ := hr₁.inOrder.sound
  have hroom : 3 ≤ (freeClusters blankFileSystem.clusterMap).length :=
    le_trans (by decide) length_freeClusters_createFat32
  have hb : fs₁.Accepts (sampleRequest 'B' c 0) :=
    hw.accepts_folder hblank.inOrder.sound rfl rfl hroom
  obtain ⟨j, d, l', fs, hrun', hw'⟩ := write_spec (fun _ => 0) hwf₁ hb
  obtain rfl : j = 2 := hw'.slot.eq_of_unused rfl (by
    show (fs₁.tableAt c 2).live = false
    rw [htable, newFolderTable_slot (by decide)]
    rfl)
  obtain ⟨nextFree', htable'⟩ := hw'.folder rfl
  have hne : rootClusterNumber ≠ c :=
    (mem_freeClusters.1 (hw.fresh c List.mem_cons_self)).1.ne_root.symm
  have hroot : fs.tableAt rootClusterNumber = fs₁.tableAt rootClusterNumber :=
    hw'.tableAt_of_ne hwf₁ .root hne
  have hmem : createdEntry (sampleRequest 'A' rootClusterNumber 0) c ∈
      fs.entries rootClusterNumber := by
    rw [FileSystem.entries_congr hroot]
    exact hw.mem_entries
  have hmem' : createdEntry (sampleRequest 'B' c 0) d ∈ fs.entries c := hw'.mem_entries
  have hfirst : (createdEntry (sampleRequest 'A' rootClusterNumber 0) c).cluster = c :=
    createdEntry_cluster
  have hfirst' : (createdEntry (sampleRequest 'B' c 0) d).cluster = d := createdEntry_cluster
  refine ⟨fs₁, fs, createdEntry (sampleRequest 'A' rootClusterNumber 0) c,
    createdEntry (sampleRequest 'B' c 0) d, hrun, ?_, ?_⟩
  · rw [hfirst]
    exact hrun'
  · have hname : (sampleRequest 'B' 0 0).name ≠ Vector.replicate 8 0 := by decide
    refine ⟨.step hr₁ (Request.permitted_of_accepts (fun _ => 0) hb hname) hrun',
      hroot.trans hw.table, ⟨nextFree, ?_⟩, ⟨nextFree', ?_⟩, hmem, ?_, rfl, ?_,
      createdEntry_isSubdirectory.2 rfl, createdEntry_isSubdirectory.2 rfl⟩
    · rw [hfirst]
      have htab : fs.tableAt c = _ := hw'.table
      rw [htab, show fs₁.tableAt (sampleRequest 'B' c 0).parentClusterNumber = _ from htable]
      rfl
    · rw [hfirst, hfirst']
      exact htable'
    · rw [hfirst]
      exact hmem'
    · rw [hfirst]
      rfl

namespace NestedFolders

variable {fs : FileSystem} {a b : DirectoryEntry}

theorem inOrder (h : NestedFolders fs a b) : fs.InOrder := h.reachable.inOrder

theorem liveOuter (h : NestedFolders fs a b) : fs.LiveDir a.cluster :=
  Volume.Live.root.tail h.memOuter h.folderOuter

theorem liveInner (h : NestedFolders fs a b) : fs.LiveDir b.cluster :=
  h.liveOuter.tail h.memInner h.folderInner

/-- The source search for `a` in the root directory finds its slot. -/
theorem find_outer (h : NestedFolders fs a b) :
    findFrom 0 (fun i => (fs.tableAt rootClusterNumber i).hasKey
      (sampleRequest 'A' rootClusterNumber 0).key) = some 2 := by
  refine findFrom_eq_some.2 ⟨by decide, ?_, fun j hj _ => ?_⟩
  · rw [h.root, Function.update_self, DirectoryEntry.hasKey_iff, h.keyOuter]
  · rw [h.root, Function.update_of_ne (ne_of_lt hj), blankFileSystem, createFat32,
      FileSystem.tableAt_writeClusters]
    have hcases : ∀ j : Fin 64, j < 2 → j = 0 ∨ j = 1 := by decide
    rcases hcases j hj with rfl | rfl
    · decide
    · decide

/-- The source search for `b` in `a` finds its slot: `a` itself and the root directory have other
names. -/
theorem find_inner (h : NestedFolders fs a b) :
    findFrom 0 (fun i => (fs.tableAt a.cluster i).hasKey (sampleRequest 'B' a.cluster 0).key) =
      some 2 := by
  obtain ⟨nextFree, houter⟩ := h.outer
  refine findFrom_eq_some.2 ⟨by decide, ?_, fun j hj _ => ?_⟩
  · rw [houter, Function.update_self, DirectoryEntry.hasKey_iff, h.keyInner]
  · rw [houter, Function.update_of_ne (ne_of_lt hj), DirectoryEntry.hasKey_eq_false]
    match j, hj with
    | 0, _ =>
      have hne : (sampleRequest 'A' 0 0).name ≠ (sampleRequest 'B' 0 0).name := by decide
      rw [newFolderTable_zero]
      exact fun he => hne (congrArg Prod.fst he)
    | 1, _ =>
      have hne : dotdotName ≠ (sampleRequest 'B' 0 0).name := by decide
      rw [newFolderTable_one]
      exact fun he => hne (congrArg Prod.fst he)

/-- A new name in the root directory gets slot 3. -/
theorem target_root (h : NestedFolders fs a b) {src : DriverRequest} :
    targetSlot fs src (sampleRequest 'C' rootClusterNumber 0) =
      some (rootClusterNumber, 3, (sampleRequest 'C' rootClusterNumber 0).key) := by
  have hfind : findFrom 2 (fun i => !(fs.tableAt rootClusterNumber i).live ||
      (fs.tableAt rootClusterNumber i).hasKey (sampleRequest 'C' rootClusterNumber 0).key) =
        some 3 := by
    refine findFrom_eq_some.2 ⟨by decide, ?_, fun j hj hlo => ?_⟩
    · rw [h.root, Function.update_of_ne (by decide), blankFileSystem,
        tableAt_createFat32 3 (by decide)]
      rfl
    · have hj2 : j = 2 := le_antisymm (Fin.le_def.2 (by have := Fin.lt_def.1 hj; omega))
        (Fin.le_def.2 hlo)
      rw [hj2, h.root, Function.update_self, records_live h.memOuter]
      have hkey : a.key ≠ (sampleRequest 'C' rootClusterNumber 0).key := by
        rw [h.keyOuter]
        decide
      simp [hkey]
  have hdead : (fs.tableAt rootClusterNumber 3).live = false := by
    rw [h.root, Function.update_of_ne (by decide), blankFileSystem,
      tableAt_createFat32 3 (by decide)]
    rfl
  have hsearch : searchTarget (fs.tableAt rootClusterNumber)
      (sampleRequest 'C' rootClusterNumber 0).key = .slot 3 := by
    rw [searchTarget, hfind]
    simp only [hdead, Bool.false_eq_true, ↓reduceIte]
  rw [targetSlot]
  simp only [sampleRequest] at hsearch ⊢
  rw [hsearch]

/-- The folder `b` can move to the root directory. -/
theorem selected_inner (h : NestedFolders fs a b) :
    Selected fs (sampleRequest 'B' a.cluster 0) (sampleRequest 'C' rootClusterNumber 0) 2
      rootClusterNumber 3 (sampleRequest 'C' rootClusterNumber 0).key where
  source := h.find_inner
  target := h.target_root
  ne := by
    obtain ⟨nextFree, houter⟩ := h.outer
    show (fs.tableAt a.cluster 2).cluster ≠ rootClusterNumber
    rw [houter, Function.update_self]
    exact h.inOrder.sound.volume.folderTree.root h.liveOuter h.memInner h.folderInner

/-- The folder `a` can be renamed in the root directory. -/
theorem selected_outer (h : NestedFolders fs a b) :
    Selected fs (sampleRequest 'A' rootClusterNumber 0) (sampleRequest 'C' rootClusterNumber 0) 2
      rootClusterNumber 3 (sampleRequest 'C' rootClusterNumber 0).key where
  source := h.find_outer
  target := h.target_root
  ne := by
    show (fs.tableAt rootClusterNumber 2).cluster ≠ rootClusterNumber
    rw [h.root, Function.update_self]
    exact h.inOrder.sound.volume.folderTree.root .root h.memOuter h.folderOuter

/-- The directory `a` is not full. -/
theorem notFull_outer (h : NestedFolders fs a b) : ¬ fs.Full a.cluster := by
  obtain ⟨nextFree, houter⟩ := h.outer
  intro hfull
  have hlive := hfull 3 (by decide)
  rw [houter, Function.update_of_ne (by decide), newFolderTable_slot (by decide)] at hlive
  cases hlive

/-- The root directory is not full. -/
theorem notFull_root (h : NestedFolders fs a b) : ¬ fs.Full rootClusterNumber := by
  intro hfull
  have hlive := hfull 3 (by decide)
  rw [h.root, Function.update_of_ne (by decide), blankFileSystem,
    tableAt_createFat32 3 (by decide)] at hlive
  cases hlive

end NestedFolders

/-- Moving a folder up into the root directory moves it. -/
theorem move_moves_up : ∃ (fs₁ fs fs' : FileSystem) (a b : DirectoryEntry),
    write (fun _ => 0) (sampleRequest 'A' rootClusterNumber 0) blankFileSystem = .ok (0, fs₁) ∧
    write (fun _ => 0) (sampleRequest 'B' a.cluster 0) fs₁ = .ok (0, fs) ∧
    b ∈ fs.entries a.cluster ∧
    move (sampleRequest 'B' a.cluster 0) (sampleRequest 'C' rootClusterNumber 0) fs = .ok (0, fs') ∧
    MovedProperly fs fs' a.cluster rootClusterNumber b
      (b.rename (sampleRequest 'C' rootClusterNumber 0).key) := by
  obtain ⟨fs₁, fs, a, b, hrun₁, hrun₂, h⟩ := exists_nestedFolders
  have hwf := h.inOrder.toWellFormed
  have hs := h.selected_inner
  have ht := hwf.table h.liveOuter
  obtain ⟨nextFree, houter⟩ := h.outer
  obtain ⟨u, hu⟩ := FileSystem.exists_firstUnused h.notFull_outer
  obtain ⟨last, _, hremove⟩ := ht.removeEntry hu h.memInner
  obtain ⟨fs'', hmove, _⟩ := hs.exists_moved ht.self (hremove 2)
  have hlive : fs.LiveDir (sampleRequest 'B' a.cluster 0).parentClusterNumber := h.liveOuter
  have hmem : b ∈ fs.entries (sampleRequest 'B' a.cluster 0).parentClusterNumber := h.memInner
  have hret : ∀ code fs', move (sampleRequest 'B' a.cluster 0)
      (sampleRequest 'C' rootClusterNumber 0) fs = .ok (code, fs') → code = 0 := by
    intro code fs' hrun
    rw [hmove] at hrun
    cases hrun
    rfl
  have htarget := moveTarget_eq hs.target
  have htree := hwf.sound.volume.folderTree
  have hcan : CanMove fs (sampleRequest 'B' a.cluster 0) (sampleRequest 'C' rootClusterNumber 0)
      b := by
    have hslot : fs.tableAt a.cluster 2 = b := by rw [houter, Function.update_self]
    refine ⟨h.notFull_outer, ⟨2, h.find_inner, hslot, .inl ⟨by decide, hslot⟩⟩, ?_, ?_, ?_⟩
    · rw [htarget]
      exact .root
    · rw [htarget]
      exact htree.root .root h.memOuter h.folderOuter
    · rw [htarget]
      intro hf hin
      exact htree.root h.liveOuter h.memInner hf (htree.isTree.antisymm h.liveInner hin h.liveInner)
  obtain ⟨fs', hrun, hp⟩ := (move_moves_iff hwf hlive hmem h.keyInner hret).2 hcan
  rw [htarget] at hp
  exact ⟨fs₁, fs, fs', a, b, hrun₁, hrun₂, h.memInner, hrun, hp⟩

/-- A renamed folder stays under its old name too. -/
theorem move_not_renames : ∃ (fs₁ fs fs' : FileSystem) (a b : DirectoryEntry),
    write (fun _ => 0) (sampleRequest 'A' rootClusterNumber 0) blankFileSystem = .ok (0, fs₁) ∧
    write (fun _ => 0) (sampleRequest 'B' a.cluster 0) fs₁ = .ok (0, fs) ∧
    fs.WellFormed ∧ fs.LiveDir rootClusterNumber ∧ a ∈ fs.entries rootClusterNumber ∧
    b ∈ fs.entries a.cluster ∧
    move (sampleRequest 'A' rootClusterNumber 0) (sampleRequest 'C' rootClusterNumber 0) fs =
      .ok (0, fs') ∧
    ¬ MovedProperly fs fs' rootClusterNumber rootClusterNumber a
      (a.rename (sampleRequest 'C' rootClusterNumber 0).key) := by
  obtain ⟨fs₁, fs, a, b, hrun₁, hrun₂, h⟩ := exists_nestedFolders
  have hs := h.selected_outer
  have ht : TableOk (fs.tableAt rootClusterNumber) := h.inOrder.table .root
  have hmem : a ∈ fs.entries (sampleRequest 'A' rootClusterNumber 0).parentClusterNumber :=
    h.memOuter
  obtain ⟨u, hu⟩ := FileSystem.exists_firstUnused h.notFull_root
  obtain ⟨last, _, hremove⟩ := ht.removeEntry hu h.memOuter
  obtain ⟨fs', hmove, hm⟩ := hs.exists_moved ht.self (hremove 2)
  refine ⟨fs₁, fs, fs', a, b, hrun₁, hrun₂, h.inOrder.toWellFormed, .root, h.memOuter, h.memInner,
    hmove, fun hp => ?_⟩
  have hi : fs.tableAt (sampleRequest 'A' rootClusterNumber 0).parentClusterNumber 2 = a := by
    show fs.tableAt rootClusterNumber 2 = a
    rw [h.root, Function.update_self]
  exact MovedProperly.target_ne hmem hs hm hp hi rfl

end OsKernel
