import OsKernel.Fat32.MoveRuns
import OsKernel.Fat32.Restart

/-!
# What a removal leaves

`delete`, `delete_all` and `move` take an entry out of its directory in the same way: the last entry
goes to its slot, and the last slot is cleared. In a directory with an unused slot the other entries
stay as they are (`OthersKept`). In a full one `get_dir_last_index` returns `-1`, and 255 is used as
an index (`removals_clean_iff`). What `delete_all` changes outside the directory belongs to the
removed entry (`deleteAll_frame`).
-/

namespace OsKernel

open Lib Relation

/-! ## `delete_all` -/

section DeleteAll
variable {fs fs' : FileSystem} {request : DriverRequest} {e : DirectoryEntry} {d x : UInt32}

/-- With enough levels `delete_all` of an entry gets to the removal from the parent's table. -/
theorem deleteAll_run (h : fs.Sound) (hp : fs.LiveDir request.parentClusterNumber)
    (he : e ∈ fs.entries request.parentClusterNumber) (hkey : e.key = request.key) :
    ∃ bound, ∀ steps ≥ bound, ∃ i disk,
      deleteAll steps request fs = (do
        let table ← removeEntry (fs.tableAt request.parentClusterNumber) i
        .ok (0, ({ clusterMap := fs.clusterMap.store e.cluster fatEmptyEntry
                   dirTableBuf := table
                   disk := disk } : FileSystem).flush request.parentClusterNumber)) := by
  have ht := h.table hp
  obtain ⟨i, hfind, hi, rfl⟩ := ht.find he hkey
  have hfirst : (fs.tableAt request.parentClusterNumber i).cluster.toNat < 512 :=
    (h.volume.data (h.volume.first_owned hp he)).2
  -- the folder below is cleared, and a file in one step
  have hclear : ∃ bound, ∀ steps ≥ bound, ∃ disk,
      (if (fs.tableAt request.parentClusterNumber i).isSubdirectory then
        deleteAllFolder steps (fs.tableAt request.parentClusterNumber i).cluster fs.disk
      else .ok (deleteAllFile (fs.tableAt request.parentClusterNumber i).cluster fs.disk)) =
        .ok disk := by
    cases hf : (fs.tableAt request.parentClusterNumber i).isSubdirectory with
    | true => exact deleteAllFolder_ends h.volume.folderTree (hp.tail he hf)
    | false => exact ⟨0, fun steps _ => ⟨_, rfl⟩⟩
  obtain ⟨bound, hclear⟩ := hclear
  refine ⟨bound, fun steps hsteps => ?_⟩
  obtain ⟨disk, hdisk⟩ := hclear steps hsteps
  refine ⟨i, disk, ?_⟩
  rw [deleteAll]
  simp only [FileSystem.dirTableBuf_readDirTableBuf, ht.self, hfind,
    FileSystem.clusterMap_readDirTableBuf, FileSystem.disk_readDirTableBuf,
    ClusterMap.set_eq hfirst, ok_bind, pure_eq_ok, Bool.not_true, Bool.false_eq_true, ↓reduceIte]
  split
  · next hf =>
    rw [if_pos hf] at hdisk
    rw [hdisk]
    rfl
  · next hf =>
    rw [if_neg hf] at hdisk
    cases hdisk
    rfl

/-- `delete_all` removes a live entry from a directory that is not full. -/
theorem deleteAll_completes (h : fs.Sound) (hp : fs.LiveDir request.parentClusterNumber)
    (hnf : ¬ fs.Full request.parentClusterNumber)
    (he : e ∈ fs.entries request.parentClusterNumber) (hkey : e.key = request.key) :
    ∃ bound, ∀ steps ≥ bound, ∃ fs', deleteAll steps request fs = .ok (0, fs') ∧
      DeletedAll request fs e fs' := by
  obtain ⟨u, hu⟩ := FileSystem.exists_firstUnused hnf
  obtain ⟨last, -, hremove⟩ := (h.table hp).removeEntry hu he
  obtain ⟨bound, hrun⟩ := deleteAll_run h hp he hkey
  refine ⟨bound, fun steps hsteps => ?_⟩
  obtain ⟨i, disk, hrun⟩ := hrun steps hsteps
  rw [hremove i, ok_bind] at hrun
  exact ⟨_, hrun, (deleteAll_spec h hp he hkey hrun).2⟩

/-- From a full directory `delete_all` removes nothing. -/
theorem deleteAll_full (h : fs.Sound) (hp : fs.LiveDir request.parentClusterNumber)
    (hfull : fs.Full request.parentClusterNumber)
    (he : e ∈ fs.entries request.parentClusterNumber) (hkey : e.key = request.key) :
    ∃ bound, ∀ steps ≥ bound, deleteAll steps request fs = .error (.dirTableIndex 255) := by
  obtain ⟨bound, hrun⟩ := deleteAll_run h hp he hkey
  refine ⟨bound, fun steps hsteps => ?_⟩
  obtain ⟨i, disk, hrun⟩ := hrun steps hsteps
  rw [hrun, removeEntry_full hfull]
  rfl

/-- What `delete_all_folder` clears belongs to the removed folder. -/
theorem Clears.belongsTo (h : fs.Sound) (hd : fs.LiveDir d) (he : e ∈ fs.entries d)
    (hf : e.isSubdirectory = true) (hx : Clears fs e.cluster x) : BelongsTo fs e x := by
  rcases hx with rfl | ⟨b, y, hreach, hy, rfl⟩
  · obtain ⟨l, hl, -, -⟩ := h.chain hd he
    exact .own hl hl.head_mem
  · generalize hc : e.cluster = c at hreach
    induction hreach using ReflTransGen.head_induction_on generalizing e d with
    | refl =>
      obtain ⟨l, hl, -, -⟩ := h.chain (hc ▸ hd.tail he hf) hy
      exact .inside hf (hc ▸ hy) (.own hl hl.head_mem)
    | head hedge hrest ih =>
      obtain ⟨z, hz, hzf, hzc⟩ := hedge
      subst hc
      exact .inside hf hz (ih (hd.tail he hf) hz hzf hzc)

/-- `delete_all` of a live entry of a directory that is not full ends and returns 0. The cells and
the clusters that it changes, those of the directory and of the allocation table apart, belong to
the entry, and the directory keeps its other entries. -/
theorem deleteAll_frame (h : fs.WellFormed) (hp : fs.LiveDir request.parentClusterNumber)
    (hnf : ¬ fs.Full request.parentClusterNumber)
    (he : e ∈ fs.entries request.parentClusterNumber) (hkey : e.key = request.key) :
    ∃ bound, ∀ steps ≥ bound, ∃ fs', deleteAll steps request fs = .ok (0, fs') ∧
      (∀ c, ¬ BelongsTo fs e c → fs'.clusterMap.next c = fs.clusterMap.next c) ∧
      (∀ d : UInt32, d.toNat < 512 → d ≠ request.parentClusterNumber → d ≠ fatClusterNumber →
        ¬ BelongsTo fs e d → fs'.clusterAt d = fs.clusterAt d) ∧
      fs'.entries request.parentClusterNumber =
        fs.entries request.parentClusterNumber \ {e} := by
  obtain ⟨l, hl, -, -⟩ := h.sound.chain hp he
  have hown : BelongsTo fs e e.cluster := .own hl hl.head_mem
  obtain ⟨bound, hrun⟩ := deleteAll_completes h.sound hp hnf he hkey
  refine ⟨bound, fun steps hsteps => ?_⟩
  obtain ⟨fs', hrun, hw⟩ := hrun steps hsteps
  refine ⟨fs', hrun, fun c hc => ?_, fun d hd hdp hdf hout => ?_, (hw.prunes h.sound).records⟩
  · have hne : c ≠ e.cluster := fun heq => hc (heq ▸ hown)
    rw [hw.next, Function.update_of_ne hne]
  · refine hw.other d hd hdp hdf (fun heq => hout (heq ▸ hown)) fun hf hclears => ?_
    exact hout (hclears.belongsTo h.sound hp he hf)

end DeleteAll

/-- `delete_all` removes a folder with a folder in it. -/
theorem deleteAll_frame_nested : ∃ (fs₁ fs fs' : FileSystem) (a b : DirectoryEntry) (steps : Nat),
    write (fun _ => 0) (sampleRequest 'A' rootClusterNumber 0) blankFileSystem = .ok (0, fs₁) ∧
    write (fun _ => 0) (sampleRequest 'B' a.cluster 0) fs₁ = .ok (0, fs) ∧
    BelongsTo fs a b.cluster ∧
    deleteAll steps (sampleRequest 'A' rootClusterNumber 0) fs = .ok (0, fs') ∧
    fs'.entries rootClusterNumber = fs.entries rootClusterNumber \ {a} := by
  obtain ⟨fs₁, fs, a, b, hrun₁, hrun₂, h⟩ := exists_nestedFolders
  obtain ⟨l, hl, -, -⟩ := h.inOrder.sound.chain h.liveOuter h.memInner
  obtain ⟨bound, hrun⟩ := @deleteAll_frame fs (sampleRequest 'A' rootClusterNumber 0) a
    h.inOrder.toWellFormed .root h.notFull_root h.memOuter h.keyOuter
  obtain ⟨fs', hdelete, -, -, hentries⟩ := hrun bound le_rfl
  exact ⟨fs₁, fs, fs', a, b, bound, hrun₁, hrun₂,
    .inside h.folderOuter h.memInner (.own hl hl.head_mem), hdelete, hentries⟩

/-! ## The directory afterwards -/

/-- The directory at `p` holds the other entries as they were, in the first slots from 2 on, each of
them once, and zero bytes behind them. -/
structure OthersKept (fs fs' : FileSystem) (p : UInt32) (e : DirectoryEntry) : Prop where
  entries : fs'.entries p = fs.entries p \ {e}
  packed : Packed 2 DirectoryEntry.live (fs'.tableAt p)
  keyInj : KeyInj 2 DirectoryEntry.live DirectoryEntry.key (fs'.tableAt p)
  clean : ∀ i : Fin 64, 2 ≤ i.val → (fs'.tableAt p i).live = false → fs'.tableAt p i = .zero

/-- No index outside of the table is used, and an operation that returns 0 has removed the entry and
nothing else from the directory. -/
def RemovesCleanly (x : Except Fault (Int8 × FileSystem)) (fs : FileSystem) (p : UInt32)
    (e : DirectoryEntry) : Prop :=
  (∀ n, x ≠ .error (.dirTableIndex n)) ∧ ∀ fs', x = .ok (0, fs') → OthersKept fs fs' p e

/-- `e` is the last entry of the table. -/
def IsLastEntry (t : DirectoryTable) (e : DirectoryEntry) : Prop :=
  ∃ last, IsLastLive 2 DirectoryEntry.live t last ∧ t last = e

section Removal
variable {fs fs' : FileSystem} {request src tar : DriverRequest} {p T : UInt32}
  {e : DirectoryEntry} {i k last : Fin 64} {key : Vector UInt8 8 × Vector UInt8 3}

/-- Removing the slot of the entry keeps the others. -/
theorem OthersKept.of_slots (ht : TableOk (fs.tableAt p))
    (hclean : ∀ j : Fin 64, 2 ≤ j.val → (fs.tableAt p j).live = false → fs.tableAt p j = .zero)
    (hi : 2 ≤ i.val) (hlive : (fs.tableAt p i).live = true)
    (hlast : IsLastLive 2 DirectoryEntry.live (fs.tableAt p) last)
    (hslots : ∀ j : Fin 64, 2 ≤ j.val →
      fs'.tableAt p j = swapRemove (fs.tableAt p) i last .zero j) :
    OthersKept fs fs' p (fs.tableAt p i) where
  entries := by
    have hrecords := records_swapRemove hlast DirectoryEntry.live_zero ht.keyInj hi hlive
    exact (records_congr hslots).trans hrecords
  packed a b ha hab hb := by
    have hpacked := ht.packed.swapRemove hlast DirectoryEntry.live_zero hlive
    rw [hslots b (ha.trans hab)] at hb
    rw [hslots a ha]
    exact hpacked a b ha hab hb
  keyInj a b ha hb hla hlb hkey := by
    have hinj := ht.keyInj.swapRemove (i := i) hlast DirectoryEntry.live_zero
    rw [hslots a ha] at hla hkey
    rw [hslots b hb] at hlb hkey
    exact hinj a b ha hb hla hlb hkey
  clean j hj hdead := by
    rw [hslots j hj] at hdead ⊢
    exact clean_swapRemove hlast hclean hj hdead

/-- What removes a slot from a directory in order. The slots before 2 do not count as entries: to
remove one of them is to remove the last entry. -/
theorem removed_kept_iff (ht : TableOk (fs.tableAt p)) (he : e ∈ fs.entries p)
    (hclean : ∀ j : Fin 64, 2 ≤ j.val → (fs.tableAt p j).live = false → fs.tableAt p j = .zero)
    (hlast : IsLastLive 2 DirectoryEntry.live (fs.tableAt p) last)
    (hi : 2 ≤ i.val → fs.tableAt p i = e)
    (htable : fs'.tableAt p = swapRemove (fs.tableAt p) i last .zero) :
    OthersKept fs fs' p e ↔ 2 ≤ i.val ∨ IsLastEntry (fs.tableAt p) e := by
  rcases Nat.lt_or_ge i.val 2 with hlt | hge
  · have hslots : ∀ j : Fin 64, 2 ≤ j.val →
        fs'.tableAt p j = swapRemove (fs.tableAt p) last last .zero j := by
      intro j hj
      rw [htable]
      exact swapRemove_of_lt hlt hj
    have hkept := OthersKept.of_slots ht hclean hlast.1 hlast.2.1 hlast hslots
    rw [or_iff_right (not_le.2 hlt)]
    constructor
    · intro hothers
      refine ⟨last, hlast, ?_⟩
      -- the entry is gone, and it is the last one that is gone
      have hgone : e ∉ fs'.entries p := by
        rw [hothers.entries]
        exact fun hmem => hmem.2 rfl
      rw [hkept.entries] at hgone
      exact (not_not.1 fun hne => hgone ⟨he, hne⟩).symm
    · rintro ⟨last', hlast', rfl⟩
      rw [← hlast.unique hlast']
      exact hkept
  · refine iff_of_true ?_ (.inl hge)
    have hlive : (fs.tableAt p i).live = true := hi hge ▸ records_live he
    exact hi hge ▸ OthersKept.of_slots ht hclean hge hlive hlast fun j _ => by rw [htable]

/-- An operation that faults at the index of a full table does not remove cleanly. -/
theorem not_removesCleanly {n : Int} : ¬ RemovesCleanly (.error (.dirTableIndex n)) fs p e :=
  fun h => h.1 n rfl

theorem removesCleanly_ok : RemovesCleanly (.ok (0, fs')) fs p e ↔ OthersKept fs fs' p e := by
  constructor
  · exact fun h => h.2 fs' rfl
  · intro h
    refine ⟨(fun n hn => nomatch hn), fun fs'' heq => ?_⟩
    cases heq
    exact h

/-- The source that `move` finds is the entry, unless one of the first two slots has its name. -/
theorem Selected.source_eq (hs : Selected fs src tar i T k key)
    (ht : TableOk (fs.tableAt src.parentClusterNumber))
    (he : e ∈ fs.entries src.parentClusterNumber) (hkey : e.key = src.key) :
    (2 ≤ i.val → fs.tableAt src.parentClusterNumber i = e) ∧
    (2 ≤ i.val ↔ ∀ j : Fin 64, j.val < 2 → (fs.tableAt src.parentClusterNumber j).key ≠ e.key) := by
  obtain ⟨-, hmatch, hbefore⟩ := findFrom_eq_some.1 hs.source
  have hikey := hs.key_eq
  obtain ⟨j, hj, rfl, hlive⟩ := he
  have hij : i ≤ j := by
    by_contra hlt
    have := hbefore j (not_le.1 hlt) (Nat.zero_le _)
    simp [hkey] at this
  refine ⟨fun hi => ?_, fun hi j' hj' heq => ?_, fun hnone => ?_⟩
  · have hi' := ht.packed i j hi hij hlive
    rw [ht.keyInj i j hi hj hi' hlive (hikey.trans hkey.symm)]
  · have := hbefore j' (Fin.lt_def.2 (hj'.trans_le hi)) (Nat.zero_le _)
    simp [heq, hkey] at this
  · by_contra hlt
    exact hnone i (not_le.1 hlt) (hikey.trans hkey.symm)

/-- `move` out of a directory removes cleanly exactly when the directory is not full and what leaves
the entries is the source. -/
theorem move_clean_iff (h : fs.Sound) (hp : fs.LiveDir src.parentClusterNumber)
    (hclean : ∀ j : Fin 64, 2 ≤ j.val → (fs.tableAt src.parentClusterNumber j).live = false →
      fs.tableAt src.parentClusterNumber j = .zero)
    (he : e ∈ fs.entries src.parentClusterNumber) (hkey : e.key = src.key)
    (htar : fs.LiveDir tar.parentClusterNumber) (hs : Selected fs src tar i T k key)
    (hne : T ≠ src.parentClusterNumber) :
    RemovesCleanly (move src tar fs) fs src.parentClusterNumber e ↔
      ¬ fs.Full src.parentClusterNumber ∧
        ((∀ j : Fin 64, j.val < 2 → (fs.tableAt src.parentClusterNumber j).key ≠ e.key) ∨
          IsLastEntry (fs.tableAt src.parentClusterNumber) e) := by
  have ht := h.table hp
  have hT : fs.LiveDir T := by
    rcases targetSlot_cases hs.target with ⟨rfl, -⟩ | ⟨-, x, hx, -, hf, rfl⟩
    · exact htar
    · exact htar.tail hx hf
  obtain ⟨hslot, hheader⟩ := hs.source_eq ht he hkey
  by_cases hfull : fs.Full src.parentClusterNumber
  · have hrun : move src tar fs = .error (.dirTableIndex 255) :=
      (hs.move_eq ht.self).trans (moveEntry_error rfl (removeEntry_full hfull))
    rw [hrun]
    exact iff_of_false not_removesCleanly fun hcond => hcond.1 hfull
  · obtain ⟨u, hu⟩ := FileSystem.exists_firstUnused hfull
    obtain ⟨last, hlast, hremove⟩ := ht.removeEntry hu he
    obtain ⟨fs', hrun, hm⟩ := hs.exists_moved ht.self (hremove i)
    -- the target's table is stored last, but to another cluster
    have htable : fs'.tableAt src.parentClusterNumber =
        swapRemove (fs.tableAt src.parentClusterNumber) i last .zero := by
      rw [hm.table, if_neg (FileSystem.blockAddress_ne (h.live_lt hT) (h.live_lt hp) hne.symm),
        if_pos rfl]
    rw [hrun, removesCleanly_ok, and_iff_right hfull, ← hheader]
    exact removed_kept_iff ht he hclean hlast hslot htable

/-- An entry that can be removed leaves the others as they are exactly when the directory has an
unused slot and, for `move`, neither of the first two slots carries its name or it is the last one.
In a full directory index 255 of the table is used. -/
theorem removals_clean_iff (h : fs.Sound) (hp : fs.LiveDir p)
    (hclean : ∀ j : Fin 64, 2 ≤ j.val → (fs.tableAt p j).live = false → fs.tableAt p j = .zero)
    (he : e ∈ fs.entries p) :
    (∀ request, request.parentClusterNumber = p → e.key = request.key →
      (e.isSubdirectory = true → fs.entries e.cluster = ∅) →
      (RemovesCleanly (delete request fs) fs p e ↔ ¬ fs.Full p)) ∧
    (∀ request, request.parentClusterNumber = p → e.key = request.key →
      ∃ bound, ∀ steps ≥ bound,
        (RemovesCleanly (deleteAll steps request fs) fs p e ↔ ¬ fs.Full p)) ∧
    ∀ src tar i T k key, src.parentClusterNumber = p → e.key = src.key →
      fs.LiveDir tar.parentClusterNumber → Selected fs src tar i T k key → T ≠ p →
      (RemovesCleanly (move src tar fs) fs p e ↔
        ¬ fs.Full p ∧ ((∀ j : Fin 64, j.val < 2 → (fs.tableAt p j).key ≠ e.key) ∨
          IsLastEntry (fs.tableAt p) e)) := by
  refine ⟨?_, ?_, ?_⟩
  · rintro request rfl hkey hempty
    by_cases hfull : fs.Full request.parentClusterNumber
    · rw [delete_full h hp hfull he hkey hempty]
      exact iff_of_false not_removesCleanly (not_not.2 hfull)
    · obtain ⟨l, fs', hrun, hw⟩ := delete_spec h hp hfull he hkey hempty
      obtain ⟨i, last, hi, rfl, hlast, htable⟩ := hw.table
      rw [hrun, removesCleanly_ok]
      refine iff_of_true ?_ hfull
      exact (removed_kept_iff (h.table hp) he hclean hlast (fun _ => rfl) htable).2 (.inl hi)
  · rintro request rfl hkey
    by_cases hfull : fs.Full request.parentClusterNumber
    · obtain ⟨bound, hrun⟩ := deleteAll_full h hp hfull he hkey
      refine ⟨bound, fun steps hsteps => ?_⟩
      rw [hrun steps hsteps]
      exact iff_of_false not_removesCleanly (not_not.2 hfull)
    · obtain ⟨bound, hruns⟩ := deleteAll_completes h hp hfull he hkey
      refine ⟨bound, fun steps hsteps => ?_⟩
      obtain ⟨fs', hrun, hw⟩ := hruns steps hsteps
      obtain ⟨i, last, hi, rfl, hlast, htable⟩ := hw.table
      rw [hrun, removesCleanly_ok]
      refine iff_of_true ?_ hfull
      exact (removed_kept_iff (h.table hp) he hclean hlast (fun _ => rfl) htable).2 (.inl hi)
  · rintro src tar i T k key rfl hkey htar hs hne
    exact move_clean_iff h hp hclean he hkey htar hs hne

end Removal

/-- The first of three files of the root directory is removed cleanly; the last one goes to its
slot. -/
theorem removals_clean_row : ∃ fs, Reachable fs ∧ (fs.tableAt 2 2).key = (rowRequest 0).key ∧
    fs.tableAt 2 3 ∈ fs.entries 2 ∧ fs.tableAt 2 4 ∈ fs.entries 2 ∧
    RemovesCleanly (delete (rowRequest 0) fs) fs 2 (fs.tableAt 2 2) ∧
    ∃ bound, ∀ steps ≥ bound,
      RemovesCleanly (deleteAll steps (rowRequest 0) fs) fs 2 (fs.tableAt 2 2) := by
  obtain ⟨fs, hreach, -, hlive, hrow⟩ := exists_row 3 (by decide)
  have hentry (i : Fin 64) (hlo : 2 ≤ i.val) (hi : i.val < 5) : fs.tableAt 2 i ∈ fs.entries 2 :=
    slot_mem_records hlo ((hlive i hlo).2 hi)
  have hnf : ¬ fs.Full 2 :=
    fun hfull => absurd ((hlive 5 (by decide)).1 (hfull 5 (by decide))) (by decide)
  obtain ⟨hkey, hfile⟩ := hrow 2 le_rfl (by decide)
  obtain ⟨hdelete, hdeleteAll, -⟩ := removals_clean_iff hreach.inOrder.sound .root
    (hreach.inOrder.clean .root) (hentry 2 le_rfl (by decide))
  obtain ⟨bound, hall⟩ := hdeleteAll (rowRequest 0) rfl hkey
  refine ⟨fs, hreach, hkey, hentry 3 (by decide) (by decide), hentry 4 (by decide) (by decide),
    (hdelete (rowRequest 0) rfl hkey fun hf => ?_).2 hnf, bound, fun steps hsteps =>
    (hall steps hsteps).2 hnf⟩
  rw [hfile] at hf
  cases hf

/-- The root directory holds 62 files, and the removal of one of them uses index 255. -/
theorem delete_full_faults : ∃ fs e, Reachable fs ∧ fs.LiveDir 2 ∧ fs.Full 2 ∧ e ∈ fs.entries 2 ∧
    e.key = (rowRequest 0).key ∧ e.isSubdirectory = false ∧
    delete (rowRequest 0) fs = .error (.dirTableIndex 255) ∧
    ¬ RemovesCleanly (delete (rowRequest 0) fs) fs 2 e := by
  obtain ⟨fs, hreach, -, hlive, hrow⟩ := exists_row 62 le_rfl
  have hfull : fs.Full 2 := fun i hi => (hlive i hi).2 (by omega)
  obtain ⟨hkey, hfile⟩ := hrow 2 le_rfl (by decide)
  have he : fs.tableAt 2 2 ∈ fs.entries 2 := slot_mem_records le_rfl (hfull 2 le_rfl)
  have hrun : delete (rowRequest 0) fs = .error (.dirTableIndex 255) := by
    refine delete_full hreach.inOrder.sound .root hfull he hkey fun hf => ?_
    rw [hfile] at hf
    cases hf
  refine ⟨fs, _, hreach, .root, hfull, he, hkey, hfile, hrun, ?_⟩
  rw [hrun]
  exact not_removesCleanly

end OsKernel
