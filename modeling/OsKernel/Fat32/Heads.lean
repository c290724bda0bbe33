import OsKernel.Fat32.Labels
import OsKernel.Fat32.NewFolder

/-!
# The first two slots

Every directory starts with two entries of folders, one for itself and one for its parent. The entry
of the root directory for its parent leads to the root directory, and an entry of a directory for
itself never carries the cluster 0, whatever else it carries. Runs of proper calls keep this
(`headed_run`).
-/

namespace OsKernel

open Lib Relation

/-- A labelled file system whose directories have folders in their first two slots. -/
structure FileSystem.Headed (fs : FileSystem) : Prop extends fs.Labelled where
  folder : ∀ {d}, fs.LiveDir d → ∀ j : Fin 64, j.val < 2 → (fs.tableAt d j).isSubdirectory = true
  rootUp : (fs.tableAt rootClusterNumber 1).cluster = rootClusterNumber
  own : ∀ {d}, fs.LiveDir d → (fs.tableAt d 0).cluster ≠ 0

section Heads
variable {fs fs' : FileSystem} {q : Request} {src tar : DriverRequest} {code : Int8}
  {mem : UInt32 → UInt8} {request : DriverRequest} {i k : Fin 64} {c S T : UInt32} {l : List UInt32}
  {key : Vector UInt8 8 × Vector UInt8 3} {t : DirectoryTable}

theorem folder_isSubdirectory (e : DirectoryEntry) (name : Vector UInt8 8) (c : UInt32) :
    (e.folder name c).isSubdirectory = true := rfl

theorem folder_cluster (e : DirectoryEntry) (name : Vector UInt8 8) (c : UInt32) :
    (e.folder name c).cluster = c :=
  DirectoryEntry.cluster_setCluster _ _

/-- Slots 0 and 1 are the ones below 2. -/
theorem slot_lt_two {j : Fin 64} (hj : j.val < 2) : j = 0 ∨ j = 1 := by
  omega

theorem headed_createFat32 {pad0 : Vector UInt8 6} {pad1 : Vector UInt8 5} {disk : Disk} :
    (createFat32 pad0 pad1 (.zeroed disk)).Headed := by
  have htable := fun j : Fin 64 => congrFun (show (createFat32 pad0 pad1 (.zeroed disk)).tableAt
    rootClusterNumber = _ by rw [createFat32, FileSystem.tableAt_writeClusters]) j
  refine ⟨labelled_createFat32, fun hd j hj => ?_, ?_, fun hd => ?_⟩
  · rw [live_createFat32 hd, htable]
    rcases slot_lt_two hj with rfl | rfl
    · rw [Function.update_of_ne (by decide), Function.update_self]
      exact folder_isSubdirectory ..
    · rw [Function.update_self]
      exact folder_isSubdirectory ..
  · rw [htable, Function.update_self]
    exact folder_cluster ..
  · rw [live_createFat32 hd, htable, Function.update_of_ne (by decide), Function.update_self,
      folder_cluster]
    decide

/-- A new folder has the first free cluster. -/
theorem Created.cluster_eq (hw : Created mem request fs i c l fs') (h0 : request.bufferSize = 0)
    (hrun : write mem request fs = .ok (0, fs')) : c = folderCluster fs := by
  have hlen : (c :: l).length = 1 := by
    rw [hw.length, h0]
    rfl
  obtain rfl : l = [] := List.length_eq_zero_iff.1 (by simpa using hlen)
  have hfree := (mem_freeClusters.1 (hw.fresh c List.mem_cons_self))
  obtain ⟨hc, -⟩ := write_folder_run h0 hrun
  have hnext : fs'.clusterMap.next c = fatEndOfFile := by
    rw [hw.next, link, Function.update_self]
  by_contra hne
  rw [write_folder_map h0 hrun, ClusterMap.next_store hc.2, Function.update_of_ne hne,
    hfree.2] at hnext
  exact absurd hnext (by decide)

/-- The entry of a new folder for itself carries a cluster of the disk, or none. -/
theorem strayCluster_ne_zero (h0 : request.bufferSize = 0)
    (hrun : write mem request fs = .ok (0, fs')) : strayCluster fs ≠ 0 := by
  obtain ⟨-, -, -, hstray | hstray, -⟩ := write_folder_run h0 hrun
  · rw [hstray]
    decide
  · intro hzero
    have hdata := (mem_freeClusters.1 hstray).1.1
    rw [hzero] at hdata
    exact absurd hdata (by decide)

/-- A request keeps the first two slots. -/
theorem Request.Outcome.headed (h : fs.Headed) (hq : q.Labels) (hrun : q.run fs = .ok (code, fs'))
    (ho : Outcome q fs code fs') : fs'.Headed := by
  have hlabelled := ho.labelled h.toLabelled hq
  have hroot : fs.LiveDir rootClusterNumber := .root
  have hroot' : fs'.LiveDir rootClusterNumber := .root
  cases ho with
  | refused _ => exact ⟨hlabelled, h.folder, h.rootUp, h.own⟩
  | @created mem request _ i c l _ hw =>
    have hg := hw.grows h.toSound
    have hnew : (createdEntry request c).isSubdirectory = true → fs'.tableAt c =
        newFolderTable request.name request.parentClusterNumber (strayCluster fs) ∧
          strayCluster fs ≠ 0 := by
      intro hf
      have h0 := createdEntry_isSubdirectory.1 hf
      rw [hw.cluster_eq h0 hrun]
      exact ⟨write_folder_table (h.toSound.placed hw.parent) h0 hrun, strayCluster_ne_zero h0 hrun⟩
    refine ⟨hlabelled, fun hd j hj => ?_, ?_, fun hd => ?_⟩
    · rcases hg.live_iff.1 hd with hd | ⟨hf, rfl⟩
      · rw [hw.slot_head h.toSound hd hj]
        exact h.folder hd j hj
      · rw [createdEntry_first, (hnew hf).1]
        rcases slot_lt_two hj with rfl | rfl
        · rw [newFolderTable_zero]
          exact folder_isSubdirectory ..
        · rw [newFolderTable_one]
          exact folder_isSubdirectory ..
    · rw [hw.slot_head h.toSound hroot (by decide)]
      exact h.rootUp
    · rcases hg.live_iff.1 hd with hd | ⟨hf, rfl⟩
      · rw [hw.slot_head h.toSound hd (by decide)]
        exact h.own hd
      · rw [createdEntry_first, (hnew hf).1, newFolderTable_zero, folder_cluster]
        exact (hnew hf).2
  | @deleted request _ e l _ hw _ =>
    have hkept : ∀ {d}, fs'.LiveDir d → fs.LiveDir d :=
      fun hd => ((hw.shrinks h.toSound).live_iff h.volume |>.1 hd).1
    refine ⟨hlabelled, fun hd j hj => ?_, ?_, fun hd => ?_⟩
    · rw [hw.slot_head h.toSound hd hj]
      exact h.folder (hkept hd) j hj
    · rw [hw.slot_head h.toSound hroot' (by decide)]
      exact h.rootUp
    · rw [hw.slot_head h.toSound hd (by decide)]
      exact h.own (hkept hd)

/-- A `move` renames the entry of a moved folder for itself and redirects the one for its parent. -/
theorem Moved.headed (hm : Moved fs S T i k ((fs.tableAt S i).rename key) t fs') (h : fs.Headed)
    (hS : fs.LiveDir S) (hT : fs.LiveDir T) (hk : FreeSlot (fs.tableAt T) key k)
    (hc : Carries fs S T i key) : fs'.Headed := by
  have hlive : ∀ {d}, fs'.LiveDir d ↔ fs.LiveDir d := hm.live_iff_child h.toLabelled hS hT hk hc
  have hmem := slot_mem_records hc.child hc.live
  have hhead : ∀ {d}, fs.LiveDir d → ∀ j : Fin 64, j.val < 2 →
      fs'.tableAt d j = fs.tableAt d j ∨ ((fs.tableAt S i).isSubdirectory = true ∧
        blockAddress d = blockAddress (fs.tableAt S i).cluster ∧
        fs'.tableAt d j = movedFolderTable (fs.tableAt d) key T j) := by
    intro d hd j hj
    have hi : i ≠ j := by
      rintro rfl
      exact absurd hc.child (not_le.2 hj)
    exact hm.slot_head h.treeOk hS hT hk hmem hj hi hd
  refine ⟨hm.labelled h.toLabelled hS hT hk hc, fun {d} hd j hj => ?_, ?_, fun {d} hd => ?_⟩
  · have hd := hlive.1 hd
    rcases hhead hd j hj with heq | ⟨-, -, heq⟩
    · rw [heq]
      exact h.folder hd j hj
    · rw [heq]
      rcases slot_lt_two hj with rfl | rfl
      · rw [movedFolderTable_zero, rename_isSubdirectory]
        exact h.folder hd 0 hj
      · rw [movedFolderTable_one]
        exact h.folder hd 1 hj
  · have hroot : fs.LiveDir rootClusterNumber := .root
    rcases hhead hroot 1 (by decide) with heq | ⟨hf, hblock, -⟩
    · rw [heq]
      exact h.rootUp
    · have hchild : fs.LiveDir (fs.tableAt S i).cluster := hS.tail hmem hf
      have heq := (FileSystem.blockAddress_inj (h.live_lt hroot) (h.live_lt hchild)).1 hblock
      exact absurd heq.symm (h.volume.folderTree.root hS hmem hf)
  · have hd := hlive.1 hd
    rcases hhead hd 0 (by decide) with heq | ⟨-, -, heq⟩
    · rw [heq]
      exact h.own hd
    · rw [heq, movedFolderTable_zero, rename_cluster]
      exact h.own hd

/-- The first two slots after every run of proper calls. -/
theorem headed_run (hrun : Run TreeStep TreeCall.Proper fs fs') (h : fs.Headed) : fs'.Headed := by
  refine hrun.invariant (fun q fs₁ fs₂ h hq hstep => ?_) h
  obtain ⟨code, hstep⟩ := hstep
  cases q with
  | request q =>
    obtain ⟨hperm, hlabels⟩ := hq
    obtain ⟨code', fs₂', hstep', ho⟩ := hperm.outcome h.toTidy
    rw [show q.run fs₁ = _ from hstep] at hstep'
    cases hstep'
    exact ho.headed h hlabels hstep
  | move src tar =>
    obtain ⟨code', fs₂', hstep', hout⟩ := ProperMove.outcome hq h.toLabelled
    rw [show move src tar fs₁ = _ from hstep] at hstep'
    cases hstep'
    rcases hout with ⟨i, k, T, key, t, hm, hT, hk, hc⟩ | rfl
    · exact hm.headed h (IsMove.source (ProperMove.toIsMove hq)) hT hk hc
    · exact ⟨⟨⟨⟨h.volume, h.table⟩, h.clean, h.fatOnDisk⟩, ⟨h.parent, h.dotdot⟩, h.proper, h.self,
        h.root⟩, h.folder, h.rootUp, h.own⟩

end Heads

end OsKernel
