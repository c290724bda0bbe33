import OsKernel.Fat32.FileStore
import OsKernel.Fat32.Heads

/-!
# Directories that stay

The entry of the root directory for its parent leads to the root directory, whatever calls the
driver gets (`FileSystem.Rooted.step`). A directory goes away by the removal of an entry above it
only, so one from which entries are removed stays (`StoreStep.reach`).
-/

namespace OsKernel

open Lib Relation

/-- The file system serves the store, and the root directory is its own parent. -/
structure FileSystem.Rooted (fs : FileSystem) (s : FileStore) : Prop extends fs.Serves s where
  rootUp : (fs.tableAt rootClusterNumber 1).cluster = rootClusterNumber

section Step
variable {fs fs' : FileSystem} {s s' : FileStore} {a : StorageCall × Reply} {w : UInt32}
  {src tar : DriverRequest}

theorem rooted_createFat32 {pad0 : Vector UInt8 6} {pad1 : Vector UInt8 5} {disk : Disk} :
    (createFat32 pad0 pad1 (.zeroed disk)).Rooted .empty :=
  ⟨⟨inService_createFat32, represents_createFat32⟩, headed_createFat32.rootUp⟩

theorem FileSystem.Rooted.congr (h : fs.Rooted s) (hmap : fs'.clusterMap = fs.clusterMap)
    (hdisk : fs'.disk = fs.disk) : fs'.Rooted s where
  toServes := h.toServes.congr hmap hdisk
  rootUp := by
    rw [FileSystem.tableAt, FileSystem.clusterAt, hdisk]
    exact h.rootUp

/-- The directories are those that can be reached in the store. -/
theorem FileSystem.Rooted.live_iff (h : fs.Rooted s) : fs.LiveDir w ↔ s.Reach rootClusterNumber w :=
  h.store.reach_iff.symm

/-- A request leaves the first two slots of the root directory alone. -/
theorem Effect.root_head (h : fs.Labelled) (hw : Effect fs fs') {j : Fin 64} (hj : j.val < 2) :
    fs'.tableAt rootClusterNumber j = fs.tableAt rootClusterNumber j := by
  cases hw with
  | unchanged _ hdisk => rw [FileSystem.tableAt, FileSystem.clusterAt, hdisk]; rfl
  | created hw => exact hw.slot_head h.toSound .root hj
  | deleted hw _ => exact hw.slot_head h.toSound .root hj
  | deletedAll hw => exact hw.slot_head h .root hj

/-- A proper call keeps it. -/
theorem rootUp_step (h : fs.InService) (hq : a.1.Proper fs) (hstep : StorageStep a fs fs')
    (hup : (fs.tableAt rootClusterNumber 1).cluster = rootClusterNumber) :
    (fs'.tableAt rootClusterNumber 1).cluster = rootClusterNumber := by
  obtain ⟨q, reply⟩ := a
  rw [StorageStep] at hstep
  cases q with
  | driver q =>
    have heffect : Effect fs fs' := DriverStep.effect h.coherent hq.1 ⟨reply, hstep⟩
    rw [heffect.root_head h.toLabelled (by decide), hup]
  | move src tar =>
    obtain ⟨⟨code, fs₁⟩, hmove, hrun⟩ := bind_eq_ok.1 hstep
    cases hrun
    have hq : ProperMove fs src tar := hq
    obtain ⟨code', fs'', hrun, hout⟩ := hq.outcome h.toLabelled
    cases hmove.symm.trans hrun
    rcases hout with ⟨i, k, T, key, t, hm, hT, hk, hc⟩ | rfl
    · have hroot : fs.LiveDir rootClusterNumber := .root
      have hmem := slot_mem_records hc.child hc.live
      have hi : i ≠ 1 := by
        rintro rfl
        exact absurd hc.child (by decide)
      rcases hm.slot_head h.treeOk hq.source hT hk hmem (by decide) hi hroot
        with heq | ⟨hf, hblock, -⟩
      · rw [heq, hup]
      · -- the moved folder is not the root directory
        have hchild : fs.LiveDir (fs.tableAt src.parentClusterNumber i).cluster :=
          hq.source.tail hmem hf
        have heq := (FileSystem.blockAddress_inj (h.live_lt hroot) (h.live_lt hchild)).1 hblock
        exact absurd heq.symm (h.volume.folderTree.root hq.source hmem hf)
    · exact hup
  | restart pad0 pad1 =>
    cases hstep
    rw [h.coherent.restart_eq]
    exact hup

/-- The call removes entries of the directory at `w` only. -/
def StorageCall.RemovesFrom (w : UInt32) : StorageCall → Prop
  | driver (.delete request) => request.parentClusterNumber = w
  | driver (.deleteAll _ request) => request.parentClusterNumber = w
  | _ => True

/-- A call of the driver that a store answers leaves the directory reachable from which it
removes. -/
theorem StoreStep.reach {q : DriverCall} {reply : Reply} (h : StoreStep (.driver q, reply) s s')
    (hfrom : StorageCall.RemovesFrom w (.driver q)) (hw : s.Reach rootClusterNumber w) :
    s'.Reach rootClusterNumber w := by
  cases q with
  | read request =>
    obtain rfl := h.1
    exact hw
  | readDirectory request =>
    obtain rfl := h.1
    exact hw
  | write mem request =>
    obtain ⟨hold, hnew⟩ := h
    by_cases hk : s request.parentClusterNumber request.key = none
    · rcases hnew hk with ⟨-, rfl⟩ | ⟨-, -, rfl⟩ | ⟨-, -, c, hc, rfl⟩
      · exact hw
      · exact hw.set hk
      · exact hw.mkdir hk hc
    · obtain rfl := (hold hk).2
      exact hw
  | delete request =>
    obtain rfl : request.parentClusterNumber = w := hfrom
    obtain ⟨hnone, hfile, hfolder⟩ := h
    cases hk : s request.parentClusterNumber request.key with
    | none =>
      obtain rfl := (hnone hk).2
      exact hw
    | some n =>
      cases n with
      | file bytes =>
        obtain rfl := (hfile bytes hk).2
        exact hw.erase _
      | folder c =>
        obtain ⟨hempty, hfull⟩ := hfolder c hk
        by_cases hnames : ∀ key, s c key = none
        · obtain rfl := (hempty hnames).2
          exact hw.erase _
        · obtain ⟨key, hkey⟩ := not_forall.1 hnames
          obtain rfl := (hfull key hkey).2
          exact hw
  | deleteAll steps request =>
    obtain rfl : request.parentClusterNumber = w := hfrom
    obtain ⟨hnone, hsome⟩ := h
    by_cases hk : s request.parentClusterNumber request.key = none
    · obtain rfl := (hnone hk).2
      exact hw
    · obtain rfl := (hsome hk).2
      exact hw.erase _

/-- A proper `move` keeps every directory. -/
theorem ProperMove.live {code : Int8} (hq : ProperMove fs src tar) (h : fs.Labelled)
    (hrun : move src tar fs = .ok (code, fs')) (hw : fs.LiveDir w) : fs'.LiveDir w := by
  obtain ⟨code', fs'', hrun', hout⟩ := hq.outcome h
  cases hrun.symm.trans hrun'
  rcases hout with ⟨i, k, T, key, t, hm, hT, hk, hc⟩ | rfl
  · exact (hm.live_iff_child h hq.source hT hk hc).2 hw
  · exact hw

/-- A proper call keeps the file system rooted, and the directory from which it removes. -/
theorem FileSystem.Rooted.step (h : fs.Rooted s) (hq : a.1.Proper fs)
    (hstep : StorageStep a fs fs') :
    ∃ s', StoreStep a s s' ∧ fs'.Rooted s' ∧
      ∀ w, a.1.RemovesFrom w → fs.LiveDir w → fs'.LiveDir w := by
  obtain ⟨s', hstore, hserves⟩ := h.toServes.step hq hstep
  refine ⟨s', hstore, ⟨hserves, rootUp_step h.toInService hq hstep h.rootUp⟩, fun w hfrom hw => ?_⟩
  obtain ⟨q, reply⟩ := a
  cases q with
  | driver q =>
    have hreach := hstore.reach hfrom (h.live_iff.1 hw)
    exact hserves.store.reach_iff.1 hreach
  | move src tar =>
    obtain ⟨⟨code, fs₁⟩, hmove, hrun⟩ := bind_eq_ok.1 hstep
    cases hrun
    exact ProperMove.live hq h.toLabelled hmove hw
  | restart pad0 pad1 =>
    cases hstep
    rw [h.coherent.restart_eq]
    exact hw

end Step

end OsKernel
