import OsKernel.Lib.Loop
import OsKernel.Fat32.Runs
import Mathlib.Data.Fintype.EquivFin

/-!
# Walks through the tree of directories

The recursive functions of the kernel and the shell that follow the tree: `delete_all_folder` and
`dfs_find` go down, `print_path_from_root` goes up. Each of them ends when the directories form a
tree (`deleteAllFolder_ends`, `dfsFind_ends`, `printPathFromRoot_ends`); the ones of the shell need
the entries for the parent directories too (`LinksUp`), which `dfs_find` skips by their name and
`print_path_from_root` follows. Runs of `write` and `delete` keep these entries
(`Reachable.linksUp`).
-/

namespace OsKernel

open Lib Relation

instance finite_uInt32 : Finite UInt32 :=
  Finite.of_injective (fun c : UInt32 => c.toBitVec.toFin) fun _ _ h =>
    UInt32.toNat_inj.1 (congrArg Fin.val h)

/-! ## The walks of the shell -/

/-- `print_path_from_root`, up to a depth of `steps` directories: the names it prints. -/
def printPathFromRoot (fs : FileSystem) : Nat → UInt32 → Except Fault (List (Vector UInt8 8))
  | 0, _ => .error .outOfSteps
  | steps + 1, clusterNumber =>
    if clusterNumber = rootClusterNumber then .ok []
    else do
      let dirTable := fs.tableAt clusterNumber
      let printed ← printPathFromRoot fs steps (dirTable 1).cluster
      return printed ++ [(dirTable 0).name]

/-- `dfs_find`, down to a depth of `steps` directories. A path is the list of the names on it, and
`isGoal` the comparison of an entry's name with the goal; `paths` has room for 64 paths. -/
def dfsFind (isGoal : DirectoryEntry → Bool) (fs : FileSystem) : Nat → UInt32 →
    List (Vector UInt8 8) → List (List (Vector UInt8 8)) →
    Except Fault (List (List (Vector UInt8 8)))
  | 0, _, _, _ => .error .outOfSteps
  | steps + 1, clusterNumber, path, paths =>
    if 64 ≤ paths.length then .ok paths
    else ((List.finRange 64).drop 1).foldlM (fun paths i =>
      let entry := fs.tableAt clusterNumber i
      if isDotDot entry.name then .ok paths
      else if entry.live then do
        let subpath := path ++ [entry.name]
        let paths ←
          if isGoal entry then
            if paths.length < 64 then .ok (paths ++ [subpath])
            else .error (.arrayIndex paths.length)
          else .ok paths
        if entry.isSubdirectory then dfsFind isGoal fs steps entry.cluster subpath paths
        else .ok paths
      else .ok paths) paths

/-- The entries for the parent directories: slot 1 of every directory is named `..`, and slot 1 of a
folder names the directory that holds it. -/
structure FileSystem.LinksUp (fs : FileSystem) : Prop where
  parent : ∀ {b d}, fs.LiveDir b → fs.volume.Edge fatFormat b d → (fs.tableAt d 1).cluster = b
  dotdot : ∀ {d}, fs.LiveDir d → isDotDot (fs.tableAt d 1).name = true

/-! ## The entries for the parent directories -/

theorem linksUp_createFat32 {pad0 : Vector UInt8 6} {pad1 : Vector UInt8 5} {disk : Disk} :
    (createFat32 pad0 pad1 (.zeroed disk)).LinksUp where
  parent {b d} hb hbd := by
    obtain ⟨e, ⟨i, hi, rfl, hlive⟩, _⟩ := hbd
    rw [live_createFat32 hb, tableAt_createFat32 i hi] at hlive
    cases hlive
  dotdot {d} hd := by
    rw [live_createFat32 hd, createFat32, FileSystem.tableAt_writeClusters, Function.update_self]
    have hname : ∀ (j : Nat) (hj : j < 3), ((#v[0x2E, 0x2E, 0] : Vector UInt8 3) ++ pad1).get
        ⟨j, Nat.lt_of_lt_of_le hj (by decide)⟩ = (#v[0x2E, 0x2E, 0] : Vector UInt8 3).get ⟨j, hj⟩ :=
      fun _ hj => Vector.getElem_append_left hj
    rw [isDotDot]
    simp only [Bool.and_eq_true, beq_iff_eq]
    exact ⟨⟨hname 0 (by decide), hname 1 (by decide)⟩, hname 2 (by decide)⟩

/-- A request keeps the entries for the parent directories. -/
theorem Request.Outcome.linksUp {q : Request} {fs fs' : FileSystem} {code : Int8}
    (h : fs.Sound) (ho : Outcome q fs code fs') (hup : fs.LinksUp) : fs'.LinksUp := by
  cases ho with
  | refused _ => exact ⟨hup.parent, hup.dotdot⟩
  | @created _ request _ i c l _ hw =>
    have hg := hw.grows h
    have hslot : ∀ {d}, fs.LiveDir d → fs'.tableAt d 1 = fs.tableAt d 1 :=
      fun hd => hw.slot_head h hd (by decide)
    have hnew : (createdEntry request c).isSubdirectory = true → fs'.tableAt c 1 =
        DirectoryEntry.zero.folder dotdotName request.parentClusterNumber := by
      intro hf
      obtain ⟨nextFree, htable⟩ := hw.folder (createdEntry_isSubdirectory.1 hf)
      rw [htable, newFolderTable_one]
    refine ⟨fun {b d} hb hbd => ?_, fun {d} hd => ?_⟩
    · rcases hg.live_iff.1 hb with hb | ⟨hf, rfl⟩
      · rcases (hg.edge_iff hb).1 hbd with hold | ⟨rfl, hf, rfl⟩
        · rw [hslot (ReflTransGen.tail hb hold)]
          exact hup.parent hb hold
        · rw [createdEntry_first, hnew hf, DirectoryEntry.folder,
            DirectoryEntry.cluster_setCluster]
      · obtain ⟨e, he, _⟩ := hbd
        rw [hg.folder hf] at he
        exact absurd he (Set.notMem_empty _)
    · rcases hg.live_iff.1 hd with hd | ⟨hf, rfl⟩
      · rw [hslot hd]
        exact hup.dotdot hd
      · rw [createdEntry_first, hnew hf]
        rfl
  | @deleted request _ e l _ hw _ =>
    have hs := hw.shrinks h
    have hslot : ∀ {d}, fs'.LiveDir d → fs'.tableAt d 1 = fs.tableAt d 1 :=
      fun hd => hw.slot_head h hd (by decide)
    refine ⟨fun {b d} hb hbd => ?_, fun {d} hd => ?_⟩
    · obtain ⟨hb', hne⟩ := (hs.live_iff h.volume).1 hb
      rw [hslot (ReflTransGen.tail hb hbd)]
      exact hup.parent hb' ((hs.edge_iff h.volume hb' hne).1 hbd).1
    · rw [hslot hd]
      exact hup.dotdot ((hs.live_iff h.volume).1 hd).1

/-- Runs of `write` and `delete` keep the entries for the parent directories. -/
theorem Reachable.linksUp {fs : FileSystem} (h : Reachable fs) : fs.LinksUp := by
  induction h with
  | create pad0 pad1 disk => exact linksUp_createFat32
  | step hr hq hrun ih =>
    obtain ⟨code', fs'', hrun', ho⟩ := hq.outcome hr.inOrder.tidy
    rw [hrun] at hrun'
    cases hrun'
    exact ho.linksUp hr.inOrder.sound ih

/-! ## Walks of a tree end -/

section Ends
variable {fs : FileSystem} {d : UInt32}

/-- `print_path_from_root` reaches the root directory. -/
theorem printPathFromRoot_ends (hup : fs.LinksUp) (hd : fs.LiveDir d) :
    ∃ bound names, ∀ steps ≥ bound, printPathFromRoot fs steps d = .ok names := by
  have hroot : ∀ c, c = rootClusterNumber →
      ∃ bound names, ∀ steps ≥ bound, printPathFromRoot fs steps c = .ok names := by
    rintro c rfl
    refine ⟨1, [], fun steps hsteps => ?_⟩
    obtain ⟨steps, rfl⟩ := Nat.exists_eq_add_of_le' hsteps
    rw [printPathFromRoot, if_pos rfl]
  refine ReflTransGen.rec (hroot _ rfl) (fun {b d} hb he ih => ?_) hd
  by_cases hd : d = rootClusterNumber
  · exact hroot d hd
  · obtain ⟨bound, names, hnames⟩ := ih
    refine ⟨bound + 1, names ++ [(fs.tableAt d 0).name], fun steps hsteps => ?_⟩
    obtain ⟨steps, rfl⟩ := Nat.exists_eq_add_of_le' (Nat.le_of_add_left_le hsteps)
    rw [printPathFromRoot, if_neg hd]
    dsimp only
    rw [hup.parent hb he, hnames steps (by omega)]
    rfl

/-- Every cluster holds what it held in `fs`, or has been cleared. -/
def Cleared (fs : FileSystem) (disk : Disk) : Prop :=
  ∀ x : UInt32, disk.readClusters x = fs.clusterAt x ∨ disk.readClusters x = .zero

theorem Cleared.clear {disk : Disk} (h : Cleared fs disk) (c : UInt32) :
    Cleared fs (disk.writeClusters .zero c) := by
  intro x
  rw [Disk.writeClusters, Disk.readClusters, Function.update_apply]
  split
  · exact .inr rfl
  · exact h x

/-- `delete_all_folder` ends after as many levels as there are folders below: clearing clusters only
takes entries away. -/
theorem deleteAllFolder_cleared (ht : Volume.FolderTree fatFormat fs.volume) {disk : Disk}
    {steps : Nat} (hd : fs.LiveDir d) (hdisk : Cleared fs disk)
    (hsteps : below (fs.volume.Edge fatFormat) d < steps) :
    ∃ disk', deleteAllFolder steps d disk = .ok disk' ∧ Cleared fs disk' := by
  induction steps generalizing d disk with
  | zero => exact absurd hsteps (Nat.not_lt_zero _)
  | succ steps ih =>
    rw [deleteAllFolder]
    have hslot : ∀ i : Fin 64, 2 ≤ i.val → ((disk.readClusters d).toDirectoryTable i).live = true →
        (disk.readClusters d).toDirectoryTable i ∈ fs.entries d := by
      intro i hi hlive
      rcases hdisk d with h | h
      · rw [h] at hlive ⊢
        exact slot_mem_records hi hlive
      · rw [h, toDirectoryTable_zero] at hlive
        cases hlive
    have hlo : ∀ i ∈ (List.finRange 64).drop 2, 2 ≤ i.val := by decide
    obtain ⟨disk', hrun, hdisk'⟩ := foldlM_ok (f := fun disk₁ i =>
      if ((disk.readClusters d).toDirectoryTable i).live then
        if ((disk.readClusters d).toDirectoryTable i).isSubdirectory then
          deleteAllFolder steps ((disk.readClusters d).toDirectoryTable i).cluster disk₁
        else .ok (deleteAllFile ((disk.readClusters d).toDirectoryTable i).cluster disk₁)
      else .ok disk₁) (P := Cleared fs) (l := (List.finRange 64).drop 2)
          (fun i hi disk₁ hdisk₁ => by
        split
        · next hlive =>
          have hmem := hslot i (hlo i hi) hlive
          split
          · next hf =>
            have hedge : fs.volume.Edge fatFormat d _ := ⟨_, hmem, hf, rfl⟩
            have hbelow := ht.isTree.below_lt hd hedge
            exact ih (hd.tail hmem hf) hdisk₁ (lt_of_lt_of_le hbelow (Nat.le_of_lt_succ hsteps))
          · exact ⟨_, rfl, hdisk₁.clear _⟩
        · exact ⟨disk₁, rfl, hdisk₁⟩) hdisk
    refine ⟨disk'.writeClusters .zero d, ?_, hdisk'.clear d⟩
    rw [hrun]
    rfl

/-- `delete_all_folder` ends on every folder of a tree. -/
theorem deleteAllFolder_ends (ht : Volume.FolderTree fatFormat fs.volume) (hd : fs.LiveDir d) :
    ∃ bound, ∀ steps ≥ bound, ∃ disk, deleteAllFolder steps d fs.disk = .ok disk := by
  refine ⟨below (fs.volume.Edge fatFormat) d + 1, fun steps hsteps => ?_⟩
  obtain ⟨disk, hrun, _⟩ := deleteAllFolder_cleared ht hd (fun x => .inl rfl) hsteps
  exact ⟨disk, hrun⟩

/-- `dfs_find` does not run on: it returns, or runs out of room for paths. -/
theorem dfsFind_ends (ht : Volume.FolderTree fatFormat fs.volume) (hup : fs.LinksUp)
    (isGoal : DirectoryEntry → Bool) {steps : Nat} (hd : fs.LiveDir d)
    (hsteps : below (fs.volume.Edge fatFormat) d < steps) (path : List (Vector UInt8 8))
    (paths : List (List (Vector UInt8 8))) :
    dfsFind isGoal fs steps d path paths ≠ .error .outOfSteps := by
  induction steps generalizing d path paths with
  | zero => exact absurd hsteps (Nat.not_lt_zero _)
  | succ steps ih =>
    rw [dfsFind]
    split
    · exact fun he => nomatch he
    · have hlo : ∀ i ∈ (List.finRange 64).drop 1, i = 1 ∨ 2 ≤ i.val := by decide
      refine foldlM_ne_error fun i hi paths => ?_
      dsimp only
      split
      · exact fun he => nomatch he
      · next hdot =>
        split
        · next hlive =>
          have hi2 : 2 ≤ i.val := by
            rcases hlo i hi with rfl | hi2
            · exact absurd (hup.dotdot hd) hdot
            · exact hi2
          have hmem := slot_mem_records hi2 hlive
          have hdown : ∀ paths, (fs.tableAt d i).isSubdirectory = true →
              dfsFind isGoal fs steps (fs.tableAt d i).cluster (path ++ [(fs.tableAt d i).name])
                paths ≠ .error .outOfSteps := by
            intro paths hf
            have hbelow := ht.isTree.below_lt hd ⟨_, hmem, hf, rfl⟩
            exact ih (hd.tail hmem hf) (lt_of_lt_of_le hbelow (Nat.le_of_lt_succ hsteps)) _ _
          have hrest : ∀ paths, (if (fs.tableAt d i).isSubdirectory then
              dfsFind isGoal fs steps (fs.tableAt d i).cluster (path ++ [(fs.tableAt d i).name])
                paths else .ok paths) ≠ .error .outOfSteps := by
            intro paths
            split
            · next hf => exact hdown paths hf
            · exact fun he => nomatch he
          split
          · split
            · exact hrest _
            · exact fun he => nomatch he
          · exact hrest _
        · exact fun he => nomatch he

end Ends

end OsKernel
