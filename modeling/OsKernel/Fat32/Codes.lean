import OsKernel.Fat32.Refusals
import OsKernel.Fat32.Read

/-!
# Return codes

The codes that the operations of the driver return when they complete. `read` and `move` return `-1`
when the parent is not marked as a directory, and no other negative code (`readEntry_code`,
`move_code`); `write` returns `-1` when a new entry finds no free cluster (`write_code`). `read`
returns 0 when it finds the file (`read_code_iff`).
-/

namespace OsKernel

open Lib

section Codes
variable {mem : UInt32 → UInt8} {request src tar : DriverRequest} {fs fs' : FileSystem}
  {accepts : DirectoryEntry → Bool} {r : ReadResult} {code : Int8}

/-! ## `read` -/

/-- The values of `returnCode`. -/
def ReadCode (returnCode : UInt8) : Prop :=
  returnCode = 0 ∨ returnCode = 1 ∨ returnCode = 2 ∨ returnCode = 4

theorem readSlots_code {lo : Nat} {x : UInt8 × List ClusterBuffer}
    (h : readSlots accepts request fs lo = .ok x) : ReadCode x.1 := by
  unfold readSlots at h
  split at h
  · cases h
    exact .inr (.inr (.inl rfl))
  · next i hi =>
    have hlive : ∀ returnCode, ReadCode returnCode →
        ReadCode (if (fs.dirTableBuf i).live then returnCode else 4) := by
      intro returnCode hcode
      split
      · exact hcode
      · exact .inr (.inr (.inr rfl))
    dsimp only at h
    split at h
    · split at h
      · obtain ⟨stored, -, h⟩ := bind_eq_ok.1 h
        cases h
        exact hlive 0 (.inl rfl)
      · cases h
        exact hlive 1 (.inr (.inl rfl))
    · cases h
      exact hlive 2 (.inr (.inr (.inl rfl)))

theorem readLoop_code {steps lo : Nat} {c : UInt32} {x : UInt8 × List ClusterBuffer}
    (h : readLoop accepts request fs steps c lo = .ok x) : ReadCode x.1 := by
  induction steps generalizing c lo with
  | zero => cases h
  | succ steps ih =>
    rw [readLoop] at h
    split at h
    · cases h
      exact .inr (.inr (.inl rfl))
    · obtain ⟨⟨code, stored⟩, hslots, h⟩ := bind_eq_ok.1 h
      obtain ⟨next, -, h⟩ := bind_eq_ok.1 h
      split at h
      · exact ih h
      · cases h
        exact readSlots_code hslots

/-- `read` returns `-1` for a parent that is no directory, and 0, 1 or 2 otherwise. -/
theorem readEntry_code (h : readEntry accepts request fs = .ok r) :
    ((fs.tableAt request.parentClusterNumber 0).live = false ∧ r.code = -1) ∨
    ((fs.tableAt request.parentClusterNumber 0).live = true ∧
      (r.code = 0 ∨ r.code = 1 ∨ r.code = 2)) := by
  unfold readEntry at h
  dsimp only at h
  rw [FileSystem.dirTableBuf_readDirTableBuf] at h
  cases hself : (fs.tableAt request.parentClusterNumber 0).live with
  | false =>
    rw [hself] at h
    cases h
    exact .inl ⟨rfl, rfl⟩
  | true =>
    rw [hself] at h
    obtain ⟨⟨code, stored⟩, hloop, h⟩ := bind_eq_ok.1 h
    cases h
    refine .inr ⟨rfl, ?_⟩
    rcases readLoop_code hloop with rfl | rfl | rfl | rfl
    · exact .inl rfl
    · exact .inr (.inl rfl)
    · exact .inr (.inr rfl)
    · exact .inr (.inr rfl)

/-- The test at which the inner loop of `read` stops. -/
def DriverRequest.stops (request : DriverRequest) (e : DirectoryEntry) : Bool :=
  decide (e.name = request.name) || !e.live

/-- The slot from `lo` on at which the inner loop stops holds the requested file. -/
def StopsAtFile (request : DriverRequest) (t : DirectoryTable) (lo : Nat) : Prop :=
  ∃ i, findFrom lo (fun i => request.stops (t i)) = some i ∧ (t i).live = true ∧
    (t i).key = request.key

/-- `read` finds the file: in the slots from 2 on or, when none of them stops it and the parent has
another cluster, in all slots of the parent. -/
def FindsFile (request : DriverRequest) (fs : FileSystem) : Prop :=
  (fs.tableAt request.parentClusterNumber 0).live = true ∧
  request.parentClusterNumber ≠ fatEndOfFile ∧
  (StopsAtFile request (fs.tableAt request.parentClusterNumber) 2 ∨
    findFrom 2 (fun i => request.stops (fs.tableAt request.parentClusterNumber i)) = none ∧
      fs.clusterMap.get request.parentClusterNumber ≠ .ok fatEndOfFile ∧
      StopsAtFile request (fs.tableAt request.parentClusterNumber) 0)

theorem readSlots_finds {lo : Nat} {x : UInt8 × List ClusterBuffer}
    (h : readSlots (fun e => decide (e.ext = request.ext)) request fs lo = .ok x) :
    (findFrom lo (fun i => request.stops (fs.dirTableBuf i)) = none ∧ x.1 = 2) ∨
    (findFrom lo (fun i => request.stops (fs.dirTableBuf i)) ≠ none ∧ x.1 ≠ 2 ∧
      (x.1 = 0 ↔ StopsAtFile request fs.dirTableBuf lo)) := by
  unfold readSlots at h
  split at h
  · next hnone =>
    cases h
    exact .inl ⟨hnone, rfl⟩
  · next i hi =>
    have hfinds : StopsAtFile request fs.dirTableBuf lo ↔
        (fs.dirTableBuf i).live = true ∧ (fs.dirTableBuf i).key = request.key := by
      constructor
      · rintro ⟨j, hj, hfile⟩
        obtain rfl : i = j := Option.some.inj (hi.symm.trans hj)
        exact hfile
      · intro hfile
        exact ⟨i, hi, hfile⟩
    refine .inr ⟨?_, ?_⟩
    · intro hnone
      exact nomatch hnone.symm.trans hi
    · rw [hfinds]
      have hstop := (findFrom_eq_some.1 hi).2.1
      dsimp only at h
      cases hlive : (fs.dirTableBuf i).live with
      | false =>
        rw [hlive] at h
        have hcode : x.1 = 4 := by
          split at h
          · split at h
            · obtain ⟨stored, -, h⟩ := bind_eq_ok.1 h
              cases h
              rfl
            · cases h
              rfl
          · cases h
            rfl
        simp [hcode]
      | true =>
        have hname : (fs.dirTableBuf i).name = request.name := by simpa [hlive] using hstop
        rw [hlive, if_pos hname] at h
        split at h
        · next hext =>
          obtain ⟨stored, -, h⟩ := bind_eq_ok.1 h
          obtain ⟨-, -, h⟩ := bind_eq_ok.1 h
          cases h
          simp [DirectoryEntry.key, DriverRequest.key, hname, of_decide_eq_true hext]
        · next hext =>
          cases h
          have : (fs.dirTableBuf i).ext ≠ request.ext := fun heq => hext (decide_eq_true heq)
          simp [DirectoryEntry.key, DriverRequest.key, this]

theorem readLoop_finds {steps : Nat} {c : UInt32} {x : UInt8 × List ClusterBuffer}
    (h : readLoop (fun e => decide (e.ext = request.ext)) request fs steps c 0 = .ok x) :
    x.1 = 0 ↔ c ≠ fatEndOfFile ∧ StopsAtFile request fs.dirTableBuf 0 := by
  induction steps generalizing c with
  | zero => cases h
  | succ steps ih =>
    rw [readLoop] at h
    split at h
    · next hend =>
      cases h
      exact iff_of_false (by decide) (fun h => h.1 hend)
    · next hend =>
      obtain ⟨⟨code, stored⟩, hslots, h⟩ := bind_eq_ok.1 h
      obtain ⟨next, -, h⟩ := bind_eq_ok.1 h
      rcases readSlots_finds hslots with ⟨hnone, hcode⟩ | ⟨-, hcode, hfinds⟩
      · have hnot : ¬ StopsAtFile request fs.dirTableBuf 0 := by
          rintro ⟨i, hi, -⟩
          cases hnone.symm.trans hi
        rw [if_pos hcode] at h
        rw [ih h]
        exact iff_of_false (fun h => hnot h.2) (fun h => hnot h.2)
      · rw [if_neg hcode] at h
        cases h
        rw [hfinds]
        exact (and_iff_right hend).symm

/-- `read` returns 0 exactly when it finds the file. -/
theorem read_code_iff (h : read request fs = .ok r) : r.code = 0 ↔ FindsFile request fs := by
  rw [read, readEntry] at h
  dsimp only at h
  rw [FileSystem.dirTableBuf_readDirTableBuf] at h
  cases hself : (fs.tableAt request.parentClusterNumber 0).live with
  | false =>
    rw [hself] at h
    cases h
    refine iff_of_false (by decide : (-1 : Int8) ≠ 0) fun hfinds => ?_
    rw [hfinds.1] at hself
    cases hself
  | true =>
    rw [hself] at h
    obtain ⟨⟨code, stored⟩, hloop, h⟩ := bind_eq_ok.1 h
    cases h
    have hcode : (if code = 4 then 2 else code.toInt8) = 0 ↔ code = 0 := by
      rcases readLoop_code hloop with rfl | rfl | rfl | rfl <;> decide
    rw [hcode, FindsFile, and_iff_right hself]
    rw [readLoop] at hloop
    split at hloop
    · next hend =>
      cases hloop
      exact iff_of_false (by decide) (fun h => h.1 hend)
    · next hend =>
      rw [and_iff_right hend]
      obtain ⟨⟨code', stored'⟩, hslots, hloop⟩ := bind_eq_ok.1 hloop
      obtain ⟨next, hnext, hloop⟩ := bind_eq_ok.1 hloop
      have hnext' : fs.clusterMap.get request.parentClusterNumber = .ok next := hnext
      rcases readSlots_finds hslots with ⟨hnone, hcode'⟩ | ⟨hsome, hcode', hfinds⟩
      · rw [FileSystem.dirTableBuf_readDirTableBuf] at hnone
        have hnot : ¬ StopsAtFile request (fs.tableAt request.parentClusterNumber) 2 := by
          rintro ⟨i, hi, -⟩
          cases hnone.symm.trans hi
        rw [if_pos hcode'] at hloop
        rw [readLoop_finds hloop, FileSystem.dirTableBuf_readDirTableBuf, or_iff_right hnot,
          and_iff_right hnone, hnext', Ne, Ne, Except.ok.injEq]
      · rw [FileSystem.dirTableBuf_readDirTableBuf] at hsome hfinds
        rw [if_neg hcode'] at hloop
        cases hloop
        rw [hfinds, or_iff_left]
        exact fun h => hsome h.1

/-! ## `write` -/

/-- A new entry finds no free cluster: the parent is a directory, and no used slot before the first
unused one carries the name. -/
def OutOfClusters (request : DriverRequest) (fs : FileSystem) : Prop :=
  (fs.tableAt request.parentClusterNumber 0).live = true ∧
  (∀ i : Fin 64, 2 ≤ i.val → (fs.tableAt request.parentClusterNumber i).key = request.key →
    ∃ j ≤ i, 2 ≤ j.val ∧ (fs.tableAt request.parentClusterNumber j).live = false) ∧
  freeClusters fs.clusterMap = []

theorem writeEntry_code {slot : Option (Fin 64)}
    (h : writeEntry mem request slot fs = .ok (code, fs')) :
    (freeClusters fs.clusterMap = [] ∧ code = -1) ∨
      (freeClusters fs.clusterMap ≠ [] ∧ code = 0) := by
  unfold writeEntry at h
  cases hfree : freeClusters fs.clusterMap with
  | nil =>
    rw [getEmptyCluster_nil hfree] at h
    cases h
    exact .inl ⟨rfl, rfl⟩
  | cons c l =>
    have hc : c ≠ noCluster := (mem_freeClusters.1 (hfree ▸ List.mem_cons_self)).1.ne_noCluster
    rw [getEmptyCluster_cons hfree] at h
    dsimp only at h
    rw [if_neg hc] at h
    refine .inr ⟨List.cons_ne_nil c l, ?_⟩
    split at h
    all_goals
      obtain ⟨fs'', -, h⟩ := bind_eq_ok.1 h
      cases h
      rfl

/-- `write` returns `-1` when a new entry finds no free cluster, and 0, 1 or 2 otherwise. -/
theorem write_code (h : write mem request fs = .ok (code, fs')) :
    (OutOfClusters request fs ∧ code = -1) ∨
    (¬ OutOfClusters request fs ∧ (code = 0 ∨ code = 1 ∨ code = 2)) := by
  cases hself : (fs.tableAt request.parentClusterNumber 0).live with
  | false =>
    rw [write] at h
    simp only [FileSystem.dirTableBuf_readDirTableBuf, hself, Bool.not_false, ↓reduceIte] at h
    cases h
    refine .inr ⟨fun hout => ?_, .inr (.inr rfl)⟩
    rw [hout.1] at hself
    cases hself
  | true =>
    rw [write_of_live hself] at h
    -- the new entry is written where no used slot carries the name
    have hentry : ∀ slot, (∀ i : Fin 64, 2 ≤ i.val →
        (fs.tableAt request.parentClusterNumber i).key = request.key →
        ∃ j ≤ i, 2 ≤ j.val ∧ (fs.tableAt request.parentClusterNumber j).live = false) →
        writeEntry mem request slot (fs.readDirTableBuf request.parentClusterNumber) =
          .ok (code, fs') →
        (OutOfClusters request fs ∧ code = -1) ∨
          (¬ OutOfClusters request fs ∧ (code = 0 ∨ code = 1 ∨ code = 2)) := by
      intro slot hnew h
      rcases writeEntry_code h with ⟨hfree, hcode⟩ | ⟨hfree, hcode⟩
      · exact .inl ⟨⟨hself, hnew, hfree⟩, hcode⟩
      · exact .inr ⟨fun hout => hfree hout.2.2, .inl hcode⟩
    split at h
    · next hfind =>
      refine hentry _ (fun i hi hkey => ?_) h
      have hstop := findFrom_eq_none.1 hfind i hi
      simp [hkey] at hstop
    · next i hfind =>
      obtain ⟨hlo, hstop, hbefore⟩ := findFrom_eq_some.1 hfind
      split at h
      · next hlive =>
        cases h
        refine .inr ⟨fun hout => ?_, .inr (.inl rfl)⟩
        have hkey : (fs.tableAt request.parentClusterNumber i).key = request.key := by
          simpa [hlive] using hstop
        obtain ⟨j, hji, hj, hdead⟩ := hout.2.1 i hlo hkey
        rcases eq_or_lt_of_le hji with rfl | hlt
        · rw [hlive] at hdead
          cases hdead
        · have := hbefore j hlt hj
          simp [hdead] at this
      · next hdead =>
        refine hentry _ (fun j hj hkey => ?_) h
        rcases lt_or_ge j i with hlt | hge
        · have := hbefore j hlt hj
          simp [hkey] at this
        · exact ⟨i, hge, hlo, by simpa using hdead⟩

/-! ## `move` -/

theorem moveEntry_code {S T : UInt32} {i k : Fin 64} {e : DirectoryEntry}
    (h : moveEntry S i T k e fs = .ok (code, fs')) : code = 0 := by
  unfold moveEntry at h
  obtain ⟨t, -, h⟩ := bind_eq_ok.1 h
  cases h
  rfl

/-- `move` returns `-1` for a source parent that is no directory, and 0 to 4 otherwise. -/
theorem move_code (h : move src tar fs = .ok (code, fs')) :
    ((fs.tableAt src.parentClusterNumber 0).live = false ∧ code = -1) ∨
    ((fs.tableAt src.parentClusterNumber 0).live = true ∧
      (code = 0 ∨ code = 1 ∨ code = 2 ∨ code = 3 ∨ code = 4)) := by
  unfold move at h
  dsimp only at h
  rw [FileSystem.dirTableBuf_readDirTableBuf] at h
  cases hself : (fs.tableAt src.parentClusterNumber 0).live with
  | false =>
    rw [hself] at h
    cases h
    exact .inl ⟨rfl, rfl⟩
  | true =>
    rw [hself] at h
    refine .inr ⟨rfl, ?_⟩
    rw [if_neg (by simp)] at h
    split at h
    · cases h
      exact .inr (.inl rfl)
    · split at h
      · cases h
        exact .inr (.inr (.inr (.inl rfl)))
      · cases h
        exact .inr (.inr (.inl rfl))
      · split at h
        · cases h
          exact .inr (.inr (.inr (.inr rfl)))
        · exact .inl (moveEntry_code h)
      · split at h
        · split at h
          · cases h
            exact .inr (.inr (.inr (.inr rfl)))
          · exact .inl (moveEntry_code h)
        · cases h
          exact .inr (.inr (.inl rfl))
        · cases h
          exact .inr (.inr (.inr (.inl rfl)))

end Codes

end OsKernel
