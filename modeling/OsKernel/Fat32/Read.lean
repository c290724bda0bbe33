import OsKernel.Fat32.Runs

/-!
# What `read` returns

`read` copies the file of an entry with the requested name and extension, and returns 2 when the
entries end before the name was found. It leaves the directory table in the buffer, which no later
request looks at (`read_read`).
-/

namespace OsKernel

open Lib

section Read
variable {fs : FileSystem} {request request' : DriverRequest} {e : DirectoryEntry} {i : Fin 64}
  {clusters : List ClusterBuffer} {r : ReadResult}

/-- Only the table of the parent is in the buffer after a read. -/
theorem readEntry_fs {accepts : DirectoryEntry → Bool} (h : readEntry accepts request fs = .ok r) :
    r.fs = fs.readDirTableBuf request.parentClusterNumber := by
  unfold readEntry at h
  dsimp only at h
  split at h
  · cases h
    rfl
  · obtain ⟨x, -, h⟩ := bind_eq_ok.1 h
    cases h
    rfl

/-- A read changes nothing for the next one. -/
theorem read_read (h : read request fs = .ok r) : read request' r.fs = read request' fs := by
  rw [readEntry_fs h]
  rfl

/-- For a buffer of no bytes nothing is copied. -/
theorem copyLongCluster_zero {c : UInt32} : copyLongCluster fs copySteps 0 c = .ok [] := by
  rw [copySteps, copyLongCluster, if_pos rfl]

/-! ## The slot that decides -/

/-- The slot at which the inner loop stops: the first one that has the name or holds no entry. -/
def StopsAt (t : DirectoryTable) (name : Vector UInt8 8) (i : Fin 64) : Prop :=
  2 ≤ i.val ∧ ((t i).name = name ∨ (t i).live = false) ∧
    ∀ j < i, 2 ≤ j.val → (t j).live = true ∧ (t j).name ≠ name

/-- What `read` and `read_directory` do once the inner loop has stopped at the entry `e`. -/
def readStopped (accepts : DirectoryEntry → Bool) (request : DriverRequest) (fs : FileSystem)
    (e : DirectoryEntry) : Except Fault ReadResult :=
  if e.name = request.name ∧ accepts e = true then do
    let stored ← copyLongCluster fs copySteps request.bufferSize e.cluster
    return ⟨if e.live then 0 else 2, stored, fs⟩
  else
    .ok ⟨if e.live then 1 else 2, [], fs⟩

theorem readSlots_stopped {accepts : DirectoryEntry → Bool}
    (hi : StopsAt fs.dirTableBuf request.name i) :
    readSlots accepts request fs 2 =
      if (fs.dirTableBuf i).name = request.name ∧ accepts (fs.dirTableBuf i) = true then do
        let stored ← copyLongCluster fs copySteps request.bufferSize (fs.dirTableBuf i).cluster
        return (if (fs.dirTableBuf i).live then 0 else 4, stored)
      else .ok (if (fs.dirTableBuf i).live then 1 else 4, []) := by
  obtain ⟨hlo, hstop, hbefore⟩ := hi
  have hfind : findFrom 2 (fun j => decide ((fs.dirTableBuf j).name = request.name) ||
      !(fs.dirTableBuf j).live) = some i := by
    refine findFrom_eq_some.2 ⟨hlo, by simpa using hstop, fun j hj hlo' => ?_⟩
    obtain ⟨hlive, hname⟩ := hbefore j hj hlo'
    simp [hlive, hname]
  unfold readSlots
  rw [hfind]
  dsimp only
  by_cases hname : (fs.dirTableBuf i).name = request.name
  · cases haccepts : accepts (fs.dirTableBuf i) with
    | true =>
      rw [if_pos hname, if_pos rfl, if_pos ⟨hname, rfl⟩]
      cases copyLongCluster fs copySteps request.bufferSize (fs.dirTableBuf i).cluster <;> rfl
    | false =>
      rw [if_pos hname, if_neg (by decide), if_neg (by simp)]
      rfl
  · -- without the name the loop has stopped at an empty slot
    have hdead := hstop.resolve_left hname
    rw [if_neg hname, if_neg (fun h => hname h.1), hdead]
    rfl

/-- The stopping slot decides what is returned: its code is never the 2 that would let the outer
loop go on. -/
theorem readEntry_stopped {accepts : DirectoryEntry → Bool}
    (hself : (fs.tableAt request.parentClusterNumber 0).live = true)
    (hp : request.parentClusterNumber.toNat < 512)
    (hi : StopsAt (fs.tableAt request.parentClusterNumber) request.name i) :
    readEntry accepts request fs =
      readStopped accepts request (fs.readDirTableBuf request.parentClusterNumber)
        (fs.tableAt request.parentClusterNumber i) := by
  have hend : request.parentClusterNumber ≠ fatEndOfFile := ne_endOfFile_of_lt hp
  have hslots : readSlots accepts request (fs.readDirTableBuf request.parentClusterNumber) 2 =
      if (fs.tableAt request.parentClusterNumber i).name = request.name ∧
          accepts (fs.tableAt request.parentClusterNumber i) = true then do
        let stored ← copyLongCluster (fs.readDirTableBuf request.parentClusterNumber) copySteps
          request.bufferSize (fs.tableAt request.parentClusterNumber i).cluster
        return (if (fs.tableAt request.parentClusterNumber i).live then 0 else 4, stored)
      else .ok (if (fs.tableAt request.parentClusterNumber i).live then 1 else 4, []) :=
    readSlots_stopped hi
  unfold readEntry readStopped
  dsimp only
  rw [if_neg (by simp [hself]), readLoop, if_neg hend, hslots]
  by_cases haccepts : (fs.tableAt request.parentClusterNumber i).name = request.name ∧
      accepts (fs.tableAt request.parentClusterNumber i) = true
  · rw [if_pos haccepts, if_pos haccepts]
    cases copyLongCluster (fs.readDirTableBuf request.parentClusterNumber) copySteps
      request.bufferSize (fs.tableAt request.parentClusterNumber i).cluster with
    | error f => rfl
    | ok stored =>
      simp only [ok_bind, pure_eq_ok, ClusterMap.get_eq hp]
      cases (fs.tableAt request.parentClusterNumber i).live <;> rfl
  · rw [if_neg haccepts, if_neg haccepts]
    simp only [ok_bind, pure_eq_ok, ClusterMap.get_eq hp]
    cases (fs.tableAt request.parentClusterNumber i).live <;> rfl

/-- The file of the first entry with the requested name is copied, if it has the extension. -/
theorem read_found (hself : (fs.tableAt request.parentClusterNumber 0).live = true)
    (hp : request.parentClusterNumber.toNat < 512) (hlo : 2 ≤ i.val)
    (hlive : (fs.tableAt request.parentClusterNumber i).live = true)
    (hkey : (fs.tableAt request.parentClusterNumber i).key = request.key)
    (hbefore : ∀ j < i, 2 ≤ j.val → (fs.tableAt request.parentClusterNumber j).live = true ∧
      (fs.tableAt request.parentClusterNumber j).name ≠ request.name)
    (hcopy : copyLongCluster (fs.readDirTableBuf request.parentClusterNumber) copySteps
      request.bufferSize (fs.tableAt request.parentClusterNumber i).cluster = .ok clusters) :
    read request fs = .ok ⟨0, clusters, fs.readDirTableBuf request.parentClusterNumber⟩ := by
  obtain ⟨hname, hext⟩ := Prod.mk.inj hkey
  rw [read, readEntry_stopped hself hp ⟨hlo, .inl hname, hbefore⟩, readStopped,
    if_pos ⟨hname, decide_eq_true hext⟩, hcopy, hlive]
  rfl

/-- Where the entries end before the name was found, `read` returns 2. -/
theorem read_missing (hself : (fs.tableAt request.parentClusterNumber 0).live = true)
    (hp : request.parentClusterNumber.toNat < 512)
    (hi : IsFirstUnused 2 DirectoryEntry.live (fs.tableAt request.parentClusterNumber) i)
    (hname : ∀ j ≤ i, 2 ≤ j.val →
      (fs.tableAt request.parentClusterNumber j).name ≠ request.name) :
    read request fs = .ok ⟨2, [], fs.readDirTableBuf request.parentClusterNumber⟩ := by
  have hstop : StopsAt (fs.tableAt request.parentClusterNumber) request.name i :=
    ⟨hi.1, .inr hi.2.1, fun j hj hlo => ⟨hi.2.2 j hj hlo, hname j hj.le hlo⟩⟩
  rw [read, readEntry_stopped hself hp hstop, readStopped,
    if_neg (fun h => hname i le_rfl hi.1 h.1), hi.2.1]
  rfl

end Read

/-! ## One executable -/

/-- A name of eight equal letters is not the name of an empty slot. -/
theorem zero_name_ne : DirectoryEntry.zero.name ≠ (sampleRequest 'A' 2 0).name ∧
    DirectoryEntry.zero.name ≠ (sampleRequest 'B' 2 0).name := by
  decide

/-- On a blank disk nothing is found. -/
theorem read_blank_eq {request : DriverRequest} (hp : request.parentClusterNumber = 2)
    (hname : DirectoryEntry.zero.name ≠ request.name) :
    read request blankFileSystem = .ok ⟨2, [], blankFileSystem.readDirTableBuf 2⟩ := by
  have htable : ∀ j : Fin 64, 2 ≤ j.val →
      blankFileSystem.tableAt request.parentClusterNumber j = .zero := by
    intro j hj
    rw [hp]
    exact tableAt_createFat32 j hj
  have hself : (blankFileSystem.tableAt request.parentClusterNumber 0).live = true := by
    rw [hp]
    exact (inOrder_createFat32.toWellFormed.table .root).self
  have hlt : request.parentClusterNumber.toNat < 512 := by
    rw [hp]
    decide
  have hfirst : IsFirstUnused 2 DirectoryEntry.live
      (blankFileSystem.tableAt request.parentClusterNumber) 2 := by
    refine ⟨by decide, ?_, fun j hj hlo => absurd hj (not_lt.2 hlo)⟩
    rw [htable 2 (by decide)]
    rfl
  rw [read_missing hself hlt hfirst, hp]
  intro j _ hlo
  rw [htable j hlo]
  exact hname

theorem read_blank : ∃ r, read (sampleRequest 'A' 2 0) blankFileSystem = .ok r ∧ r.code ≠ 0 :=
  ⟨_, read_blank_eq rfl zero_name_ne.1, by decide⟩

/-- A disk with one file: the file is found, and another one is not. -/
theorem exists_executable : ∃ fs,
    write (fun _ => 1) (sampleRequest 'A' 2 100) blankFileSystem = .ok (0, fs) ∧
    (∃ r, read (sampleRequest 'A' 2 0) fs = .ok r ∧ r.code = 0) ∧
    (∃ r, read (sampleRequest 'B' 2 0) fs = .ok r ∧ r.code ≠ 0) := by
  have hblank : blankFileSystem.WellFormed := inOrder_createFat32.toWellFormed
  obtain ⟨c, l, fs, hrun, hw⟩ := write_blank (fun _ => 1) (sampleRequest 'A' 2 100) rfl
    (by decide)
  have htwo : fs.tableAt 2 2 = createdEntry (sampleRequest 'A' 2 100) c := by
    rw [show fs.tableAt 2 = _ from hw.table, Function.update_self]
  have hthree : fs.tableAt 2 3 = .zero := by
    rw [show fs.tableAt 2 = _ from hw.table, Function.update_of_ne (by decide)]
    exact tableAt_createFat32 3 (by decide)
  have hself : (fs.tableAt 2 0).live = true := ((hw.wellFormed hblank).table .root).self
  refine ⟨fs, hrun,
    ⟨_, read_found (i := 2) hself (by decide) (by decide) ?_ ?_ ?_ copyLongCluster_zero, rfl⟩,
    ⟨_, read_missing (i := 3) hself (by decide) ⟨by decide, ?_, ?_⟩ ?_,
      (by decide : (2 : Int8) ≠ 0)⟩⟩
  · show (fs.tableAt 2 2).live = true
    rw [htwo, createdEntry_live]
  · show (fs.tableAt 2 2).key = _
    rw [htwo]
    rfl
  · exact fun j hj hlo => absurd hj (not_lt.2 hlo)
  · show (fs.tableAt 2 3).live = false
    rw [hthree]
    rfl
  · intro j hj hlo
    obtain rfl : j = 2 := Fin.ext (by have := Fin.lt_def.1 hj; omega)
    show (fs.tableAt 2 2).live = true
    rw [htwo, createdEntry_live]
  · intro j hj hlo
    show (fs.tableAt 2 j).name ≠ _
    rcases eq_or_lt_of_le hj with rfl | hlt
    · rw [hthree]
      exact zero_name_ne.2
    · obtain rfl : j = 2 := Fin.ext (by have := Fin.lt_def.1 hlt; omega)
      rw [htwo]
      show (sampleRequest 'A' 2 100).name ≠ (sampleRequest 'B' 2 0).name
      decide

end OsKernel
