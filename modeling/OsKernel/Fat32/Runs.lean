import OsKernel.Fat32.Delete

/-!
# Runs of `write` and `delete`

The states that `write` and `delete` requests lead to from a disk that `create_fat32` has formatted
(`Reachable`). The requests of a run name a live directory, carry a name that is not all zero bytes,
and keep away from full directories and a full disk (`Permitted`). Each of them completes, with one
of three outcomes (`Outcome`), and leaves the file system in order (`reachable_wellFormed`).
-/

namespace OsKernel

open Lib Relation

/-! ## A new file system -/

/-- The file system is in order, its unused slots hold zero bytes, and the allocation table is on
the disk. -/
structure FileSystem.InOrder (fs : FileSystem) : Prop extends fs.WellFormed where
  clean : ∀ {d}, fs.LiveDir d → ∀ i : Fin 64, 2 ≤ i.val → (fs.tableAt d i).live = false →
    fs.tableAt d i = .zero
  fatOnDisk : fs.clusterAt fatClusterNumber = fs.clusterMap.bytes

/-- The same for a file system in which clusters may be in use that belong to no entry. -/
structure FileSystem.Tidy (fs : FileSystem) : Prop extends fs.Sound where
  clean : ∀ {d}, fs.LiveDir d → ∀ i : Fin 64, 2 ≤ i.val → (fs.tableAt d i).live = false →
    fs.tableAt d i = .zero
  fatOnDisk : fs.clusterAt fatClusterNumber = fs.clusterMap.bytes

theorem FileSystem.InOrder.tidy {fs : FileSystem} (h : fs.InOrder) : fs.Tidy :=
  ⟨h.sound, h.clean, h.fatOnDisk⟩

/-- An unused slot holds zero bytes, so a name of other bytes is found at an entry or nowhere. -/
theorem FileSystem.Tidy.key_ne {fs : FileSystem} (h : fs.Tidy) {request : DriverRequest}
    (hp : fs.LiveDir request.parentClusterNumber) (hname : request.name ≠ Vector.replicate 8 0)
    (hno : ∀ e ∈ fs.entries request.parentClusterNumber, e.key ≠ request.key) :
    ∀ i : Fin 64, 2 ≤ i.val → (fs.tableAt request.parentClusterNumber i).key ≠ request.key := by
  intro i hi hkey
  cases hlive : (fs.tableAt request.parentClusterNumber i).live with
  | true => exact hno _ (slot_mem_records hi hlive) hkey
  | false =>
    rw [h.clean hp i hi hlive] at hkey
    exact hname (congrArg Prod.fst hkey).symm

section Create
variable {pad0 : Vector UInt8 6} {pad1 : Vector UInt8 5} {disk : Disk}

/-- The allocation table of a new file system. -/
theorem next_createFat32 (c : UInt32) :
    (createFat32 pad0 pad1 (.zeroed disk)).clusterMap.next c =
      if c = rootClusterNumber then fatEndOfFile
      else if c = fatClusterNumber then cluster1Value
      else if c = fatEmptyEntry then cluster0Value else fatEmptyEntry := by
  have hzero : ∀ x, (FileSystem.zeroed disk).clusterMap.next x = fatEmptyEntry := by
    intro x
    rw [ClusterMap.next]
    split <;> rfl
  show (((((FileSystem.zeroed disk).clusterMap.store 0 cluster0Value).store 1
    cluster1Value).store 2 fatEndOfFile).next c) = _
  rw [ClusterMap.next_store (by decide), ClusterMap.next_store (by decide),
    ClusterMap.next_store (by decide)]
  simp only [Function.update_apply, hzero]
  rfl

/-- The root directory of a new file system has no entries. -/
theorem tableAt_createFat32 (i : Fin 64) (hi : 2 ≤ i.val) :
    (createFat32 pad0 pad1 (.zeroed disk)).tableAt rootClusterNumber i = .zero := by
  rw [createFat32, FileSystem.tableAt_writeClusters, Function.update_of_ne, Function.update_of_ne]
  · rfl
  · rintro rfl
    exact absurd hi (by decide)
  · rintro rfl
    exact absurd hi (by decide)

/-- The root directory is the only one. -/
theorem live_createFat32 {d : UInt32}
    (hd : (createFat32 pad0 pad1 (.zeroed disk)).LiveDir d) : d = rootClusterNumber := by
  refine reach_leaf (fun y hy => ?_) hd
  obtain ⟨e, ⟨i, hi, rfl, hlive⟩, _⟩ := hy
  rw [tableAt_createFat32 i hi] at hlive
  cases hlive

/-- All clusters from 3 on are free in a new file system. -/
theorem length_freeClusters_createFat32 :
    509 ≤ (freeClusters (createFat32 pad0 pad1 (.zeroed disk)).clusterMap).length := by
  have hnd : ((List.range' 3 509).map UInt32.ofNat).Nodup := by
    refine List.Nodup.map_on (fun a ha b hb hab => ?_) List.nodup_range'
    have ha := List.mem_range'_1.1 ha
    have hb := List.mem_range'_1.1 hb
    have := congrArg UInt32.toNat hab
    rw [UInt32.toNat_ofNat', UInt32.toNat_ofNat'] at this
    omega
  have hsub : ((List.range' 3 509).map UInt32.ofNat) ⊆
      freeClusters (createFat32 pad0 pad1 (.zeroed disk)).clusterMap := by
    intro c hc
    obtain ⟨n, hn, rfl⟩ := List.mem_map.1 hc
    have hn := List.mem_range'_1.1 hn
    have hdata : DataCluster (UInt32.ofNat n) := by
      rw [DataCluster, UInt32.toNat_ofNat']
      omega
    refine mem_freeClusters.2 ⟨hdata, ?_⟩
    rw [next_createFat32, if_neg hdata.ne_root, if_neg hdata.ne_fat, if_neg hdata.ne_empty]
  have := (hnd.subperm hsub).length_le
  simpa using this

/-- A new file system accepts an entry of the root directory that fits on the disk. -/
theorem accepts_createFat32 {request : DriverRequest}
    (hp : request.parentClusterNumber = rootClusterNumber)
    (hroom : clustersWanted request.bufferSize ≤ 509) :
    (createFat32 pad0 pad1 (.zeroed disk)).Accepts request where
  parent := hp ▸ .root
  notFull hfull := by
    have hlive := hfull 2 (by decide)
    rw [hp, tableAt_createFat32 2 (by decide)] at hlive
    cases hlive
  new e he := by
    obtain ⟨i, hi, rfl, hlive⟩ := he
    rw [hp, tableAt_createFat32 i hi] at hlive
    cases hlive
  room := hroom.trans length_freeClusters_createFat32

/-- A new file system is in order. -/
theorem inOrder_createFat32 : (createFat32 pad0 pad1 (.zeroed disk)).InOrder := by
  have hnone : ∀ {d e}, (createFat32 pad0 pad1 (.zeroed disk)).LiveDir d →
      e ∉ (createFat32 pad0 pad1 (.zeroed disk)).entries d := by
    rintro d e hd ⟨i, hi, rfl, hlive⟩
    rw [live_createFat32 hd, tableAt_createFat32 i hi] at hlive
    cases hlive
  have hvol : (createFat32 pad0 pad1 (.zeroed disk)).volume.WellFormed fatFormat := by
    refine ⟨fun hd he => absurd he (hnone hd), fun ho => absurd ho.2.1 (hnone ho.1), ?_⟩
    intro c hc
    have hfree : (createFat32 pad0 pad1 (.zeroed disk)).clusterMap.next c = fatEmptyEntry := by
      rw [next_createFat32, if_neg (DataCluster.ne_root hc), if_neg (DataCluster.ne_fat hc),
        if_neg (DataCluster.ne_empty hc)]
    refine iff_of_false (fun hne => hne hfree) ?_
    rintro ⟨d, e, hd, he, _⟩
    exact hnone hd he
  refine ⟨⟨?_, ?_, ?_, hvol, ?_⟩, ?_, ?_⟩
  · exact (next_createFat32 0).trans (by decide)
  · exact (next_createFat32 1).trans (by decide)
  · exact (next_createFat32 2).trans (by decide)
  · intro d hd
    obtain rfl := live_createFat32 hd
    refine ⟨?_, fun a b ha hab hb => ?_, fun a b ha _ hla => ?_⟩
    · rw [createFat32, FileSystem.tableAt_writeClusters, Function.update_of_ne (by decide),
        Function.update_self]
      rfl
    · rw [tableAt_createFat32 b (ha.trans hab)] at hb
      cases hb
    · rw [tableAt_createFat32 a ha] at hla
      cases hla
  · intro d hd i hi _
    rw [live_createFat32 hd, tableAt_createFat32 i hi]
  · rw [createFat32, FileSystem.clusterAt_writeClusters_of_ne (by decide) (by decide) (by decide),
      FileSystem.clusterAt_writeClusters]
    rfl

end Create

/-- The file system on a blank disk. -/
def blankFileSystem : FileSystem :=
  createFat32 (Vector.replicate 6 0) (Vector.replicate 5 0) (.zeroed fun _ => .zero)

/-- Its first entry gets slot 2 of the root directory. -/
theorem write_blank (mem : UInt32 → UInt8) (request : DriverRequest)
    (hp : request.parentClusterNumber = rootClusterNumber)
    (hroom : clustersWanted request.bufferSize ≤ 509) :
    ∃ c l fs, write mem request blankFileSystem = .ok (0, fs) ∧
      Created mem request blankFileSystem 2 c l fs := by
  obtain ⟨i, c, l, fs, hrun, hw⟩ := write_spec mem inOrder_createFat32.sound
    (accepts_createFat32 hp hroom)
  have hdead : (blankFileSystem.tableAt request.parentClusterNumber 2).live = false := by
    rw [hp, blankFileSystem, tableAt_createFat32 2 (by decide)]
    rfl
  obtain rfl : i = 2 := hw.slot.eq_of_unused rfl hdead
  exact ⟨c, l, fs, hrun, hw⟩

/-- A request for a name of eight equal letters. -/
def sampleRequest (letter : Char) (parent bufferSize : UInt32) : DriverRequest :=
  ⟨0, Vector.replicate 8 letter.toUInt8, Vector.replicate 3 0, parent, bufferSize⟩

/-- Removing a slot leaves zero bytes in the unused slots. -/
theorem clean_swapRemove {t : DirectoryTable} {i last j : Fin 64}
    (hlast : IsLastLive 2 DirectoryEntry.live t last)
    (hclean : ∀ k : Fin 64, 2 ≤ k.val → (t k).live = false → t k = .zero) (hj : 2 ≤ j.val)
    (hdead : (swapRemove t i last .zero j).live = false) : swapRemove t i last .zero j = .zero := by
  by_cases hjl : j = last
  · rw [hjl, swapRemove_last]
  · rw [swapRemove_of_ne hjl] at hdead ⊢
    split at hdead
    · rw [hlast.2.1] at hdead
      cases hdead
    · next hji =>
      rw [if_neg hji]
      exact hclean j hj hdead

/-! ## Requests -/

/-- A system call that changes the file system; `mem` is the memory of the caller. -/
inductive Request
  | write (mem : UInt32 → UInt8) (request : DriverRequest)
  | delete (request : DriverRequest)

namespace Request

/-- The driver request that the call passes on. -/
def driverRequest : Request → DriverRequest
  | write _ request => request
  | delete request => request

/-- The function of the driver that the call runs. -/
def run : Request → FileSystem → Except Fault (Int8 × FileSystem)
  | write mem request => OsKernel.write mem request
  | delete request => OsKernel.delete request

/-- The requests of a run: the parent is a live directory and the name is not all zero bytes; a
`write` of a new name finds an unused slot and the free clusters it needs, and a `delete` a
directory that is not full. -/
def Permitted (q : Request) (fs : FileSystem) : Prop :=
  fs.LiveDir q.driverRequest.parentClusterNumber ∧
  q.driverRequest.name ≠ Vector.replicate 8 0 ∧
  match q with
  | write _ request =>
    (∃ e ∈ fs.entries request.parentClusterNumber, e.key = request.key) ∨
      (¬ fs.Full request.parentClusterNumber ∧
        clustersWanted request.bufferSize ≤ (freeClusters fs.clusterMap).length)
  | delete request => ¬ fs.Full request.parentClusterNumber

/-- What a request can come to: nothing but a filled buffer, a new entry, or a removed entry. -/
inductive Outcome : Request → FileSystem → Int8 → FileSystem → Prop
  | refused {q fs code} : code ≠ 0 →
      Outcome q fs code (fs.readDirTableBuf q.driverRequest.parentClusterNumber)
  | created {mem request fs i c l fs'} : Created mem request fs i c l fs' →
      Outcome (.write mem request) fs 0 fs'
  | deleted {request fs e l fs'} : Deleted request fs e l fs' → e.key = request.key →
      Outcome (.delete request) fs 0 fs'

variable {q : Request} {fs fs' : FileSystem} {code : Int8}

/-- A request that finds what it needs is permitted. -/
theorem permitted_of_accepts {fs : FileSystem} (mem : UInt32 → UInt8) {request : DriverRequest}
    (ha : fs.Accepts request) (hname : request.name ≠ Vector.replicate 8 0) :
    (write mem request).Permitted fs :=
  ⟨ha.parent, hname, .inr ⟨ha.notFull, ha.room⟩⟩

/-- A permitted request completes, with one of the outcomes. -/
theorem Permitted.outcome (h : fs.Tidy) (hq : q.Permitted fs) :
    ∃ code fs', q.run fs = .ok (code, fs') ∧ Outcome q fs code fs' := by
  obtain ⟨hp, hname, hroom⟩ := hq
  have ht := h.table hp
  cases q with
  | write mem request =>
    by_cases hdup : ∃ e ∈ fs.entries request.parentClusterNumber, e.key = request.key
    · obtain ⟨e, he, hkey⟩ := hdup
      exact ⟨1, _, write_duplicate ht he hkey, .refused (by decide)⟩
    · obtain ⟨hnf, hfree⟩ := hroom.resolve_left hdup
      have hnew : ∀ e ∈ fs.entries request.parentClusterNumber, e.key ≠ request.key :=
        fun e he hkey => hdup ⟨e, he, hkey⟩
      obtain ⟨i, c, l, fs', hrun, hw⟩ := write_spec mem h.toSound
        ⟨hp, hnf, hnew, hfree⟩
      exact ⟨0, fs', hrun, .created hw⟩
  | delete request =>
    by_cases hfound : ∃ e ∈ fs.entries request.parentClusterNumber, e.key = request.key
    · obtain ⟨e, he, hkey⟩ := hfound
      by_cases hkeep : e.isSubdirectory = true ∧ fs.entries e.cluster ≠ ∅
      · exact ⟨2, _, delete_notEmpty h.toSound hp he hkey hkeep.1 hkeep.2,
          .refused (by decide)⟩
      · obtain ⟨l, fs', hrun, hw⟩ := delete_spec h.toSound hp hroom he hkey
          fun hf => not_not.1 fun hne => hkeep ⟨hf, hne⟩
        exact ⟨0, fs', hrun, .deleted hw hkey⟩
    · have hno : ∀ e ∈ fs.entries request.parentClusterNumber, e.key ≠ request.key :=
        fun e he hkey => hfound ⟨e, he, hkey⟩
      exact ⟨1, _, delete_notFound ht.self (h.key_ne hp hname hno), .refused (by decide)⟩

/-- Every outcome leaves the entries in order, and the allocation table on the disk. -/
theorem Outcome.tidy (h : fs.Tidy) (ho : Outcome q fs code fs') : fs'.Tidy := by
  cases ho with
  | refused _ => exact ⟨⟨h.volume, h.table⟩, h.clean, h.fatOnDisk⟩
  | @created _ request _ i c l _ hw =>
    refine ⟨hw.sound h.toSound, ?_, hw.fatOnDisk⟩
    intro d hd j hj hdead
    rcases (hw.grows h.toSound).live_iff.1 hd with hd | ⟨hf, rfl⟩
    · by_cases hdp : d = request.parentClusterNumber
      · subst hdp
        rw [hw.table] at hdead ⊢
        by_cases hji : j = i
        · subst hji
          rw [Function.update_self] at hdead
          cases hdead
        · rw [Function.update_of_ne hji] at hdead ⊢
          exact h.clean hd j hj hdead
      · rw [hw.tableAt_of_ne h.toSound hd hdp] at hdead ⊢
        exact h.clean hd j hj hdead
    · obtain ⟨nextFree, htable⟩ := hw.folder (createdEntry_isSubdirectory.1 hf)
      rw [createdEntry_first, htable, newFolderTable_slot hj]
  | @deleted request _ e l _ hw hkey =>
    refine ⟨hw.sound h.toSound, ?_, hw.fatOnDisk⟩
    intro d hd j hj hdead
    have hs := hw.shrinks h.toSound
    obtain ⟨hd, hne⟩ := (hs.live_iff h.volume).1 hd
    by_cases hdp : d = request.parentClusterNumber
    · subst hdp
      obtain ⟨i, last, hi, rfl, hlast, htable⟩ := hw.table
      rw [htable] at hdead ⊢
      exact clean_swapRemove hlast (h.clean hd) hj hdead
    · have hout : d ∉ l := fun hmem => hne (hs.freed_live h.volume hd hmem)
      rw [hw.tableAt_of_ne h.toSound hd hdp hout] at hdead ⊢
      exact h.clean hd j hj hdead

/-- Every outcome leaves the file system in order. -/
theorem Outcome.inOrder (h : fs.InOrder) (ho : Outcome q fs code fs') : fs'.InOrder := by
  have ht := ho.tidy h.tidy
  refine ⟨?_, ht.clean, ht.fatOnDisk⟩
  cases ho with
  | refused _ => exact ⟨h.map0, h.map1, h.map2, h.volume, h.table⟩
  | created hw => exact hw.wellFormed h.toWellFormed
  | deleted hw _ => exact hw.wellFormed h.toWellFormed

end Request

/-! ## Runs -/

/-- The states that permitted requests lead to from a new file system. -/
inductive Reachable : FileSystem → Prop
  | create (pad0 : Vector UInt8 6) (pad1 : Vector UInt8 5) (disk : Disk) :
      Reachable (createFat32 pad0 pad1 (.zeroed disk))
  | step {fs fs' : FileSystem} {q : Request} {code : Int8} : Reachable fs → q.Permitted fs →
      q.run fs = .ok (code, fs') → Reachable fs'

/-- Every reachable state is in order. -/
theorem Reachable.inOrder {fs : FileSystem} (h : Reachable fs) : fs.InOrder := by
  induction h with
  | create pad0 pad1 disk => exact inOrder_createFat32
  | step _ hq hrun ih =>
    obtain ⟨code', fs'', hrun', ho⟩ := hq.outcome ih.tidy
    rw [hrun] at hrun'
    cases hrun'
    exact ho.inOrder ih

/-- The file system is in order after every run of permitted requests, and the next permitted
request completes. -/
theorem reachable_wellFormed {fs : FileSystem} (h : Reachable fs) :
    fs.WellFormed ∧ ∀ q : Request, q.Permitted fs → ∃ code fs', q.run fs = .ok (code, fs') := by
  refine ⟨h.inOrder.toWellFormed, fun q hq => ?_⟩
  obtain ⟨code, fs', hrun, _⟩ := hq.outcome h.inOrder.tidy
  exact ⟨code, fs', hrun⟩

/-- A new file system with one file of two clusters is in order. -/
theorem reachable_wellFormed_oneFile : ∃ code fs,
    write (fun _ => 1) (sampleRequest 'A' 2 3000) blankFileSystem = .ok (code, fs) ∧
      fs.WellFormed := by
  have ha : blankFileSystem.Accepts (sampleRequest 'A' 2 3000) :=
    accepts_createFat32 rfl (by decide)
  have hq := Request.permitted_of_accepts (fun _ => 1) ha (by decide)
  obtain ⟨code, fs, hrun, _⟩ := hq.outcome inOrder_createFat32.tidy
  exact ⟨code, fs, hrun, (reachable_wellFormed (.step (.create _ _ _) hq hrun)).1⟩

end OsKernel
