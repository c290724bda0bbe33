import OsKernel.Lib.Run
import OsKernel.Fat32.Read
import OsKernel.Fat32.Refusals
import OsKernel.Shell.Walk

/-!
# The driver after a restart

The allocation table in memory is a copy of the one on the disk, and the other field of the driver
state is overwritten by every request before it is read. So a restart changes nothing
(`restart_transparent`), as long as the disk is coherent (`FileSystem.Coherent`): the table is at
`FAT_CLUSTER_NUMBER` and the signature in block 0. A request that completes keeps the disk coherent
because the clusters it writes to are those of live directories, those of the entries in them, and
free ones. `delete_all` leaves clusters behind that are in use without an owner, so the invariant is
`Sound`, not `WellFormed`.
-/

namespace OsKernel

open Lib Relation

/-! ## Coherent disks -/

/-- The entries are in order, and the disk holds the allocation table and the signature. -/
structure FileSystem.Coherent (fs : FileSystem) : Prop extends fs.Tidy where
  signature : isEmptyStorage fs.disk = false

/-- Whether the disk is formatted depends on cluster 0. -/
theorem isEmptyStorage_congr {fs fs' : FileSystem} (h : fs'.clusterAt 0 = fs.clusterAt 0) :
    isEmptyStorage fs'.disk = isEmptyStorage fs.disk := by
  unfold isEmptyStorage
  rw [show fs'.disk.readClusters 0 = fs.disk.readClusters 0 from h]

/-- A new file system is coherent. -/
theorem coherent_createFat32 {pad0 : Vector UInt8 6} {pad1 : Vector UInt8 5} {disk : Disk} :
    (createFat32 pad0 pad1 (.zeroed disk)).Coherent where
  toTidy := inOrder_createFat32.tidy
  signature := by
    have hzero : (createFat32 pad0 pad1 (.zeroed disk)).clusterAt 0 =
        writeSignature ((FileSystem.zeroed disk).clusterAt 0) := by
      unfold createFat32
      dsimp only
      rw [FileSystem.clusterAt_writeClusters_of_ne (by decide) (by decide) (by decide),
        FileSystem.clusterAt_writeClusters_of_ne (by decide) (by decide) (by decide)]
      exact FileSystem.clusterAt_writeClusters
    refine decide_eq_false ?_
    rintro ⟨i, hi⟩
    refine hi ?_
    rw [show (createFat32 pad0 pad1 (.zeroed disk)).disk.readClusters 0 = _ from hzero]
    exact dif_pos i.isLt

/-- The signature is on block 0. -/
theorem FileSystem.Coherent.block0 {fs : FileSystem} (h : fs.Coherent) (i : Fin blockSize) :
    fs.clusterAt 0 ⟨i.val, i.isLt.trans (by decide)⟩ = fsSignature i := by
  by_contra hne
  exact of_decide_eq_false h.signature ⟨i, hne⟩

section Cluster0
variable {fs : FileSystem} {d : UInt32}

/-- No live directory is at cluster 0. -/
theorem FileSystem.Sound.live_ne_zero (h : fs.Sound) (hd : fs.LiveDir d) : 0 ≠ d := by
  rintro rfl
  rcases h.live_cluster hd with heq | ⟨hdata, -⟩
  · exact absurd heq (by decide)
  · exact absurd hdata (by decide)

theorem zero_not_free : 0 ∉ freeClusters fs.clusterMap := fun hmem =>
  absurd (mem_freeClusters.1 hmem).1 (by decide)

end Cluster0

/-! ## What `delete_all` clears -/

/-- `delete_all_folder` clears the cluster `x` on its way down from `d`: it is `d` itself, or the
first one of an entry of `d` or below. -/
def Clears (fs : FileSystem) (d x : UInt32) : Prop :=
  x = d ∨ ∃ b e, ReflTransGen (fs.volume.Edge fatFormat) d b ∧ e ∈ fs.entries b ∧ e.cluster = x

section Clears
variable {fs : FileSystem} {d x : UInt32} {e : DirectoryEntry} {disk disk' disk₀ : Disk}
  {steps : Nat}

theorem Clears.child (he : e ∈ fs.entries d) (hf : e.isSubdirectory = true)
    (hx : Clears fs e.cluster x) : Clears fs d x := by
  rcases hx with rfl | ⟨b, e', hb, he', hfirst⟩
  · exact .inr ⟨d, e, .refl, he, rfl⟩
  · exact .inr ⟨b, e', .head ⟨e, he, hf, rfl⟩ hb, he', hfirst⟩

/-- The clusters below `d` that are not cleared keep what they held, and the others hold it or have
been cleared. -/
structure KeepsOthers (fs : FileSystem) (d : UInt32) (disk disk' : Disk) : Prop where
  cleared : Cleared fs disk'
  kept : ∀ x : UInt32, x.toNat < 512 → ¬ Clears fs d x → disk'.readClusters x = disk.readClusters x

/-- Clearing one more of the clusters. -/
theorem KeepsOthers.clear (h : KeepsOthers fs d disk disk') (hc : x.toNat < 512)
    (hx : Clears fs d x) : KeepsOthers fs d disk (disk'.writeClusters .zero x) where
  cleared := h.cleared.clear x
  kept y hy hout := by
    have hne : y ≠ x := by
      rintro rfl
      exact hout hx
    rw [Disk.writeClusters, Disk.readClusters,
      Function.update_of_ne (FileSystem.blockAddress_ne hc hy hne)]
    exact h.kept y hy hout

/-- `delete_all_folder` clears the clusters below a folder and no others. -/
theorem deleteAllFolder_keeps (h : fs.Sound) (hd : fs.LiveDir d) (hdisk : Cleared fs disk)
    (hrun : deleteAllFolder steps d disk = .ok disk') : KeepsOthers fs d disk disk' := by
  induction steps generalizing d disk disk' with
  | zero => cases hrun
  | succ steps ih =>
    rw [deleteAllFolder] at hrun
    obtain ⟨disk₁, hloop, hrun⟩ := bind_eq_ok.1 hrun
    cases hrun
    have hslot : ∀ i : Fin 64, 2 ≤ i.val → ((disk.readClusters d).toDirectoryTable i).live = true →
        (disk.readClusters d).toDirectoryTable i ∈ fs.entries d := by
      intro i hi hlive
      rcases hdisk d with h | h
      · rw [h] at hlive ⊢
        exact slot_mem_records hi hlive
      · rw [h, toDirectoryTable_zero] at hlive
        cases hlive
    have hlo : ∀ i ∈ (List.finRange 64).drop 2, 2 ≤ i.val := by decide
    have hkeep : KeepsOthers fs d disk disk₁ := by
      refine foldlM_inv (P := KeepsOthers fs d disk) (fun i hi b b' hb hstep => ?_)
        ⟨hdisk, fun _ _ _ => rfl⟩ hloop
      split at hstep
      · next hlive =>
        have hmem := hslot i (hlo i hi) hlive
        split at hstep
        · next hf =>
          have hsub := ih (hd.tail hmem hf) hb.cleared hstep
          refine ⟨hsub.cleared, fun x hx hout => ?_⟩
          rw [hsub.kept x hx fun hin => hout (hin.child hmem hf)]
          exact hb.kept x hx hout
        · cases hstep
          exact hb.clear (h.volume.data (h.volume.first_owned hd hmem)).2
            (.inr ⟨d, _, .refl, hmem, rfl⟩)
      · cases hstep
        exact hb
    exact hkeep.clear (h.live_lt hd) (.inl rfl)

end Clears

/-- `fs'` is `fs` without the entry `e` of the requested directory. Its first cluster is free again,
the clusters on the disk that `delete_all` has cleared are anything. -/
structure DeletedAll (request : DriverRequest) (fs : FileSystem) (e : DirectoryEntry)
    (fs' : FileSystem) : Prop where
  parent : fs.LiveDir request.parentClusterNumber
  mem : e ∈ fs.entries request.parentClusterNumber
  next : fs'.clusterMap.next = Function.update fs.clusterMap.next e.cluster fatEmptyEntry
  table : ∃ i last, 2 ≤ i.val ∧ fs.tableAt request.parentClusterNumber i = e ∧
    IsLastLive 2 DirectoryEntry.live (fs.tableAt request.parentClusterNumber) last ∧
    fs'.tableAt request.parentClusterNumber =
      swapRemove (fs.tableAt request.parentClusterNumber) i last .zero
  fatOnDisk : fs'.clusterAt fatClusterNumber = fs'.clusterMap.bytes
  other : ∀ d : UInt32, d.toNat < 512 → d ≠ request.parentClusterNumber → d ≠ fatClusterNumber →
    d ≠ e.cluster → (e.isSubdirectory = true → ¬ Clears fs e.cluster d) →
    fs'.clusterAt d = fs.clusterAt d

section DeleteAll
variable {request : DriverRequest} {fs fs' : FileSystem} {e : DirectoryEntry} {steps : Nat}
  {x : UInt32}

/-- A `delete_all` of a live entry that returns removes the entry. -/
theorem deleteAll_spec {code : Int8} (h : fs.Sound) (hp : fs.LiveDir request.parentClusterNumber)
    (he : e ∈ fs.entries request.parentClusterNumber) (hkey : e.key = request.key)
    (hrun : deleteAll steps request fs = .ok (code, fs')) :
    code = 0 ∧ DeletedAll request fs e fs' := by
  have ht := h.table hp
  obtain ⟨i, hfind, hi, rfl⟩ := ht.find he hkey
  have hfirst : (fs.tableAt request.parentClusterNumber i).cluster.toNat < 512 :=
    (h.volume.data (h.volume.first_owned hp he)).2
  have hdone (disk : Disk) (table : DirectoryTable)
      (hremove : removeEntry (fs.tableAt request.parentClusterNumber) i = .ok table)
      (hdisk : ∀ d : UInt32, d.toNat < 512 →
        d ≠ (fs.tableAt request.parentClusterNumber i).cluster →
        ((fs.tableAt request.parentClusterNumber i).isSubdirectory = true →
          ¬ Clears fs (fs.tableAt request.parentClusterNumber i).cluster d) →
        disk.readClusters d = fs.disk.readClusters d) :
      DeletedAll request fs (fs.tableAt request.parentClusterNumber i)
        (({ clusterMap := fs.clusterMap.store
              (fs.tableAt request.parentClusterNumber i).cluster fatEmptyEntry
            dirTableBuf := table, disk := disk } : FileSystem).flush
          request.parentClusterNumber) := by
    obtain ⟨last, hlast, rfl⟩ := ht.of_removeEntry he hremove
    refine ⟨hp, he, ClusterMap.next_store hfirst, ⟨i, last, hi, rfl, hlast,
      FileSystem.tableAt_flush (h.live_lt hp) (h.live_ne_fat hp)⟩, ?_, ?_⟩
    · rw [FileSystem.clusterAt_flush_fat, FileSystem.clusterMap_flush]
    · intro d hd hdp hdf hdc hout
      rw [FileSystem.clusterAt_flush_of_ne (h.live_lt hp) hd hdp hdf]
      exact hdisk d hd hdc hout
  rw [deleteAll] at hrun
  simp only [FileSystem.dirTableBuf_readDirTableBuf, ht.self, hfind,
    FileSystem.clusterMap_readDirTableBuf, ClusterMap.set_eq hfirst, ok_bind, pure_eq_ok,
    Bool.not_true, Bool.false_eq_true, ↓reduceIte] at hrun
  split at hrun
  · next hf =>
    obtain ⟨disk, hclear, hrun⟩ := bind_eq_ok.1 hrun
    obtain ⟨table, hremove, hresult⟩ := bind_eq_ok.1 hrun
    cases hresult
    have hkeep := deleteAllFolder_keeps h (hp.tail he hf) (fun x => .inl rfl) hclear
    exact ⟨rfl, hdone disk table hremove fun d hd _ hout => hkeep.kept d hd (hout hf)⟩
  · obtain ⟨table, hremove, hresult⟩ := bind_eq_ok.1 hrun
    cases hresult
    refine ⟨rfl, hdone _ table hremove fun d hd hdc _ => ?_⟩
    exact Function.update_of_ne (FileSystem.blockAddress_ne hfirst hd hdc) _ _

/-- `delete_all` reports a name that no slot carries. -/
theorem deleteAll_notFound (hself : (fs.tableAt request.parentClusterNumber 0).live = true)
    (hnone : ∀ i : Fin 64, 2 ≤ i.val →
      (fs.tableAt request.parentClusterNumber i).key ≠ request.key) :
    deleteAll steps request fs = .ok (1, fs.readDirTableBuf request.parentClusterNumber) := by
  have hfind : (findFrom 2 fun i =>
      (fs.tableAt request.parentClusterNumber i).hasKey request.key) = none :=
    findFrom_eq_none.2 fun i hi => by simp [hnone i hi]
  rw [deleteAll]
  simp only [FileSystem.dirTableBuf_readDirTableBuf, hself, hfind, Bool.not_true,
    Bool.false_eq_true, ↓reduceIte]

namespace DeletedAll
variable (h : fs.Sound) (hw : DeletedAll request fs e fs')
include h hw

/-- A live directory whose cluster is cleared is the entry's own, or below it. -/
theorem below_of_clears {d : UInt32} (hd : fs.LiveDir d)
    (hc : d = e.cluster ∨ (e.isSubdirectory = true ∧ Clears fs e.cluster d)) :
    fs.volume.Below fatFormat e d := by
  have hown : d = e.cluster → fs.volume.Below fatFormat e d := by
    rintro rfl
    have hf := (h.volume.eq_first_of_live (h.volume.first_owned hw.parent hw.mem) hd).1
    exact ⟨hf, .refl⟩
  rcases hc with heq | ⟨hf, heq | ⟨b, x, hb, hx, rfl⟩⟩
  · exact hown heq
  · exact hown heq
  · have hlive : fs.LiveDir b := (hw.parent.tail hw.mem hf).trans hb
    have hxf := (h.volume.eq_first_of_live (h.volume.first_owned hlive hx) hd).1
    exact ⟨hf, hb.tail ⟨x, hx, hxf, rfl⟩⟩

/-- The other directories that are left keep their tables. -/
theorem tableAt_of_ne {d : UInt32} (hd : fs.LiveDir d) (hout : ¬ fs.volume.Below fatFormat e d)
    (hne : d ≠ request.parentClusterNumber) : fs'.tableAt d = fs.tableAt d := by
  refine FileSystem.tableAt_congr (hw.other d (h.live_lt hd) hne (h.live_ne_fat hd) ?_ ?_)
  · exact fun heq => hout (hw.below_of_clears h hd (.inl heq))
  · exact fun hf hc => hout (hw.below_of_clears h hd (.inr ⟨hf, hc⟩))

/-- The volume loses the entry and what is below it. -/
theorem prunes : fs.volume.Prunes fatFormat fs'.volume request.parentClusterNumber e where
  parent := hw.parent
  mem := hw.mem
  kept c hc := by
    show fs'.clusterMap.next c = fs.clusterMap.next c
    have hne : c ≠ e.cluster := by
      rintro rfl
      exact hc (h.volume.first_owned hw.parent hw.mem)
    rw [hw.next, Function.update_of_ne hne]
  records := by
    obtain ⟨i, last, hi, rfl, hlast, htable⟩ := hw.table
    show fs'.entries _ = _
    rw [FileSystem.entries, htable, records_swapRemove hlast DirectoryEntry.live_zero
      (h.table hw.parent).keyInj hi (records_live hw.mem)]
    rfl
  other d hd hout hne := FileSystem.entries_congr (hw.tableAt_of_ne h hd hout hne)

/-- The entries stay in order. -/
theorem sound : fs'.Sound where
  volume := (hw.prunes h).sound h.volume
  table {d} hd := by
    obtain ⟨hd, hout⟩ := ((hw.prunes h).live_iff h.volume).1 hd
    by_cases hdp : d = request.parentClusterNumber
    · subst hdp
      obtain ⟨i, last, hi, rfl, hlast, htable⟩ := hw.table
      rw [htable]
      exact (h.table hd).swapRemove hlast (records_live hw.mem)
    · rw [hw.tableAt_of_ne h hd hout hdp]
      exact h.table hd

/-- The first cluster of an entry is not cluster 0, and neither are the ones below it. -/
theorem clusterAt_zero : fs'.clusterAt 0 = fs.clusterAt 0 := by
  have hdata : ∀ {b x}, fs.LiveDir b → x ∈ fs.entries b → (0 : UInt32) ≠ x.cluster := by
    intro b x hb hx heq
    have : DataCluster x.cluster := h.volume.data (h.volume.first_owned hb hx)
    rw [← heq] at this
    exact absurd this (by decide)
  refine hw.other 0 (by decide) (h.live_ne_zero hw.parent) (by decide) (hdata hw.parent hw.mem) ?_
  rintro hf (heq | ⟨b, x, hb, hx, heq⟩)
  · exact hdata hw.parent hw.mem heq
  · exact hdata ((hw.parent.tail hw.mem hf).trans hb) hx heq.symm

end DeletedAll

end DeleteAll

/-! ## Requests that complete -/

/-- What a request that completes does to the allocation table and the disk. -/
inductive Effect (fs fs' : FileSystem) : Prop
  | unchanged : fs'.clusterMap = fs.clusterMap → fs'.disk = fs.disk → Effect fs fs'
  | created {mem : UInt32 → UInt8} {request : DriverRequest} {i : Fin 64} {c : UInt32}
      {l : List UInt32} : Created mem request fs i c l fs' → Effect fs fs'
  | deleted {request : DriverRequest} {e : DirectoryEntry} {l : List UInt32} :
      Deleted request fs e l fs' → e.key = request.key → Effect fs fs'
  | deletedAll {request : DriverRequest} {e : DirectoryEntry} :
      DeletedAll request fs e fs' → Effect fs fs'

section Effects
variable {fs fs' : FileSystem} {mem : UInt32 → UInt8} {request : DriverRequest} {code : Int8}
  {steps : Nat} {e : DirectoryEntry} {i : Fin 64} {c : UInt32} {l : List UInt32}

/-- A `write` of a new name that returns is refused, or creates the entry. -/
theorem write_new (h : fs.Sound) (hp : fs.LiveDir request.parentClusterNumber)
    (hspare : (∀ e ∈ fs.entries request.parentClusterNumber, e.key ≠ request.key) →
      request.bufferSize = 0 → (freeClusters fs.clusterMap).length ≠ 1)
    (hnew : ∀ e ∈ fs.entries request.parentClusterNumber, e.key ≠ request.key)
    (hrun : write mem request fs = .ok (code, fs')) :
    (code ≠ 0 ∧ fs'.clusterMap = fs.clusterMap ∧ fs'.disk = fs.disk) ∨
      (code = 0 ∧ ∃ i c l, Created mem request fs i c l fs') := by
  have ht := h.table hp
  by_cases hrefuse : RefusesWrite request fs
  · have hrefused : Refused (write mem request fs) fs := write_refused_iff.2 hrefuse
    obtain ⟨code', fs'', hrun', hcode, hmap, hdisk⟩ := hrefused
    rw [hrun] at hrun'
    cases hrun'
    exact .inl ⟨hcode, hmap, hdisk⟩
  · have hfree : freeClusters fs.clusterMap ≠ [] := fun hnone => hrefuse (.inr (.inr hnone))
    have hnf : ¬ fs.Full request.parentClusterNumber := by
      intro hfull
      rw [write_full ht.self hfull (fun k hk => hnew _ (slot_mem_records hk (hfull k hk))) hfree]
        at hrun
      cases hrun
    have hroom : clustersWanted request.bufferSize ≤ (freeClusters fs.clusterMap).length := by
      have hpos := List.length_pos_iff.2 hfree
      unfold clustersWanted
      split
      · next hzero =>
        have := hspare hnew hzero
        omega
      · next hsize =>
        by_contra hlt
        rw [write_exhausted ht.self hnf hnew hsize hfree (not_le.1 hlt)] at hrun
        cases hrun
    obtain ⟨i, c, l, fs'', hrun', hw⟩ := write_spec mem h ⟨hp, hnf, hnew, hroom⟩
    rw [hrun] at hrun'
    cases hrun'
    exact .inr ⟨rfl, i, c, l, hw⟩

/-- A `write` that returns is refused, or creates the entry. -/
theorem write_effect (h : fs.Sound) (hp : fs.LiveDir request.parentClusterNumber)
    (hspare : (∀ e ∈ fs.entries request.parentClusterNumber, e.key ≠ request.key) →
      request.bufferSize = 0 → (freeClusters fs.clusterMap).length ≠ 1)
    (hrun : write mem request fs = .ok (code, fs')) : Effect fs fs' := by
  by_cases hdup : ∃ e ∈ fs.entries request.parentClusterNumber, e.key = request.key
  · obtain ⟨e, he, hkey⟩ := hdup
    rw [write_duplicate (h.table hp) he hkey] at hrun
    cases hrun
    exact .unchanged rfl rfl
  · have hnew : ∀ e ∈ fs.entries request.parentClusterNumber, e.key ≠ request.key :=
      fun e he hkey => hdup ⟨e, he, hkey⟩
    rcases write_new h hp hspare hnew hrun with ⟨-, hmap, hdisk⟩ | ⟨-, i, c, l, hw⟩
    · exact .unchanged hmap hdisk
    · exact .created hw

/-- A `delete` of a file or of an empty folder that returns removes the entry. -/
theorem delete_of_ok (h : fs.Sound) (hp : fs.LiveDir request.parentClusterNumber)
    (he : e ∈ fs.entries request.parentClusterNumber) (hkey : e.key = request.key)
    (hempty : e.isSubdirectory = true → fs.entries e.cluster = ∅)
    (hrun : delete request fs = .ok (code, fs')) : code = 0 ∧ ∃ l, Deleted request fs e l fs' := by
  have hnf : ¬ fs.Full request.parentClusterNumber := by
    intro hfull
    rw [delete_full h hp hfull he hkey hempty] at hrun
    cases hrun
  obtain ⟨l, fs'', hrun', hw⟩ := delete_spec h hp hnf he hkey hempty
  rw [hrun] at hrun'
  cases hrun'
  exact ⟨rfl, l, hw⟩

/-- A `delete` that returns is refused, or removes the entry. -/
theorem delete_effect (h : fs.Tidy) (hp : fs.LiveDir request.parentClusterNumber)
    (hname : request.name ≠ Vector.replicate 8 0)
    (hrun : delete request fs = .ok (code, fs')) : Effect fs fs' := by
  have ht := h.table hp
  by_cases hfound : ∃ e ∈ fs.entries request.parentClusterNumber, e.key = request.key
  · obtain ⟨e, he, hkey⟩ := hfound
    by_cases hkeep : e.isSubdirectory = true ∧ fs.entries e.cluster ≠ ∅
    · rw [delete_notEmpty h.toSound hp he hkey hkeep.1 hkeep.2] at hrun
      cases hrun
      exact .unchanged rfl rfl
    · have hempty : e.isSubdirectory = true → fs.entries e.cluster = ∅ :=
        fun hf => not_not.1 fun hne => hkeep ⟨hf, hne⟩
      obtain ⟨-, l, hw⟩ := delete_of_ok h.toSound hp he hkey hempty hrun
      exact .deleted hw hkey
  · have hno : ∀ e ∈ fs.entries request.parentClusterNumber, e.key ≠ request.key :=
      fun e he hkey => hfound ⟨e, he, hkey⟩
    rw [delete_notFound ht.self (h.key_ne hp hname hno)] at hrun
    cases hrun
    exact .unchanged rfl rfl

/-- A `delete_all` that returns is refused, or removes the entry and what is below it. -/
theorem deleteAll_effect_of_ok (h : fs.Tidy) (hp : fs.LiveDir request.parentClusterNumber)
    (hname : request.name ≠ Vector.replicate 8 0)
    (hrun : deleteAll steps request fs = .ok (code, fs')) : Effect fs fs' := by
  by_cases hfound : ∃ e ∈ fs.entries request.parentClusterNumber, e.key = request.key
  · obtain ⟨e, he, hkey⟩ := hfound
    exact .deletedAll (deleteAll_spec h.toSound hp he hkey hrun).2
  · have hno : ∀ e ∈ fs.entries request.parentClusterNumber, e.key ≠ request.key :=
      fun e he hkey => hfound ⟨e, he, hkey⟩
    rw [deleteAll_notFound (h.table hp).self (h.key_ne hp hname hno)] at hrun
    cases hrun
    exact .unchanged rfl rfl

theorem Created.clusterAt_zero (h : fs.Sound) (hw : Created mem request fs i c l fs') :
    fs'.clusterAt 0 = fs.clusterAt 0 :=
  hw.other 0 (by decide) (h.live_ne_zero hw.parent) (by decide) zero_not_free

theorem Deleted.clusterAt_zero (h : fs.Sound) (hw : Deleted request fs e l fs') :
    fs'.clusterAt 0 = fs.clusterAt 0 :=
  hw.other 0 (by decide) (h.live_ne_zero hw.parent) (by decide) (hw.notMem h (by decide))

/-- A removed subtree leaves zero bytes in the unused slots. -/
theorem DeletedAll.tidy (h : fs.Tidy) (hw : DeletedAll request fs e fs') : fs'.Tidy := by
  refine ⟨hw.sound h.toSound, ?_, hw.fatOnDisk⟩
  intro d hd j hj hdead
  obtain ⟨hd, hout⟩ := ((hw.prunes h.toSound).live_iff h.volume).1 hd
  by_cases hdp : d = request.parentClusterNumber
  · subst hdp
    obtain ⟨i, last, hi, rfl, hlast, htable⟩ := hw.table
    rw [htable] at hdead ⊢
    exact clean_swapRemove hlast (h.clean hd) hj hdead
  · rw [hw.tableAt_of_ne h.toSound hd hout hdp] at hdead ⊢
    exact h.clean hd j hj hdead

/-- Whatever a request does, it leaves the disk coherent. -/
theorem Effect.coherent (h : fs.Coherent) (hw : Effect fs fs') : fs'.Coherent := by
  cases hw with
  | unchanged hmap hdisk =>
    obtain ⟨map', buf', disk'⟩ := fs'
    obtain rfl : map' = fs.clusterMap := hmap
    obtain rfl : disk' = fs.disk := hdisk
    exact ⟨⟨⟨h.volume, h.table⟩, h.clean, h.fatOnDisk⟩, h.signature⟩
  | created hw =>
    refine ⟨(Request.Outcome.created hw).tidy h.toTidy, ?_⟩
    rw [isEmptyStorage_congr (hw.clusterAt_zero h.toSound), h.signature]
  | deleted hw hkey =>
    refine ⟨(Request.Outcome.deleted hw hkey).tidy h.toTidy, ?_⟩
    rw [isEmptyStorage_congr (hw.clusterAt_zero h.toSound), h.signature]
  | deletedAll hw =>
    refine ⟨hw.tidy h.toTidy, ?_⟩
    rw [isEmptyStorage_congr (hw.clusterAt_zero h.toSound), h.signature]

end Effects

/-! ## Calls -/

/-- A request to the driver. `mem` is the memory of the caller, and a `delete_all` goes down to a
depth of `steps` folders. -/
inductive DriverCall
  | read (request : DriverRequest)
  | readDirectory (request : DriverRequest)
  | write (mem : UInt32 → UInt8) (request : DriverRequest)
  | delete (request : DriverRequest)
  | deleteAll (steps : Nat) (request : DriverRequest)

/-- What the caller gets back: the code, and the clusters stored at `buf`. -/
structure Reply where
  code : Int8
  stored : List ClusterBuffer

namespace DriverCall

def request : DriverCall → DriverRequest
  | read request => request
  | readDirectory request => request
  | write _ request => request
  | delete request => request
  | deleteAll _ request => request

/-- The function of the driver that the call runs. -/
def run : DriverCall → FileSystem → Except Fault (Reply × FileSystem)
  | read request, fs => do
    let r ← OsKernel.read request fs
    return (⟨r.code, r.stored⟩, r.fs)
  | readDirectory request, fs => do
    let r ← OsKernel.readDirectory request fs
    return (⟨r.code, r.stored⟩, r.fs)
  | write mem request, fs => do
    let (code, fs) ← OsKernel.write mem request fs
    return (⟨code, []⟩, fs)
  | delete request, fs => do
    let (code, fs) ← OsKernel.delete request fs
    return (⟨code, []⟩, fs)
  | deleteAll steps request, fs => do
    let (code, fs) ← OsKernel.deleteAll steps request fs
    return (⟨code, []⟩, fs)

/-- The parent is a live directory and the name is not all zero bytes. A new folder is not made with
a single free cluster left, for which `init_directory_table` writes to the cluster -1. -/
def Permitted (q : DriverCall) (fs : FileSystem) : Prop :=
  fs.LiveDir q.request.parentClusterNumber ∧ q.request.name ≠ Vector.replicate 8 0 ∧
  match q with
  | write _ request =>
    (∀ e ∈ fs.entries request.parentClusterNumber, e.key ≠ request.key) → request.bufferSize = 0 →
      (freeClusters fs.clusterMap).length ≠ 1
  | _ => True

end DriverCall

/-- The call completes: no index is out of its range. -/
def DriverStep (q : DriverCall) (fs fs' : FileSystem) : Prop := ∃ reply, q.run fs = .ok (reply, fs')

section Calls
variable {q : DriverCall} {fs fs' : FileSystem}

theorem DriverStep.effect (h : fs.Coherent) (hq : q.Permitted fs) (hstep : DriverStep q fs fs') :
    Effect fs fs' := by
  obtain ⟨hp, hname, hspare⟩ := hq
  obtain ⟨reply, hrun⟩ := hstep
  cases q with
  | read request =>
    obtain ⟨r, hread, hrun⟩ := bind_eq_ok.1 hrun
    cases hrun
    rw [readEntry_fs hread]
    exact .unchanged rfl rfl
  | readDirectory request =>
    obtain ⟨r, hread, hrun⟩ := bind_eq_ok.1 hrun
    cases hrun
    rw [readEntry_fs hread]
    exact .unchanged rfl rfl
  | write mem request =>
    obtain ⟨r, hwrite, hrun⟩ := bind_eq_ok.1 hrun
    cases hrun
    exact write_effect h.toSound hp hspare hwrite
  | delete request =>
    obtain ⟨r, hdelete, hrun⟩ := bind_eq_ok.1 hrun
    cases hrun
    exact delete_effect h.toTidy hp hname hdelete
  | deleteAll steps request =>
    obtain ⟨r, hdelete, hrun⟩ := bind_eq_ok.1 hrun
    cases hrun
    exact deleteAll_effect_of_ok h.toTidy hp hname hdelete

/-- The disk is coherent after every run. -/
theorem coherent_run (hrun : Run DriverStep DriverCall.Permitted fs fs') (h : fs.Coherent) :
    fs'.Coherent :=
  hrun.invariant (fun _ _ _ hs hq hstep => (hstep.effect hs hq).coherent hs) h

end Calls

/-! ## Restarts -/

/-- The driver after a restart: `initialize_filesystem_fat32` on the same disk. -/
def FileSystem.restart (pad0 : Vector UInt8 6) (pad1 : Vector UInt8 5) (fs : FileSystem) :
    FileSystem :=
  initializeFilesystemFat32 pad0 pad1 (.zeroed fs.disk)

/-- One call after the other: the replies, and the state after the last call. -/
def runCalls : List DriverCall → FileSystem → Except Fault (List Reply × FileSystem)
  | [], fs => .ok ([], fs)
  | q :: qs, fs => do
    let (reply, fs) ← q.run fs
    let (replies, fs) ← runCalls qs fs
    return (reply :: replies, fs)

/-- What can be seen of the driver from outside. -/
def observed (x : Except Fault (List Reply × FileSystem)) : Except Fault (List Reply × Disk) :=
  x.map fun (replies, fs) => (replies, fs.disk)

section Restart
variable {fs fs' : FileSystem} {q : DriverCall}

/-- The table of the parent is read from the disk, whatever was in the buffer. -/
theorem readDirTableBuf_congr (hmap : fs'.clusterMap = fs.clusterMap) (hdisk : fs'.disk = fs.disk)
    (c : UInt32) : fs'.readDirTableBuf c = fs.readDirTableBuf c := by
  obtain ⟨map', buf', disk'⟩ := fs'
  obtain rfl : map' = fs.clusterMap := hmap
  obtain rfl : disk' = fs.disk := hdisk
  rfl

/-- A call depends on the allocation table and the disk only. -/
theorem DriverCall.run_congr (hmap : fs'.clusterMap = fs.clusterMap) (hdisk : fs'.disk = fs.disk) :
    q.run fs' = q.run fs := by
  have hread := readDirTableBuf_congr hmap hdisk
  cases q with
  | read request =>
    simp only [run, OsKernel.read, readEntry]
    rw [hread]
  | readDirectory request =>
    simp only [run, OsKernel.readDirectory, readEntry]
    rw [hread]
  | write mem request =>
    simp only [run, OsKernel.write]
    rw [hread]
  | delete request =>
    simp only [run, OsKernel.delete]
    rw [hread]
  | deleteAll steps request =>
    simp only [run, OsKernel.deleteAll]
    rw [hread]

theorem runCalls_congr (hmap : fs'.clusterMap = fs.clusterMap) (hdisk : fs'.disk = fs.disk)
    (qs : List DriverCall) : observed (runCalls qs fs') = observed (runCalls qs fs) := by
  cases qs with
  | nil =>
    show Except.ok ([], fs'.disk) = Except.ok ([], fs.disk)
    rw [hdisk]
  | cons q qs => rw [runCalls, runCalls, DriverCall.run_congr hmap hdisk]

/-- A restart on a coherent disk reads the allocation table back. -/
theorem FileSystem.Coherent.restart_eq (h : fs.Coherent) (pad0 : Vector UInt8 6)
    (pad1 : Vector UInt8 5) :
    fs.restart pad0 pad1 = fs.readDirTableBuf rootClusterNumber := by
  have hmap : ((FileSystem.zeroed fs.disk).clusterAt fatClusterNumber).toClusterMap =
      fs.clusterMap := by
    rw [show (FileSystem.zeroed fs.disk).clusterAt fatClusterNumber = _ from h.fatOnDisk,
      toClusterMap_bytes]
  unfold FileSystem.restart initializeFilesystemFat32
  rw [show (FileSystem.zeroed fs.disk).disk = fs.disk from rfl, h.signature,
    if_neg (by decide), hmap]
  rfl

end Restart

/-- After every run of calls that complete, the disk holds the allocation table and the signature. A
restart does not format the disk again, reads the same table, and replies and disks are the same
after it as without it, whatever the calls. -/
theorem restart_transparent {pad0 : Vector UInt8 6} {pad1 : Vector UInt8 5} {disk : Disk}
    {fs : FileSystem}
    (hrun : Run DriverStep DriverCall.Permitted (createFat32 pad0 pad1 (.zeroed disk)) fs) :
    fs.clusterAt fatClusterNumber = fs.clusterMap.bytes ∧
    (∀ i : Fin blockSize, fs.clusterAt 0 ⟨i.val, i.isLt.trans (by decide)⟩ = fsSignature i) ∧
    ∀ (pad0' : Vector UInt8 6) (pad1' : Vector UInt8 5),
      isEmptyStorage fs.disk = false ∧ (fs.restart pad0' pad1').disk = fs.disk ∧
      (fs.restart pad0' pad1').clusterMap = fs.clusterMap ∧
      ∀ qs, observed (runCalls qs (fs.restart pad0' pad1')) = observed (runCalls qs fs) := by
  have h := coherent_run hrun coherent_createFat32
  refine ⟨h.fatOnDisk, h.block0, fun pad0' pad1' => ⟨h.signature, ?_, ?_, fun qs => ?_⟩⟩
  · rw [h.restart_eq]
    rfl
  · rw [h.restart_eq]
    rfl
  · rw [h.restart_eq]
    exact @runCalls_congr fs (fs.readDirTableBuf rootClusterNumber) rfl rfl qs

/-- A file of two clusters is written and goes with `delete_all`, which leaves its second cluster in
use. A restart then changes nothing. -/
theorem restart_transparent_leaked : ∃ fs₁ fs,
    write (fun _ => 1) (sampleRequest 'A' 2 3000) blankFileSystem = .ok (0, fs₁) ∧
    deleteAll 1 (sampleRequest 'A' 2 3000) fs₁ = .ok (0, fs) ∧
    ∀ qs, observed (runCalls qs (fs.restart (Vector.replicate 6 0) (Vector.replicate 5 0))) =
      observed (runCalls qs fs) := by
  obtain ⟨fs₁, e, hwrite, h, hp, hnf, he, hkey, hfile, -⟩ := exists_oneFile
    (show (sampleRequest 'A' 2 3000).parentClusterNumber = rootClusterNumber from rfl) (by decide)
    (by decide)
  obtain ⟨fs, hdelete⟩ := deleteAll_file h.sound hp hnf he hkey hfile 1
  have hname : (sampleRequest 'A' 2 3000).name ≠ Vector.replicate 8 0 := by decide
  have hsize : (sampleRequest 'A' 2 3000).bufferSize ≠ 0 := by decide
  have hrun : Run DriverStep DriverCall.Permitted blankFileSystem fs := by
    refine .tail (.tail (a := .write (fun _ => 1) (sampleRequest 'A' 2 3000)) .refl
      ⟨.root, hname, fun _ hzero => absurd hzero hsize⟩ ⟨⟨0, []⟩, ?_⟩)
      (a := .deleteAll 1 (sampleRequest 'A' 2 3000)) ⟨hp, hname, trivial⟩ ⟨⟨0, []⟩, ?_⟩
    · rw [DriverCall.run, hwrite]
      rfl
    · rw [DriverCall.run, hdelete]
      rfl
  have hrestart := restart_transparent hrun
  exact ⟨fs₁, fs, hwrite, hdelete, (hrestart.2.2 _ _).2.2.2⟩

end OsKernel
