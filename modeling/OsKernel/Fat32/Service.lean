import OsKernel.Fat32.Integrity
import OsKernel.Fat32.Labels
import OsKernel.Fat32.Lookup
import OsKernel.Fat32.Restart

/-!
# The driver in service

`InService` is what every call of the driver keeps, `delete_all`, `move` and a restart included: the
directories are labelled, the disk carries the signature, and the chain of the root directory is one
cluster long. Removals and moves leave the files alone that they do not name (`Holds.deletedAll`,
`Holds.moved`).
-/

namespace OsKernel

open Lib Relation

/-- The directories are labelled, the disk is formatted, and the root directory takes one
cluster. -/
structure FileSystem.InService (fs : FileSystem) : Prop extends fs.Labelled where
  signature : isEmptyStorage fs.disk = false
  rootLast : fs.clusterMap.next rootClusterNumber = fatEndOfFile

theorem FileSystem.InService.coherent {fs : FileSystem} (h : fs.InService) : fs.Coherent :=
  ⟨h.toTidy, h.signature⟩

/-- A new file system can be put into service. -/
theorem inService_createFat32 {pad0 : Vector UInt8 6} {pad1 : Vector UInt8 5} {disk : Disk} :
    (createFat32 pad0 pad1 (.zeroed disk)).InService where
  toLabelled := labelled_createFat32
  signature := coherent_createFat32.signature
  rootLast := by rw [next_createFat32, if_pos rfl]

/-- What is found on the disk and in the allocation table does not depend on the buffer. -/
theorem FileSystem.InService.congr {fs fs' : FileSystem} (h : fs.InService)
    (hmap : fs'.clusterMap = fs.clusterMap) (hdisk : fs'.disk = fs.disk) : fs'.InService := by
  obtain ⟨map', buf', disk'⟩ := fs'
  obtain rfl : map' = fs.clusterMap := hmap
  obtain rfl : disk' = fs.disk := hdisk
  exact ⟨⟨⟨⟨h.volume, h.table⟩, h.clean, h.fatOnDisk⟩, ⟨h.parent, h.dotdot⟩, h.proper,
    h.self, h.root⟩, h.signature, h.rootLast⟩

/-- The live directories can be searched. -/
theorem FileSystem.InService.readableDir {fs : FileSystem} {p : UInt32} (h : fs.InService)
    (hp : fs.LiveDir p) : fs.ReadableDir p where
  lt := h.live_lt hp
  last := by
    rcases h.volume.live_owned hp with rfl | ⟨b, e, ho, hf, rfl⟩
    · exact h.rootLast
    · obtain ⟨l, hl, -, hlen⟩ := h.chain ho.1 ho.2.1
      have hone : e.clusterCount = 1 := if_pos hf
      cases hl with
      | last hstop => exact hstop
      | cons _ ht =>
        rw [hone, List.length_cons] at hlen
        exact absurd (List.length_eq_zero_iff.1 (Nat.succ.inj hlen)) ht.ne_nil
  table := h.table hp
  chain e he := by
    obtain ⟨l, hl, hdata, -⟩ := h.chain hp he
    exact ⟨l, hl, fun c hc => (hdata c hc).2⟩

/-! ## New entries and removals -/

section Calls
variable {fs fs' : FileSystem} {request : DriverRequest} {e : DirectoryEntry} {l : List UInt32}
  {i : Fin 64} {c : UInt32} {mem : UInt32 → UInt8}

/-- No entry owns the cluster of the root directory. -/
theorem FileSystem.Sound.root_notOwned (h : fs.Sound) {d : UInt32} :
    ¬ fs.Owns d e rootClusterNumber :=
  fun ho => fatFormat.root_notData (h.volume.data ho)

/-- A new entry with a proper name keeps the file system in service. -/
theorem Created.inService (h : fs.InService) (hname : ProperName request.name)
    (hext : request.bufferSize = 0 → request.ext = Vector.replicate 3 0)
    (hw : Created mem request fs i c l fs') : fs'.InService where
  toLabelled := Request.Outcome.labelled h.toLabelled (q := .write mem request) ⟨hname, hext⟩
    (.created hw)
  signature := ((Effect.created hw).coherent h.coherent).signature
  rootLast := by
    have hroot : rootClusterNumber ∉ c :: l := fun hmem =>
      fatFormat.root_notData ((hw.grows h.toSound).fresh _ hmem).1
    exact ((hw.grows h.toSound).next_of_notMem hroot).trans h.rootLast

/-- So does the removal of an entry. -/
theorem Deleted.inService (h : fs.InService) (hw : Deleted request fs e l fs')
    (hkey : e.key = request.key) : fs'.InService where
  toLabelled := Request.Outcome.labelled h.toLabelled (q := .delete request) trivial
    (.deleted hw hkey)
  signature := ((Effect.deleted hw hkey).coherent h.coherent).signature
  rootLast := by
    have hroot : rootClusterNumber ∉ l := fun hmem =>
      h.root_notOwned ((hw.shrinks h.toSound).owns_of_mem hmem)
    exact (hw.kept _ hroot).trans h.rootLast

namespace DeletedAll
variable (h : fs.Labelled) (hw : DeletedAll request fs e fs')
include h hw

/-- The first two slots of the directories that are left stay the same. -/
theorem slot_head {d : UInt32} (hd : fs'.LiveDir d) {j : Fin 64} (hj : j.val < 2) :
    fs'.tableAt d j = fs.tableAt d j := by
  obtain ⟨hd, hout⟩ := ((hw.prunes h.toSound).live_iff h.volume).1 hd
  by_cases hdp : d = request.parentClusterNumber
  · subst hdp
    obtain ⟨i, last, hi, rfl, hlast, htable⟩ := hw.table
    have hjl : j ≠ last := by
      rintro rfl
      exact absurd hlast.1 (not_le.2 hj)
    have hji : j ≠ i := by
      rintro rfl
      exact absurd hi (not_le.2 hj)
    rw [htable, swapRemove_of_ne hjl, if_neg hji]
  · rw [hw.tableAt_of_ne h.toSound hd hout hdp]

/-- The directories that are left keep their labels. -/
theorem labelled : fs'.Labelled := by
  have hp := hw.prunes h.toSound
  have hroot : fs'.LiveDir rootClusterNumber := .root
  refine ⟨hw.tidy h.toTidy, ⟨fun {b d} hb hbd => ?_, fun {d} hd => ?_⟩, fun {d e} hd he => ?_,
    fun {d e} hd he hf => ?_, ?_⟩
  · obtain ⟨hb', hout⟩ := (hp.live_iff h.volume).1 hb
    rw [hw.slot_head h (ReflTransGen.tail hb hbd) (by decide)]
    exact h.parent hb' ((hp.edge_iff h.volume hb' hout).1 hbd).1
  · rw [hw.slot_head h hd (by decide)]
    exact h.dotdot ((hp.live_iff h.volume).1 hd).1
  · obtain ⟨hd, -, he, -⟩ := hp.mem_of_live h.volume hd he
    exact h.proper hd he
  · have hchild : fs'.LiveDir e.cluster := hd.tail he hf
    rw [hw.slot_head h hchild (by decide)]
    obtain ⟨hd, -, he, -⟩ := hp.mem_of_live h.volume hd he
    exact h.self hd he hf
  · rw [hw.slot_head h hroot (by decide)]
    exact h.root

end DeletedAll

/-- So does the removal of an entry with all below it. -/
theorem DeletedAll.inService (h : fs.InService) (hw : DeletedAll request fs e fs') :
    fs'.InService where
  toLabelled := hw.labelled h.toLabelled
  signature := ((Effect.deletedAll hw).coherent h.coherent).signature
  rootLast := by
    have hne : rootClusterNumber ≠ e.cluster := by
      intro heq
      refine h.root_notOwned (d := request.parentClusterNumber) (e := e) ?_
      rw [heq]
      exact h.volume.first_owned hw.parent hw.mem
    rw [hw.next, Function.update_of_ne hne]
    exact h.rootLast

/-- The removal of an entry with all below it leaves the other files alone. -/
theorem Holds.deletedAll {f : StoredFile} {x : DirectoryEntry} (h : fs.Sound) (hf : Holds fs f e l)
    (hw : DeletedAll request fs x fs') (hout : ¬ fs.volume.Below fatFormat x f.parent)
    (hne : ¬ (f.parent = request.parentClusterNumber ∧ e = x)) : Holds fs' f e l := by
  have hp := hw.prunes h
  refine ⟨(hp.live_iff h.volume).2 ⟨hf.parent, hout⟩,
    (hp.mem_records_iff hf.parent hout).2 ⟨hf.mem, hne⟩, hf.key, hf.file, hf.size,
    hp.chain_of_old h.volume hf.parent hf.mem hne hf.chain, hf.bytes.congr fun d hd => ?_⟩
  have ho : fs.Owns f.parent e d := ⟨hf.parent, hf.mem, l, hf.chain, hd⟩
  have hdata := h.volume.data ho
  refine hw.other d hdata.2 (fun heq => hf.not_live h hd (heq ▸ hw.parent)) hdata.ne_fat ?_ ?_
  · rintro rfl
    exact hne (h.volume.unique ho (h.volume.first_owned hw.parent hw.mem))
  · rintro hx (rfl | ⟨b, y, hb, hy, rfl⟩)
    · exact hne (h.volume.unique ho (h.volume.first_owned hw.parent hw.mem))
    · have hchild : fs.LiveDir x.cluster := hw.parent.tail hw.mem hx
      obtain ⟨rfl, -⟩ := h.volume.unique ho (h.volume.first_owned (hchild.trans hb) hy)
      exact hout ⟨hx, hb⟩

end Calls

/-! ## Moves -/

section Moves
variable {fs fs' : FileSystem} {S T : UInt32} {i k : Fin 64}
  {key : Vector UInt8 8 × Vector UInt8 3} {t : DirectoryTable}
  (hm : Moved fs S T i k ((fs.tableAt S i).rename key) t fs') (hS : fs.LiveDir S)
  (hT : fs.LiveDir T) (hc : Carries fs S T i key)
include hm hS hT hc

/-- A `move` writes to directories only. -/
theorem Moved.clusterAt_of_not_live (h : fs.Labelled) {d : UInt32} (hlt : d.toNat < 512)
    (hd : ¬ fs.LiveDir d) : fs'.clusterAt d = fs.clusterAt d := by
  have hblock : ∀ {x}, fs.LiveDir x → blockAddress d ≠ blockAddress x := fun hx =>
    FileSystem.blockAddress_ne (h.live_lt hx) hlt fun heq => hd (heq ▸ hx)
  have htable : fs'.tableAt d = fs.tableAt d := by
    rw [hm.table, if_neg (hblock hT), if_neg (hblock hS), if_neg]
    rintro ⟨hf, heq⟩
    have hchild : fs.LiveDir (fs.tableAt S i).cluster :=
      hS.tail (slot_mem_records hc.child hc.live) hf
    exact hblock hchild heq
  exact toDirectoryTable_inj.1 htable

/-- A `move` keeps the file system in service. -/
theorem Moved.inService (h : fs.InService) (hk : FreeSlot (fs.tableAt T) key k) :
    fs'.InService where
  toLabelled := hm.labelled h.toLabelled hS hT hk hc
  signature := by
    have hzero : ¬ fs.LiveDir 0 := fun h0 => h.live_ne_zero h0 rfl
    rw [isEmptyStorage_congr (hm.clusterAt_of_not_live hS hT hc h.toLabelled (by decide) hzero),
      h.signature]
  rootLast := by
    rw [hm.map]
    exact h.rootLast

/-- The files that stay in their directory. -/
theorem Holds.moved_other {f : StoredFile} {e : DirectoryEntry} {l : List UInt32} (h : fs.Labelled)
    (hk : FreeSlot (fs.tableAt T) key k) (hf : Holds fs f e l)
    (hne : ¬ (f.parent = S ∧ e = fs.tableAt S i)) : Holds fs' f e l where
  parent := (hm.live_iff_child h hS hT hk hc).2 hf.parent
  mem := ((hm.relinks_child h hS hT hk hc).mem_records_iff hf.parent).2 (.inl ⟨hf.mem, hne⟩)
  key := hf.key
  file := hf.file
  size := hf.size
  chain := by
    rw [FileSystem.Chain, hm.map]
    exact hf.chain
  bytes := hf.bytes.congr fun d hd => by
    have ho : fs.Owns f.parent e d := ⟨hf.parent, hf.mem, l, hf.chain, hd⟩
    exact hm.clusterAt_of_not_live hS hT hc h (h.volume.data ho).2 (hf.not_live h.toSound hd)

/-- A file that moves takes its bytes along. -/
theorem Holds.moved {bytes : List UInt8} {l : List UInt32} (h : fs.Labelled)
    (hk : FreeSlot (fs.tableAt T) key k)
    (hf : Holds fs ⟨S, (fs.tableAt S i).key, bytes⟩ (fs.tableAt S i) l) :
    Holds fs' ⟨T, key, bytes⟩ ((fs.tableAt S i).rename key) l where
  parent := (hm.live_iff_child h hS hT hk hc).2 hT
  mem := ((hm.relinks_child h hS hT hk hc).mem_records_iff hT).2 (.inr ⟨rfl, rfl⟩)
  key := rename_key
  file := hf.file
  size := hf.size
  chain := by
    rw [FileSystem.Chain, hm.map]
    exact hf.chain
  bytes := hf.bytes.congr fun d hd => by
    have ho : fs.Owns S (fs.tableAt S i) d := ⟨hf.parent, hf.mem, l, hf.chain, hd⟩
    exact hm.clusterAt_of_not_live hS hT hc h (h.volume.data ho).2 (hf.not_live h.toSound hd)

end Moves

end OsKernel
