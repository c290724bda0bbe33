import OsKernel.Lib.NameStore
import OsKernel.Fat32.Service

/-!
# The driver as a store of files

For its callers the driver is a store: directories that hold files and folders under names, and
files with their bytes. `StorageCall.Answered` says what a call answers and what becomes of the
store, in terms of the store alone; clusters, slots and the allocation table do not occur. Whatever
calls a driver in service gets, restarts included, its answers are answers of a store
(`driver_refines`).
-/

namespace OsKernel

open Lib Relation

/-! ## The store -/

/-- Directories are named by their cluster, and what they hold by name and extension. -/
abbrev FileStore := Store UInt32 (Vector UInt8 8 × Vector UInt8 3) (List UInt8)

/-- A call of the driver, a `move`, or a restart of the machine. -/
inductive StorageCall
  | driver (q : DriverCall)
  | move (src tar : DriverRequest)
  | restart (pad0 : Vector UInt8 6) (pad1 : Vector UInt8 5)

/-- The functions of the driver that the calls run. -/
def StorageCall.run : StorageCall → FileSystem → Except Fault (Reply × FileSystem)
  | driver q, fs => q.run fs
  | move src tar, fs => do
    let (code, fs) ← OsKernel.move src tar fs
    return (⟨code, []⟩, fs)
  | restart pad0 pad1, fs => .ok (⟨0, []⟩, fs.restart pad0 pad1)

namespace FileStore
variable (s : FileStore)

/-- No other extension goes with the name. -/
def Only (d : UInt32) (key : Vector UInt8 8 × Vector UInt8 3) : Prop :=
  ∀ key', s d key' ≠ none → key'.1 = key.1 → key' = key

/-- The table lists what the directory `d` holds. -/
def Lists (d : UInt32) (t : DirectoryTable) : Prop :=
  ∀ key, s d key ≠ none ↔ ∃ e ∈ records 2 DirectoryEntry.live t, e.key = key

/-- The place that a `move` is to: in the folder that has the target's name, if there is one, under
the source's name. -/
def destination (src tar : DriverRequest) : Option (UInt32 × (Vector UInt8 8 × Vector UInt8 3)) :=
  match s tar.parentClusterNumber tar.key with
  | none => some (tar.parentClusterNumber, tar.key)
  | some (.folder c) => if (s c src.key).isNone then some (c, src.key) else none
  | some (.file _) => none

end FileStore

/-- What a `read` stores starts with the bytes. -/
def Delivers (stored : List ClusterBuffer) (bytes : List UInt8) : Prop :=
  ∀ k < bytes.length, bufferByte stored k = bytes[k]?

/-- What a call answers for the store `s`, and what becomes of it. A full table and a full disk are
not part of a store, so a `write` of a new name and a `move` may be refused. -/
def StorageCall.Answered (s : FileStore) : StorageCall → Reply → FileStore → Prop
  | driver (.read request), reply, s' =>
    s' = s ∧
    (∀ bytes, s request.parentClusterNumber request.key = some (.file bytes) →
      s.Only request.parentClusterNumber request.key → reply.code = 0 ∧
        (2048 ∣ request.bufferSize.toNat → bytes.length ≤ request.bufferSize.toNat →
          Delivers reply.stored bytes)) ∧
    ((∀ ext, s request.parentClusterNumber (request.name, ext) = none) → reply.code = 2)
  | driver (.readDirectory request), reply, s' =>
    s' = s ∧
    (∀ c, s request.parentClusterNumber request.folderKey = some (.folder c) →
      s.Only request.parentClusterNumber request.folderKey → reply.code = 0 ∧
        (request.bufferSize ≠ 0 → ∃ b : ClusterBuffer, reply.stored = [b] ∧
          s.Lists c b.toDirectoryTable)) ∧
    ((∀ ext, s request.parentClusterNumber (request.name, ext) = none) → reply.code = 2)
  | driver (.write mem request), reply, s' =>
    (s request.parentClusterNumber request.key ≠ none → reply.code = 1 ∧ s' = s) ∧
    (s request.parentClusterNumber request.key = none →
      (reply.code ≠ 0 ∧ s' = s) ∨
      (reply.code = 0 ∧ request.bufferSize ≠ 0 ∧
        s' = s.put request.parentClusterNumber request.key (givenBytes mem request)) ∨
      (reply.code = 0 ∧ request.bufferSize = 0 ∧ ∃ c, ¬ s.Reach rootClusterNumber c ∧
        s' = s.mkdir request.parentClusterNumber request.key c))
  | driver (.delete request), reply, s' =>
    (s request.parentClusterNumber request.key = none → reply.code = 1 ∧ s' = s) ∧
    (∀ bytes, s request.parentClusterNumber request.key = some (.file bytes) →
      reply.code = 0 ∧ s' = s.erase request.parentClusterNumber request.key) ∧
    (∀ c, s request.parentClusterNumber request.key = some (.folder c) →
      ((∀ key, s c key = none) →
        reply.code = 0 ∧ s' = s.erase request.parentClusterNumber request.key) ∧
      (∀ key, s c key ≠ none → reply.code = 2 ∧ s' = s))
  | driver (.deleteAll _ request), reply, s' =>
    (s request.parentClusterNumber request.key = none → reply.code = 1 ∧ s' = s) ∧
    (s request.parentClusterNumber request.key ≠ none →
      reply.code = 0 ∧ s' = s.erase request.parentClusterNumber request.key)
  | move src tar, reply, s' =>
    (s.destination src tar = none → reply.code = 2 ∧ s' = s) ∧
    (∀ T key, s.destination src tar = some (T, key) →
      (reply.code = 0 ∧ s' = s.move src.parentClusterNumber src.key T key) ∨
      (reply.code = 3 ∧ s' = s))
  | restart _ _, _, s' => s' = s

/-- The calls of a run: a request as the driver permits it, with a proper name if it is a `write`,
or a proper `move`. -/
def StorageCall.Proper : StorageCall → FileSystem → Prop
  | driver q, fs => q.Permitted fs ∧
    match q with
    | .write _ request => ProperName request.name ∧
        (request.bufferSize = 0 → request.ext = Vector.replicate 3 0)
    | _ => True
  | move src tar, fs => ProperMove fs src tar
  | restart _ _, _ => True

/-! ## The store that a disk holds -/

/-- The file system holds what is in the store. -/
def FileSystem.Represents (fs : FileSystem) (s : FileStore) : Prop :=
  Lib.Represents fatFormat DirectoryEntry.key
    (fun d e bytes => ∃ l, Holds fs ⟨d, e.key, bytes⟩ e l) fs.volume s

section Represents
variable {fs fs' : FileSystem} {s : FileStore} {request : DriverRequest} {e : DirectoryEntry}
  {key : Vector UInt8 8 × Vector UInt8 3}

/-- A new file system holds nothing. -/
theorem represents_createFat32 {pad0 : Vector UInt8 6} {pad1 : Vector UInt8 5} {disk : Disk} :
    (createFat32 pad0 pad1 (.zeroed disk)).Represents .empty := by
  refine Lib.Represents.empty fun d hd => Set.eq_empty_iff_forall_notMem.2 ?_
  rintro e ⟨i, hi, rfl, hlive⟩
  rw [live_createFat32 hd, tableAt_createFat32 i hi] at hlive
  cases hlive

/-- The buffer does not matter. -/
theorem FileSystem.Represents.congr (h : fs.Represents s) (hmap : fs'.clusterMap = fs.clusterMap)
    (hdisk : fs'.disk = fs.disk) : fs'.Represents s := by
  obtain ⟨map', buf', disk'⟩ := fs'
  obtain rfl : map' = fs.clusterMap := hmap
  obtain rfl : disk' = fs.disk := hdisk
  refine ⟨fun hd he => ?_, h.named⟩
  obtain ⟨n, hn, hden⟩ := h.entry hd he
  refine ⟨n, hn, hden.mono fun _ bytes => ?_⟩
  rintro ⟨l, hl⟩
  exact ⟨l, hl.parent, hl.mem, hl.key, hl.file, hl.size, hl.chain, hl.bytes⟩

/-- A name stands for nothing exactly if no entry has it. -/
theorem FileSystem.Represents.eq_none_iff (h : fs.Represents s) {d : UInt32} (hd : fs.LiveDir d) :
    s d key = none ↔ ∀ e ∈ fs.entries d, e.key ≠ key := by
  refine ⟨fun hnone e he hek => ?_, fun hno => Lib.Represents.eq_none h hd hno⟩
  obtain ⟨n, hn, -⟩ := h.entry hd he
  rw [hek, hnone] at hn
  cases hn

/-- The entry of a name. -/
theorem FileSystem.Represents.exists_entry (h : fs.Represents s) {d : UInt32} (hd : fs.LiveDir d)
    (hk : s d key ≠ none) : ∃ e ∈ fs.entries d, e.key = key :=
  h.named hd hk

/-- The name of an entry is that of no other one. -/
theorem FileStore.Only.unique (ho : s.Only request.parentClusterNumber e.key) (h : fs.Represents s)
    (hp : fs.LiveDir request.parentClusterNumber)
    (ht : TableOk (fs.tableAt request.parentClusterNumber))
    (he : e ∈ fs.entries request.parentClusterNumber) (hname : e.key.1 = request.name) :
    ∀ x ∈ fs.entries request.parentClusterNumber, x.name = request.name → x = e := by
  intro x hx hxname
  have hkey : x.key = e.key := ho x.key
    (fun hnone => (h.eq_none_iff hp).1 hnone x hx rfl) (hxname.trans hname.symm)
  exact ht.keyInj.eq_of_key hx he hkey

/-- Without any entry of the name. -/
theorem FileSystem.Represents.unnamed (h : fs.Represents s)
    (hp : fs.LiveDir request.parentClusterNumber)
    (hnone : ∀ ext, s request.parentClusterNumber (request.name, ext) = none) :
    ∀ e ∈ fs.entries request.parentClusterNumber, e.name ≠ request.name := by
  intro e he hname
  exact (h.eq_none_iff hp).1 (hnone e.ext) e he (Prod.ext hname rfl)

/-! ## Lookups -/

section Lookups
variable {accepts : DirectoryEntry → Bool} {r : ReadResult}

/-- A lookup of a name that no entry has returns 2. -/
theorem readEntry_unnamed (h : fs.ReadableDir request.parentClusterNumber)
    (hno : ∀ e ∈ fs.entries request.parentClusterNumber, e.name ≠ request.name)
    (hrun : readEntry accepts request fs = .ok r) : r.code = 2 := by
  cases readEntry_cases accepts h with
  | found i stored hi => exact absurd hi.2.2.1 (hno _ (slot_mem_records hi.1 hi.2.1))
  | other i hi => exact absurd hi.2.2.1 (hno _ (slot_mem_records hi.1 hi.2.1))
  | missing _ _ hread =>
    rw [hread] at hrun
    cases hrun
    rfl
  | stray _ _ hread => exact (hread r hrun).1

/-- A lookup of the one entry with its name copies that entry's clusters. -/
theorem readEntry_only (h : fs.ReadableDir request.parentClusterNumber)
    (he : e ∈ fs.entries request.parentClusterNumber) (hname : e.name = request.name)
    (haccepts : accepts e = true)
    (hone : ∀ x ∈ fs.entries request.parentClusterNumber, x.name = request.name → x = e)
    (hrun : readEntry accepts request fs = .ok r) :
    r.code = 0 ∧ copyLongCluster fs copySteps request.bufferSize e.cluster = .ok r.stored := by
  obtain ⟨i, hi⟩ := exists_firstNamed he
  rw [hname] at hi
  have hslot : fs.tableAt request.parentClusterNumber i = e :=
    hone _ (slot_mem_records hi.1 hi.2.1) hi.2.2.1
  rw [readEntry_stopped h.table.self h.lt (h.table.stopsAt_named hi), readStopped, hslot,
    if_pos ⟨hname, haccepts⟩] at hrun
  obtain ⟨stored, hcopy, hrun⟩ := bind_eq_ok.1 hrun
  cases hrun
  rw [copyLongCluster_readDirTableBuf] at hcopy
  have hlive : e.live = true := records_live he
  exact ⟨if_pos hlive, hcopy⟩

/-- A `read` answers as the store does. -/
theorem FileSystem.Represents.read (h : fs.Represents s) (hs : fs.InService)
    (hp : fs.LiveDir request.parentClusterNumber) (hrun : read request fs = .ok r) :
    StorageCall.Answered s (.driver (.read request)) ⟨r.code, r.stored⟩ s := by
  have hread := hs.readableDir hp
  refine ⟨rfl, fun bytes hk ho => ?_,
    fun hnone => readEntry_unnamed hread (h.unnamed hp hnone) hrun⟩
  obtain ⟨e, he, hek⟩ := h.exists_entry hp (by rw [hk]; exact Option.some_ne_none _)
  rw [← hek] at hk ho
  obtain ⟨-, l, hl⟩ := Lib.Represents.file h hp hk he
  have hone := ho.unique h hp (hs.table hp) he (congrArg Prod.fst hek)
  obtain ⟨hcode, hcopy⟩ := readEntry_only hread he (congrArg Prod.fst hek)
    (decide_eq_true (congrArg Prod.snd hek)) hone hrun
  refine ⟨hcode, fun hdvd hle => ?_⟩
  obtain ⟨l', hl', hdata, hlen⟩ := hs.chain hl.parent hl.mem
  obtain rfl := hl.chain.unique hl'
  have hlt : ∀ d ∈ l, d.toNat < 512 := fun d hd => (hdata d hd).2
  have hsize : e.filesize.toNat = bytes.length := hl.size
  rw [DirectoryEntry.clusterCount, hl.file, if_neg (by decide), hsize] at hlen
  have hsteps := length_le_clusterMapSize hl' hlt
  rw [copyLongCluster_spec hl' hlt (by omega) (hsteps.trans (by decide))] at hcopy
  show Delivers r.stored bytes
  rw [← Except.ok.inj hcopy]
  exact hl.bytes

/-- A `read_directory` answers as the store does. -/
theorem FileSystem.Represents.readDirectory (h : fs.Represents s) (hs : fs.InService)
    (hp : fs.LiveDir request.parentClusterNumber) (hrun : readDirectory request fs = .ok r) :
    StorageCall.Answered s (.driver (.readDirectory request)) ⟨r.code, r.stored⟩ s := by
  have hread := hs.readableDir hp
  refine ⟨rfl, fun c hk ho => ?_, fun hnone => readEntry_unnamed hread (h.unnamed hp hnone) hrun⟩
  obtain ⟨e, he, hek⟩ := h.exists_entry hp (by rw [hk]; exact Option.some_ne_none _)
  rw [← hek] at hk ho
  obtain ⟨n, hn, hden⟩ := h.entry hp he
  rw [hk] at hn
  cases hn
  obtain ⟨hf, rfl⟩ : e.isSubdirectory = true ∧ c = e.cluster := hden
  have hone := ho.unique h hp (hs.table hp) he (congrArg Prod.fst hek)
  obtain ⟨hcode, hcopy⟩ := readEntry_only hread he (congrArg Prod.fst hek) hf hone hrun
  refine ⟨hcode, fun hsize => ⟨fs.clusterAt e.cluster, ?_, fun key => ?_⟩⟩
  · -- a folder takes one cluster, so one cluster is copied
    have hchild : fs.LiveDir e.cluster := hp.tail he hf
    have hlast := (hs.readableDir hchild).last
    rw [copySteps, copyLongCluster, if_neg hsize, ClusterMap.get_eq (hs.live_lt hchild), ok_bind,
      hlast, if_neg (not_not.2 rfl)] at hcopy
    exact (Except.ok.inj hcopy).symm
  · have hchild : fs.LiveDir e.cluster := hp.tail he hf
    rw [Ne, h.eq_none_iff hchild]
    push Not
    rfl

end Lookups

end Represents

/-! ## Calls that change the store -/

/-- The file system is in service, and holds what is in the store. -/
structure FileSystem.Serves (fs : FileSystem) (s : FileStore) : Prop extends fs.InService where
  store : fs.Represents s

section Serves
variable {fs fs' : FileSystem} {s : FileStore} {request : DriverRequest} {e : DirectoryEntry}
  {code : Int8} {mem : UInt32 → UInt8} {i : Fin 64} {c : UInt32} {l : List UInt32} {steps : Nat}

/-- The buffer does not matter. -/
theorem FileSystem.Serves.congr (h : fs.Serves s) (hmap : fs'.clusterMap = fs.clusterMap)
    (hdisk : fs'.disk = fs.disk) : fs'.Serves s :=
  ⟨h.toInService.congr hmap hdisk, h.store.congr hmap hdisk⟩

/-- A new entry is a new file, or a new folder. -/
theorem FileSystem.Serves.created (h : fs.Serves s) (hname : ProperName request.name)
    (hext : request.bufferSize = 0 → request.ext = Vector.replicate 3 0)
    (hw : Created mem request fs i c l fs') :
    (request.bufferSize ≠ 0 →
      fs'.Serves (s.put request.parentClusterNumber request.key (givenBytes mem request))) ∧
    (request.bufferSize = 0 → ¬ s.Reach rootClusterNumber c ∧
      fs'.Serves (s.mkdir request.parentClusterNumber request.key c)) := by
  have hg := hw.grows h.toSound
  have hserve := hw.inService h.toInService hname hext
  have hkeep {d : UInt32} {x : DirectoryEntry} {bytes : List UInt8} :
      (∃ l, Holds fs ⟨d, x.key, bytes⟩ x l) → ∃ l, Holds fs' ⟨d, x.key, bytes⟩ x l := by
    rintro ⟨t, hf⟩
    exact ⟨t, hf.created h.toSound hw⟩
  refine ⟨fun hsize => ⟨hserve, ?_⟩, fun hzero => ⟨?_, hserve, ?_⟩⟩
  · have hf : (createdEntry request c).isSubdirectory = false := by
      rw [← Bool.not_eq_true]
      exact fun hf => hsize (createdEntry_isSubdirectory.1 hf)
    exact hg.represents_put h.store hw.new (fun _ _ _ => hkeep) hf ⟨_, hw.holds h.toSound hsize⟩
  · obtain ⟨hdata, hfree⟩ := hg.fresh _ List.mem_cons_self
    exact fun hreach => h.volume.not_live_of_free hdata hfree (h.store.reach_iff.1 hreach)
  · have hmk := hg.represents_mkdir h.store hw.new (fun _ _ _ => hkeep) h.volume
      (createdEntry_isSubdirectory.2 hzero)
    rwa [createdEntry_first] at hmk

/-- A `write` answers as the store does. -/
theorem FileSystem.Serves.write (h : fs.Serves s)
    (hq : (StorageCall.driver (.write mem request)).Proper fs)
    (hrun : write mem request fs = .ok (code, fs')) :
    ∃ s', StorageCall.Answered s (.driver (.write mem request)) ⟨code, []⟩ s' ∧ fs'.Serves s' := by
  obtain ⟨⟨hp, -, hspare⟩, hname, hext⟩ := hq
  have hp : fs.LiveDir request.parentClusterNumber := hp
  by_cases hk : s request.parentClusterNumber request.key = none
  · have hnew := (h.store.eq_none_iff hp).1 hk
    rcases write_new h.toSound hp hspare hnew hrun with
      ⟨hcode, hmap, hdisk⟩ | ⟨rfl, i, c, l, hw⟩
    · exact ⟨s, ⟨fun hne => absurd hk hne, fun _ => .inl ⟨hcode, rfl⟩⟩, h.congr hmap hdisk⟩
    · obtain ⟨hfile, hfolder⟩ := h.created hname hext hw
      by_cases hzero : request.bufferSize = 0
      · obtain ⟨hfresh, hserve⟩ := hfolder hzero
        exact ⟨_, ⟨fun hne => absurd hk hne, fun _ => .inr (.inr ⟨rfl, hzero, c, hfresh, rfl⟩)⟩,
          hserve⟩
      · exact ⟨_, ⟨fun hne => absurd hk hne, fun _ => .inr (.inl ⟨rfl, hzero, rfl⟩)⟩, hfile hzero⟩
  · obtain ⟨e, he, hek⟩ := h.store.exists_entry hp hk
    rw [write_duplicate (h.table hp) he hek] at hrun
    cases hrun
    exact ⟨s, ⟨fun _ => ⟨rfl, rfl⟩, fun hnone => absurd hnone hk⟩, h.congr rfl rfl⟩

/-- A removed entry is a name that goes away. -/
theorem FileSystem.Serves.deleted (h : fs.Serves s) (hw : Deleted request fs e l fs')
    (hkey : e.key = request.key) :
    fs'.Serves (s.erase request.parentClusterNumber request.key) := by
  have hg := (hw.shrinks h.toSound).prunes h.volume
  refine ⟨hw.inService h.toInService hkey, ?_⟩
  rw [← hkey]
  refine hg.represents h.volume h.store (fun x hx hxk => h.eq_of_key hw.parent hx hw.mem hxk) ?_
  rintro d x bytes - - - hne - ⟨t, hf⟩
  exact ⟨t, hf.deleted h.toSound hw hne⟩

/-- So is an entry that is removed with all below it. -/
theorem FileSystem.Serves.deletedAll (h : fs.Serves s) (hw : DeletedAll request fs e fs')
    (hkey : e.key = request.key) :
    fs'.Serves (s.erase request.parentClusterNumber request.key) := by
  refine ⟨hw.inService h.toInService, ?_⟩
  rw [← hkey]
  refine (hw.prunes h.toSound).represents h.volume h.store
    (fun x hx hxk => h.eq_of_key hw.parent hx hw.mem hxk) ?_
  rintro d x bytes - hout - hne - ⟨t, hf⟩
  exact ⟨t, hf.deletedAll h.toSound hw hout hne⟩

/-- A folder is empty exactly if no name stands for anything in it. -/
theorem FileSystem.Represents.isEmpty_iff (h : fs.Represents s) (hc : fs.LiveDir c) :
    (∀ key, s c key = none) ↔ fs.entries c = ∅ := by
  constructor
  · intro hnone
    refine Set.eq_empty_iff_forall_notMem.2 fun e he => ?_
    exact (h.eq_none_iff hc).1 (hnone e.key) e he rfl
  · intro hempty key
    refine (h.eq_none_iff hc).2 fun e he => ?_
    rw [hempty] at he
    exact absurd he (Set.notMem_empty e)

/-- A `delete` answers as the store does. -/
theorem FileSystem.Serves.delete (h : fs.Serves s)
    (hq : (StorageCall.driver (.delete request)).Proper fs)
    (hrun : delete request fs = .ok (code, fs')) :
    ∃ s', StorageCall.Answered s (.driver (.delete request)) ⟨code, []⟩ s' ∧ fs'.Serves s' := by
  obtain ⟨⟨hp, hname, -⟩, -⟩ := hq
  have hp : fs.LiveDir request.parentClusterNumber := hp
  by_cases hk : s request.parentClusterNumber request.key = none
  · have hno := (h.store.eq_none_iff hp).1 hk
    rw [delete_notFound (h.table hp).self (h.key_ne hp hname hno)] at hrun
    cases hrun
    refine ⟨s, ⟨fun _ => ⟨rfl, rfl⟩, fun bytes hb => ?_, fun c hc => ?_⟩, h.congr rfl rfl⟩
    · rw [hk] at hb
      cases hb
    · rw [hk] at hc
      cases hc
  · obtain ⟨e, he, hek⟩ := h.store.exists_entry hp hk
    obtain ⟨n, hn, hden⟩ := h.store.entry hp he
    rw [hek] at hn
    by_cases hkeep : e.isSubdirectory = true ∧ fs.entries e.cluster ≠ ∅
    · rw [delete_notEmpty h.toSound hp he hek hkeep.1 hkeep.2] at hrun
      cases hrun
      refine ⟨s, ⟨fun hnone => absurd hnone hk, fun bytes hb => ?_, fun c hc => ⟨fun hnone => ?_,
        fun _ _ => ⟨rfl, rfl⟩⟩⟩, h.congr rfl rfl⟩
      · rw [hn] at hb
        cases hb
        exact absurd (hden.1.symm.trans hkeep.1) (by decide)
      · rw [hn] at hc
        cases hc
        obtain ⟨hf, rfl⟩ : e.isSubdirectory = true ∧ c = e.cluster := hden
        exact absurd ((h.store.isEmpty_iff (hp.tail he hf)).1 hnone) hkeep.2
    · have hempty : e.isSubdirectory = true → fs.entries e.cluster = ∅ :=
        fun hf => not_not.1 fun hne => hkeep ⟨hf, hne⟩
      obtain ⟨rfl, l, hw⟩ := delete_of_ok h.toSound hp he hek hempty hrun
      refine ⟨_,
        ⟨fun hnone => absurd hnone hk, fun _ _ => ⟨rfl, rfl⟩, fun c hc => ⟨fun _ => ⟨rfl, rfl⟩,
        fun key hne => ?_⟩⟩, h.deleted hw hek⟩
      rw [hn] at hc
      cases hc
      obtain ⟨hf, rfl⟩ : e.isSubdirectory = true ∧ c = e.cluster := hden
      exact absurd ((h.store.isEmpty_iff (hp.tail he hf)).2 (hempty hf) key) hne

/-- A `delete_all` answers as the store does. -/
theorem FileSystem.Serves.deleteAll (h : fs.Serves s)
    (hq : (StorageCall.driver (.deleteAll steps request)).Proper fs)
    (hrun : deleteAll steps request fs = .ok (code, fs')) :
    ∃ s', StorageCall.Answered s (.driver (.deleteAll steps request)) ⟨code, []⟩ s' ∧
      fs'.Serves s' := by
  obtain ⟨⟨hp, hname, -⟩, -⟩ := hq
  have hp : fs.LiveDir request.parentClusterNumber := hp
  by_cases hk : s request.parentClusterNumber request.key = none
  · have hno := (h.store.eq_none_iff hp).1 hk
    rw [deleteAll_notFound (h.table hp).self (h.key_ne hp hname hno)] at hrun
    cases hrun
    exact ⟨s, ⟨fun _ => ⟨rfl, rfl⟩, fun hne => absurd hk hne⟩, h.congr rfl rfl⟩
  · obtain ⟨e, he, hek⟩ := h.store.exists_entry hp hk
    obtain ⟨rfl, hw⟩ := deleteAll_spec h.toSound hp he hek hrun
    exact ⟨_, ⟨fun hnone => absurd hnone hk, fun _ => ⟨rfl, rfl⟩⟩, h.deletedAll hw hek⟩

end Serves

/-! ## Moves -/

section Search
variable {t : DirectoryTable} {key : Vector UInt8 8 × Vector UInt8 3}

/-- A name that is taken by a file is reported. -/
theorem searchTarget_duplicate (h : searchTarget t key = .duplicate) :
    ∃ x ∈ records 2 DirectoryEntry.live t, x.key = key ∧ x.isSubdirectory = false := by
  rw [searchTarget] at h
  split at h
  · cases h
  · next i hi =>
    obtain ⟨hlo, hmatch, -⟩ := findFrom_eq_some.1 hi
    split at h
    · next hlive =>
      split at h
      · cases h
      · next hf =>
          exact ⟨t i, slot_mem_records hlo hlive, by simpa [hlive] using hmatch, by simpa using hf⟩
    · cases h

/-- Where the loop finds nothing, no entry has the name. -/
theorem key_ne_of_find_none (h : findFrom 2 (fun i => !(t i).live || (t i).hasKey key) = none) :
    ∀ x ∈ records 2 DirectoryEntry.live t, x.key ≠ key := by
  rintro x ⟨j, hj, rfl, -⟩ hkey
  have := findFrom_eq_none.1 h j hj
  simp [hkey] at this

theorem searchTarget_full (h : searchTarget t key = .full) :
    ∀ x ∈ records 2 DirectoryEntry.live t, x.key ≠ key := by
  rw [searchTarget] at h
  split at h
  · next hnone => exact key_ne_of_find_none hnone
  · split at h
    · split at h <;> cases h
    · cases h

theorem searchTargetFolder_full (h : searchTargetFolder t key = .full) :
    ∀ x ∈ records 2 DirectoryEntry.live t, x.key ≠ key := by
  rw [searchTargetFolder] at h
  split at h
  · next hnone => exact key_ne_of_find_none hnone
  · split at h <;> cases h

theorem searchTargetFolder_duplicate (h : searchTargetFolder t key = .duplicate) :
    ∃ x ∈ records 2 DirectoryEntry.live t, x.key = key := by
  rw [searchTargetFolder] at h
  split at h
  · cases h
  · next i hi =>
    obtain ⟨hlo, hmatch, -⟩ := findFrom_eq_some.1 hi
    split at h
    · next hlive => exact ⟨t i, slot_mem_records hlo hlive, by simpa [hlive] using hmatch⟩
    · cases h

end Search

section Moves
variable {fs fs' : FileSystem} {s : FileStore} {src tar : DriverRequest} {i k : Fin 64}
  {T c : UInt32} {key : Vector UInt8 8 × Vector UInt8 3} {code : Int8}

namespace FileStore

theorem destination_none (h : s tar.parentClusterNumber tar.key = none) :
    s.destination src tar = some (tar.parentClusterNumber, tar.key) := by
  rw [destination, h]

theorem destination_file {bytes : List UInt8}
    (h : s tar.parentClusterNumber tar.key = some (.file bytes)) :
    s.destination src tar = none := by
  rw [destination, h]

theorem destination_folder (h : s tar.parentClusterNumber tar.key = some (.folder c)) :
    s.destination src tar = if (s c src.key).isNone then some (c, src.key) else none := by
  rw [destination, h]

end FileStore

/-- The entry of a folder, in the store. -/
theorem FileSystem.Represents.folder (h : fs.Represents s) {d : UInt32} {e : DirectoryEntry}
    (hd : fs.LiveDir d) (he : e ∈ fs.entries d) (hf : e.isSubdirectory = true) :
    s d e.key = some (.folder e.cluster) := by
  obtain ⟨n, hn, hden⟩ := h.entry hd he
  cases n with
  | file b => exact absurd (hf.symm.trans hden.1) (by decide)
  | folder c =>
    obtain ⟨-, rfl⟩ : e.isSubdirectory = true ∧ c = e.cluster := hden
    exact hn

/-- The entry of a file, in the store. -/
theorem FileSystem.Represents.ofFile (h : fs.Represents s) {d : UInt32} {e : DirectoryEntry}
    (hd : fs.LiveDir d) (he : e ∈ fs.entries d) (hf : e.isSubdirectory = false) :
    ∃ bytes, s d e.key = some (.file bytes) := by
  obtain ⟨n, hn, hden⟩ := h.entry hd he
  cases n with
  | file bytes => exact ⟨bytes, hn⟩
  | folder c => exact absurd (hf.symm.trans hden.1) (by decide)

/-- The source search of a proper `move` finds a child entry. -/
theorem ProperMove.source_entry (hq : ProperMove fs src tar) (h : fs.Labelled)
    (hi : findFrom 0 (fun i => (fs.tableAt src.parentClusterNumber i).hasKey src.key) = some i) :
    fs.tableAt src.parentClusterNumber i ∈ fs.entries src.parentClusterNumber := by
  obtain ⟨e, ⟨j, hj, rfl, hlive⟩, hkey⟩ := hq.entry
  obtain ⟨-, hmatch, hbefore⟩ := findFrom_eq_some.1 hi
  have hik := DirectoryEntry.hasKey_iff.1 hmatch
  have hproper := (h.proper hq.source (slot_mem_records hj hlive)).name
  have hname : (fs.tableAt src.parentClusterNumber i).name =
      (fs.tableAt src.parentClusterNumber j).name := congrArg Prod.fst (hik.trans hkey.symm)
  have hi0 : i ≠ 0 := by
    rintro rfl
    exact hq.slot_zero_ne h hik
  have hi1 : i ≠ 1 := by
    rintro rfl
    have hdot := h.dotdot hq.source
    rw [hname, hproper.not_isDotDot] at hdot
    cases hdot
  have hij : i ≤ j := by
    by_contra hlt
    have := hbefore j (not_le.1 hlt) (Nat.zero_le _)
    simp [hkey] at this
  exact slot_mem_records (by omega) ((h.table hq.source).packed i j (by omega) hij hlive)

/-- A proper `move` is not one into the moved item itself. -/
theorem ProperMove.not_itself (hq : ProperMove fs src tar) (h : fs.Labelled)
    (hi : findFrom 0 (fun i => (fs.tableAt src.parentClusterNumber i).hasKey src.key) = some i)
    (hT : fs.LiveDir T) (htarget : targetSlot fs src tar = some (T, k, key)) :
    (fs.tableAt src.parentClusterNumber i).cluster ≠ T := by
  rintro rfl
  have hmem := hq.source_entry h hi
  have hkey := DirectoryEntry.hasKey_iff.1 (findFrom_eq_some.1 hi).2.1
  have hf := (h.volume.eq_first_of_live (h.volume.first_owned hq.source hmem) hT).1
  exact hq.outside htarget hmem hkey hf .refl

/-- An entry that is relinked is a name that moves. -/
theorem FileSystem.Serves.moved (h : fs.Serves s) (hq : ProperMove fs src tar)
    (hs : Selected fs src tar i T k key) (hrun : OsKernel.move src tar fs = .ok (code, fs')) :
    code = 0 ∧ fs'.Serves (s.move src.parentClusterNumber src.key T key) := by
  have ht := h.table hq.source
  have hS := hq.source
  have hT := hs.target_live hq.target
  have hk := targetSlot_freeSlot hs.target
  have hc := hq.carries h.toLabelled hs
  obtain ⟨e, he, -⟩ := hq.entry
  obtain ⟨u, hu⟩ := FileSystem.exists_firstUnused hq.notFull
  obtain ⟨last, -, hremove⟩ := ht.removeEntry hu he
  obtain ⟨fs'', hrun', hm⟩ := hs.exists_moved ht.self (hremove i)
  rw [hrun] at hrun'
  cases hrun'
  have hmem := slot_mem_records hc.child hc.live
  have hr := hm.relinks_child h.toLabelled hS hT hk hc
  refine ⟨rfl, hm.inService hS hT hc h.toInService hk, ?_⟩
  rw [← hs.key_eq]
  refine hr.represents h.volume.folderTree hc.outside h.store
    (fun x hx hxk => h.eq_of_key hS hx hmem hxk) (fun x hx => hk.key_ne (h.table hT) hx) ?_ ?_
  · rintro d x bytes - - hne - ⟨l, hl⟩
    exact ⟨l, hl.moved_other hm hS hT hc h.toLabelled hk hne⟩
  · rintro bytes - ⟨l, hl⟩
    exact ⟨l, hl.moved hm hS hT hc h.toLabelled hk⟩

/-- A `move` whose searches find a slot. -/
theorem FileSystem.Serves.move_slot (h : fs.Serves s) (hq : ProperMove fs src tar)
    (htarget : targetSlot fs src tar = some (T, k, key))
    (hdest : s.destination src tar = some (T, key))
    (hrun : OsKernel.move src tar fs = .ok (code, fs')) :
    ∃ s', StorageCall.Answered s (.move src tar) ⟨code, []⟩ s' ∧ fs'.Serves s' := by
  obtain ⟨i, hi⟩ := hq.exists_source
  have hT : fs.LiveDir T := by
    rcases targetSlot_cases htarget with ⟨rfl, -⟩ | ⟨-, x, hx, -, hf, rfl⟩
    · exact hq.target
    · exact hq.target.tail hx hf
  obtain ⟨rfl, hserve⟩ := h.moved hq ⟨hi, htarget, hq.not_itself h.toLabelled hi hT htarget⟩ hrun
  refine ⟨_, ⟨fun hnone => ?_, fun T' key' hd => .inl ?_⟩, hserve⟩
  · rw [hdest] at hnone
    cases hnone
  · rw [hdest] at hd
    cases hd
    exact ⟨rfl, rfl⟩

/-- A `move` to a name that is taken. -/
theorem FileSystem.Serves.move_taken (h : fs.Serves s) (hdest : s.destination src tar = none)
    (hrun : OsKernel.move src tar fs = .ok (code, fs'))
    (hrun' : OsKernel.move src tar fs = .ok (2, fs.readDirTableBuf src.parentClusterNumber)) :
    ∃ s', StorageCall.Answered s (.move src tar) ⟨code, []⟩ s' ∧ fs'.Serves s' := by
  rw [hrun] at hrun'
  cases hrun'
  refine ⟨s, ⟨fun _ => ⟨rfl, rfl⟩, fun T key hd => ?_⟩, h.congr rfl rfl⟩
  rw [hdest] at hd
  cases hd

/-- A `move` to a table without an unused slot. -/
theorem FileSystem.Serves.move_full (h : fs.Serves s) (hdest : s.destination src tar ≠ none)
    (hrun : OsKernel.move src tar fs = .ok (code, fs'))
    (hrun' : OsKernel.move src tar fs = .ok (3, fs.readDirTableBuf src.parentClusterNumber)) :
    ∃ s', StorageCall.Answered s (.move src tar) ⟨code, []⟩ s' ∧ fs'.Serves s' := by
  rw [hrun] at hrun'
  cases hrun'
  exact ⟨s, ⟨fun hnone => absurd hnone hdest, fun _ _ _ => .inr ⟨rfl, rfl⟩⟩, h.congr rfl rfl⟩

/-- `move` answers with the outcome of its searches, unless they find a slot. -/
theorem ProperMove.move_search (hq : ProperMove fs src tar) (h : fs.Labelled)
    (hslot : targetSlot fs src tar = none) :
    OsKernel.move src tar fs =
        .ok (match searchTarget (fs.tableAt tar.parentClusterNumber) tar.key with
      | .duplicate => 2
      | .folder c => match searchTargetFolder (fs.tableAt c) src.key with
        | .duplicate => 2
        | _ => 3
      | _ => 3, fs.readDirTableBuf src.parentClusterNumber) := by
  obtain ⟨i, hi⟩ := hq.exists_source
  rw [targetSlot] at hslot
  rw [OsKernel.move]
  simp only [FileSystem.dirTableBuf_readDirTableBuf, FileSystem.tableAt_readDirTableBuf,
    (h.table hq.source).self, hi, Bool.not_true, Bool.false_eq_true, ↓reduceIte]
  cases hsearch : searchTarget (fs.tableAt tar.parentClusterNumber) tar.key with
  | full => rfl
  | duplicate => rfl
  | slot k =>
    rw [hsearch] at hslot
    cases hslot
  | folder c =>
    rw [hsearch] at hslot
    dsimp only at hslot ⊢
    cases hsearch' : searchTargetFolder (fs.tableAt c) src.key with
    | slot k =>
      rw [hsearch'] at hslot
      cases hslot
    | full => rfl
    | duplicate => rfl
    | folder c' => rfl

/-- A proper `move` answers as the store does. -/
theorem FileSystem.Serves.move (h : fs.Serves s) (hq : ProperMove fs src tar)
    (hrun : OsKernel.move src tar fs = .ok (code, fs')) :
    ∃ s', StorageCall.Answered s (.move src tar) ⟨code, []⟩ s' ∧ fs'.Serves s' := by
  have hrefuse := hq.move_search h.toLabelled
  cases hsearch : searchTarget (fs.tableAt tar.parentClusterNumber) tar.key with
  | full =>
    have hnone := (h.store.eq_none_iff hq.target).2 (searchTarget_full hsearch)
    rw [targetSlot, hsearch] at hrefuse
    refine h.move_full ?_ hrun (hrefuse rfl)
    rw [FileStore.destination_none hnone]
    exact Option.some_ne_none _
  | duplicate =>
    obtain ⟨x, hx, hxk, hf⟩ := searchTarget_duplicate hsearch
    obtain ⟨bytes, hfile⟩ := h.store.ofFile hq.target hx hf
    rw [hxk] at hfile
    rw [targetSlot, hsearch] at hrefuse
    exact h.move_taken (FileStore.destination_file hfile) hrun (hrefuse rfl)
  | slot k =>
    have hnone := (h.store.eq_none_iff hq.target).2 fun x hx =>
      (searchTarget_slot hsearch).key_ne (h.table hq.target) hx
    exact h.move_slot hq (by rw [targetSlot, hsearch]) (FileStore.destination_none hnone) hrun
  | folder c =>
    obtain ⟨x, hx, hxk, hf, rfl⟩ := searchTarget_folder hsearch
    have hdir := h.store.folder hq.target hx hf
    rw [hxk] at hdir
    have hdest : s.destination src tar = _ := FileStore.destination_folder hdir
    have hchild : fs.LiveDir x.cluster := hq.target.tail hx hf
    rw [targetSlot, hsearch] at hrefuse
    dsimp only at hrefuse
    cases hsearch' : searchTargetFolder (fs.tableAt x.cluster) src.key with
    | full =>
      have hnone := (h.store.eq_none_iff hchild).2 (searchTargetFolder_full hsearch')
      rw [hsearch'] at hrefuse
      refine h.move_full ?_ hrun (hrefuse rfl)
      rw [hdest, hnone]
      exact Option.some_ne_none _
    | duplicate =>
      obtain ⟨y, hy, hyk⟩ := searchTargetFolder_duplicate hsearch'
      have hsome : s x.cluster src.key ≠ none := fun hnone =>
        (h.store.eq_none_iff hchild).1 hnone y hy hyk
      rw [hsearch'] at hrefuse
      refine h.move_taken ?_ hrun (hrefuse rfl)
      rw [hdest, if_neg fun hnone => hsome (Option.isNone_iff_eq_none.1 hnone)]
    | slot k =>
      have hnone := (h.store.eq_none_iff hchild).2 fun y hy =>
        (searchTargetFolder_slot hsearch').key_ne (h.table hchild) hy
      have htarget : targetSlot fs src tar = some (x.cluster, k, src.key) := by
        rw [targetSlot, hsearch]
        dsimp only
        rw [hsearch']
      have hplace : s.destination src tar = some (x.cluster, src.key) := by
        rw [hdest, hnone]
        rfl
      exact h.move_slot hq htarget hplace hrun
    | folder c' => exact absurd hsearch' searchTargetFolder_ne_folder

end Moves

/-! ## Runs -/

/-- The call completes with the reply. -/
def StorageStep (a : StorageCall × Reply) (fs fs' : FileSystem) : Prop :=
  a.1.run fs = .ok (a.2, fs')

/-- The call gets the reply from a store. -/
def StoreStep (a : StorageCall × Reply) (s s' : FileStore) : Prop := a.1.Answered s a.2 s'

section Runs
variable {fs fs' : FileSystem} {s : FileStore} {a : StorageCall × Reply}

/-- A proper call that completes is answered as the store answers it. -/
theorem FileSystem.Serves.step (h : fs.Serves s) (hq : a.1.Proper fs)
    (hstep : StorageStep a fs fs') :
    ∃ s', StoreStep a s s' ∧ fs'.Serves s' := by
  obtain ⟨q, reply⟩ := a
  rw [StorageStep] at hstep
  cases q with
  | driver q =>
    cases q with
    | read request =>
      obtain ⟨r, hread, hrun⟩ := bind_eq_ok.1 hstep
      cases hrun
      rw [readEntry_fs hread]
      exact ⟨s, h.store.read h.toInService hq.1.1 hread, h.congr rfl rfl⟩
    | readDirectory request =>
      obtain ⟨r, hread, hrun⟩ := bind_eq_ok.1 hstep
      cases hrun
      rw [readEntry_fs hread]
      exact ⟨s, h.store.readDirectory h.toInService hq.1.1 hread, h.congr rfl rfl⟩
    | write mem request =>
      obtain ⟨r, hwrite, hrun⟩ := bind_eq_ok.1 hstep
      cases hrun
      exact h.write hq hwrite
    | delete request =>
      obtain ⟨r, hdelete, hrun⟩ := bind_eq_ok.1 hstep
      cases hrun
      exact h.delete hq hdelete
    | deleteAll steps request =>
      obtain ⟨r, hdelete, hrun⟩ := bind_eq_ok.1 hstep
      cases hrun
      exact h.deleteAll hq hdelete
  | move src tar =>
    obtain ⟨r, hmove, hrun⟩ := bind_eq_ok.1 hstep
    cases hrun
    exact h.move hq hmove
  | restart pad0 pad1 =>
    cases hstep
    refine ⟨s, rfl, h.congr ?_ ?_⟩
    · rw [h.coherent.restart_eq]
      rfl
    · rw [h.coherent.restart_eq]
      rfl

end Runs

/-- After every run from the formatted disk on, the driver serves a store that gives the same
replies. -/
theorem exists_served {pad0 : Vector UInt8 6} {pad1 : Vector UInt8 5} {disk : Disk}
    {fs : FileSystem}
    {log : List (StorageCall × Reply)}
    (hrun : Logged StorageStep (fun a fs => a.1.Proper fs) (createFat32 pad0 pad1 (.zeroed disk))
      log fs) :
    ∃ s, Logged StoreStep (fun _ _ => True) .empty log s ∧ fs.Serves s :=
  hrun.simulates (fun _ _ _ _ h hq hstep => h.step hq hstep)
    ⟨inService_createFat32, represents_createFat32⟩

/-- The driver is a store of files. The replies to the calls of a run from the formatted disk on are
replies of a store that is empty at first, and after the run the disk holds what is in the store. -/
theorem driver_refines {pad0 : Vector UInt8 6} {pad1 : Vector UInt8 5} {disk : Disk}
    {fs : FileSystem}
    {log : List (StorageCall × Reply)}
    (hrun : Logged StorageStep (fun a fs => a.1.Proper fs) (createFat32 pad0 pad1 (.zeroed disk))
      log fs) :
    ∃ s, Logged StoreStep (fun _ _ => True) .empty log s ∧ fs.Represents s := by
  obtain ⟨s, hlog, h⟩ := exists_served hrun
  exact ⟨s, hlog, h.store⟩

/-- A file is written, and the machine restarts. -/
theorem driver_refines_oneFile : ∃ (fs : FileSystem) (s : FileStore), fs.Represents s ∧
    Logged StoreStep (fun _ _ => True) .empty
      [(.driver (.write (fun _ => 1) (sampleRequest 'A' 2 3000)), ⟨0, []⟩),
        (.restart (Vector.replicate 6 0) (Vector.replicate 5 0), ⟨0, []⟩)] s := by
  obtain ⟨c, l, fs₁, hwrite, -⟩ :=
    write_blank (fun _ => 1) (sampleRequest 'A' 2 3000) rfl (by decide)
  have hname : ProperName (sampleRequest 'A' 2 3000).name :=
    ⟨by decide, by decide, List.forall_iff_forall_mem.mp (by decide), by decide, by decide⟩
  have hsize : (sampleRequest 'A' 2 3000).bufferSize ≠ 0 := by decide
  have hrun : Logged StorageStep (fun a fs => a.1.Proper fs) blankFileSystem
      ([] ++ [(.driver (.write (fun _ => 1) (sampleRequest 'A' 2 3000)), ⟨0, []⟩)] ++
        [(.restart (Vector.replicate 6 0) (Vector.replicate 5 0), ⟨0, []⟩)])
      (fs₁.restart (Vector.replicate 6 0) (Vector.replicate 5 0)) := by
    refine .tail (.tail .refl ⟨⟨.root, by decide, fun _ hzero => absurd hzero hsize⟩, hname,
      fun hzero => absurd hzero hsize⟩ ?_) trivial rfl
    rw [StorageStep, StorageCall.run, DriverCall.run, hwrite]
    rfl
  obtain ⟨s, hlog, h⟩ := driver_refines hrun
  exact ⟨_, s, h, hlog⟩

end OsKernel
