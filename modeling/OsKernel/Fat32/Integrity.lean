import OsKernel.Fat32.Runs

/-!
# The data of files survives

A run keeps a record of the files that it has created and not deleted (`RunWith`). Each of them is
still there, and `copy_long_cluster` started at its first cluster delivers the bytes that were given
to the `write` (`stored_bytes_delivered`). The invariant is `Stores`: the chain of the entry holds
the bytes. Requests for other entries do not touch that chain, since chains are disjoint, and what
`write` writes to otherwise was free.
-/

namespace OsKernel

open Lib

/-! ## Reading a chain back -/

/-- Byte `k` of a buffer that holds the given clusters, one `CLUSTER_SIZE` after the other. -/
def bufferByte (clusters : List ClusterBuffer) (k : Nat) : Option UInt8 :=
  clusters[k / 2048]?.map fun b => b ⟨k % 2048, Nat.mod_lt _ (by decide)⟩

/-- The first cluster takes up the first bytes. -/
theorem bufferByte_cons {clusters : List ClusterBuffer} {b : ClusterBuffer} {k : Nat}
    (hk : k < 2048) :
    bufferByte (b :: clusters) k = some (b ⟨k, hk⟩) := by
  have hzero : k / 2048 = 0 := by omega
  have hmod : (⟨k % 2048, Nat.mod_lt _ (by decide)⟩ : Fin 2048) = ⟨k, hk⟩ :=
    Fin.ext (Nat.mod_eq_of_lt hk)
  rw [bufferByte, hzero, hmod]
  rfl

/-- Behind it the others follow. -/
theorem bufferByte_cons_add {clusters : List ClusterBuffer} {b : ClusterBuffer} {k : Nat} :
    bufferByte (b :: clusters) (2048 + k) = bufferByte clusters k := by
  have hdiv : (2048 + k) / 2048 = k / 2048 + 1 := by omega
  have hmod : (⟨(2048 + k) % 2048, Nat.mod_lt _ (by decide)⟩ : Fin 2048) =
      ⟨k % 2048, Nat.mod_lt _ (by decide)⟩ := Fin.ext (by
    show (2048 + k) % 2048 = k % 2048
    omega)
  rw [bufferByte, bufferByte, hdiv, hmod, List.getElem?_cons_succ]

/-- `copy_long_cluster` reads the whole chain when the remaining size covers it. -/
theorem copyLongCluster_spec {fs : FileSystem} {c remaining : UInt32} {l : List UInt32}
    {steps : Nat} (hl : IsChain fs.clusterMap.next fatEndOfFile c l)
    (hlt : ∀ d ∈ l, d.toNat < 512) (hrem : 2048 * l.length ≤ remaining.toNat)
    (hsteps : l.length ≤ steps) :
    copyLongCluster fs steps remaining c = .ok (l.map fs.clusterAt) := by
  induction steps generalizing c remaining l with
  | zero =>
    obtain ⟨t, rfl⟩ := hl.eq_cons
    simp at hsteps
  | succ steps ih =>
    have hc : c.toNat < 512 := hlt c hl.head_mem
    have hpos : remaining ≠ 0 := by
      rintro rfl
      obtain ⟨t, rfl⟩ := hl.eq_cons
      simp at hrem
    rw [copyLongCluster, if_neg hpos, ClusterMap.get_eq hc, ok_bind]
    cases hl with
    | last hstop =>
      rw [if_neg (not_not.2 hstop)]
      rfl
    | @cons _ l hne ht =>
      have hsub : (remaining - 2048).toNat = remaining.toNat - 2048 := by
        have hle : (2048 : UInt32) ≤ remaining := by
          rw [UInt32.le_iff_toNat_le]
          simp only [List.length_cons] at hrem
          show 2048 ≤ remaining.toNat
          omega
        rw [UInt32.toNat_sub_of_le _ _ hle]
        rfl
      simp only [List.length_cons] at hrem hsteps
      rw [if_pos hne, ih ht (fun d hd => hlt d (List.mem_cons_of_mem _ hd)) (by omega) (by omega)]
      rfl

/-- The chain `l` holds the given bytes. -/
def Stores (fs : FileSystem) (l : List UInt32) (bytes : List UInt8) : Prop :=
  ∀ k < bytes.length, bufferByte (l.map fs.clusterAt) k = bytes[k]?

/-- A chain of unchanged clusters holds the same bytes. -/
theorem Stores.congr {fs fs' : FileSystem} {l : List UInt32} {bytes : List UInt8}
    (h : Stores fs l bytes) (heq : ∀ d ∈ l, fs'.clusterAt d = fs.clusterAt d) :
    Stores fs' l bytes := by
  have hmap : l.map fs'.clusterAt = l.map fs.clusterAt := List.map_congr_left heq
  intro k hk
  rw [hmap]
  exact h k hk

/-! ## Files of a run -/

/-- A file that a run has created: the cluster of its directory, its name, and its bytes. -/
structure StoredFile where
  parent : UInt32
  key : Vector UInt8 8 × Vector UInt8 3
  bytes : List UInt8

/-- The bytes given to a `write`: `buffer_size` bytes from `buf` on. -/
def givenBytes (mem : UInt32 → UInt8) (request : DriverRequest) : List UInt8 :=
  (List.range request.bufferSize.toNat).map fun k => mem (request.buf + UInt32.ofNat k)

/-- The files after a request with the result `code`: a successful `write` of data adds one, a
successful `delete` removes the one it names. -/
def Request.record : Request → Int8 → List StoredFile → List StoredFile
  | .write mem request, code, files =>
    if code = 0 ∧ request.bufferSize ≠ 0 then
      ⟨request.parentClusterNumber, request.key, givenBytes mem request⟩ :: files
    else files
  | .delete request, code, files =>
    if code = 0 then
      files.filter fun f => !decide (f.parent = request.parentClusterNumber ∧ f.key = request.key)
    else files

theorem Request.record_of_ne {q : Request} {code : Int8} (h : code ≠ 0)
    (files : List StoredFile) : q.record code files = files := by
  cases q with
  | write mem request => exact if_neg fun hc => h hc.1
  | delete request => exact if_neg h

/-- The runs of permitted requests, with the files they have created and not deleted since. -/
inductive RunWith : FileSystem → List StoredFile → Prop
  | create (pad0 : Vector UInt8 6) (pad1 : Vector UInt8 5) (disk : Disk) :
      RunWith (createFat32 pad0 pad1 (.zeroed disk)) []
  | step {fs fs' : FileSystem} {files : List StoredFile} {q : Request} {code : Int8} :
      RunWith fs files → q.Permitted fs → q.run fs = .ok (code, fs') →
      RunWith fs' (q.record code files)

theorem RunWith.reachable {fs : FileSystem} {files : List StoredFile} (h : RunWith fs files) :
    Reachable fs := by
  induction h with
  | create pad0 pad1 disk => exact .create pad0 pad1 disk
  | step _ hq hrun ih => exact .step ih hq hrun

/-- The file is in its directory, as an entry whose chain holds its bytes. -/
structure Holds (fs : FileSystem) (f : StoredFile) (e : DirectoryEntry) (l : List UInt32) :
    Prop where
  parent : fs.LiveDir f.parent
  mem : e ∈ fs.entries f.parent
  key : e.key = f.key
  file : e.isSubdirectory = false
  size : e.filesize.toNat = f.bytes.length
  chain : fs.Chain e l
  bytes : Stores fs l f.bytes

section Steps
variable {fs fs' : FileSystem} {f : StoredFile} {e : DirectoryEntry} {l : List UInt32}

/-- Every file holds some bytes, as many as its entry says. -/
theorem exists_holds (h : fs.Sound) {d : UInt32} (hd : fs.LiveDir d) (he : e ∈ fs.entries d)
    (hfile : e.isSubdirectory = false) :
    ∃ bytes l, bytes.length = e.filesize.toNat ∧ Holds fs ⟨d, e.key, bytes⟩ e l := by
  obtain ⟨l, hl, -, hlen⟩ := h.chain hd he
  have hsize : ((List.range e.filesize.toNat).map fun k =>
      (bufferByte (l.map fs.clusterAt) k).getD 0).length = e.filesize.toNat := by
    rw [List.length_map, List.length_range]
  refine ⟨_, l, hsize, hd, he, rfl, hfile, hsize.symm, hl, fun k hk => ?_⟩
  dsimp only at hk ⊢
  rw [hsize] at hk
  rw [DirectoryEntry.clusterCount, hfile, if_neg (by decide)] at hlen
  have hin : k / 2048 < (l.map fs.clusterAt).length := by
    rw [List.length_map]
    omega
  rw [List.getElem?_map, List.getElem?_range hk, Option.map_some, bufferByte,
    List.getElem?_eq_getElem hin]
  rfl

/-- The clusters of a file hold no directory. -/
theorem Holds.not_live (h : fs.Sound) (hf : Holds fs f e l) {d : UInt32} (hd : d ∈ l) :
    ¬ fs.LiveDir d := by
  intro hlive
  have ho : fs.Owns f.parent e d := ⟨hf.parent, hf.mem, l, hf.chain, hd⟩
  have hfolder := (h.volume.eq_first_of_live ho hlive).1
  exact absurd (hf.file.symm.trans hfolder) (by decide)

/-- A new entry leaves the files alone. -/
theorem Holds.created {mem : UInt32 → UInt8} {request : DriverRequest} {i : Fin 64} {c : UInt32}
    {t : List UInt32} (h : fs.Sound) (hf : Holds fs f e l)
    (hw : Created mem request fs i c t fs') : Holds fs' f e l where
  parent := (hw.grows h).live_iff.2 (.inl hf.parent)
  mem := by
    have ho := ((hw.grows h).owns_iff h.volume).2 (.inl (h.volume.first_owned hf.parent hf.mem))
    exact ho.2.1
  key := hf.key
  file := hf.file
  size := hf.size
  chain := (hw.grows h).chain_of_old h.volume hf.parent hf.mem hf.chain
  bytes := by
    refine hf.bytes.congr fun d hd => ?_
    have ho : fs.Owns f.parent e d := ⟨hf.parent, hf.mem, l, hf.chain, hd⟩
    have hdata := h.volume.data ho
    refine hw.other d hdata.2 (fun he => hf.not_live h hd (he ▸ hw.parent)) hdata.ne_fat ?_
    exact fun hfree => h.volume.notFree ho (mem_freeClusters.1 hfree).2

/-- The removal of another entry leaves the file alone. -/
theorem Holds.deleted {request : DriverRequest} {x : DirectoryEntry} {t : List UInt32}
    (h : fs.Sound) (hf : Holds fs f e l) (hw : Deleted request fs x t fs')
    (hne : ¬ (f.parent = request.parentClusterNumber ∧ e = x)) : Holds fs' f e l := by
  have hs := hw.shrinks h
  have hfirst := (hs.owns_iff h.volume).2 ⟨h.volume.first_owned hf.parent hf.mem, hne⟩
  refine ⟨hfirst.1, hfirst.2.1, hf.key, hf.file, hf.size,
    hs.chain_of_old h.volume hf.parent hf.mem hne hf.chain, hf.bytes.congr fun d hd => ?_⟩
  have ho : fs.Owns f.parent e d := ⟨hf.parent, hf.mem, l, hf.chain, hd⟩
  have hdata := h.volume.data ho
  refine hw.other d hdata.2 (fun he => hf.not_live h hd (he ▸ hw.parent)) hdata.ne_fat ?_
  exact fun hmem => hne (h.volume.unique ho (hs.owns_of_mem hmem))

/-- A new file holds the bytes given to `write`. -/
theorem Created.holds {mem : UInt32 → UInt8} {request : DriverRequest} {i : Fin 64} {c : UInt32}
    {t : List UInt32} (h : fs.Sound) (hw : Created mem request fs i c t fs')
    (hsize : request.bufferSize ≠ 0) :
    Holds fs' ⟨request.parentClusterNumber, request.key, givenBytes mem request⟩
      (createdEntry request c) (c :: t) where
  parent := (hw.grows h).live_iff.2 (.inl hw.parent)
  mem := hw.mem_entries
  key := rfl
  file := by
    rw [← Bool.not_eq_true]
    exact fun hf => hsize (createdEntry_isSubdirectory.1 hf)
  size := by simp [givenBytes]
  chain := by
    have hchain := (hw.grows h).isChain
    rw [createdEntry_first] at hchain
    show IsChain _ _ (createdEntry request c).cluster _
    rw [createdEntry_cluster]
    exact hchain
  bytes := by
    intro k hk
    have hk : k < request.bufferSize.toNat := by simpa [givenBytes] using hk
    have hlen : k / 2048 < (c :: t).length := by
      rw [hw.length, clusterNeeded]
      split_ifs <;> omega
    have hsplit : 2048 * (k / 2048) + k % 2048 = k := Nat.div_add_mod k 2048
    rw [bufferByte, List.getElem?_map, List.getElem?_eq_getElem hlen, Option.map_some,
      Option.map_some, hw.data hsize _ hlen, bufCluster, givenBytes, List.getElem?_map,
      List.getElem?_range hk]
    simp only [hsplit, Option.map_some]

end Steps

/-- Every file of a run is in its directory, with its bytes on its chain. -/
theorem RunWith.holds {fs : FileSystem} {files : List StoredFile} (h : RunWith fs files) :
    ∀ f ∈ files, ∃ e l, Holds fs f e l := by
  induction h with
  | create pad0 pad1 disk => exact fun f hf => absurd hf List.not_mem_nil
  | @step fs fs' files q code hrun hq hcode ih =>
    have hio := hrun.reachable.inOrder
    obtain ⟨code', fs'', hcode', ho⟩ := hq.outcome hio.tidy
    rw [hcode] at hcode'
    cases hcode'
    intro f hf
    cases ho with
    | refused hne =>
      rw [Request.record_of_ne hne] at hf
      obtain ⟨e, l, hh⟩ := ih f hf
      exact ⟨e, l, hh.parent, hh.mem, hh.key, hh.file, hh.size, hh.chain, hh.bytes⟩
    | @created mem request _ i c t _ hw =>
      rw [Request.record] at hf
      split at hf
      · next hsize =>
        rcases List.mem_cons.1 hf with rfl | hf
        · exact ⟨_, _, hw.holds hio.sound hsize.2⟩
        · obtain ⟨e, l, hh⟩ := ih f hf
          exact ⟨e, l, hh.created hio.sound hw⟩
      · obtain ⟨e, l, hh⟩ := ih f hf
        exact ⟨e, l, hh.created hio.sound hw⟩
    | @deleted request _ x t _ hw hkey =>
      simp only [Request.record, ↓reduceIte, List.mem_filter, Bool.not_eq_true',
        decide_eq_false_iff_not] at hf
      obtain ⟨e, l, hh⟩ := ih f hf.1
      refine ⟨e, l, hh.deleted hio.sound hw ?_⟩
      rintro ⟨hparent, rfl⟩
      exact hf.2 ⟨hparent, hh.key.symm.trans hkey⟩

/-- Every file that a run has created and not deleted since is in its directory under its name, and
`copy_long_cluster` from its first cluster on, with any multiple of `CLUSTER_SIZE` that covers the
file, delivers a buffer that starts with the bytes given to `write`. -/
theorem stored_bytes_delivered {fs : FileSystem} {files : List StoredFile} (h : RunWith fs files)
    {f : StoredFile} (hf : f ∈ files) :
    fs.LiveDir f.parent ∧ ∃ e ∈ fs.entries f.parent, e.key = f.key ∧
      e.filesize.toNat = f.bytes.length ∧
      ∀ remaining : UInt32, 2048 ∣ remaining.toNat → f.bytes.length ≤ remaining.toNat →
        ∃ clusters, copyLongCluster fs copySteps remaining e.cluster = .ok clusters ∧
          ∀ k < f.bytes.length, bufferByte clusters k = f.bytes[k]? := by
  obtain ⟨e, l, hh⟩ := h.holds f hf
  refine ⟨hh.parent, e, hh.mem, hh.key, hh.size, fun remaining hdvd hle => ?_⟩
  obtain ⟨l', hl', hdata, hlen⟩ := h.reachable.inOrder.sound.chain hh.parent hh.mem
  obtain rfl := hh.chain.unique hl'
  have hlt : ∀ d ∈ l, d.toNat < 512 := fun d hd => (hdata d hd).2
  rw [DirectoryEntry.clusterCount, hh.file, if_neg (by decide), hh.size] at hlen
  have hsteps := length_le_clusterMapSize hl' hlt
  refine ⟨_, copyLongCluster_spec hl' hlt (by omega) (hsteps.trans (by decide)), hh.bytes⟩

/-- A file of two clusters comes back from a new file system. -/
theorem stored_bytes_delivered_oneFile : ∃ fs e clusters,
    write UInt32.toUInt8 (sampleRequest 'A' 2 3000) blankFileSystem = .ok (0, fs) ∧
    e ∈ fs.entries 2 ∧ copyLongCluster fs copySteps 4096 e.cluster = .ok clusters ∧
          ∀ k < 3000, bufferByte clusters k = some (UInt32.ofNat k).toUInt8 := by
  let request := sampleRequest 'A' 2 3000
  obtain ⟨c, l, fs, hrun, hw⟩ := write_blank UInt32.toUInt8 request rfl (by decide)
  have hq := Request.permitted_of_accepts UInt32.toUInt8 hw.toAccepts (by decide)
  have hrecord : (⟨2, request.key, givenBytes UInt32.toUInt8 request⟩ : StoredFile) ∈
      (Request.write UInt32.toUInt8 request).record 0 [] := by
    rw [Request.record, if_pos (by decide)]
    exact List.mem_cons_self
  have hlen : (givenBytes UInt32.toUInt8 request).length = 3000 := by
    simp [givenBytes, request, sampleRequest]
  obtain ⟨_, e, he, _, _, hread⟩ := stored_bytes_delivered (.step (.create _ _ _) hq hrun) hrecord
  obtain ⟨clusters, hcopy, hbytes⟩ := hread 4096 (by decide) (by rw [hlen]; decide)
  refine ⟨fs, e, clusters, hrun, he, hcopy, fun k hk => ?_⟩
  have hk' : k < request.bufferSize.toNat := hk
  rw [hbytes k (by rw [hlen]; exact hk), givenBytes, List.getElem?_map, List.getElem?_range hk',
    Option.map_some]
  simp [request, sampleRequest]

end OsKernel
