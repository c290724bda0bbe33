import OsKernel.Fat32.Scan
import OsKernel.Lib.AddressSpace
import OsKernel.Process.Image

/-!
# The memory of a new process

A creation reads the executable with the page directory of the new process in use, so what `read`
stores goes through its entries to the page frames. For an executable of four clusters at address 0,
which is what the shell asks for, the first page is there whenever the creation succeeds, and what
`read` stored is in the memory of the new process (`exists_loaded`).
-/

namespace OsKernel

open Lib

/-! ## Physical memory -/

/-- The bytes of the page frames, by physical address. -/
abbrev PhysicalMemory := UInt32 → UInt8

/-- The physical address behind a virtual one, if its page is present. -/
def physicalAddress (dir : PageDirectory) (addr : UInt32) : Option UInt32 :=
  if (dir (pageIndex addr)).flag.presentBit then
    some (UInt32.ofNat ((dir (pageIndex addr)).lowerAddress.val * pageFrameSize +
      addr.toNat % pageFrameSize))
  else none

/-- The bytes of clusters, one `CLUSTER_SIZE` after the other. -/
def clusterBytes (clusters : List ClusterBuffer) : List UInt8 := clusters.flatMap List.ofFn

/-- The memory of a new process and the number of bytes that `read` stored in it. -/
structure ProcessImage where
  memory : PhysicalMemory
  size : Nat

/-- The memory behind `process_create_user_process`, which reads the executable with the page
directory of the new process in use; nothing if a page is missing there. -/
def processCreateImage (request : DriverRequest) (k : Kernel) (m : PhysicalMemory) :
    Except Fault (Option ProcessImage) :=
  match checkCreate request k with
  | some _ => .ok (some ⟨m, 0⟩)
  | none => do
    let (pageDir, paging) ← allocateProcessPages request k.paging
    let dir ← paging.getDir pageDir
    let result ← read request k.fs
    let bytes := clusterBytes result.stored
    return (storeFrom (physicalAddress dir) (fun i => request.buf + UInt32.ofNat i) 0 bytes m).map
      fun memory => ⟨memory, bytes.length⟩

/-- The byte at a virtual address of the process in slot `p`. -/
def processByte (k : Kernel) (p : Fin 16) (m : PhysicalMemory) (addr : UInt32) :
    Except Fault (Option UInt8) := do
  let dir ← k.paging.getDir (k.processList p).context.pageDirectory
  return loadAt (physicalAddress dir) m addr

section Bytes
variable {clusters : List ClusterBuffer} {b : ClusterBuffer} {n : Nat}

theorem length_clusterBytes : (clusterBytes clusters).length = 2048 * clusters.length := by
  induction clusters with
  | nil => rfl
  | cons b clusters ih =>
    rw [clusterBytes, List.flatMap_cons, List.length_append, List.length_ofFn, List.length_cons]
    rw [clusterBytes] at ih
    omega

theorem getElem?_clusterBytes : (clusterBytes clusters)[n]? = bufferByte clusters n := by
  induction clusters generalizing n with
  | nil => rfl
  | cons b clusters ih =>
    rw [clusterBytes, List.flatMap_cons]
    rcases Nat.lt_or_ge n 2048 with hlt | hge
    · rw [List.getElem?_append_left (by rw [List.length_ofFn]; exact hlt), bufferByte_cons hlt,
        List.getElem?_eq_getElem (by rw [List.length_ofFn]; exact hlt), List.getElem_ofFn]
    · obtain ⟨j, rfl⟩ := Nat.exists_eq_add_of_le hge
      rw [List.getElem?_append_right (by rw [List.length_ofFn]; exact hge), List.length_ofFn,
        Nat.add_sub_cancel_left, bufferByte_cons_add]
      exact ih

end Bytes

section Page
variable {dir : PageDirectory} {frame : Fin 1024} {n : Nat}

/-- The addresses of the first page are translated to those of its frame. -/
theorem physicalAddress_first (h : dir 0 = ⟨.user, frame⟩) (hn : n < pageFrameSize) :
    physicalAddress dir (UInt32.ofNat n) = some (UInt32.ofNat (frame.val * pageFrameSize + n)) := by
  have hn' : n < 0x400000 := hn
  have hval : (UInt32.ofNat n).toNat = n := by
    rw [UInt32.toNat_ofNat']
    omega
  have hpage : pageIndex (UInt32.ofNat n) = 0 := by
    refine Fin.ext ?_
    rw [pageIndex_val, hval]
    show n / 0x400000 = 0
    omega
  rw [physicalAddress, hpage, h, hval, Nat.mod_eq_of_lt hn]
  rfl

/-- They have cells of their own. -/
theorem ownCells_first (h : dir 0 = ⟨.user, frame⟩) :
    OwnCells (physicalAddress dir) (fun i => 0 + UInt32.ofNat i) 0 pageFrameSize where
  mapped j _ hj := ⟨_, by rw [UInt32.zero_add]; exact physicalAddress_first h hj⟩
  inj j k p _ hj _ hk hjp hkp := by
    rw [UInt32.zero_add, physicalAddress_first h hj] at hjp
    rw [UInt32.zero_add, physicalAddress_first h hk, ← hjp, Option.some_inj] at hkp
    have hval := congrArg UInt32.toNat hkp
    have hframe := frame.isLt
    have hj' : j < 0x400000 := hj
    have hk' : k < 0x400000 := hk
    have hsize : pageFrameSize = 0x400000 := rfl
    rw [UInt32.toNat_ofNat', UInt32.toNat_ofNat', hsize] at hval
    omega

end Page

/-! ## A creation that succeeds -/

section Create
variable {k k' : Kernel} {request : DriverRequest}

/-- The executable is in the first page of the new process, four clusters at most, as it was
read. -/
structure LoadedAtZero (request : DriverRequest) (k k' : Kernel) (m : PhysicalMemory) (p : Fin 16)
    (r : ReadResult) (image : ProcessImage) : Prop where
  slot : processListGetInactiveIndex k = some p
  read : OsKernel.read request k.fs = .ok r
  code : r.code = 0
  computed : processCreateImage request k m = .ok (some image)
  size : image.size = 2048 * r.stored.length
  bytes : ∀ n < image.size, processByte k' p image.memory (UInt32.ofNat n) =
    .ok (bufferByte r.stored n)

/-- What `read` stored from the address 0 on comes back from a page directory with a first page. -/
theorem exists_image {dir : PageDirectory} {frame : Fin 1024} {clusters : List ClusterBuffer}
    (h : dir 0 = ⟨.user, frame⟩) (hlen : 2048 * clusters.length ≤ pageFrameSize)
    (m : PhysicalMemory) : ∃ memory,
    storeFrom (physicalAddress dir) (fun i => 0 + UInt32.ofNat i) 0 (clusterBytes clusters) m =
        some memory ∧
      ∀ n < 2048 * clusters.length, loadAt (physicalAddress dir) memory (UInt32.ofNat n) =
        bufferByte clusters n := by
  have hlen' : (clusterBytes clusters).length = 2048 * clusters.length := length_clusterBytes
  have hroom : 0 + (clusterBytes clusters).length ≤ pageFrameSize := by
    rw [hlen', Nat.zero_add]
    exact hlen
  obtain ⟨memory, hstore⟩ := exists_storeFrom (m := m) (ownCells_first h) hroom
  refine ⟨memory, hstore, fun n hn => ?_⟩
  have hload := loadAt_storeFrom hstore (ownCells_first h) hroom (hlen'.symm ▸ hn)
  rw [UInt32.zero_add, Nat.zero_add] at hload
  rw [hload, ← getElem?_clusterBytes, List.getElem?_eq_getElem]

/-- The checks let a creation through that succeeds. -/
theorem checkCreate_of_success (h : processCreateUserProcess request k = .ok (.success, k')) :
    checkCreate request k = none := by
  cases hcheck : checkCreate request k with
  | none => rfl
  | some code =>
    unfold processCreateUserProcess at h
    rw [hcheck] at h
    cases h
    exact absurd rfl (checkCreate_eq_some hcheck).1

/-- The new process has the directory that was allocated for it. -/
theorem getDir_started {p : Fin 16} {d : Fin 32} {paging : PagingState} {fs : FileSystem} :
    let k' := ((k.loading request p d paging fs).started p).useDirectory k.paging.cr3
    k'.paging.getDir (k'.processList p).context.pageDirectory =
        .ok (paging.pageDirectoryList d) := by
  intro k'
  have hlist : (k'.processList p).context.pageDirectory = .list d := by
    show (((k.loading request p d paging fs).started p).processList p).context.pageDirectory = _
    rw [started_pageDirectory, loading_processList, if_pos rfl]
    rfl
  rw [hlist]
  rfl

/-- A creation that succeeds loads an executable of `n` clusters at address 0, if they fit into one
page. -/
theorem exists_loaded_clusters {n : Nat} (hbuf : request.buf = 0)
    (hsize : request.bufferSize.toNat = 2048 * n) (hfits : 2048 * n ≤ pageFrameSize)
    (hneeded : pageFrameCountNeeded request = 2)
    (hcreate : processCreateUserProcess request k = .ok (.success, k')) (m : PhysicalMemory) :
    ∃ p r image, LoadedAtZero request k k' m p r image := by
  have hcheck := checkCreate_of_success hcreate
  obtain ⟨p, d, paging, r, hr, halloc, hsuccess, hfailure⟩ :=
    processCreateUserProcess_reads hcheck hcreate
  have hcode : r.code = 0 := by
    by_contra hne
    cases (hfailure hne).1
  obtain rfl := (hsuccess hcode).2
  have hfirst : paging.pageDirectoryList d 0 = ⟨.user, frameAfter k.paging.freeFrames 0⟩ := by
    obtain ⟨-, -, hcount, -⟩ := checkCreate_eq_none.1 hcheck
    rw [hneeded, UInt32.le_iff_toNat_le] at hcount
    have hentries := hr.mapped.entries (b := 0) (n := 1) (by rw [hbuf]; rfl) (by rw [hneeded]; rfl)
      (by decide) hcount 0
    rw [hentries, if_neg (by decide), if_pos (by decide)]
    rfl
  have hlen : r.stored.length ≤ n := by
    obtain ⟨i, -, -, -, hcopy⟩ := read_scanned hr.read hcode
    rw [stored_eq_clustersFrom hsize hcopy, List.length_map]
    exact length_follow_le
  obtain ⟨memory, hstore, hload⟩ :=
    exists_image hfirst ((Nat.mul_le_mul_left 2048 hlen).trans hfits) m
  refine ⟨p, r, ⟨memory, (clusterBytes r.stored).length⟩, hr.slot, hr.read, hcode, ?_,
    length_clusterBytes, fun n hn => ?_⟩
  · have hdir : paging.getDir (.list d) = .ok (paging.pageDirectoryList d) := rfl
    unfold processCreateImage
    rw [hcheck]
    dsimp only
    rw [halloc, ok_bind]
    dsimp only
    rw [hdir, ok_bind, hr.read, ok_bind, hbuf, hstore]
    rfl
  · rw [processByte, getDir_started, ok_bind, hload n (by rw [← length_clusterBytes]; exact hn)]
    rfl

/-- So does one of an executable of four clusters. -/
theorem exists_loaded (hbuf : request.buf = 0) (hsize : request.bufferSize = 4 * 2048)
    (hcreate : processCreateUserProcess request k = .ok (.success, k')) (m : PhysicalMemory) :
    ∃ p r image, LoadedAtZero request k k' m p r image :=
  exists_loaded_clusters (n := 4) hbuf (by rw [hsize]; rfl) (by decide)
    (by rw [pageFrameCountNeeded, hsize]; rfl) hcreate m

end Create

/-! ## The file system -/

/-- Process calls leave the disk and the cluster map as they are. -/
theorem fs_calls {k k' : Kernel} {call : ProcessCall} (hc : Calls k call k') :
    k'.fs.clusterMap = k.fs.clusterMap ∧ k'.fs.disk = k.fs.disk := by
  have hread {p : Fin 16} {d : Fin 32} {request : DriverRequest} {paging : PagingState}
    {r : ReadResult}
      (hr : ReadsExecutable request k p d paging r) :
      r.fs.clusterMap = k.fs.clusterMap ∧ r.fs.disk = k.fs.disk := by
    rw [readEntry_fs hr.read]
    exact ⟨rfl, rfl⟩
  cases hc with
  | create hc =>
    cases hc with
    | refused => exact ⟨rfl, rfl⟩
    | created hr => exact hread hr
    | failed hr => exact hread hr
  | destroy hd =>
    cases hd with
    | missing => exact ⟨rfl, rfl⟩
    | destroyed => exact ⟨rfl, rfl⟩

end OsKernel
