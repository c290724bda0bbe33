import OsKernel.Fat32.Rooted
import OsKernel.Shell.Cat
import OsKernel.Shell.Execute

/-!
# Sessions of the shell

The commands of a session run one after the other, each in the working directory that the ones
before it left. However they follow each other, the working directory is a directory of the tree,
and the path that the prompt shows is the path to it (`session_prompt`).
-/

namespace OsKernel

open Lib Relation

/-! ## The other commands -/

/-- `rm`, with the request that it builds from the word. -/
def rmWord (c : CommandInput) (y : RequestContext) (goal : Argument) (x : Session) :
    Except Fault (Int × Session) := do
  match ← (rmRequest { y with cwd := x.state.cwdClusterNumber } goal).result with
  | none => return ((rmBranch c 1).returned, x)
  | some request =>
    let (answer, k) ← rm { c with mem := storeRequest c.mem c.request request } x.kernel
    return (answer.returned, { x with kernel := k })

/-- `rmr`, with the request that it builds from the word. -/
def rmrWord (c : CommandInput) (y : RequestContext) (goal : Argument) (x : Session) :
    Except Fault (Int × Session) := do
  match ← (rmrRequest { y with cwd := x.state.cwdClusterNumber } goal).result with
  | none => return ((rmrBranch c 1).returned, x)
  | some request =>
    let (answer, k) ← rmr { c with mem := storeRequest c.mem c.request request } x.kernel
    return (answer.returned, { x with kernel := k })

/-- The local variables `src_req` and `tar_req` of `mv`, which do not overlap. -/
structure MoveLocals where
  srcReq : UInt32
  tarReq : UInt32
  apart : ∀ i < 23, ∀ j < 23, srcReq + UInt32.ofNat i ≠ tarReq + UInt32.ofNat j

/-- `mv`, with the requests that it builds from its two paths. -/
def mvWords (c : CommandInput) (y : RequestContext) (v : MoveLocals) (goal1 goal2 : Argument)
    (x : Session) : Except Fault (Int × Session) := do
  let sourceCluster ← getFinalParentCluster x.kernel.fs (goal1.chars.length + 2) goal1.chars
    x.state.cwdClusterNumber
  let destCluster ← getFinalParentCluster x.kernel.fs (goal2.chars.length + 2) goal2.chars
    x.state.cwdClusterNumber
  match ← (mvRequests { y with sourceCluster := sourceCluster, destCluster := destCluster }
      goal1 goal2).result with
  | [src, tar] =>
    let mem := storeRequest (storeRequest c.mem v.srcReq src) v.tarReq tar
    let (answer, k) ← mv { c with mem := mem, request := v.srcReq, target := v.tarReq } x.kernel
    return (answer.returned, { x with kernel := k })
  | _ =>
    if sourceCluster = destCluster ∧ y.sameFile = true then return (4, x)
    else if sourceCluster = 0 then return (2, x)
    else return (3, x)

/-- `kill`, with the number that it reads from the word. -/
def killWord (c : CommandInput) (pid : UInt32) (x : Session) : Except Fault (Int × Session) := do
  let (answer, k) ← kill { c with request := pid } x.kernel
  return (answer.returned, { x with kernel := k })

/-! ## Sessions -/

/-- A command with its words, and what it finds in its memory. The other commands only read and
print, or clear the screen and `userBuffer`. -/
inductive ShellAction
  | cd (goal : List UInt8)
  | mkdir (c : CommandInput) (y : RequestContext) (goal : Argument)
  | cat (c : CommandInput) (y : RequestContext) (goal : Argument)
  | rm (c : CommandInput) (y : RequestContext) (goal : Argument)
  | rmr (c : CommandInput) (y : RequestContext) (goal : Argument)
  | cp (c : CommandInput) (v : CopyLocals) (goal dest : Argument)
  | mv (c : CommandInput) (y : RequestContext) (v : MoveLocals) (goal1 goal2 : Argument)
  | exec (c : CommandInput) (y : RequestContext) (filePath : Argument)
  | kill (c : CommandInput) (pid : UInt32)

namespace ShellAction

/-- The session after the command. -/
def run : ShellAction → Session → Except Fault Session
  | cd goal, x => (OsKernel.cd goal x).result
  | mkdir c y goal, x => do
    let (_, x) ← mkdirWord c y goal x
    return x
  | cat c y goal, x => do
    let (_, _, x) ← catWord c y goal x
    return x
  | rm c y goal, x => do
    let (_, x) ← rmWord c y goal x
    return x
  | rmr c y goal, x => do
    let (_, x) ← rmrWord c y goal x
    return x
  | cp c v goal dest, x => do
    let (_, x) ← cpWords c v goal dest x
    return x
  | mv c y v goal1 goal2, x => do
    let (_, x) ← mvWords c y v goal1 goal2 x
    return x
  | exec c y filePath, x => do
    let (_, x) ← execWord c y filePath x
    return x
  | kill c pid, x => do
    let (_, x) ← killWord c pid x
    return x

/-- What is asked of the words: the name that `rm` and `rmr` get fits into a name, and the calls for
a `write` or a `move` are proper ones. -/
def Proper : ShellAction → Session → Prop
  | mkdir _ y goal, x => ∀ mem req,
      mkdirRequest { y with cwd := x.state.cwdClusterNumber } goal = .ok (some req) →
      (StorageCall.driver (.write mem req)).Proper x.kernel.fs
  | rm _ _ goal, _ => (namePart goal.chars).length ≤ 8
  | rmr _ _ goal, _ => (namePart goal.chars).length ≤ 8
  | cp _ v _ dest, x => ∀ mem d req,
      getFinalParentCluster x.kernel.fs (dest.chars.length + 2) dest.chars
      x.state.cwdClusterNumber = .ok d →
      (getOnlyFilename dest.bytes (emptyRequest v.temp d 2048)).result = .ok req →
      (StorageCall.driver (.write mem req)).Proper x.kernel.fs
  | mv _ y _ goal1 goal2, x => ∀ S T src tar,
      getFinalParentCluster x.kernel.fs (goal1.chars.length + 2) goal1.chars
      x.state.cwdClusterNumber = .ok S →
      getFinalParentCluster x.kernel.fs (goal2.chars.length + 2) goal2.chars
        x.state.cwdClusterNumber = .ok T →
      (mvRequests { y with sourceCluster := S, destCluster := T } goal1 goal2).result =
        .ok [src, tar] →
      ProperMove x.kernel.fs src tar
  | _, _ => True

end ShellAction

/-- The command completes. -/
def ShellStep (a : ShellAction) (x x' : Session) : Prop := a.run x = .ok x'

/-! ## System calls of the commands -/

/-- The call of the file system that a system call is. -/
def storageCall (mem : UInt32 → UInt8) (steps : Nat) (general : CallRegisters) :
    Option StorageCall :=
  match general.eax.toNat with
  | 0 => some (.driver (.read (requestAt mem general.ebx)))
  | 2 => some (.driver (.write mem (requestAt mem general.ebx)))
  | 3 => some (.driver (.delete (requestAt mem general.ebx)))
  | 9 => some (.driver (.deleteAll steps (requestAt mem general.ebx)))
  | 12 => some (.move (requestAt mem general.ebx) (requestAt mem general.ecx))
  | _ => none

/-- The session after a call of the file system. -/
def Session.Called (q : StorageCall) (x x' : Session) : Prop :=
  ∃ reply fs, StorageStep (q, reply) x.kernel.fs fs ∧
    x' = { x with kernel := { x.kernel with fs := fs } }

section Calls
variable {c : CommandInput} {mem : UInt32 → UInt8} {general : CallRegisters} {bits bits' : UInt32}
  {k k' : Kernel} {q : StorageCall} {x x' : Session} {y : RequestContext} {goal dest : Argument}
  {n : Int} {answer : Answer}

/-- A system call of a command completes with the call of the file system. -/
theorem callKernel_storage (hq : storageCall mem c.steps general = some q)
    (h : callKernel c mem general bits k = .ok (bits', k')) :
    ∃ reply fs, StorageStep (q, reply) k.fs fs ∧ k' = { k with fs := fs } := by
  obtain ⟨⟨store, k₁⟩, hcall, h⟩ := bind_eq_ok.1 h
  cases h
  unfold storageCall at hq
  unfold syscall at hcall
  split at hq
  · next heax =>
    cases hq
    rw [heax] at hcall
    obtain ⟨r, hrun, hcall⟩ := bind_eq_ok.1 hcall
    cases hcall
    exact ⟨⟨r.code, r.stored⟩, r.fs, bind_eq_ok.2 ⟨r, hrun, rfl⟩, rfl⟩
  · next heax =>
    cases hq
    rw [heax] at hcall
    obtain ⟨⟨code, fs⟩, hrun, hcall⟩ := bind_eq_ok.1 hcall
    cases hcall
    exact ⟨⟨code, []⟩, fs, bind_eq_ok.2 ⟨_, hrun, rfl⟩, rfl⟩
  · next heax =>
    cases hq
    rw [heax] at hcall
    obtain ⟨⟨code, fs⟩, hrun, hcall⟩ := bind_eq_ok.1 hcall
    cases hcall
    exact ⟨⟨code, []⟩, fs, bind_eq_ok.2 ⟨_, hrun, rfl⟩, rfl⟩
  · next heax =>
    cases hq
    rw [heax] at hcall
    obtain ⟨⟨code, fs⟩, hrun, hcall⟩ := bind_eq_ok.1 hcall
    cases hcall
    exact ⟨⟨code, []⟩, fs, bind_eq_ok.2 ⟨_, hrun, rfl⟩, rfl⟩
  · next heax =>
    cases hq
    rw [heax] at hcall
    obtain ⟨⟨code, fs⟩, hrun, hcall⟩ := bind_eq_ok.1 hcall
    cases hcall
    exact ⟨⟨code, []⟩, fs, bind_eq_ok.2 ⟨_, hrun, rfl⟩, rfl⟩
  · cases hq

/-- `mkdir` makes a `write`, if it makes a call. -/
theorem mkdirWord_called (h : mkdirWord c y goal x = .ok (n, x')) : x' = x ∨ ∃ req,
    mkdirRequest { y with cwd := x.state.cwdClusterNumber } goal = .ok (some req) ∧
      x.Called (.driver (.write (storeRequest c.mem c.request req) req)) x' := by
  obtain ⟨o, hreq, h⟩ := bind_eq_ok.1 h
  cases o with
  | none =>
    cases h
    exact .inl rfl
  | some req =>
    obtain ⟨⟨answer, k⟩, hrun, h⟩ := bind_eq_ok.1 h
    cases h
    obtain ⟨⟨bits, k'⟩, hcall, hrun⟩ := bind_eq_ok.1 hrun
    cases hrun
    obtain ⟨reply, fs, hstep, rfl⟩ := callKernel_storage rfl hcall
    dsimp only at hstep
    rw [requestAt_storeRequest] at hstep
    exact .inr ⟨req, hreq, reply, fs, hstep, rfl⟩

/-- `cat` only reads. -/
theorem catWord_called {printed : List (List UInt8)}
    (h : catWord c y goal x = .ok (n, printed, x')) :
    x' = x ∨ ∃ req, x.Called (.driver (.read req)) x' := by
  obtain ⟨o, hreq, h⟩ := bind_eq_ok.1 h
  cases o with
  | none =>
    cases h
    exact .inl rfl
  | some req =>
    obtain ⟨⟨retcode, k⟩, hcall, h⟩ := bind_eq_ok.1 h
    obtain ⟨result, -, h⟩ := bind_eq_ok.1 h
    obtain ⟨⟨returned, printed⟩, -, h⟩ := bind_eq_ok.1 h
    cases h
    obtain ⟨reply, fs, hstep, rfl⟩ := callKernel_storage rfl hcall
    exact .inr ⟨_, reply, fs, hstep, rfl⟩

/-- A request for a removal is for an entry with a name of the working directory. -/
theorem removalRequest_some {req : DriverRequest} (hfits : (namePart goal.chars).length ≤ 8)
    (h : (removalRequest y goal).result = .ok (some req)) :
    req.parentClusterNumber = y.cwd ∧ req.name ≠ Vector.replicate 8 0 := by
  obtain ⟨r, hparse, h⟩ := Traced.bind_result_eq_ok.1 h
  obtain ⟨ext, hdecides⟩ := parseFilename_argument (emptyRequest y.temp y.cwd 512) goal
  have hr := (hdecides.ensures hfits).result r hparse
  have hparent : r.parentClusterNumber = y.cwd := by
    rw [hr]
    rfl
  have hname (hn : r.name.get 0 ≠ 0) : r.name ≠ Vector.replicate 8 0 := by
    intro hzero
    rw [hzero] at hn
    exact hn rfl
  dsimp only at h
  split at h
  · split at h
    · cases h
    · next hn =>
      cases h
      exact ⟨hparent, hname hn⟩
  · split at h
    · cases h
    · next hn =>
      cases h
      exact ⟨hparent, hname hn⟩

/-- `rm` makes a `delete`, if it makes a call. -/
theorem rmWord_called (h : rmWord c y goal x = .ok (n, x')) : x' = x ∨ ∃ req,
    (rmRequest { y with cwd := x.state.cwdClusterNumber } goal).result = .ok (some req) ∧
      x.Called (.driver (.delete req)) x' := by
  obtain ⟨o, hreq, h⟩ := bind_eq_ok.1 h
  cases o with
  | none =>
    cases h
    exact .inl rfl
  | some req =>
    obtain ⟨⟨answer, k⟩, hrun, h⟩ := bind_eq_ok.1 h
    cases h
    obtain ⟨⟨bits, k'⟩, hcall, hrun⟩ := bind_eq_ok.1 hrun
    cases hrun
    obtain ⟨reply, fs, hstep, rfl⟩ := callKernel_storage rfl hcall
    dsimp only at hstep
    rw [requestAt_storeRequest] at hstep
    exact .inr ⟨req, hreq, reply, fs, hstep, rfl⟩

/-- `rmr` makes a `delete_all`, if it makes a call. -/
theorem rmrWord_called (h : rmrWord c y goal x = .ok (n, x')) : x' = x ∨ ∃ req,
    (rmrRequest { y with cwd := x.state.cwdClusterNumber } goal).result = .ok (some req) ∧
      x.Called (.driver (.deleteAll c.steps req)) x' := by
  obtain ⟨o, hreq, h⟩ := bind_eq_ok.1 h
  cases o with
  | none =>
    cases h
    exact .inl rfl
  | some req =>
    obtain ⟨⟨answer, k⟩, hrun, h⟩ := bind_eq_ok.1 h
    cases h
    obtain ⟨⟨bits, k'⟩, hcall, hrun⟩ := bind_eq_ok.1 hrun
    cases hrun
    obtain ⟨reply, fs, hstep, rfl⟩ := callKernel_storage rfl hcall
    dsimp only at hstep
    rw [requestAt_storeRequest] at hstep
    exact .inr ⟨req, hreq, reply, fs, hstep, rfl⟩

/-- `cp` reads, and makes a `write` if it goes on. -/
theorem cpWords_called {v : CopyLocals} (h : cpWords c v goal dest x = .ok (n, x')) : x' = x ∨
    ∃ req x₁, x.Called (.driver (.read req)) x₁ ∧ (x' = x₁ ∨ ∃ mem d req',
      getFinalParentCluster x.kernel.fs (dest.chars.length + 2) dest.chars
      x.state.cwdClusterNumber = .ok d ∧
      (getOnlyFilename dest.bytes (emptyRequest v.temp d 2048)).result = .ok req' ∧
      x₁.Called (.driver (.write mem req')) x') := by
  obtain ⟨S, -, h⟩ := bind_eq_ok.1 h
  obtain ⟨T, hT, h⟩ := bind_eq_ok.1 h
  split at h
  · cases h
    exact .inl rfl
  split at h
  · cases h
    exact .inl rfl
  obtain ⟨req, hreq, h⟩ := bind_eq_ok.1 h
  have hf := getOnlyFilename_sameTarget hreq
  obtain ⟨⟨retcode, k⟩, hcall, h⟩ := bind_eq_ok.1 h
  obtain ⟨reply, fs, hstep, rfl⟩ := callKernel_storage rfl hcall
  refine .inr ⟨_, { x with kernel := { x.kernel with fs := fs } }, ⟨reply, fs, hstep, rfl⟩, ?_⟩
  dsimp only at h
  split at h
  · cases h
    exact .inl rfl
  · obtain ⟨mem, -, h⟩ := bind_eq_ok.1 h
    obtain ⟨req', hreq', h⟩ := bind_eq_ok.1 h
    obtain ⟨⟨retcode', k'⟩, hcall', h⟩ := bind_eq_ok.1 h
    cases h
    obtain ⟨reply', fs', hstep', rfl⟩ := callKernel_storage rfl hcall'
    rw [hf.cleared] at hreq'
    dsimp only at hstep'
    rw [requestAt_storeRequest] at hstep'
    exact .inr ⟨_, T, req', hT, hreq', reply', fs', hstep', rfl⟩

/-- `mv` makes a `move`, if it makes a call. -/
theorem mvWords_called {v : MoveLocals} {goal' : Argument}
    (h : mvWords c y v goal goal' x = .ok (n, x')) :
    x' = x ∨ ∃ S T src tar,
      getFinalParentCluster x.kernel.fs (goal.chars.length + 2) goal.chars
      x.state.cwdClusterNumber = .ok S ∧
      getFinalParentCluster x.kernel.fs (goal'.chars.length + 2) goal'.chars
        x.state.cwdClusterNumber = .ok T ∧
      (mvRequests { y with sourceCluster := S, destCluster := T } goal goal').result =
        .ok [src, tar] ∧
      x.Called (.move src tar) x' := by
  obtain ⟨S, hS, h⟩ := bind_eq_ok.1 h
  obtain ⟨T, hT, h⟩ := bind_eq_ok.1 h
  obtain ⟨requests, hrequests, h⟩ := bind_eq_ok.1 h
  split at h
  · next src tar =>
    obtain ⟨⟨answer, k⟩, hrun, h⟩ := bind_eq_ok.1 h
    cases h
    obtain ⟨⟨bits, k'⟩, hcall, hrun⟩ := bind_eq_ok.1 hrun
    cases hrun
    obtain ⟨reply, fs, hstep, rfl⟩ := callKernel_storage rfl hcall
    -- the second request does not overwrite the first
    have hsrc :
        requestAt (storeRequest (storeRequest c.mem v.srcReq src) v.tarReq tar) v.srcReq = src := by
      rw [requestAt_congr fun i hi => storeRequest_of_apart (v.apart i hi), requestAt_storeRequest]
    dsimp only at hstep
    rw [hsrc, requestAt_storeRequest] at hstep
    exact .inr ⟨S, T, src, tar, hS, hT, hrequests, reply, fs, hstep, rfl⟩
  · left
    split at h
    · cases h
      rfl
    split at h
    · cases h
      rfl
    · cases h
      rfl

/-- `kill` destroys a process. -/
theorem killWord_calls {pid : UInt32} (hk : Consistent x.kernel)
    (h : killWord c pid x = .ok (n, x')) :
    Calls x.kernel (.destroy pid) x'.kernel ∧ x'.state = x.state := by
  obtain ⟨⟨answer, k⟩, hrun, h⟩ := bind_eq_ok.1 h
  cases h
  obtain ⟨⟨bits, k'⟩, hcall, hrun⟩ := bind_eq_ok.1 hrun
  cases hrun
  obtain ⟨⟨store, k'⟩, hsyscall, hcall⟩ := bind_eq_ok.1 hcall
  cases hcall
  obtain ⟨⟨b, k'⟩, hdestroy, hsyscall⟩ := bind_eq_ok.1 hsyscall
  cases hsyscall
  exact ⟨.destroy (hk.processDestroy hdestroy), rfl⟩

/-- `exec` creates a process. -/
theorem execWord_calls (hk : Consistent x.kernel) (h : execWord c y goal x = .ok (n, x')) :
    (∃ req, Calls x.kernel (.create req) x'.kernel) ∧ x'.state = x.state := by
  obtain ⟨req, code, -, hcreate⟩ := execWord_run h
  refine ⟨⟨req, .create (hk.processCreateUserProcess_spec hcreate)⟩, ?_⟩
  obtain ⟨req, -, h⟩ := bind_eq_ok.1 h
  obtain ⟨⟨answer, k⟩, -, h⟩ := bind_eq_ok.1 h
  cases h
  rfl

end Calls

/-! ## Working directories -/

/-- The kernel keeps its tables consistent, the root directory is its own parent, and the working
directory is a directory of the tree. -/
structure Session.Settled (x : Session) : Prop where
  consistent : Consistent x.kernel
  rooted : ∃ s, x.kernel.fs.Rooted s
  cwd : x.kernel.fs.LiveDir x.state.cwdClusterNumber

section Settled
variable {fs : FileSystem} {s : FileStore} {t : DirectoryTable} {slots : List (Fin 64)} {i : Fin 64}
  {parent path : List UInt8} {steps : Nat} {b d : UInt32}
  {x x' : Session} {k : Kernel} {a : ShellAction} {q : StorageCall} {call : ProcessCall}

/-- The loop of `get_deep_folder_cluster` finds a folder. -/
theorem findFolder_some (h : findFolder t parent slots = .ok (some i)) :
    i ∈ slots ∧ (t i).isSubdirectory = true := by
  induction slots with
  | nil => cases h
  | cons j slots ih =>
    obtain ⟨name, -, h⟩ := bind_eq_ok.1 h
    split at h
    · next hmatch =>
      cases h
      exact ⟨List.mem_cons_self, (Bool.and_eq_true _ _ ▸ hmatch).2⟩
    · obtain ⟨hmem, hf⟩ := ih h
      exact ⟨List.mem_cons_of_mem _ hmem, hf⟩

theorem FileSystem.Rooted.walkable (h : fs.Rooted s) : fs.Walkable where
  toTidy := h.toTidy
  toLinksUp := h.toLinksUp
  terminated {d e} hd he := by
    obtain ⟨j, hj, rfl, -⟩ := mem_records.1 he
    exact h.zero_mem_slot hd (le_of_lt hj)
  rootUp := h.rootUp

/-- A path from a directory leads to a directory, if it leads anywhere. -/
theorem FileSystem.Walkable.live_deep (h : fs.Walkable) (hb : fs.LiveDir b)
    (hrun : getDeepFolderCluster fs steps path b = .ok d) (hd : d ≠ 0) : fs.LiveDir d := by
  induction steps generalizing path b with
  | zero => cases hrun
  | succ steps ih =>
    rw [getDeepFolderCluster] at hrun
    split at hrun
    · cases hrun
      exact hb
    · obtain ⟨parent, -, hrun⟩ := bind_eq_ok.1 hrun
      obtain ⟨found, hfind, hrun⟩ := bind_eq_ok.1 hrun
      cases found with
      | none =>
        cases hrun
        exact absurd rfl hd
      | some i =>
        obtain ⟨hmem, hf⟩ := findFolder_some hfind
        have hlow : ∀ i ∈ (List.finRange 64).drop 1, 1 ≤ i.val := by decide
        have hchild := h.live_slot hb (hlow i hmem) hf
        dsimp only at hrun
        split at hrun
        · cases hrun
          exact hchild
        · exact ih hchild hrun

/-- `cd` moves to a directory. -/
theorem Session.Settled.cd {goal : List UInt8} (h : x.Settled)
    (hrun : (OsKernel.cd goal x).result = .ok x') : x'.Settled := by
  obtain ⟨s, hs⟩ := h.rooted
  obtain ⟨d, hdeep, hrun⟩ := Traced.bind_result_eq_ok.1 hrun
  split at hrun
  · cases hrun
    exact h
  split at hrun
  · next hd =>
    cases hrun
    exact ⟨h.consistent, h.rooted, hs.walkable.live_deep h.cwd hdeep hd⟩
  · cases hrun
    exact h

/-- A proper call that removes nothing outside the working directory keeps it. -/
theorem Session.Settled.called (h : x.Settled) (hq : q.Proper x.kernel.fs)
    (hfrom : q.RemovesFrom x.state.cwdClusterNumber) (hc : x.Called q x') :
    x'.Settled ∧ x'.state = x.state := by
  obtain ⟨s, hs⟩ := h.rooted
  obtain ⟨reply, fs, hstep, rfl⟩ := hc
  obtain ⟨s', -, hs', hkept⟩ := hs.step hq hstep
  have hk := h.consistent
  exact ⟨⟨⟨hk.directory, hk.distinct, hk.pages⟩, ⟨s', hs'⟩, hkept _ hfrom h.cwd⟩, rfl⟩

/-- A `read` changes nothing on the disk, whatever the request. -/
theorem Session.Called.read {request : DriverRequest} (hc : x.Called (.driver (.read request)) x') :
    x' = { x with kernel := { x.kernel with
      fs := x.kernel.fs.readDirTableBuf request.parentClusterNumber } } := by
  obtain ⟨reply, fs, hstep, rfl⟩ := hc
  obtain ⟨r, hread, hrun⟩ := bind_eq_ok.1 hstep
  cases hrun
  rw [readEntry_fs hread]

theorem Session.Settled.read {request : DriverRequest} (h : x.Settled)
    (hc : x.Called (.driver (.read request)) x') : x'.Settled := by
  obtain ⟨s, hs⟩ := h.rooted
  have hk := h.consistent
  have hcwd := hs.live_iff.1 h.cwd
  rw [hc.read]
  have hs' : (x.kernel.fs.readDirTableBuf request.parentClusterNumber).Rooted s := hs.congr rfl rfl
  exact ⟨⟨hk.directory, hk.distinct, hk.pages⟩, ⟨s, hs'⟩, hs'.live_iff.2 hcwd⟩

/-- Processes come and go without a change of the tree. -/
theorem Session.Settled.calls (h : x.Settled) (hc : Calls x.kernel call x'.kernel)
    (hstate : x'.state = x.state) : x'.Settled := by
  obtain ⟨s, hs⟩ := h.rooted
  obtain ⟨hmap, hdisk⟩ := fs_calls hc
  have hs' := hs.congr hmap hdisk
  refine ⟨h.consistent.calls hc, ⟨s, hs'⟩, hs'.live_iff.2 ?_⟩
  rw [hstate]
  exact hs.live_iff.1 h.cwd

/-- A command keeps the session in order. -/
theorem Session.Settled.step (h : x.Settled) (ha : a.Proper x) (hstep : ShellStep a x x') :
    x'.Settled := by
  have hroot := h.cwd
  cases a with
  | cd goal => exact h.cd hstep
  | mkdir c y goal =>
    obtain ⟨⟨n, x₁⟩, hrun, hstep⟩ := bind_eq_ok.1 hstep
    cases hstep
    rcases mkdirWord_called hrun with rfl | ⟨req, hreq, hc⟩
    · exact h
    · exact (h.called (ha _ _ hreq) trivial hc).1
  | cat c y goal =>
    obtain ⟨⟨n, printed, x₁⟩, hrun, hstep⟩ := bind_eq_ok.1 hstep
    cases hstep
    rcases catWord_called hrun with rfl | ⟨req, hc⟩
    · exact h
    · exact h.read hc
  | rm c y goal =>
    obtain ⟨⟨n, x₁⟩, hrun, hstep⟩ := bind_eq_ok.1 hstep
    cases hstep
    rcases rmWord_called hrun with rfl | ⟨req, hreq, hc⟩
    · exact h
    · obtain ⟨hparent, hname⟩ := removalRequest_some ha hreq
      have hcwd : x.kernel.fs.LiveDir req.parentClusterNumber := hparent ▸ h.cwd
      exact (h.called (q := .driver (.delete req)) ⟨⟨hcwd, hname, trivial⟩, trivial⟩ hparent hc).1
  | rmr c y goal =>
    obtain ⟨⟨n, x₁⟩, hrun, hstep⟩ := bind_eq_ok.1 hstep
    cases hstep
    rcases rmrWord_called hrun with rfl | ⟨req, hreq, hc⟩
    · exact h
    · obtain ⟨hparent, hname⟩ := removalRequest_some ha hreq
      have hcwd : x.kernel.fs.LiveDir req.parentClusterNumber := hparent ▸ h.cwd
      exact (h.called (q := .driver (.deleteAll c.steps req)) ⟨⟨hcwd, hname, trivial⟩, trivial⟩
        hparent hc).1
  | cp c v goal dest =>
    obtain ⟨⟨n, x₁⟩, hrun, hstep⟩ := bind_eq_ok.1 hstep
    cases hstep
    rcases cpWords_called hrun with rfl | ⟨req, x₂, hc, rfl | ⟨mem, d, req', hd, hreq', hc'⟩⟩
    · exact h
    · exact h.read hc
    · have hproper := ha mem d req' hd hreq'
      have h₂ := h.read hc
      rw [hc.read] at hc' h₂
      exact (h₂.called (q := .driver (.write mem req')) hproper trivial hc').1
  | mv c y v goal goal' =>
    obtain ⟨⟨n, x₁⟩, hrun, hstep⟩ := bind_eq_ok.1 hstep
    cases hstep
    rcases mvWords_called hrun with rfl | ⟨S, T, src, tar, hS, hT, hrequests, hc⟩
    · exact h
    · exact (h.called (q := .move src tar) (ha S T src tar hS hT hrequests) trivial hc).1
  | exec c y goal =>
    obtain ⟨⟨n, x₁⟩, hrun, hstep⟩ := bind_eq_ok.1 hstep
    cases hstep
    obtain ⟨⟨req, hcalls⟩, hstate⟩ := execWord_calls h.consistent hrun
    exact h.calls hcalls hstate
  | kill c pid =>
    obtain ⟨⟨n, x₁⟩, hrun, hstep⟩ := bind_eq_ok.1 hstep
    cases hstep
    obtain ⟨hcalls, hstate⟩ := killWord_calls h.consistent hrun
    exact h.calls hcalls hstate

/-- The commands of a session keep it in order. -/
theorem Session.Settled.run (h : x.Settled) (hrun : Run ShellStep ShellAction.Proper x x') :
    x'.Settled :=
  hrun.invariant (fun _ _ _ hs ha hstep => hs.step ha hstep) h

end Settled

/-! ## The prompt -/

section Prompt
variable {pad0 : Vector UInt8 6} {pad1 : Vector UInt8 5} {disk : Disk}
  {log : List (StorageCall × Reply)} {x x' : Session}

/-- A session starts in order on a file system that is in use, in its root directory. -/
theorem Session.Settled.start
    (hdisk : Logged StorageStep (fun a fs => a.1.Proper fs) (createFat32 pad0 pad1 (.zeroed disk))
      log x.kernel.fs)
    (hk : Consistent x.kernel) (hcwd : x.state.cwdClusterNumber = rootClusterNumber) :
        x.Settled := by
  have hstep : ∀ a fs fs', (∃ s, fs.Rooted s) → a.1.Proper fs → StorageStep a fs fs' →
      ∃ s, fs'.Rooted s := by
    rintro a fs fs' ⟨s, hs⟩ hq hstep
    obtain ⟨s', -, hs', -⟩ := hs.step hq hstep
    exact ⟨s', hs'⟩
  have hrooted := hdisk.run.invariant hstep ⟨_, rooted_createFat32⟩
  refine ⟨hk, hrooted, ?_⟩
  rw [hcwd]
  exact .root

/-- Whatever commands a session ran, its working directory is at the end of exactly one path of
folders from the root directory, and the prompt shows that path. -/
theorem session_prompt
    (hdisk : Logged StorageStep (fun a fs => a.1.Proper fs) (createFat32 pad0 pad1 (.zeroed disk))
      log x.kernel.fs)
    (hk : Consistent x.kernel) (hcwd : x.state.cwdClusterNumber = rootClusterNumber)
    (hrun : Run ShellStep ShellAction.Proper x x') :
    ∃ names, (∀ names', x'.kernel.fs.Walk rootClusterNumber names' x'.state.cwdClusterNumber ↔
      names' = names) ∧
      ∃ bound, ∀ steps ≥ bound,
        printedPath x'.kernel.fs steps x'.state.cwdClusterNumber =
            .ok (rootText ++ pathText names) := by
  have h := (Session.Settled.start hdisk hk hcwd).run hrun
  obtain ⟨s, hs⟩ := h.rooted
  have hlabelled := hs.toLabelled
  obtain ⟨names, hwalk⟩ := FileSystem.exists_walk h.cwd
  refine ⟨names, fun names' => ⟨fun hwalk' => hlabelled.walk_unique hwalk' hwalk, ?_⟩,
    hwalk.prints hlabelled⟩
  rintro rfl
  exact hwalk

/-- The request of `mkdir a` in the root directory. -/
def plainRequest : DriverRequest := { emptyRequest 0x100000 2 0 with name := (fileRequest 0).name }

theorem mkdirRequest_plain : mkdirRequest rootContext plainWord = .ok (some plainRequest) := rfl

theorem properName_plain : ProperName plainRequest.name where
  padded := rfl
  nonempty := List.cons_ne_nil _ _
  separator c hc := by
    have hchar : c ∈ [(0x61 : UInt8)] := hc
    rw [List.mem_singleton.1 hchar]
    rfl
  ne_dot := by decide
  ne_dotdot := by decide

/-- After `mkdir a` and `cd a` the working directory is another one. -/
theorem session_prompt_made : ∃ x', Run ShellStep ShellAction.Proper blankSession x' ∧
    x'.state.cwdClusterNumber ≠ rootClusterNumber ∧
    ∃ names, (∀ names', x'.kernel.fs.Walk rootClusterNumber names' x'.state.cwdClusterNumber ↔
      names' = names) ∧
      ∃ bound, ∀ steps ≥ bound,
        printedPath x'.kernel.fs steps x'.state.cwdClusterNumber =
            .ok (rootText ++ pathText names) := by
  obtain ⟨r, fs', i, hreq, hrun, ha⟩ := mkdirWord_blank plainWord (by decide) (by decide)
  have hentered : FolderEntered plainWord.chars blankSession _ :=
    (ha.entered_iff (x := blankSession) walkable_blank .root plainWord.ne_zero hreq).2
      folderWord_plain
  obtain ⟨e, he, hnew, -, ⟨-, x', hcd, hcwd⟩, -⟩ := hentered
  have hproper : (ShellAction.mkdir sampleInput rootContext plainWord).Proper blankSession := by
    intro mem req hreq
    obtain rfl := Option.some.inj (Except.ok.inj (mkdirRequest_plain.symm.trans hreq))
    refine ⟨⟨.root, properName_plain.ne_zero, fun _ _ hfree => ?_⟩, properName_plain, fun _ => rfl⟩
    have hroom : 509 ≤ (freeClusters blankFileSystem.clusterMap).length :=
      length_freeClusters_createFat32
    have hfree : (freeClusters blankFileSystem.clusterMap).length = 1 := hfree
    omega
  have hmade : ShellStep (.mkdir sampleInput rootContext plainWord) blankSession
      { blankSession with kernel := { blankSession.kernel with fs := fs' } } :=
    bind_eq_ok.2 ⟨_, hrun, rfl⟩
  have hrun' : Run ShellStep ShellAction.Proper blankSession x' :=
    (Run.single hproper hmade).tail (a := .cd plainWord.chars) trivial hcd
  refine ⟨x', hrun', ?_, session_prompt .refl (consistent_initial _) rfl hrun'⟩
  obtain rfl := ha.new_iff.1 ⟨he, hnew⟩
  rw [hcwd, createdEntry_cluster]
  exact (ha.ne_of_live walkable_blank .root).symm

end Prompt

end OsKernel
