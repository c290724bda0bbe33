import OsKernel.Fat32.Read
import OsKernel.Memory.Frames
import OsKernel.Process.Switch

/-!
# What creating and destroying processes does

`process_destroy` and `process_create_user_process` as relations between the kernel before and after
(`Destroys`, `Creates`). They keep the kernel consistent: every process has a page directory of its
own. A creation whose executable cannot be read ends in a `process_destroy` of its pid, which finds
the new process unless an earlier slot has the same pid.
-/

namespace OsKernel

open Lib

/-! ## Consistency -/

/-- Every process has a page directory of its own, and no more pages than addresses for them. -/
structure Consistent (k : Kernel) : Prop where
  directory : ∀ i, k.state i ≠ .terminated → ∃ d,
    (k.processList i).context.pageDirectory = .list d ∧ k.paging.pageDirectoryUsed d = true
  distinct : ∀ i j, k.state i ≠ .terminated → k.state j ≠ .terminated →
    (k.processList i).context.pageDirectory = (k.processList j).context.pageDirectory → i = j
  pages : ∀ i, (k.processList i).memory.pageFrameUsedCount ≤ 8

theorem consistent_initial (fs : FileSystem) : Consistent (.initial fs) where
  directory _ h := absurd rfl h
  distinct _ _ h := absurd rfl h
  pages _ := (by decide : (0 : UInt32) ≤ 8)

/-! ## Destroying -/

/-- The kernel after the process in slot `i` with the page directory `d` was destroyed. -/
def Kernel.destroyed (k : Kernel) (i : Fin 16) (d : Fin 32) : Kernel :=
  { k with
    paging := (k.paging.freePages (k.processList i).memory.pageFrameUsedCount.toNat).release d
    processList := Function.update k.processList i .zero
    activeProcessCount := k.activeProcessCount - 1 }

/-- What `process_destroy` can do: it finds no process, or destroys the one it finds. -/
inductive Destroys (pid : UInt32) (k : Kernel) : Bool → Kernel → Prop
  | missing : findProcess pid k = none → Destroys pid k false k
  | destroyed {i : Fin 16} {d : Fin 32} : findProcess pid k = some i → k.state i ≠ .terminated →
      (k.processList i).context.pageDirectory = .list d → k.paging.pageDirectoryUsed d = true →
      Destroys pid k true (k.destroyed i d)

section Destroy
variable {k k' : Kernel} {i j : Fin 16} {d : Fin 32} {pid : UInt32} {b : Bool}

theorem live_iff : (k.processList i).live = true ↔ k.state i ≠ .terminated := by
  simp [ProcessControlBlock.live, Kernel.state]

/-- The search for a pid stops at a process that has it. -/
theorem hasPid_iff : ((k.processList i).metadata.pid == pid && (k.processList i).live) = true ↔
    (k.processList i).metadata.pid = pid ∧ k.state i ≠ .terminated := by
  rw [Bool.and_eq_true, beq_iff_eq, live_iff]

theorem findProcess_live (h : findProcess pid k = some i) :
    (k.processList i).metadata.pid = pid ∧ k.state i ≠ .terminated :=
  hasPid_iff.1 (findFrom_eq_some.1 h).2.1

theorem findProcess_eq_none : findProcess pid k = none ↔
    ∀ i, ¬ ((k.processList i).metadata.pid = pid ∧ k.state i ≠ .terminated) := by
  rw [findProcess, findFrom_eq_none]
  constructor
  · intro h i hi
    have hfalse := h i (Nat.zero_le _)
    rw [hasPid_iff.2 hi] at hfalse
    cases hfalse
  · intro h i _
    rw [← Bool.not_eq_true, hasPid_iff]
    exact h i

theorem freeUserPages_list {memory : ProcessMemory} {n j : Nat} {s : PagingState} (h : j + n ≤ 8) :
    freeUserPages (.list d) memory n j s = .ok (true, s.freePages n) := by
  induction n generalizing j s with
  | zero => rw [freeUserPages, freePages_zero]
  | succ n ih =>
    have haddr : memory.virtualAddr j = .ok memory.virtualAddrUsed[j] := dif_pos _
    rw [freeUserPages, haddr, ok_bind, pagingFreeUserPageFrame_list, ok_bind]
    dsimp only
    rw [if_pos rfl, ih (by omega), freePages_succ]

/-- A process with a page directory of the list is destroyed. -/
theorem destroySlot_list (hdir : (k.processList i).context.pageDirectory = .list d)
    (hpages : (k.processList i).memory.pageFrameUsedCount ≤ 8) :
    destroySlot i k = .ok (true, k.destroyed i d) := by
  have hpcb : (k.setState i .terminated).processList i = (k.processList i).setState .terminated :=
    Function.update_self ..
  have hn : 0 + (k.processList i).memory.pageFrameUsedCount.toNat ≤ 8 := by
    rw [UInt32.le_iff_toNat_le] at hpages
    simpa using hpages
  unfold destroySlot
  dsimp only
  rw [hpcb, setState_context, hdir]
  show (freeUserPages (.list d) (k.processList i).memory
    (k.processList i).memory.pageFrameUsedCount.toNat 0 k.paging >>= fun freed => _) =
      (_ : Except Fault (Bool × Kernel))
  rw [freeUserPages_list hn, ok_bind]
  have hlist : Function.update (k.setState i .terminated).processList i .zero =
      Function.update k.processList i .zero := Function.update_idem ..
  unfold Kernel.destroyed
  rw [← hlist]
  rfl

theorem processDestroy_found (hfind : findProcess pid k = some i)
    (hdir : (k.processList i).context.pageDirectory = .list d)
    (hpages : (k.processList i).memory.pageFrameUsedCount ≤ 8) :
    processDestroy pid k = .ok (true, k.destroyed i d) := by
  rw [processDestroy, hfind]
  exact destroySlot_list hdir hpages

theorem Consistent.processDestroy (h : Consistent k)
    (hrun : processDestroy pid k = .ok (b, k')) : Destroys pid k b k' := by
  unfold OsKernel.processDestroy at hrun
  split at hrun
  · next hnone =>
    cases hrun
    exact .missing hnone
  · next i hfind =>
    have hlive := (findProcess_live hfind).2
    obtain ⟨d, hdir, hused⟩ := h.directory i hlive
    rw [destroySlot_list hdir (h.pages i)] at hrun
    cases hrun
    exact .destroyed hfind hlive hdir hused

theorem destroyed_processList : (k.destroyed i d).processList j =
    if j = i then .zero else k.processList j :=
  Function.update_apply ..

theorem destroyed_state : (k.destroyed i d).state j =
    if j = i then .terminated else k.state j := by
  rw [Kernel.state, destroyed_processList]
  split <;> rfl

/-- A process that is live after a destruction is another one than the one that was destroyed. -/
theorem destroyed_live (h : (k.destroyed i d).state j ≠ .terminated) :
    j ≠ i ∧ k.state j ≠ .terminated ∧ (k.destroyed i d).processList j = k.processList j := by
  rw [destroyed_state] at h
  split at h
  · exact absurd rfl h
  · next hne => exact ⟨hne, h, by rw [destroyed_processList, if_neg hne]⟩

theorem Consistent.destroyed (h : Consistent k) (hi : k.state i ≠ .terminated)
    (hdir : (k.processList i).context.pageDirectory = .list d) : Consistent (k.destroyed i d) where
  directory j hj := by
    obtain ⟨hne, hlive, heq⟩ := destroyed_live hj
    obtain ⟨d', hd', hused⟩ := h.directory j hlive
    refine ⟨d', by rw [heq, hd'], ?_⟩
    have hdd : d' ≠ d := by
      rintro rfl
      exact hne (h.distinct j i hlive hi (hd'.trans hdir.symm))
    show Function.update k.paging.pageDirectoryUsed d false d' = true
    rw [Function.update_of_ne hdd, hused]
  distinct j j' hj hj' heq := by
    obtain ⟨-, hlive, hj⟩ := destroyed_live hj
    obtain ⟨-, hlive', hj'⟩ := destroyed_live hj'
    rw [hj, hj'] at heq
    exact h.distinct j j' hlive hlive' heq
  pages j := by
    rw [destroyed_processList]
    split
    · exact (by decide : (0 : UInt32) ≤ 8)
    · exact h.pages j

end Destroy

/-! ## Creating -/

/-- The read of the executable fails. -/
def ReadFails (request : DriverRequest) (k : Kernel) : Prop :=
  ∃ r, read request k.fs = .ok r ∧ r.code ≠ 0

/-- A creation that fails at the read removes its own process again: no earlier slot has its pid. -/
def Undone (request : DriverRequest) (k : Kernel) : Prop :=
  ReadFails request k ∧ ∀ p i, processListGetInactiveIndex k = some p →
    findProcess k.nextPid k = some i → p < i

/-- A creation takes the page directory `d` and allocates the pages of the new process in it. -/
structure MapsPages (request : DriverRequest) (d : Fin 32) (s s' : PagingState) : Prop where
  unused : s.pageDirectoryUsed d = false
  pages : ∃ s₁, allocateCodePages (.list d) request.buf (pageFrameCountNeeded request - 1).toNat 0
    (s.create d) = .ok s₁ ∧ Allocates d (pageIndex userStackAddr) s₁ s'

/-- The kernel with another page directory in use. -/
def Kernel.useDirectory (k : Kernel) (pageDir : PageDirectoryPtr) : Kernel :=
  { k with paging := { k.paging with cr3 := pageDir } }

/-- The kernel while a creation reads the executable for the process in slot `p`. -/
def Kernel.loading (k : Kernel) (request : DriverRequest) (p : Fin 16) (d : Fin 32)
    (paging : PagingState) (fs : FileSystem) : Kernel :=
  { k with
    paging := { paging with cr3 := .list d }
    fs := fs
    nextPid := k.nextPid + 1
    processList := Function.update k.processList p
      ((k.processList p).fill k.nextPid request (.list d)) }

/-- The kernel when the executable was read. -/
def Kernel.started (k : Kernel) (p : Fin 16) : Kernel :=
  { k with
    processList := Function.update k.processList p (k.processList p).start
    activeProcessCount := k.activeProcessCount + 1 }

/-- A creation that gets to the read of the executable: the slot, the page directory and the pages
of the new process, and the result of the read. -/
structure ReadsExecutable (request : DriverRequest) (k : Kernel) (p : Fin 16) (d : Fin 32)
    (paging : PagingState) (r : ReadResult) : Prop where
  checked : checkCreate request k = none
  slot : processListGetInactiveIndex k = some p
  mapped : MapsPages request d k.paging paging
  read : read request k.fs = .ok r

/-- What `process_create_user_process` can do to a consistent kernel. When the executable cannot be
read, it destroys the process it finds in slot `i`. -/
inductive Creates (request : DriverRequest) (k : Kernel) : ProcessCreateCode → Kernel → Prop
  | refused {code : ProcessCreateCode} : checkCreate request k = some code →
      Creates request k code k
  | created {p : Fin 16} {d : Fin 32} {paging : PagingState} {r : ReadResult} :
      ReadsExecutable request k p d paging r → r.code = 0 → Creates request k .success
        (((k.loading request p d paging r.fs).started p).useDirectory k.paging.cr3)
  | failed {p i : Fin 16} {d d' : Fin 32} {paging : PagingState} {r : ReadResult} :
      ReadsExecutable request k p d paging r → r.code ≠ 0 →
      findProcess k.nextPid (k.loading request p d paging r.fs) = some i →
      ((k.loading request p d paging r.fs).processList i).context.pageDirectory = .list d' →
      Creates request k .failFsReadFailure
        (((k.loading request p d paging r.fs).destroyed i d').useDirectory k.paging.cr3)

section Create
variable {k k' : Kernel} {request : DriverRequest} {s s' : PagingState} {p i : Fin 16} {d : Fin 32}
  {paging : PagingState} {r : ReadResult} {code : ProcessCreateCode} {pageDir : PageDirectoryPtr}

theorem pagingUsePageDirectory_eq_ok :
    pagingUsePageDirectory pageDir s = .ok s' ↔ pageDir ≠ .null ∧
        s' = { s with cr3 := pageDir } := by
  unfold pagingUsePageDirectory
  split
  · next h => exact iff_of_false (fun h => nomatch h) fun h' => h'.1 h
  · next h =>
    rw [Except.ok.injEq]
    exact ⟨fun h' => ⟨h, h'.symm⟩, fun h' => h'.2.symm⟩

/-- The page directory that the pages were allocated in is one of the list. -/
theorem allocateProcessPages_spec (h : allocateProcessPages request s = .ok (pageDir, s')) :
    pageDir = .null ∨ ∃ d, pageDir = .list d ∧ MapsPages request d s s' := by
  unfold allocateProcessPages at h
  rcases pagingCreateNewPageDirectory_spec (s := s) with hcreate | ⟨d, hunused, hcreate⟩
  · rw [hcreate] at h
    obtain ⟨s₁, -, h⟩ := bind_eq_ok.1 h
    obtain ⟨⟨b, s₂⟩, -, h⟩ := bind_eq_ok.1 h
    cases h
    exact .inl rfl
  · rw [hcreate] at h
    obtain ⟨s₁, hcode, h⟩ := bind_eq_ok.1 h
    obtain ⟨⟨b, s₂⟩, hstack, h⟩ := bind_eq_ok.1 h
    cases h
    exact .inr ⟨d, rfl, hunused, s₁, hcode, pagingAllocateUserPageFrame_spec hstack⟩

/-- What an allocation makes of the property with one more page to go holds after the pages of the
executable. -/
theorem allocateCodePages_invariant {I : Nat → PagingState → Prop} {buf : UInt32} {n i : Nat}
    (hstep : ∀ n j s s', I (n + 1) s → Allocates d j s s' → I n s')
    (h : allocateCodePages (.list d) buf n i s = .ok s') (hs : I (n + 1) s) : I 1 s' := by
  induction n generalizing i s with
  | zero =>
    cases h
    exact hs
  | succ n ih =>
    obtain ⟨⟨b, s₁⟩, hpage, h⟩ := bind_eq_ok.1 h
    exact ih h (hstep _ _ _ _ hs (pagingAllocateUserPageFrame_spec hpage))

/-- The number of pages that a creation tries to allocate, one of them for the stack. -/
def pageAttempts (request : DriverRequest) : Nat := (pageFrameCountNeeded request - 1).toNat + 1

/-- The rule for the pages of a new process: every allocation has one page less to go. -/
theorem MapsPages.invariant {I : Nat → PagingState → Prop}
    (hstep : ∀ n j s s', I (n + 1) s → Allocates d j s s' → I n s')
    (h : MapsPages request d s s') (hs : I (pageAttempts request) (s.create d)) : I 0 s' := by
  obtain ⟨s₁, hcode, hstack⟩ := h.pages
  exact hstep _ _ _ _ (allocateCodePages_invariant hstep hcode hs) hstack

theorem MapsPages.onlyDirectory (h : MapsPages request d s s') : OnlyDirectory d (s.create d) s' :=
  h.invariant (I := fun _ => OnlyDirectory d (s.create d))
    (fun _ _ _ _ hs halloc => hs.trans halloc.onlyDirectory) .refl

theorem MapsPages.cr3 (h : MapsPages request d s s') : s'.cr3 = s.cr3 := h.onlyDirectory.cr3

/-- The page directory of the new process is in use afterwards, and no other one that was not. -/
theorem MapsPages.used (h : MapsPages request d s s') (d' : Fin 32) :
    s'.pageDirectoryUsed d' = if d' = d then true else s.pageDirectoryUsed d' := by
  rw [h.onlyDirectory.used]
  exact Function.update_apply ..

/-! ## The new process -/

theorem inactive_state (h : processListGetInactiveIndex k = some p) : k.state p = .terminated := by
  simpa using (findFrom_eq_some.1 h).2.1

theorem loading_processList {fs : FileSystem} : (k.loading request p d paging fs).processList i =
    if i = p then (k.processList p).fill k.nextPid request (.list d) else k.processList i :=
  Function.update_apply ..

theorem loading_state {fs : FileSystem} : (k.loading request p d paging fs).state i =
    if i = p then .new else k.state i := by
  rw [Kernel.state, loading_processList]
  split <;> rfl

theorem started_processList : (k.started p).processList i =
    if i = p then (k.processList p).start else k.processList i :=
  Function.update_apply ..

theorem started_state : (k.started p).state i = k.state i := by
  rw [Kernel.state, started_processList]
  split
  · next h => rw [h]; rfl
  · rfl

theorem started_pageDirectory : ((k.started p).processList i).context.pageDirectory =
    (k.processList i).context.pageDirectory := by
  rw [started_processList]
  split
  · next h => rw [h]; rfl
  · rfl

theorem started_memory : ((k.started p).processList i).memory = (k.processList i).memory := by
  rw [started_processList]
  split
  · next h => rw [h]; rfl
  · rfl

theorem checkCreate_eq_none : checkCreate request k = none ↔
    k.activeProcessCount < processCountMax ∧ request.buf < kernelVirtualAddressBase ∧
      pageFrameCountNeeded request ≤ k.paging.freePageFrameCount ∧
      pageFrameCountNeeded request ≤ 8 := by
  unfold checkCreate
  split
  · next hmax => exact iff_of_false (fun h => nomatch h) fun h => by omega
  · next hmax =>
    split
    · next hbuf => exact iff_of_false (fun h => nomatch h) fun h => UInt32.not_lt.2 hbuf h.2.1
    · next hbuf =>
      split
      · next hpages =>
        refine iff_of_false (fun h => nomatch h) fun h => ?_
        rw [Bool.or_eq_true, decide_eq_true_eq] at hpages
        rcases hpages with hpages | hpages
        · rw [pagingAllocateCheck, decide_eq_true h.2.2.1] at hpages
          cases hpages
        · exact UInt32.not_lt.2 h.2.2.2 hpages
      · next hpages =>
        rw [Bool.or_eq_true, not_or, decide_eq_true_eq] at hpages
        refine iff_of_true rfl ⟨by omega, UInt32.not_le.1 hbuf, ?_, UInt32.not_lt.1 hpages.2⟩
        simpa [pagingAllocateCheck] using hpages.1

theorem Consistent.useDirectory (h : Consistent k) : Consistent (k.useDirectory pageDir) :=
  ⟨h.directory, h.distinct, h.pages⟩

theorem Consistent.started (h : Consistent k) : Consistent (k.started p) where
  directory j hj := by
    rw [started_state] at hj
    rw [started_pageDirectory]
    exact h.directory j hj
  distinct j j' hj hj' heq := by
    rw [started_state] at hj hj'
    rw [started_pageDirectory, started_pageDirectory] at heq
    exact h.distinct j j' hj hj' heq
  pages j := by
    rw [started_memory]
    exact h.pages j

/-- A page directory that is not in use is not that of a process. -/
theorem Consistent.directory_ne (h : Consistent k) (hunused : k.paging.pageDirectoryUsed d = false)
    (hi : k.state i ≠ .terminated) : (k.processList i).context.pageDirectory ≠ .list d := by
  obtain ⟨d', hd', hused⟩ := h.directory i hi
  rw [hd']
  rintro ⟨⟩
  rw [hunused] at hused
  cases hused

/-- The page directory of the new process was unused, so it is no other process's. -/
theorem Consistent.loading (h : Consistent k) (hr : ReadsExecutable request k p d paging r) :
    Consistent (k.loading request p d paging r.fs) where
  directory j hj := by
    rw [loading_state] at hj
    rw [loading_processList]
    show ∃ d', _ ∧ paging.pageDirectoryUsed d' = true
    split
    · exact ⟨d, rfl, by rw [hr.mapped.used, if_pos rfl]⟩
    · next hne =>
      rw [if_neg hne] at hj
      obtain ⟨d', hd', hused⟩ := h.directory j hj
      refine ⟨d', hd', ?_⟩
      rw [hr.mapped.used, hused, ite_self]
  distinct j j' hj hj' heq := by
    rw [loading_state] at hj hj'
    rw [loading_processList, loading_processList] at heq
    split at hj <;> split at hj' <;> simp only [*, if_true, if_false] at heq ⊢
    · exact absurd heq.symm (h.directory_ne hr.mapped.unused hj')
    · exact absurd heq (h.directory_ne hr.mapped.unused hj)
    · exact h.distinct j j' hj hj' heq
  pages j := by
    rw [loading_processList]
    split
    · exact (checkCreate_eq_none.1 hr.checked).2.2.2
    · exact h.pages j

/-- The search for the next pid finds the new process, or an earlier one that has the same pid. -/
theorem findProcess_loading (k : Kernel) (request : DriverRequest) (p : Fin 16) (d : Fin 32)
    (paging : PagingState) (fs : FileSystem) : ∃ i,
    findProcess k.nextPid (k.loading request p d paging fs) = some i ∧
      (i = p ∨ i < p ∧ findProcess k.nextPid k = some i) := by
  have hp : ((k.loading request p d paging fs).processList p).metadata.pid == k.nextPid &&
      ((k.loading request p d paging fs).processList p).live := by
    rw [loading_processList, if_pos rfl]
    exact Bool.and_eq_true_iff.2 ⟨beq_self_eq_true _, rfl⟩
  obtain ⟨i, hi⟩ : ∃ i, findProcess k.nextPid (k.loading request p d paging fs) = some i :=
    findFrom_isSome (Nat.zero_le p.val) hp
  obtain ⟨-, hpi, hbefore⟩ := findFrom_eq_some.1 hi
  refine ⟨i, hi, ?_⟩
  rcases lt_trichotomy i p with hlt | heq | hgt
  · refine .inr ⟨hlt, findFrom_eq_some.2 ⟨Nat.zero_le _, ?_, fun j hj hlo => ?_⟩⟩
    · rwa [loading_processList, if_neg hlt.ne] at hpi
    · have hj' := hbefore j hj hlo
      rwa [loading_processList, if_neg (hj.trans hlt).ne] at hj'
  · exact .inl heq
  · rw [hbefore p hgt (Nat.zero_le _)] at hp
    cases hp

theorem not_readFails (hread : read request k.fs = .ok r) (hcode : r.code = 0) :
    ¬ ReadFails request k := by
  rintro ⟨r', hread', hcode'⟩
  rw [hread, Except.ok.injEq] at hread'
  exact hcode' (hread' ▸ hcode)

theorem ReadsExecutable.not_undone (hr : ReadsExecutable request k p d paging r)
    (hcode : r.code = 0) : ¬ Undone request k :=
  fun hu => not_readFails hr.read hcode hu.1

/-- The process that an undone creation destroys is the one it has made. -/
theorem ReadsExecutable.destroys_new {d' : Fin 32} (hr : ReadsExecutable request k p d paging r)
    (hu : Undone request k)
    (hfind : findProcess k.nextPid (k.loading request p d paging r.fs) = some i)
    (hdir : ((k.loading request p d paging r.fs).processList i).context.pageDirectory = .list d') :
    i = p ∧ d' = d := by
  obtain ⟨i', hi', hip⟩ := findProcess_loading k request p d paging r.fs
  obtain rfl : i = i' := Option.some.inj (hfind.symm.trans hi')
  obtain rfl : i = p := hip.resolve_right fun h => absurd (hu.2 p i hr.slot h.2) (not_lt.2 h.1.le)
  rw [loading_processList, if_pos rfl] at hdir
  exact ⟨rfl, PageDirectoryPtr.list.inj hdir.symm⟩

/-- A creation that passes the checks allocates pages and reads the executable, and goes on by the
result. -/
theorem processCreateUserProcess_reads (hcheck : checkCreate request k = none)
    (hrun : processCreateUserProcess request k = .ok (code, k')) : ∃ p d paging r,
    ReadsExecutable request k p d paging r ∧
      allocateProcessPages request k.paging = .ok (.list d, paging) ∧
      (r.code = 0 → code = .success ∧
        k' = ((k.loading request p d paging r.fs).started p).useDirectory k.paging.cr3) ∧
      (r.code ≠ 0 → code = .failFsReadFailure ∧ ∃ b k₂,
        processDestroy k.nextPid (k.loading request p d paging r.fs) = .ok (b, k₂) ∧
          k' = k₂.useDirectory k.paging.cr3) := by
  unfold processCreateUserProcess at hrun
  rw [hcheck] at hrun
  obtain ⟨⟨pageDir, paging⟩, halloc, hrun⟩ := bind_eq_ok.1 hrun
  dsimp only at hrun
  unfold createInSlot at hrun
  split at hrun
  · cases hrun
  next p hslot =>
  dsimp only at hrun
  obtain ⟨paging₁, huse, hrun⟩ := bind_eq_ok.1 hrun
  obtain ⟨r, hread, hrun⟩ := bind_eq_ok.1 hrun
  rw [pagingUsePageDirectory_eq_ok] at huse
  obtain ⟨hnull, rfl⟩ := huse
  rcases allocateProcessPages_spec halloc with hnull' | ⟨d, rfl, hmaps⟩
  · exact absurd hnull' hnull
  refine ⟨p, d, paging, r, ⟨hcheck, hslot, hmaps, hread⟩, halloc, fun hcode => ?_, fun hcode => ?_⟩
  · rw [if_neg (not_not.2 hcode)] at hrun
    obtain ⟨paging₂, huse₂, hrun⟩ := bind_eq_ok.1 hrun
    rw [pagingUsePageDirectory_eq_ok] at huse₂
    cases hrun
    rw [huse₂.2, hmaps.cr3]
    exact ⟨rfl, rfl⟩
  · rw [if_pos hcode] at hrun
    obtain ⟨⟨b, k₂⟩, hdestroy, hrun⟩ := bind_eq_ok.1 hrun
    obtain ⟨paging₂, huse₂, hrun⟩ := bind_eq_ok.1 hrun
    rw [pagingUsePageDirectory_eq_ok] at huse₂
    cases hrun
    rw [huse₂.2, hmaps.cr3]
    exact ⟨rfl, b, k₂, hdestroy, rfl⟩

theorem Consistent.processCreateUserProcess_spec (h : Consistent k)
    (hrun : processCreateUserProcess request k = .ok (code, k')) : Creates request k code k' := by
  cases hcheck : checkCreate request k with
  | some code' =>
    unfold processCreateUserProcess at hrun
    rw [hcheck] at hrun
    cases hrun
    exact .refused hcheck
  | none =>
    obtain ⟨p, d, paging, r, hr, -, hsuccess, hfailure⟩ :=
      processCreateUserProcess_reads hcheck hrun
    by_cases hcode : r.code = 0
    · obtain ⟨rfl, rfl⟩ := hsuccess hcode
      exact .created hr hcode
    · obtain ⟨rfl, b, k₂, hdestroy, rfl⟩ := hfailure hcode
      cases (h.loading hr).processDestroy hdestroy with
      | missing hnone =>
        obtain ⟨i, hi, -⟩ := findProcess_loading k request p d paging r.fs
        exact absurd (hi.symm.trans hnone) (fun h => nomatch h)
      | destroyed hfind _ hdir _ => exact .failed hr hcode hfind hdir

/-! ### Progress -/

/-- How a creation goes on once the executable was read. -/
theorem processCreateUserProcess_loaded (hcheck : checkCreate request k = none)
    (halloc : allocateProcessPages request k.paging = .ok (.list d, paging))
    (hslot : processListGetInactiveIndex k = some p) (hread : read request k.fs = .ok r)
    (hcr3 : k.paging.cr3 ≠ .null) : processCreateUserProcess request k =
      if r.code ≠ 0 then do
        let (_, k') ← processDestroy k.nextPid (k.loading request p d paging r.fs)
        return (.failFsReadFailure, k'.useDirectory k.paging.cr3)
      else .ok (.success,
        ((k.loading request p d paging r.fs).started p).useDirectory k.paging.cr3) := by
  have hcr3' : paging.cr3 = k.paging.cr3 := by
    rcases allocateProcessPages_spec halloc with hnull | ⟨d', _, hmaps⟩
    · cases hnull
    · exact hmaps.cr3
  have hslot' : processListGetInactiveIndex { k with paging := paging } = some p := hslot
  have huse : ∀ s : PagingState, pagingUsePageDirectory k.paging.cr3 s =
      .ok { s with cr3 := k.paging.cr3 } := fun s => pagingUsePageDirectory_eq_ok.2 ⟨hcr3, rfl⟩
  have hload : pagingUsePageDirectory (.list d) paging = .ok { paging with cr3 := .list d } := rfl
  unfold processCreateUserProcess
  rw [hcheck]
  dsimp only
  rw [halloc, ok_bind]
  dsimp only
  unfold createInSlot
  rw [hslot']
  dsimp only
  rw [hload, ok_bind, hread, ok_bind, hcr3']
  simp only [huse, ok_bind]
  rfl

/-- A creation goes on to the end when the executable can be read. -/
theorem processCreateUserProcess_created (hcheck : checkCreate request k = none)
    (halloc : allocateProcessPages request k.paging = .ok (.list d, paging))
    (hslot : processListGetInactiveIndex k = some p) (hread : read request k.fs = .ok r)
    (hcr3 : k.paging.cr3 ≠ .null) (hcode : r.code = 0) :
    processCreateUserProcess request k = .ok (.success,
      ((k.loading request p d paging r.fs).started p).useDirectory k.paging.cr3) := by
  rw [processCreateUserProcess_loaded hcheck halloc hslot hread hcr3, if_neg (not_not.2 hcode)]

/-- When it cannot be read, the new process is destroyed if no earlier one has its pid. -/
theorem processCreateUserProcess_failed (hcheck : checkCreate request k = none)
    (halloc : allocateProcessPages request k.paging = .ok (.list d, paging))
    (hslot : processListGetInactiveIndex k = some p) (hread : read request k.fs = .ok r)
    (hcr3 : k.paging.cr3 ≠ .null) (hcode : r.code ≠ 0)
    (hpid : ∀ i, findProcess k.nextPid k = some i → p < i) :
    processCreateUserProcess request k = .ok (.failFsReadFailure,
      ((k.loading request p d paging r.fs).destroyed p d).useDirectory k.paging.cr3) := by
  have hnew : (k.loading request p d paging r.fs).processList p =
      (k.processList p).fill k.nextPid request (.list d) := by
    rw [loading_processList, if_pos rfl]
  have hdestroy : destroySlot p (k.loading request p d paging r.fs) =
      .ok (true, (k.loading request p d paging r.fs).destroyed p d) := by
    refine destroySlot_list ?_ ?_
    · rw [hnew]
      rfl
    · rw [hnew]
      exact (checkCreate_eq_none.1 hcheck).2.2.2
  obtain ⟨i, hfind, hi⟩ := findProcess_loading k request p d paging r.fs
  obtain rfl : i = p := hi.resolve_right fun h => absurd (hpid i h.2) (not_lt.2 h.1.le)
  rw [processCreateUserProcess_loaded hcheck halloc hslot hread hcr3, if_pos hcode, processDestroy,
    hfind]
  dsimp only
  rw [hdestroy]
  rfl

/-- The kernel while a creation that needs one page, on frame `m`, reads the executable. -/
def Kernel.loadingOne (k : Kernel) (request : DriverRequest) (p : Fin 16) (d m : Fin 32)
    (fs : FileSystem) : Kernel :=
  k.loading request p d
    (((k.paging.create d).mark m).assign d (pageIndex userStackAddr) (frameNumber m)) fs

/-- What a creation that needs one page finds: a slot, a page directory and a frame. -/
structure FindsOne (request : DriverRequest) (k : Kernel) (p : Fin 16) (d m : Fin 32) : Prop where
  checked : checkCreate request k = none
  one : pageFrameCountNeeded request = 1
  slot : processListGetInactiveIndex k = some p
  directory : findFrom 0 (fun d => !k.paging.pageDirectoryUsed d) = some d
  frame : findFrom 0 (fun i => !k.paging.pageFrameMap i) = some m
  cr3 : k.paging.cr3 = .kernel

/-- A process of one page gets the first free frame. -/
theorem allocateProcessPages_one {s : PagingState} {m : Fin 32}
    (hone : pageFrameCountNeeded request = 1)
    (hdir : findFrom 0 (fun d => !s.pageDirectoryUsed d) = some d)
    (hframe : findFrom 0 (fun i => !s.pageFrameMap i) = some m)
    (hcount : s.freePageFrameCount ≠ 0) :
    allocateProcessPages request s = .ok (.list d,
      ((s.create d).mark m).assign d (pageIndex userStackAddr) (frameNumber m)) := by
  have hcreate : pagingCreateNewPageDirectory s = (.list d, s.create d) := by
    unfold pagingCreateNewPageDirectory
    rw [hdir]
    rfl
  obtain ⟨-, hfree, hfirst⟩ := findFrom_eq_some.1 hframe
  have hfree' : (s.create d).pageFrameMap m = false := by
    rwa [Bool.not_eq_true'] at hfree
  have hfirst' : ∀ i < m, (s.create d).pageFrameMap i = true := by
    intro i hi
    have := hfirst i hi (Nat.zero_le _)
    rwa [Bool.not_eq_false'] at this
  unfold allocateProcessPages
  rw [hcreate]
  dsimp only
  rw [hone, show (1 - 1 : UInt32).toNat = 0 from rfl, allocateCodePages, ok_bind,
    pagingAllocateUserPageFrame_frame (s := s.create d) hcount hfree' hfirst']
  rfl

theorem FindsOne.allocates {m : Fin 32} (h : FindsOne request k p d m) :
    allocateProcessPages request k.paging = .ok (.list d,
      ((k.paging.create d).mark m).assign d (pageIndex userStackAddr) (frameNumber m)) := by
  refine allocateProcessPages_one h.one h.directory h.frame fun heq => ?_
  have := (checkCreate_eq_none.1 h.checked).2.2.1
  rw [heq, h.one] at this
  exact absurd this (by decide)

theorem FindsOne.created {m : Fin 32} (h : FindsOne request k p d m)
    (hread : read request k.fs = .ok r) (hcode : r.code = 0) :
    processCreateUserProcess request k = .ok (.success,
      ((k.loadingOne request p d m r.fs).started p).useDirectory .kernel) := by
  have hcr3 : k.paging.cr3 ≠ .null := by
    rw [h.cr3]
    exact fun h => nomatch h
  rw [processCreateUserProcess_created h.checked h.allocates h.slot hread hcr3 hcode, h.cr3]
  rfl

theorem FindsOne.failed {m : Fin 32} (h : FindsOne request k p d m)
    (hread : read request k.fs = .ok r) (hcode : r.code ≠ 0)
    (hpid : findProcess k.nextPid k = none) : processCreateUserProcess request k =
      .ok (.failFsReadFailure, ((k.loadingOne request p d m r.fs).destroyed p d).useDirectory
          .kernel) := by
  have hcr3 : k.paging.cr3 ≠ .null := by
    rw [h.cr3]
    exact fun h => nomatch h
  rw [processCreateUserProcess_failed h.checked h.allocates h.slot hread hcr3 hcode
    (fun i hi => nomatch hpid.symm.trans hi), h.cr3]
  rfl

theorem Consistent.creates (h : Consistent k) (hc : Creates request k code k') : Consistent k' := by
  cases hc with
  | refused => exact h
  | created hr => exact (h.loading hr).started.useDirectory
  | failed hr _ hfind hdir =>
    exact ((h.loading hr).destroyed (findProcess_live hfind).2 hdir).useDirectory

end Create

/-! ## Calls -/

/-- A system call completes. -/
def CallStep (c : ProcessCall) (k k' : Kernel) : Prop := c.run k = .ok k'

/-- What a system call can do. -/
inductive Calls (k : Kernel) : ProcessCall → Kernel → Prop
  | create {request : DriverRequest} {code : ProcessCreateCode} {k' : Kernel} :
      Creates request k code k' → Calls k (.create request) k'
  | destroy {pid : UInt32} {b : Bool} {k' : Kernel} :
      Destroys pid k b k' → Calls k (.destroy pid) k'

section Call
variable {k k' : Kernel} {c : ProcessCall}

theorem callStep_create {request : DriverRequest} {code : ProcessCreateCode}
    (h : processCreateUserProcess request k = .ok (code, k')) : CallStep (.create request) k k' :=
  bind_eq_ok.2 ⟨_, h, rfl⟩

theorem Consistent.callStep (h : Consistent k) (hstep : CallStep c k k') : Calls k c k' := by
  cases c with
  | create request =>
    obtain ⟨⟨code, k₁⟩, hrun, hstep⟩ := bind_eq_ok.1 hstep
    cases hstep
    exact .create (h.processCreateUserProcess_spec hrun)
  | destroy pid =>
    obtain ⟨⟨b, k₁⟩, hrun, hstep⟩ := bind_eq_ok.1 hstep
    cases hstep
    exact .destroy (h.processDestroy hrun)

/-- System calls keep the kernel consistent. -/
theorem Consistent.calls (h : Consistent k) (hc : Calls k c k') : Consistent k' := by
  cases hc with
  | create hc => exact h.creates hc
  | destroy hd =>
    cases hd with
    | missing => exact h
    | destroyed _ hlive hdir _ => exact h.destroyed hlive hdir

end Call

/-! ### Two processes -/

/-- A new kernel after the creation of a process of one page. -/
def oneCreated (fs : FileSystem) (r : ReadResult) : Kernel :=
  (((Kernel.initial fs).loadingOne (sampleRequest 'A' 2 0) 0 0 1 r.fs).started 0).useDirectory
    .kernel

/-- The kernel after a second one. -/
def twoCreated (fs : FileSystem) (r : ReadResult) : Kernel :=
  (((oneCreated fs r).loadingOne (sampleRequest 'A' 2 0) 1 1 2 r.fs).started 1).useDirectory .kernel

theorem oneCreated_freePageFrameCount (fs : FileSystem) (r : ReadResult) :
    (oneCreated fs r).paging.freePageFrameCount = 30 := by
  show (31 - 1 : UInt32) = 30
  rfl

theorem twoCreated_state (fs : FileSystem) (r : ReadResult) (i : Fin 16) :
    (twoCreated fs r).state i = if i = 1 then .new else if i = 0 then .new else .terminated := by
  show (((oneCreated fs r).loadingOne (sampleRequest 'A' 2 0) 1 1 2 r.fs).started 1).state i = _
  rw [started_state, Kernel.loadingOne, loading_state]
  show (if i = 1 then .new else (((Kernel.initial fs).loadingOne (sampleRequest 'A' 2 0) 0 0 1
    r.fs).started 0).state i) = _
  rw [started_state, Kernel.loadingOne, loading_state]
  rfl

/-- Two processes are created on a disk with their executable. -/
theorem exists_twoCreated : ∃ fs r, r.code = 0 ∧ read (sampleRequest 'A' 2 0) fs = .ok r ∧
    read (sampleRequest 'A' 2 0) (oneCreated fs r).fs = .ok r ∧
    CallStep (.create (sampleRequest 'A' 2 0)) (.initial fs) (oneCreated fs r) ∧
    CallStep (.create (sampleRequest 'A' 2 0)) (oneCreated fs r) (twoCreated fs r) := by
  obtain ⟨fs, -, ⟨r, hread, hcode⟩, -⟩ := exists_executable
  have h₁ : FindsOne (sampleRequest 'A' 2 0) (.initial fs) 0 0 1 := ⟨rfl, rfl, rfl, rfl, rfl, rfl⟩
  have h₂ : FindsOne (sampleRequest 'A' 2 0) (oneCreated fs r) 1 1 2 :=
    ⟨checkCreate_eq_none.2 ⟨(by decide : (1 : Int) < 16), by decide,
      by rw [oneCreated_freePageFrameCount]; decide, by decide⟩, rfl, rfl, rfl, rfl, rfl⟩
  have hread₁ : read (sampleRequest 'A' 2 0) (oneCreated fs r).fs = .ok r :=
    (read_read hread).trans hread
  exact ⟨fs, r, hcode, hread, hread₁, callStep_create (h₁.created hread hcode),
    callStep_create (h₂.created hread₁ hcode)⟩

end OsKernel
