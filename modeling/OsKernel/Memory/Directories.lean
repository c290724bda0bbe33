import OsKernel.Lib.Run
import OsKernel.Memory.Frames

/-!
# Page directories that are used again

`paging_create_new_page_directory` hands out a page directory of the list that is not in use, with
the entries its last owner has left in it but for their present bits. A ledger keeps who owns which
page directory and which pages were mapped in it since (`DirectoryLedger`). The code's own marks
agree with the ledger, and an entry that is present is one of the kernel's or one that the present
owner has mapped (`directories_run`).
-/

namespace OsKernel

open Lib

/-! ## The entries of the kernel -/

/-- The pages of the kernel, which every page directory maps. -/
def kernelPages : List (Fin 1024) := [0x300, 0x301, 0x3F4, 0x3F5, 0x3F6]

section Entries
variable {dir dir' : PageDirectory} {j : Fin 1024} {d : Fin 32} {s s' : PagingState}

theorem kernelPages_le (h : j ∈ kernelPages) : 0x300 ≤ j.val := by
  simp only [kernelPages, List.mem_cons, List.not_mem_nil, or_false] at h
  rcases h with rfl | rfl | rfl | rfl | rfl <;> simp

/-- What the entry of a kernel page was before does not matter. -/
theorem kernelEntries_of_mem (h : j ∈ kernelPages) :
    PagingState.kernelEntries dir j = PagingState.kernelEntries dir' j := by
  simp only [kernelPages, List.mem_cons, List.not_mem_nil, or_false] at h
  simp only [PagingState.kernelEntries, Function.update_apply]
  rcases h with rfl | rfl | rfl | rfl | rfl <;> simp

theorem kernelEntries_of_notMem (h : j ∉ kernelPages) :
    PagingState.kernelEntries dir j = dir j := by
  simp only [kernelPages, List.mem_cons, List.not_mem_nil, or_false, not_or] at h
  simp only [PagingState.kernelEntries, Function.update_apply, h, if_false]

theorem kernelEntries_flag (h : j ∈ kernelPages) :
    (PagingState.kernelEntries dir j).flag = .supervisor := by
  simp only [kernelPages, List.mem_cons, List.not_mem_nil, or_false] at h
  simp only [PagingState.kernelEntries, Function.update_apply]
  rcases h with rfl | rfl | rfl | rfl | rfl <;> simp

/-- The kernel's own page directory has these entries, too. -/
theorem kernelEntries_eq_kernel (h : j ∈ kernelPages) :
    PagingState.kernelEntries dir j = PagingState.initial.kernelPageDirectory j :=
  kernelEntries_of_mem h

/-- The present entries of a new page directory are those of the kernel. -/
theorem create_present : ((s.create d).pageDirectoryList d j).flag.presentBit = true ↔
    j ∈ kernelPages := by
  have hdir : (s.create d).pageDirectoryList d =
      PagingState.kernelEntries (clearPresent (s.pageDirectoryList d)) := Function.update_self ..
  rw [hdir]
  by_cases hj : j ∈ kernelPages
  · simp [hj, kernelEntries_flag hj, PageDirectoryEntryFlag.supervisor]
  · simp [hj, kernelEntries_of_notMem hj, clearPresent]

end Entries

/-! ## Owners -/

/-- The page directories that are owned, and the pages that were mapped in each since. -/
structure DirectoryLedger where
  inUse : Set (Fin 32)
  mapped : Fin 32 → Set (Fin 1024)

namespace DirectoryLedger

/-- Nothing is owned. -/
def empty : DirectoryLedger := ⟨∅, fun _ => ∅⟩

/-- Somebody takes a page directory. -/
def take (l : DirectoryLedger) (d : Fin 32) : DirectoryLedger :=
  ⟨insert d l.inUse, fun d' => if d' = d then ∅ else l.mapped d'⟩

/-- The page directory behind a pointer is given back. -/
def giveBack (l : DirectoryLedger) (pageDir : PageDirectoryPtr) : DirectoryLedger :=
  ⟨Set.ofPred fun d => d ∈ l.inUse ∧ pageDir ≠ .list d, l.mapped⟩

/-- The owner of a page directory maps a page. -/
def map (l : DirectoryLedger) (d : Fin 32) (j : Fin 1024) : DirectoryLedger :=
  ⟨l.inUse, fun d' => if d' = d then insert j (l.mapped d') else l.mapped d'⟩

end DirectoryLedger

/-- A call of one of the functions on page directories. -/
inductive DirectoryCall
  | create
  | free (pageDir : PageDirectoryPtr)
  | map (d : Fin 32) (physicalAddr virtualAddr : UInt32) (flag : PageDirectoryEntryFlag)

/-- A call completes, beside the ledger. A page is mapped in a page directory that is owned. -/
inductive DirectoryStep :
    DirectoryCall → PagingState × DirectoryLedger → PagingState × DirectoryLedger → Prop
  | created {s s' : PagingState} {l : DirectoryLedger} {d : Fin 32} :
      pagingCreateNewPageDirectory s = (.list d, s') →
      DirectoryStep .create (s, l) (s', l.take d)
  | none {s s' : PagingState} {l : DirectoryLedger} :
      pagingCreateNewPageDirectory s = (.null, s') → DirectoryStep .create (s, l) (s', l)
  | freed {s s' : PagingState} {l : DirectoryLedger} {pageDir : PageDirectoryPtr} {b : Bool} :
      pagingFreePageDirectory pageDir s = (b, s') →
      DirectoryStep (.free pageDir) (s, l) (s', l.giveBack pageDir)
  | mapped {s s' : PagingState} {l : DirectoryLedger} {d : Fin 32}
      {physicalAddr virtualAddr : UInt32} {flag : PageDirectoryEntryFlag} : d ∈ l.inUse →
      updatePageDirectoryEntry (.list d) physicalAddr virtualAddr flag s = .ok s' →
      DirectoryStep (.map d physicalAddr virtualAddr flag) (s, l)
        (s', l.map d (pageIndex virtualAddr))

/-- The marks of the code agree with the ledger, and what is present in a page directory that is
owned is an entry of the kernel's own one or was mapped by the owner. -/
structure Agrees (s : PagingState) (l : DirectoryLedger) : Prop where
  kernel : s.kernelPageDirectory = PagingState.initial.kernelPageDirectory
  used : ∀ d, s.pageDirectoryUsed d = true ↔ d ∈ l.inUse
  present : ∀ d ∈ l.inUse, ∀ j, (s.pageDirectoryList d j).flag.presentBit = true →
    j ∈ l.mapped d ∨ j ∈ kernelPages ∧ s.pageDirectoryList d j = s.kernelPageDirectory j

/-! ## Histories -/

section Steps
variable {s s' : PagingState} {l l' : DirectoryLedger} {d : Fin 32} {a : DirectoryCall}
  {physicalAddr virtualAddr : UInt32} {flag : PageDirectoryEntryFlag} {pageDir : PageDirectoryPtr}

theorem create_eq_list (h : pagingCreateNewPageDirectory s = (.list d, s')) :
    s.pageDirectoryUsed d = false ∧ s' = s.create d := by
  rcases pagingCreateNewPageDirectory_spec (s := s) with hnull | ⟨i, hunused, hcreate⟩
  · cases hnull.symm.trans h
  · cases hcreate.symm.trans h
    exact ⟨hunused, rfl⟩

theorem create_eq_null (h : pagingCreateNewPageDirectory s = (.null, s')) : s' = s := by
  rcases pagingCreateNewPageDirectory_spec (s := s) with hnull | ⟨i, -, hcreate⟩
  · cases hnull.symm.trans h
    rfl
  · cases hcreate.symm.trans h

theorem Agrees.created (h : Agrees s l) : Agrees (s.create d) (l.take d) where
  kernel := h.kernel
  used d' := by
    show Function.update s.pageDirectoryUsed d true d' = true ↔ d' ∈ insert d l.inUse
    rw [Function.update_apply, Set.mem_insert_iff]
    split
    · next hd => simp [hd]
    · next hd => simp [hd, h.used d']
  present d' hd' j hj := by
    by_cases hd : d' = d
    · subst hd
      have hk : j ∈ kernelPages := create_present.1 hj
      refine .inr ⟨hk, ?_⟩
      show (s.create d').pageDirectoryList d' j = s.kernelPageDirectory j
      rw [h.kernel, ← kernelEntries_eq_kernel hk]
      exact congrFun (Function.update_self ..) j
    · have hsame : (s.create d).pageDirectoryList d' = s.pageDirectoryList d' :=
        Function.update_of_ne hd ..
      rw [hsame] at hj ⊢
      have hin : d' ∈ l.inUse := Or.resolve_left (Set.mem_insert_iff.1 hd') hd
      have hmapped : (l.take d).mapped d' = l.mapped d' := if_neg hd
      rw [hmapped]
      exact h.present d' hin j hj

theorem Agrees.freed {b : Bool} (h : Agrees s l)
    (hfree : pagingFreePageDirectory pageDir s = (b, s')) :
    Agrees s' (l.giveBack pageDir) := by
  unfold pagingFreePageDirectory at hfree
  split at hfree
  · next i =>
    obtain ⟨-, rfl⟩ := Prod.mk.inj hfree
    refine ⟨h.kernel, fun d' => ?_, fun d' hd' j hj => ?_⟩
    · show Function.update s.pageDirectoryUsed i false d' = true ↔
        d' ∈ l.inUse ∧ PageDirectoryPtr.list i ≠ .list d'
      rw [Function.update_apply]
      split
      · next hd => simp [hd]
      · next hd => simp [Ne.symm hd, h.used d']
    · obtain ⟨hin, hne⟩ := hd'
      have hd : d' ≠ i := fun heq => hne (by rw [heq])
      have hsame : Function.update s.pageDirectoryList i (clearPresent (s.pageDirectoryList i)) d' =
          s.pageDirectoryList d' := Function.update_of_ne hd ..
      change (Function.update s.pageDirectoryList i _ d' j).flag.presentBit = true at hj
      rw [hsame] at hj
      show j ∈ l.mapped d' ∨ _ ∧
        Function.update s.pageDirectoryList i _ d' j = s.kernelPageDirectory j
      rw [hsame]
      exact h.present d' hin j hj
  · next hlist =>
    obtain ⟨-, rfl⟩ := Prod.mk.inj hfree
    refine ⟨h.kernel, fun d' => ?_, fun d' hd' => h.present d' hd'.1⟩
    rw [h.used d']
    exact ⟨fun hin => ⟨hin, fun heq => hlist d' heq⟩, fun hin => hin.1⟩

theorem Agrees.mapped (h : Agrees s l)
    (hmap : updatePageDirectoryEntry (.list d) physicalAddr virtualAddr flag s = .ok s') :
    Agrees s' (l.map d (pageIndex virtualAddr)) := by
  obtain rfl := Except.ok.inj hmap
  refine ⟨h.kernel, h.used, fun d' hd' j hj => ?_⟩
  change (Function.update s.pageDirectoryList d _ d' j).flag.presentBit = true at hj
  show j ∈ (if d' = d then insert (pageIndex virtualAddr) (l.mapped d') else l.mapped d') ∨
    _ ∧ Function.update s.pageDirectoryList d _ d' j = s.kernelPageDirectory j
  by_cases hd : d' = d
  · subst hd
    rw [Function.update_self] at hj ⊢
    rw [if_pos rfl]
    by_cases hpage : j = pageIndex virtualAddr
    · exact .inl (.inl hpage)
    · rw [Function.update_of_ne hpage] at hj ⊢
      exact (h.present d' hd' j hj).imp_left .inr
  · rw [Function.update_of_ne hd] at hj ⊢
    rw [if_neg hd]
    exact h.present d' hd' j hj

theorem Agrees.step (h : Agrees s l) (hstep : DirectoryStep a (s, l) (s', l')) : Agrees s' l' := by
  cases hstep with
  | created hcreate =>
    obtain ⟨-, rfl⟩ := create_eq_list hcreate
    exact h.created
  | none hcreate =>
    obtain rfl := create_eq_null hcreate
    exact h
  | freed hfree => exact h.freed hfree
  | mapped _ hmap => exact h.mapped hmap

end Steps

/-- A new page directory for an owner: nobody has it, and it maps the pages of the kernel alone, for
the supervisor and as the page directory of the kernel maps them. -/
structure NewDirectory (s : PagingState) (l : DirectoryLedger) (d : Fin 32) (s' : PagingState) :
    Prop where
  fresh : d ∉ l.inUse
  present : ∀ j, (s'.pageDirectoryList d j).flag.presentBit = true ↔ j ∈ kernelPages
  supervisor : ∀ j ∈ kernelPages, (s'.pageDirectoryList d j).flag.userSupervisorBit = false
  asKernel : ∀ j ∈ kernelPages, s'.pageDirectoryList d j = s'.kernelPageDirectory j
  others : ∀ d' ≠ d, s'.pageDirectoryList d' = s.pageDirectoryList d'

/-- Whatever the list of page directories contains at first, and whatever was created, freed and
mapped since: `paging_create_new_page_directory` hands out a page directory of no owner, which maps
the pages of the kernel alone, and those who own one see nothing but what they have mapped and the
kernel. -/
theorem directories_run {s₀ s : PagingState} {l : DirectoryLedger}
    (hkernel : s₀.kernelPageDirectory = PagingState.initial.kernelPageDirectory)
    (hunused : ∀ d, s₀.pageDirectoryUsed d = false)
    (hrun : Run DirectoryStep (fun _ _ => True) (s₀, .empty) (s, l)) :
    (∀ d s', pagingCreateNewPageDirectory s = (.list d, s') → NewDirectory s l d s') ∧
      ∀ d ∈ l.inUse, ∀ j, (s.pageDirectoryList d j).flag.presentBit = true →
        j ∈ l.mapped d ∨ j ∈ kernelPages ∧ s.pageDirectoryList d j = s.kernelPageDirectory j := by
  have hfirst : Agrees s₀ .empty :=
    ⟨hkernel, fun d => by simp [hunused d, DirectoryLedger.empty], fun d hd => nomatch hd⟩
  have hagrees : Agrees s l := hrun.invariant
    (I := fun x : PagingState × DirectoryLedger => Agrees x.1 x.2)
    (fun _ _ _ h _ hstep => h.step hstep) hfirst
  refine ⟨fun d s' hcreate => ?_, hagrees.present⟩
  obtain ⟨hused, rfl⟩ := create_eq_list hcreate
  have hdir : (s.create d).pageDirectoryList d =
      PagingState.kernelEntries (clearPresent (s.pageDirectoryList d)) := Function.update_self ..
  refine ⟨fun hin => ?_, fun j => create_present, fun j hj => ?_, fun j hj => ?_,
    fun d' hd' => Function.update_of_ne hd' ..⟩
  · rw [(hagrees.used d).2 hin] at hused
    cases hused
  · rw [hdir, kernelEntries_flag hj]
    rfl
  · rw [hdir, kernelEntries_eq_kernel hj, ← hagrees.kernel]
    rfl

/-- A user page of the first owner is not visible to the second one of the same page directory. -/
theorem directories_run_reused :
    let first := PagingState.initial.create 0
    let filled := first.setDir (.list 0) (Function.update (first.pageDirectoryList 0) 5 ⟨.user, 7⟩)
    let freed := (pagingFreePageDirectory (.list 0) filled).2
    (filled.pageDirectoryList 0 5).flag.presentBit = true ∧
      NewDirectory freed (((DirectoryLedger.empty.take 0).map 0 5).giveBack (.list 0)) 0
        (freed.create 0) := by
  intro first filled freed
  have h₁ : DirectoryStep .create (.initial, .empty) (first, DirectoryLedger.empty.take 0) :=
    .created rfl
  have h₂ : DirectoryStep (.map 0 0x1C00000 0x1400000 .user) (first, DirectoryLedger.empty.take 0)
      (filled, (DirectoryLedger.empty.take 0).map 0 5) := .mapped (Set.mem_insert ..) rfl
  have h₃ : DirectoryStep (.free (.list 0)) (filled, (DirectoryLedger.empty.take 0).map 0 5)
      (freed, ((DirectoryLedger.empty.take 0).map 0 5).giveBack (.list 0)) := .freed rfl
  have hrun : Run DirectoryStep (fun _ _ => True) (.initial, .empty) _ :=
    ((Run.single trivial h₁).tail trivial h₂).tail trivial h₃
  exact ⟨rfl, (directories_run rfl (fun _ => rfl) hrun).1 0 _ rfl⟩

end OsKernel
