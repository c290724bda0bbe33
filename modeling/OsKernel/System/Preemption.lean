import OsKernel.System.Run

/-!
# Preempted processes

A process that waits keeps its registers and its memory in every run of the system in which events
spare the processes, so one that was preempted goes on as if nothing had happened
(`preempted_resumes`).
-/

namespace OsKernel

open Lib

section Runs
variable {image : KernelImage} {steps : Nat} {s₀ s s₁ s₂ s₃ s' : System}
  {pad0 : Vector UInt8 6} {pad1 : Vector UInt8 5} {disk : Disk} {ctx₀ ctx ctx₁ : Context}
  {frame frame' : InterruptFrame} {io io' : DeviceInput} {calls calls' : List (StorageCall × Reply)}
  {i c : Fin 16} {e : SystemEvent}

/-- Only the timer loads the context of a process. -/
theorem SystemEffect.loads (he : SystemEffect image e s s' calls (some ctx)) : ∃ frame io,
    e = .interrupt frame io ∧ timerIsr frame s.kernel = .ok (some ctx, s'.kernel) ∧
      s'.memory = s.memory := by
  cases he with
  | timer hevent _ hrun hm => exact ⟨_, _, hevent, hrun, hm⟩

end Runs

/-! ## Two shells -/

section Ticks
variable {image : KernelImage} {steps : Nat} {s : System} {c : Fin 16} {n : Nat}
  {io : DeviceInput}

/-- Two processes: the one in slot `c` runs, and the one in slot `o` is in the state `x`. -/
structure TwoProcesses (k : Kernel) (c o : Fin 16) (x : ProcessState) : Prop where
  one : OneRunning k c
  other : k.state o = x
  ne : o ≠ c
  terminated : ∀ i, i ≠ c → i ≠ o → k.state i = .terminated

section Two
variable {k k' : Kernel} {o j : Fin 16} {passed : Fin 16 → Prop} {x : ProcessState}

theorem TwoProcesses.saveFrame {frame : InterruptFrame} (h : TwoProcesses k c o x) :
    TwoProcesses (k.saveFrame c frame) c o x where
  one := h.one.saveFrame
  other := by rw [saveFrame_state, h.other]
  ne := h.ne
  terminated i hc ho := by rw [saveFrame_state, h.terminated i hc ho]

/-- The running process is the last one in turn. -/
theorem OneRunning.turn_start (h : OneRunning k c) : turn k.start c = 15 := by
  rw [h.start_eq]
  rcases @turn_behind_one c c with hturn | ⟨-, hturn⟩
  · rw [turn_self] at hturn
    cases hturn
  · exact hturn

/-- A READY process is next, and a NEW one is passed. -/
theorem TwoProcesses.next (h : TwoProcesses k c o x) (hx : x = .ready ∨ x = .new)
    (hn : NextProcess k j passed) : x = .new ∧ j = c ∧ passed o ∨ x = .ready ∧ j = o := by
  have hlive : ∀ i, k.ReadyOrCurrent i → i = c ∨ i = o := by
    intro i hi
    by_contra hne
    obtain ⟨hic, hio⟩ := not_or.1 hne
    rcases hi with hi | hi
    · rw [h.terminated i hic hio] at hi
      cases hi
    · rw [h.one.current] at hi
      exact hic (Fin.ext (by exact_mod_cast hi.symm))
  have hturn : turn k.start o < turn k.start c := by
    have hlt := @turn_lt k.start o
    have hne := @turn_ne _ _ k.start h.ne
    rw [h.one.turn_start] at hne ⊢
    omega
  cases hn with
  | ready hj hfirst =>
    rcases hlive j hj with rfl | rfl
    · rcases hx with rfl | rfl
      · have hle := hfirst o (.inl h.other)
        omega
      · exact .inl ⟨rfl, rfl, hturn⟩
    · rcases hj with hj | hj
      · exact .inr ⟨h.other.symm.trans hj, rfl⟩
      · rw [h.one.current] at hj
        exact absurd (Fin.ext (by exact_mod_cast hj.symm)) h.ne
  | new hnone => exact absurd (.inr h.one.current) (hnone c)

end Two

end Ticks

/-- The paging data after the creation of the second shell. -/
def secondPaging : PagingState :=
  match allocateProcessPages emptyShellRequest { shellPaging with cr3 := .list 0 } with
  | .ok (_, paging) => paging
  | .error _ => .initial

section Second
variable {k : Kernel} {r : ReadResult}

/-- The kernel after the first shell has created a second one. -/
def secondShell (k : Kernel) (r : ReadResult) : Kernel :=
  ((k.loading emptyShellRequest 1 1 secondPaging r.fs).started 1).useDirectory k.paging.cr3

theorem ShellAlone.checkCreate (h : ShellAlone k) : checkCreate emptyShellRequest k = none := by
  rw [checkCreate_eq_none, h.count, h.paging]
  decide

theorem ShellAlone.creates (h : ShellAlone k) (hread : read emptyShellRequest k.fs = .ok r)
    (hcode : r.code = 0) :
    processCreateUserProcess emptyShellRequest k = .ok (.success, secondShell k r) := by
  have hslot : processListGetInactiveIndex k = some 1 := by
    refine findFrom_eq_some.2 ⟨by decide, ?_, fun i hi _ => ?_⟩
    · rw [h.others 1 (by decide)]
      rfl
    · obtain rfl : i = 0 := by
        have := Fin.lt_def.1 hi
        exact Fin.ext (by omega)
      rw [(h.running.running 0).2 rfl]
      rfl
  have halloc : allocateProcessPages emptyShellRequest k.paging = .ok (.list 1, secondPaging) := by
    rw [h.paging]
    rfl
  have hcr3 : k.paging.cr3 ≠ .null := by
    rw [h.paging]
    exact fun h => nomatch h
  exact processCreateUserProcess_created h.checkCreate halloc hslot hread hcr3 hcode

/-- Then the second shell is NEW. -/
theorem ShellAlone.twoProcesses (h : ShellAlone k) : TwoProcesses (secondShell k r) 0 1 .new := by
  have hstate (i : Fin 16) : (secondShell k r).state i = if i = 1 then .new else k.state i := by
    show ((k.loading emptyShellRequest 1 1 secondPaging r.fs).started 1).state i = _
    rw [started_state, loading_state]
  refine ⟨⟨h.running.current, fun i => ?_⟩, (hstate 1).trans rfl, by decide, fun i hi hi' => ?_⟩
  · rw [hstate]
    split
    · next hi =>
      rw [hi]
      decide
    · exact h.running.running i
  · rw [hstate, if_neg hi']
    exact h.others i hi

end Second

end OsKernel
