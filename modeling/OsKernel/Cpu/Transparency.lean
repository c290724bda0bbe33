import OsKernel.Cpu.ContextSwitch
import OsKernel.Fat32.Runs
import OsKernel.Lib.Run

/-!
# What a preempted process finds in its registers

Runs of timer interrupts, each with the frame of the process it interrupts. `timer_isr` saves a
frame over the context in the process control block, field by field and without the flags, so the
block of a preempted process holds the registers of the last frame over the context it had at first
(`Saved`). A process that is resumed therefore finds its flags again only if they are the ones of
that first context.
-/

namespace OsKernel

open Lib

/-! ## Runs of the timer -/

/-- A kernel, and the frame with which `timer_isr` has last preempted the process of each slot. -/
structure Trace where
  kernel : Kernel
  preempted : Fin 16 → Option InterruptFrame

namespace Trace

/-- No process of the kernel was preempted yet. -/
def start (k : Kernel) : Trace := ⟨k, fun _ => none⟩

/-- The frames after the running process was preempted with one. -/
def preempt (t : Trace) (frame : InterruptFrame) : Fin 16 → Option InterruptFrame :=
  match processGetCurrentRunningPcbPointer t.kernel with
  | some i => Function.update t.preempted i (some frame)
  | none => t.preempted

end Trace

/-- One timer interrupt, which preempts the running process if it switches. -/
def TimerStep (frame : InterruptFrame) (t t' : Trace) : Prop :=
  ∃ ctx, timerIsr frame t.kernel = .ok (ctx, t'.kernel) ∧
    t'.preempted = if ctx.isSome then t.preempt frame else t.preempted

/-- All processes run user code, one of them now. -/
structure LiveUserProcesses (k : Kernel) : Prop where
  one : ∃ c, OneRunning k c
  user : ∀ i, k.state i ≠ .terminated → (k.processList i).context.cpu.cs = 0x1B

/-! ## What the process control blocks hold -/

/-- The context that was saved with the frame, if there is one. -/
def Context.saveLast (ctx : Context) : Option InterruptFrame → Context
  | none => ctx
  | some frame => ctx.save frame

/-- Every block holds its first context with the last frame saved over it, and the processes are the
ones that there were at first. -/
structure Saved (k₀ : Kernel) (t : Trace) : Prop where
  one : ∃ c, OneRunning t.kernel c
  context : ∀ i, (t.kernel.processList i).context =
    (k₀.processList i).context.saveLast (t.preempted i)
  terminated : ∀ i, t.kernel.state i = .terminated ↔ k₀.state i = .terminated

section Runs
variable {k₀ k' : Kernel} {t t' : Trace} {frame f : InterruptFrame} {ctx : Context} {c j : Fin 16}

/-- Of two frames saved one after the other the second one remains. -/
theorem saveLast_save (ctx : Context) (last : Option InterruptFrame) (frame : InterruptFrame) :
    (ctx.saveLast last).save frame = ctx.save frame := by
  cases last <;> rfl

theorem OneRunning.preempt (h : OneRunning t.kernel c) :
    t.preempt frame = Function.update t.preempted c (some frame) := by
  unfold Trace.preempt
  rw [h.processGetCurrentRunningPcbPointer]

theorem Saved.start (h : LiveUserProcesses k₀) : Saved k₀ (.start k₀) :=
  ⟨h.one, fun _ => rfl, fun _ => Iff.rfl⟩

/-- The frame that is saved becomes the last one of the running process. -/
theorem Saved.saveFrame_context (h : Saved k₀ t) (hc : OneRunning t.kernel c) (i : Fin 16) :
    ((t.kernel.saveFrame c frame).processList i).context =
      (k₀.processList i).context.saveLast (t.preempt frame i) := by
  rw [OsKernel.saveFrame_context, hc.preempt, Function.update_apply]
  split
  · next heq =>
    rw [h.context c, saveLast_save, heq]
    rfl
  · exact h.context i

/-- A timer interrupt keeps what the blocks hold. -/
theorem Saved.step (h : Saved k₀ t) (hstep : TimerStep frame t t') : Saved k₀ t' := by
  obtain ⟨c, hc⟩ := h.one
  obtain ⟨ctx, hrun, hlast⟩ := hstep
  rcases hc.timerIsr_spec hrun with ⟨rfl, hk⟩ | ⟨j, rfl, hs⟩
  · rw [Option.isSome_none, if_neg Bool.false_ne_true] at hlast
    refine ⟨⟨c, hk ▸ hc.tick⟩, fun i => ?_, fun i => ?_⟩
    · rw [hk, tick_processList, hlast, h.context i]
    · rw [hk, tick_state, h.terminated i]
  · rw [Option.isSome_some, if_pos rfl] at hlast
    refine ⟨⟨j, hs.one⟩, fun i => ?_, fun i => ?_⟩
    · rw [hs.slot i, setState_context, h.saveFrame_context hc, hlast]
    · rw [hs.terminated i, saveFrame_state, h.terminated i]

/-- After every run of timer interrupts. -/
theorem Saved.run (h : LiveUserProcesses k₀)
    (hrun : Run TimerStep (fun _ _ => True) (.start k₀) t) :
    Saved k₀ t :=
  hrun.invariant (fun _ _ _ hs _ hstep => hs.step hstep) (.start h)

/-- The context that a switch loads is the first one of the process it resumes, with the last frame
saved over it. -/
theorem Saved.resumed (h : Saved k₀ t) (hstep : timerIsr frame t.kernel = .ok (some ctx, k'))
    (hj : processGetCurrentRunningPcbPointer k' = some j) :
    ctx = (k₀.processList j).context.saveLast (t.preempt frame j) ∧ k₀.state j ≠ .terminated := by
  obtain ⟨c, hc⟩ := h.one
  rcases hc.timerIsr_spec hstep with ⟨hnone, _⟩ | ⟨i, hctx, hs⟩
  · cases hnone
  · rw [hs.one.processGetCurrentRunningPcbPointer, Option.some.injEq] at hj
    subst hj
    rw [h.saveFrame_context hc, Option.some.injEq] at hctx
    refine ⟨hctx, fun hterm => hs.live ?_⟩
    rw [saveFrame_state, h.terminated i]
    exact hterm

/-! ## Transparency -/

/-- The frame of an interrupt holds the registers of the code that was interrupted. A process that
was preempted with a frame and that the timer resumes, after any run of interrupts, gets the
registers of that frame exactly when the flags in it are the ones that its process control block had
at first. -/
theorem timer_transparent_iff (h₀ : LiveUserProcesses k₀) :
    (∀ n esp0 ss0 cs0 (user : Machine), (user.seg .ds).toUInt32 &&& 3 ≠ 0 →
      (enterHandler n (user.interrupt esp0 ss0 cs0)).interruptFrame.Holds user) ∧
    ∀ t frame ctx k' j f m dir ret, Run TimerStep (fun _ _ => True) (.start k₀) t →
      timerIsr frame t.kernel = .ok (some ctx, k') →
      processGetCurrentRunningPcbPointer k' = some j → t.preempt frame j = some f →
      Machine.rpl m.cs = 0 →
      (f.Holds (processContextSwitch (callWithContext ctx dir ret m)) ↔
        f.intStack.eflags = (k₀.processList j).context.cpu.eflags) := by
  refine ⟨fun n esp0 ss0 cs0 user hds => enterHandler_holds hds, ?_⟩
  intro t frame ctx k' j f m dir ret hrun hstep hj hf hm
  obtain ⟨hctx, hlive⟩ := (Saved.run h₀ hrun).resumed hstep hj
  rw [hf] at hctx
  have hcs : ctx.cpu.cs = 0x1B := by
    rw [hctx]
    exact h₀.user j hlive
  have hloads : Loads (processContextSwitch (callWithContext ctx dir ret m)) ctx.cpu := by
    refine processContextSwitch_loads ?_
    rw [hm, hcs]
    decide
  rw [hctx] at hloads
  rw [hctx]
  exact hloads.holds_iff

end Runs

/-- Two processes as they were created, of which the first one runs, one interrupt before the timer
switches. -/
def twoProcesses : Kernel :=
  let block (pid : UInt32) (dir : Fin 32) :=
    (ProcessControlBlock.zero.fill pid (sampleRequest 'A' 2 0) (.list dir)).start
  { Kernel.initial blankFileSystem with
    processList :=
      Function.update (Function.update (fun _ => .zero) 0 ((block 1 0).setState .running))
      1 (block 2 1)
    activeProcessCount := 2
    currentProcessListId := 0
    tickCounter := 9 }

/-- A frame of user code with some flags. -/
def userFrame (eflags : UInt32) : InterruptFrame where
  cpu := ⟨1, 2, 3, 0xBFFFFFF0, 5, 6, 7, 8, 0x23, 0x23, 0x23, 0x23⟩
  intNumber := 0x20
  intStack := ⟨0, 0x400000, 0x1B, eflags⟩

theorem twoProcesses_live : LiveUserProcesses twoProcesses where
  one := ⟨0, rfl, by decide⟩
  user := by decide

/-- The first process is preempted and resumed at once, without the zero and the parity flag that
were set. -/
theorem timer_loses_flags : ∃ ctx k', timerIsr (userFrame 0x246) twoProcesses = .ok (some ctx, k') ∧
    processGetCurrentRunningPcbPointer k' = some 0 ∧
    (Trace.start twoProcesses).preempt (userFrame 0x246) 0 = some (userFrame 0x246) ∧
    ∀ m dir ret, Machine.rpl m.cs = 0 →
      ¬ (userFrame 0x246).Holds (processContextSwitch (callWithContext ctx dir ret m)) := by
  obtain ⟨ctx, k', hstep, hj⟩ : ∃ ctx k',
      timerIsr (userFrame 0x246) twoProcesses = .ok (some ctx, k') ∧
        processGetCurrentRunningPcbPointer k' = some 0 := ⟨_, _, rfl, rfl⟩
  refine ⟨ctx, k', hstep, hj, rfl, fun m dir ret hm hholds => ?_⟩
  have hctx : ctx = (twoProcesses.processList 0).context.save (userFrame 0x246) :=
    ((Saved.start twoProcesses_live).resumed hstep hj).1
  subst hctx
  have hloads : Loads (processContextSwitch (callWithContext _ dir ret m))
      ((twoProcesses.processList 0).context.save (userFrame 0x246)).cpu :=
    processContextSwitch_loads (by rw [hm]; decide)
  exact absurd (hloads.holds_iff.1 hholds) (by decide)

/-- With the flags it was created with it gets all registers back. -/
theorem timer_keeps_flags : ∃ ctx k', timerIsr (userFrame 0x202) twoProcesses = .ok (some ctx, k') ∧
    ∀ m dir ret, Machine.rpl m.cs = 0 →
      (userFrame 0x202).Holds (processContextSwitch (callWithContext ctx dir ret m)) := by
  obtain ⟨ctx, k', hstep, hj⟩ : ∃ ctx k',
      timerIsr (userFrame 0x202) twoProcesses = .ok (some ctx, k') ∧
        processGetCurrentRunningPcbPointer k' = some 0 := ⟨_, _, rfl, rfl⟩
  refine ⟨ctx, k', hstep, fun m dir ret hm => ?_⟩
  exact ((timer_transparent_iff twoProcesses_live).2 _ _ _ _ 0 _ _ _ _ .refl hstep hj rfl hm).2 rfl

end OsKernel
