import OsKernel.Process.Restoration
import OsKernel.System.Steps

/-!
# The memory of a process that waits

No event reaches the memory of a process that is not the running one. The page frames of the
processes are apart, and what an event stores lies behind the page directory in use, which is the
one of the running process, or behind that of a process being made (`SystemEffect.keeps`).
-/

namespace OsKernel

open Lib

/-- What the events of a run keep: the invariants of the scheduler, the frames of the processes
apart, and the page directory of the running process in use. -/
structure Secure (k : Kernel) : Prop extends Schedules k where
  apart : FramesApart none k
  directory : ∀ c, OneRunning k c → k.paging.cr3 = (k.processList c).context.pageDirectory

/-- The running process is spared, no creation fails at the read, and every creation takes frames of
its own. -/
def SparesAll (e : KernelEvent) (k : Kernel) : Prop :=
  KeepsProcesses e k ∧ ∀ c, e = .call c → SparesProcesses c k

/-- The process in slot `i` keeps its registers and its page directory. -/
structure KeepsSlot (i : Fin 16) (k k' : Kernel) : Prop where
  context : (k'.processList i).context = (k.processList i).context
  pages : ∀ d, (k.processList i).context.pageDirectory = .list d →
    k'.paging.pageDirectoryList d = k.paging.pageDirectoryList d

section Slot
variable {k k' k'' : Kernel} {i c p : Fin 16} {d : Fin 32} {call : ProcessCall}
  {frame : InterruptFrame} {ctx : Option Context} {m m' : PhysicalMemory} {request : DriverRequest}
  {paging : PagingState} {r : ReadResult}

theorem KeepsSlot.refl : KeepsSlot i k k := ⟨rfl, fun _ _ => rfl⟩

theorem KeepsSlot.trans (h : KeepsSlot i k k') (h' : KeepsSlot i k' k'') : KeepsSlot i k k'' where
  context := h'.context.trans h.context
  pages d hd := (h'.pages d (h.context ▸ hd)).trans (h.pages d hd)

/-- Its addresses stay where they are. -/
theorem KeepsSlot.userAddress (h : KeepsSlot i k k') : k'.userAddress i = k.userAddress i := by
  funext addr
  unfold Kernel.userAddress
  rw [h.context]
  split
  · next d hd => rw [h.pages d hd]
  · rfl

/-- It keeps its bytes with the cells of its page frames. -/
theorem KeepsSlot.byteAt (h : KeepsSlot i k k')
    (hd : (k.processList i).context.pageDirectory = .list d)
    (hm : ∀ addr p, OsKernel.userAddress (k.paging.pageDirectoryList d) addr = some p →
      m' p = m p) :
    k'.byteAt i m' = k.byteAt i m := by
  funext addr
  rw [Kernel.byteAt, Kernel.byteAt, h.userAddress, Kernel.userAddress_list hd]
  unfold loadAt
  cases haddr : OsKernel.userAddress (k.paging.pageDirectoryList d) addr with
  | none => rfl
  | some p => rw [Option.map_some, Option.map_some, hm addr p haddr]

/-- While a process is made. -/
theorem keepsSlot_loading (hk : Consistent k) (hr : ReadsExecutable request k p d paging r)
    (hi : k.state i ≠ .terminated) : KeepsSlot i k (k.loading request p d paging r.fs) := by
  have hip : i ≠ p := by
    rintro rfl
    exact hi (inactive_state hr.slot)
  refine ⟨by rw [loading_processList, if_neg hip], fun d' hd' => ?_⟩
  have hdd : d' ≠ d := by
    rintro rfl
    exact hk.directory_ne hr.mapped.unused hi hd'
  have hother := hr.mapped.onlyDirectory.other d' hdd
  exact hother.trans (Function.update_of_ne hdd ..)

/-- A system call keeps the process, unless it destroys it. -/
theorem keepsSlot_calls (hk : Consistent k) (hc : Calls k call k') (hwell : ReadsWell call k)
    (hi : k.state i ≠ .terminated) (hi' : k'.state i ≠ .terminated) : KeepsSlot i k k' := by
  cases hc with
  | @create request code k' hc =>
    cases hc with
    | refused => exact .refl
    | @created p d paging r hr =>
      have hip : i ≠ p := by
        rintro rfl
        exact hi (inactive_state hr.slot)
      have hload : KeepsSlot i k (k.loading request p d paging r.fs) := keepsSlot_loading hk hr hi
      refine hload.trans ⟨?_, fun _ _ => rfl⟩
      show (((k.loading request p d paging r.fs).started p).processList i).context = _
      rw [started_processList, if_neg hip]
    | @failed p j d d' paging r hr hcode => exact absurd ⟨r, hr.read, hcode⟩ (hwell hr.checked)
  | destroy hd =>
    cases hd with
    | missing => exact .refl
    | @destroyed j d hfind hlive hdir hused =>
      obtain ⟨hne, -, heq⟩ := destroyed_live hi'
      refine ⟨by rw [heq], fun d' hd' => ?_⟩
      have hdd : d' ≠ d := by
        rintro rfl
        exact hne (hk.distinct i j hi hlive (hd'.trans hdir.symm))
      exact Function.update_of_ne hdd ..

theorem saveFrame_paging : (k.saveFrame c frame).paging = k.paging := tick_paging

/-- A timer interrupt keeps every process but the registers of the one that runs. -/
theorem OneRunning.keepsSlot_timer (h : OneRunning k c) (hrun : timerIsr frame k = .ok (ctx, k'))
    (hic : i ≠ c) : KeepsSlot i k k' := by
  rcases h.timerIsr_spec hrun with ⟨-, rfl⟩ | ⟨j, -, hs⟩
  · exact ⟨by rw [tick_processList], fun d _ => by rw [tick_paging]⟩
  · refine ⟨?_, fun d _ => ?_⟩
    · rw [hs.slot i, setState_context, saveFrame_context, if_neg hic]
    · rw [hs.kernel]
      show (k.saveFrame c frame).paging.pageDirectoryList d = _
      rw [saveFrame_paging]

theorem Undisturbed.trans (h : Undisturbed k k') (h' : Undisturbed k' k'') : Undisturbed k k'' where
  paging := by
    obtain ⟨_, hpaging⟩ := h.paging
    obtain ⟨cr3, hpaging'⟩ := h'.paging
    exact ⟨cr3, by rw [hpaging', hpaging]⟩
  pid i := (h'.pid i).trans (h.pid i)
  terminated i := (h'.terminated i).trans (h.terminated i)
  pageDirectory i := (h'.pageDirectory i).trans (h.pageDirectory i)
  memory i := (h'.memory i).trans (h.memory i)

/-- Saving a frame. -/
theorem undisturbed_saveFrame : Undisturbed k (k.saveFrame c frame) := by
  have hslot (i : Fin 16) :
    ((k.saveFrame c frame).processList i).metadata = (k.processList i).metadata ∧
      ((k.saveFrame c frame).processList i).memory = (k.processList i).memory := by
    have hupdate : (k.saveFrame c frame).processList i = Function.update k.tick.processList c
      { k.tick.processList c with context := (k.tick.processList c).context.save frame } i := rfl
    rw [hupdate, tick_processList, Function.update_apply]
    split
    · next hi =>
      rw [hi]
      exact ⟨rfl, rfl⟩
    · exact ⟨rfl, rfl⟩
  exact ⟨⟨k.paging.cr3, saveFrame_paging⟩,
    fun i => by rw [(hslot i).1], fun i => by rw [saveFrame_state],
    fun i => saveFrame_pageDirectory, fun i => (hslot i).2⟩

/-- Switching. -/
theorem Switched.undisturbed (hs : Switched k k' i) : Undisturbed k k' where
  paging := ⟨(k.processList i).context.pageDirectory, by rw [hs.kernel]⟩
  pid j := by
    rw [hs.slot j]
    rfl
  terminated := hs.terminated
  pageDirectory j := by rw [hs.slot j, setState_context]
  memory j := by
    rw [hs.slot j]
    rfl

/-- A timer interrupt changes nothing of the processes but registers and states. -/
theorem OneRunning.timer_undisturbed (h : OneRunning k c)
    (hrun : timerIsr frame k = .ok (ctx, k')) :
    Undisturbed k k' := by
  rcases h.timerIsr_spec hrun with ⟨-, rfl⟩ | ⟨j, -, hs⟩
  · exact ⟨⟨k.paging.cr3, tick_paging⟩,
      fun i => by rw [tick_processList], fun i => by rw [tick_state],
      fun i => by rw [tick_processList], fun i => by rw [tick_processList]⟩
  · exact undisturbed_saveFrame.trans hs.undisturbed

/-- The memory of the processes stays where it is. -/
theorem Undisturbed.userAddress (hu : Undisturbed k k') : k'.userAddress i = k.userAddress i := by
  obtain ⟨cr3, hpaging⟩ := hu.paging
  funext addr
  rw [Kernel.userAddress, Kernel.userAddress, hu.pageDirectory, hpaging]

theorem Undisturbed.byteAt (hu : Undisturbed k k') : k'.byteAt i m = k.byteAt i m := by
  funext addr
  rw [Kernel.byteAt, Kernel.byteAt, hu.userAddress]

/-- A timer interrupt that completes spares all processes. -/
theorem OneRunning.sparesAll_timer (h : OneRunning k c) (hk : Consistent k)
    (hrun : timerIsr frame k = .ok (ctx, k')) : SparesAll (.timer frame) k := by
  obtain ⟨-, -, -, hspares⟩ := h.timer_spec hk (bind_eq_ok.2 ⟨_, hrun, rfl⟩)
  exact ⟨⟨hspares, fun _ hcall => nomatch hcall⟩, fun _ hcall => nomatch hcall⟩

/-- The frames stay apart. -/
theorem FramesApart.undisturbed (h : FramesApart none k) (hu : Undisturbed k k') :
    FramesApart none k' := by
  obtain ⟨cr3, hpaging⟩ := hu.paging
  have hpages : pagesBut none k' = pagesBut none k := by
    funext i j f
    rw [pagesBut, pagesBut, Kernel.userPage, Kernel.userPage, hu.pageDirectory i, hpaging]
    exact propext (and_congr_right fun _ => and_congr_left fun _ => not_congr (hu.terminated i))
  refine ⟨hpages ▸ h.exclusive, fun i j f hpage => ?_⟩
  rw [hpages] at hpage
  rw [hpaging]
  exact h.marked i j f hpage

/-- System calls leave the page directory in use alone. -/
theorem cr3_calls (hc : Calls k call k') : k'.paging.cr3 = k.paging.cr3 := by
  cases hc with
  | create hc =>
    cases hc with
    | refused => rfl
    | created => rfl
    | failed => rfl
  | destroy hd =>
    cases hd with
    | missing => rfl
    | destroyed => rfl

/-- Events keep the system secure. -/
theorem Secure.event {e : KernelEvent} (h : Secure k) (hok : SparesAll e k)
    (hstep : EventStep e k k') :
    Secure k' := by
  obtain ⟨c, hc⟩ := h.running
  have hsched := h.toSchedules.event hok.1 hstep
  have hcall : ∀ call, Calls k call k' → ReadsWell call k → SparesProcesses call k → Secure k' := by
    intro call hcalls hwell hspares
    refine ⟨hsched, h.apart.calls h.consistent hcalls hspares, fun c' hc' => ?_⟩
    obtain rfl : c' = c := by
      have hcurrent := (state_calls hcalls).1
      rw [hc'.current, hc.current] at hcurrent
      exact Fin.ext (by exact_mod_cast hcurrent)
    rw [cr3_calls hcalls, h.directory _ hc,
      (keepsSlot_calls h.consistent hcalls hwell hc.live hc'.live).context]
  cases e with
  | call call => exact hcall call (h.consistent.callStep hstep) (hok.1.2 call rfl) (hok.2 call rfl)
  | exit =>
    have hstep : CallStep (.destroy k.exitPid) k k' := hstep
    exact hcall _ (h.consistent.callStep hstep) trivial trivial
  | timer frame =>
    obtain ⟨⟨ctx, k₁⟩, hrun, hstep⟩ := bind_eq_ok.1 hstep
    cases hstep
    refine ⟨hsched, h.apart.undisturbed (hc.timer_undisturbed hrun), fun c' hc' => ?_⟩
    rcases hc.timerIsr_spec hrun with ⟨-, rfl⟩ | ⟨j, -, hs⟩
    · have hcc : c' = c := by
        have hcurrent := hc'.current
        rw [tick_currentProcessListId, hc.current] at hcurrent
        exact Fin.ext (by exact_mod_cast hcurrent.symm)
      rw [tick_paging, tick_processList, hcc, h.directory c hc]
    · obtain rfl : c' = j := (hs.one.running c').1 ((hc'.running c').2 rfl)
      rw [hs.slot c', setState_context, hs.kernel]

/-- The running process reaches its own addresses. -/
theorem Secure.userAddress (h : Secure k) (hi : OneRunning k i) :
    k.paging.userAddress = k.userAddress i := by
  obtain ⟨d, hd, -⟩ := h.consistent.directory i hi.live
  rw [PagingState.userAddress_list ((h.directory i hi).trans hd), Kernel.userAddress_list hd]

theorem Secure.timer (h : Secure k) (hrun : timerIsr frame k = .ok (ctx, k')) : Secure k' := by
  obtain ⟨c, hc⟩ := h.running
  exact h.event (hc.sparesAll_timer h.consistent hrun) (bind_eq_ok.2 ⟨_, hrun, rfl⟩)

end Slot

/-! ## The system -/

section System
variable {image : KernelImage} {s s' : System} {e : SystemEvent}
  {calls : List (StorageCall × Reply)} {ctx : Option Context} {i c : Fin 16}

/-- The kernel's part of an event. -/
theorem SystemEffect.kernel (he : SystemEffect image e s s' calls ctx) :
    (∃ ke, e.kernelEvent image s = some ke ∧ EventStep ke s.kernel s'.kernel) ∨
      e.kernelEvent image s = none ∧ s'.kernel = { s.kernel with fs := s'.kernel.fs } := by
  cases he with
  | quiet hnone hk => exact .inr ⟨hnone, by rw [hk]⟩
  | file hnone _ hk => exact .inr ⟨hnone, by rw [hk]⟩
  | timer _ hke hrun => exact .inl ⟨_, hke, bind_eq_ok.2 ⟨_, hrun, rfl⟩⟩
  | destroy hke _ hstep => exact .inl ⟨_, hke, hstep⟩
  | create hke hrun => exact .inl ⟨_, hke, callStep_create hrun⟩

/-- No event reaches the memory, the pages or the registers of a process that does not run, unless
it destroys the process. -/
theorem SystemEffect.keeps (he : SystemEffect image e s s' calls ctx) (h : Secure s.kernel)
    (hok : ∀ ke, e.kernelEvent image s = some ke → SparesAll ke s.kernel)
    (hc : OneRunning s.kernel c)
    (hic : i ≠ c) (hi : s.kernel.state i ≠ .terminated) (hi' : s'.kernel.state i ≠ .terminated) :
    KeepsSlot i s.kernel s'.kernel ∧ s'.kernel.byteAt i s'.memory = s.kernel.byteAt i s.memory := by
  obtain ⟨d, hd, -⟩ := h.consistent.directory i hi
  obtain ⟨d', hd', -⟩ := h.consistent.directory c hc.live
  have huse : s.kernel.paging.userAddress = userAddress (s.kernel.paging.pageDirectoryList d') :=
    PagingState.userAddress_list ((h.directory c hc).trans hd')
  -- what lies behind the page directory in use is the running process's
  have hquiet (hk : s'.kernel = { s.kernel with fs := s'.kernel.fs })
      (hm : OnlyBehind s.kernel.paging.userAddress s.memory s'.memory) :
      KeepsSlot i s.kernel s'.kernel ∧
          s'.kernel.byteAt i s'.memory = s.kernel.byteAt i s.memory := by
    have hkeep : KeepsSlot i s.kernel s'.kernel := by
      rw [hk]
      exact ⟨rfl, fun _ _ => rfl⟩
    refine ⟨hkeep, hkeep.byteAt hd fun addr p haddr => hm p fun addr' => ?_⟩
    rw [huse]
    exact h.apart.userAddress_ne hic hi hc.live hd hd' haddr
  cases he with
  | quiet _ hk hm => exact hquiet (by rw [hk]) hm
  | file _ _ hk hm => exact hquiet (by rw [hk]) hm
  | timer _ _ hrun hm =>
    have hkeep := hc.keepsSlot_timer hrun hic
    exact ⟨hkeep, hkeep.byteAt hd fun _ p _ => congrFun hm p⟩
  | @destroy ke hke hdestroy hstep hm =>
    have h' := h.event (hok ke hke) hstep
    obtain ⟨call, hstep, hwell⟩ : ∃ call, CallStep call s.kernel s'.kernel ∧
        ReadsWell call s.kernel := by
      rcases hdestroy with rfl | ⟨pid, rfl⟩
      · exact ⟨.destroy s.kernel.exitPid, hstep, trivial⟩
      · exact ⟨.destroy pid, hstep, trivial⟩
    have hcalls := h.consistent.callStep hstep
    have hkeep := keepsSlot_calls h.consistent hcalls hwell hi hi'
    obtain ⟨c', hc'⟩ := h'.running
    obtain rfl : c' = c := by
      have hcurrent := (state_calls hcalls).1
      rw [hc'.current, hc.current] at hcurrent
      exact Fin.ext (by exact_mod_cast hcurrent)
    obtain ⟨d'', hd'', -⟩ := h'.consistent.directory c' hc'.live
    refine ⟨hkeep, hkeep.byteAt hd fun addr p haddr => hm p fun addr' => ?_⟩
    rw [PagingState.userAddress_list ((h'.directory c' hc').trans hd'')]
    rw [← hkeep.pages d hd] at haddr
    exact h'.apart.userAddress_ne hic hi' hc'.live (by rw [hkeep.context, hd]) hd'' haddr
  | @create request code hke hrun hm =>
    have hok := hok _ hke
    have hwell := hok.1.2 _ rfl
    have hcalls := h.consistent.callStep (callStep_create hrun)
    have hkeep := keepsSlot_calls h.consistent hcalls hwell hi hi'
    refine ⟨hkeep, hkeep.byteAt hd ?_⟩
    rcases hm with hm | ⟨hcheck, pageDir, paging, halloc, hm⟩
    · exact fun _ p _ => congrFun hm p
    -- the pages of the new process are on frames of its own
    obtain ⟨p, d₁, paging₁, r, hr, halloc₁, -, -⟩ := processCreateUserProcess_reads hcheck hrun
    obtain ⟨rfl, rfl⟩ := Prod.mk.inj (Except.ok.inj (halloc.symm.trans halloc₁))
    have hown := (hok.2 _ rfl hcheck).resolve_left fun hu => hwell hcheck hu.1
    have hload := h.apart.loading h.consistent hr hown
    have hkeep₁ := keepsSlot_loading h.consistent hr hi
    have hip : i ≠ p := by
      rintro rfl
      exact hi (inactive_state hr.slot)
    intro addr q haddr
    refine hm q fun addr' => ?_
    rw [PagingState.userAddress_list rfl]
    rw [← hkeep₁.pages d hd] at haddr
    refine hload.userAddress_ne hip ?_ ?_ (by rw [hkeep₁.context, hd]) ?_ haddr
    · rw [loading_state, if_neg hip]
      exact hi
    · rw [loading_state, if_pos rfl]
      exact fun hterm => nomatch hterm
    · rw [loading_processList, if_pos rfl]
      rfl

end System

end OsKernel
