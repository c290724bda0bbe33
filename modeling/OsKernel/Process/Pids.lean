import OsKernel.Fat32.Read
import OsKernel.Lib.Exclusive
import OsKernel.Process.Restoration

/-!
# Pids

Every creation that passes the checks takes the next pid, also when it fails and destroys its
process again. As long as the pids do not come to an end, those of the processes are nonzero, below
the next one and pairwise distinct (`Pids`): a creation gives out a pid that nobody has, and
everything else takes processes away at most (`KeepsPids`). So a destruction hits the one process
with the pid, and nothing else (`pids_run`).
-/

namespace OsKernel

open Lib

/-! ## Pids of processes -/

/-- The process in slot `i` has the pid. It is the only one of its slot. -/
def Kernel.hasPid (k : Kernel) (i : Fin 16) (_ : Unit) (pid : UInt32) : Prop :=
  k.state i ≠ .terminated ∧ (k.processList i).metadata.pid = pid

/-- No two processes have the same pid, and each has one that was given out and is above the number
of its slot: the slots before a new process are taken, by processes with smaller pids. -/
structure Pids (k : Kernel) : Prop where
  distinct : Exclusive k.hasPid
  above : ∀ i pid, k.hasPid i () pid → i.val < pid.toNat
  below : ∀ i pid, k.hasPid i () pid → pid < k.nextPid

/-- No pid is given out, and every process was one before, with the same pid. -/
structure KeepsPids (k k' : Kernel) : Prop where
  next : k'.nextPid = k.nextPid
  had : ∀ i pid, k'.hasPid i () pid → k.hasPid i () pid

theorem pids_initial (fs : FileSystem) : Pids (.initial fs) where
  distinct := .empty fun _ _ _ h => h.1 rfl
  above _ _ h := absurd rfl h.1
  below _ _ h := absurd rfl h.1

section Keeps
variable {k k' : Kernel} {i p : Fin 16} {d : Fin 32} {pid : UInt32} {pageDir : PageDirectoryPtr}
  {request : DriverRequest} {paging : PagingState} {fs : FileSystem} {frame : InterruptFrame}

theorem Pids.positive (h : Pids k) (hpid : k.hasPid i () pid) : 0 < pid :=
  UInt32.lt_iff_toNat_lt.2 (Nat.zero_lt_of_lt (h.above i pid hpid))

theorem Pids.keeps (h : Pids k) (hk : KeepsPids k k') : Pids k' where
  distinct := h.distinct.mono fun i _ pid hpid => hk.had i pid hpid
  above i pid hpid := h.above i pid (hk.had i pid hpid)
  below i pid hpid := by
    rw [hk.next]
    exact h.below i pid (hk.had i pid hpid)

theorem KeepsPids.refl : KeepsPids k k := ⟨rfl, fun _ _ => id⟩

theorem keepsPids_destroyed : KeepsPids k (k.destroyed i d) where
  next := rfl
  had j pid hpid := by
    obtain ⟨-, hlive, hslot⟩ := destroyed_live hpid.1
    refine ⟨hlive, ?_⟩
    rw [← hslot]
    exact hpid.2

theorem keepsPids_useDirectory : KeepsPids k (k.useDirectory pageDir) := ⟨rfl, fun _ _ => id⟩

theorem keepsPids_started : KeepsPids k (k.started p) where
  next := rfl
  had i pid := by
    rintro ⟨hlive, hpid⟩
    rw [started_state] at hlive
    refine ⟨hlive, ?_⟩
    rw [started_processList] at hpid
    split at hpid
    · next hi =>
      rw [hi]
      exact hpid
    · exact hpid

/-- Slots that keep all but their state and their context keep their pids. -/
theorem keepsPids_slots (hnext : k'.nextPid = k.nextPid)
    (hpid : ∀ i, (k'.processList i).metadata.pid = (k.processList i).metadata.pid)
    (hterm : ∀ i, k'.state i = .terminated ↔ k.state i = .terminated) : KeepsPids k k' where
  next := hnext
  had i pid := by
    rintro ⟨hlive, rfl⟩
    exact ⟨fun h => hlive ((hterm i).2 h), (hpid i).symm⟩

theorem keepsPids_tick : KeepsPids k k.tick := by
  have hnext : k.tick.nextPid = k.nextPid := by
    unfold Kernel.tick
    dsimp only
    split <;> rfl
  exact keepsPids_slots hnext (fun i => by rw [tick_processList]) fun i => by rw [tick_state]

theorem KeepsPids.trans {k'' : Kernel} (h : KeepsPids k k') (h' : KeepsPids k' k'') :
    KeepsPids k k'' where
  next := h'.next.trans h.next
  had i pid hpid := h.had i pid (h'.had i pid hpid)

theorem keepsPids_saveFrame : KeepsPids k (k.saveFrame p frame) := by
  have hnext : (k.saveFrame p frame).nextPid = k.nextPid := keepsPids_tick.next
  refine keepsPids_slots hnext (fun i => ?_) fun i => by rw [saveFrame_state]
  show (Function.update k.tick.processList p _ i).metadata.pid = _
  rw [tick_processList, Function.update_apply]
  split
  · next hi => rw [hi]
  · rfl

theorem Switched.keepsPids (hs : Switched k k' i) : KeepsPids k k' := by
  refine keepsPids_slots (by rw [hs.kernel]) (fun i => ?_) hs.terminated
  rw [hs.slot i]
  rfl

/-- The next pid is above the number of the first free slot. -/
theorem Pids.slot_lt (h : Pids k) (hpos : 0 < k.nextPid)
    (hslot : processListGetInactiveIndex k = some p) :
    p.val < k.nextPid.toNat := by
  by_cases hzero : p.val = 0
  · rw [hzero]
    exact UInt32.lt_iff_toNat_lt.1 hpos
  · -- the slot before it is taken
    obtain ⟨q, hq⟩ : ∃ q : Fin 16, q.val + 1 = p.val :=
      ⟨⟨p.val - 1, by omega⟩, Nat.succ_pred_eq_of_ne_zero hzero⟩
    have hlive : k.state q ≠ .terminated := by
      have hbefore := (findFrom_eq_some.1 hslot).2.2 q (Fin.lt_def.2 (by omega)) (Nat.zero_le _)
      exact ne_of_beq_false hbefore
    have habove := h.above q _ ⟨hlive, rfl⟩
    have hbelow := UInt32.lt_iff_toNat_lt.1 (h.below q _ ⟨hlive, rfl⟩)
    omega

/-- A creation that passes the checks gives the next pid to its process. -/
theorem Pids.loading (h : Pids k) (hlast : k.nextPid.toNat + 1 < 2 ^ 32) (hpos : 0 < k.nextPid)
    (hslot : processListGetInactiveIndex k = some p) : Pids (k.loading request p d paging fs) := by
  have hnext : (k.loading request p d paging fs).nextPid.toNat = k.nextPid.toNat + 1 := by
    show (k.nextPid + 1).toNat = _
    rw [UInt32.toNat_add, UInt32.toNat_one, Nat.mod_eq_of_lt hlast]
  have hother : ∀ i ≠ p, ∀ pid, (k.loading request p d paging fs).hasPid i () pid →
      k.hasPid i () pid := by
    rintro i hi pid ⟨hlive, hpid⟩
    rw [loading_state, if_neg hi] at hlive
    rw [loading_processList, if_neg hi] at hpid
    exact ⟨hlive, hpid⟩
  have hnew : ∀ pid, (k.loading request p d paging fs).hasPid p () pid → pid = k.nextPid := by
    rintro pid ⟨-, hpid⟩
    rw [loading_processList, if_pos rfl] at hpid
    exact hpid.symm
  refine ⟨h.distinct.replace p (fun i hi _ pid => hother i hi pid) (fun _ _ _ _ _ => rfl) ?_,
    fun i pid hpid => ?_, fun i pid hpid => ?_⟩
  · intro i _ _ _ pid hpid hold
    rw [hnew pid hpid] at hold
    exact absurd (h.below i _ hold) (UInt32.lt_irrefl _)
  · by_cases hi : i = p
    · subst hi
      rw [hnew pid hpid]
      exact h.slot_lt hpos hslot
    · exact h.above i pid (hother i hi pid hpid)
  · rw [UInt32.lt_iff_toNat_lt, hnext]
    by_cases hi : i = p
    · subst hi
      rw [hnew pid hpid]
      exact Nat.lt_succ_self _
    · exact (UInt32.lt_iff_toNat_lt.1 (h.below i pid (hother i hi pid hpid))).trans
        (Nat.lt_succ_self _)

/-- A creation keeps the pids, and gives out one at most. -/
theorem Pids.creates {code : ProcessCreateCode} (h : Pids k)
    (hlast : k.nextPid.toNat + 1 < 2 ^ 32) (hpos : 0 < k.nextPid) (hc : Creates request k code k') :
    Pids k' ∧ (k'.nextPid = k.nextPid ∨ k'.nextPid = k.nextPid + 1) := by
  cases hc with
  | refused => exact ⟨h, .inl rfl⟩
  | created hr =>
    exact ⟨((h.loading hlast hpos hr.slot).keeps keepsPids_started).keeps keepsPids_useDirectory,
      .inr rfl⟩
  | failed hr =>
    exact ⟨((h.loading hlast hpos hr.slot).keeps keepsPids_destroyed).keeps keepsPids_useDirectory,
      .inr rfl⟩

theorem Destroys.keepsPids {b : Bool} (hd : Destroys pid k b k') : KeepsPids k k' := by
  cases hd with
  | missing => exact .refl
  | destroyed => exact keepsPids_destroyed

end Keeps

/-! ## Runs -/

/-- The action is a call of `process_create_user_process`. -/
def KernelAction.creates : KernelAction → Bool
  | event (.call (.create _)) => true
  | _ => false

section Runs
variable {k k' : Kernel} {a : KernelAction} {frame : InterruptFrame} {fs : FileSystem} {n : Nat}

/-- Everything but a creation takes processes away at most. -/
theorem Orderly.keepsPids (h : Orderly k) (hstep : ActionStep a k k') (ha : a.creates = false) :
    KeepsPids k k' := by
  cases h.acts hstep with
  | @call c _ hc =>
    cases hc with
    | create => cases ha
    | destroy hd => exact hd.keepsPids
  | exit hc =>
    cases hc with
    | destroy hd => exact hd.keepsPids
  | tick => exact keepsPids_tick
  | switch _ hs => exact keepsPids_saveFrame.trans hs.keepsPids
  | firstSwitch hs => exact hs.keepsPids
  | files => exact ⟨rfl, fun _ _ => id⟩

/-- A creation keeps the pids, and gives out one at most. -/
theorem Orderly.pids_create (h : Orderly k) (hstep : ActionStep a k k') (ha : a.creates = true)
    (hp : Pids k) (hpos : 0 < k.nextPid) (hlast : k.nextPid.toNat + 1 < 2 ^ 32) :
    Pids k' ∧ (k'.nextPid = k.nextPid ∨ k'.nextPid = k.nextPid + 1) := by
  cases h.acts hstep with
  | call hc =>
    cases hc with
    | create hc => exact hp.creates hlast hpos hc
    | destroy => cases ha
  | exit => cases ha
  | tick => cases ha
  | switch => cases ha
  | firstSwitch => cases ha
  | files => cases ha

/-- After fewer than 2^31 creations the pids have not come to an end. -/
theorem pids_counted
    (hrun : Run (Counted ActionStep KernelAction.creates) (fun _ _ => True) (.initial fs, 0) (k, n))
    (hn : n < 2 ^ 31) : Orderly k ∧ Pids k := by
  obtain ⟨ho, hpids⟩ : Orderly k ∧ (n < 2 ^ 31 →
      Pids k ∧ 0 < k.nextPid ∧ k.nextPid.toNat ≤ n + 1) := by
    refine hrun.invariant (I := fun x => Orderly x.1 ∧ (x.2 < 2 ^ 31 →
      Pids x.1 ∧ 0 < x.1.nextPid ∧ x.1.nextPid.toNat ≤ x.2 + 1)) ?_
      ⟨⟨consistent_initial fs, fun i hi => nomatch hi⟩, fun _ => ⟨pids_initial fs,
        (by decide : (0 : UInt32) < 1), le_rfl⟩⟩
    rintro a ⟨k, m⟩ ⟨k', m'⟩ ⟨ho, h⟩ - ⟨hstep, hm⟩
    refine ⟨ho.actionStep hstep, fun hlt => ?_⟩
    dsimp only at ho hm hlt h hstep ⊢
    obtain ⟨hp, hpos, hle⟩ := h (by split at hm <;> omega)
    cases ha : a.creates with
    | false =>
      have hkeeps := ho.keepsPids hstep ha
      rw [ha, if_neg Bool.false_ne_true] at hm
      rw [hkeeps.next]
      exact ⟨hp.keeps hkeeps, hpos, by omega⟩
    | true =>
      rw [ha, if_pos rfl] at hm
      have hlast : k.nextPid.toNat + 1 < 2 ^ 32 := by omega
      obtain ⟨hp', hnext⟩ := ho.pids_create hstep ha hp hpos hlast
      refine ⟨hp', ?_⟩
      rcases hnext with hnext | hnext
      · rw [hnext]
        exact ⟨hpos, by omega⟩
      · rw [UInt32.lt_iff_toNat_lt, hnext, UInt32.toNat_add, UInt32.toNat_one,
          Nat.mod_eq_of_lt hlast]
        exact ⟨Nat.succ_pos _, by omega⟩
  exact ⟨ho, (hpids hn).1⟩

/-- What a destruction of a pid does, when no two processes have the same: the one process with the
pid is removed, and its block is zero. -/
theorem Pids.destroy_spec (h : Pids k) (hk : Consistent k) (pid : UInt32) :
    ∃ b k', OsKernel.processDestroy pid k = .ok (b, k') ∧ (b = true ↔ ∃ i, k.hasPid i () pid) ∧
      (∀ i, k.hasPid i () pid → k'.processList i = .zero ∧
        ∀ j ≠ i, k'.processList j = k.processList j) ∧ (b = false → k' = k) := by
  cases hfind : findProcess pid k with
  | none =>
    have hnone : ∀ i, ¬ k.hasPid i () pid := fun i hi => findProcess_eq_none.1 hfind i hi.symm
    refine ⟨false, k, by rw [OsKernel.processDestroy, hfind], ?_, fun i hi => absurd hi (hnone i),
      fun _ => rfl⟩
    exact iff_of_false Bool.false_ne_true fun hex => hex.elim hnone
  | some i =>
    obtain ⟨hpid, hlive⟩ := findProcess_live hfind
    obtain ⟨d, hdir, -⟩ := hk.directory i hlive
    refine ⟨true, k.destroyed i d, processDestroy_found hfind hdir (hk.pages i),
      iff_of_true rfl ⟨i, hlive, hpid⟩, fun j hj => ?_, fun h => absurd h (by decide)⟩
    obtain rfl : j = i := (h.distinct j i () () pid hj ⟨hlive, hpid⟩).1
    refine ⟨by rw [destroyed_processList, if_pos rfl], fun j' hj' => ?_⟩
    rw [destroyed_processList, if_neg hj']

/-- In every kernel that is reached with fewer than 2^31 creations, the pids of the processes are
nonzero, below the next one and pairwise distinct. A destruction returns true exactly when a process
has the pid; then the block of that process becomes zero and no other one changes. -/
theorem pids_run
    (hrun : Run (Counted ActionStep KernelAction.creates) (fun _ _ => True) (.initial fs, 0) (k, n))
    (hn : n < 2 ^ 31) :
    (∀ i, k.state i ≠ .terminated → (k.processList i).metadata.pid ≠ 0 ∧
      (k.processList i).metadata.pid < k.nextPid) ∧
    (∀ i j, k.state i ≠ .terminated → k.state j ≠ .terminated →
      (k.processList i).metadata.pid = (k.processList j).metadata.pid → i = j) ∧
    ∀ pid, ∃ b k', OsKernel.processDestroy pid k = .ok (b, k') ∧
      (b = true ↔ ∃ i, k.state i ≠ .terminated ∧ (k.processList i).metadata.pid = pid) ∧
      (∀ i, k.state i ≠ .terminated → (k.processList i).metadata.pid = pid →
        k'.processList i = .zero ∧ ∀ j ≠ i, k'.processList j = k.processList j) ∧
      (b = false → k' = k) := by
  obtain ⟨ho, h⟩ := pids_counted hrun hn
  refine ⟨fun i hi => ⟨?_, h.below i _ ⟨hi, rfl⟩⟩, fun i j hi hj heq => ?_, fun pid => ?_⟩
  · exact (UInt32.pos_iff_ne_zero.1 (h.positive ⟨hi, rfl⟩))
  · exact (h.distinct i j () () _ ⟨hi, heq⟩ ⟨hj, rfl⟩).1
  · obtain ⟨b, k', hrun, hb, hone, hnone⟩ := h.destroy_spec ho.consistent pid
    exact ⟨b, k', hrun, hb, fun i hi hpid => hone i ⟨hi, hpid⟩, hnone⟩

end Runs

/-- The pid 1 of the first process is below the next one, and a destruction of it returns true. -/
theorem pids_run_first : ∃ fs k, Run (Counted ActionStep KernelAction.creates) (fun _ _ => True)
    (.initial fs, 0) (k, 1) ∧ k.state 0 = .new ∧ (k.processList 0).metadata.pid < k.nextPid ∧
      ∃ k', processDestroy (k.processList 0).metadata.pid k = .ok (true, k') := by
  obtain ⟨fs, -, ⟨r, hread, hcode⟩, -⟩ := exists_executable
  have h : FindsOne (sampleRequest 'A' 2 0) (.initial fs) 0 0 1 := ⟨rfl, rfl, rfl, rfl, rfl, rfl⟩
  have hstep : ActionStep (.event (.call (.create (sampleRequest 'A' 2 0)))) (.initial fs) _ :=
    .event (callStep_create (h.created hread hcode))
  have hrun : Run (Counted ActionStep KernelAction.creates) (fun _ _ => True) (.initial fs, 0)
    (_, 1) := .single trivial ⟨hstep, rfl⟩
  obtain ⟨hpids, -, hdestroy⟩ := pids_run hrun (by decide)
  refine ⟨fs, _, hrun, rfl, (hpids 0 fun h => nomatch h).2, ?_⟩
  obtain ⟨b, k', hdestroy, hb, -⟩ := hdestroy (Kernel.processList _ 0).metadata.pid
  rw [hb.2 ⟨0, (fun h => nomatch h), rfl⟩] at hdestroy
  exact ⟨k', hdestroy⟩

end OsKernel
