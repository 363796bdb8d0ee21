import HostPimSim.Core.BarrierCounts

/-! Device and region barriers.  The two counters of a key are the numbers of
its tasks that have been committed and finished; a waiter that finds them equal
has missed no task, and one that sleeps has a worker that will wake it. -/
namespace HostPimSim.Core.Pool
open Threads Transition

theorem Balanced.of_waiters {s t : State} (h : Balanced s)
    (ht : t = { s with waiters := t.waiters })
    (hwaiters : ∀ waiter ∈ t.waiters, WaiterFacts s waiter ∧
      ∀ i ∈ waiter.due, tally (commitedFor waiter.key) s.dispatches i = 1) : Balanced t := by
  rw [ht]
  have hsame : SameTasks s { s with waiters := t.waiters } :=
    .of_tasks rfl
  refine h.of_sameTasks hsame h.keys (fun waiter hmem => (hwaiters waiter hmem).2) ?_
  intro waiter hmem
  refine (hwaiters waiter hmem).1.of_advances hsame.advances ?_
  intro _ _ hawaited
  exact hawaited.of_mem (fun _ hworker _ => hworker) rfl (Nat.le_refl _) rfl

/-- Equal counters below the wrap mean that every committed task has run. -/
theorem Balanced.all_ran {s : State} (h : Balanced s) (haccounted : Accounted s)
    {key : Key} {n : Nat} (hn : n ≤ finishedCount s key)
    (hsmall : s.submissions.length < 2 ^ 32)
    (hequal : BitVec.ofNat 32 n = s.futexCntCommited key) {i : Nat}
    (hi : tally (commitedFor key) s.dispatches i = 1) : i ∈ s.ranInPool := by
  have hle := finishedCount_le_commitedCount s key
  have hbound := h.commitedCount_le key
  rw [h.commited key, ← BitVec.toNat_inj] at hequal
  simp only [BitVec.toNat_ofNat] at hequal
  rw [Nat.mod_eq_of_lt (by omega), Nat.mod_eq_of_lt (by omega)] at hequal
  have hfinished : ∀ dispatch ∈ s.dispatches, commitedFor key dispatch = true →
      finishedFor key dispatch = true :=
    forall_of_countP_le (fun _ _ => commitedFor_of_finishedFor)
      (show commitedCount s key ≤ finishedCount s key by omega)
  have hran := haccounted.inPool i
  unfold tally at hi hran
  cases hget : s.dispatches[i]? with
  | none => simp [hget] at hi
  | some dispatch =>
      have hcommited : commitedFor key dispatch = true := by
        by_contra hnot
        simp [hget, hnot] at hi
      have hdone := hfinished dispatch (List.mem_iff_getElem?.mpr ⟨i, hget⟩) hcommited
      have hby : ranByWorker dispatch.pc = true := by
        simp only [finishedFor, Bool.and_eq_true] at hdone
        cases hpc : dispatch.pc <;> cases key <;> simp_all [finishedTo, ranByWorker]
      simp only [hget, Option.any_some, hby, if_true] at hran
      exact List.count_pos_iff.mp (by omega)

theorem balanced_waiter {s t : State} {index : Nat} {waiter : Waiter} (h : Balanced s)
    (haccounted : Accounted s) (hsmall : s.submissions.length < 2 ^ 32)
    (hwaiter : s.waiters[index]? = some waiter)
    (hstep : waiterStep s index waiter = some t) : Balanced t := by
  have hmem : waiter ∈ s.waiters := List.mem_iff_getElem?.mpr ⟨index, hwaiter⟩
  have hdue := h.due waiter hmem
  have hfacts := h.waiters waiter hmem
  have hmove (pc : WaiterPc) (hpc : WaiterFacts s { waiter with pc := pc }) :
      Balanced { s with waiters := s.waiters.set index { waiter with pc := pc } } := by
    refine h.of_waiters rfl (forall_mem_set ?_ ⟨hpc, hdue⟩)
    exact fun other hother => ⟨h.waiters other hother, h.due other hother⟩
  have hbound := h.commitedCount_le waiter.key
  have hle := finishedCount_le_commitedCount s waiter.key
  unfold waiterStep at hstep
  unfold WaiterFacts at hfacts
  cases hpc : waiter.pc with
  | entered =>
      simp only [hpc] at hstep
      split at hstep <;> cases hstep
      exact hmove .polling trivial
  | polling =>
      simp only [hpc, Option.some.injEq] at hstep
      subst hstep
      exact hmove _ ⟨finishedCount s waiter.key, Nat.le_refl _, h.finished waiter.key⟩
  | finishedLoaded finished =>
      simp only [hpc, Option.some.injEq] at hstep hfacts
      subst hstep
      obtain ⟨n, hn, hfinished⟩ := hfacts
      subst hfinished
      refine hmove _ ?_
      split
      · rename_i hequal
        exact fun i hi => h.all_ran haccounted hn hsmall hequal (hdue i hi)
      · rename_i hne
        refine ⟨n, hn, rfl, ?_⟩
        by_contra hnot
        have hsame : n = commitedCount s waiter.key := by
          dsimp only at hnot
          omega
        exact hne (by rw [hsame, h.commited])
  | sleeping finished =>
      simp only [hpc, Option.some.injEq] at hstep hfacts
      subst hstep
      obtain ⟨n, hn, hfinished, hless⟩ := hfacts
      subst hfinished
      refine hmove _ ?_
      split
      · rename_i hequal
        rw [h.finished waiter.key, ← BitVec.toNat_inj] at hequal
        simp only [BitVec.toNat_ofNat] at hequal
        rw [Nat.mod_eq_of_lt (by omega), Nat.mod_eq_of_lt (by omega)] at hequal
        refine .inl ?_
        dsimp only
        omega
      · trivial
  | asleep finished => simp [hpc] at hstep
  | returned => simp [hpc] at hstep

theorem balanced_barrier {s : State} (h : Balanced s) (key : Key) :
    Balanced { s with waiters := s.waiters ++ [⟨key, s.submittedFor key, .entered⟩] } := by
  refine h.of_waiters rfl (forall_mem_push ?_ ⟨trivial, ?_⟩)
  · exact fun other hother => ⟨h.waiters other hother, h.due other hother⟩
  · intro i hi
    obtain ⟨_, hsubmitted⟩ := List.mem_filter.mp hi
    unfold tally
    cases hget : s.dispatches[i]? with
    | none => simp [hget] at hsubmitted
    | some dispatch =>
        simp only [hget, Option.any_some, Bool.and_eq_true] at hsubmitted ⊢
        have hcommited : commitedFor key dispatch = true := by
          simp only [commitedFor, hsubmitted.2, Bool.and_true]
          have hpc := hsubmitted.1
          cases hcase : dispatch.pc <;> cases key <;>
            simp_all [DispatchPc.submitted, commitedTo]
        simp [hcommited]

theorem balanced_new {s : State} (h : Balanced s) (entry : PoolTaskEntry) :
    Balanced { s with dispatches := s.dispatches ++ [⟨entry, .resolved⟩] } := by
  have hcommited (key : Key) :
      (s.dispatches ++ [(⟨entry, .resolved⟩ : Dispatch)]).countP (commitedFor key) =
        s.dispatches.countP (commitedFor key) := by
    cases key <;> simp [List.countP_append, commitedFor, commitedTo]
  have hfinished (key : Key) :
      (s.dispatches ++ [(⟨entry, .resolved⟩ : Dispatch)]).countP (finishedFor key) =
        s.dispatches.countP (finishedFor key) := by
    cases key <;> simp [List.countP_append, finishedFor, finishedTo]
  refine ⟨?_, ?_, ?_, h.keys, ?_, ?_⟩
  · intro key
    rw [commitedCount, hcommited key]
    exact h.commited key
  · intro key
    rw [finishedCount, hfinished key]
    exact h.finished key
  · simpa [List.countP_append, entered, active] using h.total
  · intro waiter hmem i hi
    rw [tally_push (by cases waiter.key <;> simp [commitedFor, commitedTo])]
    exact h.due waiter hmem i hi
  · intro waiter hmem
    refine (h.waiters waiter hmem).of_advances
      ⟨fun key => Nat.le_of_eq (hcommited key).symm,
        fun key => Nat.le_of_eq (hfinished key).symm, fun _ => id⟩ ?_
    intro _ _ hawaited
    exact hawaited.of_mem (fun _ hworker _ => hworker) (hfinished _)
      (Nat.le_of_eq (hcommited _).symm) rfl

theorem submissions_le {s t : State} {action : Action} (hstep : step s action = some t) :
    s.submissions.length ≤ t.submissions.length := by
  cases action with
  | dispatch entry | barrier key | setTeardown value =>
      cases hstep
      exact Nat.le_refl _
  | advance index notified =>
      obtain ⟨dispatch, _, hmove⟩ := Option.bind_eq_some_iff.mp hstep
      unfold dispatchStep at hmove
      cases hpc : dispatch.pc with
      | checked =>
          rw [hpc] at hmove
          dsimp only at hmove
          split at hmove
          · cases hmove
          · split at hmove
            · cases hmove
              exact Nat.le_refl _
            · obtain ⟨workers, _, rfl⟩ := Option.map_eq_some_iff.mp hmove
              simp
      | _ =>
          rw [hpc] at hmove
          cases hmove
          try exact Nat.le_refl _
  | pushFails index =>
      obtain ⟨dispatch, _, hmove⟩ := Option.bind_eq_some_iff.mp hstep
      unfold pushFailsStep at hmove
      split at hmove <;> cases hmove
      exact Nat.le_refl _
  | worker index =>
      obtain ⟨worker, _, hmove⟩ := Option.bind_eq_some_iff.mp hstep
      unfold workerStep at hmove
      cases worker with
      | ready =>
          dsimp only at hmove
          split at hmove
          · cases hmove
          · split at hmove <;> cases hmove <;> exact Nat.le_refl _
      | blocked | exited => cases hmove
      | _ =>
          cases hmove
          exact Nat.le_refl _
  | poolStart limit hardware =>
      simp only [step] at hstep
      split at hstep <;> cases hstep
      exact Nat.le_of_eq (by rw [(poolStart_frame s limit hardware).1.submissions])
  | poolStop caller =>
      simp only [step] at hstep
      split at hstep <;> cases hstep
      exact Nat.le_of_eq (by rw [(poolStop_frame s caller).1.submissions])
  | setMaxActiveDpus caller concurrency =>
      simp only [step] at hstep
      split at hstep <;> cases hstep
      exact Nat.le_of_eq (by rw [(setMaxActiveDpus_frame s caller concurrency).1.submissions])
  | control spawned => exact Nat.le_of_eq (by rw [(controlStep_frame hstep).1.submissions])
  | waiter index =>
      obtain ⟨waiter, _, hmove⟩ := Option.bind_eq_some_iff.mp hstep
      exact Nat.le_of_eq (by rw [(waiterStep_frame hmove).1.submissions])

theorem poolStart_waiters (s : State) (limit hardware : Nat) :
    (poolStart s limit hardware).waiters = s.waiters := by
  unfold poolStart poolStartLocked
  dsimp only
  split_ifs <;> rfl

theorem poolStop_waiters (s : State) (caller : Option Nat) :
    (poolStop s caller).waiters = s.waiters := by
  unfold poolStop
  dsimp only
  split_ifs <;> rfl

theorem setMaxActiveDpus_waiters (s : State) (caller : Option Nat) (concurrency : Nat) :
    (setMaxActiveDpus s caller concurrency).waiters = s.waiters := by
  unfold setMaxActiveDpus
  dsimp only
  split_ifs <;> rfl

theorem balanced_step (s : State) (action : Action) (t : State) (h : Balanced s)
    (haccounted : Accounted s) (hsmall : s.submissions.length < 2 ^ 32)
    (hstep : step s action = some t) : Balanced t := by
  cases action with
  | dispatch entry =>
      cases hstep
      exact balanced_new h entry
  | advance index notified =>
      obtain ⟨dispatch, hdispatch, hmove⟩ := Option.bind_eq_some_iff.mp hstep
      exact balanced_dispatch h hdispatch hmove
  | pushFails index =>
      obtain ⟨dispatch, hdispatch, hmove⟩ := Option.bind_eq_some_iff.mp hstep
      unfold pushFailsStep at hmove
      split at hmove <;> cases hmove
      rename_i hguard
      refine balanced_move h hdispatch ?_ (by rw [hguard.1]; rfl) rfl
        ⟨rfl, rfl, rfl, rfl, rfl, rfl⟩
      intro key
      rw [hguard.1]
      cases key <;> exact ⟨rfl, rfl⟩
  | worker index =>
      obtain ⟨worker, hworker, hmove⟩ := Option.bind_eq_some_iff.mp hstep
      exact balanced_worker h haccounted hworker hmove
  | poolStart limit hardware =>
      simp only [step] at hstep
      split at hstep <;> cases hstep
      obtain ⟨hsame, hworkers⟩ := poolStart_frame s limit hardware
      refine h.of_control hsame (hworkers ▸ .kept) ?_
      rw [poolStart_waiters]
      exact fun waiter hmem => ⟨waiter, hmem, .inl rfl⟩
  | poolStop caller =>
      simp only [step] at hstep
      split at hstep <;> cases hstep
      obtain ⟨hsame, hworkers⟩ := poolStop_frame s caller
      refine h.of_control hsame (hworkers ▸ .kept) ?_
      rw [poolStop_waiters]
      exact fun waiter hmem => ⟨waiter, hmem, .inl rfl⟩
  | setMaxActiveDpus caller concurrency =>
      simp only [step] at hstep
      split at hstep <;> cases hstep
      obtain ⟨hsame, hworkers⟩ := setMaxActiveDpus_frame s caller concurrency
      refine h.of_control hsame (hworkers ▸ .kept) ?_
      rw [setMaxActiveDpus_waiters]
      exact fun waiter hmem => ⟨waiter, hmem, .inl rfl⟩
  | control spawned =>
      obtain ⟨hsame, hchange⟩ := controlStep_frame hstep
      exact h.of_control hsame hchange (controlStep_waiters hstep)
  | barrier key =>
      cases hstep
      exact balanced_barrier h key
  | waiter index =>
      obtain ⟨waiter, hwaiter, hmove⟩ := Option.bind_eq_some_iff.mp hstep
      exact balanced_waiter h haccounted hsmall hwaiter hmove
  | setTeardown value =>
      cases hstep
      refine h.of_control (.of_tasks rfl) .kept ?_
      exact fun waiter hmem => ⟨waiter, hmem, .inl rfl⟩

/-- The worker has no task and no accounting to do. -/
def idleWorker : WorkerPc → Bool
  | .ready | .blocked | .exited => true
  | _ => false

theorem Accounted.settled {s : State} (h : Accounted s) (hqueue : s.taskQueue = [])
    (hidle : ∀ worker ∈ s.workers, idleWorker worker = true) (key : Key) :
    finishedCount s key = commitedCount s key := by
  have hnone (i : Nat) : s.workers.countP (holds i) = 0 := by
    rw [List.countP_eq_zero]
    intro worker hworker
    have := hidle worker hworker
    cases worker <;> simp_all [idleWorker, holds, holding]
  have hsub : ∀ dispatch ∈ s.dispatches, commitedFor key dispatch = true →
      finishedFor key dispatch = true := by
    intro dispatch hdispatch hcommited
    obtain ⟨i, hget⟩ := List.mem_iff_getElem?.mp hdispatch
    have howner := h.owner i
    rw [hqueue, hnone i, tally_of_getElem? hget] at howner
    have hentered := entered_of_commitedFor hcommited
    simp only [commitedFor, Bool.and_eq_true] at hcommited
    simp only [finishedFor, hcommited.2, Bool.and_true]
    cases hpc : dispatch.pc <;> cases key <;> simp_all [entered, active, finishedTo]
  exact Nat.le_antisymm (finishedCount_le_commitedCount s key) (List.countP_mono_left hsub)

theorem Balanced.not_asleep {s : State} (h : Balanced s) (haccounted : Accounted s)
    (hqueue : s.taskQueue = []) (hidle : ∀ worker ∈ s.workers, idleWorker worker = true)
    {waiter : Waiter} (hmem : waiter ∈ s.waiters) (finished : BitVec 32) :
    waiter.pc ≠ .asleep finished := by
  intro hasleep
  have hfacts := h.waiters waiter hmem
  simp only [WaiterFacts, hasleep] at hfacts
  rcases hfacts with hless | ⟨worker, hworker, hwakes⟩
  · have hsettled := haccounted.settled hqueue hidle waiter.key
    omega
  · have := hidle worker hworker
    cases worker <;> simp_all [idleWorker, wakes]

def BalancedBelowWrap (s : State) : Prop :=
  Accounted s ∧ (s.submissions.length < 2 ^ 32 → Balanced s)

theorem balancedBelowWrap_step (s : State) (action : Action) (t : State)
    (h : BalancedBelowWrap s) (hstep : step s action = some t) : BalancedBelowWrap t := by
  refine ⟨accounted_step s action t h.1 hstep, fun hsmall => ?_⟩
  have hbefore := submissions_le hstep
  exact balanced_step s action t (h.2 (by omega)) h.1 (by omega) hstep

/-- A barrier that has returned has seen every task submitted before its call
run, and no waiter sleeps while the queue is empty and the workers are idle. -/
theorem barrier_sound (actions : List Action) (t : State)
    (hrun : run step init actions = some t) (hsmall : t.submissions.length < 2 ^ 32) :
    (∀ waiter ∈ t.waiters, waiter.pc = .returned → ∀ i ∈ waiter.due, i ∈ t.ranInPool) ∧
      (t.taskQueue = [] → (∀ worker ∈ t.workers, idleWorker worker = true) →
        ∀ waiter ∈ t.waiters, ∀ finished, waiter.pc ≠ .asleep finished) := by
  have hinv := run_invariant balancedBelowWrap_step
    ⟨accounted_init, fun _ => balanced_init⟩ hrun
  obtain ⟨haccounted, hbalanced⟩ := hinv
  have hbalanced := hbalanced hsmall
  refine ⟨?_, ?_⟩
  · intro waiter hmem hreturned
    have hfacts := hbalanced.waiters waiter hmem
    simpa only [WaiterFacts, hreturned] using hfacts
  · intro hqueue hidle waiter hmem finished
    exact hbalanced.not_asleep haccounted hqueue hidle hmem finished

/-- One worker, one task, and a device barrier that has to sleep for it. -/
def sleptBarrier : List Action :=
  [.poolStart 1 4, .control true, .control true, .control true,
    .dispatch ⟨7, 0, 0, 1, 3, 0⟩, .advance 0 0, .advance 0 0, .advance 0 0, .advance 0 0,
    .advance 0 0, .barrier none, .waiter 0, .waiter 0, .waiter 0, .waiter 0,
    .worker 0, .worker 0, .worker 0, .worker 0, .worker 0, .waiter 0, .waiter 0]

theorem barrier_sound_sleptBarrier :
    ∃ t, run step init sleptBarrier = some t ∧
      (∃ waiter ∈ t.waiters, waiter.pc = .returned ∧ waiter.due = [0] ∧
        ∀ i ∈ waiter.due, i ∈ t.ranInPool) := by
  obtain ⟨t, hrun, hcount, hmem⟩ : ∃ t, run step init sleptBarrier = some t ∧
      t.submissions.length = 1 ∧ (⟨none, [0], .returned⟩ : Waiter) ∈ t.waiters :=
    exists_run (by decide +kernel)
  have hsmall : t.submissions.length < 2 ^ 32 := by
    rw [hcount]
    decide
  have hsound := (barrier_sound sleptBarrier t hrun hsmall).1
  exact ⟨t, hrun, ⟨none, [0], .returned⟩, hmem, rfl, rfl, hsound _ hmem rfl⟩

end HostPimSim.Core.Pool
