import HostPimSim.Core.PoolService

/-! The pool comes to rest, and then every dispatch has run exactly once. -/
namespace HostPimSim.Core.Pool
open Threads Transition

/-- No dispatching thread, worker or control call can move. -/
def AtRest (s : State) : Prop :=
  (∀ index notified, step s (.advance index notified) = none) ∧
    (∀ index, step s (.worker index) = none) ∧
    ∀ spawned, step s (.control spawned) = none

theorem atRest_poolMutex {s : State} (h : Accounted s) (hrest : AtRest s) :
    s.poolMutex = none := by
  by_contra hlocked
  obtain ⟨i, hi⟩ := Option.ne_none_iff_exists'.mp hlocked
  have hmutex := h.mutex i
  have hstuck := hrest.1 i 0
  unfold tally at hmutex
  cases hget : s.dispatches[i]? with
  | none => simp [hget, hi] at hmutex
  | some dispatch =>
      simp only [hget, Option.any_some, hi, if_true] at hmutex
      cases hpc : dispatch.pc <;> simp [hpc, submitting] at hmutex <;>
        simp [step, hget, dispatchStep, hpc] at hstuck

theorem atRest_workers {s : State} (hmutex : s.poolMutex = none) (hrest : AtRest s) :
    ∀ worker ∈ s.workers, worker = .blocked ∨ worker = .exited := by
  intro worker hmem
  obtain ⟨i, hi⟩ := List.mem_iff_getElem?.mp hmem
  have hstuck := hrest.2.1 i
  cases worker with
  | blocked => exact .inl rfl
  | exited => exact .inr rfl
  | ready =>
      cases hqueue : s.taskQueue <;> simp [step, hi, workerStep, hmutex, hqueue] at hstuck
  | _ => simp [step, hi, workerStep] at hstuck

theorem atRest_control {s : State} (h : Served s) (hmutex : s.poolMutex = none)
    (hrest : AtRest s) : s.control = .idle := by
  have hworkers := atRest_workers hmutex hrest
  have hphase := h.phase
  have hstuck := hrest.2.2 true
  unfold PhaseFacts at hphase
  simp only [step, controlStep] at hstuck
  cases hcontrol : s.control with
  | idle => rfl
  | spawning left => cases left <;> simp [hcontrol] at hstuck
  | expanding left target => cases left <;> simp [hcontrol] at hstuck
  | stopping after =>
      simp only [hcontrol] at hstuck
      split at hstuck <;> cases hstuck
  | joining after =>
      simp only [hcontrol] at hstuck hphase
      have hexited : ∀ worker ∈ s.workers, worker = .exited := by
        intro worker hmem
        rcases hworkers worker hmem with rfl | hdone
        · exact absurd hmem hphase.2.2
        · exact hdone
      rw [if_pos hexited] at hstuck
      cases hstuck
  | finishing after => cases after <;> simp [hcontrol] at hstuck
  | _ => simp [hcontrol] at hstuck

theorem exists_notifyOne (workers : List WorkerPc) :
    ∃ index notified, notifyOne workers index = some notified := by
  by_cases hblocked : .blocked ∈ workers
  · obtain ⟨index, hindex⟩ := List.mem_iff_getElem?.mp hblocked
    exact ⟨index, _, if_pos hindex⟩
  · have hnone : workers[0]? ≠ some .blocked :=
      fun hfirst => hblocked (List.mem_iff_getElem?.mpr ⟨0, hfirst⟩)
    exact ⟨0, workers, by simp [notifyOne, hnone, hblocked]⟩

theorem atRest_dispatch {s : State} (h : Accounted s) (hserved : Served s)
    (hrest : AtRest s) {index : Nat} {dispatch : Dispatch}
    (hdispatch : s.dispatches[index]? = some dispatch) :
    dispatch.pc = .ran ∨ dispatch.pc = .regionFinished := by
  have hmutex := atRest_poolMutex h hrest
  have hworkers := atRest_workers hmutex hrest
  have hcontrol := atRest_control hserved hmutex hrest
  have hidle : ∀ worker ∈ s.workers, awake worker = false ∧ holding worker = none := by
    intro worker hmem
    rcases hworkers worker hmem with rfl | rfl <;> exact ⟨rfl, rfl⟩
  have hqueue : s.taskQueue = [] := by
    by_contra hsome
    rcases hserved.served hsome with ⟨worker, hmem, hawake⟩ | hspawn
    · simp [(hidle worker hmem).1] at hawake
    · simp [hcontrol, willSpawn] at hspawn
  have hinactive : active dispatch.pc = false := by
    have howner := h.owner index
    have hnone : s.workers.countP (holds index) = 0 := by
      rw [List.countP_eq_zero]
      intro worker hmem
      simp [holds_of_idle (hidle worker hmem).2]
    rw [tally_of_getElem? hdispatch, hqueue, hnone] at howner
    by_contra hactive
    simp [hactive] at howner
  obtain ⟨notified, workers, hnotify⟩ := exists_notifyOne s.workers
  have hstuck := hrest.1 index notified
  simp only [step, hdispatch, Option.bind_some, dispatchStep] at hstuck
  cases hpc : dispatch.pc with
  | ran => exact .inl rfl
  | regionFinished => exact .inr rfl
  | checked =>
      simp only [hpc, hmutex, hnotify] at hstuck
      cases hrunning : s.poolRunning <;> simp [hrunning] at hstuck
  | resolved | direct => simp [hpc] at hstuck
  | _ => simp [hpc, active] at hinactive

def dispatchCost : DispatchPc → Nat
  | .resolved => 14
  | .checked => 13
  | .pushed => 11
  | .deviceCommited => 10
  | .regionCommited => 9
  | .accepted => 8
  | .direct => 1
  | .taken | .executed | .deviceFinished | .regionFinished | .ran => 0

def workerCost : WorkerPc → Nat
  | .blocked | .exited => 0
  | .ready => 1
  | .waking _ (some _) => 2
  | .counted _ (some _) _ => 3
  | .finishing _ (some _) => 4
  | .waking _ none => 5
  | .counted _ none _ => 6
  | .finishing _ none => 7
  | .running _ => 8

def restartCost : AfterJoin → Nat
  | .startFailed | .stopped => 0
  | .restart count => 2 * count

def controlCost (workers : Nat) : ControlPc → Nat
  | .idle => 0
  | .starting count => 2 * count + 2
  | .spawning left | .expanding left _ => 2 * left + 1
  | .stopping after => restartCost after + workers + 8
  | .notifying after => restartCost after + workers + 7
  | .waking after => restartCost after + 6
  | .joining after => restartCost after + 5
  | .joined after => restartCost after + 4
  | .finishing after => restartCost after + 3

/-- A bound on the steps that dispatching threads, workers and the control call
can still take when no new call is made. -/
def work (s : State) : Nat :=
  (s.dispatches.map fun dispatch => dispatchCost dispatch.pc).sum +
    (s.workers.map workerCost).sum + controlCost s.workers.length s.control

/-- Moves of calls already made, with thread creation succeeding. -/
def internal : Action → Bool
  | .advance _ _ | .worker _ | .control true => true
  | _ => false

theorem workerCost_notifyOne {workers notified : List WorkerPc} {index : Nat}
    (h : notifyOne workers index = some notified) :
    (notified.map workerCost).sum ≤ (workers.map workerCost).sum + 1 ∧
      notified.length = workers.length := by
  unfold notifyOne at h
  split at h
  · rename_i hblocked
    cases h
    have := sum_map_set_add workerCost .ready hblocked
    simp only [workerCost] at this
    exact ⟨by omega, by simp⟩
  · split at h <;> cases h
    exact ⟨by omega, rfl⟩

theorem workerCost_notify (workers : List WorkerPc) :
    ((workers.map WorkerPc.notify).map workerCost).sum ≤
      (workers.map workerCost).sum + workers.length := by
  induction workers with
  | nil => simp
  | cons worker workers ih =>
      have hone : workerCost worker.notify ≤ workerCost worker + 1 := by
        cases worker <;> simp [WorkerPc.notify, workerCost]
      simp only [List.map_cons, List.sum_cons, List.length_cons]
      omega

theorem work_dispatch {s t : State} {index notified : Nat} {dispatch : Dispatch}
    (hdispatch : s.dispatches[index]? = some dispatch)
    (hstep : dispatchStep s index notified dispatch = some t) : work t < work s := by
  have hcost (pc : DispatchPc) := sum_map_set_add
    (fun d : Dispatch => dispatchCost d.pc) { dispatch with pc := pc } hdispatch
  unfold dispatchStep at hstep
  unfold work
  cases hpc : dispatch.pc with
  | resolved =>
      simp only [hpc, Option.some.injEq] at hstep
      subst hstep
      cases s.poolRunning
      · have := hcost .direct
        simp only [hpc, dispatchCost, Bool.false_eq_true, if_false] at this ⊢
        omega
      · have := hcost .checked
        simp only [hpc, dispatchCost, if_true] at this ⊢
        omega
  | checked =>
      simp only [hpc] at hstep
      split at hstep
      · cases hstep
      · split at hstep
        · cases hstep
          have := hcost .direct
          simp only [hpc, dispatchCost] at this ⊢
          omega
        · obtain ⟨workers, hnotify, rfl⟩ := Option.map_eq_some_iff.mp hstep
          obtain ⟨hworkers, hlength⟩ := workerCost_notifyOne hnotify
          have := hcost .pushed
          simp only [hpc, dispatchCost, hlength] at this ⊢
          omega
  | pushed =>
      simp only [hpc, Option.some.injEq] at hstep
      subst hstep
      have := hcost .deviceCommited
      simp only [hpc, dispatchCost] at this ⊢
      omega
  | deviceCommited =>
      simp only [hpc, Option.some.injEq] at hstep
      subst hstep
      have := hcost .regionCommited
      simp only [hpc, dispatchCost] at this ⊢
      omega
  | regionCommited =>
      simp only [hpc, Option.some.injEq] at hstep
      subst hstep
      have := hcost .accepted
      simp only [hpc, dispatchCost] at this ⊢
      omega
  | direct =>
      simp only [hpc, Option.some.injEq] at hstep
      subst hstep
      have := hcost .ran
      simp only [hpc, dispatchCost] at this ⊢
      omega
  | accepted | taken | executed | deviceFinished | regionFinished | ran =>
      simp [hpc] at hstep

theorem dispatchCost_waiting {pc : DispatchPc} (h : waiting pc = true) :
    8 ≤ dispatchCost pc := by
  cases pc <;> simp_all [waiting, dispatchCost]

theorem work_worker {s t : State} {index : Nat} {worker : WorkerPc} (h : Accounted s)
    (hworker : s.workers[index]? = some worker)
    (hstep : workerStep s index worker = some t) : work t < work s := by
  have hmem : worker ∈ s.workers := List.mem_iff_getElem?.mpr ⟨index, hworker⟩
  have hcost (moved : WorkerPc) := sum_map_set_add workerCost moved hworker
  have hmark {task : Task} {pc : DispatchPc} (marked : DispatchPc)
      (hget : s.dispatches[task.dispatch]? = some ⟨task.entry, pc⟩) := sum_map_set_add
    (fun d : Dispatch => dispatchCost d.pc) ⟨task.entry, marked⟩ hget
  unfold workerStep at hstep
  unfold work
  cases worker with
  | ready =>
      dsimp only at hstep
      split at hstep
      · cases hstep
      · cases hqueue : s.taskQueue with
        | nil =>
            simp only [hqueue, Option.some.injEq] at hstep
            subst hstep
            cases s.poolRunning
            · have := hcost .exited
              simp only [workerCost, Bool.false_eq_true, if_false, List.length_set] at this ⊢
              omega
            · have := hcost .blocked
              simp only [workerCost, if_true, List.length_set] at this ⊢
              omega
        | cons task rest =>
            simp only [hqueue, Option.some.injEq] at hstep
            subst hstep
            obtain ⟨pc, hget, hwaiting⟩ := h.queued task (by simp [hqueue])
            have hpaid := dispatchCost_waiting hwaiting
            have htaken := hmark .taken hget
            have hfree : dispatchCost .taken = 0 := rfl
            have := hcost (.running task)
            simp only [workerCost, hfree, List.length_set] at this htaken ⊢
            omega
  | running task =>
      cases hstep
      have hexecuted := hmark .executed (h.held _ hmem task .taken rfl)
      have := hcost (.finishing task none)
      simp only [workerCost, dispatchCost, List.length_set] at this hexecuted ⊢
      omega
  | finishing task key =>
      cases hstep
      cases key with
      | none =>
          have hfinished := hmark .deviceFinished (h.held _ hmem task .executed rfl)
          have := hcost (.counted task none (s.futexCntFinished none + 1))
          simp only [workerCost, dispatchCost, finishedPc, List.length_set] at this hfinished ⊢
          omega
      | some region =>
          have hfinished := hmark .regionFinished (h.held _ hmem task .deviceFinished rfl)
          have := hcost (.counted task (some region) (s.futexCntFinished (some region) + 1))
          simp only [workerCost, dispatchCost, finishedPc, List.length_set] at this hfinished ⊢
          omega
  | counted task key finished =>
      cases hstep
      cases key with
      | none =>
          split
          · have := hcost (.waking task none)
            simp only [workerCost, List.length_set] at this ⊢
            omega
          · have := hcost (.finishing task (some task.entry.region))
            simp only [workerCost, WorkerPc.next, List.length_set] at this ⊢
            omega
      | some region =>
          split
          · have := hcost (.waking task (some region))
            simp only [workerCost, List.length_set] at this ⊢
            omega
          · have := hcost .ready
            simp only [workerCost, WorkerPc.next, List.length_set] at this ⊢
            omega
  | waking task key =>
      cases hstep
      cases key with
      | none =>
          have := hcost (.finishing task (some task.entry.region))
          simp only [workerCost, WorkerPc.next, List.length_set] at this ⊢
          omega
      | some region =>
          have := hcost .ready
          simp only [workerCost, WorkerPc.next, List.length_set] at this ⊢
          omega
  | blocked | exited => cases hstep

theorem work_control {s t : State} (h : Served s) (hstep : controlStep s true = some t) :
    work t < work s := by
  have hphase := h.phase
  unfold PhaseFacts at hphase
  unfold controlStep at hstep
  unfold work
  cases hcontrol : s.control with
  | idle => simp [hcontrol] at hstep
  | spawning left =>
      cases left <;> simp only [hcontrol, if_true, Option.some.injEq] at hstep <;> subst hstep
      · simp only [State.return, controlCost]
        omega
      · simp only [controlCost, List.map_append, List.sum_append, List.map_cons, List.map_nil,
          List.sum_cons, List.sum_nil, workerCost]
        omega
  | expanding left target =>
      cases left <;> simp only [hcontrol, if_true, Option.some.injEq] at hstep <;> subst hstep
      · simp only [State.return, controlCost]
        omega
      · simp only [controlCost, List.map_append, List.sum_append, List.map_cons, List.map_nil,
          List.sum_cons, List.sum_nil, workerCost]
        omega
  | stopping after =>
      simp only [hcontrol] at hstep
      split at hstep <;> cases hstep <;> simp only [controlCost] <;> omega
  | notifying after =>
      simp only [hcontrol, Option.some.injEq] at hstep
      subst hstep
      have := workerCost_notify s.workers
      simp only [controlCost]
      omega
  | joining after =>
      simp only [hcontrol] at hstep
      split at hstep <;> cases hstep
      simp only [controlCost, List.map_nil, List.sum_nil]
      omega
  | finishing after =>
      cases after with
      | startFailed =>
          simp only [hcontrol] at hphase
          exact absurd rfl hphase.2.1
      | stopped =>
          simp only [hcontrol, Option.some.injEq] at hstep
          subst hstep
          simp only [State.return, controlCost]
          omega
      | restart count =>
          simp only [hcontrol, Option.some.injEq] at hstep
          subst hstep
          unfold poolStartLocked
          split_ifs <;> simp only [State.return, controlCost, restartCost] <;> omega
  | starting count | waking after | joined after =>
      simp only [hcontrol, Option.some.injEq] at hstep
      subst hstep
      simp only [controlCost]
      omega

theorem work_internal {s t : State} {action : Action} (h : Accounted s ∧ Served s)
    (hinternal : internal action = true) (hstep : step s action = some t) :
    work t < work s := by
  cases action with
  | advance index notified =>
      obtain ⟨dispatch, hdispatch, hmove⟩ := Option.bind_eq_some_iff.mp hstep
      exact work_dispatch hdispatch hmove
  | worker index =>
      obtain ⟨worker, hworker, hmove⟩ := Option.bind_eq_some_iff.mp hstep
      exact work_worker h.1 hworker hmove
  | control spawned =>
      cases spawned with
      | false => cases hinternal
      | true => exact work_control h.2 hstep
  | _ => cases hinternal

theorem internal_step (s : State) (action : Action) (t : State)
    (h : Accounted s ∧ Served s) (hinternal : internal action = true)
    (hstep : step s action = some t) : (Accounted t ∧ Served t) ∧ work t < work s := by
  refine ⟨served_step s action t h ?_ hstep, work_internal h hinternal hstep⟩
  rintro rfl
  cases hinternal

theorem runs_le_one {s : State} (h : Accounted s) (i : Nat) :
    s.ranDirectly.count i + s.ranInPool.count i ≤ 1 ∧
      (0 < s.ranDirectly.count i → s.submissions.count i = 0) ∧
      (0 < s.ranInPool.count i → 0 < s.submissions.count i) := by
  rw [h.direct i, h.inPool i, h.submitted i]
  unfold tally
  cases hget : s.dispatches[i]? with
  | none => simp
  | some dispatch =>
      cases hpc : dispatch.pc <;> simp [hpc, entered, active, ranByWorker]

/-- Every dispatch is run at most once, directly if `pool_submit` refused it and
by a worker if not, in the order of submission; stops and shrinking resizes
that succeed have drained what was accepted before; and the threads come to
rest after at most `work` steps, with nothing left over. -/
theorem dispatch_runs_exactly_once (actions : List Action) (t : State)
    (hspawn : ∀ action ∈ actions, action ≠ .control false)
    (hrun : run step init actions = some t) :
    (∀ i, t.ranDirectly.count i + t.ranInPool.count i ≤ 1) ∧
      (∀ i ∈ t.ranDirectly, i ∉ t.submissions) ∧ (∀ i ∈ t.ranInPool, i ∈ t.submissions) ∧
      t.submissions = t.dequeued ++ t.taskQueue.map Task.dispatch ∧
      (∀ ret ∈ t.returns, ret.call.drains = true → ret.result = .success →
        ∀ i ∈ ret.call.before, i ∈ t.ranInPool) ∧
      (∀ more u, (∀ action ∈ more, internal action = true) →
        run step t more = some u → more.length ≤ work t) ∧
      (AtRest t → ∀ i < t.dispatches.length,
        t.ranDirectly.count i + t.ranInPool.count i = 1) := by
  obtain ⟨haccounted, hserved⟩ := run_invariant_of_meets served_step
    ⟨accounted_init, served_init⟩ (meets_of_forall hspawn init) hrun
  refine ⟨fun i => (runs_le_one haccounted i).1, ?_, ?_, haccounted.fifo,
    hserved.returned, ?_, ?_⟩
  · intro i hi
    exact List.count_eq_zero.mp
      ((runs_le_one haccounted i).2.1 (List.count_pos_iff.mpr hi))
  · intro i hi
    exact List.count_pos_iff.mp
      ((runs_le_one haccounted i).2.2 (List.count_pos_iff.mpr hi))
  · intro more u hinternal hmore
    have hboth : Accounted t ∧ Served t := ⟨haccounted, hserved⟩
    exact run_length_le internal_step hboth hinternal hmore
  · intro hrest i hi
    have hget := List.getElem?_eq_getElem hi
    rw [haccounted.direct i, haccounted.inPool i, tally_of_getElem? hget,
      tally_of_getElem? hget]
    rcases atRest_dispatch haccounted hserved hrest hget with hpc | hpc <;>
      simp [hpc, ranByWorker]

/-- One worker, one task, and a stop that finds the task still queued. -/
def drainedStop : List Action :=
  List.flatten [[.poolStart 1 4], List.replicate 3 (.control true),
    [.dispatch ⟨0, 8, 0, 5, 1, 0⟩], List.replicate 5 (.advance 0 0), [.poolStop none],
    List.replicate 3 (.control true), List.replicate 9 (.worker 0),
    List.replicate 3 (.control true)]

theorem dispatch_runs_exactly_once_drainedStop :
    ∃ t, run step init drainedStop = some t ∧
      t.returns = [⟨⟨false, []⟩, .success⟩, ⟨⟨true, [0]⟩, .success⟩] ∧ 0 ∈ t.ranInPool := by
  obtain ⟨t, hrun, hreturns⟩ : ∃ t, run step init drainedStop = some t ∧
      t.returns = [⟨⟨false, []⟩, .success⟩, ⟨⟨true, [0]⟩, .success⟩] :=
    exists_run (by decide +kernel)
  have hdrained := (dispatch_runs_exactly_once drainedStop t (by decide) hrun).2.2.2.2.1
  exact ⟨t, hrun, hreturns, hdrained ⟨⟨true, [0]⟩, .success⟩ (by simp [hreturns]) rfl rfl 0
    (by simp)⟩

/-- A handler that stops its own pool gets `PIM_ERR_BUSY` while its task is still
running. -/
theorem refused_stop_returns_undrained :
    ¬ ∀ (actions : List Action) (t : State),
      (∀ action ∈ actions, action ≠ .control false) → run step init actions = some t →
      ∀ ret ∈ t.returns, ret.call.drains = true →
        ∀ i ∈ ret.call.before, i ∈ t.ranInPool := by
  intro h
  obtain ⟨t, hrun, hreturned, hwaiting⟩ : ∃ t, run step init
      [.poolStart 1 4, .control true, .control true, .control true,
        .dispatch ⟨0, 8, 0, 5, 1, 0⟩, .advance 0 0, .advance 0 0, .advance 0 0, .advance 0 0,
        .advance 0 0, .worker 0, .poolStop (some 0)] = some t ∧
      (⟨⟨true, [0]⟩, .busy⟩ : Return) ∈ t.returns ∧ 0 ∉ t.ranInPool :=
    exists_run (by decide +kernel)
  exact hwaiting (h _ t (by decide) hrun _ hreturned rfl 0 (by decide))

end HostPimSim.Core.Pool
