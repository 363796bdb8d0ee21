import HostPimSim.Core.Pool

/-! Where every task of the pool is.  `Accounted` follows each dispatch from the
push to the end of the worker's accounting, through every step. -/
namespace HostPimSim.Core.Pool
open Threads Transition

/-- Inside the critical section of `pool_submit`, after the push. -/
def submitting : DispatchPc → Bool
  | .pushed | .deviceCommited | .regionCommited => true
  | _ => false

def waiting : DispatchPc → Bool
  | .pushed | .deviceCommited | .regionCommited | .accepted => true
  | _ => false

/-- Pushed, and not yet through with the region counters. -/
def active : DispatchPc → Bool
  | .pushed | .deviceCommited | .regionCommited | .accepted | .taken | .executed
  | .deviceFinished => true
  | _ => false

def entered : DispatchPc → Bool
  | .regionFinished => true
  | pc => active pc

def ranByWorker : DispatchPc → Bool
  | .executed | .deviceFinished | .regionFinished => true
  | _ => false

def inWorker : DispatchPc → Bool
  | .taken | .executed | .deviceFinished => true
  | _ => false

def holding : WorkerPc → Option (Task × DispatchPc)
  | .running task => some (task, .taken)
  | .finishing task none => some (task, .executed)
  | .counted task none _ | .waking task none | .finishing task (some _) =>
      some (task, .deviceFinished)
  | .counted _ (some _) _ | .waking _ (some _) | .ready | .blocked | .exited => none

def holds (index : Nat) (worker : WorkerPc) : Bool :=
  (holding worker).any fun held => held.1.dispatch == index

structure Accounted (s : State) : Prop where
  mutex : ∀ i, tally (fun d => submitting d.pc) s.dispatches i =
    if s.poolMutex = some i then 1 else 0
  queued : ∀ task ∈ s.taskQueue, ∃ pc,
    s.dispatches[task.dispatch]? = some ⟨task.entry, pc⟩ ∧ waiting pc = true
  held : ∀ worker ∈ s.workers, ∀ task pc, holding worker = some (task, pc) →
    s.dispatches[task.dispatch]? = some ⟨task.entry, pc⟩
  owner : ∀ i, (s.taskQueue.map Task.dispatch).count i + s.workers.countP (holds i) =
    tally (fun d => active d.pc) s.dispatches i
  submitted : ∀ i, s.submissions.count i = tally (fun d => entered d.pc) s.dispatches i
  direct : ∀ i, s.ranDirectly.count i = tally (fun d => d.pc == .ran) s.dispatches i
  inPool : ∀ i, s.ranInPool.count i = tally (fun d => ranByWorker d.pc) s.dispatches i
  fifo : s.submissions = s.dequeued ++ s.taskQueue.map Task.dispatch

theorem accounted_init : Accounted init where
  mutex := by simp [init, tally]
  queued := by simp [init]
  held := by simp [init]
  owner := by simp [init, tally]
  submitted := by simp [init, tally]
  direct := by simp [init, tally]
  inPool := by simp [init, tally]
  fifo := rfl

theorem holds_of_holding {worker : WorkerPc} {task : Task} {pc : DispatchPc}
    (h : holding worker = some (task, pc)) (i : Nat) :
    holds i worker = (task.dispatch == i) := by
  simp [holds, h]

theorem inWorker_of_holding {worker : WorkerPc} {task : Task} {pc : DispatchPc}
    (h : holding worker = some (task, pc)) : inWorker pc = true := by
  cases worker with
  | running task => cases h; rfl
  | finishing task key | counted task key finished | waking task key =>
      cases key <;> cases h <;> rfl
  | ready | blocked | exited => cases h

theorem inWorker_class {pc : DispatchPc} (h : inWorker pc = true) :
    submitting pc = false ∧ entered pc = true ∧ active pc = true ∧ pc ≠ .ran := by
  revert h
  cases pc <;> decide

theorem waiting_class {pc : DispatchPc} (h : waiting pc = true) :
    entered pc = true ∧ active pc = true ∧ ranByWorker pc = false ∧ pc ≠ .ran := by
  revert h
  cases pc <;> decide

theorem holds_of_idle {worker : WorkerPc} (h : holding worker = none) (i : Nat) :
    holds i worker = false := by
  simp [holds, h]

structure SameTasks (s t : State) : Prop where
  dispatches : t.dispatches = s.dispatches
  poolMutex : t.poolMutex = s.poolMutex
  taskQueue : t.taskQueue = s.taskQueue
  commited : t.futexCntCommited = s.futexCntCommited
  finished : t.futexCntFinished = s.futexCntFinished
  submissions : t.submissions = s.submissions
  dequeued : t.dequeued = s.dequeued
  ranDirectly : t.ranDirectly = s.ranDirectly
  ranInPool : t.ranInPool = s.ranInPool

/-- The part of the state that `SameTasks` compares. -/
def State.tasks (s : State) :=
  (s.dispatches, s.poolMutex, s.taskQueue, s.futexCntCommited, s.futexCntFinished,
    s.submissions, s.dequeued, s.ranDirectly, s.ranInPool)

theorem SameTasks.of_tasks {s t : State} (h : t.tasks = s.tasks) : SameTasks s t := by
  simp only [State.tasks, Prod.mk.injEq] at h
  obtain ⟨hdispatches, hmutex, hqueue, hcommited, hfinished, hsubmissions, hdequeued, hdirect,
    hinPool⟩ := h
  exact ⟨hdispatches, hmutex, hqueue, hcommited, hfinished, hsubmissions, hdequeued, hdirect,
    hinPool⟩

theorem Accounted.of_sameTasks {s t : State} (h : Accounted s) (hsame : SameTasks s t)
    (hcount : ∀ i, t.workers.countP (holds i) = s.workers.countP (holds i))
    (hworkers : ∀ worker ∈ t.workers, ∀ held, holding worker = some held →
      ∃ old ∈ s.workers, holding old = some held) : Accounted t := by
  obtain ⟨hdispatches, hmutex, hqueue, _, _, hsubmissions, hdequeued, hdirect, hinPool⟩ :=
    hsame
  refine ⟨?_, ?_, ?_, ?_, ?_, ?_, ?_, ?_⟩
  · rw [hdispatches, hmutex]
    exact h.mutex
  · rw [hdispatches, hqueue]
    exact h.queued
  · rw [hdispatches]
    intro worker hmem task pc hholding
    obtain ⟨old, hold, hheld⟩ := hworkers worker hmem (task, pc) hholding
    exact h.held old hold task pc hheld
  · intro i
    rw [hdispatches, hqueue, hcount]
    exact h.owner i
  · rw [hdispatches, hsubmissions]
    exact h.submitted
  · rw [hdispatches, hdirect]
    exact h.direct
  · rw [hdispatches, hinPool]
    exact h.inPool
  · rw [hqueue, hsubmissions, hdequeued]
    exact h.fifo

theorem countP_holds_notifyOne {workers notified : List WorkerPc} {index : Nat}
    (h : notifyOne workers index = some notified) (i : Nat) :
    notified.countP (holds i) = workers.countP (holds i) := by
  unfold notifyOne at h
  split at h
  · rename_i hblocked
    cases h
    have := countP_set_add (holds i) WorkerPc.ready hblocked
    simpa [holds, holding] using this
  · split at h <;> cases h
    rfl

theorem mem_of_mem_notifyOne {workers notified : List WorkerPc} {index : Nat}
    (h : notifyOne workers index = some notified) {worker : WorkerPc}
    (hmem : worker ∈ notified) : worker = .ready ∨ worker ∈ workers := by
  unfold notifyOne at h
  split at h
  · cases h
    rcases List.mem_or_eq_of_mem_set hmem with hold | hnew
    · exact .inr hold
    · exact .inl hnew
  · split at h <;> cases h
    exact .inr hmem

@[simp] theorem holding_notify (worker : WorkerPc) :
    holding worker.notify = holding worker := by
  cases worker <;> rfl

theorem countP_holds_notify (workers : List WorkerPc) (i : Nat) :
    (workers.map WorkerPc.notify).countP (holds i) = workers.countP (holds i) := by
  rw [List.countP_map]
  congr 1
  funext worker
  simp [holds]

theorem Accounted.of_move {s t : State} {index : Nat} {dispatch : Dispatch}
    {pc : DispatchPc} (h : Accounted s) (hdispatch : s.dispatches[index]? = some dispatch)
    (hdispatches : t.dispatches = s.dispatches.set index { dispatch with pc := pc })
    (hqueue : t.taskQueue = s.taskQueue) (hworkers : t.workers = s.workers)
    (hlogs : t.submissions = s.submissions ∧ t.dequeued = s.dequeued ∧
      t.ranInPool = s.ranInPool)
    (hclass : inWorker dispatch.pc = false ∧ waiting pc = waiting dispatch.pc ∧
      active pc = active dispatch.pc ∧ entered pc = entered dispatch.pc ∧
      ranByWorker pc = ranByWorker dispatch.pc)
    (hmutex : ∀ i, tally (fun d => submitting d.pc) t.dispatches i =
      if t.poolMutex = some i then 1 else 0)
    (hdirect : ∀ i, t.ranDirectly.count i =
      tally (fun d => d.pc == .ran) t.dispatches i) : Accounted t := by
  obtain ⟨hsubmissions, hdequeued, hinPool⟩ := hlogs
  obtain ⟨hidle, hwaiting, hactive, hentered, hran⟩ := hclass
  refine ⟨hmutex, ?_, ?_, ?_, ?_, hdirect, ?_, ?_⟩
  · rw [hqueue, hdispatches]
    intro task hmem
    obtain ⟨before, hbefore, hqueued⟩ := h.queued task hmem
    by_cases hindex : index = task.dispatch
    · subst hindex
      rw [hdispatch] at hbefore
      cases hbefore
      exact ⟨pc, getElem?_set_moved hdispatch, by rw [hwaiting]; exact hqueued⟩
    · exact ⟨before, by rw [List.getElem?_set_ne hindex, hbefore], hqueued⟩
  · rw [hworkers, hdispatches]
    intro worker hmem task held hholding
    have hheld := h.held worker hmem task held hholding
    have hindex : index ≠ task.dispatch := by
      rintro rfl
      rw [hdispatch] at hheld
      cases hheld
      simp [inWorker_of_holding hholding] at hidle
    rw [List.getElem?_set_ne hindex, hheld]
  · intro i
    rw [hqueue, hworkers, hdispatches, tally_set_same hdispatch hactive]
    exact h.owner i
  · intro i
    rw [hsubmissions, hdispatches, tally_set_same hdispatch hentered]
    exact h.submitted i
  · intro i
    rw [hinPool, hdispatches, tally_set_same hdispatch hran]
    exact h.inPool i
  · rw [hsubmissions, hdequeued, hqueue]
    exact h.fifo

theorem Accounted.poolMutex_of_submitting {s : State} {index : Nat} {dispatch : Dispatch}
    (h : Accounted s) (hdispatch : s.dispatches[index]? = some dispatch)
    (hsubmitting : submitting dispatch.pc = true) : s.poolMutex = some index := by
  have hmutex := h.mutex index
  rw [tally_of_getElem? hdispatch] at hmutex
  by_contra hother
  simp [hsubmitting, hother] at hmutex

theorem accounted_push {s : State} {index notified : Nat} {dispatch : Dispatch}
    {workers : List WorkerPc} (h : Accounted s)
    (hdispatch : s.dispatches[index]? = some dispatch) (hpc : dispatch.pc = .checked)
    (hfree : s.poolMutex = none) (hnotify : notifyOne s.workers notified = some workers) :
    Accounted { s with
      poolMutex := some index
      taskQueue := s.taskQueue ++ [⟨index, dispatch.entry⟩]
      workers := workers
      dispatches := s.dispatches.set index { dispatch with pc := .pushed }
      submissions := s.submissions ++ [index] } := by
  refine ⟨?_, ?_, ?_, ?_, ?_, ?_, ?_, ?_⟩
  · intro i
    have hmutex := h.mutex i
    rw [hfree] at hmutex
    rw [tally_set hdispatch, hmutex]
    by_cases hi : i = index
    · simp [hi, submitting]
    · simp [hi, Ne.symm hi]
  · refine forall_mem_push ?_ ⟨.pushed, getElem?_set_moved hdispatch, rfl⟩
    intro task hmem
    obtain ⟨before, hbefore, hqueued⟩ := h.queued task hmem
    have hindex : index ≠ task.dispatch := by
      rintro rfl
      rw [hdispatch] at hbefore
      cases hbefore
      dsimp only at hpc
      subst hpc
      cases hqueued
    exact ⟨before, by rw [List.getElem?_set_ne hindex, hbefore], hqueued⟩
  · intro worker hmem task held hholding
    rcases mem_of_mem_notifyOne hnotify hmem with rfl | hold
    · cases hholding
    · have hheld := h.held worker hold task held hholding
      have hindex : index ≠ task.dispatch := by
        rintro rfl
        rw [hdispatch] at hheld
        cases hheld
        dsimp only at hpc
        subst hpc
        cases inWorker_of_holding hholding
      dsimp only
      rw [List.getElem?_set_ne hindex, hheld]
  · intro i
    have howner := h.owner i
    rw [tally_set hdispatch, countP_holds_notifyOne hnotify, List.map_append,
      List.count_append]
    by_cases hi : i = index
    · subst hi
      rw [tally_of_getElem? hdispatch, hpc] at howner
      simp only [active, Bool.false_eq_true, if_false, if_true, List.map_cons, List.map_nil,
        List.count_singleton_self] at howner ⊢
      omega
    · simp [hi, Ne.symm hi]
      omega
  · exact count_push_eq_tally h.submitted hdispatch (by simp [hpc, entered, active]) rfl
  · intro i
    rw [tally_set_same hdispatch (by simp [hpc])]
    exact h.direct i
  · intro i
    rw [tally_set_same hdispatch (by simp [hpc, ranByWorker])]
    exact h.inPool i
  · simp [h.fifo]

theorem accounted_dispatch {s t : State} {index notified : Nat} {dispatch : Dispatch}
    (h : Accounted s) (hdispatch : s.dispatches[index]? = some dispatch)
    (hstep : dispatchStep s index notified dispatch = some t) : Accounted t := by
  have hunlogged (pc : DispatchPc) (hpc : dispatch.pc ≠ .ran) (hmoved : pc ≠ .ran) (i : Nat) :
      s.ranDirectly.count i =
        tally (fun d => d.pc == .ran) (s.dispatches.set index { dispatch with pc := pc }) i := by
    rw [tally_set_same hdispatch (by simp [hpc, hmoved])]
    exact h.direct i
  have hunlocked (pc : DispatchPc) (hsame : submitting pc = submitting dispatch.pc) (i : Nat) :
      tally (fun d => submitting d.pc)
          (s.dispatches.set index { dispatch with pc := pc }) i =
        if s.poolMutex = some i then 1 else 0 := by
    rw [tally_set_same hdispatch hsame]
    exact h.mutex i
  unfold dispatchStep at hstep
  cases hpc : dispatch.pc with
  | resolved =>
      simp only [hpc, Option.some.injEq] at hstep
      subst hstep
      cases s.poolRunning
      · exact h.of_move hdispatch rfl rfl rfl ⟨rfl, rfl, rfl⟩ (by simp [hpc]; decide)
          (hunlocked .direct (by simp [hpc]; rfl)) (hunlogged .direct (by simp [hpc]) (by decide))
      · exact h.of_move hdispatch rfl rfl rfl ⟨rfl, rfl, rfl⟩ (by simp [hpc]; decide)
          (hunlocked .checked (by simp [hpc]; rfl))
          (hunlogged .checked (by simp [hpc]) (by decide))
  | checked =>
      simp only [hpc] at hstep
      split at hstep
      · cases hstep
      · rename_i hfree
        split at hstep
        · cases hstep
          exact h.of_move hdispatch rfl rfl rfl ⟨rfl, rfl, rfl⟩ (by simp [hpc]; decide)
            (hunlocked .direct (by simp [hpc]; rfl))
            (hunlogged .direct (by simp [hpc]) (by decide))
        · obtain ⟨workers, hnotify, rfl⟩ := Option.map_eq_some_iff.mp hstep
          exact accounted_push h hdispatch hpc (by simpa using hfree) hnotify
  | pushed =>
      simp only [hpc, Option.some.injEq] at hstep
      subst hstep
      exact h.of_move hdispatch rfl rfl rfl ⟨rfl, rfl, rfl⟩ (by simp [hpc]; decide)
        (hunlocked .deviceCommited (by simp [hpc]; rfl))
        (hunlogged .deviceCommited (by simp [hpc]) (by decide))
  | deviceCommited =>
      simp only [hpc, Option.some.injEq] at hstep
      subst hstep
      exact h.of_move hdispatch rfl rfl rfl ⟨rfl, rfl, rfl⟩ (by simp [hpc]; decide)
        (hunlocked .regionCommited (by simp [hpc]; rfl))
        (hunlogged .regionCommited (by simp [hpc]) (by decide))
  | regionCommited =>
      have hlocked := h.poolMutex_of_submitting hdispatch (by simp [hpc]; rfl)
      simp only [hpc, Option.some.injEq] at hstep
      subst hstep
      refine h.of_move hdispatch rfl rfl rfl ⟨rfl, rfl, rfl⟩ (by simp [hpc]; decide) ?_
        (hunlogged .accepted (by simp [hpc]) (by decide))
      intro i
      have hmutex := h.mutex i
      rw [hlocked] at hmutex
      rw [tally_set hdispatch, hmutex]
      by_cases hi : i = index
      · simp [hi, submitting]
      · simp [hi, Ne.symm hi]
  | direct =>
      simp only [hpc, Option.some.injEq] at hstep
      subst hstep
      exact h.of_move hdispatch rfl rfl rfl ⟨rfl, rfl, rfl⟩ (by simp [hpc]; decide)
        (hunlocked .ran (by simp [hpc]; rfl))
        (count_push_eq_tally h.direct hdispatch (by simp [hpc]) rfl)
  | accepted | taken | executed | deviceFinished | regionFinished | ran =>
      simp [hpc] at hstep

theorem Accounted.unshared {s : State} {index : Nat} {worker : WorkerPc} {task : Task}
    {pc : DispatchPc} (h : Accounted s) (hworker : s.workers[index]? = some worker)
    (hholding : holding worker = some (task, pc)) :
    (∀ other ∈ s.taskQueue, other.dispatch ≠ task.dispatch) ∧
      ∀ i other, s.workers[i]? = some other → holds task.dispatch other = true →
        i = index := by
  have hmem : worker ∈ s.workers := List.mem_iff_getElem?.mpr ⟨index, hworker⟩
  have hholds : holds task.dispatch worker = true := by simp [holds_of_holding hholding]
  have hpos : 0 < s.workers.countP (holds task.dispatch) :=
    List.countP_pos_iff.mpr ⟨worker, hmem, hholds⟩
  have howner := h.owner task.dispatch
  have hle := tally_le_one (fun d => active d.pc) s.dispatches task.dispatch
  refine ⟨?_, ?_⟩
  · intro other hother hsame
    have : 0 < (s.taskQueue.map Task.dispatch).count task.dispatch := by
      rw [List.count_pos_iff, ← hsame]
      exact List.mem_map_of_mem hother
    omega
  · intro i other hother hothers
    exact eq_of_countP_le_one (by omega) hother hworker hothers hholds

theorem Accounted.of_mark {s t : State} {index : Nat} {worker moved : WorkerPc}
    {task : Task} {pc marked : DispatchPc} (h : Accounted s)
    (hworker : s.workers[index]? = some worker)
    (hholding : holding worker = some (task, pc))
    (hmoved : holding moved = if active marked then some (task, marked) else none)
    (hworkers : t.workers = s.workers.set index moved)
    (hdispatches : t.dispatches = s.dispatches.set task.dispatch ⟨task.entry, marked⟩)
    (hrest : t.poolMutex = s.poolMutex ∧ t.taskQueue = s.taskQueue ∧
      t.submissions = s.submissions ∧ t.dequeued = s.dequeued ∧
      t.ranDirectly = s.ranDirectly)
    (hclass : submitting marked = false ∧ entered marked = true ∧ marked ≠ .ran)
    (hinPool : ∀ i, t.ranInPool.count i =
      tally (fun d => ranByWorker d.pc) t.dispatches i) : Accounted t := by
  obtain ⟨hmutex, hqueue, hsubmissions, hdequeued, hdirect⟩ := hrest
  obtain ⟨hsubmitting, hentered, hran⟩ := hclass
  obtain ⟨hunqueued, halone⟩ := h.unshared hworker hholding
  have hmem : worker ∈ s.workers := List.mem_iff_getElem?.mpr ⟨index, hworker⟩
  have hheld := h.held worker hmem task pc hholding
  have hinside := inWorker_of_holding hholding
  have hbefore := inWorker_class hinside
  have hholds : ∀ i, holds i moved = (active marked && task.dispatch == i) := by
    intro i
    cases hactive : active marked <;> simp [holds, hmoved, hactive]
  refine ⟨?_, ?_, ?_, ?_, ?_, ?_, hinPool, ?_⟩
  · intro i
    rw [hmutex, hdispatches, tally_set_same hheld (by simp [hsubmitting, hbefore])]
    exact h.mutex i
  · rw [hqueue, hdispatches]
    intro other hother
    obtain ⟨queuedPc, hget, hwaiting⟩ := h.queued other hother
    exact ⟨queuedPc, by rw [List.getElem?_set_ne (Ne.symm (hunqueued other hother)), hget],
      hwaiting⟩
  · rw [hworkers, hdispatches]
    intro other hother otherTask otherPc hotherHolding
    obtain ⟨i, hi⟩ := List.mem_iff_getElem?.mp hother
    rcases getElem?_set_some hi with ⟨_, rfl⟩ | ⟨hne, hkept⟩
    · rw [hmoved] at hotherHolding
      split at hotherHolding <;> cases hotherHolding
      exact getElem?_set_moved hheld
    · have hother' := h.held other (List.mem_iff_getElem?.mpr ⟨i, hkept⟩) _ _ hotherHolding
      have hdifferent : task.dispatch ≠ otherTask.dispatch := by
        intro hsame
        apply hne
        exact halone i other hkept (by simp [holds_of_holding hotherHolding, hsame])
      rw [List.getElem?_set_ne hdifferent, hother']
  · intro i
    have howner := h.owner i
    have hcount := countP_set_add (holds i) moved hworker
    rw [holds_of_holding hholding, hholds] at hcount
    rw [hqueue, hworkers, hdispatches, tally_set hheld]
    by_cases hi : i = task.dispatch
    · subst hi
      rw [tally_of_getElem? hheld] at howner
      simp only [hbefore, beq_self_eq_true, if_true, Bool.and_true] at hcount howner ⊢
      omega
    · have hother : (task.dispatch == i) = false := by simpa using Ne.symm hi
      simp only [hother, hi, Bool.and_false, Bool.false_eq_true, if_false] at hcount ⊢
      omega
  · intro i
    rw [hsubmissions, hdispatches, tally_set_same hheld (by simp [hentered, hbefore])]
    exact h.submitted i
  · intro i
    rw [hdirect, hdispatches, tally_set_same hheld (by simp [hran, hbefore])]
    exact h.direct i
  · rw [hsubmissions, hdequeued, hqueue]
    exact h.fifo

theorem accounted_pop {s : State} {index : Nat} {task : Task} {rest : List Task}
    (h : Accounted s) (hworker : s.workers[index]? = some .ready)
    (hfree : s.poolMutex = none) (hqueue : s.taskQueue = task :: rest) :
    Accounted { s with
      taskQueue := rest
      workers := s.workers.set index (.running task)
      dispatches := s.dispatches.set task.dispatch ⟨task.entry, .taken⟩
      dequeued := s.dequeued ++ [task.dispatch] } := by
  obtain ⟨pc, hget, hwaiting⟩ := h.queued task (by simp [hqueue])
  have hclass := waiting_class hwaiting
  have howner := h.owner
  simp only [hqueue, List.map_cons, List.count_cons] at howner
  -- the front task is nowhere else
  have hfront := howner task.dispatch
  rw [tally_of_getElem? hget] at hfront
  simp only [beq_self_eq_true, if_true, hclass] at hfront
  refine ⟨?_, ?_, ?_, ?_, ?_, ?_, ?_, ?_⟩
  · intro i
    have hmutex := h.mutex i
    rw [hfree] at hmutex
    rw [tally_set hget, hmutex, hfree]
    simp [submitting]
  · intro other hother
    obtain ⟨otherPc, hotherGet, hotherWaiting⟩ := h.queued other (by simp [hqueue, hother])
    have hne : task.dispatch ≠ other.dispatch := by
      intro hsame
      have : 0 < (rest.map Task.dispatch).count task.dispatch := by
        rw [List.count_pos_iff, hsame]
        exact List.mem_map_of_mem hother
      omega
    exact ⟨otherPc, by rw [List.getElem?_set_ne hne, hotherGet], hotherWaiting⟩
  · intro other hother otherTask otherPc hholding
    obtain ⟨i, hi⟩ := List.mem_iff_getElem?.mp hother
    rcases getElem?_set_some hi with ⟨_, rfl⟩ | ⟨_, hkept⟩
    · cases hholding
      exact getElem?_set_moved hget
    · have hmem : other ∈ s.workers := List.mem_iff_getElem?.mpr ⟨i, hkept⟩
      have hheld := h.held other hmem otherTask otherPc hholding
      have hne : task.dispatch ≠ otherTask.dispatch := by
        intro hsame
        have : 0 < s.workers.countP (holds task.dispatch) :=
          List.countP_pos_iff.mpr
            ⟨other, hmem, by simp [holds_of_holding hholding, hsame]⟩
        omega
      dsimp only
      rw [List.getElem?_set_ne hne, hheld]
  · intro i
    have hcount := countP_set_add (holds i) (WorkerPc.running task) hworker
    rw [holds_of_idle rfl, holds_of_holding rfl] at hcount
    have howner := howner i
    rw [tally_set hget]
    by_cases hi : i = task.dispatch
    · subst hi
      simp only [beq_self_eq_true, if_true, Bool.false_eq_true, if_false, active]
        at hcount ⊢
      omega
    · have hother : (task.dispatch == i) = false := by simpa using Ne.symm hi
      simp only [hother, hi, Bool.false_eq_true, if_false] at hcount howner ⊢
      omega
  · intro i
    rw [tally_set_same hget (by simp only [hclass]; rfl)]
    exact h.submitted i
  · intro i
    rw [tally_set_same hget (by simp [hclass])]
    exact h.direct i
  · intro i
    rw [tally_set_same hget (by simp only [hclass]; rfl)]
    exact h.inPool i
  · simp [h.fifo, hqueue]

theorem Accounted.of_worker {s t : State} {index : Nat} {worker moved : WorkerPc}
    (h : Accounted s) (hworker : s.workers[index]? = some worker)
    (hholding : holding moved = holding worker)
    (hworkers : t.workers = s.workers.set index moved) (hsame : SameTasks s t) :
    Accounted t := by
  refine h.of_sameTasks hsame ?_ ?_
  · intro i
    have hcount := countP_set_add (holds i) moved hworker
    have hholds : holds i moved = holds i worker := by rw [holds, holds, hholding]
    rw [hworkers]
    rw [hholds] at hcount
    omega
  · rw [hworkers]
    intro other hother held hheld
    rcases List.mem_or_eq_of_mem_set hother with hold | rfl
    · exact ⟨other, hold, hheld⟩
    · exact ⟨worker, List.mem_iff_getElem?.mpr ⟨index, hworker⟩, by rw [← hholding, hheld]⟩

theorem holding_next (task : Task) (key : Key) :
    holding (.next task key) = holding (.waking task key) := by
  cases key <;> rfl

theorem accounted_worker {s t : State} {index : Nat} {worker : WorkerPc} (h : Accounted s)
    (hworker : s.workers[index]? = some worker)
    (hstep : workerStep s index worker = some t) : Accounted t := by
  have hmem : worker ∈ s.workers := List.mem_iff_getElem?.mpr ⟨index, hworker⟩
  unfold workerStep at hstep
  cases worker with
  | ready =>
      dsimp only at hstep
      split at hstep
      · cases hstep
      · rename_i hfree
        cases hqueue : s.taskQueue with
        | nil =>
            simp only [hqueue, Option.some.injEq] at hstep
            subst hstep
            refine h.of_worker hworker ?_ rfl
              ⟨rfl, rfl, hqueue.symm, rfl, rfl, rfl, rfl, rfl, rfl⟩
            cases s.poolRunning <;> rfl
        | cons task rest =>
            simp only [hqueue, Option.some.injEq] at hstep
            subst hstep
            exact accounted_pop h hworker (by simpa using hfree) hqueue
  | running task =>
      cases hstep
      have hheld := h.held _ hmem task .taken rfl
      exact h.of_mark hworker rfl rfl rfl rfl ⟨rfl, rfl, rfl, rfl, rfl⟩ (by decide)
        (count_push_eq_tally h.inPool hheld rfl rfl)
  | finishing task key =>
      cases hstep
      cases key with
      | none =>
          have hheld := h.held _ hmem task .executed rfl
          exact h.of_mark hworker rfl rfl rfl rfl ⟨rfl, rfl, rfl, rfl, rfl⟩ (by decide)
            fun i => (h.inPool i).trans (tally_set_same hheld (by rfl) i).symm
      | some region =>
          have hheld := h.held _ hmem task .deviceFinished rfl
          exact h.of_mark hworker rfl rfl rfl rfl ⟨rfl, rfl, rfl, rfl, rfl⟩
            ⟨rfl, rfl, by simp [finishedPc]⟩
            fun i => (h.inPool i).trans (tally_set_same hheld (by rfl) i).symm
  | counted task key finished =>
      cases hstep
      refine h.of_worker hworker ?_ rfl (.of_tasks rfl)
      split
      · cases key <;> rfl
      · rw [holding_next]
        cases key <;> rfl
  | waking task key =>
      cases hstep
      exact h.of_worker hworker (holding_next task key) rfl
        (.of_tasks rfl)
  | blocked | exited => cases hstep

theorem accounted_pushFails {s t : State} {index : Nat} {dispatch : Dispatch}
    (h : Accounted s) (hdispatch : s.dispatches[index]? = some dispatch)
    (hstep : pushFailsStep s index dispatch = some t) : Accounted t := by
  unfold pushFailsStep at hstep
  split at hstep <;> cases hstep
  rename_i hguard
  have hpc := hguard.1
  refine h.of_move hdispatch rfl rfl rfl ⟨rfl, rfl, rfl⟩ (by simp [hpc]; decide) ?_ ?_
  · intro i
    rw [tally_set_same hdispatch (by simp [hpc]; rfl)]
    exact h.mutex i
  · intro i
    rw [tally_set_same hdispatch (by simp [hpc])]
    exact h.direct i

inductive WorkersChange (workers : List WorkerPc) : List WorkerPc → Prop where
  | kept : WorkersChange workers workers
  | spawned : WorkersChange workers (workers ++ [.ready])
  | notified : WorkersChange workers (workers.map WorkerPc.notify)
  | cleared (h : ∀ worker ∈ workers, worker = .exited) : WorkersChange workers []

theorem sameTasks_return (s : State) (result : PimError) : SameTasks s (s.return result) :=
  .of_tasks rfl

theorem sameTasks_poolStartLocked (s : State) (count : Nat) :
    SameTasks s (poolStartLocked s count) ∧ (poolStartLocked s count).workers = s.workers := by
  unfold poolStartLocked
  split
  · exact ⟨sameTasks_return s _, rfl⟩
  · split
    · exact ⟨sameTasks_return s _, rfl⟩
    · exact ⟨.of_tasks rfl, rfl⟩

theorem controlStep_frame {s t : State} {spawned : Bool}
    (hstep : controlStep s spawned = some t) :
    SameTasks s t ∧ WorkersChange s.workers t.workers := by
  have hsame {u : State} (h : SameTasks s u ∧ u.workers = s.workers) :
      SameTasks s u ∧ WorkersChange s.workers u.workers := ⟨h.1, h.2 ▸ .kept⟩
  unfold controlStep at hstep
  split at hstep
  · cases hstep
  · cases hstep
    exact hsame ⟨.of_tasks rfl, rfl⟩
  · cases hstep
    exact hsame ⟨sameTasks_return s _, rfl⟩
  · split at hstep <;> cases hstep
    · exact ⟨.of_tasks rfl, .spawned⟩
    · exact hsame ⟨.of_tasks rfl, rfl⟩
  · cases hstep
    exact hsame ⟨.of_tasks rfl, rfl⟩
  · split at hstep <;> cases hstep
    · exact ⟨.of_tasks rfl, .spawned⟩
    · exact hsame ⟨.of_tasks rfl, rfl⟩
  · split at hstep <;> cases hstep <;>
      exact hsame ⟨.of_tasks rfl, rfl⟩
  · cases hstep
    exact ⟨.of_tasks rfl, .notified⟩
  · cases hstep
    exact hsame ⟨.of_tasks rfl, rfl⟩
  · split at hstep <;> cases hstep
    rename_i hexited
    exact ⟨.of_tasks rfl, .cleared hexited⟩
  · cases hstep
    exact hsame ⟨.of_tasks rfl, rfl⟩
  · cases hstep
    exact hsame ⟨sameTasks_return s _, rfl⟩
  · cases hstep
    exact hsame ⟨sameTasks_return s _, rfl⟩
  · cases hstep
    split
    · exact hsame ⟨sameTasks_return s _, rfl⟩
    · exact hsame (sameTasks_poolStartLocked s _)

theorem poolStart_frame (s : State) (limit hardware : Nat) :
    SameTasks s (poolStart s limit hardware) ∧
      (poolStart s limit hardware).workers = s.workers := by
  unfold poolStart poolStartLocked
  dsimp only
  split_ifs <;> exact ⟨.of_tasks rfl, rfl⟩

theorem poolStop_frame (s : State) (caller : Option Nat) :
    SameTasks s (poolStop s caller) ∧ (poolStop s caller).workers = s.workers := by
  unfold poolStop
  dsimp only
  split <;> exact ⟨.of_tasks rfl, rfl⟩

theorem setMaxActiveDpus_frame (s : State) (caller : Option Nat) (concurrency : Nat) :
    SameTasks s (setMaxActiveDpus s caller concurrency) ∧
      (setMaxActiveDpus s caller concurrency).workers = s.workers := by
  unfold setMaxActiveDpus
  dsimp only
  split_ifs <;> exact ⟨.of_tasks rfl, rfl⟩

theorem waiterStep_frame {s t : State} {index : Nat} {waiter : Waiter}
    (hstep : waiterStep s index waiter = some t) :
    SameTasks s t ∧ t.workers = s.workers ∧ t.control = s.control ∧
      t.poolRunning = s.poolRunning ∧ t.call = s.call ∧ t.returns = s.returns := by
  unfold waiterStep at hstep
  split at hstep
  · split at hstep <;> cases hstep
    exact ⟨.of_tasks rfl, rfl, rfl, rfl, rfl, rfl⟩
  all_goals
    cases hstep
    try exact ⟨.of_tasks rfl, rfl, rfl, rfl, rfl, rfl⟩

theorem Accounted.of_workersChange {s t : State} (h : Accounted s) (hsame : SameTasks s t)
    (hchange : WorkersChange s.workers t.workers) : Accounted t := by
  generalize hworkers : t.workers = workers at hchange
  refine h.of_sameTasks hsame ?_ ?_ <;> rw [hworkers]
  · intro i
    cases hchange with
    | kept => rfl
    | spawned => simp [List.countP_append, holds, holding]
    | notified => exact countP_holds_notify s.workers i
    | cleared hexited =>
        symm
        rw [List.countP_nil, List.countP_eq_zero]
        intro worker hmem
        simp [hexited worker hmem, holds, holding]
  · intro worker hmem held hheld
    cases hchange with
    | kept => exact ⟨worker, hmem, hheld⟩
    | spawned =>
        rcases List.mem_append.mp hmem with hold | hnew
        · exact ⟨worker, hold, hheld⟩
        · rw [List.mem_singleton.mp hnew] at hheld
          cases hheld
    | notified =>
        obtain ⟨old, hold, rfl⟩ := List.mem_map.mp hmem
        exact ⟨old, hold, by rw [← holding_notify, hheld]⟩
    | cleared _ => cases hmem

theorem accounted_new {s : State} (h : Accounted s) (entry : PoolTaskEntry) :
    Accounted { s with dispatches := s.dispatches ++ [⟨entry, .resolved⟩] } := by
  have hkept {i : Nat} {dispatch : Dispatch} (hget : s.dispatches[i]? = some dispatch) :
      (s.dispatches ++ [⟨entry, .resolved⟩])[i]? = some dispatch := by
    rw [List.getElem?_append_left (List.getElem?_eq_some_iff.mp hget).1, hget]
  refine ⟨?_, ?_, ?_, ?_, ?_, ?_, ?_, h.fifo⟩
  · intro i
    rw [tally_push (by rfl)]
    exact h.mutex i
  · intro task hmem
    obtain ⟨pc, hget, hwaiting⟩ := h.queued task hmem
    exact ⟨pc, hkept hget, hwaiting⟩
  · intro worker hmem task pc hholding
    exact hkept (h.held worker hmem task pc hholding)
  · intro i
    rw [tally_push (by rfl)]
    exact h.owner i
  · intro i
    rw [tally_push (by rfl)]
    exact h.submitted i
  · intro i
    rw [tally_push (by rfl)]
    exact h.direct i
  · intro i
    rw [tally_push (by rfl)]
    exact h.inPool i

theorem accounted_step (s : State) (action : Action) (t : State) (h : Accounted s)
    (hstep : step s action = some t) : Accounted t := by
  cases action with
  | dispatch entry =>
      cases hstep
      exact accounted_new h entry
  | advance index notified =>
      obtain ⟨dispatch, hdispatch, hmove⟩ := Option.bind_eq_some_iff.mp hstep
      exact accounted_dispatch h hdispatch hmove
  | pushFails index =>
      obtain ⟨dispatch, hdispatch, hmove⟩ := Option.bind_eq_some_iff.mp hstep
      exact accounted_pushFails h hdispatch hmove
  | worker index =>
      obtain ⟨worker, hworker, hmove⟩ := Option.bind_eq_some_iff.mp hstep
      exact accounted_worker h hworker hmove
  | poolStart limit hardware =>
      simp only [step] at hstep
      split at hstep <;> cases hstep
      obtain ⟨hsame, hworkers⟩ := poolStart_frame s limit hardware
      exact h.of_workersChange hsame (hworkers ▸ .kept)
  | poolStop caller =>
      simp only [step] at hstep
      split at hstep <;> cases hstep
      obtain ⟨hsame, hworkers⟩ := poolStop_frame s caller
      exact h.of_workersChange hsame (hworkers ▸ .kept)
  | setMaxActiveDpus caller concurrency =>
      simp only [step] at hstep
      split at hstep <;> cases hstep
      obtain ⟨hsame, hworkers⟩ := setMaxActiveDpus_frame s caller concurrency
      exact h.of_workersChange hsame (hworkers ▸ .kept)
  | control spawned =>
      obtain ⟨hsame, hchange⟩ := controlStep_frame hstep
      exact h.of_workersChange hsame hchange
  | barrier key =>
      cases hstep
      exact h.of_workersChange (.of_tasks rfl) .kept
  | waiter index =>
      obtain ⟨waiter, _, hmove⟩ := Option.bind_eq_some_iff.mp hstep
      obtain ⟨hsame, hworkers, _⟩ := waiterStep_frame hmove
      exact h.of_workersChange hsame (hworkers ▸ .kept)
  | setTeardown value =>
      cases hstep
      exact h.of_workersChange (.of_tasks rfl) .kept

end HostPimSim.Core.Pool
