import HostPimSim.Core.PoolTasks

/-! The workers through starts, stops and resizes: queued tasks find a worker and
stops drain the queue.  Thread creation does not fail here. -/
namespace HostPimSim.Core.Pool
open Threads Transition

def willSpawn : ControlPc → Bool
  | .spawning (_ + 1) => true
  | _ => false

def awake : WorkerPc → Bool
  | .blocked | .exited => false
  | _ => true

def pastJoin : ControlPc → Bool
  | .joined _ | .finishing _ | .starting _ | .spawning _ => true
  | _ => false

def PhaseFacts (s : State) : Prop :=
  match s.control with
  | .idle => s.poolRunning = false → s.workers = []
  | .starting count => s.poolRunning = false ∧ s.workers = [] ∧ 0 < count
  | .spawning _ => s.poolRunning = true
  | .expanding _ _ => s.poolRunning = true ∧ s.call.drains = false
  | .stopping after => (s.poolRunning = false → s.workers = []) ∧ after ≠ .startFailed
  | .notifying after => s.poolRunning = false ∧ after ≠ .startFailed
  | .waking after | .joining after =>
      s.poolRunning = false ∧ after ≠ .startFailed ∧ .blocked ∉ s.workers
  | .joined after | .finishing after =>
      s.poolRunning = false ∧ after ≠ .startFailed ∧ s.workers = []

structure Served (s : State) : Prop where
  phase : PhaseFacts s
  alive : s.poolRunning = true →
    .exited ∉ s.workers ∧ (s.workers ≠ [] ∨ willSpawn s.control = true)
  served : s.taskQueue ≠ [] →
    (∃ worker ∈ s.workers, awake worker = true) ∨ willSpawn s.control = true
  exited : .exited ∈ s.workers → s.poolRunning = false ∧ s.taskQueue = []
  before : ∀ i ∈ s.call.before, i ∈ s.submissions
  drained : s.call.drains = true → pastJoin s.control = true →
    ∀ i ∈ s.call.before, i ∈ s.ranInPool
  returned : ∀ ret ∈ s.returns, ret.call.drains = true → ret.result = .success →
    ∀ i ∈ ret.call.before, i ∈ s.ranInPool

theorem served_init : Served init where
  phase := fun _ => rfl
  alive := by simp [init]
  served := by simp [init]
  exited := by simp [init]
  before := by simp [init]
  drained := by simp [init]
  returned := by simp [init]

theorem Served.of_frame {s t : State} (h : Served s)
    (hcontrol : t.control = s.control ∧ t.poolRunning = s.poolRunning ∧
      t.workers = s.workers ∧ t.taskQueue = s.taskQueue ∧ t.call = s.call ∧
      t.returns = s.returns)
    (hsubmissions : t.submissions = s.submissions) (hran : t.ranInPool = s.ranInPool) :
    Served t := by
  obtain ⟨hcontrol, hrunning, hworkers, hqueue, hcall, hreturns⟩ := hcontrol
  obtain ⟨hphase, halive, hserved, hexited, hbefore, hdrained, hreturned⟩ := h
  refine ⟨?_, ?_, ?_, ?_, ?_, ?_, ?_⟩
  · unfold PhaseFacts at hphase ⊢
    rwa [hcontrol, hrunning, hworkers, hcall]
  · rwa [hcontrol, hrunning, hworkers]
  · rwa [hcontrol, hworkers, hqueue]
  · rwa [hrunning, hworkers, hqueue]
  · rwa [hcall, hsubmissions]
  · rwa [hcontrol, hcall, hran]
  · rwa [hreturns, hran]

theorem awake_notifyOne {workers notified : List WorkerPc} {index : Nat}
    (h : notifyOne workers index = some notified) (hexited : .exited ∉ workers)
    (hworkers : workers ≠ []) : ∃ worker ∈ notified, awake worker = true := by
  unfold notifyOne at h
  split at h
  · rename_i hblocked
    cases h
    exact ⟨.ready, mem_set_moved hblocked, rfl⟩
  · split at h <;> cases h
    rename_i hnone
    obtain ⟨worker, hmem⟩ := List.exists_mem_of_ne_nil _ hworkers
    refine ⟨worker, hmem, ?_⟩
    cases worker with
    | blocked => exact absurd hmem hnone
    | exited => exact absurd hmem hexited
    | _ => rfl

theorem notifyOne_eq_nil {workers notified : List WorkerPc} {index : Nat}
    (h : notifyOne workers index = some notified) : notified = [] ↔ workers = [] := by
  unfold notifyOne at h
  split at h
  · cases h
    simp
  · split at h <;> cases h
    rfl

theorem served_push {s : State} {index notified : Nat} {dispatch : Dispatch}
    {workers : List WorkerPc} (h : Served s) (hrunning : s.poolRunning = true)
    (hnotify : notifyOne s.workers notified = some workers) :
    Served { s with
      poolMutex := some index
      taskQueue := s.taskQueue ++ [⟨index, dispatch.entry⟩]
      workers := workers
      dispatches := s.dispatches.set index { dispatch with pc := .pushed }
      submissions := s.submissions ++ [index] } := by
  obtain ⟨hphase, halive, _, _, hbefore, hdrained, hreturned⟩ := h
  obtain ⟨hexited, hworkers⟩ := halive hrunning
  have hstill : .exited ∉ workers := by
    intro hmem
    rcases mem_of_mem_notifyOne hnotify hmem with hready | hold
    · cases hready
    · exact hexited hold
  refine ⟨?_, ?_, ?_, fun hmem => absurd hmem hstill, ?_, hdrained, hreturned⟩
  · unfold PhaseFacts at hphase ⊢
    cases hcontrol : s.control <;> simp_all
  · intro _
    refine ⟨hstill, ?_⟩
    simpa [notifyOne_eq_nil hnotify] using hworkers
  · intro _
    rcases hworkers with hworkers | hspawn
    · exact .inl (awake_notifyOne hnotify hexited hworkers)
    · exact .inr hspawn
  · exact fun i hi => List.mem_append_left _ (hbefore i hi)

theorem served_dispatch {s t : State} {index notified : Nat} {dispatch : Dispatch}
    (h : Served s) (hstep : dispatchStep s index notified dispatch = some t) :
    Served t := by
  unfold dispatchStep at hstep
  split at hstep
  · cases hstep
    exact h.of_frame ⟨rfl, rfl, rfl, rfl, rfl, rfl⟩ rfl rfl
  · split at hstep
    · cases hstep
    · split at hstep
      · cases hstep
        exact h.of_frame ⟨rfl, rfl, rfl, rfl, rfl, rfl⟩ rfl rfl
      · rename_i hrunning
        obtain ⟨workers, hnotify, rfl⟩ := Option.map_eq_some_iff.mp hstep
        exact served_push h (by simpa using hrunning) hnotify
  all_goals
    cases hstep
    try exact h.of_frame ⟨rfl, rfl, rfl, rfl, rfl, rfl⟩ rfl rfl

theorem phaseFacts_worker {s t : State} {index : Nat} {worker moved : WorkerPc}
    (h : PhaseFacts s) (hworker : s.workers[index]? = some worker)
    (hcontrol : t.control = s.control ∧ t.poolRunning = s.poolRunning ∧ t.call = s.call)
    (hworkers : t.workers = s.workers.set index moved)
    (hblocked : moved = .blocked → s.poolRunning = true) : PhaseFacts t := by
  obtain ⟨hcontrol, hrunning, hcall⟩ := hcontrol
  have hsome : s.workers ≠ [] := by
    intro hnil
    simp [hnil] at hworker
  have hnotBlocked (hstopped : s.poolRunning = false) (hnone : .blocked ∉ s.workers) :
      .blocked ∉ s.workers.set index moved := by
    intro hmem
    rcases List.mem_or_eq_of_mem_set hmem with hold | hnew
    · exact hnone hold
    · simp [hblocked hnew.symm] at hstopped
  unfold PhaseFacts at h ⊢
  rw [hcontrol, hrunning, hworkers, hcall]
  cases hpc : s.control with
  | idle =>
      simp only [hpc] at h
      exact fun hstopped => absurd (h hstopped) hsome
  | starting count =>
      simp only [hpc] at h
      exact absurd h.2.1 hsome
  | spawning left => simpa only [hpc] using h
  | expanding left target => simpa only [hpc] using h
  | stopping after =>
      simp only [hpc] at h
      exact ⟨fun hstopped => absurd (h.1 hstopped) hsome, h.2⟩
  | notifying after => simpa only [hpc] using h
  | waking after | joining after =>
      simp only [hpc] at h
      exact ⟨h.1, h.2.1, hnotBlocked h.1 h.2.2⟩
  | joined after | finishing after =>
      simp only [hpc] at h
      exact absurd h.2.2 hsome

theorem Served.of_awake {s t : State} {index : Nat} {worker moved : WorkerPc}
    (h : Served s) (hworker : s.workers[index]? = some worker)
    (hmoved : awake moved = true) (hworkers : t.workers = s.workers.set index moved)
    (hcontrol : t.control = s.control ∧ t.poolRunning = s.poolRunning ∧
      t.call = s.call ∧ t.returns = s.returns)
    (hqueue : s.taskQueue = [] → t.taskQueue = [])
    (hsubmissions : t.submissions = s.submissions)
    (hran : ∀ i ∈ s.ranInPool, i ∈ t.ranInPool) : Served t := by
  obtain ⟨hcontrol, hrunning, hcall, hreturns⟩ := hcontrol
  obtain ⟨hphase, halive, hserved, hexited, hbefore, hdrained, hreturned⟩ := h
  have hblocked : moved ≠ .blocked ∧ moved ≠ .exited := by
    cases moved <;> simp_all [awake]
  have hstill : .exited ∈ t.workers → .exited ∈ s.workers := by
    intro hmem
    rw [hworkers] at hmem
    rcases List.mem_or_eq_of_mem_set hmem with hold | hnew
    · exact hold
    · exact absurd hnew.symm hblocked.2
  refine ⟨phaseFacts_worker hphase hworker ⟨hcontrol, hrunning, hcall⟩ hworkers
    (fun hnew => absurd hnew hblocked.1), ?_, ?_, ?_, ?_, ?_, ?_⟩
  · intro hstart
    obtain ⟨hnone, hsome⟩ := halive (hrunning ▸ hstart)
    refine ⟨fun hmem => hnone (hstill hmem), ?_⟩
    rw [hworkers, hcontrol]
    simpa using hsome
  · intro _
    rw [hworkers]
    exact .inl ⟨moved, mem_set_moved hworker, hmoved⟩
  · intro hmem
    obtain ⟨hstopped, hempty⟩ := hexited (hstill hmem)
    exact ⟨hrunning ▸ hstopped, hqueue hempty⟩
  · rwa [hcall, hsubmissions]
  · rw [hcall, hcontrol]
    exact fun hdrains hpast i hi => hran i (hdrained hdrains hpast i hi)
  · rw [hreturns]
    exact fun ret hret hdrains hsuccess i hi => hran i (hreturned ret hret hdrains hsuccess i hi)

theorem awake_next (task : Task) (key : Key) : awake (.next task key) = true := by
  cases key <;> rfl

theorem served_idle {s : State} {index : Nat} (h : Served s)
    (hworker : s.workers[index]? = some .ready) (hqueue : s.taskQueue = []) :
    Served { s with
      workers := s.workers.set index (if s.poolRunning then .blocked else .exited) } := by
  obtain ⟨hphase, halive, hserved, hexited, hbefore, hdrained, hreturned⟩ := h
  refine ⟨?_, ?_, fun hsome => absurd hqueue hsome, ?_, hbefore, hdrained, hreturned⟩
  · refine phaseFacts_worker hphase hworker ⟨rfl, rfl, rfl⟩ rfl ?_
    cases s.poolRunning <;> simp
  · intro hrunning
    obtain ⟨hnone, hsome⟩ := halive hrunning
    dsimp only at hrunning
    refine ⟨?_, by simpa using hsome⟩
    intro hmem
    rcases List.mem_or_eq_of_mem_set hmem with hold | hnew
    · exact hnone hold
    · simp [hrunning] at hnew
  · intro hmem
    refine ⟨?_, hqueue⟩
    rcases List.mem_or_eq_of_mem_set hmem with hold | hnew
    · exact (hexited hold).1
    · cases hrunning : s.poolRunning with
      | false => rfl
      | true => simp [hrunning] at hnew

theorem served_worker {s t : State} {index : Nat} {worker : WorkerPc} (h : Served s)
    (hworker : s.workers[index]? = some worker)
    (hstep : workerStep s index worker = some t) : Served t := by
  unfold workerStep at hstep
  cases worker with
  | ready =>
      dsimp only at hstep
      split at hstep
      · cases hstep
      · cases hqueue : s.taskQueue with
        | nil =>
            simp only [hqueue, Option.some.injEq] at hstep
            subst hstep
            have := served_idle h hworker hqueue
            rwa [hqueue] at this
        | cons task rest =>
            simp only [hqueue, Option.some.injEq] at hstep
            subst hstep
            exact h.of_awake hworker rfl rfl ⟨rfl, rfl, rfl, rfl⟩ (by simp [hqueue]) rfl
              fun _ => id
  | running task =>
      cases hstep
      exact h.of_awake hworker rfl rfl ⟨rfl, rfl, rfl, rfl⟩ id rfl
        fun i hi => List.mem_append_left _ hi
  | finishing task key =>
      cases hstep
      exact h.of_awake hworker rfl rfl ⟨rfl, rfl, rfl, rfl⟩ id rfl fun _ => id
  | counted task key finished =>
      cases hstep
      refine h.of_awake hworker ?_ rfl ⟨rfl, rfl, rfl, rfl⟩ id rfl fun _ => id
      split
      · rfl
      · exact awake_next task key
  | waking task key =>
      cases hstep
      exact h.of_awake hworker (awake_next task key) rfl ⟨rfl, rfl, rfl, rfl⟩ id rfl
        fun _ => id
  | blocked | exited => cases hstep

theorem all_ran {s : State} (h : Accounted s) (hqueue : s.taskQueue = [])
    (hidle : ∀ i, s.workers.countP (holds i) = 0) : ∀ i ∈ s.submissions, i ∈ s.ranInPool := by
  intro i hi
  have hsubmitted := h.submitted i
  have howner := h.owner i
  have hinPool := h.inPool i
  have hpos := List.count_pos_iff.mpr hi
  rw [hqueue, hidle i] at howner
  unfold tally at hsubmitted howner hinPool
  cases hget : s.dispatches[i]? with
  | none =>
      simp only [hget, Option.any_none, Bool.false_eq_true, if_false] at hsubmitted
      omega
  | some dispatch =>
      simp only [hget, Option.any_some] at hsubmitted howner hinPool
      apply List.count_pos_iff.mp
      rw [hinPool]
      cases hpc : dispatch.pc <;> simp_all [entered, active, ranByWorker]

theorem Served.taskQueue_eq_nil {s : State} (h : Served s)
    (hworkers : ∀ worker ∈ s.workers, worker = .exited)
    (hspawn : willSpawn s.control = false) : s.taskQueue = [] := by
  by_contra hsome
  rcases h.served hsome with ⟨worker, hmem, hawake⟩ | hwill
  · rw [hworkers worker hmem] at hawake
    cases hawake
  · simp [hspawn] at hwill

theorem Served.return {s : State} {result : PimError} (h : Served s)
    (hphase : s.poolRunning = false → s.workers = []) (hspawn : willSpawn s.control = false)
    (hdrained : s.call.drains = true → result = .success →
      ∀ i ∈ s.call.before, i ∈ s.ranInPool) : Served (s.return result) := by
  obtain ⟨_, halive, hserved, hexited, hbefore, _, hreturned⟩ := h
  simp only [hspawn] at halive hserved
  refine ⟨hphase, ?_, ?_, hexited, hbefore, ?_, ?_⟩
  · exact fun hrunning => by simpa [State.return, willSpawn] using halive hrunning
  · exact fun hsome => by simpa [State.return, willSpawn] using hserved hsome
  · intro _ hpast
    cases hpast
  · intro ret hret
    rcases List.mem_append.mp hret with hold | hnew
    · exact hreturned ret hold
    · rw [List.mem_singleton.mp hnew]
      exact hdrained

theorem Served.of_control {s t : State} (h : Served s)
    (ht : t = { s with
      maxActiveDpus := t.maxActiveDpus
      waiters := t.waiters
      poolRunning := t.poolRunning
      control := t.control })
    (hphase : PhaseFacts t) (hrunning : t.poolRunning = true → s.poolRunning = true)
    (hspawn : willSpawn s.control = false)
    (hdrained : s.call.drains = true → pastJoin t.control = true →
      ∀ i ∈ s.call.before, i ∈ s.ranInPool) : Served t := by
  obtain ⟨_, halive, hserved, hexited, hbefore, _, hreturned⟩ := h
  rw [ht] at hphase hrunning hdrained ⊢
  refine ⟨hphase, ?_, ?_, ?_, hbefore, hdrained, hreturned⟩
  · intro hstart
    obtain ⟨hnone, hsome⟩ := halive (hrunning hstart)
    exact ⟨hnone, .inl (hsome.resolve_right (by simp [hspawn]))⟩
  · intro hsome
    exact .inl ((hserved hsome).resolve_right (by simp [hspawn]))
  · intro hmem
    obtain ⟨hstopped, hempty⟩ := hexited hmem
    refine ⟨?_, hempty⟩
    by_contra hstart
    have := hrunning (by simpa using hstart)
    simp [hstopped] at this

theorem served_spawn {s : State} {control : ControlPc} (h : Served s)
    (hrunning : s.poolRunning = true)
    (hphase : PhaseFacts { s with workers := s.workers ++ [.ready], control := control })
    (hpast : pastJoin control = true → pastJoin s.control = true) :
    Served { s with workers := s.workers ++ [.ready], control := control } := by
  obtain ⟨_, halive, _, hexited, hbefore, hdrained, hreturned⟩ := h
  have hnone : .exited ∉ s.workers ++ [.ready] := by
    simpa using (halive hrunning).1
  exact ⟨hphase, fun _ => ⟨hnone, .inl (by simp)⟩, fun _ => .inl ⟨.ready, by simp, rfl⟩,
    fun hmem => absurd hmem hnone, hbefore,
    fun hdrains hnow => hdrained hdrains (hpast hnow), hreturned⟩

theorem served_notifyAll {s : State} {after : AfterJoin} (h : Served s)
    (hcontrol : s.control = .notifying after) :
    Served { s with workers := s.workers.map WorkerPc.notify, control := .waking after } := by
  obtain ⟨hphase, _, hserved, hexited, hbefore, _, hreturned⟩ := h
  simp only [PhaseFacts, hcontrol] at hphase
  have hmem (worker : WorkerPc) (hnotified : worker ∈ s.workers.map WorkerPc.notify) :
      worker ≠ .blocked ∧ (worker = .exited → .exited ∈ s.workers) := by
    obtain ⟨old, hold, rfl⟩ := List.mem_map.mp hnotified
    cases old <;> simp_all [WorkerPc.notify]
  refine ⟨⟨hphase.1, hphase.2, fun hblocked => (hmem _ hblocked).1 rfl⟩, ?_, ?_, ?_,
    hbefore, ?_, hreturned⟩
  · intro hrunning
    simp [hphase.1] at hrunning
  · intro hsome
    rcases hserved hsome with ⟨worker, hold, hawake⟩ | hspawn
    · refine .inl ⟨worker.notify, List.mem_map_of_mem hold, ?_⟩
      cases worker <;> first | rfl | cases hawake
    · simp [hcontrol, willSpawn] at hspawn
  · exact fun hnow => hexited ((hmem _ hnow).2 rfl)
  · intro _ hpast
    cases hpast

theorem served_join {s : State} {after : AfterJoin} (h : Served s) (haccounted : Accounted s)
    (hcontrol : s.control = .joining after) (hexited : ∀ worker ∈ s.workers, worker = .exited) :
    Served { s with workers := [], maxActiveDpus := 0, control := .joined after } := by
  have hqueue := h.taskQueue_eq_nil hexited (by simp [hcontrol, willSpawn])
  have hran := all_ran haccounted hqueue fun i => by
    rw [List.countP_eq_zero]
    intro worker hmem
    simp [hexited worker hmem, holds, holding]
  obtain ⟨hphase, _, _, _, hbefore, _, hreturned⟩ := h
  simp only [PhaseFacts, hcontrol] at hphase
  refine ⟨⟨hphase.1, hphase.2.1, rfl⟩, ?_, fun hsome => absurd hqueue hsome, by simp,
    hbefore, fun _ _ i hi => hran i (hbefore i hi), hreturned⟩
  intro hrunning
  simp [hphase.1] at hrunning

theorem served_start {s : State} {count : Nat} (h : Served s)
    (hcontrol : s.control = .starting count) :
    Served { s with poolRunning := true, control := .spawning count } := by
  obtain ⟨hphase, _, _, _, hbefore, hdrained, hreturned⟩ := h
  simp only [PhaseFacts, hcontrol] at hphase
  have hspawn : willSpawn (.spawning count) = true := by
    cases count with
    | zero => simp at hphase
    | succ left => rfl
  refine ⟨rfl, fun _ => ⟨by simp [hphase.2.1], .inr hspawn⟩, fun _ => .inr hspawn,
    fun hmem => by simp [hphase.2.1] at hmem, hbefore, ?_, hreturned⟩
  exact fun hdrains _ => hdrained hdrains (by simp [hcontrol, pastJoin])

theorem served_poolStartLocked {s : State} {count : Nat} (h : Served s) (hcount : 0 < count)
    (hphase : s.poolRunning = false → s.workers = []) (hspawn : willSpawn s.control = false)
    (hdrained : s.call.drains = true → ∀ i ∈ s.call.before, i ∈ s.ranInPool) :
    Served (poolStartLocked s count) := by
  unfold poolStartLocked
  split
  · exact h.return hphase hspawn fun hdrains _ => hdrained hdrains
  · split
    · exact h.return hphase hspawn fun hdrains _ => hdrained hdrains
    · rename_i hstopped
      have hstopped : s.poolRunning = false := by simpa using hstopped
      exact h.of_control rfl ⟨hstopped, hphase hstopped, hcount⟩ id hspawn
        fun hdrains _ => hdrained hdrains

theorem served_stop {s t : State} {after : AfterJoin} (h : Served s)
    (haccounted : Accounted s) (hcontrol : s.control = .stopping after)
    (hstep : controlStep s true = some t) : Served t := by
  have hphase := h.phase
  simp only [PhaseFacts, hcontrol] at hphase
  simp only [controlStep, hcontrol] at hstep
  split at hstep <;> cases hstep
  · rename_i hearly
    obtain ⟨hstopped, hnone, hafter⟩ := hearly
    have hqueue := h.taskQueue_eq_nil (by simp [hnone]) (by simp [hcontrol, willSpawn])
    have hran := all_ran haccounted hqueue (by simp [hnone])
    exact h.of_control rfl ⟨hstopped, hafter, hnone⟩ id (by simp [hcontrol, willSpawn])
      fun _ _ i hi => hran i (h.before i hi)
  · exact h.of_control rfl ⟨rfl, hphase.2⟩ (by simp) (by simp [hcontrol, willSpawn])
      (by simp [pastJoin])

theorem served_finish {s t : State} {after : AfterJoin} (h : Served s)
    (hcontrol : s.control = .finishing after) (hstep : controlStep s true = some t) :
    Served t := by
  have hphase := h.phase
  simp only [PhaseFacts, hcontrol] at hphase
  have hdrained (hdrains : s.call.drains = true) : ∀ i ∈ s.call.before, i ∈ s.ranInPool :=
    h.drained hdrains (by simp [hcontrol, pastJoin])
  have hspawn : willSpawn s.control = false := by simp [hcontrol, willSpawn]
  cases after with
  | startFailed => exact absurd rfl hphase.2.1
  | stopped =>
      simp only [controlStep, hcontrol, Option.some.injEq] at hstep
      subst hstep
      exact h.return (fun _ => hphase.2.2) hspawn fun hdrains _ => hdrained hdrains
  | restart count =>
      simp only [controlStep, hcontrol, Option.some.injEq] at hstep
      subst hstep
      split
      · exact h.return (fun _ => hphase.2.2) hspawn fun hdrains _ => hdrained hdrains
      · exact served_poolStartLocked h (by omega) (fun _ => hphase.2.2) hspawn hdrained

theorem served_control {s t : State} (h : Served s) (haccounted : Accounted s)
    (hstep : controlStep s true = some t) : Served t := by
  have hphase := h.phase
  unfold PhaseFacts at hphase
  cases hcontrol : s.control with
  | idle => simp [controlStep, hcontrol] at hstep
  | starting count =>
      simp only [controlStep, hcontrol, Option.some.injEq] at hstep
      subst hstep
      exact served_start h hcontrol
  | spawning left =>
      simp only [hcontrol] at hphase
      cases left with
      | zero =>
          simp only [controlStep, hcontrol, Option.some.injEq] at hstep
          subst hstep
          exact h.return (by simp [hphase]) (by simp [hcontrol, willSpawn])
            fun hdrains _ => h.drained hdrains (by simp [hcontrol, pastJoin])
      | succ left =>
          simp only [controlStep, hcontrol, if_true, Option.some.injEq] at hstep
          subst hstep
          exact served_spawn h hphase hphase (by simp [hcontrol, pastJoin])
  | expanding left target =>
      simp only [hcontrol] at hphase
      cases left with
      | zero =>
          simp only [controlStep, hcontrol, Option.some.injEq] at hstep
          subst hstep
          have hframe : Served { s with maxActiveDpus := target } :=
            h.of_frame ⟨rfl, rfl, rfl, rfl, rfl, rfl⟩ rfl rfl
          exact hframe.return (by simp [hphase.1]) (by simp [hcontrol, willSpawn])
            (by simp [hphase.2])
      | succ left =>
          simp only [controlStep, hcontrol, if_true, Option.some.injEq] at hstep
          subst hstep
          exact served_spawn h hphase.1 hphase (by simp [pastJoin])
  | stopping after => exact served_stop h haccounted hcontrol hstep
  | notifying after =>
      simp only [controlStep, hcontrol, Option.some.injEq] at hstep
      subst hstep
      exact served_notifyAll h hcontrol
  | waking after =>
      simp only [hcontrol] at hphase
      simp only [controlStep, hcontrol, Option.some.injEq] at hstep
      subst hstep
      exact h.of_control rfl hphase id (by simp [hcontrol, willSpawn]) (by simp [pastJoin])
  | joining after =>
      simp only [controlStep, hcontrol] at hstep
      split at hstep <;> cases hstep
      rename_i hexited
      exact served_join h haccounted hcontrol hexited
  | joined after =>
      simp only [hcontrol] at hphase
      simp only [controlStep, hcontrol, Option.some.injEq] at hstep
      subst hstep
      exact h.of_control rfl hphase id (by simp [hcontrol, willSpawn])
        fun hdrains _ => h.drained hdrains (by simp [hcontrol, pastJoin])
  | finishing after => exact served_finish h hcontrol hstep

theorem Served.of_call {s : State} (h : Served s) (hidle : s.control = .idle)
    (drains : Bool) : Served { s with call := ⟨drains, s.submissions⟩ } := by
  obtain ⟨hphase, halive, hserved, hexited, _, _, hreturned⟩ := h
  refine ⟨?_, halive, hserved, hexited, fun _ => id, ?_, hreturned⟩
  · unfold PhaseFacts at hphase ⊢
    simpa only [hidle] using hphase
  · intro _ hpast
    simp [hidle, pastJoin] at hpast

theorem served_poolStart {s : State} (h : Served s) (hidle : s.control = .idle)
    (limit hardware : Nat) : Served (poolStart s limit hardware) := by
  have hphase := h.phase
  simp only [PhaseFacts, hidle] at hphase
  refine served_poolStartLocked (h.of_call hidle false) ?_ hphase ?_ (by simp)
  · unfold poolGetHardwareConcurrencyLimit
    split_ifs <;> omega
  · simp [hidle, willSpawn]

theorem served_poolStop {s : State} (h : Served s) (hidle : s.control = .idle)
    (caller : Option Nat) : Served (poolStop s caller) := by
  have hphase := h.phase
  simp only [PhaseFacts, hidle] at hphase
  have hcalled := h.of_call hidle true
  have hspawn : willSpawn s.control = false := by simp [hidle, willSpawn]
  unfold poolStop
  dsimp only
  split
  · exact hcalled.return hphase hspawn (by simp)
  · exact hcalled.of_control rfl ⟨hphase, by simp⟩ id hspawn (by simp [pastJoin])

theorem served_setMaxActiveDpus {s : State} (h : Served s) (hidle : s.control = .idle)
    (caller : Option Nat) (concurrency : Nat) :
    Served (setMaxActiveDpus s caller concurrency) := by
  have hphase := h.phase
  simp only [PhaseFacts, hidle] at hphase
  have hcalled :=
    h.of_call hidle (s.poolRunning && decide (concurrency < s.workers.length))
  have hspawn : willSpawn s.control = false := by simp [hidle, willSpawn]
  unfold setMaxActiveDpus
  dsimp only
  split_ifs with hworker hteardown hstopped hequal hgrow
  · exact hcalled.return hphase hspawn (by simp)
  · exact hcalled.return hphase hspawn (by simp)
  · have hstopped : s.poolRunning = false := by simpa using hstopped
    refine Served.return (hcalled.of_frame ⟨rfl, rfl, rfl, rfl, rfl, rfl⟩ rfl rfl) hphase
      hspawn ?_
    simp [hstopped]
  · refine Served.return (hcalled.of_frame ⟨rfl, rfl, rfl, rfl, rfl, rfl⟩ rfl rfl) hphase
      hspawn ?_
    simp [hequal]
  · have hrunning : s.poolRunning = true := by simpa using hstopped
    refine hcalled.of_control rfl ⟨hrunning, ?_⟩ id hspawn (by simp [pastJoin])
    have hnot : ¬ concurrency < s.workers.length := by omega
    simp [hnot]
  · exact hcalled.of_control rfl ⟨hphase, by simp⟩ id hspawn (by simp [pastJoin])

theorem served_step (s : State) (action : Action) (t : State)
    (h : Accounted s ∧ Served s) (hok : action ≠ .control false)
    (hstep : step s action = some t) : Accounted t ∧ Served t := by
  refine ⟨accounted_step s action t h.1 hstep, ?_⟩
  obtain ⟨haccounted, hserved⟩ := h
  cases action with
  | dispatch entry =>
      cases hstep
      exact hserved.of_frame ⟨rfl, rfl, rfl, rfl, rfl, rfl⟩ rfl rfl
  | advance index notified =>
      obtain ⟨dispatch, _, hmove⟩ := Option.bind_eq_some_iff.mp hstep
      exact served_dispatch hserved hmove
  | pushFails index =>
      obtain ⟨dispatch, _, hmove⟩ := Option.bind_eq_some_iff.mp hstep
      unfold pushFailsStep at hmove
      split at hmove <;> cases hmove
      exact hserved.of_frame ⟨rfl, rfl, rfl, rfl, rfl, rfl⟩ rfl rfl
  | worker index =>
      obtain ⟨worker, hworker, hmove⟩ := Option.bind_eq_some_iff.mp hstep
      exact served_worker hserved hworker hmove
  | poolStart limit hardware =>
      simp only [step] at hstep
      split at hstep <;> cases hstep
      rename_i hidle
      exact served_poolStart hserved hidle limit hardware
  | poolStop caller =>
      simp only [step] at hstep
      split at hstep <;> cases hstep
      rename_i hidle
      exact served_poolStop hserved hidle.1 caller
  | setMaxActiveDpus caller concurrency =>
      simp only [step] at hstep
      split at hstep <;> cases hstep
      rename_i hidle
      exact served_setMaxActiveDpus hserved hidle.1 caller concurrency
  | control spawned =>
      cases spawned with
      | false => exact absurd rfl hok
      | true => exact served_control hserved haccounted hstep
  | barrier key =>
      cases hstep
      exact hserved.of_frame ⟨rfl, rfl, rfl, rfl, rfl, rfl⟩ rfl rfl
  | waiter index =>
      obtain ⟨waiter, _, hmove⟩ := Option.bind_eq_some_iff.mp hstep
      obtain ⟨hsame, hworkers, hcontrol, hrunning, hcall, hreturns⟩ := waiterStep_frame hmove
      exact hserved.of_frame
        ⟨hcontrol, hrunning, hworkers, hsame.taskQueue, hcall, hreturns⟩
        hsame.submissions hsame.ranInPool
  | setTeardown value =>
      cases hstep
      exact hserved.of_frame ⟨rfl, rfl, rfl, rfl, rfl, rfl⟩ rfl rfl

end HostPimSim.Core.Pool
