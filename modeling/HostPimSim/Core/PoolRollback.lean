import HostPimSim.Core.Barrier
import HostPimSim.Core.PoolService
import HostPimSim.Core.PoolSize

/-! A start of the pool that cannot create its threads.  `pool_running` is set before
the first of them, so tasks are accepted on the way; the rollback drains them through
the threads there are. -/
namespace HostPimSim.Core.Pool
open Threads Transition

def State.unwatched (s : State) : State := { s with waiters := [] }

theorem dispatchStep_unwatched {s t : State} {index notified : Nat} {dispatch : Dispatch}
    (hstep : dispatchStep s index notified dispatch = some t) :
    dispatchStep s.unwatched index notified dispatch = some t.unwatched := by
  unfold dispatchStep at hstep ⊢
  cases hpc : dispatch.pc with
  | checked =>
      rw [hpc] at hstep
      dsimp only at hstep ⊢
      split at hstep
      · cases hstep
      · rename_i hfree
        refine (if_neg hfree).trans ?_
        split at hstep
        · rename_i hstopped
          cases hstep
          exact if_pos hstopped
        · rename_i hrunning
          obtain ⟨workers, hnotify, rfl⟩ := Option.map_eq_some_iff.mp hstep
          exact (if_neg hrunning).trans (Option.map_eq_some_iff.mpr ⟨workers, hnotify, rfl⟩)
  | _ =>
      rw [hpc] at hstep
      cases hstep
      try rfl

theorem workerStep_unwatched {s t : State} {index : Nat} {worker : WorkerPc}
    (hstep : workerStep s index worker = some t) :
    workerStep s.unwatched index worker = some t.unwatched := by
  unfold workerStep at hstep ⊢
  cases worker with
  | ready =>
      dsimp only at hstep ⊢
      split at hstep
      · cases hstep
      · rename_i hfree
        refine (if_neg hfree).trans ?_
        dsimp only [State.unwatched]
        split at hstep <;> cases hstep <;> rfl
  | blocked | exited => cases hstep
  | _ =>
      cases hstep
      rfl

theorem unwatched_step (s : State) (action : Action) (t : State)
    (h : Accounted s ∧ Balanced s.unwatched) (hstep : step s action = some t) :
    Accounted t ∧ Balanced t.unwatched := by
  refine ⟨accounted_step s action t h.1 hstep, ?_⟩
  obtain ⟨haccounted, hbalanced⟩ := h
  have hunwatched : Accounted s.unwatched :=
    haccounted.of_sameTasks (.of_tasks rfl) (fun _ => rfl) fun worker hmem held hheld =>
      ⟨worker, hmem, hheld⟩
  have hframe (hsame : SameTasks s t) (hchange : WorkersChange s.workers t.workers) :
      Balanced t.unwatched := by
    refine hbalanced.of_control ?_ hchange fun waiter hmem => by cases hmem
    obtain ⟨h1, h2, h3, h4, h5, h6, h7, h8, h9⟩ := hsame
    exact ⟨h1, h2, h3, h4, h5, h6, h7, h8, h9⟩
  cases action with
  | dispatch entry =>
      cases hstep
      exact balanced_new hbalanced entry
  | advance index notified =>
      obtain ⟨dispatch, hdispatch, hmove⟩ := Option.bind_eq_some_iff.mp hstep
      exact balanced_dispatch hbalanced hdispatch (dispatchStep_unwatched hmove)
  | pushFails index =>
      obtain ⟨dispatch, hdispatch, hmove⟩ := Option.bind_eq_some_iff.mp hstep
      unfold pushFailsStep at hmove
      split at hmove <;> cases hmove
      rename_i hguard
      refine balanced_move hbalanced hdispatch ?_ (by rw [hguard.1]; rfl) rfl
        ⟨rfl, rfl, rfl, rfl, rfl, rfl⟩
      intro key
      rw [hguard.1]
      cases key <;> exact ⟨rfl, rfl⟩
  | worker index =>
      obtain ⟨worker, hworker, hmove⟩ := Option.bind_eq_some_iff.mp hstep
      exact balanced_worker hbalanced hunwatched hworker (workerStep_unwatched hmove)
  | poolStart limit hardware =>
      simp only [step] at hstep
      split at hstep <;> cases hstep
      obtain ⟨hsame, hworkers⟩ := poolStart_frame s limit hardware
      exact hframe hsame (hworkers ▸ .kept)
  | poolStop caller =>
      simp only [step] at hstep
      split at hstep <;> cases hstep
      obtain ⟨hsame, hworkers⟩ := poolStop_frame s caller
      exact hframe hsame (hworkers ▸ .kept)
  | setMaxActiveDpus caller concurrency =>
      simp only [step] at hstep
      split at hstep <;> cases hstep
      obtain ⟨hsame, hworkers⟩ := setMaxActiveDpus_frame s caller concurrency
      exact hframe hsame (hworkers ▸ .kept)
  | control spawned =>
      obtain ⟨hsame, hchange⟩ := controlStep_frame hstep
      exact hframe hsame hchange
  | barrier key =>
      cases hstep
      exact hbalanced
  | waiter index =>
      obtain ⟨waiter, hwaiter, hmove⟩ := Option.bind_eq_some_iff.mp hstep
      obtain ⟨hsame, hworkers, -⟩ := waiterStep_frame hmove
      exact hframe hsame (hworkers ▸ .kept)
  | setTeardown value =>
      cases hstep
      exact hframe (.of_tasks rfl) .kept

structure Uncontrolled (s t : State) : Prop where
  control : t.control = s.control
  running : t.poolRunning = s.poolRunning
  returns : t.returns = s.returns
  length : t.workers.length = s.workers.length
  kept : s.poolRunning = false → s.workers = [] → t.taskQueue = s.taskQueue
  emptied : s.poolRunning = false → s.taskQueue = [] → t.taskQueue = []
  exited : .exited ∈ t.workers →
    .exited ∈ s.workers ∨ s.poolRunning = false ∧ t.taskQueue = []

theorem uncontrolled_of_workers {s t : State} (hcontrol : t.control = s.control)
    (hrunning : t.poolRunning = s.poolRunning) (hreturns : t.returns = s.returns)
    (hworkers : t.workers = s.workers) (hqueue : t.taskQueue = s.taskQueue) :
    Uncontrolled s t where
  control := hcontrol
  running := hrunning
  returns := hreturns
  length := by rw [hworkers]
  kept := fun _ _ => hqueue
  emptied := fun _ hnil => hqueue.trans hnil
  exited := fun hmem => .inl (hworkers ▸ hmem)

theorem uncontrolled_dispatch {s t : State} {index notified : Nat} {dispatch : Dispatch}
    (hstep : dispatchStep s index notified dispatch = some t) : Uncontrolled s t := by
  unfold dispatchStep at hstep
  cases hpc : dispatch.pc with
  | checked =>
      rw [hpc] at hstep
      dsimp only at hstep
      split at hstep
      · cases hstep
      · split at hstep
        · cases hstep
          exact uncontrolled_of_workers rfl rfl rfl rfl rfl
        · rename_i hrunning
          obtain ⟨workers, hnotify, rfl⟩ := Option.map_eq_some_iff.mp hstep
          have hstopped : s.poolRunning ≠ false := by simpa using hrunning
          refine ⟨rfl, rfl, rfl, length_notifyOne hnotify, fun h => absurd h hstopped,
            fun h => absurd h hstopped, fun hmem => .inl ?_⟩
          rcases mem_of_mem_notifyOne hnotify hmem with hready | hold
          · cases hready
          · exact hold
  | _ =>
      rw [hpc] at hstep
      cases hstep
      try exact uncontrolled_of_workers rfl rfl rfl rfl rfl

theorem uncontrolled_of_set {s t : State} {index : Nat} {worker moved : WorkerPc}
    (hworker : s.workers[index]? = some worker) (hworkers : t.workers = s.workers.set index moved)
    (hmoved : moved = .exited → s.poolRunning = false ∧ t.taskQueue = [])
    (hqueue : s.taskQueue = [] → t.taskQueue = []) (hcontrol : t.control = s.control)
    (hrunning : t.poolRunning = s.poolRunning) (hreturns : t.returns = s.returns) :
    Uncontrolled s t where
  control := hcontrol
  running := hrunning
  returns := hreturns
  length := by rw [hworkers, List.length_set]
  kept := fun _ hnone => by simp [hnone] at hworker
  emptied := fun _ => hqueue
  exited := by
    rw [hworkers]
    intro hmem
    rcases List.mem_or_eq_of_mem_set hmem with hold | hnew
    · exact .inl hold
    · exact .inr (hmoved hnew.symm)

theorem uncontrolled_worker {s t : State} {index : Nat} {worker : WorkerPc}
    (hworker : s.workers[index]? = some worker)
    (hstep : workerStep s index worker = some t) : Uncontrolled s t := by
  unfold workerStep at hstep
  cases worker with
  | ready =>
      dsimp only at hstep
      split at hstep
      · cases hstep
      · cases hqueue : s.taskQueue with
        | nil =>
            rw [hqueue] at hstep
            cases hstep
            refine uncontrolled_of_set hworker rfl ?_ (fun _ => rfl) rfl rfl rfl
            intro hexited
            cases hrunning : s.poolRunning with
            | true => simp [hrunning] at hexited
            | false => exact ⟨rfl, rfl⟩
        | cons task rest =>
            rw [hqueue] at hstep
            cases hstep
            refine uncontrolled_of_set hworker rfl (by simp) ?_ rfl rfl rfl
            intro hnil
            simp [hqueue] at hnil
  | counted task key finished =>
      cases hstep
      refine uncontrolled_of_set hworker rfl ?_ id rfl rfl rfl
      intro hexited
      split at hexited
      · cases hexited
      · cases key <;> cases hexited
  | waking task key =>
      cases hstep
      refine uncontrolled_of_set hworker rfl ?_ id rfl rfl rfl
      intro hexited
      cases key <;> cases hexited
  | blocked | exited => cases hstep
  | _ =>
      cases hstep
      exact uncontrolled_of_set hworker rfl (by simp) id rfl rfl rfl

theorem step_cases {s t : State} {action : Action} (hstep : step s action = some t) :
    Uncontrolled s t ∨ (∃ spawned, controlStep s spawned = some t) ∨
      (s.control = .idle ∧ ((∃ limit hardware, t = poolStart s limit hardware) ∨
        (∃ caller, t = poolStop s caller) ∨
          ∃ caller concurrency, t = setMaxActiveDpus s caller concurrency)) := by
  cases action with
  | dispatch entry | barrier key | setTeardown value =>
      cases hstep
      exact .inl (uncontrolled_of_workers rfl rfl rfl rfl rfl)
  | advance index notified =>
      obtain ⟨dispatch, _, hmove⟩ := Option.bind_eq_some_iff.mp hstep
      exact .inl (uncontrolled_dispatch hmove)
  | pushFails index =>
      obtain ⟨dispatch, _, hmove⟩ := Option.bind_eq_some_iff.mp hstep
      unfold pushFailsStep at hmove
      split at hmove <;> cases hmove
      exact .inl (uncontrolled_of_workers rfl rfl rfl rfl rfl)
  | worker index =>
      obtain ⟨worker, hworker, hmove⟩ := Option.bind_eq_some_iff.mp hstep
      exact .inl (uncontrolled_worker hworker hmove)
  | poolStart limit hardware =>
      simp only [step] at hstep
      split at hstep <;> cases hstep
      rename_i hidle
      exact .inr (.inr ⟨hidle, .inl ⟨limit, hardware, rfl⟩⟩)
  | poolStop caller =>
      simp only [step] at hstep
      split at hstep <;> cases hstep
      rename_i hidle
      exact .inr (.inr ⟨hidle.1, .inr (.inl ⟨caller, rfl⟩)⟩)
  | setMaxActiveDpus caller concurrency =>
      simp only [step] at hstep
      split at hstep <;> cases hstep
      rename_i hidle
      exact .inr (.inr ⟨hidle.1, .inr (.inr ⟨caller, concurrency, rfl⟩)⟩)
  | control spawned => exact .inr (.inl ⟨spawned, hstep⟩)
  | waiter index =>
      obtain ⟨waiter, _, hmove⟩ := Option.bind_eq_some_iff.mp hstep
      obtain ⟨hsame, hworkers, hcontrol, hrunning, -, hreturns⟩ := waiterStep_frame hmove
      exact .inl (uncontrolled_of_workers hcontrol hrunning hreturns hworkers hsame.taskQueue)

def StaffPhase (s : State) : Prop :=
  match s.control with
  | .idle | .stopping _ => s.poolRunning = false → s.workers = []
  | .starting _ => s.poolRunning = false ∧ s.workers = []
  | .spawning _ | .expanding _ _ => s.poolRunning = true
  | .notifying _ | .waking _ | .joining _ => s.poolRunning = false
  | .joined _ | .finishing _ => s.poolRunning = false ∧ s.workers = []

structure Staffed (s : State) : Prop where
  phase : StaffPhase s
  exited : .exited ∈ s.workers → s.poolRunning = false ∧ s.taskQueue = []

theorem staffed_init : Staffed init := ⟨fun _ => rfl, by simp [init]⟩

theorem Staffed.of_uncontrolled {s t : State} (h : Staffed s) (hstep : Uncontrolled s t) :
    Staffed t := by
  have hnil : s.workers = [] → t.workers = [] := fun hnone =>
    List.length_eq_zero_iff.mp (by rw [hstep.length, hnone]; rfl)
  constructor
  · have hphase := h.phase
    unfold StaffPhase at hphase ⊢
    rw [hstep.control, hstep.running]
    cases hcontrol : s.control with
    | idle | stopping after =>
        rw [hcontrol] at hphase
        exact fun hstopped => hnil (hphase hstopped)
    | starting count | joined after | finishing after =>
        rw [hcontrol] at hphase
        exact ⟨hphase.1, hnil hphase.2⟩
    | _ =>
        rw [hcontrol] at hphase
        exact hphase
  · intro hmem
    rw [hstep.running]
    rcases hstep.exited hmem with hold | hnew
    · obtain ⟨hstopped, hempty⟩ := h.exited hold
      exact ⟨hstopped, hstep.emptied hstopped hempty⟩
    · exact hnew

theorem staffed_return {s : State} {result : PimError}
    (hphase : s.poolRunning = false → s.workers = [])
    (hexited : .exited ∈ s.workers → s.poolRunning = false ∧ s.taskQueue = []) :
    Staffed (s.return result) := ⟨hphase, hexited⟩

theorem staffed_poolStartLocked {s : State} {count : Nat}
    (hphase : s.poolRunning = false → s.workers = [])
    (hexited : .exited ∈ s.workers → s.poolRunning = false ∧ s.taskQueue = []) :
    Staffed (poolStartLocked s count) := by
  unfold poolStartLocked
  split
  · exact staffed_return hphase hexited
  · split
    · exact staffed_return hphase hexited
    · rename_i hstopped
      have hstopped : s.poolRunning = false := by simpa using hstopped
      exact ⟨⟨hstopped, hphase hstopped⟩, hexited⟩

theorem Staffed.running {s : State} (h : Staffed s) (hrunning : s.poolRunning = true) :
    .exited ∉ s.workers := by
  intro hmem
  have hstopped := (h.exited hmem).1
  rw [hrunning] at hstopped
  cases hstopped

theorem staffed_control {s t : State} {spawned : Bool} (h : Staffed s)
    (hstep : controlStep s spawned = some t) : Staffed t := by
  have hphase := h.phase
  have hspawn {control : ControlPc} (hrunning : s.poolRunning = true)
      (hnext : StaffPhase { s with workers := s.workers ++ [.ready], control := control }) :
      Staffed { s with workers := s.workers ++ [.ready], control := control } := by
    refine ⟨hnext, fun hmem => absurd ?_ (h.running hrunning)⟩
    simpa using hmem
  unfold StaffPhase at hphase
  unfold controlStep at hstep
  cases hcontrol : s.control with
  | idle =>
      rw [hcontrol] at hstep
      cases hstep
  | starting count =>
      rw [hcontrol] at hstep hphase
      cases hstep
      exact ⟨rfl, fun hmem => by simp [hphase.2] at hmem⟩
  | spawning left =>
      rw [hcontrol] at hstep hphase
      cases left with
      | zero =>
          cases hstep
          exact staffed_return (fun hstopped => by simp [hphase] at hstopped) h.exited
      | succ left =>
          dsimp only at hstep hphase
          split at hstep <;> cases hstep
          · exact hspawn hphase hphase
          · exact ⟨fun hstopped => by simp [hphase] at hstopped, h.exited⟩
  | expanding left target =>
      rw [hcontrol] at hstep hphase
      cases left with
      | zero =>
          cases hstep
          exact staffed_return (fun hstopped => by simp [hphase] at hstopped) h.exited
      | succ left =>
          dsimp only at hstep hphase
          split at hstep <;> cases hstep
          · exact hspawn hphase hphase
          · exact staffed_return (fun hstopped => by simp [hphase] at hstopped) h.exited
  | stopping after =>
      rw [hcontrol] at hstep hphase
      dsimp only at hstep
      split at hstep <;> cases hstep
      · rename_i hearly
        exact ⟨⟨hearly.1, hearly.2.1⟩, h.exited⟩
      · exact ⟨rfl, fun hmem => ⟨rfl, (h.exited hmem).2⟩⟩
  | notifying after =>
      rw [hcontrol] at hstep hphase
      cases hstep
      refine ⟨hphase, fun hmem => h.exited ?_⟩
      obtain ⟨old, hold, hnotified⟩ := List.mem_map.mp hmem
      cases old <;> simp_all [WorkerPc.notify]
  | waking after =>
      rw [hcontrol] at hstep hphase
      cases hstep
      exact ⟨hphase, h.exited⟩
  | joining after =>
      rw [hcontrol] at hstep hphase
      dsimp only at hstep
      split at hstep <;> cases hstep
      exact ⟨⟨hphase, rfl⟩, by simp⟩
  | joined after =>
      rw [hcontrol] at hstep hphase
      cases hstep
      exact ⟨hphase, h.exited⟩
  | finishing after =>
      rw [hcontrol] at hstep hphase
      cases after with
      | startFailed | stopped =>
          cases hstep
          exact staffed_return (fun _ => hphase.2) h.exited
      | restart count =>
          cases hstep
          split
          · exact staffed_return (fun _ => hphase.2) h.exited
          · exact staffed_poolStartLocked (fun _ => hphase.2) h.exited

theorem staffed_call {s t : State} (h : Staffed s) (hidle : s.control = .idle)
    (hcall : (∃ limit hardware, t = poolStart s limit hardware) ∨
      (∃ caller, t = poolStop s caller) ∨
        ∃ caller concurrency, t = setMaxActiveDpus s caller concurrency) : Staffed t := by
  have hphase := h.phase
  unfold StaffPhase at hphase
  rw [hidle] at hphase
  rcases hcall with ⟨limit, hardware, rfl⟩ | ⟨caller, rfl⟩ | ⟨caller, concurrency, rfl⟩
  · exact staffed_poolStartLocked hphase h.exited
  · unfold poolStop
    dsimp only
    split
    · exact staffed_return hphase h.exited
    · exact ⟨hphase, h.exited⟩
  · unfold setMaxActiveDpus
    dsimp only
    split_ifs with hcaller hteardown hstopped hequal hmore
    · exact staffed_return hphase h.exited
    · exact staffed_return hphase h.exited
    · exact staffed_return hphase h.exited
    · exact staffed_return hphase h.exited
    · have hrunning : s.poolRunning = true := by simpa using hstopped
      exact ⟨hrunning, h.exited⟩
    · exact ⟨hphase, h.exited⟩

theorem staffed_step (s : State) (action : Action) (t : State) (h : Staffed s)
    (hstep : step s action = some t) : Staffed t := by
  rcases step_cases hstep with hthread | ⟨spawned, hcontrol⟩ | ⟨hidle, hcall⟩
  · exact h.of_uncontrolled hthread
  · exact staffed_control h hcontrol
  · exact staffed_call h hidle hcall

theorem poolStartLocked_returns (s : State) (count : Nat) :
    s.returns.length ≤ (poolStartLocked s count).returns.length := by
  unfold poolStartLocked
  split_ifs <;> simp [State.return]

theorem controlStep_returns {s t : State} {spawned : Bool}
    (hstep : controlStep s spawned = some t) : s.returns.length ≤ t.returns.length := by
  unfold controlStep at hstep
  split at hstep
  · cases hstep
  all_goals
    try split at hstep
    all_goals
      cases hstep
      try simp [State.return]
  exact poolStartLocked_returns s _

theorem returns_le {s t : State} {action : Action} (hstep : step s action = some t) :
    s.returns.length ≤ t.returns.length := by
  rcases step_cases hstep with hthread | ⟨spawned, hcontrol⟩ | ⟨-, hcall⟩
  · exact Nat.le_of_eq (by rw [hthread.returns])
  · exact controlStep_returns hcontrol
  · rcases hcall with ⟨limit, hardware, rfl⟩ | ⟨caller, rfl⟩ | ⟨caller, concurrency, rfl⟩
    · exact poolStartLocked_returns { s with call := ⟨false, s.submissions⟩ } _
    · unfold poolStop
      dsimp only
      split_ifs <;> simp [State.return]
    · unfold setMaxActiveDpus
      dsimp only
      split_ifs <;> simp [State.return]

/-- How far the rollback has come that began at `s`. -/
structure RollingBack (s u : State) : Prop where
  returns : u.returns = s.returns
  stopped : u.poolRunning = false
  kept : s.workers = [] → u.workers = [] ∧ u.taskQueue = s.taskQueue
  phase : match u.control with
    | .notifying .startFailed | .waking .startFailed | .joining .startFailed =>
        u.workers.length = s.workers.length
    | .joined .startFailed | .finishing .startFailed =>
        u.workers = [] ∧ (s.workers ≠ [] → u.taskQueue = [])
    | _ => False

theorem RollingBack.of_uncontrolled {s u v : State} (h : RollingBack s u)
    (hstep : Uncontrolled u v) : RollingBack s v := by
  have hnil : u.workers = [] → v.workers = [] := fun hnone =>
    List.length_eq_zero_iff.mp (by rw [hstep.length, hnone]; rfl)
  refine ⟨hstep.returns.trans h.returns, hstep.running.trans h.stopped, ?_, ?_⟩
  · intro hnone
    obtain ⟨hworkers, hqueue⟩ := h.kept hnone
    exact ⟨hnil hworkers, (hstep.kept h.stopped hworkers).trans hqueue⟩
  · have hphase := h.phase
    rw [hstep.control]
    split at hphase
    · exact hstep.length.trans hphase
    · exact hstep.length.trans hphase
    · exact hstep.length.trans hphase
    · exact ⟨hnil hphase.1, fun hsome => hstep.emptied h.stopped (hphase.2 hsome)⟩
    · exact ⟨hnil hphase.1, fun hsome => hstep.emptied h.stopped (hphase.2 hsome)⟩
    · exact hphase

theorem rollingBack_control {s u v : State} {spawned : Bool} (h : RollingBack s u)
    (hstaffed : Staffed u) (hstep : controlStep u spawned = some v) :
    RollingBack s v ∨ s.returns.length < v.returns.length := by
  obtain ⟨hreturns, hstopped, hkept, hphase⟩ := h
  unfold controlStep at hstep
  split at hphase
  · rename_i hcontrol
    rw [hcontrol] at hstep
    cases hstep
    refine .inl ⟨hreturns, hstopped, fun hnone => ?_, ?_⟩
    · obtain ⟨hworkers, hqueue⟩ := hkept hnone
      exact ⟨by simp [hworkers], hqueue⟩
    · simpa using hphase
  · rename_i hcontrol
    rw [hcontrol] at hstep
    cases hstep
    exact .inl ⟨hreturns, hstopped, hkept, hphase⟩
  · rename_i hcontrol
    rw [hcontrol] at hstep
    dsimp only at hstep
    split at hstep <;> cases hstep
    rename_i hexited
    refine .inl ⟨hreturns, hstopped, fun hnone => ⟨rfl, (hkept hnone).2⟩, rfl, fun hsome => ?_⟩
    cases hworkers : u.workers with
    | nil =>
        rw [hworkers] at hphase
        exact absurd (List.length_eq_zero_iff.mp hphase.symm) hsome
    | cons worker rest =>
        have hmem : worker ∈ u.workers := by simp [hworkers]
        exact (hstaffed.exited (hexited worker hmem ▸ hmem)).2
  · rename_i hcontrol
    rw [hcontrol] at hstep
    cases hstep
    exact .inl ⟨hreturns, hstopped, hkept, hphase⟩
  · rename_i hcontrol
    rw [hcontrol] at hstep
    cases hstep
    right
    simp [State.return, hreturns]
  · exact hphase.elim

theorem rollingBack_step {s u v : State} {action : Action}
    (h : RollingBack s u ∨ s.returns.length < u.returns.length) (hstaffed : Staffed u)
    (hstep : step u action = some v) :
    RollingBack s v ∨ s.returns.length < v.returns.length := by
  rcases h with hrolling | hlater
  · rcases step_cases hstep with hthread | ⟨spawned, hcontrol⟩ | ⟨hidle, -⟩
    · exact .inl (hrolling.of_uncontrolled hthread)
    · exact rollingBack_control hrolling hstaffed hcontrol
    · have hphase := hrolling.phase
      rw [hidle] at hphase
      exact hphase.elim
  · exact .inr (Nat.lt_of_lt_of_le hlater (returns_le hstep))

theorem rollingBack_start {s u : State} {spawned : Bool}
    (hcontrol : s.control = .stopping .startFailed)
    (hstep : step s (.control spawned) = some u) : RollingBack s u := by
  simp only [step, controlStep, hcontrol] at hstep
  rw [if_neg (by simp)] at hstep
  cases hstep
  exact ⟨rfl, rfl, fun hnone => ⟨hnone, rfl⟩, rfl⟩

/-- The rollback of a start from its first step, where `pool_running` is taken back, to
the return of the call. -/
structure FailedStart (s t : State) : Prop where
  fails : s.control = .stopping .startFailed
  returns : ∃ spawned during u, run step s (.control spawned :: during) = some u ∧
    u.returns = s.returns ∧ u.control = .finishing .startFailed ∧
    t = u.return (poolStartFailureError u)

theorem FailedStart.rolledBack {s t : State} (h : FailedStart s t) (hstaffed : Staffed s) :
    t.control = .idle ∧ t.poolRunning = false ∧ t.workers = [] ∧
      (t.taskQueue = [] ↔ s.workers ≠ [] ∨ s.taskQueue = []) := by
  obtain ⟨hfails, spawned, during, u, hrun, hreturns, hcontrol, rfl⟩ := h
  obtain ⟨first, hfirst, hduring⟩ := run_cons_some hrun
  have hinv := run_invariant
    (fun v action w (hv : Staffed v ∧ (RollingBack s v ∨ s.returns.length < v.returns.length))
      hstep => ⟨staffed_step v action w hv.1 hstep, rollingBack_step hv.2 hv.1 hstep⟩)
    ⟨staffed_step s _ first hstaffed hfirst, .inl (rollingBack_start hfails hfirst)⟩ hduring
  rcases hinv.2 with hrolling | hlater
  · have hphase := hrolling.phase
    rw [hcontrol] at hphase
    refine ⟨rfl, hrolling.stopped, hphase.1, ?_⟩
    by_cases hnone : s.workers = []
    · have hqueue : u.taskQueue = s.taskQueue := (hrolling.kept hnone).2
      simp [State.return, hqueue, hnone]
    · exact ⟨fun _ => .inl hnone, fun _ => hphase.2 hnone⟩
  · rw [hreturns] at hlater
    exact absurd hlater (Nat.lt_irrefl _)

/-- On its own the waiter at `index` comes to return. -/
def Returns (t : State) (index : Nat) (waiter : Waiter) : Prop :=
  ∃ n u, run step t (List.replicate n (.waiter index)) = some u ∧
    u.waiters[index]? = some { waiter with pc := .returned }

section
variable {t : State} {index : Nat} {waiter : Waiter}
  (hget : t.waiters[index]? = some waiter)

theorem returns_of_returned (hget : t.waiters[index]? = some waiter)
    (hpc : waiter.pc = .returned) : Returns t index waiter := by
  refine ⟨0, t, rfl, hget.trans ?_⟩
  rw [← hpc]

include hget

theorem returns_of_move (pc : WaiterPc)
    (hstep : waiterStep t index waiter =
      some { t with waiters := t.waiters.set index { waiter with pc := pc } })
    (hnext : Returns { t with waiters := t.waiters.set index { waiter with pc := pc } } index
      { waiter with pc := pc }) : Returns t index waiter := by
  obtain ⟨n, u, hrun, hreturned⟩ := hnext
  refine ⟨n + 1, u, ?_, hreturned⟩
  rw [List.replicate_succ, run_cons]
  refine Option.bind_eq_some_iff.mpr ⟨_, ?_, hrun⟩
  exact Option.bind_eq_some_iff.mpr ⟨waiter, hget, hstep⟩

theorem getElem?_moved (pc : WaiterPc) :
    (t.waiters.set index { waiter with pc := pc })[index]? = some { waiter with pc := pc } :=
  List.getElem?_set_self (List.getElem?_eq_some_iff.mp hget).1

theorem returns_of_polling (hpc : waiter.pc = .polling)
    (hcounts : t.futexCntCommited waiter.key = t.futexCntFinished waiter.key) :
    Returns t index waiter := by
  apply returns_of_move hget (.finishedLoaded (t.futexCntFinished waiter.key))
  · simp only [waiterStep, hpc]
  · apply returns_of_move (getElem?_moved hget _) .returned
    · simp only [waiterStep, hcounts, if_true]
    · exact returns_of_returned (getElem?_moved (getElem?_moved hget _) _) rfl

theorem returns_of_sleeping {finished : BitVec 32} (hpc : waiter.pc = .sleeping finished)
    (hcounts : t.futexCntCommited waiter.key = t.futexCntFinished waiter.key)
    (hne : t.futexCntFinished waiter.key ≠ finished) : Returns t index waiter := by
  apply returns_of_move hget .polling
  · simp only [waiterStep, hpc, hne, if_false]
  · exact returns_of_polling (getElem?_moved hget _) rfl hcounts

theorem waiter_returns (hidle : t.control = .idle)
    (hcounts : t.futexCntCommited waiter.key = t.futexCntFinished waiter.key)
    (hawake : ∀ finished, waiter.pc ≠ .asleep finished)
    (hsleeping : ∀ finished, waiter.pc = .sleeping finished →
      t.futexCntFinished waiter.key ≠ finished) : Returns t index waiter := by
  cases hpc : waiter.pc with
  | entered =>
      apply returns_of_move hget .polling
      · simp only [waiterStep, hpc, hidle, if_true]
      · exact returns_of_polling (getElem?_moved hget _) rfl hcounts
  | polling => exact returns_of_polling hget hpc hcounts
  | finishedLoaded finished =>
      by_cases hequal : finished = t.futexCntFinished waiter.key
      · apply returns_of_move hget .returned
        · simp only [waiterStep, hpc, hcounts, hequal, if_true]
        · exact returns_of_returned (getElem?_moved hget _) rfl
      · apply returns_of_move hget (.sleeping finished)
        · simp only [waiterStep, hpc, hcounts, hequal, if_false]
        · exact returns_of_sleeping (getElem?_moved hget _) rfl hcounts (Ne.symm hequal)
  | sleeping finished => exact returns_of_sleeping hget hpc hcounts (hsleeping finished hpc)
  | asleep finished => exact absurd hpc (hawake finished)
  | returned => exact returns_of_returned hget hpc

end

/-- The pool is stopped and nothing that it has accepted is left. -/
structure StrandsNothing (t : State) : Prop where
  stopped : t.poolRunning = false
  workers : t.workers = []
  queue : t.taskQueue = []
  counts : ∀ key, t.futexCntCommited key = t.futexCntFinished key
  ran : ∀ i ∈ t.submissions, i ∈ t.ranInPool
  barriers : t.submissions.length < 2 ^ 32 → ∀ index waiter,
    t.waiters[index]? = some waiter → Returns t index waiter

theorem Balanced.not_sleeping {t : State} (h : Balanced t) {waiter : Waiter}
    (hmem : waiter ∈ t.waiters) (hsmall : t.submissions.length < 2 ^ 32)
    (hsettled : finishedCount t waiter.key = commitedCount t waiter.key)
    {finished : BitVec 32} (hpc : waiter.pc = .sleeping finished) :
    t.futexCntFinished waiter.key ≠ finished := by
  have hfacts := h.waiters waiter hmem
  simp only [WaiterFacts, hpc] at hfacts
  obtain ⟨n, -, rfl, hless⟩ := hfacts
  have hle := h.commitedCount_le waiter.key
  rw [h.finished, hsettled]
  intro hequal
  have hnat := congrArg BitVec.toNat hequal
  rw [BitVec.toNat_ofNat, BitVec.toNat_ofNat, Nat.mod_eq_of_lt (by omega),
    Nat.mod_eq_of_lt (by omega)] at hnat
  omega

theorem strandsNothing_of_queue {t : State} (haccounted : Accounted t)
    (hunwatched : Balanced t.unwatched)
    (hbalanced : t.submissions.length < 2 ^ 32 → Balanced t) (hidle : t.control = .idle)
    (hstopped : t.poolRunning = false) (hworkers : t.workers = []) (hqueue : t.taskQueue = []) :
    StrandsNothing t := by
  have hnone : ∀ worker ∈ t.workers, idleWorker worker = true := by simp [hworkers]
  have hsettled := haccounted.settled hqueue hnone
  have hcounts (key : Key) : t.futexCntCommited key = t.futexCntFinished key := by
    have hcommited : t.futexCntCommited key = BitVec.ofNat 32 (commitedCount t key) :=
      hunwatched.commited key
    have hfinished : t.futexCntFinished key = BitVec.ofNat 32 (finishedCount t key) :=
      hunwatched.finished key
    rw [hcommited, hfinished, hsettled]
  refine ⟨hstopped, hworkers, hqueue, hcounts, ?_, ?_⟩
  · exact all_ran haccounted hqueue (by simp [hworkers])
  · intro hsmall index waiter hget
    have hmem : waiter ∈ t.waiters := List.mem_of_getElem? hget
    exact waiter_returns hget hidle (hcounts _)
      (fun finished => (hbalanced hsmall).not_asleep haccounted hqueue hnone hmem finished)
      fun finished hpc => (hbalanced hsmall).not_sleeping hmem hsmall (hsettled _) hpc

/-- A start that cannot create its threads leaves nothing behind exactly when, as it
takes `pool_running` back, it has a worker or nothing is queued. -/
theorem failed_start_strands_nothing {actions : List Action} {s t : State}
    (hrun : run step init actions = some s) (hfailed : FailedStart s t) :
    StrandsNothing t ↔ s.workers ≠ [] ∨ s.taskQueue = [] := by
  have hstaffed := run_invariant staffed_step staffed_init hrun
  obtain ⟨hidle, hstopped, hworkers, hqueue⟩ := hfailed.rolledBack hstaffed
  constructor
  · exact fun hnothing => hqueue.mp hnothing.queue
  · intro hok
    obtain ⟨-, spawned, during, u, hduring, -, hcontrol, rfl⟩ := hfailed
    have hreturn : step u (.control spawned) = some (u.return (poolStartFailureError u)) := by
      simp only [step, controlStep, hcontrol]
    have hcounted := run_invariant unwatched_step ⟨accounted_init, balanced_init⟩ hrun
    have hbelow := run_invariant balancedBelowWrap_step
      ⟨accounted_init, fun _ => balanced_init⟩ hrun
    have hcountedLast := unwatched_step u _ _ (run_invariant unwatched_step hcounted hduring)
      hreturn
    have hbelowLast := balancedBelowWrap_step u _ _
      (run_invariant balancedBelowWrap_step hbelow hduring) hreturn
    exact strandsNothing_of_queue hbelowLast.1 hcountedLast.2 hbelowLast.2 hidle hstopped
      hworkers (hqueue.mpr hok)

/-- The call of `pool_start_locked` up to the store of `pool_running`, and a task that is
submitted and accepted then. -/
def acceptedWhileStarting : List Action :=
  [.poolStart 2 4, .control true, .dispatch ⟨7, 0, 0, 1, 3, 0⟩, .advance 0 0, .advance 0 0,
    .advance 0 0, .advance 0 0, .advance 0 0]

/-- The second thread cannot be created; the first one runs the task. -/
def secondFails : State :=
  (run step init (acceptedWhileStarting ++ [.control true, .control false])).get
    (by decide +kernel)

theorem failed_start_strands_nothing_secondFails :
    secondFails.taskQueue ≠ [] ∧ ∃ t, FailedStart secondFails t ∧ StrandsNothing t := by
  have hends : ∃ u, run step secondFails
      (([.control true, .control true, .control true] : List Action) ++
        List.replicate 9 (.worker 0) ++ ([.control true, .control true] : List Action)) = some u ∧
      u.returns = secondFails.returns ∧ u.control = .finishing .startFailed :=
    exists_run (by decide +kernel)
  obtain ⟨u, hrun, hreturns, hcontrol⟩ := hends
  have hfailed : FailedStart secondFails (u.return (poolStartFailureError u)) :=
    ⟨by decide +kernel, true, _, u, hrun, hreturns, hcontrol, rfl⟩
  exact ⟨by decide +kernel, _, hfailed,
    (failed_start_strands_nothing (Option.some_get _).symm hfailed).mpr
      (.inl (by decide +kernel))⟩

def firstFails : State :=
  (run step init (acceptedWhileStarting ++ [.control false])).get (by decide +kernel)

/-- The task stays queued, and a barrier sleeps for it. -/
theorem failed_start_strands_task :
    ∃ u t : State, run step init (acceptedWhileStarting ++ [.control false]) = some firstFails ∧
      FailedStart firstFails (u.return (poolStartFailureError u)) ∧
      ¬ StrandsNothing (u.return (poolStartFailureError u)) ∧
      run step (u.return (poolStartFailureError u)) [.barrier none, .waiter 0, .waiter 0,
        .waiter 0, .waiter 0] = some t ∧
      t.taskQueue = [⟨0, ⟨7, 0, 0, 1, 3, 0⟩⟩] ∧ t.workers = [] ∧ t.poolRunning = false ∧
      t.waiters = [⟨none, [0], .asleep 0⟩] := by
  have hends : ∃ u : State, run step firstFails (List.replicate 5 (.control true)) = some u ∧
      u.returns = firstFails.returns ∧ u.control = .finishing .startFailed ∧
      u.taskQueue ≠ [] ∧
      (run step (u.return (poolStartFailureError u)) [.barrier none, .waiter 0, .waiter 0,
        .waiter 0, .waiter 0]).any (fun t =>
          decide (t.taskQueue = [⟨0, ⟨7, 0, 0, 1, 3, 0⟩⟩] ∧ t.workers = [] ∧
            t.poolRunning = false ∧ t.waiters = [⟨none, [0], .asleep 0⟩])) = true :=
    exists_run (by decide +kernel)
  obtain ⟨u, hrun, hreturns, hcontrol, hqueue, hafter⟩ := hends
  obtain ⟨t, hbarrier, hasleep⟩ := exists_run hafter
  exact ⟨u, t, (Option.some_get _).symm,
    ⟨by decide +kernel, true, _, u, hrun, hreturns, hcontrol, rfl⟩,
    fun hnothing => hqueue hnothing.queue, hbarrier, hasleep⟩

end HostPimSim.Core.Pool
