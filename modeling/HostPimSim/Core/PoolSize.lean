import HostPimSim.Core.Pool

/-! What `max_active_dpus` and `pool_running` say about `handler_pool` between
control calls, through starts, stops, resizes and failing thread creation. -/
namespace HostPimSim.Core.Pool
open Threads Transition

/-- With no control call in progress the two fields describe the workers. -/
def Reports (s : State) : Prop :=
  s.control = .idle → s.maxActiveDpus = s.workers.length ∧
    (s.poolRunning = true ↔ s.workers.length ≠ 0)

/-- A resize that is not refused and finds the pool stopped asks for no workers. -/
def ResizesRunning (s : State) : Action → Prop
  | .setMaxActiveDpus caller concurrency =>
      caller = none → s.teardownInProgress = false → s.poolRunning = false → concurrency = 0
  | _ => True

/-- The two fields and the number of workers at each point of a control call. -/
def SizeFacts (s : State) : Prop :=
  match s.control with
  | .idle => s.maxActiveDpus = s.workers.length ∧
      (s.poolRunning = true ↔ s.workers.length ≠ 0)
  | .starting count => s.poolRunning = false ∧ s.workers.length = 0 ∧
      s.maxActiveDpus = count ∧ 0 < count
  | .spawning left => s.poolRunning = true ∧ s.workers.length + left = s.maxActiveDpus ∧
      0 < s.maxActiveDpus
  | .expanding left target => s.poolRunning = true ∧ s.workers.length + left = target ∧
      0 < s.workers.length
  | .stopping _ => True
  | .notifying _ | .waking _ | .joining _ => s.poolRunning = false
  | .joined _ | .finishing _ => s.poolRunning = false ∧ s.workers.length = 0 ∧
      s.maxActiveDpus = 0

theorem sizeFacts_init : SizeFacts init := by
  simp [SizeFacts, init]

theorem SizeFacts.reports {s : State} (h : SizeFacts s) : Reports s := by
  intro hidle
  unfold SizeFacts at h
  rwa [hidle] at h

theorem SizeFacts.of_idle {s : State} (hidle : s.control = .idle)
    (hsize : s.maxActiveDpus = s.workers.length)
    (hrunning : s.poolRunning = true ↔ s.workers.length ≠ 0) : SizeFacts s := by
  unfold SizeFacts
  rw [hidle]
  exact ⟨hsize, hrunning⟩

theorem sizeFacts_return {s : State} {result : PimError}
    (hsize : s.maxActiveDpus = s.workers.length)
    (hrunning : s.poolRunning = true ↔ s.workers.length ≠ 0) :
    SizeFacts (s.return result) :=
  .of_idle rfl hsize hrunning

theorem SizeFacts.of_frame {s t : State} (h : SizeFacts s) (hcontrol : t.control = s.control)
    (hrunning : t.poolRunning = s.poolRunning) (hsize : t.maxActiveDpus = s.maxActiveDpus)
    (hworkers : t.workers.length = s.workers.length) : SizeFacts t := by
  unfold SizeFacts at h ⊢
  rwa [hcontrol, hrunning, hsize, hworkers]

theorem length_notifyOne {workers notified : List WorkerPc} {index : Nat}
    (h : notifyOne workers index = some notified) : notified.length = workers.length := by
  unfold notifyOne at h
  split at h
  · cases h
    exact List.length_set
  · split at h <;> cases h
    rfl

theorem sizeFacts_dispatch {s t : State} {index notified : Nat} {dispatch : Dispatch}
    (h : SizeFacts s) (hstep : dispatchStep s index notified dispatch = some t) :
    SizeFacts t := by
  unfold dispatchStep at hstep
  cases hpc : dispatch.pc with
  | checked =>
      simp only [hpc] at hstep
      split at hstep
      · cases hstep
      · split at hstep
        · cases hstep
          exact h.of_frame rfl rfl rfl rfl
        · obtain ⟨workers, hnotify, rfl⟩ := Option.map_eq_some_iff.mp hstep
          exact h.of_frame rfl rfl rfl (length_notifyOne hnotify)
  | _ =>
      simp only [hpc] at hstep
      cases hstep <;> exact h.of_frame rfl rfl rfl rfl

theorem sizeFacts_worker {s t : State} {index : Nat} {worker : WorkerPc}
    (h : SizeFacts s) (hstep : workerStep s index worker = some t) : SizeFacts t := by
  unfold workerStep at hstep
  cases worker with
  | ready =>
      dsimp only at hstep
      split at hstep
      · cases hstep
      · split at hstep <;> cases hstep <;>
          exact h.of_frame rfl rfl rfl List.length_set
  | _ => cases hstep <;> exact h.of_frame rfl rfl rfl List.length_set

theorem sizeFacts_waiter {s t : State} {index : Nat} {waiter : Waiter}
    (h : SizeFacts s) (hstep : waiterStep s index waiter = some t) : SizeFacts t := by
  unfold waiterStep at hstep
  cases hpc : waiter.pc with
  | entered =>
      simp only [hpc] at hstep
      split at hstep <;> cases hstep
      exact h.of_frame rfl rfl rfl rfl
  | _ =>
      simp only [hpc] at hstep
      cases hstep <;> exact h.of_frame rfl rfl rfl rfl

theorem sizeFacts_poolStartLocked {s : State} {count : Nat} (hcount : 0 < count)
    (hsize : s.maxActiveDpus = s.workers.length)
    (hrunning : s.poolRunning = true ↔ s.workers.length ≠ 0) :
    SizeFacts (poolStartLocked s count) := by
  unfold poolStartLocked
  split
  · exact sizeFacts_return hsize hrunning
  · split
    · exact sizeFacts_return hsize hrunning
    · rename_i hstopped
      have hnone : s.workers.length = 0 := by
        by_contra hsome
        exact hstopped (hrunning.mpr hsome)
      exact ⟨by simpa using hstopped, hnone, rfl, hcount⟩

theorem sizeFacts_control {s t : State} {spawned : Bool} (h : SizeFacts s)
    (hstep : controlStep s spawned = some t) : SizeFacts t := by
  unfold controlStep at hstep
  unfold SizeFacts at h
  cases hcontrol : s.control with
  | idle => simp [hcontrol] at hstep
  | starting count =>
      simp only [hcontrol, Option.some.injEq] at hstep h
      subst hstep
      obtain ⟨_, hnone, hsize, hcount⟩ := h
      refine ⟨rfl, ?_, ?_⟩ <;> dsimp only <;> omega
  | spawning left =>
      simp only [hcontrol] at h
      obtain ⟨hrunning, hsize, hcount⟩ := h
      cases left with
      | zero =>
          simp only [hcontrol, Option.some.injEq] at hstep
          subst hstep
          exact sizeFacts_return (by omega) ⟨fun _ => by omega, fun _ => hrunning⟩
      | succ left =>
          simp only [hcontrol] at hstep
          split at hstep <;> cases hstep
          · refine ⟨hrunning, ?_, hcount⟩
            simp only [List.length_append, List.length_singleton]
            omega
          · trivial
  | expanding left target =>
      simp only [hcontrol] at h
      obtain ⟨hrunning, htarget, hsome⟩ := h
      cases left with
      | zero =>
          simp only [hcontrol, Option.some.injEq] at hstep
          subst hstep
          have hlength : target = s.workers.length := by omega
          exact sizeFacts_return hlength ⟨fun _ => Nat.ne_of_gt hsome, fun _ => hrunning⟩
      | succ left =>
          simp only [hcontrol] at hstep
          split at hstep <;> cases hstep
          · refine ⟨hrunning, ?_, ?_⟩ <;>
              simp only [List.length_append, List.length_singleton] <;> omega
          · exact sizeFacts_return rfl ⟨fun _ => Nat.ne_of_gt hsome, fun _ => hrunning⟩
  | stopping after =>
      simp only [hcontrol] at hstep
      split at hstep <;> cases hstep
      · rename_i hstopped
        exact ⟨hstopped.1, by simp [hstopped.2.1], rfl⟩
      · rfl
  | notifying after | waking after =>
      simp only [hcontrol, Option.some.injEq] at hstep h
      subst hstep
      exact h
  | joining after =>
      simp only [hcontrol] at hstep h
      split at hstep <;> cases hstep
      exact ⟨h, rfl, rfl⟩
  | joined after =>
      simp only [hcontrol, Option.some.injEq] at hstep h
      subst hstep
      exact h
  | finishing after =>
      simp only [hcontrol] at h
      obtain ⟨hstopped, hnone, hsize⟩ := h
      have hempty : s.poolRunning = true ↔ s.workers.length ≠ 0 := by
        simp [hstopped, hnone]
      cases after with
      | startFailed | stopped =>
          simp only [hcontrol, Option.some.injEq] at hstep
          subst hstep
          exact sizeFacts_return (by omega) hempty
      | restart count =>
          simp only [hcontrol, Option.some.injEq] at hstep
          subst hstep
          split
          · exact sizeFacts_return (by omega) hempty
          · exact sizeFacts_poolStartLocked (by omega) (by omega) hempty

theorem sizeFacts_setMaxActiveDpus {s : State} {caller : Option Nat} {concurrency : Nat}
    (hsize : s.maxActiveDpus = s.workers.length)
    (hrunning : s.poolRunning = true ↔ s.workers.length ≠ 0)
    (hok : ResizesRunning s (.setMaxActiveDpus caller concurrency)) :
    SizeFacts (setMaxActiveDpus s caller concurrency) := by
  unfold setMaxActiveDpus
  by_cases hcaller : caller.isSome = true
  · rw [if_pos hcaller]
    exact sizeFacts_return hsize hrunning
  by_cases hteardown : s.teardownInProgress = true
  · rw [if_neg hcaller, if_pos hteardown]
    exact sizeFacts_return hsize hrunning
  rw [if_neg hcaller, if_neg hteardown]
  by_cases hpool : s.poolRunning = true
  · have hsome : s.workers.length ≠ 0 := hrunning.mp hpool
    rw [if_neg (by simp [hpool])]
    split
    · rename_i hsame
      exact sizeFacts_return hsame hrunning
    · split
      · refine ⟨hpool, ?_, ?_⟩ <;> dsimp only <;> omega
      · trivial
  · have hstopped : s.poolRunning = false := by simpa using hpool
    have hzero : concurrency = 0 :=
      hok (by simpa using hcaller) (by simpa using hteardown) hstopped
    have hnone : s.workers.length = 0 := by
      by_contra hsome
      exact hpool (hrunning.mpr hsome)
    rw [if_pos (by simp [hstopped])]
    exact sizeFacts_return (by simp [hzero, hnone]) hrunning

theorem sizeFacts_step {s t : State} {a : Action} (h : SizeFacts s) (hok : ResizesRunning s a)
    (hstep : step s a = some t) : SizeFacts t := by
  cases a with
  | dispatch entry | barrier key | setTeardown value =>
      cases hstep
      exact h.of_frame rfl rfl rfl rfl
  | advance index notified =>
      obtain ⟨dispatch, _, hstep⟩ := Option.bind_eq_some_iff.mp hstep
      exact sizeFacts_dispatch h hstep
  | pushFails index =>
      obtain ⟨dispatch, _, hstep⟩ := Option.bind_eq_some_iff.mp hstep
      unfold pushFailsStep at hstep
      split at hstep <;> cases hstep
      exact h.of_frame rfl rfl rfl rfl
  | worker index =>
      obtain ⟨worker, _, hstep⟩ := Option.bind_eq_some_iff.mp hstep
      exact sizeFacts_worker h hstep
  | waiter index =>
      obtain ⟨waiter, _, hstep⟩ := Option.bind_eq_some_iff.mp hstep
      exact sizeFacts_waiter h hstep
  | control spawned => exact sizeFacts_control h hstep
  | poolStart limitConcurrency hardwareConcurrency =>
      dsimp only [step] at hstep
      split at hstep <;> cases hstep
      rename_i hidle
      obtain ⟨hsize, hrunning⟩ := h.reports hidle
      refine sizeFacts_poolStartLocked ?_ hsize hrunning
      unfold poolGetHardwareConcurrencyLimit
      split
      · split <;> omega
      · omega
  | poolStop caller =>
      dsimp only [step] at hstep
      split at hstep <;> cases hstep
      rename_i hidle
      obtain ⟨hsize, hrunning⟩ := h.reports hidle.1
      unfold poolStop
      split
      · exact sizeFacts_return hsize hrunning
      · trivial
  | setMaxActiveDpus caller concurrency =>
      dsimp only [step] at hstep
      split at hstep <;> cases hstep
      rename_i hidle
      obtain ⟨hsize, hrunning⟩ := h.reports hidle.1
      exact sizeFacts_setMaxActiveDpus hsize hrunning hok

theorem resizesRunning_of_reports {s t : State} {a : Action} (h : SizeFacts s)
    (hstep : step s a = some t) (hreports : Reports t) : ResizesRunning s a := by
  cases a with
  | setMaxActiveDpus caller concurrency =>
      intro hcaller hteardown hstopped
      dsimp only [step] at hstep
      split at hstep <;> cases hstep
      rename_i hidle
      obtain ⟨_, hrunning⟩ := h.reports hidle.1
      have hnone : s.workers.length = 0 := by
        by_contra hsome
        simp [hrunning.mpr hsome] at hstopped
      subst hcaller
      have hsize := (hreports (by simp [setMaxActiveDpus, hteardown, hstopped, State.return])).1
      simpa [setMaxActiveDpus, hteardown, hstopped, State.return, hnone] using hsize
  | _ => trivial

/-- Every state a run reaches reports the size of the pool if and only if no resize of the
run gives a size to a stopped pool. -/
theorem reports_iff_resizes_running {actions : List Action} {t : State}
    (hrun : run step init actions = some t) :
    Meets step (fun s a => ∀ u, step s a = some u → Reports u) init actions ↔
      Meets step ResizesRunning init actions := by
  apply meets_iff SizeFacts ?_ ?_ sizeFacts_init hrun
  · intro s a u h hstep
    constructor
    · intro hreports
      exact resizesRunning_of_reports h hstep (hreports u hstep)
    · intro hok v hv
      exact (sizeFacts_step h hok hv).reports
  · intro s a u h hreports hstep
    exact sizeFacts_step h (resizesRunning_of_reports h hstep (hreports u hstep)) hstep

instance (s : State) : Decidable (Reports s) :=
  inferInstanceAs (Decidable (s.control = .idle → s.maxActiveDpus = s.workers.length ∧
    (s.poolRunning = true ↔ s.workers.length ≠ 0)))

instance (s : State) : ∀ a, Decidable (ResizesRunning s a)
  | .setMaxActiveDpus caller concurrency =>
      inferInstanceAs (Decidable (caller = none → s.teardownInProgress = false →
        s.poolRunning = false → concurrency = 0))
  | .dispatch _ | .advance _ _ | .pushFails _ | .worker _ | .poolStart _ _ | .poolStop _
  | .control _ | .barrier _ | .waiter _ | .setTeardown _ => isTrue trivial

theorem reports_iff_resizes_running_shrink :
    Meets step (fun s a => ∀ u, step s a = some u → Reports u) init
      [.setMaxActiveDpus none 0, .poolStart 2 4, .control true, .control true, .control true,
        .control true, .setMaxActiveDpus none 3, .control false, .setMaxActiveDpus none 1,
        .control true, .worker 0, .worker 1, .control true, .control true, .control true,
        .control true, .control true, .control true, .control true, .control true] := by
  have hrun : ∃ t, run step init
      [.setMaxActiveDpus none 0, .poolStart 2 4, .control true, .control true, .control true,
        .control true, .setMaxActiveDpus none 3, .control false, .setMaxActiveDpus none 1,
        .control true, .worker 0, .worker 1, .control true, .control true, .control true,
        .control true, .control true, .control true, .control true, .control true] = some t ∧
      t.maxActiveDpus = 1 := exists_run (by decide +kernel)
  obtain ⟨t, hrun, _⟩ := hrun
  exact (reports_iff_resizes_running hrun).mpr (by decide +kernel)

/-- A resize before any start leaves a size behind and no worker. -/
theorem stopped_resize_reports_size :
    ¬∀ actions t, run step init actions = some t → Reports t := by
  intro h
  have hrun : ∃ t, run step init [.setMaxActiveDpus none 3] = some t ∧ ¬Reports t :=
    exists_run (by decide +kernel)
  obtain ⟨t, hrun, hnot⟩ := hrun
  exact hnot (h _ t hrun)

end HostPimSim.Core.Pool
