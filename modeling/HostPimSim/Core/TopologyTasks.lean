import HostPimSim.Core.Topology

/-! Tasks and the regions they point to.  A handle enters the pool through
`pim_invoke_dpu_handler` only, so a task outlives its region only if the region
is freed under a handle the pool still has. -/
namespace HostPimSim.Core.Pool
open Threads

def WorkerPc.task? : WorkerPc → Option Task
  | .running task | .finishing task _ | .counted task _ _ | .waking task _ => some task
  | .ready | .blocked | .exited => none

/-- `pool_submit` may still accept the call. -/
def submittable : DispatchPc → Bool
  | .resolved | .checked => true
  | _ => false

def refers (s : State) (region : Nat) : Bool :=
  s.dispatches.any (fun d => submittable d.pc && d.entry.region == region) ||
    s.taskQueue.any (fun task => task.entry.region == region) ||
    s.workers.any fun worker => worker.task?.any fun task => task.entry.region == region

structure RefersOnlyTo (P : Nat → Prop) (s : State) : Prop where
  calls : ∀ d ∈ s.dispatches, submittable d.pc = true → P d.entry.region
  queued : ∀ task ∈ s.taskQueue, P task.entry.region
  taken : ∀ worker ∈ s.workers, ∀ task, worker.task? = some task → P task.entry.region

variable {P : Nat → Prop} {s t : State}

theorem refersOnlyTo_init : RefersOnlyTo P init where
  calls := by simp [init]
  queued := by simp [init]
  taken := by simp [init]

theorem RefersOnlyTo.mono {Q : Nat → Prop} (h : RefersOnlyTo P s)
    (himp : ∀ region, refers s region = true → P region → Q region) : RefersOnlyTo Q s where
  calls d hd hpc := himp _ (by
    simp only [refers, Bool.or_eq_true, List.any_eq_true]
    exact .inl (.inl ⟨d, hd, by simp [hpc]⟩)) (h.calls d hd hpc)
  queued task htask := himp _ (by
    simp only [refers, Bool.or_eq_true, List.any_eq_true]
    exact .inl (.inr ⟨task, htask, by simp⟩)) (h.queued task htask)
  taken worker hworker task htask := himp _ (by
    simp only [refers, Bool.or_eq_true, List.any_eq_true]
    exact .inr ⟨worker, hworker, by simp [htask]⟩) (h.taken worker hworker task htask)

theorem RefersOnlyTo.of_workersChange (h : RefersOnlyTo P s) (hsame : SameTasks s t)
    (hchange : WorkersChange s.workers t.workers) : RefersOnlyTo P t := by
  refine ⟨?_, ?_, ?_⟩
  · rw [hsame.dispatches]
    exact h.calls
  · rw [hsame.taskQueue]
    exact h.queued
  · generalize t.workers = workers at hchange
    cases hchange with
    | kept => exact h.taken
    | spawned => exact forall_mem_push h.taken (by simp [WorkerPc.task?])
    | notified =>
        intro worker hmem task htask
        obtain ⟨old, hold, rfl⟩ := List.mem_map.mp hmem
        refine h.taken old hold task ?_
        cases old <;> exact htask
    | cleared _ => simp

theorem RefersOnlyTo.calls_set (h : RefersOnlyTo P s) {index : Nat} {moved : Dispatch}
    (hmoved : submittable moved.pc = true → P moved.entry.region) :
    ∀ d ∈ s.dispatches.set index moved, submittable d.pc = true → P d.entry.region :=
  forall_mem_set h.calls hmoved

theorem refersOnlyTo_dispatch (h : RefersOnlyTo P s) {index notified : Nat}
    {dispatch : Dispatch} (hdispatch : s.dispatches[index]? = some dispatch)
    (hstep : dispatchStep s index notified dispatch = some t) : RefersOnlyTo P t := by
  have hmem : dispatch ∈ s.dispatches := List.mem_iff_getElem?.mpr ⟨index, hdispatch⟩
  have hcall := h.calls dispatch hmem
  have hleft (pc : DispatchPc) (hpc : submittable pc = false) :
      ∀ d ∈ s.dispatches.set index { dispatch with pc := pc },
        submittable d.pc = true → P d.entry.region :=
    h.calls_set (by simp [hpc])
  unfold dispatchStep at hstep
  cases hpc : dispatch.pc with
  | resolved =>
      simp only [hpc, Option.some.injEq] at hstep
      subst hstep
      exact ⟨h.calls_set fun _ => hcall (by simp [hpc, submittable]), h.queued, h.taken⟩
  | checked =>
      simp only [hpc] at hstep
      split at hstep
      · cases hstep
      · split at hstep
        · cases hstep
          exact ⟨hleft .direct rfl, h.queued, h.taken⟩
        · obtain ⟨workers, hworkers, rfl⟩ := Option.map_eq_some_iff.mp hstep
          refine ⟨hleft .pushed rfl, ?_, ?_⟩
          · exact forall_mem_push h.queued (hcall (by simp [hpc, submittable]))
          · intro worker hworker task htask
            rcases mem_of_mem_notifyOne hworkers hworker with rfl | hold
            · cases htask
            · exact h.taken worker hold task htask
  | pushed =>
      simp only [hpc, Option.some.injEq] at hstep
      subst hstep
      exact ⟨hleft .deviceCommited rfl, h.queued, h.taken⟩
  | deviceCommited =>
      simp only [hpc, Option.some.injEq] at hstep
      subst hstep
      exact ⟨hleft .regionCommited rfl, h.queued, h.taken⟩
  | regionCommited =>
      simp only [hpc, Option.some.injEq] at hstep
      subst hstep
      exact ⟨hleft .accepted rfl, h.queued, h.taken⟩
  | direct =>
      simp only [hpc, Option.some.injEq] at hstep
      subst hstep
      exact ⟨hleft .ran rfl, h.queued, h.taken⟩
  | accepted | taken | executed | deviceFinished | regionFinished | ran =>
      simp [hpc] at hstep

theorem refersOnlyTo_worker (h : RefersOnlyTo P s) {index : Nat} {worker : WorkerPc}
    (hworker : s.workers[index]? = some worker)
    (hstep : workerStep s index worker = some t) : RefersOnlyTo P t := by
  have hmem : worker ∈ s.workers := List.mem_iff_getElem?.mpr ⟨index, hworker⟩
  have htaken := h.taken worker hmem
  have hmark (task : Task) (pc : DispatchPc) (hpc : submittable pc = false) :
      ∀ d ∈ s.dispatches.set task.dispatch ⟨task.entry, pc⟩,
        submittable d.pc = true → P d.entry.region :=
    h.calls_set (by simp [hpc])
  have hnext (task : Task) (key : Key) (hP : P task.entry.region) :
      ∀ other, (WorkerPc.next task key).task? = some other → P other.entry.region := by
    intro other hother
    cases key <;> cases hother
    exact hP
  unfold workerStep at hstep
  cases worker with
  | ready =>
      dsimp only at hstep
      split at hstep
      · cases hstep
      · cases hqueue : s.taskQueue with
        | nil =>
            simp only [hqueue, Option.some.injEq] at hstep
            subst hstep
            refine ⟨h.calls, by simp, forall_mem_set h.taken ?_⟩
            split <;> simp [WorkerPc.task?]
        | cons task rest =>
            simp only [hqueue, Option.some.injEq] at hstep
            subst hstep
            have hqueued := h.queued
            rw [hqueue] at hqueued
            refine ⟨hmark task .taken rfl,
              fun other hother => hqueued other (List.mem_cons_of_mem task hother),
              forall_mem_set h.taken ?_⟩
            intro other hother
            cases hother
            exact hqueued task List.mem_cons_self
  | running task =>
      cases hstep
      refine ⟨hmark task .executed rfl, h.queued, forall_mem_set h.taken ?_⟩
      exact htaken
  | finishing task key =>
      cases hstep
      refine ⟨hmark task _ (by cases key <;> rfl), h.queued, forall_mem_set h.taken ?_⟩
      exact htaken
  | counted task key finished =>
      cases hstep
      refine ⟨h.calls, h.queued, forall_mem_set h.taken ?_⟩
      split
      · exact htaken
      · exact hnext task key (htaken task rfl)
  | waking task key =>
      cases hstep
      exact ⟨h.calls, h.queued, forall_mem_set h.taken (hnext task key (htaken task rfl))⟩
  | blocked | exited => cases hstep

theorem refersOnlyTo_step {action : Action} (h : RefersOnlyTo P s)
    (hnew : ∀ entry, action ≠ .dispatch entry) (hstep : step s action = some t) :
    RefersOnlyTo P t := by
  cases action with
  | dispatch entry => exact absurd rfl (hnew entry)
  | advance index notified =>
      obtain ⟨dispatch, hdispatch, hmove⟩ := Option.bind_eq_some_iff.mp hstep
      exact refersOnlyTo_dispatch h hdispatch hmove
  | pushFails index =>
      obtain ⟨dispatch, _, hmove⟩ := Option.bind_eq_some_iff.mp hstep
      unfold pushFailsStep at hmove
      split at hmove <;> cases hmove
      exact ⟨h.calls_set (by simp [submittable]), h.queued, h.taken⟩
  | worker index =>
      obtain ⟨worker, hworker, hmove⟩ := Option.bind_eq_some_iff.mp hstep
      exact refersOnlyTo_worker h hworker hmove
  | poolStart limit hardware =>
      simp only [step] at hstep
      split at hstep <;> cases hstep
      obtain ⟨hsame, hworkers⟩ := poolStart_frame s limit hardware
      exact h.of_workersChange hsame (hworkers ▸ .kept)
  | poolStop caller =>
      simp only [step] at hstep
      split at hstep <;> cases hstep
      obtain ⟨hsame, hworkers⟩ := poolStop_frame s caller
      exact h.of_workersChange hsame (hworkers ▸ .kept)
  | setMaxActiveDpus caller concurrency =>
      simp only [step] at hstep
      split at hstep <;> cases hstep
      obtain ⟨hsame, hworkers⟩ := setMaxActiveDpus_frame s caller concurrency
      exact h.of_workersChange hsame (hworkers ▸ .kept)
  | control spawned =>
      obtain ⟨hsame, hchange⟩ := controlStep_frame hstep
      exact h.of_workersChange hsame hchange
  | waiter index =>
      obtain ⟨waiter, _, hmove⟩ := Option.bind_eq_some_iff.mp hstep
      obtain ⟨hsame, hworkers, _⟩ := waiterStep_frame hmove
      exact h.of_workersChange hsame (hworkers ▸ .kept)
  | barrier key | setTeardown value =>
      cases hstep
      exact ⟨h.calls, h.queued, h.taken⟩

end HostPimSim.Core.Pool

namespace HostPimSim.Core.Topology
open Pool Transition Threads

/-- The region is in `dev->regions`. -/
def Present (s : State) (region : Nat) : Prop := ∃ r ∈ s.regions, r.id = region

/-- Regions are freed when no handle of theirs is left in the pool. -/
def FreedUnreferenced (s : State) : Action → Prop
  | .regionFree region =>
      isTopologyMutationBlocked s = true ∨ refers s.pool region = false
  | _ => True

instance (s : State) : ∀ action, Decidable (FreedUnreferenced s action)
  | .regionFree region =>
      inferInstanceAs (Decidable (_ = true ∨ refers s.pool region = false))
  | .regionCreate .. | .registerDpuHandler .. | .unregisterDpuHandler ..
  | .invokeDpuHandler .. | .setMonitorRunning _ | .setSigsegvEnabled _
  | .setSigsegvTransitionInProgress _ | .pool _ => isTrue trivial

def Sound (s : State) : Prop := RefersOnlyTo (Present s) s.pool

theorem Sound.of_present {s t : State} (h : Sound s) (hpool : t.pool = s.pool)
    (hpresent : ∀ region, Present s region → Present t region) : Sound t := by
  unfold Sound
  rw [hpool]
  exact h.mono fun region _ => hpresent region

theorem region?_some {s : State} {region : Nat} {r : Region}
    (h : s.region? region = some r) : r ∈ s.regions ∧ r.id = region :=
  ⟨List.mem_of_find?_eq_some h, by simpa using List.find?_some h⟩

theorem region?_setRegion {s : State} {region : Nat} {r changed : Region}
    (h : s.region? region = some r) (hid : changed.id = r.id) :
    (s.setRegion changed).region? region = some changed := by
  obtain ⟨_, hregion⟩ := region?_some h
  have hsame : ((fun r : Region => r.id == region) ∘
      fun r => if r.id = changed.id then changed else r) = fun r : Region => r.id == region := by
    funext old
    rw [Function.comp_apply]
    split
    · rename_i hold
      rw [hold]
    · rfl
  unfold State.region? at h
  unfold State.region? State.setRegion
  dsimp only
  rw [List.find?_map, hsame, h, Option.map_some, if_pos hid.symm]

theorem present_setRegion {s : State} {r : Region} {region : Nat}
    (h : Present s region) : Present (s.setRegion r) region := by
  obtain ⟨old, hold, rfl⟩ := h
  refine ⟨_, List.mem_map.mpr ⟨old, hold, rfl⟩, ?_⟩
  split
  · rename_i hsame
    exact hsame.symm
  · rfl

theorem pimRegionCreate_sound {s : State} (h : Sound s) (offset size : Nat)
    (type : RegionType) (allocated : Bool) :
    Sound (pimRegionCreate s offset size type allocated).2 := by
  unfold pimRegionCreate
  split_ifs
  case neg =>
    refine h.of_present rfl ?_
    rintro region ⟨r, hr, rfl⟩
    refine ⟨r, ?_, rfl⟩
    have hsplit := List.takeWhile_append_dropWhile (p := fun r => r.offset < offset)
      (l := s.regions)
    rw [← hsplit] at hr
    simp only [State.before, State.lowerBound, List.mem_append, List.mem_cons]
    rcases List.mem_append.mp hr with hbefore | hafter
    · exact .inl hbefore
    · exact .inr (.inr hafter)
  all_goals exact h

theorem pimRegionFree_present {s : State} {r : Region} {region : Nat}
    (hne : region ≠ r.id) (h : Present s region) : Present (pimRegionFree s r).2 region := by
  unfold pimRegionFree
  split
  · exact h
  · split
    · exact h
    · rename_i found hfind
      split
      · exact h
      · rename_i hsame
        obtain ⟨hfound, before, after, hregions, hbefore⟩ :=
          List.find?_eq_some_iff_append.mp hfind
        obtain ⟨other, hother, hid⟩ := h
        refine ⟨other, ?_, hid⟩
        dsimp only
        rw [hregions, List.eraseP_append_right _ (by simpa using hbefore),
          List.eraseP_cons_of_pos (p := fun x : Region => x.offset == r.offset) hfound]
        rw [hregions] at hother
        rcases List.mem_append.mp hother with hkept | hrest
        · exact List.mem_append_left _ hkept
        · rcases List.mem_cons.mp hrest with rfl | hkept
          · simp only [ne_eq, Decidable.not_not] at hsame
            exact absurd (hid.symm.trans hsame) hne
          · exact List.mem_append_right _ hkept

theorem pimRegionFree_pool (s : State) (r : Region) : (pimRegionFree s r).2.pool = s.pool := by
  unfold pimRegionFree
  split
  · rfl
  · split
    · rfl
    · split <;> rfl

theorem pimRegionFree_sound {s : State} {r : Region} (h : Sound s)
    (hfree : isTopologyMutationBlocked s = true ∨ refers s.pool r.id = false) :
    Sound (pimRegionFree s r).2 := by
  rcases hfree with hblocked | hunreferenced
  · simpa [pimRegionFree, hblocked] using h
  · unfold Sound
    rw [pimRegionFree_pool]
    refine h.mono fun region hrefers hpresent => pimRegionFree_present ?_ hpresent
    rintro rfl
    rw [hunreferenced] at hrefers
    cases hrefers

theorem Sound.setRegion {s : State} (h : Sound s) (r : Region) : Sound (s.setRegion r) :=
  h.of_present rfl fun _ => present_setRegion

theorem Sound.unless {s : State} {p : Prop} [Decidable p] {error : PimError}
    {passed : PimError × State} (h : Sound s) (hpassed : Sound passed.2) :
    Sound (if p then (error, s) else passed).2 := by
  split
  · exact h
  · exact hpassed

theorem pimRegisterDpuHandler_sound {s : State} (h : Sound s) (r : Region) (offset : Nat)
    (depth : BitVec 32) (registerSize handler userData : Nat) (bytes : Register.Bytes)
    (inserted : Bool) :
    Sound (pimRegisterDpuHandler s r offset depth registerSize handler userData bytes
      inserted).2 := by
  unfold pimRegisterDpuHandler
  iterate 7 refine h.unless ?_
  cases Register.pimLoadRegisterU64 bytes registerSize with
  | none => exact h
  | some initialValue => exact h.unless (h.setRegion _)

theorem pimUnregisterDpuHandler_sound {s : State} (h : Sound s) (r : Region) (offset : Nat)
    (depth : BitVec 32) : Sound (pimUnregisterDpuHandler s r offset depth).2 := by
  unfold pimUnregisterDpuHandler
  iterate 3 refine h.unless ?_
  split
  · exact h.setRegion _
  · exact h

theorem pimInvokeDpuHandler_sound {s : State} {r : Region} (h : Sound s)
    (hr : r ∈ s.regions) (offset : Nat) (depth : BitVec 32) (value : BitVec 64) :
    Sound (pimInvokeDpuHandler s r offset depth value).2 := by
  unfold pimInvokeDpuHandler
  split
  · exact h
  · split
    · exact h
    · rename_i entry hentry
      have hkept : Sound (s.setRegion (r.setTable depth ((r.table depth).map fun e =>
          if e.at offset depth then e.resolve value else e))) :=
        h.setRegion _
      exact ⟨forall_mem_push hkept.calls fun _ => present_setRegion ⟨r, hr, rfl⟩,
        hkept.queued, hkept.taken⟩

theorem sound_step (s : State) (action : Action) (t : State) (h : Sound s)
    (hfreed : FreedUnreferenced s action) (hstep : step s action = some t) : Sound t := by
  cases action with
  | regionCreate offset size type allocated =>
      cases hstep
      exact pimRegionCreate_sound h offset size type allocated
  | regionFree region =>
      obtain ⟨r, hr, rfl⟩ := Option.map_eq_some_iff.mp hstep
      obtain ⟨_, rfl⟩ := region?_some hr
      exact pimRegionFree_sound h hfreed
  | registerDpuHandler region offset depth registerSize handler userData bytes inserted =>
      obtain ⟨r, _, rfl⟩ := Option.map_eq_some_iff.mp hstep
      exact pimRegisterDpuHandler_sound h r offset depth registerSize handler userData bytes
        inserted
  | unregisterDpuHandler region offset depth =>
      obtain ⟨r, _, rfl⟩ := Option.map_eq_some_iff.mp hstep
      exact pimUnregisterDpuHandler_sound h r offset depth
  | invokeDpuHandler region offset depth value =>
      obtain ⟨r, hr, rfl⟩ := Option.map_eq_some_iff.mp hstep
      exact pimInvokeDpuHandler_sound h (region?_some hr).1 offset depth value
  | setMonitorRunning value | setSigsegvEnabled value
  | setSigsegvTransitionInProgress value =>
      cases hstep
      exact h.of_present rfl fun _ => id
  | pool action =>
      have hnew : ∀ entry, action ≠ .dispatch entry := by
        rintro entry rfl
        cases hstep
      have hmove : (Pool.step s.pool action).map (fun pool => { s with pool := pool }) =
          some t := by
        cases action <;> first | exact hstep | cases hstep
      obtain ⟨pool, hpool, rfl⟩ := Option.map_eq_some_iff.mp hmove
      exact refersOnlyTo_step h hnew hpool

/-- If regions are freed only when no call about to submit, queued task or
worker has their handle, every task points to a region of the device. -/
theorem task_region_present (size : Nat) (actions : List Action) (t : State)
    (hfreed : Meets step FreedUnreferenced (init size) actions)
    (hrun : run step (init size) actions = some t) :
    (∀ task ∈ t.pool.taskQueue, Present t task.entry.region) ∧
      ∀ worker ∈ t.pool.workers, ∀ task, worker.task? = some task →
        Present t task.entry.region := by
  have hinit : Sound (init size) := refersOnlyTo_init
  have hsound : Sound t := run_invariant_of_meets sound_step hinit hfreed hrun
  exact ⟨hsound.queued, hsound.taken⟩

/-- One region with one handler, a pool of one worker, and a write to it whose
task is in the queue. -/
def queuedInvocation : List Action :=
  [.regionCreate 0 64 .ctrlMmio true,
    .registerDpuHandler 0 8 0 4 1 0 (fun _ => 0) true,
    .pool (.poolStart 1 4), .pool (.control true), .pool (.control true),
    .pool (.control true), .invokeDpuHandler 0 8 0 5, .pool (.advance 0 0),
    .pool (.advance 0 0), .pool (.advance 0 0), .pool (.advance 0 0), .pool (.advance 0 0)]

/-- The worker runs the task to its end before the region is freed. -/
def drainedFree : List Action :=
  List.flatten [queuedInvocation, List.replicate 8 (.pool (.worker 0)), [.regionFree 0]]

theorem task_region_present_drainedFree :
    ∃ t, run step (init 4096) drainedFree = some t ∧ t.regions = [] ∧
      t.pool.ranInPool = [0] ∧ ∀ task ∈ t.pool.taskQueue, Present t task.entry.region := by
  obtain ⟨t, hrun, hfreed, hran⟩ : ∃ t, run step (init 4096) drainedFree = some t ∧
      t.regions.length = 0 ∧ t.pool.ranInPool = [0] := exists_run (by decide +kernel)
  exact ⟨t, hrun, List.eq_nil_of_length_eq_zero hfreed, hran,
    (task_region_present 4096 drainedFree t (by decide +kernel) hrun).1⟩

/-- `pim_region_free` with a task in the queue. -/
theorem freed_region_still_queued :
    ∃ t, run step (init 4096) (queuedInvocation ++ [.regionFree 0]) = some t ∧
      ∃ task ∈ t.pool.taskQueue, ¬ Present t task.entry.region := by
  obtain ⟨t, hrun, hfreed, hqueued⟩ : ∃ t, run step (init 4096)
      (queuedInvocation ++ [.regionFree 0]) = some t ∧ t.regions.length = 0 ∧
        (⟨0, ⟨0, 8, 0, 5, 1, 0⟩⟩ : Task) ∈ t.pool.taskQueue := exists_run (by decide +kernel)
  refine ⟨t, hrun, _, hqueued, ?_⟩
  rintro ⟨r, hr, _⟩
  rw [List.eq_nil_of_length_eq_zero hfreed] at hr
  cases hr

end HostPimSim.Core.Topology
