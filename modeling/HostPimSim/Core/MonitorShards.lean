import HostPimSim.Lib.Threads
import HostPimSim.Lib.Transition
import Mathlib.Data.BitVec
import Mathlib.Data.List.Nodup

/-! The monitor threads of a device: the shard each takes, and the start, stop and
fail-stop of the threads.  One action is one atomic access or one turn of a thread;
a call that holds `monitor_ctl_mutex` keeps the other calls out. -/
namespace HostPimSim.Core.MonitorShards
open Threads Transition

/-- The regions a thread takes from the CTRL_MMIO regions, in the order of the map. -/
def shard (threadId totalThreads : Nat) (regions : List Nat) : List Nat :=
  (regions.zipIdx.filter fun entry => entry.2 % totalThreads = threadId).map Prod.fst

theorem mem_shard {threadId totalThreads region : Nat} {regions : List Nat} :
    region ∈ shard threadId totalThreads regions ↔
      ∃ i, regions[i]? = some region ∧ i % totalThreads = threadId := by
  simp [shard, List.mem_zipIdx_iff_getElem?]

theorem shard_unique {first second totalThreads region : Nat} {regions : List Nat}
    (hnodup : regions.Nodup) (h : region ∈ shard first totalThreads regions)
    (h' : region ∈ shard second totalThreads regions) : first = second := by
  obtain ⟨i, hi, rfl⟩ := mem_shard.mp h
  obtain ⟨j, hj, rfl⟩ := mem_shard.mp h'
  have hij : i = j := by
    obtain ⟨hlength, hget⟩ := List.getElem?_eq_some_iff.mp hi
    obtain ⟨hlength', hget'⟩ := List.getElem?_eq_some_iff.mp hj
    exact (hnodup.getElem_inj_iff).mp (hget.trans hget'.symm)
  rw [hij]

theorem exists_shard {totalThreads region : Nat} {regions : List Nat}
    (htotal : 0 < totalThreads) (h : region ∈ regions) :
    ∃ threadId < totalThreads, region ∈ shard threadId totalThreads regions := by
  obtain ⟨i, hi⟩ := List.mem_iff_getElem?.mp h
  exact ⟨i % totalThreads, Nat.mod_lt i htotal, mem_shard.mpr ⟨i, hi, rfl⟩⟩

inductive WorkerPc where
  | spawned
  | checking
  | polling
  | exited
  deriving DecidableEq

/-- A thread of `monitor_threads`; `generation` tells the start it comes from. -/
structure Worker where
  generation : Nat
  threadId : Nat
  totalThreads : Nat
  regions : List Nat
  pc : WorkerPc
  deriving DecidableEq

/-- What the holder of `monitor_ctl_mutex` is doing. -/
inductive Ctl where
  | idle
  | spawning (next totalThreads : Nat)
  | joining
  deriving DecidableEq

/-- `baseline` is what the regions were at the last start. -/
structure State where
  regions : List Nat
  monitorRunning : Bool
  numMonitors : Nat
  workers : List Worker
  ctl : Ctl
  generation : Nat
  baseline : List Nat

def init : State := ⟨[], false, 0, [], .idle, 0, []⟩

inductive Action where
  | startMonitor (numMonitors : BitVec 32) (busy : Bool)
  | spawn (created : Bool)
  | stopMonitor (fromMonitor : Bool)
  | join
  | worker (index : Nat) (throws : Bool)
  | setRegions (regions : List Nat)

def kDefaultNumMonitors : Nat := 1

def actualMonitors (numMonitors : BitVec 32) (totalMmioRegions : Nat) : Nat :=
  let actual := if numMonitors > 0 then numMonitors.toNat else kDefaultNumMonitors
  if totalMmioRegions > 0 ∧ actual > totalMmioRegions then totalMmioRegions else actual

def State.moveWorker (s : State) (index : Nat) (worker : Worker) : State :=
  { s with workers := s.workers.set index worker }

def State.spawn (s : State) (next total : Nat) : State :=
  { s with
    workers := s.workers ++ [⟨s.generation, next, total, [], .spawned⟩]
    ctl := if next + 1 < total then .spawning (next + 1) total else .idle }

def stepWorker (s : State) (index : Nat) (worker : Worker) (throws : Bool) : Option State :=
  match worker.pc with
  | .spawned =>
      some (s.moveWorker index
        { worker with
          regions := shard worker.threadId worker.totalThreads s.regions
          pc := .checking })
  | .checking =>
      some (s.moveWorker index
        { worker with pc := if s.monitorRunning then .polling else .exited })
  | .polling =>
      if throws then
        some ({ s with monitorRunning := false }.moveWorker index { worker with pc := .exited })
      else some (s.moveWorker index { worker with pc := .checking })
  | .exited => none

/-- A call is refused while the device is torn down or changes its SIGSEGV mode (`busy`),
a start while the monitor runs, and a stop from a monitor thread.  `setRegions` is any
change of the topology: its gate takes `monitor_ctl_mutex` and asks that no monitor runs. -/
def step (s : State) : Action → Option State
  | .startMonitor numMonitors busy =>
      if s.ctl ≠ .idle then none
      else if busy || s.monitorRunning then some s
      else
        let total := actualMonitors numMonitors s.regions.length
        some { s with
          monitorRunning := true
          numMonitors := total
          ctl := .spawning 0 total
          generation := s.generation + 1
          baseline := s.regions }
  | .spawn created =>
      match s.ctl with
      | .spawning next total =>
          if created then some (s.spawn next total)
          else some { s with monitorRunning := false, ctl := .joining }
      | .idle | .joining => none
  | .stopMonitor fromMonitor =>
      if s.ctl ≠ .idle then none
      else if fromMonitor then some s
      else some { s with monitorRunning := false, ctl := .joining }
  | .join =>
      if s.ctl = .joining ∧ ∀ worker ∈ s.workers, worker.pc = .exited then
        some { s with workers := [], numMonitors := 0, ctl := .idle }
      else none
  | .worker index throws => (s.workers[index]?).bind fun worker => stepWorker s index worker throws
  | .setRegions regions =>
      if s.ctl = .idle ∧ s.monitorRunning = false ∧ regions.Nodup then
        some { s with regions := regions }
      else none

def State.polls (s : State) (worker : Worker) : Bool :=
  worker.pc == .polling || (worker.pc == .checking && s.monitorRunning)

def State.shardOf (s : State) (worker : Worker) : List Nat :=
  if worker.pc = .spawned then shard worker.threadId worker.totalThreads s.regions
  else worker.regions

def State.Counts (s : State) (worker : Worker) : Prop :=
  worker.generation = s.generation ∨ worker.pc ≠ .exited

def State.Partitions (s : State) : Prop :=
  ∀ region ∈ s.regions, ∃! index : Nat, ∃ worker, s.workers[index]? = some worker ∧
    s.Counts worker ∧ region ∈ s.shardOf worker

def State.PolledOnce (s : State) : Prop :=
  ∀ (i j : Nat) (first second : Worker) (region : Nat), s.workers[i]? = some first →
    s.workers[j]? = some second → s.polls first = true → s.polls second = true →
    region ∈ first.regions → region ∈ second.regions → i = j

/-- A start finds the threads of the starts before it gone. -/
def Rested (s : State) : Action → Prop
  | .startMonitor _ busy =>
      busy = true ∨ s.monitorRunning = true ∨ ∀ worker ∈ s.workers, worker.pc = .exited
  | _ => True

instance (s : State) : ∀ action, Decidable (Rested s action)
  | .startMonitor _ busy =>
      inferInstanceAs (Decidable (busy = true ∨ s.monitorRunning = true ∨
        ∀ worker ∈ s.workers, worker.pc = .exited))
  | .spawn _ | .stopMonitor _ | .join | .worker _ _ | .setRegions _ => isTrue trivial

def Worker.ident (worker : Worker) : Nat × Nat × Nat :=
  (worker.generation, worker.threadId, worker.totalThreads)

def State.idents (s : State) : List (Nat × Nat × Nat) :=
  s.workers.map Worker.ident

/-- The last start can still be under way: the regions have not changed since. -/
def State.Steady (s : State) : Prop :=
  s.monitorRunning = true ∨ ∃ next total, s.ctl = .spawning next total

/-- A thread of an earlier start has returned; one of the last start that has looked at
the regions holds its shard of them. -/
structure Fits (s : State) (worker : Worker) : Prop where
  generation_le : worker.generation ≤ s.generation
  earlier : worker.generation < s.generation → worker.pc = .exited
  total : worker.generation = s.generation → worker.totalThreads = s.numMonitors
  shards : worker.generation = s.generation → worker.pc ≠ .spawned →
    s.Steady ∨ worker.pc = .polling →
    worker.regions = shard worker.threadId worker.totalThreads s.baseline

structure Sharded (s : State) : Prop where
  nodup : s.regions.Nodup
  baseline_nodup : s.baseline.Nodup
  steady : s.Steady → s.regions = s.baseline
  idents_nodup : s.idents.Nodup
  fits : ∀ worker ∈ s.workers, Fits s worker
  spawned : ∀ next total, s.ctl = .spawning next total → total = s.numMonitors ∧
    next < total ∧ ∀ k, (s.generation, k, total) ∈ s.idents ↔ k < next

theorem Fits.of_steady {s t : State} {worker : Worker} (h : Fits s worker)
    (hgeneration : t.generation = s.generation) (hmonitors : t.numMonitors = s.numMonitors)
    (hbaseline : t.baseline = s.baseline) (hsteady : t.Steady → s.Steady) : Fits t worker := by
  constructor
  · rw [hgeneration]
    exact h.generation_le
  · rw [hgeneration]
    exact h.earlier
  · rw [hgeneration, hmonitors]
    exact h.total
  · rw [hgeneration, hbaseline]
    intro hcurrent hpc hsees
    exact h.shards hcurrent hpc (hsees.imp_left hsteady)

theorem Fits.current {s : State} {worker : Worker} (h : Fits s worker)
    (hpc : worker.pc ≠ .exited) : worker.generation = s.generation :=
  Nat.le_antisymm h.generation_le (Nat.le_of_not_lt fun hless => hpc (h.earlier hless))

theorem actualMonitors_pos (numMonitors : BitVec 32) (totalMmioRegions : Nat) :
    0 < actualMonitors numMonitors totalMmioRegions := by
  unfold actualMonitors kDefaultNumMonitors
  dsimp only
  split
  · rename_i hpos
    split
    · rename_i hcap
      exact hcap.1
    · exact BitVec.lt_def.mp hpos
  · split
    · rename_i hcap
      exact hcap.1
    · exact Nat.one_pos

theorem idents_moveWorker {s : State} {index : Nat} {before after : Worker}
    (hget : s.workers[index]? = some before) (hident : after.ident = before.ident) :
    (s.moveWorker index after).idents = s.idents := by
  unfold State.idents State.moveWorker
  rw [List.map_set, hident]
  obtain ⟨hlength, rfl⟩ := List.getElem?_eq_some_iff.mp hget
  apply List.ext_getElem?
  intro i
  by_cases hi : index = i
  · subst hi
    simp [hlength]
  · rw [List.getElem?_set_ne hi]

theorem sharded_moveWorker {s : State} {index : Nat} {before after : Worker}
    (h : Sharded s) (hget : s.workers[index]? = some before)
    (hident : after.ident = before.ident) (hfits : Fits s after) :
    Sharded (s.moveWorker index after) := by
  have hidents := idents_moveWorker hget hident
  constructor
  · exact h.nodup
  · exact h.baseline_nodup
  · exact h.steady
  · rw [hidents]
    exact h.idents_nodup
  · intro worker hmem
    have hold : Fits s worker := forall_mem_set h.fits hfits worker hmem
    exact hold.of_steady rfl rfl rfl id
  · intro next total hctl
    rw [hidents]
    exact h.spawned next total hctl

theorem steady_of_stopped {s : State} (h : { s with monitorRunning := false }.Steady) :
    s.Steady :=
  .inr (h.resolve_left Bool.false_ne_true)

theorem sharded_stopped {s : State} (h : Sharded s) :
    Sharded { s with monitorRunning := false } where
  nodup := h.nodup
  baseline_nodup := h.baseline_nodup
  steady hsteady := h.steady (steady_of_stopped hsteady)
  idents_nodup := h.idents_nodup
  fits worker hmem := (h.fits worker hmem).of_steady rfl rfl rfl steady_of_stopped
  spawned := h.spawned

theorem Fits.turn {s : State} {worker after : Worker} (h : Fits s worker)
    (hcurrent : worker.generation = s.generation) (hident : after.ident = worker.ident)
    (hshards : s.Steady ∨ after.pc = .polling →
      after.regions = shard worker.threadId worker.totalThreads s.baseline) :
    Fits s after := by
  simp only [Worker.ident, Prod.mk.injEq] at hident
  obtain ⟨hgeneration, hthread, htotal⟩ := hident
  constructor
  · rw [hgeneration]
    exact h.generation_le
  · omega
  · rw [hgeneration, htotal]
    exact h.total
  · intro _ _ hsees
    rw [hthread, htotal]
    exact hshards hsees

theorem stepWorker_sharded {s t : State} {index : Nat} {worker : Worker} {throws : Bool}
    (h : Sharded s) (hget : s.workers[index]? = some worker)
    (hstep : stepWorker s index worker throws = some t) : Sharded t := by
  have hfits := h.fits worker (List.mem_of_getElem? hget)
  unfold stepWorker at hstep
  cases hpc : worker.pc with
  | spawned =>
      rw [hpc] at hstep
      cases hstep
      refine sharded_moveWorker h hget ?_ (hfits.turn (hfits.current (by simp [hpc])) ?_ ?_)
      · rfl
      · rfl
      · intro hsees
        rw [h.steady (hsees.resolve_right (by simp))]
  | checking =>
      rw [hpc] at hstep
      cases hstep
      have hgeneration := hfits.current (by simp [hpc])
      refine sharded_moveWorker h hget ?_ (hfits.turn hgeneration ?_ ?_)
      · rfl
      · rfl
      · intro hsees
        -- only a thread that finds the flag set polls
        have hsteady : s.Steady := by
          rcases hsees with hsteady | hpolls
          · exact hsteady
          · left
            by_contra hstopped
            simp [hstopped] at hpolls
        exact hfits.shards hgeneration (by simp [hpc]) (.inl hsteady)
  | polling =>
      rw [hpc] at hstep
      have hgeneration := hfits.current (by simp [hpc])
      have hshards := hfits.shards hgeneration (by simp [hpc]) (.inr hpc)
      dsimp only at hstep
      split at hstep
      · cases hstep
        have hstopped := sharded_stopped h
        have hfits' := hstopped.fits worker (List.mem_of_getElem? hget)
        refine sharded_moveWorker hstopped hget ?_ (hfits'.turn hgeneration ?_ fun _ => hshards)
        · rfl
        · rfl
      · cases hstep
        refine sharded_moveWorker h hget ?_ (hfits.turn hgeneration ?_ fun _ => hshards)
        · rfl
        · rfl
  | exited =>
      rw [hpc] at hstep
      cases hstep

theorem startMonitor_sharded {s : State} (h : Sharded s) (numMonitors : BitVec 32)
    (hrested : ∀ worker ∈ s.workers, worker.pc = .exited) :
    Sharded { s with
      monitorRunning := true
      numMonitors := actualMonitors numMonitors s.regions.length
      ctl := .spawning 0 (actualMonitors numMonitors s.regions.length)
      generation := s.generation + 1
      baseline := s.regions } := by
  have hbelow : ∀ worker ∈ s.workers, worker.generation < s.generation + 1 :=
    fun worker hmem => Nat.lt_succ_of_le (h.fits worker hmem).generation_le
  constructor
  · exact h.nodup
  · exact h.nodup
  · exact fun _ => rfl
  · exact h.idents_nodup
  · intro worker hmem
    have hless := hbelow worker hmem
    constructor
    · exact Nat.le_of_lt hless
    · exact fun _ => hrested worker hmem
    · exact fun hcurrent => absurd hcurrent (Nat.ne_of_lt hless)
    · exact fun hcurrent => absurd hcurrent (Nat.ne_of_lt hless)
  · intro next total hctl
    cases hctl
    refine ⟨rfl, actualMonitors_pos _ _, fun k => ?_⟩
    simp only [Nat.not_lt_zero, iff_false]
    intro hmem
    obtain ⟨worker, hworker, hident⟩ := List.mem_map.mp hmem
    have hgeneration : worker.generation = s.generation + 1 := congrArg Prod.fst hident
    exact absurd hgeneration (Nat.ne_of_lt (hbelow worker hworker))

theorem steady_of_spawning {s : State} {next total : Nat} (h : s.ctl = .spawning next total) :
    s.Steady :=
  .inr ⟨next, total, h⟩

theorem mem_idents_spawn {s : State} {next total : Nat} (h : Sharded s)
    (hctl : s.ctl = .spawning next total) (k : Nat) :
    (s.generation, k, total) ∈ (s.spawn next total).idents ↔ k < next + 1 := by
  have hold := (h.spawned next total hctl).2.2 k
  unfold State.idents State.spawn
  rw [List.map_append, List.mem_append]
  change (s.generation, k, total) ∈ s.idents ∨ _ ↔ _
  rw [hold]
  simp only [List.map_cons, List.map_nil, List.mem_singleton, Worker.ident, Prod.mk.injEq,
    true_and, and_true]
  omega

theorem fits_spawn {s : State} {next total : Nat} (h : Sharded s)
    (hctl : s.ctl = .spawning next total) :
    ∀ worker ∈ (s.spawn next total).workers, Fits (s.spawn next total) worker := by
  have hmonitors := (h.spawned next total hctl).1
  unfold State.spawn
  apply forall_mem_push
  · intro worker hmem
    exact (h.fits worker hmem).of_steady rfl rfl rfl fun _ => steady_of_spawning hctl
  · exact ⟨Nat.le_refl _, fun hless => absurd hless (Nat.lt_irrefl _), fun _ => hmonitors,
      fun _ hpc => absurd rfl hpc⟩

theorem spawn_sharded {s : State} {next total : Nat} (h : Sharded s)
    (hctl : s.ctl = .spawning next total) : Sharded (s.spawn next total) := by
  obtain ⟨hmonitors, hnext, hidents⟩ := h.spawned next total hctl
  constructor
  · exact h.nodup
  · exact h.baseline_nodup
  · exact fun _ => h.steady (steady_of_spawning hctl)
  · unfold State.idents State.spawn
    rw [List.map_append]
    refine h.idents_nodup.append (List.nodup_singleton _) ?_
    intro ident hmem hnew
    rw [List.map_singleton, List.mem_singleton] at hnew
    subst hnew
    exact absurd ((hidents next).mp hmem) (Nat.lt_irrefl _)
  · exact fits_spawn h hctl
  · intro next' total' hctl'
    change (if next + 1 < total then Ctl.spawning (next + 1) total else .idle) = _ at hctl'
    split at hctl'
    · cases hctl'
      exact ⟨hmonitors, by assumption, mem_idents_spawn h hctl⟩
    · cases hctl'

theorem joining_sharded {s : State} (h : Sharded s) :
    Sharded { s with monitorRunning := false, ctl := .joining } where
  nodup := h.nodup
  baseline_nodup := h.baseline_nodup
  steady := by simp [State.Steady]
  idents_nodup := h.idents_nodup
  fits worker hmem := (h.fits worker hmem).of_steady rfl rfl rfl (by simp [State.Steady])
  spawned _ _ hctl := Ctl.noConfusion hctl

theorem joined_sharded {s : State} (h : Sharded s) :
    Sharded { s with workers := [], numMonitors := 0, ctl := .idle } where
  nodup := h.nodup
  baseline_nodup := h.baseline_nodup
  steady hsteady := by
    have hrunning : s.monitorRunning = true := hsteady.resolve_right (by simp)
    exact h.steady (.inl hrunning)
  idents_nodup := List.nodup_nil
  fits _ hmem := absurd hmem List.not_mem_nil
  spawned _ _ hctl := Ctl.noConfusion hctl

theorem setRegions_sharded {s : State} (h : Sharded s) {regions : List Nat}
    (hctl : s.ctl = .idle) (hrunning : s.monitorRunning = false) (hnodup : regions.Nodup) :
    Sharded { s with regions := regions } where
  nodup := hnodup
  baseline_nodup := h.baseline_nodup
  steady := by simp [State.Steady, hctl, hrunning]
  idents_nodup := h.idents_nodup
  fits worker hmem := (h.fits worker hmem).of_steady rfl rfl rfl id
  spawned := h.spawned

theorem init_sharded : Sharded init where
  nodup := List.nodup_nil
  baseline_nodup := List.nodup_nil
  steady _ := rfl
  idents_nodup := List.nodup_nil
  fits _ hmem := absurd hmem List.not_mem_nil
  spawned _ _ hctl := Ctl.noConfusion hctl

theorem step_sharded (s : State) (action : Action) (t : State) (h : Sharded s)
    (hok : Rested s action) (hstep : step s action = some t) : Sharded t := by
  cases action with
  | startMonitor numMonitors busy =>
      dsimp only [step] at hstep
      split at hstep
      · cases hstep
      · split at hstep
        · cases hstep
          exact h
        · rename_i hrefused
          cases hstep
          simp only [Bool.or_eq_true, not_or] at hrefused
          exact startMonitor_sharded h numMonitors
            ((hok.resolve_left hrefused.1).resolve_left hrefused.2)
  | spawn created =>
      dsimp only [step] at hstep
      cases hctl : s.ctl with
      | spawning next total =>
          rw [hctl] at hstep
          dsimp only at hstep
          split at hstep
          · cases hstep
            exact spawn_sharded h hctl
          · cases hstep
            exact joining_sharded h
      | idle =>
          rw [hctl] at hstep
          cases hstep
      | joining =>
          rw [hctl] at hstep
          cases hstep
  | stopMonitor fromMonitor =>
      dsimp only [step] at hstep
      split at hstep
      · cases hstep
      · split at hstep
        · cases hstep
          exact h
        · cases hstep
          exact joining_sharded h
  | join =>
      dsimp only [step] at hstep
      split at hstep
      · cases hstep
        exact joined_sharded h
      · cases hstep
  | worker index throws =>
      obtain ⟨worker, hget, hturn⟩ := Option.bind_eq_some_iff.mp hstep
      exact stepWorker_sharded h hget hturn
  | setRegions regions =>
      dsimp only [step] at hstep
      split at hstep
      · rename_i hgate
        cases hstep
        exact setRegions_sharded h hgate.1 hgate.2.1 hgate.2.2
      · cases hstep

theorem index_eq_of_ident {s : State} (h : Sharded s) {i j : Nat} {first second : Worker}
    (hi : s.workers[i]? = some first) (hj : s.workers[j]? = some second)
    (hident : first.ident = second.ident) : i = j := by
  obtain ⟨hlength, hget⟩ := List.getElem?_eq_some_iff.mp hi
  obtain ⟨hlength', hget'⟩ := List.getElem?_eq_some_iff.mp hj
  apply (List.Nodup.getElem_inj_iff h.idents_nodup).mp
  · simp only [State.idents, List.getElem_map, hget, hget', hident]
  · simpa [State.idents] using hlength
  · simpa [State.idents] using hlength'

theorem index_eq_of_shard {s : State} (h : Sharded s) {i j : Nat} {first second : Worker}
    {region : Nat} (hi : s.workers[i]? = some first) (hj : s.workers[j]? = some second)
    (hfirst : first.generation = s.generation) (hsecond : second.generation = s.generation)
    (hregion : region ∈ shard first.threadId first.totalThreads s.baseline)
    (hregion' : region ∈ shard second.threadId second.totalThreads s.baseline) : i = j := by
  have htotal := (h.fits first (List.mem_of_getElem? hi)).total hfirst
  have htotal' := (h.fits second (List.mem_of_getElem? hj)).total hsecond
  rw [htotal] at hregion
  rw [htotal'] at hregion'
  have hthread := shard_unique h.baseline_nodup hregion hregion'
  apply index_eq_of_ident h hi hj
  rw [Worker.ident, Worker.ident, hfirst, hsecond, htotal, htotal', hthread]

theorem polls_shard {s : State} (h : Sharded s) {worker : Worker} (hmem : worker ∈ s.workers)
    (hpolls : s.polls worker = true) : worker.generation = s.generation ∧
      worker.regions = shard worker.threadId worker.totalThreads s.baseline := by
  have hfits := h.fits worker hmem
  simp only [State.polls, Bool.or_eq_true, Bool.and_eq_true, beq_iff_eq] at hpolls
  have hgeneration : worker.generation = s.generation := by
    apply hfits.current
    rcases hpolls with hpc | ⟨hpc, _⟩ <;> simp [hpc]
  refine ⟨hgeneration, hfits.shards hgeneration ?_ ?_⟩
  · rcases hpolls with hpc | ⟨hpc, _⟩ <;> simp [hpc]
  · rcases hpolls with hpc | ⟨_, hrunning⟩
    · exact .inr hpc
    · exact .inl (.inl hrunning)

theorem polledOnce_of_sharded {s : State} (h : Sharded s) : s.PolledOnce := by
  intro i j first second region hi hj hpolls hpolls' hregion hregion'
  obtain ⟨hfirst, hshard⟩ := polls_shard h (List.mem_of_getElem? hi) hpolls
  obtain ⟨hsecond, hshard'⟩ := polls_shard h (List.mem_of_getElem? hj) hpolls'
  rw [hshard] at hregion
  rw [hshard'] at hregion'
  exact index_eq_of_shard h hi hj hfirst hsecond hregion hregion'

theorem partitions_spawn {s : State} {next total : Nat} (h : Sharded s)
    (hctl : s.ctl = .spawning next total) (hlast : ¬next + 1 < total) :
    (s.spawn next total).Partitions := by
  have hsharded := spawn_sharded h hctl
  obtain ⟨hmonitors, hnext, _⟩ := h.spawned next total hctl
  have hregions : s.regions = s.baseline := h.steady (steady_of_spawning hctl)
  have hshards : ∀ worker ∈ (s.spawn next total).workers, worker.generation = s.generation →
      (s.spawn next total).shardOf worker =
        shard worker.threadId worker.totalThreads s.baseline := by
    unfold State.spawn
    apply forall_mem_push
    · intro worker hmem hgeneration
      unfold State.shardOf
      split
      · rw [← hregions]
      · rename_i hpc
        exact (h.fits worker hmem).shards hgeneration hpc (.inl (steady_of_spawning hctl))
    · intro _
      unfold State.shardOf
      rw [if_pos rfl, ← hregions]
  intro region hmem
  change region ∈ s.regions at hmem
  rw [hregions] at hmem
  have htotal : 0 < total := by omega
  obtain ⟨threadId, hthread, hshard⟩ := exists_shard htotal hmem
  have hident : (s.generation, threadId, total) ∈ (s.spawn next total).idents :=
    (mem_idents_spawn h hctl threadId).mpr (by omega)
  obtain ⟨worker, hworker, hworkerIdent⟩ := List.mem_map.mp hident
  obtain ⟨index, hget⟩ := List.mem_iff_getElem?.mp hworker
  simp only [Worker.ident, Prod.mk.injEq] at hworkerIdent
  obtain ⟨hgeneration, rfl, rfl⟩ := hworkerIdent
  refine ⟨index, ⟨worker, hget, .inl hgeneration, ?_⟩, ?_⟩
  · rw [hshards worker hworker hgeneration]
    exact hshard
  · rintro other ⟨second, hother, hcounts, hregion⟩
    have hsecond : second.generation = s.generation :=
      hcounts.elim id (hsharded.fits second (List.mem_of_getElem? hother)).current
    rw [hshards second (List.mem_of_getElem? hother) hsecond] at hregion
    exact index_eq_of_shard hsharded hother hget hsecond hgeneration hregion hshard

/-- The start under way ends with this action, and returns PIM_SUCCESS. -/
def Completes (s : State) (action : Action) : Prop :=
  action = .spawn true ∧ ∃ next total, s.ctl = .spawning next total ∧ total ≤ next + 1

/-- While every start finds the threads of the earlier ones gone, no region is polled by
two threads, and a start that succeeds gives every region to one thread. -/
theorem one_monitor_per_region {actions : List Action} {s : State}
    (hok : Meets step Rested init actions) (hrun : run step init actions = some s) :
    s.PolledOnce ∧
      ∀ action t, Completes s action → step s action = some t → t.Partitions := by
  have h : Sharded s := run_invariant_of_meets step_sharded init_sharded hok hrun
  refine ⟨polledOnce_of_sharded h, ?_⟩
  rintro action t ⟨rfl, next, total, hctl, hlast⟩ hstep
  unfold step at hstep
  rw [hctl] at hstep
  cases hstep
  exact partitions_spawn h hctl (Nat.not_lt.mpr hlast)

theorem one_monitor_per_region_restart : ∃ s t,
    run step init [.setRegions [0, 1, 2], .startMonitor 2 false, .spawn true, .worker 0 false,
      .worker 0 false, .worker 0 true, .spawn true, .worker 1 false, .worker 1 false,
      .startMonitor 2 false, .spawn true] = some s ∧
      s.PolledOnce ∧ step s (.spawn true) = some t ∧ t.Partitions := by
  have hrun : ∃ s, run step init [.setRegions [0, 1, 2], .startMonitor 2 false, .spawn true,
      .worker 0 false, .worker 0 false, .worker 0 true, .spawn true, .worker 1 false,
      .worker 1 false, .startMonitor 2 false, .spawn true] = some s ∧
      s.ctl = .spawning 1 2 := exists_run (by decide)
  obtain ⟨s, hrun, hctl⟩ := hrun
  obtain ⟨honce, hlast⟩ := one_monitor_per_region (by decide) hrun
  have hstep : step s (.spawn true) = some (s.spawn 1 2) := by
    unfold step
    rw [hctl]
    rfl
  exact ⟨s, s.spawn 1 2, hrun, honce, hstep,
    hlast _ _ ⟨rfl, 1, 2, hctl, Nat.le_refl 2⟩ hstep⟩

/-- A thread that throws clears the flag, and the next start sets it again before the
other thread has looked: the other thread and its successor poll the same region. -/
theorem restart_polls_twice :
    ¬∀ actions s, run step init actions = some s → s.PolledOnce := by
  intro h
  have hrun : ∃ s, run step init [.setRegions [0, 1], .startMonitor 2 false, .spawn true,
      .spawn true, .worker 0 false, .worker 1 false, .worker 0 false, .worker 1 false,
      .worker 0 true, .startMonitor 2 false, .spawn true, .spawn true, .worker 3 false,
      .worker 3 false] = some s ∧
      s.workers[1]? = some ⟨1, 1, 2, [1], .polling⟩ ∧
      s.workers[3]? = some ⟨2, 1, 2, [1], .polling⟩ := exists_run (by decide)
  obtain ⟨s, hrun, hold, hnew⟩ := hrun
  have hsame := h _ s hrun 1 3 _ _ 1 hold hnew (by simp [State.polls]) (by simp [State.polls])
    (by simp) (by simp)
  exact absurd hsame (by decide)

end HostPimSim.Core.MonitorShards
