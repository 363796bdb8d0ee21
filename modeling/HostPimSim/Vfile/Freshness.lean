import HostPimSim.Vfile.AttrRevision
import HostPimSim.Vfile.Registry

/-! The cached snapshot under its generation, with the calls that change the registry and the
builds as threads.  A build copies the three registries in separate sections and publishes if
the generation is still the one it started from. -/
namespace HostPimSim.Vfile.Namespace
open Attribute Transition

inductive Phase where
  | vdevs
  | vsysfsList (vdevs : List (Nat × Path))
  | vsysfs (vdevs : List (Nat × Path)) (done : List (Nat × VsysfsSeed)) (left : List Nat)
  | vmoduleList (vdevs : List (Nat × Path)) (vsysfs : List (Nat × VsysfsSeed))
  | vmodules (vdevs : List (Nat × Path)) (vsysfs : List (Nat × VsysfsSeed))
      (done : List (Nat × VmoduleSeed)) (left : List Nat)
  deriving DecidableEq

/-- `quiet` is whether no mutator has been in progress since the lookup started. -/
structure Build where
  generation : BitVec 64
  phase : Phase
  quiet : Bool
  deriving DecidableEq

/-- `dirty` is whether the call has changed what builds copy since it last notified. -/
structure Thread where
  pc : Pc
  dirty : Bool
  deriving DecidableEq

/-- `cache` is there while `g_virtual_fs_cache_valid`, with its generation. -/
structure State where
  registry : Registry
  generation : BitVec 64
  cache : Option (BitVec 64 × Snapshot)
  threads : List (Option Thread)
  builds : List (Option Build)
  deriving DecidableEq

inductive Action where
  | addRoot (className kobjectName vdevGlob instanceGlob : String)
  | start (call : Call)
  | turn (i : Nat) (ok : Bool)
  | lookup
  | build (i : Nat)
  deriving DecidableEq

def init : State := ⟨⟨[], [], [], [], [], [], []⟩, 1, none, [], []⟩

def State.idle (s : State) : Bool := s.threads.all Option.isNone

/-- `vfile_get_cached_virtual_fs_snapshot_locked` -/
def State.cached (s : State) : Option Snapshot :=
  s.cache.bind fun cache => if cache.1 = s.generation then some cache.2 else none

def State.fresh (s : State) : Snapshot := buildSnapshot s.registry.shape.seeds

def buildStep (shape : Shape) : Phase → Phase ⊕ Seeds
  | .vdevs => .inl (.vsysfsList shape.vdevs)
  | .vsysfsList vdevs => .inl (.vsysfs vdevs [] shape.vsysfsList)
  | .vsysfs vdevs done (id :: left) =>
      .inl (.vsysfs vdevs (done ++ shape.vsysfsSeeds [id]) left)
  | .vsysfs vdevs done [] => .inl (.vmoduleList vdevs done)
  | .vmoduleList vdevs vsysfs => .inl (.vmodules vdevs vsysfs [] shape.vmoduleList)
  | .vmodules vdevs vsysfs done (id :: left) =>
      .inl (.vmodules vdevs vsysfs (done ++ shape.vmoduleSeeds [id]) left)
  | .vmodules vdevs vsysfs done [] => .inr ⟨vdevs, vsysfs, done⟩

/-- The last section of `vfile_build_virtual_fs_snapshot`: the snapshot it returns. -/
def published (s : State) (b : Build) (seeds : Seeds) : Snapshot :=
  if b.generation = s.generation then buildSnapshot seeds
  else s.cached.getD (buildSnapshot seeds)

def publish (s : State) (i : Nat) (b : Build) (seeds : Seeds) : State :=
  { s with
    cache := if b.generation = s.generation then some (s.generation, buildSnapshot seeds)
      else s.cache
    builds := s.builds.set i none }

/-- `vfile_notify_virtual_fs_changed` ends a call. -/
def notify (s : State) (i : Nat) : State :=
  { s with
    generation := bumpNonzeroRevision s.generation
    cache := none
    threads := s.threads.set i none }

def sectionTurn (s : State) (i : Nat) (thread : Thread) (ok : Bool) : State :=
  { s with
    registry := (runSection s.registry ok thread.pc).1
    threads := s.threads.set i ((runSection s.registry ok thread.pc).2.map fun pc =>
      ⟨pc, thread.dirty ||
        decide ((runSection s.registry ok thread.pc).1.shape ≠ s.registry.shape)⟩) }

def step (s : State) : Action → Option State
  | .addRoot className kobjectName vdevGlob instanceGlob =>
      some { s with registry := { s.registry with roots := s.registry.roots ++
        [⟨className, kobjectName,
          className ++ "/" ++ vdevGlob ≠ kobjectName ++ "/" ++ instanceGlob, [], []⟩] } }
  | .start call =>
      some { s with
        threads := s.threads ++ [some ⟨.begin call, false⟩]
        builds := s.builds.map (Option.map fun b => { b with quiet := false }) }
  | .turn i ok =>
      ((s.threads[i]?).join).map fun thread =>
        if thread.pc = .notify then notify s i else sectionTurn s i thread ok
  | .lookup =>
      if s.cached.isSome then some s
      else some { s with builds := s.builds ++ [some ⟨s.generation, .vdevs, s.idle⟩] }
  | .build i =>
      ((s.builds[i]?).join).map fun b =>
        match buildStep s.registry.shape b.phase with
        | .inl phase => { s with builds := s.builds.set i (some { b with phase }) }
        | .inr seeds => publish s i b seeds

/-- The snapshot that a lookup gets in this step, if no mutator was in progress since it
started. -/
def answer (s : State) : Action → Option Snapshot
  | .lookup => if s.idle then s.cached else none
  | .build i =>
      ((s.builds[i]?).join).bind fun b =>
        match buildStep s.registry.shape b.phase with
        | .inl _ => none
        | .inr seeds => if b.quiet then some (published s b seeds) else none
  | _ => none

def Pc.notifies : Pc → Bool
  | .notify | .linkVdev _ | .eraseVdev _ | .linkVsysfs _ _ | .attachDevice _ | .ensureParent _
  | .upsertParent _ _ | .eraseVsysfs _ => true
  | .apply _ done left => (done ++ left).any fun state => state.2.isNone
  | .removeFrom _ _ anyRemoved => anyRemoved
  | .begin _ | .dropVdev _ | .dropVsysfs _ | .capture _ _ _ | .setRoot _ _ | .rollback _ _ => false

/-- No call runs out of memory once it has changed the namespace, and a root default is only
added to an instance that had it when it was captured if some other instance had not. -/
def Announced (r : Registry) (ok : Bool) : Pc → Prop
  | .begin (.writeAttr owner name _ .valueOnly) => (r.live owner name).isSome = true
  | .linkVdev _ | .linkVsysfs _ _ | .attachDevice _ => ok = true
  | .dropVdev _ | .dropVsysfs _ | .rollback _ _ => False
  | .apply w done (state :: left) => ok = true ∧
      ((r.live (.vsysfs state.1) w.name).isSome = true ∨
        (done ++ state :: left).any (fun state => state.2.isNone) = true)
  | _ => True

def AllAnnounced (s : State) : Action → Prop
  | .turn i ok => ∀ thread ∈ (s.threads[i]?).join, Announced s.registry ok thread.pc
  | _ => True

variable {r : Registry} {owner : Owner} {name : String} {attr : Attr} {ok : Bool}

theorem shape_putAttr (h : (r.live owner name).isSome = true) :
    (putAttr r owner name attr).shape = r.shape := by
  unfold putAttr
  cases hattrs : r.attrs owner with
  | none => rfl
  | some attrs =>
      rw [Registry.live, hattrs] at h
      have hkeys : Table.keys (Table.put attrs name attr) = Table.keys attrs :=
        Table.keys_put_of_find h
      cases owner with
      | vsysfs id =>
          have hmap := Threads.map_modify_of_eq r.vsysfs id Vsysfs.seed
            (fun v => { v with attrs := Table.put attrs name attr }) fun v hv => by
              obtain ⟨_, hv', rfl⟩ := Option.map_eq_some_iff.mp hattrs
              cases hv.symm.trans hv'
              simp only [Vsysfs.seed, hkeys]
          simp only [Registry.setAttrs, Registry.shape, Registry.vdevSeeds, hmap]
      | vmodule id =>
          have hmap := Threads.map_modify_of_eq r.vmodules id Vmodule.seed
            (fun m => { m with attrs := Table.put attrs name attr }) fun m hm => by
              obtain ⟨_, hm', rfl⟩ := Option.map_eq_some_iff.mp hattrs
              cases hm.symm.trans hm'
              simp only [Vmodule.seed, hkeys]
          simp only [Registry.setAttrs, Registry.shape, Registry.vdevSeeds, hmap]

theorem live_isSome_of_access {access : AccessMode}
    (h : (r.live owner name).map Attr.access = some access) :
    (r.live owner name).isSome = true := by
  obtain ⟨attr, hattr, _⟩ := Option.map_eq_some_iff.mp h
  rw [hattr]
  rfl

/-- A section leaves what builds copy as it is, or the call goes on to notify. -/
def Notified (r : Registry) (after : Registry × Option Pc) : Prop :=
  after.1.shape = r.shape ∨ ∃ pc, after.2 = some pc ∧ pc.notifies = true

theorem storeAttr_notified {outcome : StoreOutcome}
    (h : Announced r ok (.begin (.writeAttr owner name attr outcome))) :
    Notified r (storeAttr r owner name attr outcome) := by
  cases outcome with
  | stored =>
      dsimp only [storeAttr]
      split
      · rename_i haccess
        exact .inl (shape_putAttr (live_isSome_of_access haccess))
      · exact .inr ⟨_, rfl, rfl⟩
  | undone => exact .inl rfl
  | valueOnly => exact .inl (shape_putAttr h)

theorem beginCall_notified {call : Call} (h : Announced r ok (.begin call)) :
    Notified r (beginCall r ok call) := by
  cases call with
  | vdevCreate name major minor =>
      dsimp only [beginCall]
      split
      · exact .inl rfl
      · exact .inr ⟨_, rfl, rfl⟩
  | vdevDestroy id => exact .inl rfl
  | vsysfsCreate root vdev instanceName =>
      dsimp only [beginCall, registerVsysfs]
      split
      · split
        · exact .inl rfl
        · exact .inr ⟨_, rfl, rfl⟩
      · exact .inl rfl
  | vsysfsDestroy id =>
      dsimp only [beginCall]
      split <;> exact .inl rfl
  | writeAttr owner name attr outcome => exact storeAttr_notified h
  | removeAttr owner name =>
      dsimp only [beginCall]
      split
      · exact .inr ⟨_, rfl, rfl⟩
      · exact .inl rfl
  | rootWriteDefaultAttr root name attr =>
      dsimp only [beginCall]
      split
      · exact .inl rfl
      · split <;> exact .inl rfl
  | rootRemoveDefaultAttr root name =>
      dsimp only [beginCall]
      split
      · exact .inl rfl
      · split <;> exact .inl rfl
  | vmoduleCreate name =>
      dsimp only [beginCall]
      split
      · exact .inl rfl
      · exact .inr ⟨_, rfl, rfl⟩
  | vmoduleDestroy id => exact .inr ⟨_, rfl, rfl⟩
  | registerDriver id bus driver =>
      dsimp only [beginCall]
      split
      · exact .inl rfl
      · split
        · exact .inl rfl
        · exact .inr ⟨_, rfl, rfl⟩

theorem ensureParent_next (r : Registry) (id : Nat) :
    (ensureParent r id).2 = some .notify ∨
      ∃ parent attrs, (ensureParent r id).2 = some (.upsertParent parent attrs) := by
  unfold ensureParent
  split
  · exact .inl rfl
  · split
    · exact .inl rfl
    · dsimp only
      split
      · exact .inr ⟨_, _, rfl⟩
      · exact .inl rfl

theorem ensureParent_notifies (r : Registry) (id : Nat) :
    ∃ pc, (ensureParent r id).2 = some pc ∧ pc.notifies = true := by
  rcases ensureParent_next r id with hnext | ⟨parent, attrs, hnext⟩
  · exact ⟨_, hnext, rfl⟩
  · exact ⟨_, hnext, rfl⟩

theorem applyNext_notifies {w : DefaultWrite} {done left : List (Nat × Option Attr)}
    (h : (done ++ left).any (fun state => state.2.isNone) = true) :
    ∃ pc, applyNext w done left = some pc ∧ pc.notifies = true := by
  cases left with
  | nil =>
      rw [List.append_nil] at h
      exact ⟨.notify, if_pos h, rfl⟩
  | cons state left => exact ⟨_, rfl, h⟩

theorem removeNext_notifies (name : String) (left : List Nat) :
    ∃ pc, removeNext name true left = some pc ∧ pc.notifies = true := by
  cases left <;> exact ⟨_, rfl, rfl⟩

theorem runSection_notified {pc : Pc} (h : Announced r ok pc) :
    Notified r (runSection r ok pc) := by
  cases pc with
  | begin call => exact beginCall_notified h
  | notify => exact .inl rfl
  | linkVdev id => exact .inl rfl
  | dropVdev id => exact h.elim
  | eraseVdev id => exact .inr ⟨_, rfl, rfl⟩
  | linkVsysfs id vdev =>
      cases h
      exact .inr ⟨_, rfl, rfl⟩
  | dropVsysfs id => exact h.elim
  | attachDevice id =>
      cases h
      exact .inl rfl
  | ensureParent id =>
      dsimp only [runSection]
      split
      · exact .inr (ensureParent_notifies r id)
      · exact .inl rfl
  | upsertParent parent attrs =>
      dsimp only [runSection]
      split
      · exact .inl rfl
      · exact .inr ⟨_, rfl, rfl⟩
  | eraseVsysfs id => exact .inr ⟨_, rfl, rfl⟩
  | capture w prev left =>
      dsimp only [runSection]
      split
      · exact .inl rfl
      · split <;> exact .inl rfl
  | setRoot w prev =>
      dsimp only [runSection]
      split <;> exact .inl rfl
  | apply w done left =>
      cases left with
      | nil => exact .inl rfl
      | cons state left =>
          obtain ⟨rfl, hlive | hnew⟩ := h
          · exact .inl (shape_putAttr hlive)
          · refine .inr (applyNext_notifies ?_)
            rwa [List.append_assoc]
  | rollback w left => exact h.elim
  | removeFrom name left anyRemoved =>
      cases left with
      | nil => exact .inl rfl
      | cons id left =>
          dsimp only [runSection]
          split
          · exact .inr (removeNext_notifies name left)
          · exact .inl rfl

theorem runSection_notifies {pc : Pc} (h : Announced r ok pc) (hnotify : pc ≠ .notify)
    (hnotifies : pc.notifies = true) :
    ∃ next, (runSection r ok pc).2 = some next ∧ next.notifies = true := by
  cases pc with
  | begin call => cases hnotifies
  | notify => exact absurd rfl hnotify
  | linkVdev id =>
      cases h
      exact ⟨_, rfl, rfl⟩
  | dropVdev id => cases hnotifies
  | eraseVdev id => exact ⟨_, rfl, rfl⟩
  | linkVsysfs id vdev =>
      cases h
      exact ⟨_, rfl, rfl⟩
  | dropVsysfs id => cases hnotifies
  | attachDevice id =>
      cases h
      refine ⟨_, rfl, ?_⟩
      split <;> rfl
  | ensureParent id =>
      dsimp only [runSection]
      split
      · exact ensureParent_notifies r id
      · exact ⟨_, rfl, rfl⟩
  | upsertParent parent attrs =>
      dsimp only [runSection]
      split <;> exact ⟨_, rfl, rfl⟩
  | eraseVsysfs id => exact ⟨_, rfl, rfl⟩
  | capture w prev left => cases hnotifies
  | setRoot w prev => cases hnotifies
  | apply w done left =>
      cases left with
      | nil => exact applyNext_notifies (w := w) hnotifies
      | cons state left =>
          obtain ⟨rfl, _⟩ := h
          refine applyNext_notifies ?_
          rwa [List.append_assoc]
  | rollback w left => cases hnotifies
  | removeFrom name left anyRemoved =>
      cases hnotifies
      cases left with
      | nil => exact removeNext_notifies name []
      | cons id left =>
          dsimp only [runSection]
          split <;> exact removeNext_notifies name left

def Phase.completion (shape : Shape) : Phase → Seeds
  | .vdevs => shape.seeds
  | .vsysfsList devs => ⟨devs, shape.seeds.vsysfs, shape.seeds.vmodules⟩
  | .vsysfs devs done left => ⟨devs, done ++ shape.vsysfsSeeds left, shape.seeds.vmodules⟩
  | .vmoduleList devs nodes => ⟨devs, nodes, shape.seeds.vmodules⟩
  | .vmodules devs nodes done left => ⟨devs, nodes, done ++ shape.vmoduleSeeds left⟩

theorem buildStep_completion (shape : Shape) (phase : Phase) :
    (∀ next, buildStep shape phase = .inl next →
        next.completion shape = phase.completion shape) ∧
      ∀ seeds, buildStep shape phase = .inr seeds → seeds = phase.completion shape := by
  cases phase with
  | vdevs =>
      refine ⟨fun next h => ?_, fun seeds h => by cases h⟩
      cases h
      rfl
  | vsysfsList vdevs =>
      refine ⟨fun next h => ?_, fun seeds h => by cases h⟩
      cases h
      rfl
  | vsysfs vdevs done left =>
      refine ⟨fun next h => ?_, fun seeds h => by cases left <;> cases h⟩
      cases left with
      | nil =>
          cases h
          simp [Phase.completion, Shape.vsysfsSeeds]
      | cons id left =>
          cases h
          simp only [Phase.completion, List.append_assoc, Shape.vsysfsSeeds,
            ← List.filterMap_append, List.singleton_append]
  | vmoduleList vdevs vsysfs =>
      refine ⟨fun next h => ?_, fun seeds h => by cases h⟩
      cases h
      rfl
  | vmodules vdevs vsysfs done left =>
      cases left with
      | nil =>
          refine ⟨fun next h => (by cases h), fun seeds h => ?_⟩
          cases h
          simp [Phase.completion, Shape.vmoduleSeeds]
      | cons id left =>
          refine ⟨fun next h => ?_, fun seeds h => by cases h⟩
          cases h
          simp only [Phase.completion, List.append_assoc, Shape.vmoduleSeeds,
            ← List.filterMap_append, List.singleton_append]

def State.dirty (s : State) : Prop := ∃ thread, some thread ∈ s.threads ∧ thread.dirty = true

/-- What the build copies is current if the generation is still the one it started from and
every change has been notified; `k` notifications have come since. -/
structure BuildFresh (n : Nat) (s : State) (b : Build) : Prop where
  nonzero : b.generation ≠ 0
  tracks : ∃ k, k + n < 2 ^ 64 - 1 ∧ s.generation = bumpNonzeroRevision^[k] b.generation ∧
    (k = 0 → ¬s.dirty → b.phase.completion s.registry.shape = s.registry.shape.seeds)
  quiet : b.quiet = true → s.idle = true ∧
    b.phase.completion s.registry.shape = s.registry.shape.seeds

structure Invariant (n : Nat) (s : State) : Prop where
  bound : n < 2 ^ 64 - 1
  generation : s.generation ≠ 0
  threads : ∀ thread, some thread ∈ s.threads → thread.dirty = true → thread.pc.notifies = true
  cache : ∀ cache ∈ s.cache, cache.1 = s.generation ∧ (¬s.dirty → cache.2 = s.fresh)
  builds : ∀ b, some b ∈ s.builds → BuildFresh n s b

variable {s t : State} {i n : Nat} {thread : Thread} {b : Build}

theorem not_dirty_of_idle (h : s.idle = true) : ¬s.dirty := by
  rintro ⟨thread, hmem, _⟩
  have hnone := List.all_eq_true.mp h _ hmem
  cases hnone

theorem not_idle_of_thread (h : (s.threads[i]?).join = some thread) : s.idle = false := by
  apply Bool.eq_false_iff.mpr
  intro hidle
  have hmem := List.mem_iff_getElem?.mpr ⟨i, Option.join_eq_some_iff.mp h⟩
  have hnone := List.all_eq_true.mp hidle _ hmem
  cases hnone

theorem BuildFresh.later (h : BuildFresh (n + 1) s b) : BuildFresh n s b := by
  obtain ⟨k, hk, hgeneration, hcurrent⟩ := h.tracks
  exact ⟨h.nonzero, ⟨k, by omega, hgeneration, hcurrent⟩, h.quiet⟩

theorem BuildFresh.same (h : BuildFresh (n + 1) s b) (hgeneration : t.generation = s.generation)
    (hclean : ¬t.dirty → ¬s.dirty ∧ t.registry.shape = s.registry.shape)
    (hquiet : b.quiet = true → t.idle = true ∧ t.registry.shape = s.registry.shape) :
    BuildFresh n t b := by
  obtain ⟨k, hk, hbumps, hcurrent⟩ := h.tracks
  refine ⟨h.nonzero, ⟨k, by omega, hgeneration.trans hbumps, fun hzero hdirty => ?_⟩,
    fun hb => ?_⟩
  · obtain ⟨hdirty', hshape⟩ := hclean hdirty
    rw [hshape]
    exact hcurrent hzero hdirty'
  · obtain ⟨hidle, hshape⟩ := hquiet hb
    rw [hshape]
    exact ⟨hidle, (h.quiet hb).2⟩

theorem fresh_of_shape (h : t.registry.shape = s.registry.shape) : t.fresh = s.fresh := by
  unfold State.fresh
  rw [h]

theorem Invariant.same (h : Invariant (n + 1) s) (hgeneration : t.generation = s.generation)
    (hcache : t.cache = s.cache)
    (hclean : ¬t.dirty → ¬s.dirty ∧ t.registry.shape = s.registry.shape)
    (hthreads : ∀ thread, some thread ∈ t.threads → thread.dirty = true →
      thread.pc.notifies = true)
    (hbuilds : ∀ b, some b ∈ t.builds → BuildFresh n t b) : Invariant n t := by
  have hbound := h.bound
  refine ⟨by omega, by rw [hgeneration]; exact h.generation, hthreads, ?_, hbuilds⟩
  intro cache hmem
  rw [hcache] at hmem
  obtain ⟨hcurrent, hfresh⟩ := h.cache cache hmem
  refine ⟨hcurrent.trans hgeneration.symm, fun hdirty => ?_⟩
  obtain ⟨hdirty', hshape⟩ := hclean hdirty
  rw [fresh_of_shape hshape]
  exact hfresh hdirty'

theorem start_invariant (call : Call) (h : Invariant (n + 1) s)
    (hstep : step s (.start call) = some t) : Invariant n t := by
  cases hstep
  have hclean : ¬State.dirty { s with
      threads := s.threads ++ [some ⟨.begin call, false⟩]
      builds := s.builds.map (Option.map fun b => { b with quiet := false }) } → ¬s.dirty := by
    rintro hdirty ⟨thread, hmem, hthread⟩
    exact hdirty ⟨thread, List.mem_append_left _ hmem, hthread⟩
  refine h.same rfl rfl (fun hdirty => ⟨hclean hdirty, rfl⟩) ?_ ?_
  · intro thread hmem hthread
    rcases List.mem_append.mp hmem with hold | hnew
    · exact h.threads thread hold hthread
    · cases List.mem_singleton.mp hnew
      cases hthread
  · intro b hmem
    obtain ⟨old, hold, hb⟩ := List.mem_map.mp hmem
    obtain ⟨b, rfl, rfl⟩ := Option.map_eq_some_iff.mp hb
    obtain ⟨k, hk, hbumps, hcurrent⟩ := (h.builds b hold).tracks
    exact ⟨(h.builds b hold).nonzero,
      ⟨k, by omega, hbumps, fun hzero hdirty => hcurrent hzero (hclean hdirty)⟩,
      fun hquiet => (by cases hquiet)⟩

theorem notify_invariant (h : Invariant (n + 1) s)
    (hthread : (s.threads[i]?).join = some thread) : Invariant n (notify s i) := by
  have hbound := h.bound
  refine ⟨by omega, bumpNonzeroRevision_ne_zero _, ?_, fun cache hmem => (by cases hmem), ?_⟩
  · intro thread hmem
    rcases List.mem_or_eq_of_mem_set hmem with hold | hnew
    · exact h.threads thread hold
    · cases hnew
  · intro b hmem
    have hb := h.builds b hmem
    obtain ⟨k, hk, hbumps, _⟩ := hb.tracks
    refine ⟨hb.nonzero, ⟨k + 1, by omega, ?_, fun hzero => (by cases hzero)⟩, fun hquiet => ?_⟩
    · rw [Function.iterate_succ_apply', ← hbumps]
      rfl
    · have hidle := (hb.quiet hquiet).1
      rw [not_idle_of_thread hthread] at hidle
      cases hidle

theorem sectionTurn_notifies (h : Invariant n s)
    (hthread : (s.threads[i]?).join = some thread) (hnotify : thread.pc ≠ .notify)
    (hannounced : Announced s.registry ok thread.pc)
    (hdirty : (thread.dirty ||
      decide ((runSection s.registry ok thread.pc).1.shape ≠ s.registry.shape)) = true) :
    ∃ next, (runSection s.registry ok thread.pc).2 = some next ∧ next.notifies = true := by
  rcases Bool.or_eq_true_iff.mp hdirty with hbefore | hshape
  · have hmem := List.mem_iff_getElem?.mpr ⟨i, Option.join_eq_some_iff.mp hthread⟩
    exact runSection_notifies hannounced hnotify (h.threads thread hmem hbefore)
  · exact (runSection_notified hannounced).resolve_left (of_decide_eq_true hshape)

theorem sectionTurn_clean (h : Invariant n s)
    (hthread : (s.threads[i]?).join = some thread) (hnotify : thread.pc ≠ .notify)
    (hannounced : Announced s.registry ok thread.pc)
    (hclean : ¬(sectionTurn s i thread ok).dirty) :
    ¬s.dirty ∧ (sectionTurn s i thread ok).registry.shape = s.registry.shape := by
  have hget := Option.join_eq_some_iff.mp hthread
  have hmoved : (thread.dirty ||
      decide ((runSection s.registry ok thread.pc).1.shape ≠ s.registry.shape)) = false := by
    apply Bool.eq_false_iff.mpr
    intro hdirty
    obtain ⟨next, hnext, _⟩ := sectionTurn_notifies h hthread hnotify hannounced hdirty
    refine hclean ⟨⟨next, _⟩, ?_, hdirty⟩
    unfold sectionTurn
    rw [hnext]
    exact Threads.mem_set_moved hget
  obtain ⟨hbefore, hshape⟩ := Bool.or_eq_false_iff.mp hmoved
  refine ⟨?_, of_not_not (of_decide_eq_false hshape)⟩
  rintro ⟨other, hmem, hother⟩
  rcases Threads.eq_or_mem_set _ hget hmem with hself | hkept
  · cases hself
    rw [hbefore] at hother
    cases hother
  · exact hclean ⟨other, hkept, hother⟩

theorem sectionTurn_invariant (h : Invariant (n + 1) s)
    (hthread : (s.threads[i]?).join = some thread) (hnotify : thread.pc ≠ .notify)
    (hannounced : Announced s.registry ok thread.pc) :
    Invariant n (sectionTurn s i thread ok) := by
  have hclean := sectionTurn_clean h hthread hnotify hannounced
  refine h.same rfl rfl hclean ?_ ?_
  · intro moved hmem hdirty
    rcases List.mem_or_eq_of_mem_set hmem with hold | hnew
    · exact h.threads moved hold hdirty
    · obtain ⟨next, hnext, hmoved⟩ := Option.map_eq_some_iff.mp hnew.symm
      subst hmoved
      obtain ⟨pc, hpc, hnotifies⟩ := sectionTurn_notifies h hthread hnotify hannounced hdirty
      cases hnext.symm.trans hpc
      exact hnotifies
  · intro b hmem
    refine (h.builds b hmem).same rfl hclean fun hquiet => ?_
    have hidle := ((h.builds b hmem).quiet hquiet).1
    rw [not_idle_of_thread hthread] at hidle
    cases hidle

theorem Invariant.later (h : Invariant (n + 1) s) : Invariant n s :=
  h.same rfl rfl (fun hdirty => ⟨hdirty, rfl⟩) h.threads fun b hmem => (h.builds b hmem).later

theorem lookup_invariant (h : Invariant (n + 1) s) (hstep : step s .lookup = some t) :
    Invariant n t := by
  dsimp only [step] at hstep
  split at hstep
  · cases hstep
    exact h.later
  · cases hstep
    have hbound := h.bound
    refine h.same rfl rfl (fun hdirty => ⟨hdirty, rfl⟩) h.threads ?_
    intro b hmem
    rcases List.mem_append.mp hmem with hold | hnew
    · exact (h.builds b hold).same rfl (fun hdirty => ⟨hdirty, rfl⟩)
        fun hquiet => ⟨((h.builds b hold).quiet hquiet).1, rfl⟩
    · cases List.mem_singleton.mp hnew
      exact ⟨h.generation, ⟨0, by omega, rfl, fun _ _ => rfl⟩, fun hidle => ⟨hidle, rfl⟩⟩

theorem BuildFresh.current (h : BuildFresh n s b) (hsame : b.generation = s.generation)
    (hdirty : ¬s.dirty) :
    b.phase.completion s.registry.shape = s.registry.shape.seeds := by
  obtain ⟨k, hk, hbumps, hcurrent⟩ := h.tracks
  refine hcurrent ?_ hdirty
  by_contra hne
  have hpos : 0 < k := by omega
  exact bump_iterate_ne h.nonzero hpos (by omega) (hbumps.symm.trans hsame.symm)

theorem publish_invariant {seeds : Seeds} (h : Invariant (n + 1) s)
    (hbuild : (s.builds[i]?).join = some b)
    (hseeds : buildStep s.registry.shape b.phase = .inr seeds) :
    Invariant n (publish s i b seeds) := by
  have hmem := List.mem_iff_getElem?.mpr ⟨i, Option.join_eq_some_iff.mp hbuild⟩
  have hb := h.builds b hmem
  have hbound := h.bound
  refine ⟨by omega, h.generation, h.threads, ?_, ?_⟩
  · intro cache hcache
    change cache ∈ (if b.generation = s.generation then _ else _) at hcache
    split at hcache
    · rename_i hsame
      cases hcache
      refine ⟨rfl, fun hdirty => ?_⟩
      rw [(buildStep_completion _ _).2 seeds hseeds, hb.current hsame hdirty]
      rfl
    · exact h.cache cache hcache
  · intro other hother
    rcases List.mem_or_eq_of_mem_set hother with hold | hnew
    · exact (h.builds other hold).same rfl (fun hdirty => ⟨hdirty, rfl⟩)
        fun hquiet => ⟨((h.builds other hold).quiet hquiet).1, rfl⟩
    · cases hnew

theorem build_invariant (h : Invariant (n + 1) s) (hstep : step s (.build i) = some t) :
    Invariant n t := by
  obtain ⟨b, hbuild, rfl⟩ := Option.map_eq_some_iff.mp hstep
  have hmem := List.mem_iff_getElem?.mpr ⟨i, Option.join_eq_some_iff.mp hbuild⟩
  split
  · rename_i phase hphase
    refine h.same rfl rfl (fun hdirty => ⟨hdirty, rfl⟩) h.threads ?_
    intro other hother
    rcases List.mem_or_eq_of_mem_set hother with hold | hnew
    · exact (h.builds other hold).same rfl (fun hdirty => ⟨hdirty, rfl⟩)
        fun hquiet => ⟨((h.builds other hold).quiet hquiet).1, rfl⟩
    · cases hnew
      obtain ⟨hnonzero, ⟨k, hk, hbumps, hcurrent⟩, hquiet⟩ := h.builds b hmem
      rw [← (buildStep_completion _ _).1 phase hphase] at hcurrent hquiet
      exact ⟨hnonzero, ⟨k, by omega, hbumps, hcurrent⟩, hquiet⟩
  · rename_i seeds hseeds
    exact publish_invariant h hbuild hseeds

theorem step_invariant {a : Action} (h : Invariant (n + 1) s) (hok : AllAnnounced s a)
    (hstep : step s a = some t) : Invariant n t := by
  cases a with
  | addRoot className kobjectName vdevGlob instanceGlob =>
      cases hstep
      exact h.same rfl rfl (fun hdirty => ⟨hdirty, rfl⟩) h.threads
        fun b hmem => (h.builds b hmem).same rfl (fun hdirty => ⟨hdirty, rfl⟩)
          fun hquiet => ⟨((h.builds b hmem).quiet hquiet).1, rfl⟩
  | start call => exact start_invariant call h hstep
  | turn i ok =>
      obtain ⟨thread, hthread, rfl⟩ := Option.map_eq_some_iff.mp hstep
      split
      · exact notify_invariant h hthread
      · rename_i hnotify
        exact sectionTurn_invariant h hthread hnotify (hok thread hthread)
  | lookup => exact lookup_invariant h hstep
  | build i => exact build_invariant h hstep

theorem invariant_init (h : n < 2 ^ 64 - 1) : Invariant n init where
  bound := h
  generation := by decide
  threads := fun thread hmem => by cases hmem
  cache := fun cache hmem => by cases hmem
  builds := fun b hmem => by cases hmem

theorem cached_fresh {snapshot : Snapshot} (h : Invariant n s) (hdirty : ¬s.dirty)
    (hcached : s.cached = some snapshot) : snapshot = s.fresh := by
  obtain ⟨cache, hcache, hsome⟩ := Option.bind_eq_some_iff.mp hcached
  split at hsome
  · cases hsome
    exact (h.cache cache hcache).2 hdirty
  · cases hsome

theorem answer_fresh {a : Action} {snapshot : Snapshot} (h : Invariant n s)
    (hanswer : answer s a = some snapshot) : snapshot = s.fresh := by
  cases a with
  | lookup =>
      dsimp only [answer] at hanswer
      split at hanswer
      · rename_i hidle
        exact cached_fresh h (not_dirty_of_idle hidle) hanswer
      · cases hanswer
  | build i =>
      obtain ⟨b, hbuild, hanswer⟩ := Option.bind_eq_some_iff.mp hanswer
      have hmem := List.mem_iff_getElem?.mpr ⟨i, Option.join_eq_some_iff.mp hbuild⟩
      split at hanswer
      · cases hanswer
      · rename_i seeds hseeds
        split at hanswer
        · rename_i hquiet
          obtain ⟨hidle, hcurrent⟩ := (h.builds b hmem).quiet hquiet
          have hbuilt : buildSnapshot seeds = s.fresh := by
            rw [(buildStep_completion _ _).2 seeds hseeds, hcurrent]
            rfl
          cases hanswer
          unfold published
          split
          · exact hbuilt
          · cases hcached : s.cached with
            | none => exact hbuilt
            | some snapshot => exact cached_fresh h (not_dirty_of_idle hidle) hcached
        · cases hanswer
  | addRoot className kobjectName vdevGlob instanceGlob => cases hanswer
  | start call => cases hanswer
  | turn i ok => cases hanswer

theorem lookup_same (h : step s .lookup = some t) :
    t.registry = s.registry ∧ t.threads = s.threads := by
  dsimp only [step] at h
  split at h
  · cases h
    exact ⟨rfl, rfl⟩
  · cases h
    exact ⟨rfl, rfl⟩

theorem build_same (h : step s (.build i) = some t) :
    t.registry = s.registry ∧ t.threads = s.threads := by
  obtain ⟨b, _, rfl⟩ := Option.map_eq_some_iff.mp h
  split
  · exact ⟨rfl, rfl⟩
  · exact ⟨rfl, rfl⟩

/-- The sections a build has before its last one, if nothing changes any more. -/
def Phase.remaining (shape : Shape) : Phase → Nat
  | .vdevs => shape.vsysfsList.length + (shape.vmoduleList.length + 4)
  | .vsysfsList _ => shape.vsysfsList.length + (shape.vmoduleList.length + 3)
  | .vsysfs _ _ left => left.length + (shape.vmoduleList.length + 2)
  | .vmoduleList _ _ => shape.vmoduleList.length + 1
  | .vmodules _ _ _ left => left.length

theorem buildStep_remaining {shape : Shape} {phase next : Phase}
    (h : buildStep shape phase = .inl next) :
    next.remaining shape < phase.remaining shape := by
  cases phase with
  | vdevs =>
      cases h
      simp only [Phase.remaining]
      omega
  | vsysfsList devs =>
      cases h
      simp only [Phase.remaining]
      omega
  | vsysfs devs done left =>
      cases left with
      | nil =>
          cases h
          simp only [Phase.remaining, List.length_nil]
          omega
      | cons id left =>
          cases h
          simp only [Phase.remaining, List.length_cons]
          omega
  | vmoduleList devs nodes =>
      cases h
      simp only [Phase.remaining]
      omega
  | vmodules devs nodes done left =>
      cases left with
      | nil => cases h
      | cons id left =>
          cases h
          simp only [Phase.remaining, List.length_cons]
          omega

theorem build_answers (h : (s.builds[i]?).join = some b) (hquiet : b.quiet = true) :
    ∃ k t, run step s (List.replicate k (.build i)) = some t ∧
      (answer t (.build i)).isSome = true := by
  induction hm : b.phase.remaining s.registry.shape using Nat.strongRecOn
    generalizing s b with
  | _ m ih =>
      subst hm
      cases hstep : buildStep s.registry.shape b.phase with
      | inr seeds =>
          refine ⟨0, s, rfl, ?_⟩
          simp only [answer, h, Option.bind_some, hstep, hquiet, if_true, Option.isSome_some]
      | inl phase =>
          have hmoved : step s (.build i) =
              some { s with builds := s.builds.set i (some { b with phase }) } := by
            simp only [step, h, Option.map_some, hstep]
          have hget : ((s.builds.set i (some { b with phase }))[i]?).join =
              some { b with phase } :=
            Option.join_eq_some_iff.mpr
              (Threads.getElem?_set_moved (Option.join_eq_some_iff.mp h))
          obtain ⟨k, t, hrun, hanswer⟩ := ih _ (buildStep_remaining hstep)
            (s := { s with builds := s.builds.set i (some { b with phase }) })
            (b := { b with phase }) hget hquiet rfl
          refine ⟨k + 1, t, ?_, hanswer⟩
          rw [List.replicate_succ, run_cons, hmoved]
          exact hrun

theorem lookup_answers (h : s.idle = true) :
    (answer s .lookup).isSome = true ∨
      ∃ k t, run step s (.lookup :: List.replicate k (.build s.builds.length)) = some t ∧
        (answer t (.build s.builds.length)).isSome = true := by
  cases hcached : s.cached with
  | some snapshot =>
      left
      simp only [answer, h, if_true, hcached, Option.isSome_some]
  | none =>
      right
      have hstep : step s .lookup = some
          { s with builds := s.builds ++ [some ⟨s.generation, .vdevs, s.idle⟩] } := by
        simp only [step, hcached, Option.isSome_none, Bool.false_eq_true, if_false]
      obtain ⟨k, t, hrun, hanswer⟩ := build_answers
        (s := { s with builds := s.builds ++ [some ⟨s.generation, .vdevs, s.idle⟩] })
        (i := s.builds.length) (b := ⟨s.generation, .vdevs, s.idle⟩) (by simp) h
      refine ⟨k, t, ?_, hanswer⟩
      rw [run_cons, hstep]
      exact hrun

theorem run_answer_fresh {actions : List Action} {a : Action} {snapshot : Snapshot}
    (hlength : actions.length < 2 ^ 64 - 1) (hannounced : Meets step AllAnnounced init actions)
    (hrun : run step init actions = some s) (hanswer : answer s a = some snapshot) :
    snapshot = s.fresh := by
  have hinvariant : Invariant 0 s :=
    run_countdown Invariant (fun _ _ _ _ h hok hstep => step_invariant h hok hstep)
      (invariant_init hlength) hannounced hrun
  exact answer_fresh hinvariant hanswer

/-- In every run in which all changes are notified, a lookup that no mutator overlaps gets what
a snapshot built afresh gives, whatever it looks up; and if it takes its turns it does get an
answer. -/
theorem lookups_fresh {actions : List Action} (hlength : actions.length < 2 ^ 64 - 1)
    (hannounced : Meets step AllAnnounced init actions) (hrun : run step init actions = some s) :
    (∀ a snapshot, answer s a = some snapshot → ∀ path,
      resolve snapshot s.registry.live path = resolve s.fresh s.registry.live path ∧
        collectDirents snapshot path = collectDirents s.fresh path) ∧
      (s.idle = true → (answer s .lookup).isSome = true ∨
        ∃ k t, run step s (.lookup :: List.replicate k (.build s.builds.length)) = some t ∧
          (answer t (.build s.builds.length)).isSome = true) := by
  constructor
  · intro a snapshot hanswer path
    rw [run_answer_fresh hlength hannounced hrun hanswer]
    exact ⟨rfl, rfl⟩
  · exact lookup_answers

instance (r : Registry) (ok : Bool) : DecidablePred (Announced r ok)
  | .begin (.writeAttr owner name _ .valueOnly) =>
      inferInstanceAs (Decidable ((r.live owner name).isSome = true))
  | .linkVdev _ | .linkVsysfs _ _ | .attachDevice _ => inferInstanceAs (Decidable (ok = true))
  | .dropVdev _ | .dropVsysfs _ | .rollback _ _ => .isFalse id
  | .apply w done (state :: left) => inferInstanceAs (Decidable (ok = true ∧
      ((r.live (.vsysfs state.1) w.name).isSome = true ∨
        (done ++ state :: left).any (fun state => state.2.isNone) = true)))
  | .begin (.writeAttr _ _ _ .stored) | .begin (.writeAttr _ _ _ .undone)
  | .begin (.vdevCreate _ _ _) | .begin (.vdevDestroy _) | .begin (.vsysfsCreate _ _ _)
  | .begin (.vsysfsDestroy _) | .begin (.removeAttr _ _) | .begin (.rootWriteDefaultAttr _ _ _)
  | .begin (.rootRemoveDefaultAttr _ _) | .begin (.vmoduleCreate _) | .begin (.vmoduleDestroy _)
  | .begin (.registerDriver _ _ _) | .notify | .eraseVdev _ | .ensureParent _
  | .upsertParent _ _ | .eraseVsysfs _ | .capture _ _ _ | .setRoot _ _ | .apply _ _ []
  | .removeFrom _ _ _ => .isTrue trivial

instance (s : State) : DecidablePred (AllAnnounced s)
  | .turn i ok => inferInstanceAs
      (Decidable (∀ thread ∈ (s.threads[i]?).join, Announced s.registry ok thread.pc))
  | .addRoot _ _ _ _ | .start _ | .lookup | .build _ => .isTrue trivial

/-- Device 0 with an instance of root 0, each call on its own, and thread 2 about to write the
default of `mode`. -/
def oneInstance : List Action :=
  [.addRoot "rank" "pci" "rank*" "pci*", .start (.vdevCreate "rank0" 240 0), .turn 0 true,
    .turn 0 true, .turn 0 true, .start (.vsysfsCreate 0 0 "rank0"), .turn 1 true, .turn 1 true,
    .turn 1 true, .turn 1 true, .start (.rootWriteDefaultAttr 0 "mode" ⟨[49], .rw⟩)]

/-- The default is new to the instance, a build overlaps the write, and both end. -/
def defaultWritten : List Action :=
  oneInstance ++ [.turn 2 true, .lookup, .build 0, .turn 2 true, .turn 2 true, .build 0,
    .turn 2 true, .turn 2 true, .build 0, .build 0, .build 0, .build 0, .lookup, .build 1,
    .build 1, .build 1, .build 1, .build 1]

theorem lookups_fresh_default_written : ∃ s snapshot,
    run step init defaultWritten = some s ∧ answer s (.build 1) = some snapshot ∧ ∀ path,
      resolve snapshot s.registry.live path = resolve s.fresh s.registry.live path ∧
        collectDirents snapshot path = collectDirents s.fresh path := by
  have hends : ∃ s, run step init defaultWritten = some s ∧
      (answer s (.build 1)).isSome = true := exists_run (by decide +kernel)
  obtain ⟨s, hrun, hsome⟩ := hends
  obtain ⟨snapshot, hanswer⟩ := Option.isSome_iff_exists.mp hsome
  exact ⟨s, snapshot, hrun, hanswer,
    (lookups_fresh (by decide) (by decide +kernel) hrun).1 _ _ hanswer⟩

/-- The instance has `mode` when thread 3 captures it; it is removed, the change notified and
a build published; then thread 3 adds it again and notifies nobody. -/
def defaultRewritten : List Action :=
  oneInstance ++ [.turn 2 true, .turn 2 true, .turn 2 true, .turn 2 true, .turn 2 true,
    .start (.rootWriteDefaultAttr 0 "mode" ⟨[50], .rw⟩), .turn 3 true, .turn 3 true,
    .start (.removeAttr (.vsysfs 0) "mode"), .turn 4 true, .turn 4 true, .lookup, .build 0,
    .build 0, .build 0, .build 0, .build 0, .build 0, .turn 3 true, .turn 3 true]

theorem default_write_not_notified : ¬∀ actions s a snapshot path,
    run step init actions = some s → answer s a = some snapshot →
      resolve snapshot s.registry.live path = resolve s.fresh s.registry.live path ∧
        collectDirents snapshot path = collectDirents s.fresh path := by
  intro h
  have hends : ∃ s, run step init defaultRewritten = some s ∧ ∃ snapshot ∈ answer s .lookup,
      resolve snapshot s.registry.live ["sys", "class", "rank", "rank0", "mode"] ≠
        resolve s.fresh s.registry.live ["sys", "class", "rank", "rank0", "mode"] :=
    exists_run (by decide +kernel)
  obtain ⟨s, hrun, snapshot, hanswer, hne⟩ := hends
  exact hne (h _ s .lookup snapshot _ hrun hanswer).1

end HostPimSim.Vfile.Namespace
