import HostPimSim.Vfile.Freshness
import HostPimSim.Vfile.Listing

/-! The paths of registered objects over whole runs of calls whose names are segments: each
has one of a few forms, so that few of them can meet. -/
namespace HostPimSim.Vfile.Namespace
open Attribute Transition

/-- All names in a call that are put into a path are segments. -/
def Call.WellNamed : Call → Prop
  | .vdevCreate name _ _ | .vsysfsCreate _ _ name | .writeAttr _ name _ _
  | .rootWriteDefaultAttr _ name _ | .vmoduleCreate name => Segment name
  | .registerDriver _ bus driver => Segment bus ∧ Segment driver
  | .vdevDestroy _ | .vsysfsDestroy _ | .removeAttr _ _ | .rootRemoveDefaultAttr _ _
  | .vmoduleDestroy _ => True

def Action.WellNamed : Action → Prop
  | .addRoot className kobjectName _ _ => Segment className ∧ Segment kobjectName
  | .start call => call.WellNamed
  | .turn _ _ | .lookup | .build _ => True

def AttrNames (attrs : List (String × Attr)) : Prop := ∀ key ∈ Table.keys attrs, Segment key

def Pc.WellNamed : Pc → Prop
  | .begin call => call.WellNamed
  | .upsertParent _ attrs => AttrNames attrs
  | .capture w _ _ | .setRoot w _ | .apply w _ _ | .rollback w _ => Segment w.name
  | .notify | .linkVdev _ | .dropVdev _ | .eraseVdev _ | .linkVsysfs _ _ | .dropVsysfs _
  | .attachDevice _ | .ensureParent _ | .eraseVsysfs _ | .removeFrom _ _ _ => True

/-- The class directory of an instance, or the bus directory of a parent node. -/
def ClassDir (dir : Path) : Prop :=
  (∃ x y, Segment x ∧ Segment y ∧ dir = ["sys", "class", x, y]) ∨
    ∃ x y, Segment x ∧ Segment y ∧ dir = ["sys", "bus", x, "devices", y]

/-- The directory of a device that is a parent or stands alone, or of a child. -/
def DevicesDir (dir : Path) : Prop :=
  (∃ x y, Segment x ∧ Segment y ∧ dir = ["sys", "devices", x, y]) ∨
    ∃ x y z, Segment x ∧ Segment y ∧ Segment z ∧ dir = ["sys", "devices", x, y, z]

structure Vsysfs.WellNamed (v : Vsysfs) : Prop where
  classDir : ClassDir v.classDir
  devicesDir : DevicesDir v.devicesDir
  attrs : AttrNames v.attrs

structure Vmodule.WellNamed (m : Vmodule) : Prop where
  dir : ∃ x, Segment x ∧ m.dir = ["sys", "module", x]
  attrs : AttrNames m.attrs
  drivers : ∀ driver ∈ m.registeredDrivers, Segment driver.1 ∧ Segment driver.2

structure Root.WellNamed (root : Root) : Prop where
  className : Segment root.className
  kobjectName : Segment root.kobjectName
  defaults : AttrNames root.defaultAttrs

structure Registry.WellNamed (r : Registry) : Prop where
  vdevs : ∀ v ∈ r.vdevs, Segment v.name
  vsysfs : ∀ v ∈ r.vsysfs, v.WellNamed
  vmodules : ∀ m ∈ r.vmodules, m.WellNamed
  roots : ∀ root ∈ r.roots, root.WellNamed

variable {r : Registry} {owner : Owner} {name : String} {attr : Attr}
  {attrs rows : List (String × Attr)} {root id : Nat}

theorem attrNames_ensured (h : AttrNames rows) (hattrs : AttrNames attrs) :
    AttrNames (attrs.foldl ensureAttr rows) := by
  induction attrs generalizing rows with
  | nil => exact h
  | cons row attrs ih =>
      refine ih ?_ fun key hkey => hattrs key (List.mem_cons_of_mem _ hkey)
      unfold ensureAttr
      split
      · exact h
      · exact Table.forall_keys_put h (hattrs row.1 List.mem_cons_self)

theorem attrNames_derived (object : Root) (vdev : Vdev) (dir : Path) :
    AttrNames (derivedAttrs object vdev dir) := by
  change ∀ key ∈ ["dev", "subsystem", "uevent"], Segment key
  decide

theorem attrNames_parent (object : Root) (dir : Path) (instanceName : String) :
    AttrNames (parentAttrs object dir instanceName) := by
  change ∀ key ∈ ["subsystem", "device", "uevent"], Segment key
  decide

theorem Registry.WellNamed.setAttrs (h : r.WellNamed) (hattrs : AttrNames attrs) :
    (r.setAttrs owner attrs).WellNamed := by
  cases owner with
  | vsysfs id =>
      refine ⟨h.vdevs, Threads.forall_mem_modify h.vsysfs fun v hv => ?_, h.vmodules, h.roots⟩
      exact ⟨(h.vsysfs v hv).classDir, (h.vsysfs v hv).devicesDir, hattrs⟩
  | vmodule id =>
      refine ⟨h.vdevs, h.vsysfs, Threads.forall_mem_modify h.vmodules fun m hm => ?_, h.roots⟩
      exact ⟨(h.vmodules m hm).dir, hattrs, (h.vmodules m hm).drivers⟩

theorem Registry.WellNamed.attrs_names (h : r.WellNamed) (hrows : r.attrs owner = some rows) :
    AttrNames rows := by
  cases owner with
  | vsysfs id =>
      obtain ⟨v, hv, rfl⟩ := Option.map_eq_some_iff.mp hrows
      exact (h.vsysfs v (List.mem_of_getElem? hv)).attrs
  | vmodule id =>
      obtain ⟨m, hm, rfl⟩ := Option.map_eq_some_iff.mp hrows
      exact (h.vmodules m (List.mem_of_getElem? hm)).attrs

theorem Registry.WellNamed.putAttr (h : r.WellNamed) (hname : Segment name) :
    (putAttr r owner name attr).WellNamed := by
  unfold Namespace.putAttr
  split
  · exact h
  · rename_i rows hrows
    exact h.setAttrs (Table.forall_keys_put (h.attrs_names hrows) hname)

theorem Registry.WellNamed.dropAttr (h : r.WellNamed) :
    (dropAttr r owner name).WellNamed := by
  unfold Namespace.dropAttr
  split
  · exact h
  · rename_i rows hrows
    exact h.setAttrs (Table.forall_keys_remove (h.attrs_names hrows))

theorem Registry.WellNamed.modifyRoot {f : Root → Root} (h : r.WellNamed)
    (hf : ∀ object, object.WellNamed → (f object).WellNamed) :
    (r.modifyRoot root f).WellNamed :=
  ⟨h.vdevs, h.vsysfs, h.vmodules,
    Threads.forall_mem_modify h.roots fun object hobject => hf object (h.roots object hobject)⟩

theorem Registry.WellNamed.pushVsysfs (h : r.WellNamed) {v : Vsysfs} (hv : v.WellNamed)
    (list : List Nat) :
    Registry.WellNamed { r with vsysfs := r.vsysfs ++ [v], vsysfsList := list } :=
  ⟨h.vdevs, Threads.forall_mem_push h.vsysfs hv, h.vmodules, h.roots⟩

structure SectionNamed (after : Registry × Option Pc) : Prop where
  registry : after.1.WellNamed
  next : ∀ pc, after.2 = some pc → pc.WellNamed

theorem SectionNamed.ends (h : r.WellNamed) : SectionNamed (r, none) :=
  ⟨h, fun _ hnext => by cases hnext⟩

theorem SectionNamed.goesOn {pc : Pc} (h : r.WellNamed) (hpc : pc.WellNamed) :
    SectionNamed (r, some pc) := by
  refine ⟨h, fun next hnext => ?_⟩
  cases hnext
  exact hpc

theorem registerVsysfs_named {vdev : Nat} {instanceName : String} (h : r.WellNamed)
    (hname : Segment instanceName) : SectionNamed (registerVsysfs r root vdev instanceName) := by
  unfold registerVsysfs
  split
  · rename_i object vdevObject hobject hvdev
    have hroot := h.roots object (List.mem_of_getElem? hobject)
    have hvdevName := h.vdevs vdevObject (List.mem_of_getElem? hvdev)
    dsimp only
    split
    · exact .ends h
    · refine .goesOn (h.pushVsysfs ⟨?_, ?_, ?_⟩ _) trivial
      · exact .inl ⟨_, _, hroot.className, hvdevName, rfl⟩
      · unfold devicesDirOf
        split
        · exact .inl ⟨_, _, hroot.kobjectName, hname, rfl⟩
        · exact .inr ⟨_, _, _, hroot.kobjectName, hname, hvdevName, rfl⟩
      · intro key hkey
        cases hkey
  · exact .ends h

theorem storeAttr_named {outcome : StoreOutcome} (h : r.WellNamed) (hname : Segment name) :
    SectionNamed (storeAttr r owner name attr outcome) := by
  cases outcome with
  | stored =>
      dsimp only [storeAttr]
      split
      · exact .ends (h.putAttr hname)
      · exact .goesOn (h.putAttr hname) trivial
  | undone => exact .ends h
  | valueOnly => exact .ends (h.putAttr hname)

theorem captureNext_named {w : DefaultWrite} {prev : List (Nat × Option Attr)} {left : List Nat}
    (h : Segment w.name) : (captureNext w prev left).WellNamed := by
  cases left <;> exact h

theorem applyNext_named {w : DefaultWrite} (h : Segment w.name)
    (done left : List (Nat × Option Attr)) :
    ∀ pc, applyNext w done left = some pc → pc.WellNamed := by
  intro pc hpc
  cases left with
  | nil =>
      dsimp only [applyNext] at hpc
      split at hpc
      · cases hpc
        trivial
      · cases hpc
  | cons state left =>
      cases hpc
      exact h

theorem removeNext_named (name : String) (anyRemoved : Bool) (left : List Nat) :
    ∀ pc, removeNext name anyRemoved left = some pc → pc.WellNamed := by
  intro pc hpc
  cases left with
  | nil =>
      dsimp only [removeNext] at hpc
      split at hpc
      · cases hpc
        trivial
      · cases hpc
  | cons id left =>
      cases hpc
      trivial

theorem Root.WellNamed.putDefault {object : Root} (h : object.WellNamed) (hname : Segment name) :
    Root.WellNamed { object with defaultAttrs := Table.put object.defaultAttrs name attr } :=
  ⟨h.className, h.kobjectName, Table.forall_keys_put h.defaults hname⟩

theorem Root.WellNamed.removeDefault {object : Root} (h : object.WellNamed) :
    Root.WellNamed { object with defaultAttrs := Table.remove object.defaultAttrs name } :=
  ⟨h.className, h.kobjectName, Table.forall_keys_remove h.defaults⟩

theorem beginCall_named {call : Call} (ok : Bool) (h : r.WellNamed) (hcall : call.WellNamed) :
    SectionNamed (beginCall r ok call) := by
  cases call with
  | vdevCreate name major minor =>
      dsimp only [beginCall]
      split
      · exact .ends h
      · exact .goesOn ⟨Threads.forall_mem_push h.vdevs hcall, h.vsysfs, h.vmodules, h.roots⟩
          trivial
  | vdevDestroy id =>
      exact .goesOn h trivial
  | vsysfsCreate root vdev instanceName => exact registerVsysfs_named h hcall
  | vsysfsDestroy id =>
      dsimp only [beginCall]
      split
      · exact .ends h
      · refine .goesOn (h.modifyRoot fun object hobject => ?_) trivial
        exact ⟨hobject.className, hobject.kobjectName, hobject.defaults⟩
  | writeAttr owner name attr outcome => exact storeAttr_named h hcall
  | removeAttr owner name =>
      dsimp only [beginCall]
      split
      · exact .goesOn h.dropAttr trivial
      · exact .ends h
  | rootWriteDefaultAttr root name attr =>
      dsimp only [beginCall]
      split
      · exact .ends h
      · split
        · exact .goesOn h (captureNext_named hcall)
        · exact .ends h
  | rootRemoveDefaultAttr root name =>
      dsimp only [beginCall]
      split
      · exact .ends h
      · split
        · exact ⟨h.modifyRoot fun object hobject => hobject.removeDefault,
            removeNext_named name false _⟩
        · exact .ends h
  | vmoduleCreate name =>
      dsimp only [beginCall]
      split
      · exact .ends h
      · refine .goesOn ⟨h.vdevs, h.vsysfs, Threads.forall_mem_push h.vmodules ⟨?_, ?_, ?_⟩,
          h.roots⟩ trivial
        · exact ⟨name, hcall, rfl⟩
        · intro key hkey
          cases hkey
        · intro driver hdriver
          cases hdriver
  | vmoduleDestroy id =>
      exact .goesOn ⟨h.vdevs, h.vsysfs, h.vmodules, h.roots⟩ trivial
  | registerDriver id bus driver =>
      dsimp only [beginCall]
      split
      · exact .ends h
      · split
        · exact .ends h
        · refine .goesOn ⟨h.vdevs, h.vsysfs, Threads.forall_mem_modify h.vmodules fun m hm => ?_,
            h.roots⟩ trivial
          exact ⟨(h.vmodules m hm).dir, (h.vmodules m hm).attrs,
            Threads.forall_mem_push (h.vmodules m hm).drivers hcall⟩

theorem devicesDir_take {dir : Path} (h : DevicesDir dir) :
    ∃ x y, Segment x ∧ Segment y ∧ dir.take 4 = ["sys", "devices", x, y] := by
  rcases h with ⟨x, y, hx, hy, rfl⟩ | ⟨x, y, z, hx, hy, _, rfl⟩
  · exact ⟨x, y, hx, hy, rfl⟩
  · exact ⟨x, y, hx, hy, rfl⟩

theorem ensureParent_named (id : Nat) (h : r.WellNamed) : SectionNamed (ensureParent r id) := by
  unfold ensureParent
  split
  · exact .goesOn h trivial
  · rename_i v hv
    obtain ⟨x, y, hx, hy, hparent⟩ :=
      devicesDir_take (h.vsysfs v (List.mem_of_getElem? hv)).devicesDir
    split
    · exact .goesOn h trivial
    · rename_i object hobject
      have hroot := h.roots object (List.mem_of_getElem? hobject)
      dsimp only
      split
      · exact .goesOn h (attrNames_parent object _ _)
      · refine .goesOn (h.pushVsysfs ⟨?_, ?_, attrNames_parent object _ _⟩ _) trivial
        · exact .inr ⟨_, y, hroot.kobjectName, hy, by rw [hparent]; rfl⟩
        · exact .inl ⟨x, y, hx, hy, hparent⟩

theorem linkVsysfs_named (id vdev : Nat) (h : r.WellNamed) :
    (linkVsysfs r id vdev).WellNamed := by
  unfold linkVsysfs
  split
  · split
    · rename_i object hobject
      have hroot := h.roots object (List.mem_of_getElem? hobject)
      refine (h.setAttrs (attrNames_ensured hroot.defaults
        (attrNames_derived object _ _))).modifyRoot fun object hobject => ?_
      exact ⟨hobject.className, hobject.kobjectName, hobject.defaults⟩
    · exact h
  · exact h

theorem restore_named {state : Nat × Option Attr} (h : r.WellNamed) (hname : Segment name) :
    (restore r name state).WellNamed := by
  unfold restore
  split
  · exact h.putAttr hname
  · exact h.dropAttr

theorem restoreRoot_named {w : DefaultWrite} (h : r.WellNamed) (hname : Segment w.name) :
    (restoreRoot r w).WellNamed := by
  refine h.modifyRoot fun object hobject => ?_
  split
  · exact hobject.putDefault hname
  · exact hobject.removeDefault

theorem runSection_named {pc : Pc} (ok : Bool) (h : r.WellNamed) (hpc : pc.WellNamed) :
    SectionNamed (runSection r ok pc) := by
  cases pc with
  | begin call => exact beginCall_named ok h hpc
  | notify => exact .ends h
  | linkVdev id =>
      dsimp only [runSection]
      split <;> exact .goesOn h trivial
  | dropVdev id => exact .ends ⟨h.vdevs, h.vsysfs, h.vmodules, h.roots⟩
  | eraseVdev id => exact .goesOn ⟨h.vdevs, h.vsysfs, h.vmodules, h.roots⟩ trivial
  | linkVsysfs id vdev =>
      dsimp only [runSection]
      split
      · exact .goesOn (linkVsysfs_named id vdev h) trivial
      · exact .goesOn h trivial
  | dropVsysfs id => exact .ends ⟨h.vdevs, h.vsysfs, h.vmodules, h.roots⟩
  | attachDevice id =>
      dsimp only [runSection]
      split
      · refine .goesOn h ?_
        split <;> trivial
      · exact .ends h
  | ensureParent id =>
      dsimp only [runSection]
      split
      · exact ensureParent_named id h
      · exact .goesOn h trivial
  | upsertParent parent attrs =>
      dsimp only [runSection]
      split
      · exact .goesOn h trivial
      · rename_i old hold
        exact .goesOn (h.setAttrs (attrNames_ensured (h.attrs_names hold) hpc)) trivial
  | eraseVsysfs id => exact .goesOn ⟨h.vdevs, h.vsysfs, h.vmodules, h.roots⟩ trivial
  | capture w prev left =>
      dsimp only [runSection]
      split
      · exact .goesOn h hpc
      · split
        · exact .goesOn h (captureNext_named hpc)
        · exact .ends h
  | setRoot w prev =>
      dsimp only [runSection]
      split
      · exact ⟨h.modifyRoot fun object hobject => hobject.putDefault hpc,
          applyNext_named hpc [] prev⟩
      · exact .ends (restoreRoot_named h hpc)
  | apply w done left =>
      cases left with
      | nil => exact ⟨h, applyNext_named hpc done []⟩
      | cons state left =>
          dsimp only [runSection]
          split
          · exact ⟨h.putAttr hpc, applyNext_named hpc _ left⟩
          · exact .goesOn h hpc
  | rollback w left =>
      dsimp only [runSection]
      split
      · exact .goesOn (restore_named h hpc) hpc
      · exact .goesOn h hpc
  | removeFrom name left anyRemoved =>
      cases left with
      | nil => exact ⟨h, removeNext_named name anyRemoved []⟩
      | cons id left =>
          dsimp only [runSection]
          split
          · exact ⟨h.dropAttr, removeNext_named name true left⟩
          · exact ⟨h, removeNext_named name anyRemoved left⟩

structure State.WellNamed (s : State) : Prop where
  registry : s.registry.WellNamed
  threads : ∀ thread, some thread ∈ s.threads → thread.pc.WellNamed

theorem step_named {s t : State} {a : Action} (h : s.WellNamed) (ha : a.WellNamed)
    (hstep : step s a = some t) : t.WellNamed := by
  cases a with
  | addRoot className kobjectName vdevGlob instanceGlob =>
      cases hstep
      refine ⟨⟨h.registry.vdevs, h.registry.vsysfs, h.registry.vmodules,
        Threads.forall_mem_push h.registry.roots ⟨ha.1, ha.2, ?_⟩⟩, h.threads⟩
      intro key hkey
      cases hkey
  | start call =>
      cases hstep
      refine ⟨h.registry, fun thread hmem => ?_⟩
      rcases List.mem_append.mp hmem with hold | hnew
      · exact h.threads thread hold
      · cases List.mem_singleton.mp hnew
        exact ha
  | turn i ok =>
      obtain ⟨thread, hthread, rfl⟩ := Option.map_eq_some_iff.mp hstep
      have hpc := h.threads thread
        (List.mem_iff_getElem?.mpr ⟨i, Option.join_eq_some_iff.mp hthread⟩)
      split
      · refine ⟨h.registry, fun other hmem => ?_⟩
        rcases List.mem_or_eq_of_mem_set hmem with hold | hnew
        · exact h.threads other hold
        · cases hnew
      · obtain ⟨hregistry, hnext⟩ := runSection_named ok h.registry hpc
        refine ⟨hregistry, fun other hmem => ?_⟩
        rcases List.mem_or_eq_of_mem_set hmem with hold | hnew
        · exact h.threads other hold
        · obtain ⟨next, hpc, rfl⟩ := Option.map_eq_some_iff.mp hnew.symm
          exact hnext next hpc
  | lookup =>
      obtain ⟨hregistry, hthreads⟩ := lookup_same hstep
      exact ⟨hregistry ▸ h.registry, hthreads ▸ h.threads⟩
  | build i =>
      obtain ⟨hregistry, hthreads⟩ := build_same hstep
      exact ⟨hregistry ▸ h.registry, hthreads ▸ h.threads⟩

theorem run_named {actions : List Action} {s : State} (hnames : ∀ a ∈ actions, a.WellNamed)
    (hrun : run step init actions = some s) : s.registry.WellNamed := by
  have hinit : init.WellNamed := by
    refine ⟨⟨?_, ?_, ?_, ?_⟩, ?_⟩
    all_goals
      intro x hx
      cases hx
  have hs := run_invariant_of_meets (fun s a t h ha hstep => step_named h ha hstep) hinit
    (meets_of_forall hnames init) hrun
  exact hs.registry

end HostPimSim.Vfile.Namespace
