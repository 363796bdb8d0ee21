import HostPimSim.Vfile.ReachableRuns

/-! What is left of instances that have been destroyed.  `pim_vsysfs_create` may also register a
parent device, or give one attributes; `pim_vsysfs_destroy` takes back the instance alone. -/
namespace HostPimSim.Vfile.Namespace
open Attribute Transition

def newVsysfs (root : Nat) (rootObject : VsysfsRootObject) (v : VdevObject) (inst : String)
    (defaults : List (String × Attr)) : VsysfsObject :=
  ⟨root, classDirText rootObject v, devicesDirText rootObject v inst,
    (derivedAttrsText rootObject v inst).foldl ensureAttr defaults⟩

/-- `pim_vsysfs_create` for such a root. -/
def ObjectState.createVsysfsFrom (s : ObjectState) (defaults : List (String × Attr))
    (root vdev : Nat) (instanceName : String) : ObjectState × Option Nat :=
  match s.linked root vdev with
  | none => (s, none)
  | some (rootObject, v) =>
      let inst := normalizeComponent instanceName
      if vsysfsValidInstanceName v.name = false ∨ vsysfsValidInstanceName inst = false then
        (s, none)
      else if s.hasDir (classDirText rootObject v) (devicesDirText rootObject v inst) then
        (s, none)
      else
        let made := s.pushVsysfs (newVsysfs root rootObject v inst defaults)
        (if inst = v.name then made else made.ensureParent root rootObject inst, some s.fresh)

theorem createVsysfs_eq (s : ObjectState) (root vdev : Nat) (instanceName : String) :
    s.createVsysfs root vdev instanceName = s.createVsysfsFrom [] root vdev instanceName := rfl

/-- The objects, the default attributes of the roots, and the pointers that `pim_vsysfs_create`
has returned and that have not been destroyed. -/
structure Instances where
  objects : ObjectState
  defaultAttrs : List (Nat × List (String × Attr))
  handles : List Nat

def Instances.start : Instances := ⟨.start, [], []⟩

def ObjectState.setAttrs (s : ObjectState) (id : Nat) (attrs : List (String × Attr)) :
    ObjectState :=
  { s with vsysfsList := s.vsysfsList.map fun entry =>
      if entry.1 = id then (entry.1, { entry.2 with attrs }) else entry }

def Instances.create (s : Instances) (root vdev : Nat) (instanceName : String) : Instances :=
  let made := s.objects.createVsysfsFrom ((Table.find s.defaultAttrs root).getD []) root vdev
    instanceName
  { s with objects := made.1, handles := s.handles ++ made.2.toList }

def Instances.destroy (s : Instances) (id : Nat) : Instances :=
  { s with
    objects := s.objects.destroyVsysfs id
    handles := s.handles.filter fun handle => handle ≠ id }

/-- Creating and destroying instances, and the calls that set the stage for it.  An instance is
destroyed by a pointer that was returned for it. -/
inductive InstanceCall where
  | object (call : ObjectCall)
  | setDefaultAttrs (root : Nat) (attrs : List (String × Attr))
  | setAttrs (id : Nat) (attrs : List (String × Attr))
  | create (root vdev : Nat) (instanceName : String)
  | destroy (id : Nat)

def ObjectCall.OnVsysfs : ObjectCall → Bool
  | .vsysfsCreate .. => true
  | .vsysfsDestroy _ => true
  | _ => false

def instanceStep (s : Instances) : InstanceCall → Option Instances
  | .object call =>
      if call.OnVsysfs = true then none
      else (objectStep s.objects call).map fun objects => { s with objects }
  | .setDefaultAttrs root attrs =>
      some { s with defaultAttrs := Table.put s.defaultAttrs root attrs }
  | .setAttrs id attrs => some { s with objects := s.objects.setAttrs id attrs }
  | .create root vdev instanceName => some (s.create root vdev instanceName)
  | .destroy id => if id ∈ s.handles then some (s.destroy id) else none

def InstanceCall.CreatesOrDestroys : InstanceCall → Prop
  | .create .. => True
  | .destroy _ => True
  | _ => False

/-- An object is registered at the directory of the parent, and either it has all attributes of a
parent or it was made at `since` or later. -/
def ObjectState.HasParent (s : ObjectState) (since : Nat) (parentDir : String) : Prop :=
  ∃ entry, (s.vsysfsList.find? fun entry => entry.2.devicesDir = parentDir) = some entry ∧
    (since ≤ entry.1 ∨ ∀ name ∈ parentNames, name ∈ Table.keys entry.2.attrs)

/-- A call that is not refused names the instance after its device or finds its parent there. -/
def InstanceCall.NeedsNoParent (since : Nat) (s : Instances) : InstanceCall → Prop
  | .create root vdev instanceName =>
      ∀ rootObject v, s.objects.linked root vdev = some (rootObject, v) →
        vsysfsValidInstanceName v.name = true →
        vsysfsValidInstanceName (normalizeComponent instanceName) = true →
        s.objects.hasDir (classDirText rootObject v)
          (devicesDirText rootObject v (normalizeComponent instanceName)) = false →
        normalizeComponent instanceName = v.name ∨
          s.objects.HasParent since (parentDirText rootObject (normalizeComponent instanceName))
  | _ => True

variable {s t p : Instances}

theorem createVsysfsFrom_cases (s : ObjectState) (defaults : List (String × Attr))
    (root vdev : Nat) (instanceName : String) :
    s.createVsysfsFrom defaults root vdev instanceName = (s, none) ∨
    ∃ rootObject v, s.linked root vdev = some (rootObject, v) ∧
      vsysfsValidInstanceName v.name = true ∧
      vsysfsValidInstanceName (normalizeComponent instanceName) = true ∧
      s.hasDir (classDirText rootObject v)
        (devicesDirText rootObject v (normalizeComponent instanceName)) = false ∧
      s.createVsysfsFrom defaults root vdev instanceName =
        (let made := s.pushVsysfs
          (newVsysfs root rootObject v (normalizeComponent instanceName) defaults)
        (if normalizeComponent instanceName = v.name then made
          else made.ensureParent root rootObject (normalizeComponent instanceName),
          some s.fresh)) := by
  unfold ObjectState.createVsysfsFrom
  cases hlinked : s.linked root vdev with
  | none => exact .inl rfl
  | some pair =>
      obtain ⟨rootObject, v⟩ := pair
      dsimp only
      split
      · exact .inl rfl
      · rename_i hvalid
        rw [not_or, Bool.not_eq_false, Bool.not_eq_false] at hvalid
        split
        · exact .inl rfl
        · rename_i hdir
          exact .inr ⟨rootObject, v, rfl, hvalid.1, hvalid.2, Bool.eq_false_iff.mpr hdir, rfl⟩

theorem ensureAttrs_of_keys {rows attrs : List (String × Attr)}
    (h : ∀ name ∈ Table.keys attrs, name ∈ Table.keys rows) : attrs.foldl ensureAttr rows = rows := by
  induction attrs with
  | nil => rfl
  | cons attr rest ih =>
      have hsome : (Table.find rows attr.1).isSome = true :=
        Table.find_isSome_iff_mem_keys.mpr (h attr.1 List.mem_cons_self)
      rw [List.foldl_cons, ensureAttr, if_pos hsome]
      exact ih fun name hname => h name (List.mem_cons_of_mem attr.1 hname)

theorem upsertParent_of_keys {v : VsysfsObject} {root : VsysfsRootObject} {inst : String}
    (hclass : v.classDir ≠ "") (hdir : v.devicesDir = parentDirText root inst)
    (hkeys : ∀ name ∈ parentNames, name ∈ Table.keys v.attrs) :
    v.upsertParent (parentClassDirText root inst) (parentDirText root inst)
      (parentAttrsText root inst) = v := by
  have hattrs : (parentAttrsText root inst).foldl ensureAttr v.attrs = v.attrs :=
    ensureAttrs_of_keys hkeys
  unfold VsysfsObject.upsertParent
  rw [hattrs, if_neg hclass, ← hdir, ite_self]

structure ObjectState.Placed (s : ObjectState) : Prop where
  older : ∀ entry ∈ s.vsysfsList, entry.1 < s.fresh
  ids : (s.vsysfsList.map Prod.fst).Nodup
  classDirs : ∀ entry ∈ s.vsysfsList, entry.2.classDir ≠ ""

theorem ObjectState.Placed.push {s : ObjectState} (h : s.Placed) {v : VsysfsObject}
    (hclass : v.classDir ≠ "") : (s.pushVsysfs v).Placed where
  older := by
    intro entry hentry
    rcases List.mem_append.mp hentry with hold | hnew
    · exact Nat.lt_succ_of_lt (h.older entry hold)
    · rw [List.mem_singleton.mp hnew]
      exact Nat.lt_succ_self _
  ids := by
    unfold ObjectState.pushVsysfs
    rw [List.map_append, List.nodup_append']
    refine ⟨h.ids, List.nodup_singleton _, ?_⟩
    intro id hold hnew
    obtain ⟨entry, hentry, rfl⟩ := List.mem_map.mp hold
    have hless := h.older entry hentry
    rw [List.mem_singleton.mp hnew] at hless
    exact Nat.lt_irrefl _ hless
  classDirs := by
    intro entry hentry
    rcases List.mem_append.mp hentry with hold | hnew
    · exact h.classDirs entry hold
    · rw [List.mem_singleton.mp hnew]
      exact hclass

theorem ObjectState.Placed.map {s : ObjectState} (h : s.Placed)
    {f : Nat × VsysfsObject → Nat × VsysfsObject}
    (hid : ∀ entry, (f entry).1 = entry.1)
    (hclass : ∀ entry, entry.2.classDir ≠ "" → (f entry).2.classDir ≠ "") :
    ObjectState.Placed { s with vsysfsList := s.vsysfsList.map f } where
  older := by
    intro entry hentry
    obtain ⟨old, hold, rfl⟩ := List.mem_map.mp hentry
    rw [hid]
    exact h.older old hold
  ids := by
    rw [List.map_map, show Prod.fst ∘ f = Prod.fst from funext hid]
    exact h.ids
  classDirs := by
    intro entry hentry
    obtain ⟨old, hold, rfl⟩ := List.mem_map.mp hentry
    exact hclass old (h.classDirs old hold)

theorem ObjectState.Placed.setAttrs {s : ObjectState} (h : s.Placed) (id : Nat)
    (attrs : List (String × Attr)) : (s.setAttrs id attrs).Placed := by
  refine h.map (fun entry => ?_) fun entry hclass => ?_
  · split <;> rfl
  · split <;> exact hclass

theorem ObjectState.Placed.destroy {s : ObjectState} (h : s.Placed) (id : Nat) :
    (s.destroyVsysfs id).Placed where
  older := fun entry hentry => h.older entry (List.mem_of_mem_filter hentry)
  ids := h.ids.sublist (List.filter_sublist.map Prod.fst)
  classDirs := fun entry hentry => h.classDirs entry (List.mem_of_mem_filter hentry)

theorem classDirText_ne (root : VsysfsRootObject) (v : VdevObject) : classDirText root v ≠ "" := by
  unfold classDirText
  rw [ne_eq, ← String.toList_inj]
  simp

theorem parentClassDirText_ne (root : VsysfsRootObject) (inst : String) :
    parentClassDirText root inst ≠ "" := by
  unfold parentClassDirText
  rw [ne_eq, ← String.toList_inj]
  simp

theorem ObjectState.Placed.ensureParent {s : ObjectState} (h : s.Placed) (id : Nat)
    (root : VsysfsRootObject) (inst : String) : (s.ensureParent id root inst).Placed := by
  unfold ObjectState.ensureParent
  dsimp only
  split
  · rename_i existing hfind
    refine h.map (fun entry => ?_) fun entry hclass => ?_
    · split <;> rfl
    · split
      · unfold VsysfsObject.upsertParent
        dsimp only
        rw [if_neg hclass]
        exact hclass
      · exact hclass
  · exact h.push (parentClassDirText_ne root inst)

theorem ensureParent_fresh (s : ObjectState) (id : Nat) (root : VsysfsRootObject) (inst : String) :
    s.fresh ≤ (s.ensureParent id root inst).fresh := by
  unfold ObjectState.ensureParent
  dsimp only
  split
  · exact Nat.le_refl _
  · exact Nat.le_succ _

theorem ObjectState.Placed.create {s : ObjectState} (h : s.Placed)
    (defaults : List (String × Attr)) (root vdev : Nat) (instanceName : String) :
    (s.createVsysfsFrom defaults root vdev instanceName).1.Placed ∧
      s.fresh ≤ (s.createVsysfsFrom defaults root vdev instanceName).1.fresh ∧
      ∀ id ∈ (s.createVsysfsFrom defaults root vdev instanceName).2,
        id < (s.createVsysfsFrom defaults root vdev instanceName).1.fresh := by
  rcases createVsysfsFrom_cases s defaults root vdev instanceName with hnone |
    ⟨rootObject, v, -, -, -, -, hmade⟩
  · rw [hnone]
    exact ⟨h, Nat.le_refl _, fun id hid => by cases hid⟩
  · rw [hmade]
    dsimp only
    generalize normalizeComponent instanceName = inst
    have hpush : (s.pushVsysfs (newVsysfs root rootObject v inst defaults)).Placed :=
      h.push (classDirText_ne rootObject v)
    have hparent := ensureParent_fresh (s.pushVsysfs (newVsysfs root rootObject v inst defaults))
      root rootObject inst
    split
    · refine ⟨hpush, Nat.le_succ _, fun id hid => ?_⟩
      obtain rfl := Option.some.inj hid
      exact Nat.lt_succ_self _
    · refine ⟨hpush.ensureParent _ _ _, Nat.le_of_succ_le hparent, fun id hid => ?_⟩
      obtain rfl := Option.some.inj hid
      exact hparent

theorem objectStep_other {s t : ObjectState} {call : ObjectCall} (hcall : call.OnVsysfs = false)
    (hstep : objectStep s call = some t) : t.vsysfsList = s.vsysfsList ∧ s.fresh ≤ t.fresh := by
  cases call with
  | vsysfsCreate root vdev instanceName => cases hcall
  | vsysfsDestroy id => cases hcall
  | vdev call =>
      obtain ⟨vdev, -, rfl⟩ := Option.map_eq_some_iff.mp hstep
      exact ⟨rfl, Nat.le_refl _⟩
  | vsysfsRootCreate vdevRoot className kobjectName instanceNameGlob =>
      obtain rfl := Option.some.inj hstep
      unfold ObjectState.createVsysfsRoot
      split
      · exact ⟨rfl, Nat.le_refl _⟩
      · dsimp only
        split
        · exact ⟨rfl, Nat.le_refl _⟩
        · exact ⟨rfl, Nat.le_succ _⟩
  | vsysfsRootDestroy id =>
      obtain rfl := Option.some.inj hstep
      exact ⟨rfl, Nat.le_refl _⟩
  | vmoduleCreate name =>
      obtain rfl := Option.some.inj hstep
      unfold ObjectState.createVmodule
      split
      · exact ⟨rfl, Nat.le_refl _⟩
      · split
        · exact ⟨rfl, Nat.le_refl _⟩
        · exact ⟨rfl, Nat.le_succ _⟩
  | vmoduleDestroy id =>
      obtain rfl := Option.some.inj hstep
      exact ⟨rfl, Nat.le_refl _⟩

structure Instances.Placed (s : Instances) : Prop where
  objects : s.objects.Placed
  handles : ∀ id ∈ s.handles, id < s.objects.fresh

theorem instanceStep_placed {call : InstanceCall} (h : s.Placed)
    (hstep : instanceStep s call = some t) : t.Placed := by
  cases call with
  | object call =>
      obtain ⟨hcall, hmap⟩ := Option.ite_none_left_eq_some.mp hstep
      obtain ⟨objects, hobjects, rfl⟩ := Option.map_eq_some_iff.mp hmap
      obtain ⟨hlist, hfresh⟩ := objectStep_other (Bool.eq_false_iff.mpr hcall) hobjects
      refine ⟨⟨?_, hlist ▸ h.objects.ids, hlist ▸ h.objects.classDirs⟩, fun id hid => ?_⟩
      · intro entry hentry
        exact Nat.lt_of_lt_of_le (h.objects.older entry (hlist ▸ hentry)) hfresh
      · exact Nat.lt_of_lt_of_le (h.handles id hid) hfresh
  | setDefaultAttrs root attrs =>
      obtain rfl := Option.some.inj hstep
      exact ⟨h.objects, h.handles⟩
  | setAttrs id attrs =>
      obtain rfl := Option.some.inj hstep
      exact ⟨h.objects.setAttrs id attrs, h.handles⟩
  | create root vdev instanceName =>
      obtain rfl := Option.some.inj hstep
      obtain ⟨hplaced, hfresh, hmade⟩ := h.objects.create
        ((Table.find s.defaultAttrs root).getD []) root vdev instanceName
      refine ⟨hplaced, fun id hid => ?_⟩
      rcases List.mem_append.mp hid with hold | hnew
      · exact Nat.lt_of_lt_of_le (h.handles id hold) hfresh
      · exact hmade id (Option.mem_toList.mp hnew)
  | destroy id =>
      obtain ⟨-, hdestroyed⟩ := Option.ite_none_right_eq_some.mp hstep
      obtain rfl := Option.some.inj hdestroyed
      exact ⟨h.objects.destroy id, fun handle hhandle =>
        h.handles handle (List.mem_of_mem_filter hhandle)⟩

/-- Where a parent is there, only objects from `since` on change. -/
theorem ensureParent_of_hasParent {s : ObjectState} (h : s.Placed) {since : Nat} (id : Nat)
    {root : VsysfsRootObject} {inst : String}
    (hparent : s.HasParent since (parentDirText root inst)) :
    ∃ f : Nat × VsysfsObject → Nat × VsysfsObject,
      s.ensureParent id root inst = { s with vsysfsList := s.vsysfsList.map f } ∧
      (∀ entry, (f entry).1 = entry.1) ∧
      ∀ entry ∈ s.vsysfsList, entry.1 < since → f entry = entry := by
  obtain ⟨existing, hfind, hold⟩ := hparent
  have hdir : existing.2.devicesDir = parentDirText root inst := by
    have hfound := List.find?_some hfind
    exact of_decide_eq_true hfound
  have hmem := List.mem_of_find?_eq_some hfind
  unfold ObjectState.ensureParent
  dsimp only
  rw [hfind]
  refine ⟨_, rfl, fun entry => ?_, fun entry hentry hbefore => ?_⟩
  · split <;> rfl
  · split
    · rename_i hid
      obtain rfl := List.inj_on_of_nodup_map h.ids hentry hmem hid
      rcases hold with hlater | hkeys
      · omega
      · rw [upsertParent_of_keys (h.classDirs entry hentry) hdir hkeys]
    · rfl

theorem ObjectState.HasParent.push {s : ObjectState} {since : Nat} {parentDir : String}
    (h : s.HasParent since parentDir) (v : VsysfsObject) :
    (s.pushVsysfs v).HasParent since parentDir := by
  obtain ⟨existing, hfind, hold⟩ := h
  refine ⟨existing, ?_, hold⟩
  unfold ObjectState.pushVsysfs
  rw [List.find?_append, hfind]
  rfl

/-- What is known of a state after a point from which on instances were created and destroyed:
what was there at the point still is, but for the instances that have been destroyed since, and
whatever is new can be destroyed. -/
structure Instances.Since (p s : Instances) : Prop where
  vdev : s.objects.vdev = p.objects.vdev
  roots : s.objects.rootList = p.objects.rootList
  vmodules : s.objects.vmoduleList = p.objects.vmoduleList
  later : p.objects.fresh ≤ s.objects.fresh
  handles : ∀ id ∈ s.handles, id < p.objects.fresh → id ∈ p.handles
  added : ∀ entry ∈ s.objects.vsysfsList, p.objects.fresh ≤ entry.1 → entry.1 ∈ s.handles
  kept : (s.objects.vsysfsList.filter fun entry => entry.1 < p.objects.fresh) =
    p.objects.vsysfsList.filter fun entry => entry.1 ∈ p.handles → entry.1 ∈ s.handles

theorem Instances.Since.refl (h : p.Placed) : p.Since p where
  vdev := rfl
  roots := rfl
  vmodules := rfl
  later := Nat.le_refl _
  handles := fun _ hid _ => hid
  added := fun entry hentry hnew =>
    absurd (h.objects.older entry hentry) (Nat.not_lt.mpr hnew)
  kept := by
    refine List.filter_congr fun entry hentry => ?_
    rw [decide_eq_true (h.objects.older entry hentry), decide_eq_true id]

theorem Instances.Since.push (h : p.Since s) (hp : p.Placed) {made : ObjectState}
    {v : VsysfsObject} {f : Nat × VsysfsObject → Nat × VsysfsObject}
    (hmade : made = { s.objects.pushVsysfs v with
      vsysfsList := (s.objects.pushVsysfs v).vsysfsList.map f })
    (hid : ∀ entry, (f entry).1 = entry.1)
    (hsame : ∀ entry ∈ s.objects.vsysfsList, entry.1 < p.objects.fresh → f entry = entry) :
    p.Since { s with objects := made, handles := s.handles ++ [s.objects.fresh] } := by
  have hlater := h.later
  subst hmade
  exact
    { vdev := h.vdev
      roots := h.roots
      vmodules := h.vmodules
      later := Nat.le_succ_of_le hlater
      handles := by
        intro id hmem hbefore
        rcases List.mem_append.mp hmem with hold | hnew
        · exact h.handles id hold hbefore
        · rw [List.mem_singleton.mp hnew] at hbefore
          omega
      added := by
        intro entry hentry hnew
        obtain ⟨old, hold, rfl⟩ := List.mem_map.mp hentry
        rw [hid] at hnew ⊢
        rcases List.mem_append.mp hold with hlisted | hpushed
        · exact List.mem_append_left _ (h.added old hlisted hnew)
        · rw [List.mem_singleton.mp hpushed]
          exact List.mem_append_right _ (List.mem_singleton.mpr rfl)
      kept := by
        have hfilter : ((fun entry : Nat × VsysfsObject => decide (entry.1 < p.objects.fresh)) ∘
            f) = fun entry => decide (entry.1 < p.objects.fresh) := by
          funext entry
          rw [Function.comp_apply, hid]
        dsimp only [ObjectState.pushVsysfs]
        rw [List.filter_map, hfilter, List.filter_append, List.filter_singleton,
          decide_eq_false (Nat.not_lt.mpr hlater), cond_false, List.append_nil]
        have hmap : (s.objects.vsysfsList.filter fun entry => entry.1 < p.objects.fresh).map f =
            s.objects.vsysfsList.filter fun entry => entry.1 < p.objects.fresh := by
          rw [List.map_congr_left (g := id) fun entry hentry => ?_, List.map_id]
          obtain ⟨hlisted, hbefore⟩ := List.mem_filter.mp hentry
          exact hsame entry hlisted (of_decide_eq_true hbefore)
        rw [hmap, h.kept]
        refine List.filter_congr fun entry hentry => ?_
        have hbefore := hp.objects.older entry hentry
        have hne : entry.1 ≠ s.objects.fresh := by omega
        simp [hne] }

theorem Instances.Since.destroy (h : p.Since s) (hp : p.Placed) {id : Nat}
    (hid : id ∈ s.handles) : p.Since (s.destroy id) where
  vdev := h.vdev
  roots := h.roots
  vmodules := h.vmodules
  later := h.later
  handles := fun other hmem => h.handles other (List.mem_of_mem_filter hmem)
  added := by
    intro entry hentry hnew
    obtain ⟨hlisted, hne⟩ := List.mem_filter.mp hentry
    exact List.mem_filter.mpr ⟨h.added entry hlisted hnew, hne⟩
  kept := by
    dsimp only [Instances.destroy, ObjectState.destroyVsysfs]
    rw [List.filter_comm, h.kept, List.filter_filter]
    refine List.filter_congr fun entry hentry => ?_
    have hbefore := hp.objects.older entry hentry
    by_cases hsame : entry.1 = id
    · -- it was there at the point, so the pointer to it was
      have hhandle : entry.1 ∈ p.handles := h.handles _ (hsame ▸ hid) hbefore
      simp [hsame, hsame ▸ hhandle]
    · simp [hsame, List.mem_filter]

theorem Instances.Since.create (h : p.Since s) (hp : p.Placed) (hs : s.Placed) {root vdev : Nat}
    {instanceName : String}
    (hparent : (InstanceCall.create root vdev instanceName).NeedsNoParent p.objects.fresh s) :
    p.Since (s.create root vdev instanceName) := by
  unfold Instances.create
  dsimp only
  generalize (Table.find s.defaultAttrs root).getD [] = defaults
  rcases createVsysfsFrom_cases s.objects defaults root vdev instanceName with hnone |
    ⟨rootObject, v, hlinked, hname, hinst, hdir, hmade⟩
  · rw [hnone]
    dsimp only
    rw [Option.toList_none, List.append_nil]
    exact h
  · have hneeds := hparent rootObject v hlinked hname hinst hdir
    rw [hmade]
    generalize normalizeComponent instanceName = inst at hneeds ⊢
    dsimp only
    rw [Option.toList_some]
    split
    · refine h.push hp (v := newVsysfs root rootObject v inst defaults) (f := id) ?_
        (fun _ => rfl) fun _ _ _ => rfl
      rw [List.map_id]
    · rename_i hne
      have hpush : (s.objects.pushVsysfs (newVsysfs root rootObject v inst defaults)).Placed :=
        hs.objects.push (classDirText_ne rootObject v)
      obtain ⟨f, hf, hid, hsame⟩ := ensureParent_of_hasParent hpush root
        ((hneeds.resolve_left hne).push (newVsysfs root rootObject v inst defaults))
      exact h.push hp hf hid fun entry hentry => hsame entry (List.mem_append_left _ hentry)

theorem instanceStep_since {call : InstanceCall} (hp : p.Placed) (h : s.Placed ∧ p.Since s)
    (hcall : call.CreatesOrDestroys ∧ call.NeedsNoParent p.objects.fresh s)
    (hstep : instanceStep s call = some t) : t.Placed ∧ p.Since t := by
  refine ⟨instanceStep_placed h.1 hstep, ?_⟩
  cases call with
  | object call => exact absurd hcall.1 id
  | setDefaultAttrs root attrs => exact absurd hcall.1 id
  | setAttrs id attrs => exact absurd hcall.1 fun hfalse => hfalse
  | create root vdev instanceName =>
      obtain rfl := Option.some.inj hstep
      exact h.2.create hp h.1 hcall.2
  | destroy id =>
      obtain ⟨hid, hdestroyed⟩ := Option.ite_none_right_eq_some.mp hstep
      obtain rfl := Option.some.inj hdestroyed
      exact h.2.destroy hp hid

/-- Once the pointers are those of the point again, so are the objects. -/
theorem Instances.Since.vsysfsList_eq (h : p.Since s) (hp : p.Placed)
    (hhandles : ∀ id, id ∈ s.handles ↔ id ∈ p.handles) :
    s.objects.vsysfsList = p.objects.vsysfsList := by
  have hall : (s.objects.vsysfsList.filter fun entry => entry.1 < p.objects.fresh) =
      s.objects.vsysfsList := by
    rw [List.filter_eq_self]
    intro entry hentry
    refine decide_eq_true ?_
    by_contra hnew
    have hhandle := h.added entry hentry (Nat.not_lt.mp hnew)
    exact hnew (hp.handles _ ((hhandles _).mp hhandle))
  rw [← hall, h.kept, List.filter_eq_self]
  intro entry hentry
  exact decide_eq_true (hhandles _).mpr

theorem Instances.Since.resolve_eq (h : p.Since s)
    (hlist : s.objects.vsysfsList = p.objects.vsysfsList) (absPath : String) :
    s.objects.resolve absPath = p.objects.resolve absPath := by
  have hglobs : s.objects.distinctGlobs = p.objects.distinctGlobs := by
    funext v
    unfold ObjectState.distinctGlobs
    rw [h.roots]
  have hlive : s.objects.live = p.objects.live := by
    funext owner name
    cases owner with
    | vsysfs id =>
        unfold ObjectState.live
        rw [hlist]
    | vmodule id =>
        unfold ObjectState.live
        rw [h.vmodules]
  unfold ObjectState.resolve ObjectState.snapshot
  rw [hglobs, hlive, h.vdev, hlist, h.vmodules]

theorem start_placed : Instances.start.Placed :=
  ⟨⟨List.forall_mem_nil _, List.nodup_nil, List.forall_mem_nil _⟩, List.forall_mem_nil _⟩

/-- After the instances that were made since some point have been destroyed, every path resolves
as it did then, if none of them had a parent made or changed for it.  A lookup is one on a
snapshot of the objects as they are: `pim_vsysfs_root_destroy`, which may be among the calls before
the point, does not notify, and until the next call that does the code looks into the snapshot of
before it. -/
theorem resolve_after_destroy {before since : List InstanceCall}
    (hbefore : run instanceStep .start before = some p) (hsince : run instanceStep p since = some t)
    (hcalls : ∀ call ∈ since, call.CreatesOrDestroys)
    (hparents : Meets instanceStep (fun s call => call.NeedsNoParent p.objects.fresh s) p since)
    (hhandles : ∀ id, id ∈ t.handles ↔ id ∈ p.handles) (absPath : String) :
    t.objects.resolve absPath = p.objects.resolve absPath := by
  have hp : p.Placed :=
    run_invariant (fun _ _ _ h hstep => instanceStep_placed h hstep) start_placed hbefore
  have hend : t.Placed ∧ p.Since t :=
    run_invariant_of_meets (fun _ _ _ h hcall hstep => instanceStep_since hp h hcall hstep)
      ⟨hp, .refl hp⟩ ((meets_of_forall hcalls p).and hparents) hsince
  exact hend.2.resolve_eq (hend.2.vsysfsList_eq hp hhandles) absPath

/-- A device and a root, before any instance is made. -/
def rankStage : List InstanceCall :=
  [.object (.vdev (.createRoot "dpu_rank*")), .object (.vdev (.create 0 "dpu_rank0" 240 0)),
    .object (.vsysfsRootCreate 0 "dpu_rank" "platform" "dpu_region_mem.*")]

theorem resolve_after_destroy_rank :
    ∃ p t, run instanceStep .start rankStage = some p ∧
      run instanceStep p [.create 0 1 "dpu_rank0", .destroy 1] = some t ∧
      t.objects.resolve "/sys/devices/platform/dpu_rank0" =
        p.objects.resolve "/sys/devices/platform/dpu_rank0" := by
  refine ⟨_, _, rfl, rfl, @resolve_after_destroy _ _ rankStage
    [.create 0 1 "dpu_rank0", .destroy 1] rfl rfl ?_ ?_ ?_ _⟩
  · exact List.forall_mem_cons.mpr ⟨trivial, List.forall_mem_singleton.mpr trivial⟩
  · refine ⟨?_, ?_⟩
    · rintro rootObject v hlinked - - -
      cases hlinked
      exact .inl (by decide +kernel)
    · rintro s ⟨⟩
      exact ⟨trivial, fun _ _ => trivial⟩
  · intro id
    exact Iff.of_eq (congrArg (id ∈ ·) (by decide +kernel))

/-- An instance of another name leaves the directory of its parent behind. -/
theorem parent_remains :
    ¬ ∀ (before since : List InstanceCall) (p t : Instances),
      run instanceStep .start before = some p → run instanceStep p since = some t →
      (∀ call ∈ since, call.CreatesOrDestroys) → (∀ id, id ∈ t.handles ↔ id ∈ p.handles) →
      ∀ absPath, t.objects.resolve absPath = p.objects.resolve absPath := by
  intro hall
  have hsame := hall rankStage [.create 0 1 "dpu_region_mem.0", .destroy 1] _ _ rfl rfl
    (List.forall_mem_cons.mpr ⟨trivial, List.forall_mem_singleton.mpr trivial⟩)
  refine absurd (hsame (fun id => ?_) "/sys/devices/platform/dpu_region_mem.0") ?_
  · exact Iff.of_eq (congrArg (id ∈ ·) (by decide +kernel))
  · decide +kernel

end HostPimSim.Vfile.Namespace
