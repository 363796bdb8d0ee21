import HostPimSim.Vfile.Snapshot

/-! The registered objects of the virtual namespace, and the calls that change them as the
sections they run under a mutex, one after the other.  Objects stay where they are once made;
the lists name those that are registered. -/
namespace HostPimSim.Vfile.Namespace
open Attribute

structure Vdev where
  name : String
  major : Nat
  minor : Nat
  deriving DecidableEq

structure Vsysfs where
  root : Nat
  classDir : Path
  devicesDir : Path
  distinctGlobs : Bool
  attrs : List (String × Attr)
  deriving DecidableEq

structure Vmodule where
  dir : Path
  attrs : List (String × Attr)
  registeredDrivers : List (String × String)
  deriving DecidableEq

/-- `pim_vsysfs_root`; `distinctGlobs` is `class_glob != devices_glob`. -/
structure Root where
  className : String
  kobjectName : String
  distinctGlobs : Bool
  defaultAttrs : List (String × Attr)
  instances : List Nat
  deriving DecidableEq

structure Registry where
  vdevs : List Vdev
  vdevList : List Nat
  vsysfs : List Vsysfs
  vsysfsList : List Nat
  vmodules : List Vmodule
  vmoduleList : List Nat
  roots : List Root
  deriving DecidableEq

inductive Call where
  | vdevCreate (name : String) (major minor : Nat)
  | vdevDestroy (id : Nat)
  | vsysfsCreate (root vdev : Nat) (instanceName : String)
  | vsysfsDestroy (id : Nat)
  | writeAttr (owner : Owner) (name : String) (attr : Attr) (outcome : StoreOutcome)
  | removeAttr (owner : Owner) (name : String)
  | rootWriteDefaultAttr (root : Nat) (name : String) (attr : Attr)
  | rootRemoveDefaultAttr (root : Nat) (name : String)
  | vmoduleCreate (name : String)
  | vmoduleDestroy (id : Nat)
  | registerDriver (id : Nat) (bus driver : String)
  deriving DecidableEq

/-- The arguments of `pim_vsysfs_root_write_default_attr` and the old root default. -/
structure DefaultWrite where
  root : Nat
  name : String
  attr : Attr
  rootOld : Option Attr
  deriving DecidableEq

/-- Where a call stands.  `prev`, `done` and `left` have the instances with what they had of
the attribute when it was captured. -/
inductive Pc where
  | begin (call : Call)
  | notify
  | linkVdev (id : Nat)
  | dropVdev (id : Nat)
  | eraseVdev (id : Nat)
  | linkVsysfs (id vdev : Nat)
  | dropVsysfs (id : Nat)
  | attachDevice (id : Nat)
  | ensureParent (id : Nat)
  | upsertParent (parent : Nat) (attrs : List (String × Attr))
  | eraseVsysfs (id : Nat)
  | capture (w : DefaultWrite) (prev : List (Nat × Option Attr)) (left : List Nat)
  | setRoot (w : DefaultWrite) (prev : List (Nat × Option Attr))
  | apply (w : DefaultWrite) (done left : List (Nat × Option Attr))
  | rollback (w : DefaultWrite) (left : List (Nat × Option Attr))
  | removeFrom (name : String) (left : List Nat) (anyRemoved : Bool)
  deriving DecidableEq

def Registry.attrs (r : Registry) : Owner → Option (List (String × Attr))
  | .vsysfs id => (r.vsysfs[id]?).map Vsysfs.attrs
  | .vmodule id => (r.vmodules[id]?).map Vmodule.attrs

/-- An attribute as `vfile_get_vsysfs_attr_properties` finds it. -/
def Registry.live (r : Registry) (owner : Owner) (name : String) : Option Attr :=
  (r.attrs owner).bind fun attrs => Table.find attrs name

def Registry.setAttrs (r : Registry) (owner : Owner) (attrs : List (String × Attr)) : Registry :=
  match owner with
  | .vsysfs id => { r with vsysfs := r.vsysfs.modify id fun v => { v with attrs } }
  | .vmodule id => { r with vmodules := r.vmodules.modify id fun m => { m with attrs } }

def Registry.modifyRoot (r : Registry) (root : Nat) (f : Root → Root) : Registry :=
  { r with roots := r.roots.modify root f }

def bytesOf (text : String) : List UInt8 := text.toList.map fun c => UInt8.ofNat c.toNat

def readOnly (text : String) : Attr := ⟨bytesOf text, .ro⟩

def pathText (path : Path) : String := "/" ++ "/".intercalate path

def classDirOf (root : Root) (vdev : Vdev) : Path := ["sys", "class", root.className, vdev.name]

def parentDirOf (root : Root) (instanceName : String) : Path :=
  ["sys", "devices", root.kobjectName, instanceName]

def devicesDirOf (root : Root) (vdev : Vdev) (instanceName : String) : Path :=
  parentDirOf root instanceName ++ if instanceName = vdev.name then [] else [vdev.name]

def ensureAttr (attrs : List (String × Attr)) (attr : String × Attr) : List (String × Attr) :=
  if (Table.find attrs attr.1).isSome then attrs else Table.put attrs attr.1 attr.2

/-- The derived attributes `dev`, `subsystem` and `uevent`. -/
def derivedAttrs (root : Root) (vdev : Vdev) (devicesDir : Path) : List (String × Attr) :=
  [("dev", readOnly (toString vdev.major ++ ":" ++ toString vdev.minor)),
    ("subsystem", readOnly ("/sys/class/" ++ root.className)),
    ("uevent", readOnly ("DEVPATH=" ++ pathText (devicesDir.drop 1) ++ "\nSUBSYSTEM=" ++
      root.className ++ "\nDEVNAME=" ++ vdev.name ++ "\nMAJOR=" ++ toString vdev.major ++
      "\nMINOR=" ++ toString vdev.minor))]

def registerVsysfs (r : Registry) (root vdev : Nat) (instanceName : String) :
    Registry × Option Pc :=
  match r.roots[root]?, r.vdevs[vdev]? with
  | some rootObject, some vdevObject =>
      let classDir := classDirOf rootObject vdevObject
      let devicesDir := devicesDirOf rootObject vdevObject instanceName
      if r.vsysfsList.any fun id => (r.vsysfs[id]?).any fun v =>
          v.classDir = classDir ∨ v.devicesDir = devicesDir then (r, none)
      else
        ({ r with
          vsysfs := r.vsysfs ++ [⟨root, classDir, devicesDir, rootObject.distinctGlobs, []⟩]
          vsysfsList := r.vsysfsList ++ [r.vsysfs.length] },
          some (.linkVsysfs r.vsysfs.length vdev))
  | _, _ => (r, none)

def linkVsysfs (r : Registry) (id vdev : Nat) : Registry :=
  match r.vsysfs[id]?, r.vdevs[vdev]? with
  | some v, some vdevObject =>
      match r.roots[v.root]? with
      | some root =>
          (r.setAttrs (.vsysfs id)
            ((derivedAttrs root vdevObject v.devicesDir).foldl ensureAttr
              root.defaultAttrs)).modifyRoot v.root
            fun root => { root with instances := root.instances ++ [id] }
      | none => r
  | _, _ => r

def parentAttrs (root : Root) (parentDir : Path) (instanceName : String) :
    List (String × Attr) :=
  [("subsystem", readOnly ("/sys/bus/" ++ root.kobjectName)),
    ("device", readOnly (pathText parentDir)),
    ("uevent", readOnly ("DEVPATH=/devices/" ++ root.kobjectName ++ "/" ++ instanceName ++
      "\nSUBSYSTEM=" ++ root.kobjectName ++ "\nDEVNAME=" ++ instanceName ++ "\n"))]

/-- `vsysfs_ensure_parent_device_node` up to the attributes of a node that is there.  The
parent directory is what is left of a devices directory of five segments. -/
def ensureParent (r : Registry) (id : Nat) : Registry × Option Pc :=
  match r.vsysfs[id]? with
  | none => (r, some .notify)
  | some v =>
      match r.roots[v.root]? with
      | none => (r, some .notify)
      | some root =>
          let parentDir := v.devicesDir.take 4
          let instanceName := parentDir.getLastD ""
          let attrs := parentAttrs root parentDir instanceName
          match r.vsysfsList.find? fun other =>
              (r.vsysfs[other]?).any fun o => o.devicesDir = parentDir with
          | some existing => (r, some (.upsertParent existing attrs))
          | none =>
              ({ r with
                vsysfs := r.vsysfs ++ [⟨v.root,
                  ["sys", "bus", root.kobjectName, "devices", instanceName], parentDir,
                  root.distinctGlobs, attrs⟩]
                vsysfsList := r.vsysfsList ++ [r.vsysfs.length] },
                some .notify)

def captureNext (w : DefaultWrite) (prev : List (Nat × Option Attr)) : List Nat → Pc
  | [] => .setRoot w prev
  | id :: left => .capture w prev (id :: left)

/-- `any_new_attr` decides whether the call notifies. -/
def applyNext (w : DefaultWrite) (done : List (Nat × Option Attr)) :
    List (Nat × Option Attr) → Option Pc
  | [] => if done.any fun state => state.2.isNone then some .notify else none
  | state :: left => some (.apply w done (state :: left))

def removeNext (name : String) (anyRemoved : Bool) : List Nat → Option Pc
  | [] => if anyRemoved then some .notify else none
  | id :: left => some (.removeFrom name (id :: left) anyRemoved)

def putAttr (r : Registry) (owner : Owner) (name : String) (attr : Attr) : Registry :=
  match r.attrs owner with
  | none => r
  | some attrs => r.setAttrs owner (Table.put attrs name attr)

def dropAttr (r : Registry) (owner : Owner) (name : String) : Registry :=
  match r.attrs owner with
  | none => r
  | some attrs => r.setAttrs owner (Table.remove attrs name)

def restore (r : Registry) (name : String) (state : Nat × Option Attr) : Registry :=
  match state.2 with
  | some old => putAttr r (.vsysfs state.1) name old
  | none => dropAttr r (.vsysfs state.1) name

def restoreRoot (r : Registry) (w : DefaultWrite) : Registry :=
  r.modifyRoot w.root fun root =>
    match w.rootOld with
    | some old => { root with defaultAttrs := Table.put root.defaultAttrs w.name old }
    | none => { root with defaultAttrs := Table.remove root.defaultAttrs w.name }

/-- `pim_vsysfs_write_attr` and `pim_vmodule_create_attr` up to the notification. -/
def storeAttr (r : Registry) (owner : Owner) (name : String) (attr : Attr) :
    StoreOutcome → Registry × Option Pc
  | .stored =>
      (putAttr r owner name attr,
        if (r.live owner name).map Attr.access = some attr.access then none else some .notify)
  | .undone => (r, none)
  | .valueOnly =>
      (putAttr r owner name ⟨attr.value, ((r.live owner name).map Attr.access).getD .rw⟩, none)

def beginCall (r : Registry) (ok : Bool) : Call → Registry × Option Pc
  | .vdevCreate name major minor =>
      if r.vdevList.any fun id => (r.vdevs[id]?).any fun v => v.name = name then (r, none)
      else
        ({ r with
          vdevs := r.vdevs ++ [⟨name, major, minor⟩]
          vdevList := r.vdevList ++ [r.vdevs.length] },
          some (.linkVdev r.vdevs.length))
  | .vdevDestroy id => (r, some (.eraseVdev id))
  | .vsysfsCreate root vdev instanceName => registerVsysfs r root vdev instanceName
  | .vsysfsDestroy id =>
      match r.vsysfs[id]? with
      | none => (r, none)
      | some v =>
          (r.modifyRoot v.root fun root =>
            { root with instances := root.instances.filter fun other => other ≠ id },
            some (.eraseVsysfs id))
  | .writeAttr owner name attr outcome => storeAttr r owner name attr outcome
  | .removeAttr owner name =>
      if (r.live owner name).isSome then (dropAttr r owner name, some .notify) else (r, none)
  | .rootWriteDefaultAttr root name attr =>
      match r.roots[root]? with
      | none => (r, none)
      | some rootObject =>
          if ok then
            (r, some (captureNext ⟨root, name, attr, Table.find rootObject.defaultAttrs name⟩ []
              rootObject.instances))
          else (r, none)
  | .rootRemoveDefaultAttr root name =>
      match r.roots[root]? with
      | none => (r, none)
      | some rootObject =>
          if ok = true ∧ (Table.find rootObject.defaultAttrs name).isSome = true then
            (r.modifyRoot root fun root =>
              { root with defaultAttrs := Table.remove root.defaultAttrs name },
              removeNext name false rootObject.instances)
          else (r, none)
  | .vmoduleCreate name =>
      if r.vmoduleList.any fun id =>
          (r.vmodules[id]?).any fun m => m.dir = ["sys", "module", name] then (r, none)
      else
        ({ r with
          vmodules := r.vmodules ++ [⟨["sys", "module", name], [], []⟩]
          vmoduleList := r.vmoduleList ++ [r.vmodules.length] },
          some .notify)
  | .vmoduleDestroy id =>
      ({ r with vmoduleList := r.vmoduleList.filter fun other => other ≠ id }, some .notify)
  | .registerDriver id bus driver =>
      match r.vmodules[id]? with
      | none => (r, none)
      | some m =>
          if ok = false ∨ (bus, driver) ∈ m.registeredDrivers then (r, none)
          else
            ({ r with vmodules := r.vmodules.modify id fun m =>
              { m with registeredDrivers := m.registeredDrivers ++ [(bus, driver)] } },
              some .notify)

/-- One section of a call that is not the notification, and where the call stands then; `ok`
is whether memory can be had.  A call that waits for itself stops none of the others here. -/
def runSection (r : Registry) (ok : Bool) : Pc → Registry × Option Pc
  | .begin call => beginCall r ok call
  | .notify => (r, none)
  | .linkVdev id => (r, some (if ok then .notify else .dropVdev id))
  | .dropVdev id => ({ r with vdevList := r.vdevList.filter fun other => other ≠ id }, none)
  | .eraseVdev id =>
      ({ r with vdevList := r.vdevList.filter fun other => other ≠ id }, some .notify)
  | .linkVsysfs id vdev =>
      if ok then (linkVsysfs r id vdev, some (.attachDevice id)) else (r, some (.dropVsysfs id))
  | .dropVsysfs id =>
      ({ r with vsysfsList := r.vsysfsList.filter fun other => other ≠ id }, none)
  | .attachDevice id =>
      if ok then
        (r, some (if (r.vsysfs[id]?).any fun v => v.devicesDir.length = 5 then .ensureParent id
          else .notify))
      else (r, none)
  | .ensureParent id => if ok then ensureParent r id else (r, some .notify)
  | .upsertParent parent attrs =>
      match r.attrs (.vsysfs parent) with
      | none => (r, some .notify)
      | some old => (r.setAttrs (.vsysfs parent) (attrs.foldl ensureAttr old), some .notify)
  | .eraseVsysfs id =>
      ({ r with vsysfsList := r.vsysfsList.filter fun other => other ≠ id }, some .notify)
  | .capture w prev left =>
      match left with
      | [] => (r, some (.setRoot w prev))
      | id :: left =>
          if ok then (r, some (captureNext w (prev ++ [(id, r.live (.vsysfs id) w.name)]) left))
          else (r, none)
  | .setRoot w prev =>
      if ok then
        (r.modifyRoot w.root fun root =>
          { root with defaultAttrs := Table.put root.defaultAttrs w.name w.attr },
          applyNext w [] prev)
      else (restoreRoot r w, none)
  | .apply w done left =>
      match left with
      | [] => (r, applyNext w done [])
      | state :: left =>
          if ok then
            (putAttr r (.vsysfs state.1) w.name w.attr, applyNext w (done ++ [state]) left)
          else (r, some (.rollback w (done ++ [state])))
  -- The last instance is the one whose mutex the call holds: it waits for itself.
  | .rollback w left =>
      match left with
      | state :: next :: left => (restore r w.name state, some (.rollback w (next :: left)))
      | left => (r, some (.rollback w left))
  | .removeFrom name left anyRemoved =>
      match left with
      | [] => (r, removeNext name anyRemoved [])
      | id :: left =>
          if (r.live (.vsysfs id) name).isSome then
            (dropAttr r (.vsysfs id) name, removeNext name true left)
          else (r, removeNext name anyRemoved left)

def Vsysfs.seed (v : Vsysfs) : VsysfsSeed :=
  ⟨v.classDir, v.devicesDir, v.distinctGlobs, Table.keys v.attrs⟩

def Vmodule.seed (m : Vmodule) : VmoduleSeed :=
  ⟨m.dir, Table.keys m.attrs, m.registeredDrivers⟩

structure Shape where
  vdevs : List (Nat × Path)
  vsysfsList : List Nat
  vsysfs : List VsysfsSeed
  vmoduleList : List Nat
  vmodules : List VmoduleSeed
  deriving DecidableEq

def Registry.vdevSeeds (r : Registry) : List (Nat × Path) :=
  r.vdevList.filterMap fun id => (r.vdevs[id]?).map fun v => (id, ["dev", v.name])

def Registry.shape (r : Registry) : Shape :=
  ⟨r.vdevSeeds, r.vsysfsList, r.vsysfs.map Vsysfs.seed, r.vmoduleList,
    r.vmodules.map Vmodule.seed⟩

def Shape.vsysfsSeeds (s : Shape) (ids : List Nat) : List (Nat × VsysfsSeed) :=
  ids.filterMap fun id => (s.vsysfs[id]?).map fun seed => (id, seed)

def Shape.vmoduleSeeds (s : Shape) (ids : List Nat) : List (Nat × VmoduleSeed) :=
  ids.filterMap fun id => (s.vmodules[id]?).map fun seed => (id, seed)

def Shape.seeds (s : Shape) : Seeds :=
  ⟨s.vdevs, s.vsysfsSeeds s.vsysfsList, s.vmoduleSeeds s.vmoduleList⟩

end HostPimSim.Vfile.Namespace
