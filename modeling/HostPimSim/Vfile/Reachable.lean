import HostPimSim.Vfile.TextSnapshot

/-! Objects of any names over runs of the calls that make and destroy them, and whether a lookup
of the text that an object stores leads to it. -/
namespace HostPimSim.Vfile.Namespace
open Attribute Transition

structure ObjectState where
  vdev : VdevState
  rootList : List (Nat × VsysfsRootObject)
  vsysfsList : List (Nat × VsysfsObject)
  vmoduleList : List (Nat × VmoduleObject)
  fresh : Nat
  deriving DecidableEq

def ObjectState.start : ObjectState := ⟨.start, [], [], [], 0⟩

/-- `pim_vsysfs_root_create` -/
def ObjectState.createVsysfsRoot (s : ObjectState) (vdevRoot : Nat)
    (className kobjectName instanceNameGlob : String) : ObjectState × Option Nat :=
  match Table.find s.vdev.rootList vdevRoot with
  | none => (s, none)
  | some vdevNameGlob =>
      let cls := vsysfsNormalizeClassComponent className
      let kobject := vsysfsNormalizeDevicesComponent kobjectName
      let glob := normalizeComponent instanceNameGlob
      if vsysfsRootComponentValid cls = false ∨ vsysfsRootComponentValid kobject = false ∨
          glob = "" ∨ vdevNameGlob = "" then (s, none)
      else
        ({ s with
          rootList := s.rootList ++ [(s.fresh,
            ⟨vdevRoot, cls, kobject, glob, cls ++ "/" ++ vdevNameGlob, kobject ++ "/" ++ glob⟩)]
          fresh := s.fresh + 1 }, some s.fresh)

def ObjectState.destroyVsysfsRoot (s : ObjectState) (id : Nat) : ObjectState :=
  { s with rootList := s.rootList.filter fun entry => entry.1 ≠ id }

/-- The root and the device that are given, if both are under one registered device root. -/
def ObjectState.linked (s : ObjectState) (root vdev : Nat) :
    Option (VsysfsRootObject × VdevObject) :=
  match Table.find s.rootList root, Table.find s.vdev.vdevList vdev with
  | some rootObject, some v =>
      if s.vdev.rootRegistered rootObject.vdevRoot = true ∧ rootObject.vdevRoot = v.root then
        some (rootObject, v)
      else none
  | _, _ => none

section

variable (root : VsysfsRootObject) (v : VdevObject) (inst : String)

def classDirText : String := "/sys/class/" ++ root.className ++ "/" ++ v.name

/-- `devices_parent_dir` -/
def parentDirText : String := "/sys/devices/" ++ root.kobjectName ++ "/" ++ inst

def devicesDirText : String :=
  if inst = v.name then parentDirText root inst else parentDirText root inst ++ "/" ++ v.name

def devpath (devicesDir : String) : String :=
  let stripped := stripKnownPrefix devicesDir "/sys"
  if stripped.toList.head? = some '/' then stripped else "/" ++ stripped

def derivedAttrsText : List (String × Attr) :=
  [("dev", readOnly (toString v.major.toNat ++ ":" ++ toString v.minor.toNat)),
    ("subsystem", readOnly ("/sys/class/" ++ root.className)),
    ("uevent", readOnly ("DEVPATH=" ++ devpath (devicesDirText root v inst) ++ "\nSUBSYSTEM=" ++
      root.className ++ "\nDEVNAME=" ++ v.name ++ "\nMAJOR=" ++ toString v.major.toNat ++
      "\nMINOR=" ++ toString v.minor.toNat))]

def parentAttrsText : List (String × Attr) :=
  [("subsystem", readOnly ("/sys/bus/" ++ root.kobjectName)),
    ("device", readOnly (parentDirText root inst)),
    ("uevent", readOnly ("DEVPATH=/devices/" ++ root.kobjectName ++ "/" ++ inst ++
      "\nSUBSYSTEM=" ++ root.kobjectName ++ "\nDEVNAME=" ++ inst ++ "\n"))]

def parentClassDirText : String := "/sys/bus/" ++ root.kobjectName ++ "/devices/" ++ inst

end

def ObjectState.pushVsysfs (s : ObjectState) (v : VsysfsObject) : ObjectState :=
  { s with vsysfsList := s.vsysfsList ++ [(s.fresh, v)], fresh := s.fresh + 1 }

/-- `vsysfs_upsert_parent_device_attrs_locked` -/
def VsysfsObject.upsertParent (v : VsysfsObject) (classDir devicesDir : String)
    (attrs : List (String × Attr)) : VsysfsObject :=
  { v with
    classDir := if v.classDir = "" then classDir else v.classDir
    devicesDir := if v.devicesDir = "" then devicesDir else v.devicesDir
    attrs := attrs.foldl ensureAttr v.attrs }

/-- `vsysfs_ensure_parent_device_node` -/
def ObjectState.ensureParent (s : ObjectState) (root : Nat) (rootObject : VsysfsRootObject)
    (inst : String) : ObjectState :=
  let parentDir := parentDirText rootObject inst
  let attrs := parentAttrsText rootObject inst
  match s.vsysfsList.find? fun entry => entry.2.devicesDir = parentDir with
  | some existing =>
      { s with vsysfsList := s.vsysfsList.map fun entry =>
          if entry.1 = existing.1 then
            (entry.1, entry.2.upsertParent (parentClassDirText rootObject inst) parentDir attrs)
          else entry }
  | none => s.pushVsysfs ⟨root, parentClassDirText rootObject inst, parentDir, attrs⟩

def ObjectState.hasDir (s : ObjectState) (classDir devicesDir : String) : Bool :=
  s.vsysfsList.any fun entry => entry.2.classDir = classDir ∨ entry.2.devicesDir = devicesDir

def ObjectState.createVsysfs (s : ObjectState) (root vdev : Nat) (instanceName : String) :
    ObjectState × Option Nat :=
  match s.linked root vdev with
  | none => (s, none)
  | some (rootObject, v) =>
      let inst := normalizeComponent instanceName
      if vsysfsValidInstanceName v.name = false ∨ vsysfsValidInstanceName inst = false then
        (s, none)
      else if s.hasDir (classDirText rootObject v) (devicesDirText rootObject v inst) then
        (s, none)
      else
        let made := s.pushVsysfs ⟨root, classDirText rootObject v,
          devicesDirText rootObject v inst,
          (derivedAttrsText rootObject v inst).foldl ensureAttr []⟩
        (if inst = v.name then made else made.ensureParent root rootObject inst, some s.fresh)

def ObjectState.destroyVsysfs (s : ObjectState) (id : Nat) : ObjectState :=
  { s with vsysfsList := s.vsysfsList.filter fun entry => entry.1 ≠ id }

def moduleDirText (name : String) : String :=
  "/sys/module/" ++ vmoduleNormalizeInstanceName name

/-- `pim_vmodule_create` -/
def ObjectState.createVmodule (s : ObjectState) (name : String) : ObjectState × Option Nat :=
  if vmoduleValidInstanceName (vmoduleNormalizeInstanceName name) = false then (s, none)
  else if s.vmoduleList.any fun entry => entry.2.dir = moduleDirText name then (s, none)
  else
    ({ s with
      vmoduleList := s.vmoduleList ++ [(s.fresh, ⟨moduleDirText name, [], []⟩)]
      fresh := s.fresh + 1 }, some s.fresh)

def ObjectState.destroyVmodule (s : ObjectState) (id : Nat) : ObjectState :=
  { s with vmoduleList := s.vmoduleList.filter fun entry => entry.1 ≠ id }

inductive ObjectCall where
  | vdev (call : VdevCall)
  | vsysfsRootCreate (vdevRoot : Nat) (className kobjectName instanceNameGlob : String)
  | vsysfsRootDestroy (id : Nat)
  | vsysfsCreate (root vdev : Nat) (instanceName : String)
  | vsysfsDestroy (id : Nat)
  | vmoduleCreate (name : String)
  | vmoduleDestroy (id : Nat)

def objectStep (s : ObjectState) : ObjectCall → Option ObjectState
  | .vdev call => (vdevStep s.vdev call).map fun vdev => { s with vdev }
  | .vsysfsRootCreate vdevRoot className kobjectName instanceNameGlob =>
      some (s.createVsysfsRoot vdevRoot className kobjectName instanceNameGlob).1
  | .vsysfsRootDestroy id => some (s.destroyVsysfsRoot id)
  | .vsysfsCreate root vdev instanceName => some (s.createVsysfs root vdev instanceName).1
  | .vsysfsDestroy id => some (s.destroyVsysfs id)
  | .vmoduleCreate name => some (s.createVmodule name).1
  | .vmoduleDestroy id => some (s.destroyVmodule id)

/-- `root_uses_distinct_globs`, which is so of an object whose root is gone. -/
def ObjectState.distinctGlobs (s : ObjectState) (v : VsysfsObject) : Bool :=
  match Table.find s.rootList v.root with
  | none => true
  | some root => root.classGlob != root.devicesGlob

def ObjectState.live (s : ObjectState) : Owner → String → Option Attr
  | .vsysfs id, name => (Table.find s.vsysfsList id).bind fun v => Table.find v.attrs name
  | .vmodule id, name => (Table.find s.vmoduleList id).bind fun m => Table.find m.attrs name

def ObjectState.snapshot (s : ObjectState) : TextSnapshot :=
  buildTextSnapshot s.distinctGlobs s.vdev.vdevList s.vsysfsList s.vmoduleList

/-- `vfile_resolve_virtual_node` -/
def ObjectState.resolve (s : ObjectState) (absPath : String) : Option Node :=
  s.snapshot.resolve s.live absPath

def ObjectState.paths (s : ObjectState) : List String :=
  (s.vdev.vdevList.map fun entry => entry.2.path) ++
    (s.vsysfsList.map fun entry => entry.2.devicesDir) ++
    s.vmoduleList.map fun entry => entry.2.dir

/-- A lookup leads from the text of each object to it, and no two texts have one normal form. -/
structure ObjectState.AllReachable (s : ObjectState) : Prop where
  vdevs : ∀ id v, (id, v) ∈ s.vdev.vdevList → ∃ p, s.resolve v.path = some (.vdevNode p id)
  vsysfs : ∀ id v, (id, v) ∈ s.vsysfsList →
    ∃ p vmodule, s.resolve v.devicesDir = some (.vdir p (some id) vmodule)
  vmodules : ∀ id m, (id, m) ∈ s.vmoduleList →
    ∃ p vsysfs, s.resolve m.dir = some (.vdir p vsysfs (some id))
  apart : (s.paths.map normalizeAbsolutePath).Nodup

def Starts (front text : String) : Prop := front.toList <+: text.toList

theorem Starts.append (front rest : String) : Starts front (front ++ rest) := by
  unfold Starts
  rw [String.toList_append]
  exact List.prefix_append _ _

theorem Starts.join {front text : String} (h : Starts front text) (rest : String) :
    Starts front (text ++ "/" ++ rest) := by
  unfold Starts
  rw [String.append_assoc, String.toList_append]
  exact h.trans (List.prefix_append _ _)

theorem Starts.ne {front other text text' : String} (h : Starts front text)
    (h' : Starts other text')
    (hapart : ¬front.toList <+: other.toList ∧ ¬other.toList <+: front.toList) : text ≠ text' := by
  rintro rfl
  rcases List.prefix_or_prefix_of_prefix h h' with hpre | hpre
  · exact hapart.1 hpre
  · exact hapart.2 hpre

theorem intercalate_pieces (text : String) : "/".intercalate (pieces text) = text := by
  rw [← String.toList_inj, String.toList_intercalate]
  unfold pieces
  rw [List.map_map]
  have hid : String.toList ∘ String.ofList = id := by
    funext chars
    exact String.toList_ofList
  rw [hid, List.map_id]
  exact List.intercalate_splitOn '/'

theorem pieces_ne_nil (text : String) : pieces text ≠ [] := by
  unfold pieces
  rw [ne_eq, List.map_eq_nil_iff]
  exact List.splitOn_ne_nil _ _

theorem devicesText_eq {rest : Path} (hne : rest ≠ []) :
    pathText ("sys" :: "devices" :: rest) = "/sys/devices/" ++ "/".intercalate rest := by
  obtain ⟨x, rest, rfl⟩ := List.exists_cons_of_ne_nil hne
  unfold pathText
  rw [String.intercalate_cons_cons, String.intercalate_cons_cons]
  rw [← String.toList_inj]
  simp

theorem parentDirText_eq (root : VsysfsRootObject) (inst : String) :
    parentDirText root inst =
      pathText ("sys" :: "devices" :: (pieces root.kobjectName ++ [inst])) := by
  have happend : pathText ("sys" :: "devices" :: (pieces root.kobjectName ++ [inst])) =
      pathText ("sys" :: "devices" :: pieces root.kobjectName) ++ "/" ++ inst := by
    rw [← List.cons_append, ← List.cons_append]
    exact pathText_append (List.cons_ne_nil _ _) inst
  rw [happend, devicesText_eq (pieces_ne_nil _), intercalate_pieces]
  rfl

def DevicesText (text : String) : Prop :=
  ∃ rest, rest ≠ [] ∧ (∀ x ∈ rest, Segment x) ∧ text = pathText ("sys" :: "devices" :: rest)

/-- Every text that is stored is the text of a path of its kind, no two objects store one, and
no directory is where another has an attribute. -/
structure ObjectState.Sound (s : ObjectState) : Prop where
  vdev : s.vdev.Sound
  vdevText : ∀ entry ∈ s.vdev.vdevList,
    Segment entry.2.name ∧ entry.2.path = pathText ["dev", entry.2.name]
  vsysfsText : ∀ entry ∈ s.vsysfsList, DevicesText entry.2.devicesDir
  classText : ∀ entry ∈ s.vsysfsList,
    Starts "/sys/class/" entry.2.classDir ∨ Starts "/sys/bus/" entry.2.classDir
  vmoduleText : ∀ entry ∈ s.vmoduleList,
    ∃ x, Segment x ∧ entry.2.dir = pathText ["sys", "module", x]
  vsysfsIds : (s.vsysfsList.map Prod.fst).Nodup
  vmoduleIds : (s.vmoduleList.map Prod.fst).Nodup
  older : (∀ entry ∈ s.vsysfsList, entry.1 < s.fresh) ∧
    ∀ entry ∈ s.vmoduleList, entry.1 < s.fresh
  vsysfsDirs : (s.vsysfsList.map fun entry => entry.2.devicesDir).Nodup
  vmoduleDirs : (s.vmoduleList.map fun entry => entry.2.dir).Nodup
  attrsApart : ∀ entry ∈ s.vsysfsList, ∀ other ∈ s.vsysfsList,
    ∀ name ∈ Table.keys other.2.attrs, entry.2.devicesDir ≠ other.2.devicesDir ++ "/" ++ name

variable {s t : ObjectState}

theorem starts_devices {rest : Path} (hne : rest ≠ []) :
    Starts "/sys/devices/" (pathText ("sys" :: "devices" :: rest)) := by
  rw [devicesText_eq hne]
  exact .append _ _

theorem moduleText_eq (x : String) : pathText ["sys", "module", x] = "/sys/module/" ++ x := by
  simp [pathText, ← String.toList_inj]

theorem vdevText_eq (x : String) : pathText ["dev", x] = "/dev/" ++ x := by
  simp [pathText, ← String.toList_inj]

theorem starts_module (x : String) : Starts "/sys/module/" (pathText ["sys", "module", x]) := by
  rw [moduleText_eq]
  exact .append _ _

theorem starts_dev (x : String) : Starts "/dev/" (pathText ["dev", x]) := by
  rw [vdevText_eq]
  exact .append _ _

theorem ObjectState.Sound.starts_devicesDir (h : s.Sound) {entry : Nat × VsysfsObject}
    (hentry : entry ∈ s.vsysfsList) : Starts "/sys/devices/" entry.2.devicesDir := by
  obtain ⟨rest, hne, -, htext⟩ := h.vsysfsText entry hentry
  rw [htext]
  exact starts_devices hne

theorem ObjectState.Sound.starts_attr (h : s.Sound) {key : String}
    (hkey : AttrAt s.vsysfsList s.vmoduleList key) :
    (Starts "/sys/class/" key ∨ Starts "/sys/bus/" key) ∨
      (∃ entry ∈ s.vsysfsList, ∃ name ∈ Table.keys entry.2.attrs,
        key = entry.2.devicesDir ++ "/" ++ name) ∨
      ∃ entry ∈ s.vmoduleList, ∃ name, key = entry.2.dir ++ "/" ++ name := by
  rcases hkey with ⟨entry, hentry, dir, name, rfl | rfl, hname, rfl⟩ | ⟨entry, hentry, name, rfl⟩
  · exact .inl ((h.classText entry hentry).imp (·.join name) (·.join name))
  · exact .inr (.inl ⟨entry, hentry, name, hname, rfl⟩)
  · exact .inr (.inr ⟨entry, hentry, name, rfl⟩)

theorem ObjectState.Sound.no_attr_vdev (h : s.Sound) {x : String} :
    ¬AttrAt s.vsysfsList s.vmoduleList (pathText ["dev", x]) := by
  intro hkey
  have hdev := starts_dev x
  rcases h.starts_attr hkey with (hclass | hbus) | ⟨entry, hentry, name, -, heq⟩ |
    ⟨entry, hentry, name, heq⟩
  · exact hdev.ne hclass (by decide) rfl
  · exact hdev.ne hbus (by decide) rfl
  · exact hdev.ne ((h.starts_devicesDir hentry).join name) (by decide) heq
  · obtain ⟨y, -, hdir⟩ := h.vmoduleText entry hentry
    rw [hdir] at heq
    exact hdev.ne ((starts_module y).join name) (by decide) heq

theorem ObjectState.Sound.no_attr_vsysfs (h : s.Sound) {entry : Nat × VsysfsObject}
    (hentry : entry ∈ s.vsysfsList) :
    ¬AttrAt s.vsysfsList s.vmoduleList entry.2.devicesDir := by
  intro hkey
  have hdevices := h.starts_devicesDir hentry
  rcases h.starts_attr hkey with (hclass | hbus) | ⟨other, hother, name, hname, heq⟩ |
    ⟨other, hother, name, heq⟩
  · exact hdevices.ne hclass (by decide) rfl
  · exact hdevices.ne hbus (by decide) rfl
  · exact h.attrsApart entry hentry other hother name hname heq
  · obtain ⟨y, -, hdir⟩ := h.vmoduleText other hother
    rw [hdir] at heq
    exact hdevices.ne ((starts_module y).join name) (by decide) heq

theorem ObjectState.Sound.no_attr_vmodule (h : s.Sound) {entry : Nat × VmoduleObject}
    (hentry : entry ∈ s.vmoduleList) : ¬AttrAt s.vsysfsList s.vmoduleList entry.2.dir := by
  intro hkey
  obtain ⟨x, hx, hdir⟩ := h.vmoduleText entry hentry
  rw [hdir] at hkey
  have hmodule := starts_module x
  rcases h.starts_attr hkey with (hclass | hbus) | ⟨other, hother, name, -, heq⟩ |
    ⟨other, hother, name, heq⟩
  · exact hmodule.ne hclass (by decide) rfl
  · exact hmodule.ne hbus (by decide) rfl
  · exact hmodule.ne ((h.starts_devicesDir hother).join name) (by decide) heq
  · -- the name of a module has no slash
    obtain ⟨y, -, hother⟩ := h.vmoduleText other hother
    rw [hother, moduleText_eq, moduleText_eq, String.append_assoc, String.append_assoc] at heq
    have hsame := congrArg String.toList heq
    rw [String.toList_append, String.toList_append, List.append_cancel_left_eq] at hsame
    refine hx.2.2.2 ?_
    rw [hsame]
    simp

theorem ObjectState.holds_snapshot (s : ObjectState) :
    s.snapshot.Holds s.vdev.vdevList s.vsysfsList s.vmoduleList := holds_build

theorem vdevSegments {x : String} (hx : Segment x) : ∀ y ∈ ["dev", x], Segment y :=
  List.forall_mem_cons.mpr ⟨by decide, List.forall_mem_singleton.mpr hx⟩

theorem devicesSegments {rest : Path} (hrest : ∀ x ∈ rest, Segment x) :
    ∀ x ∈ "sys" :: "devices" :: rest, Segment x :=
  List.forall_mem_cons.mpr ⟨by decide, List.forall_mem_cons.mpr ⟨by decide, hrest⟩⟩

theorem moduleSegments {x : String} (hx : Segment x) : ∀ y ∈ ["sys", "module", x], Segment y :=
  List.forall_mem_cons.mpr ⟨by decide, List.forall_mem_cons.mpr ⟨by decide,
    List.forall_mem_singleton.mpr hx⟩⟩

theorem ObjectState.Sound.vdevPaths (h : s.Sound) :
    (s.vdev.vdevList.map fun entry => entry.2.path).Nodup := by
  have hpaths := h.vdev.paths
  unfold VdevState.vdevs at hpaths
  rwa [List.map_map] at hpaths

theorem ObjectState.Sound.resolve_vdev (h : s.Sound) {id : Nat} {v : VdevObject}
    (hv : (id, v) ∈ s.vdev.vdevList) :
    s.resolve v.path = some (.vdevNode ["dev", v.name] id) := by
  obtain ⟨hname, hpath⟩ := h.vdevText _ hv
  dsimp only at hname hpath
  have hne : v.path ≠ "" := by
    rw [hpath, vdevText_eq, ne_eq, ← String.toList_inj]
    simp
  have hbuilt : (Table.find s.snapshot.vfileNodes v.path).isSome = true := build_vdev hv hne
  obtain ⟨other, hfind⟩ := Option.isSome_iff_exists.mp hbuilt
  obtain ⟨w, hw, hsame⟩ := s.holds_snapshot.nodes _ _ hfind
  obtain ⟨rfl, rfl⟩ := Prod.mk.inj (List.inj_on_of_nodup_map h.vdevPaths hv hw hsame)
  rw [hpath] at hfind ⊢
  refine TextSnapshot.resolve_vdev (normalize_pathText (vdevSegments hname)) ?_ hfind
  exact Option.not_isSome_iff_eq_none.mp fun hsome =>
    h.no_attr_vdev (s.holds_snapshot.attrs _ hsome)

theorem ObjectState.Sound.no_node (h : s.Sound) {text front : String} (hstarts : Starts front text)
    (hapart : ¬front.toList <+: "/dev/".toList ∧ ¬"/dev/".toList <+: front.toList) :
    Table.find s.snapshot.vfileNodes text = none := by
  rw [Option.eq_none_iff_forall_ne_some]
  intro id hfind
  obtain ⟨v, hv, heq⟩ := s.holds_snapshot.nodes _ _ hfind
  obtain ⟨-, hpath⟩ := h.vdevText _ hv
  rw [hpath] at heq
  exact hstarts.ne (starts_dev v.name) hapart heq

theorem ObjectState.Sound.resolve_vsysfs (h : s.Sound) {id : Nat} {v : VsysfsObject}
    (hv : (id, v) ∈ s.vsysfsList) :
    ∃ p vmodule, s.resolve v.devicesDir = some (.vdir p (some id) vmodule) := by
  obtain ⟨rest, hne, hrest, hdir⟩ := h.vsysfsText _ hv
  dsimp only at hdir
  have hdevices := starts_devices hne
  have hnormal := normalize_pathText (devicesSegments hrest)
  have hclass : ∀ entry ∈ s.vsysfsList,
      pathText ("sys" :: "devices" :: rest) ≠ entry.2.classDir := by
    intro entry hentry
    rcases h.classText entry hentry with hstarts | hstarts
    · exact hdevices.ne hstarts (by decide)
    · exact hdevices.ne hstarts (by decide)
  have hconcrete : v.devicesDir ∈ v.concreteDirs := by
    unfold VsysfsObject.concreteDirs
    rw [if_neg (c := v.devicesDir = "" ∨ v.devicesDir = v.classDir)]
    · exact List.mem_append_right _ (List.mem_singleton.mpr rfl)
    · rw [hdir]
      rintro (hempty | heq)
      · rw [devicesText_eq hne, ← String.toList_inj] at hempty
        simp at hempty
      · exact hclass _ hv heq
  have hbuilt : isDir s.snapshot.tree ("sys" :: "devices" :: rest) ∧
      (Table.find s.snapshot.vsysfsDirs v.devicesDir).isSome = true :=
    build_vsysfs hv hconcrete (fun heq => hclass _ hv (hdir ▸ heq)) (hdir ▸ hnormal)
  obtain ⟨hisDir, hsome⟩ := hbuilt
  obtain ⟨other, hfind⟩ := Option.isSome_iff_exists.mp hsome
  obtain ⟨w, hw, hsame⟩ := s.holds_snapshot.vsysfsDirs _ _ hfind
  have hsame := hsame.resolve_left fun heq => hclass _ hw (hdir ▸ heq)
  obtain ⟨rfl, rfl⟩ := Prod.mk.inj (List.inj_on_of_nodup_map h.vsysfsDirs hv hw hsame)
  have hattr : Table.find s.snapshot.attrBindings v.devicesDir = none :=
    Option.not_isSome_iff_eq_none.mp fun hsome =>
      h.no_attr_vsysfs hv (s.holds_snapshot.attrs _ hsome)
  have hnode := h.no_node (hdir ▸ hdevices) (by decide)
  have hresolve : s.resolve _ = _ :=
    TextSnapshot.resolve_dir hnormal (hdir ▸ hattr) (hdir ▸ hnode) hisDir
  rw [← hdir, hfind] at hresolve
  exact ⟨_, _, hresolve⟩

theorem ObjectState.Sound.resolve_vmodule (h : s.Sound) {id : Nat} {m : VmoduleObject}
    (hm : (id, m) ∈ s.vmoduleList) :
    ∃ p vsysfs, s.resolve m.dir = some (.vdir p vsysfs (some id)) := by
  obtain ⟨x, hx, hdir⟩ := h.vmoduleText _ hm
  dsimp only at hdir
  have hnormal := normalize_pathText (moduleSegments hx)
  have hne : m.dir ≠ "" := by
    rw [hdir, moduleText_eq, ne_eq, ← String.toList_inj]
    simp
  have hbuilt : isDir s.snapshot.tree ["sys", "module", x] ∧
      (Table.find s.snapshot.vmoduleDirs m.dir).isSome = true :=
    build_vmodule hm hne (hdir ▸ hnormal)
  obtain ⟨hisDir, hsome⟩ := hbuilt
  obtain ⟨other, hfind⟩ := Option.isSome_iff_exists.mp hsome
  obtain ⟨w, hw, hsame⟩ := s.holds_snapshot.vmoduleDirs _ _ hfind
  obtain ⟨rfl, rfl⟩ := Prod.mk.inj (List.inj_on_of_nodup_map h.vmoduleDirs hm hw hsame)
  have hattr : Table.find s.snapshot.attrBindings m.dir = none :=
    Option.not_isSome_iff_eq_none.mp fun hsome =>
      h.no_attr_vmodule hm (s.holds_snapshot.attrs _ hsome)
  have hnode := h.no_node (starts_module x) (by decide)
  have hresolve : s.resolve _ = _ :=
    TextSnapshot.resolve_dir hnormal (hdir ▸ hattr) hnode hisDir
  rw [← hdir, hfind] at hresolve
  exact ⟨_, _, hresolve⟩

theorem ObjectState.Sound.canonical (h : s.Sound) {text : String} (htext : text ∈ s.paths) :
    ∃ p, (∀ x ∈ p, Segment x) ∧ text = pathText p := by
  unfold ObjectState.paths at htext
  rw [List.mem_append, List.mem_append] at htext
  rcases htext with (hvdev | hvsysfs) | hvmodule
  · obtain ⟨entry, hentry, rfl⟩ := List.mem_map.mp hvdev
    obtain ⟨hname, hpath⟩ := h.vdevText entry hentry
    exact ⟨_, vdevSegments hname, hpath⟩
  · obtain ⟨entry, hentry, rfl⟩ := List.mem_map.mp hvsysfs
    obtain ⟨rest, -, hrest, hdir⟩ := h.vsysfsText entry hentry
    exact ⟨_, devicesSegments hrest, hdir⟩
  · obtain ⟨entry, hentry, rfl⟩ := List.mem_map.mp hvmodule
    obtain ⟨x, hx, hdir⟩ := h.vmoduleText entry hentry
    exact ⟨_, moduleSegments hx, hdir⟩

/-- Texts of different kinds have different fronts. -/
theorem ObjectState.Sound.paths_nodup (h : s.Sound) : s.paths.Nodup := by
  unfold ObjectState.paths
  refine List.nodup_append'.mpr ⟨List.nodup_append'.mpr
    ⟨h.vdevPaths, h.vsysfsDirs, ?_⟩, h.vmoduleDirs, ?_⟩
  · intro text hvdev hvsysfs
    obtain ⟨entry, hentry, rfl⟩ := List.mem_map.mp hvdev
    obtain ⟨other, hother, heq⟩ := List.mem_map.mp hvsysfs
    rw [(h.vdevText entry hentry).2] at heq
    exact (h.starts_devicesDir hother).ne (starts_dev _) (by decide) heq
  · intro text hold hvmodule
    obtain ⟨entry, hentry, rfl⟩ := List.mem_map.mp hvmodule
    obtain ⟨x, hx, hdir⟩ := h.vmoduleText entry hentry
    rw [hdir] at hold
    rcases List.mem_append.mp hold with hvdev | hvsysfs
    · obtain ⟨other, hother, heq⟩ := List.mem_map.mp hvdev
      rw [(h.vdevText other hother).2] at heq
      exact (starts_dev _).ne (starts_module x) (by decide) heq
    · obtain ⟨other, hother, heq⟩ := List.mem_map.mp hvsysfs
      exact (h.starts_devicesDir hother).ne (starts_module x) (by decide) heq

theorem ObjectState.Sound.allReachable (h : s.Sound) : s.AllReachable := by
  refine ⟨?_, ?_, ?_, ?_⟩
  · intro id v hv
    exact ⟨_, h.resolve_vdev hv⟩
  · intro id v hv
    exact h.resolve_vsysfs hv
  · intro id m hm
    exact h.resolve_vmodule hm
  · refine h.paths_nodup.map_on fun text htext other hother heq => ?_
    obtain ⟨p, hp, rfl⟩ := h.canonical htext
    obtain ⟨q, hq, rfl⟩ := h.canonical hother
    rw [normalize_pathText hp, normalize_pathText hq] at heq
    rw [Option.some.inj heq]

end HostPimSim.Vfile.Namespace
