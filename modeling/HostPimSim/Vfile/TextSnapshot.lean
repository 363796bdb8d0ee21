import HostPimSim.Lib.Transition
import HostPimSim.Vfile.DeviceNumbers
import HostPimSim.Vfile.PathText

/-! The snapshot with texts for keys, as it is built of objects with any names: a path is entered
into the tree of directories by its normal form, an object by the text that it stores.  A lookup
normalizes first. -/
namespace HostPimSim.Vfile.Namespace
open Attribute Transition

/-- `pim_vsysfs_root_t` -/
structure VsysfsRootObject where
  vdevRoot : Nat
  className : String
  kobjectName : String
  instanceNameGlob : String
  classGlob : String
  devicesGlob : String
  deriving DecidableEq

/-- `pim_vsysfs_t` -/
structure VsysfsObject where
  root : Nat
  classDir : String
  devicesDir : String
  attrs : List (String × Attr)
  deriving DecidableEq

/-- `pim_vmodule_t` -/
structure VmoduleObject where
  dir : String
  attrs : List (String × Attr)
  registeredDrivers : List (String × String)
  deriving DecidableEq

/-- `vfile_virtual_fs_snapshot`; only the directories of `tree` are used. -/
structure TextSnapshot where
  tree : Snapshot
  vfileNodes : List (String × Nat)
  vsysfsDirs : List (String × Nat)
  vmoduleDirs : List (String × Nat)
  attrBindings : List (String × Binding)
  deriving DecidableEq

/-- `vfile_snapshot_add_path` -/
def TextSnapshot.addPath (s : TextSnapshot) (absPath : String) (leafType : DType) :
    TextSnapshot :=
  match normalizeAbsolutePath absPath with
  | none => s
  | some p => { s with tree := Namespace.addPath s.tree p leafType }

def TextSnapshot.addVdev (s : TextSnapshot) (vdev : Nat × VdevObject) : TextSnapshot :=
  if vdev.2.path = "" then s
  else
    let added := s.addPath vdev.2.path .chr
    { added with vfileNodes := Table.put added.vfileNodes vdev.2.path vdev.1 }

def TextSnapshot.bindAttr (owner : Owner) (dir : String) (s : TextSnapshot) (attrName : String) :
    TextSnapshot :=
  let attrPath := dir ++ "/" ++ attrName
  let added := s.addPath attrPath .reg
  { added with attrBindings := Table.emplace added.attrBindings attrPath ⟨owner, attrName⟩ }

/-- `concrete_dirs` of `vfile_snapshot_prepare_vsysfs_seed` -/
def VsysfsObject.concreteDirs (v : VsysfsObject) : List String :=
  (if v.classDir = "" then [] else [v.classDir]) ++
    if v.devicesDir = "" ∨ v.devicesDir = v.classDir then [] else [v.devicesDir]

/-- The type that `add_vsysfs_dir` lists a directory with; `distinctGlobs` is
`root_uses_distinct_globs`. -/
def VsysfsObject.leafType (v : VsysfsObject) (distinctGlobs : Bool) (sampleDir : String) : DType :=
  if v.classDir ≠ "" ∧ v.devicesDir ≠ "" ∧ distinctGlobs = true ∧ sampleDir = v.classDir ∧
      v.classDir ≠ v.devicesDir then .lnk
  else .dir

def TextSnapshot.addVsysfsDir (distinctGlobs : Bool) (vsysfs : Nat × VsysfsObject)
    (s : TextSnapshot) (sampleDir : String) : TextSnapshot :=
  let added := s.addPath sampleDir (vsysfs.2.leafType distinctGlobs sampleDir)
  (Table.keys vsysfs.2.attrs).foldl (TextSnapshot.bindAttr (.vsysfs vsysfs.1) sampleDir)
    { added with vsysfsDirs := Table.put added.vsysfsDirs sampleDir vsysfs.1 }

def TextSnapshot.addVsysfs (distinctGlobs : VsysfsObject → Bool) (s : TextSnapshot)
    (vsysfs : Nat × VsysfsObject) : TextSnapshot :=
  vsysfs.2.concreteDirs.foldl (TextSnapshot.addVsysfsDir (distinctGlobs vsysfs.2) vsysfs) s

def TextSnapshot.addBusDriverDir (s : TextSnapshot) (driver : String × String) : TextSnapshot :=
  if driver.1 = "" ∨ driver.2 = "" then s
  else s.addPath ("/sys/bus/" ++ driver.1 ++ "/drivers/" ++ driver.2) .dir

def TextSnapshot.addVmodule (s : TextSnapshot) (vmodule : Nat × VmoduleObject) : TextSnapshot :=
  if vmodule.2.dir = "" then s
  else
    let added := s.addPath vmodule.2.dir .dir
    let bound := (Table.keys vmodule.2.attrs).foldl
      (TextSnapshot.bindAttr (.vmodule vmodule.1) vmodule.2.dir)
      { added with vmoduleDirs := Table.put added.vmoduleDirs vmodule.2.dir vmodule.1 }
    vmodule.2.registeredDrivers.foldl TextSnapshot.addBusDriverDir bound

def TextSnapshot.empty : TextSnapshot := ⟨ensureDir ⟨[], [], [], [], []⟩ [], [], [], [], []⟩

/-- `vfile_build_virtual_fs_snapshot_uncached` -/
def buildTextSnapshot (distinctGlobs : VsysfsObject → Bool) (vdevs : List (Nat × VdevObject))
    (vsysfs : List (Nat × VsysfsObject)) (vmodules : List (Nat × VmoduleObject)) :
    TextSnapshot :=
  vmodules.foldl TextSnapshot.addVmodule
    (vsysfs.foldl (TextSnapshot.addVsysfs distinctGlobs)
      (vdevs.foldl TextSnapshot.addVdev .empty))

/-- `vfile_resolve_virtual_node` of a snapshot; `live` has the attributes as they are now. -/
def TextSnapshot.resolve (s : TextSnapshot) (live : Owner → String → Option Attr)
    (absPath : String) : Option Node :=
  (normalizeAbsolutePath absPath).bind fun p =>
    (((Table.find s.attrBindings (pathText p)).bind fun binding =>
        (live binding.owner binding.attrName).map fun attr =>
          .attrNode p binding.owner binding.attrName attr.value.length attr.access).or
      ((Table.find s.vfileNodes (pathText p)).map (.vdevNode p))).or
      ((Table.find s.tree.dirs p).map fun _ =>
        .vdir p (Table.find s.vsysfsDirs (pathText p)) (Table.find s.vmoduleDirs (pathText p)))

theorem TextSnapshot.resolve_vdev {s : TextSnapshot} {live : Owner → String → Option Attr}
    {absPath : String} {p : Path} {id : Nat} (hnormal : normalizeAbsolutePath absPath = some p)
    (hattr : Table.find s.attrBindings (pathText p) = none)
    (hnode : Table.find s.vfileNodes (pathText p) = some id) :
    s.resolve live absPath = some (.vdevNode p id) := by
  unfold TextSnapshot.resolve
  rw [hnormal, Option.bind_some, hattr, hnode]
  rfl

theorem TextSnapshot.resolve_dir {s : TextSnapshot} {live : Owner → String → Option Attr}
    {absPath : String} {p : Path} (hnormal : normalizeAbsolutePath absPath = some p)
    (hattr : Table.find s.attrBindings (pathText p) = none)
    (hnode : Table.find s.vfileNodes (pathText p) = none) (hdir : isDir s.tree p) :
    s.resolve live absPath = some (.vdir p (Table.find s.vsysfsDirs (pathText p))
      (Table.find s.vmoduleDirs (pathText p))) := by
  obtain ⟨children, hchildren⟩ := Option.isSome_iff_exists.mp hdir
  unfold TextSnapshot.resolve
  rw [hnormal, Option.bind_some, hattr, hnode, hchildren]
  rfl

/-- All of `s` is still there in `t`. -/
structure TextSnapshot.Grows (s t : TextSnapshot) : Prop where
  dirs : ∀ p, isDir s.tree p → isDir t.tree p
  nodes : ∀ key, (Table.find s.vfileNodes key).isSome = true →
    (Table.find t.vfileNodes key).isSome = true
  vsysfs : ∀ key, (Table.find s.vsysfsDirs key).isSome = true →
    (Table.find t.vsysfsDirs key).isSome = true
  vmodules : ∀ key, (Table.find s.vmoduleDirs key).isSome = true →
    (Table.find t.vmoduleDirs key).isSome = true

variable {s t u : TextSnapshot}

theorem TextSnapshot.Grows.refl (s : TextSnapshot) : s.Grows s :=
  ⟨fun _ h => h, fun _ h => h, fun _ h => h, fun _ h => h⟩

theorem TextSnapshot.Grows.trans (s t u : TextSnapshot) (h : s.Grows t) (h' : t.Grows u) :
    s.Grows u :=
  ⟨fun p hp => h'.dirs p (h.dirs p hp), fun key hkey => h'.nodes key (h.nodes key hkey),
    fun key hkey => h'.vsysfs key (h.vsysfs key hkey),
    fun key hkey => h'.vmodules key (h.vmodules key hkey)⟩

theorem isSome_find_put {rows : List (String × Nat)} {key other : String} {value : Nat}
    (h : (Table.find rows other).isSome = true) :
    (Table.find (Table.put rows key value) other).isSome = true := by
  rw [Table.find_put]
  split
  · rfl
  · exact h

theorem isDir_addPath {tree : Snapshot} {p q : Path} {leaf : DType} (hp : ∀ x ∈ p, x ≠ "") :
    isDir (Namespace.addPath tree p leaf) q ↔
      isDir tree q ∨ q <+: p ∧ (q ≠ p ∨ leaf = .dir ∨ p = []) := by
  unfold Namespace.addPath
  rcases eq_or_ne p [] with rfl | hne
  · unfold addSegments
    rw [isDir_ensureDir]
    simp [List.prefix_nil]
  · rw [(adds_segments _ [] leaf hne hp).dir, isDir_ensureDir]
    constructor
    · rintro ((hold | rfl) | ⟨front, rfl, hfront, hleaf⟩)
      · exact .inl hold
      · exact .inr ⟨List.nil_prefix, .inl hne.symm⟩
      · exact .inr ⟨hfront, hleaf.imp id .inl⟩
    · rintro (hold | ⟨hfront, hleaf⟩)
      · exact .inl (.inl hold)
      · refine .inr ⟨q, rfl, hfront, ?_⟩
        exact hleaf.imp id fun h => h.resolve_right hne

theorem TextSnapshot.grows_addPath (s : TextSnapshot) (absPath : String) (leaf : DType) :
    s.Grows (s.addPath absPath leaf) := by
  unfold TextSnapshot.addPath
  split
  · exact .refl s
  · rename_i p hnormal
    have hnames : ∀ x ∈ p, x ≠ "" := fun x hx => (segments_of_normalize hnormal x hx).1
    exact ⟨fun q hq => (isDir_addPath hnames).mpr (.inl hq), fun _ h => h, fun _ h => h,
      fun _ h => h⟩

theorem isDir_textAddPath (s : TextSnapshot) {absPath : String} {p : Path}
    (h : normalizeAbsolutePath absPath = some p) :
    isDir (s.addPath absPath .dir).tree p := by
  unfold TextSnapshot.addPath
  rw [h]
  have hnames : ∀ x ∈ p, x ≠ "" := fun x hx => (segments_of_normalize h x hx).1
  exact (isDir_addPath hnames).mpr (.inr ⟨List.prefix_refl p, .inr (.inl rfl)⟩)

theorem TextSnapshot.grows_bindAttrs (owner : Owner) (dir : String) (s : TextSnapshot)
    (names : List String) : s.Grows (names.foldl (TextSnapshot.bindAttr owner dir) s) := by
  refine foldl_grows Grows.refl Grows.trans (fun s name => ?_) s names
  obtain ⟨hdirs, hnodes, hvsysfs, hvmodules⟩ := s.grows_addPath (dir ++ "/" ++ name) .reg
  exact ⟨hdirs, hnodes, hvsysfs, hvmodules⟩

theorem TextSnapshot.grows_addVdev (s : TextSnapshot) (vdev : Nat × VdevObject) :
    s.Grows (s.addVdev vdev) := by
  unfold TextSnapshot.addVdev
  split
  · exact .refl s
  · obtain ⟨hdirs, hnodes, hvsysfs, hvmodules⟩ := s.grows_addPath vdev.2.path .chr
    exact ⟨hdirs, fun key hkey => isSome_find_put (hnodes key hkey), hvsysfs, hvmodules⟩

theorem TextSnapshot.grows_addVsysfsDir (distinctGlobs : Bool) (vsysfs : Nat × VsysfsObject)
    (s : TextSnapshot) (dir : String) : s.Grows (s.addVsysfsDir distinctGlobs vsysfs dir) := by
  refine Grows.trans _ _ _ ?_ (TextSnapshot.grows_bindAttrs _ dir _ _)
  obtain ⟨hdirs, hnodes, hvsysfs, hvmodules⟩ :=
    s.grows_addPath dir (vsysfs.2.leafType distinctGlobs dir)
  exact ⟨hdirs, hnodes, fun key hkey => isSome_find_put (hvsysfs key hkey), hvmodules⟩

theorem TextSnapshot.grows_addVsysfs (distinctGlobs : VsysfsObject → Bool) (s : TextSnapshot)
    (vsysfs : Nat × VsysfsObject) : s.Grows (s.addVsysfs distinctGlobs vsysfs) :=
  foldl_grows Grows.refl Grows.trans (TextSnapshot.grows_addVsysfsDir _ vsysfs) s _

theorem TextSnapshot.grows_addBusDriverDir (s : TextSnapshot) (driver : String × String) :
    s.Grows (s.addBusDriverDir driver) := by
  unfold TextSnapshot.addBusDriverDir
  split
  · exact .refl s
  · exact s.grows_addPath _ _

theorem TextSnapshot.grows_addBusDriverDirs (s : TextSnapshot) (drivers : List (String × String)) :
    s.Grows (drivers.foldl TextSnapshot.addBusDriverDir s) :=
  foldl_grows Grows.refl Grows.trans TextSnapshot.grows_addBusDriverDir s drivers

theorem TextSnapshot.grows_addVmodule (s : TextSnapshot) (vmodule : Nat × VmoduleObject) :
    s.Grows (s.addVmodule vmodule) := by
  unfold TextSnapshot.addVmodule
  split
  · exact .refl s
  · refine Grows.trans _ _ _ ?_ (TextSnapshot.grows_addBusDriverDirs _ _)
    refine Grows.trans _ _ _ ?_ (TextSnapshot.grows_bindAttrs _ _ _ _)
    obtain ⟨hdirs, hnodes, hvsysfs, hvmodules⟩ := s.grows_addPath vmodule.2.dir .dir
    exact ⟨hdirs, hnodes, hvsysfs, fun key hkey => isSome_find_put (hvmodules key hkey)⟩

theorem TextSnapshot.grows_addVsysfsList (distinctGlobs : VsysfsObject → Bool) (s : TextSnapshot)
    (vsysfs : List (Nat × VsysfsObject)) :
    s.Grows (vsysfs.foldl (TextSnapshot.addVsysfs distinctGlobs) s) :=
  foldl_grows Grows.refl Grows.trans (TextSnapshot.grows_addVsysfs distinctGlobs) s vsysfs

theorem TextSnapshot.grows_addVmoduleList (s : TextSnapshot)
    (vmodules : List (Nat × VmoduleObject)) :
    s.Grows (vmodules.foldl TextSnapshot.addVmodule s) :=
  foldl_grows Grows.refl Grows.trans TextSnapshot.grows_addVmodule s vmodules

variable {distinctGlobs : VsysfsObject → Bool} {vdevs : List (Nat × VdevObject)}
  {vsysfs : List (Nat × VsysfsObject)} {vmodules : List (Nat × VmoduleObject)}

theorem build_vdev {vdev : Nat × VdevObject} (h : vdev ∈ vdevs) (hpath : vdev.2.path ≠ "") :
    (Table.find (buildTextSnapshot distinctGlobs vdevs vsysfs vmodules).vfileNodes
      vdev.2.path).isSome = true := by
  obtain ⟨s, hgrows⟩ := foldl_reaches TextSnapshot.Grows.refl TextSnapshot.Grows.trans
    TextSnapshot.grows_addVdev .empty h
  have hvsysfs := TextSnapshot.grows_addVsysfsList distinctGlobs
    (vdevs.foldl TextSnapshot.addVdev .empty) vsysfs
  have hvmodules := TextSnapshot.grows_addVmoduleList
    (vsysfs.foldl (TextSnapshot.addVsysfs distinctGlobs)
      (vdevs.foldl TextSnapshot.addVdev .empty)) vmodules
  refine hvmodules.nodes _ (hvsysfs.nodes _ (hgrows.nodes _ ?_))
  unfold TextSnapshot.addVdev
  rw [if_neg hpath]
  exact Option.isSome_iff_exists.mpr ⟨_, Table.find_put_self⟩

theorem build_vsysfs {object : Nat × VsysfsObject} (h : object ∈ vsysfs)
    (hdir : object.2.devicesDir ∈ object.2.concreteDirs)
    (hne : object.2.devicesDir ≠ object.2.classDir) {p : Path}
    (hnormal : normalizeAbsolutePath object.2.devicesDir = some p) :
    isDir (buildTextSnapshot distinctGlobs vdevs vsysfs vmodules).tree p ∧
      (Table.find (buildTextSnapshot distinctGlobs vdevs vsysfs vmodules).vsysfsDirs
        object.2.devicesDir).isSome = true := by
  obtain ⟨s, hobject⟩ := foldl_reaches TextSnapshot.Grows.refl TextSnapshot.Grows.trans
    (TextSnapshot.grows_addVsysfs distinctGlobs) (vdevs.foldl TextSnapshot.addVdev .empty) h
  obtain ⟨s', hdirs⟩ := foldl_reaches TextSnapshot.Grows.refl TextSnapshot.Grows.trans
    (TextSnapshot.grows_addVsysfsDir (distinctGlobs object.2) object) s hdir
  have hvmodules := TextSnapshot.grows_addVmoduleList
    (vsysfs.foldl (TextSnapshot.addVsysfs distinctGlobs)
      (vdevs.foldl TextSnapshot.addVdev .empty)) vmodules
  have hall := (hdirs.trans _ _ _ hobject).trans _ _ _ hvmodules
  have hleaf : object.2.leafType (distinctGlobs object.2) object.2.devicesDir = .dir := by
    unfold VsysfsObject.leafType
    rw [if_neg fun h => hne h.2.2.2.1]
  have hattrs := TextSnapshot.grows_bindAttrs (.vsysfs object.1) object.2.devicesDir
  constructor
  · refine hall.dirs p ((hattrs _ _).dirs p ?_)
    rw [hleaf]
    exact isDir_textAddPath s' hnormal
  · refine hall.vsysfs _ ((hattrs _ _).vsysfs _ ?_)
    exact Option.isSome_iff_exists.mpr ⟨_, Table.find_put_self⟩

theorem build_vmodule {object : Nat × VmoduleObject} (h : object ∈ vmodules)
    (hdir : object.2.dir ≠ "") {p : Path} (hnormal : normalizeAbsolutePath object.2.dir = some p) :
    isDir (buildTextSnapshot distinctGlobs vdevs vsysfs vmodules).tree p ∧
      (Table.find (buildTextSnapshot distinctGlobs vdevs vsysfs vmodules).vmoduleDirs
        object.2.dir).isSome = true := by
  obtain ⟨s, hobject⟩ := foldl_reaches TextSnapshot.Grows.refl TextSnapshot.Grows.trans
    TextSnapshot.grows_addVmodule
    (vsysfs.foldl (TextSnapshot.addVsysfs distinctGlobs)
      (vdevs.foldl TextSnapshot.addVdev .empty)) h
  unfold TextSnapshot.addVmodule at hobject
  rw [if_neg hdir] at hobject
  have hdrivers := TextSnapshot.grows_addBusDriverDirs
  have hattrs := TextSnapshot.grows_bindAttrs (.vmodule object.1) object.2.dir
  constructor
  · refine hobject.dirs p ((hdrivers _ _).dirs p ((hattrs _ _).dirs p ?_))
    exact isDir_textAddPath s hnormal
  · refine hobject.vmodules _ ((hdrivers _ _).vmodules _ ((hattrs _ _).vmodules _ ?_))
    exact Option.isSome_iff_exists.mpr ⟨_, Table.find_put_self⟩

def AttrAt (vsysfs : List (Nat × VsysfsObject)) (vmodules : List (Nat × VmoduleObject))
    (key : String) : Prop :=
  (∃ object ∈ vsysfs, ∃ dir name, (dir = object.2.classDir ∨ dir = object.2.devicesDir) ∧
    name ∈ Table.keys object.2.attrs ∧ key = dir ++ "/" ++ name) ∨
  ∃ object ∈ vmodules, ∃ name, key = object.2.dir ++ "/" ++ name

structure TextSnapshot.Holds (vdevs : List (Nat × VdevObject))
    (vsysfs : List (Nat × VsysfsObject)) (vmodules : List (Nat × VmoduleObject))
    (s : TextSnapshot) : Prop where
  nodes : ∀ key id, Table.find s.vfileNodes key = some id → ∃ v, (id, v) ∈ vdevs ∧ key = v.path
  vsysfsDirs : ∀ key id, Table.find s.vsysfsDirs key = some id →
    ∃ v, (id, v) ∈ vsysfs ∧ (key = v.classDir ∨ key = v.devicesDir)
  vmoduleDirs : ∀ key id, Table.find s.vmoduleDirs key = some id →
    ∃ m, (id, m) ∈ vmodules ∧ key = m.dir
  attrs : ∀ key, (Table.find s.attrBindings key).isSome = true → AttrAt vsysfs vmodules key

theorem TextSnapshot.Holds.addPath (h : s.Holds vdevs vsysfs vmodules) (absPath : String)
    (leaf : DType) : (s.addPath absPath leaf).Holds vdevs vsysfs vmodules := by
  unfold TextSnapshot.addPath
  split
  · exact h
  · exact ⟨h.nodes, h.vsysfsDirs, h.vmoduleDirs, h.attrs⟩

theorem TextSnapshot.Holds.bindAttrs (h : s.Holds vdevs vsysfs vmodules) {owner : Owner}
    {dir : String} {names : List String}
    (hnames : ∀ name ∈ names, AttrAt vsysfs vmodules (dir ++ "/" ++ name)) :
    (names.foldl (TextSnapshot.bindAttr owner dir) s).Holds vdevs vsysfs vmodules := by
  refine List.foldlRecOn names _ h fun s hs name hname => ?_
  obtain ⟨hnodes, hvsysfs, hvmodules, hattrs⟩ := hs.addPath (dir ++ "/" ++ name) .reg
  refine ⟨hnodes, hvsysfs, hvmodules, fun key hkey => ?_⟩
  unfold TextSnapshot.bindAttr at hkey
  dsimp only at hkey
  rw [Table.find_emplace] at hkey
  split at hkey
  · rename_i hnew
    rw [hnew.1]
    exact hnames name hname
  · exact hattrs key hkey

theorem mem_concreteDirs {v : VsysfsObject} {dir : String} (h : dir ∈ v.concreteDirs) :
    dir = v.classDir ∨ dir = v.devicesDir := by
  unfold VsysfsObject.concreteDirs at h
  rcases List.mem_append.mp h with hclass | hdevices
  · split at hclass
    · cases hclass
    · exact .inl (List.mem_singleton.mp hclass)
  · split at hdevices
    · cases hdevices
    · exact .inr (List.mem_singleton.mp hdevices)

theorem holds_build : (buildTextSnapshot distinctGlobs vdevs vsysfs vmodules).Holds vdevs vsysfs
    vmodules := by
  have hempty : TextSnapshot.empty.Holds vdevs vsysfs vmodules := by
    refine ⟨?_, ?_, ?_, ?_⟩
    · intro key id hfind
      cases hfind
    · intro key id hfind
      cases hfind
    · intro key id hfind
      cases hfind
    · intro key hfind
      cases hfind
  refine List.foldlRecOn vmodules _ (List.foldlRecOn vsysfs _
    (List.foldlRecOn vdevs _ hempty ?_) ?_) ?_
  · intro s hs vdev hmem
    unfold TextSnapshot.addVdev
    split
    · exact hs
    · obtain ⟨hnodes, hvsysfs, hvmodules, hattrs⟩ := hs.addPath vdev.2.path .chr
      refine ⟨fun key id hfind => ?_, hvsysfs, hvmodules, hattrs⟩
      dsimp only at hfind
      rw [Table.find_put] at hfind
      split at hfind
      · rename_i hkey
        obtain rfl := Option.some.inj hfind
        exact ⟨vdev.2, hmem, hkey⟩
      · exact hnodes key id hfind
  · intro s hs object hmem
    refine List.foldlRecOn _ _ hs fun s hs dir hdir => ?_
    have hown := mem_concreteDirs hdir
    refine TextSnapshot.Holds.bindAttrs ?_ fun name hname =>
      .inl ⟨object, hmem, dir, name, hown, hname, rfl⟩
    obtain ⟨hnodes, hvsysfs, hvmodules, hattrs⟩ :=
      hs.addPath dir (object.2.leafType (distinctGlobs object.2) dir)
    refine ⟨hnodes, fun key id hfind => ?_, hvmodules, hattrs⟩
    dsimp only at hfind
    rw [Table.find_put] at hfind
    split at hfind
    · rename_i hkey
      obtain rfl := Option.some.inj hfind
      rw [hkey]
      exact ⟨object.2, hmem, hown⟩
    · exact hvsysfs key id hfind
  · intro s hs object hmem
    unfold TextSnapshot.addVmodule
    split
    · exact hs
    · refine List.foldlRecOn _ _ (TextSnapshot.Holds.bindAttrs ?_ fun name _ =>
        .inr ⟨object, hmem, name, rfl⟩) ?_
      · obtain ⟨hnodes, hvsysfs, hvmodules, hattrs⟩ := hs.addPath object.2.dir .dir
        refine ⟨hnodes, hvsysfs, fun key id hfind => ?_, hattrs⟩
        dsimp only at hfind
        rw [Table.find_put] at hfind
        split at hfind
        · rename_i hkey
          obtain rfl := Option.some.inj hfind
          exact ⟨object.2, hmem, hkey⟩
        · exact hvmodules key id hfind
      · intro s hs driver _
        unfold TextSnapshot.addBusDriverDir
        split
        · exact hs
        · exact hs.addPath _ _

end HostPimSim.Vfile.Namespace
