import HostPimSim.Lib.Table
import HostPimSim.Vfile.Attribute
import Mathlib.Data.List.Sort
import Mathlib.Data.String.Basic

/-! The immutable snapshot of the virtual namespace: what a build copies from the registered
objects, the maps it makes of that, and the two lookups.  A normalized absolute path is the
list of its segments. -/
namespace HostPimSim.Vfile.Namespace
open Attribute

abbrev Path := List String

/-- The `d_type` of a directory entry. -/
inductive DType where
  | unknown
  | chr
  | reg
  | dir
  | lnk
  deriving DecidableEq

inductive Owner where
  | vsysfs (id : Nat)
  | vmodule (id : Nat)
  deriving DecidableEq

/-- `vfile_attr_binding` -/
structure Binding where
  owner : Owner
  attrName : String
  deriving DecidableEq

/-- `vfile_virtual_fs_snapshot` -/
structure Snapshot where
  dirs : List (Path × List (String × DType))
  vfileNodes : List (Path × Nat)
  vsysfsDirs : List (Path × Nat)
  vmoduleDirs : List (Path × Nat)
  attrBindings : List (Path × Binding)
  deriving DecidableEq

/-- What `vfile_snapshot_prepare_vsysfs_seed` and `add_vsysfs_dir` read of an object;
`distinctGlobs` is `root_uses_distinct_globs`. -/
structure VsysfsSeed where
  classDir : Path
  devicesDir : Path
  distinctGlobs : Bool
  attrs : List String
  deriving DecidableEq

structure VmoduleSeed where
  dir : Path
  attrs : List String
  registeredDrivers : List (String × String)
  deriving DecidableEq

/-- All that a build copies, with the identity of each object. -/
structure Seeds where
  vdevs : List (Nat × Path)
  vsysfs : List (Nat × VsysfsSeed)
  vmodules : List (Nat × VmoduleSeed)
  deriving DecidableEq

def ensureDir (s : Snapshot) (path : Path) : Snapshot :=
  if (Table.find s.dirs path).isSome then s else { s with dirs := Table.put s.dirs path [] }

/-- `vfile_snapshot_add_child` -/
def addChild (s : Snapshot) (parent : Path) (name : String) (dtype : DType) : Snapshot :=
  if name = "" then s
  else
    let children := (Table.find s.dirs parent).getD []
    match Table.find children name with
    | none | some .unknown =>
        { s with dirs := Table.put s.dirs parent (Table.put children name dtype) }
    | some _ => s

/-- The loop of `vfile_snapshot_add_path` over the segments that are left. -/
def addSegments (s : Snapshot) (current : Path) (leafType : DType) : List String → Snapshot
  | [] => s
  | [name] =>
      let added := addChild s current name leafType
      if leafType = .dir then ensureDir added (current ++ [name]) else added
  | name :: rest =>
      addSegments (ensureDir (addChild s current name .dir) (current ++ [name]))
        (current ++ [name]) leafType rest

def addPath (s : Snapshot) (path : Path) (leafType : DType) : Snapshot :=
  addSegments (ensureDir s []) [] leafType path

def addVdev (s : Snapshot) (vdev : Nat × Path) : Snapshot :=
  let added := addPath s vdev.2 .chr
  { added with vfileNodes := Table.put added.vfileNodes vdev.2 vdev.1 }

/-- `emplace` keeps a binding that is there. -/
def emplace (bindings : List (Path × Binding)) (path : Path) (binding : Binding) :
    List (Path × Binding) :=
  if (Table.find bindings path).isSome then bindings else Table.put bindings path binding

/-- `bind_vsysfs_attr` and `bind_vmodule_attr` -/
def bindAttr (owner : Owner) (dir : Path) (s : Snapshot) (attrName : String) : Snapshot :=
  let added := addPath s (dir ++ [attrName]) .reg
  { added with attrBindings := emplace added.attrBindings (dir ++ [attrName]) ⟨owner, attrName⟩ }

def leafType (seed : VsysfsSeed) (dir : Path) : DType :=
  if seed.distinctGlobs = true ∧ dir = seed.classDir ∧ seed.classDir ≠ seed.devicesDir then .lnk
  else .dir

def addVsysfsDir (id : Nat) (seed : VsysfsSeed) (s : Snapshot) (dir : Path) : Snapshot :=
  let added := addPath s dir (leafType seed dir)
  seed.attrs.foldl (bindAttr (.vsysfs id) dir)
    { added with vsysfsDirs := Table.put added.vsysfsDirs dir id }

/-- `concrete_dirs` of the seed. -/
def VsysfsSeed.dirs (seed : VsysfsSeed) : List Path :=
  if seed.devicesDir = seed.classDir then [seed.classDir] else [seed.classDir, seed.devicesDir]

def addVsysfs (s : Snapshot) (vsysfs : Nat × VsysfsSeed) : Snapshot :=
  vsysfs.2.dirs.foldl (addVsysfsDir vsysfs.1 vsysfs.2) s

def driverPath (driver : String × String) : Path := ["sys", "bus", driver.1, "drivers", driver.2]

def addBusDriverDir (s : Snapshot) (driver : String × String) : Snapshot :=
  if driver.1 = "" ∨ driver.2 = "" then s else addPath s (driverPath driver) .dir

def addVmodule (s : Snapshot) (vmodule : Nat × VmoduleSeed) : Snapshot :=
  let added := addPath s vmodule.2.dir .dir
  let bound := vmodule.2.attrs.foldl (bindAttr (.vmodule vmodule.1) vmodule.2.dir)
    { added with vmoduleDirs := Table.put added.vmoduleDirs vmodule.2.dir vmodule.1 }
  vmodule.2.registeredDrivers.foldl addBusDriverDir bound

/-- `vfile_build_virtual_fs_snapshot_uncached` -/
def buildSnapshot (seeds : Seeds) : Snapshot :=
  seeds.vmodules.foldl addVmodule
    (seeds.vsysfs.foldl addVsysfs
      (seeds.vdevs.foldl addVdev (ensureDir ⟨[], [], [], [], []⟩ [])))

/-- `vfile_virtual_path_info` -/
inductive Node where
  | vdevNode (path : Path) (vdev : Nat)
  | attrNode (path : Path) (owner : Owner) (attrName : String) (size : Nat) (access : AccessMode)
  | vdir (path : Path) (vsysfs vmodule : Option Nat)
  deriving DecidableEq

/-- `vfile_try_resolve_attr_node`: the size and the access mode are those of now. -/
def tryResolveAttrNode (s : Snapshot) (live : Owner → String → Option Attr) (path : Path) :
    Option Node :=
  (Table.find s.attrBindings path).bind fun binding =>
    (live binding.owner binding.attrName).map fun attr =>
      .attrNode path binding.owner binding.attrName attr.value.length attr.access

def tryResolveVdevNode (s : Snapshot) (path : Path) : Option Node :=
  (Table.find s.vfileNodes path).map (.vdevNode path)

def tryResolveDirNode (s : Snapshot) (path : Path) : Option Node :=
  (Table.find s.dirs path).map fun _ =>
    .vdir path (Table.find s.vsysfsDirs path) (Table.find s.vmoduleDirs path)

/-- `vfile_resolve_virtual_node` of a snapshot. -/
def resolve (s : Snapshot) (live : Owner → String → Option Attr) (path : Path) : Option Node :=
  ((tryResolveAttrNode s live path).or (tryResolveVdevNode s path)).or (tryResolveDirNode s path)

/-- The children as `std::map` iterates over them. -/
def inNameOrder (children : List (String × DType)) : List (String × DType) :=
  children.insertionSort fun a b => a.1 ≤ b.1

theorem mem_inNameOrder {children : List (String × DType)} {row : String × DType} :
    row ∈ inNameOrder children ↔ row ∈ children := List.mem_insertionSort _

theorem keys_inNameOrder_perm (children : List (String × DType)) :
    (Table.keys (inNameOrder children)).Perm (Table.keys children) :=
  (List.perm_insertionSort _ children).map Prod.fst

/-- `vfile_collect_dirents` of a snapshot. -/
def collectDirents (s : Snapshot) (path : Path) : Option (List (String × DType)) :=
  (Table.find s.dirs path).map fun children =>
    (".", .dir) :: ("..", .dir) :: inNameOrder children

end HostPimSim.Vfile.Namespace
