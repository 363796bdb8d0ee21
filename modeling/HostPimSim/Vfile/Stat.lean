import Mathlib.Data.List.DropRight
import HostPimSim.Vfile.VirtualState

/-! What `newfstatat` and `statx` report of a virtual path, and the links they know.  `std::hash`
is an argument; user, group and block size are the same in all reports and left out. -/
namespace HostPimSim.Vfile.Namespace
open Attribute

/-- `vsyscall_is_vsysfs_class_symlink_node`, with the target it stores. -/
def classSymlink (st : VirtualState) : Node → Option String
  | .vdir path (some id) _ =>
      match st.vsysfs id with
      | some v =>
          if v.distinctGlobs = true ∧ v.classDir ≠ "" ∧ v.devicesDir ≠ "" ∧
              v.classDir ≠ v.devicesDir ∧ pathText path = v.classDir then
            some v.devicesDir
          else none
      | none => none
  | _ => none

/-- `vsyscall_is_virtual_attr_symlink_name`, which modules only have one of. -/
def isAttrSymlinkName : Owner → String → Bool
  | .vsysfs _, name => name == "subsystem" || name == "device"
  | .vmodule _, name => name == "subsystem"

def textOf (value : List UInt8) : String :=
  String.ofList (value.map fun byte => Char.ofNat byte.toNat)

def attrTarget (live : Owner → String → Option Attr) (trims : Char → Bool) (owner : Owner)
    (name : String) : Option String :=
  if isAttrSymlinkName owner name then
    (live owner name).bind fun attr =>
      let target := String.ofList ((textOf attr.value).toList.rdropWhile trims)
      if target = "" then none else some target
  else none

/-- `vsyscall_trim_virtual_symlink_target` -/
def trimsSymlink (c : Char) : Bool := c == '\n' || c == '\r'

/-- `vsyscall_try_get_virtual_attr_symlink_target` -/
def attrSymlink (st : VirtualState) : Node → Option String
  | .attrNode _ owner name _ _ => attrTarget st.live trimsSymlink owner name
  | _ => none

inductive FileType where
  | chr
  | dir
  | reg
  | lnk
  deriving DecidableEq

def FileType.dtype : FileType → DType
  | .chr => .chr
  | .dir => .dir
  | .reg => .reg
  | .lnk => .lnk

/-- The `struct stat` of a virtual object. -/
structure Stat where
  type : FileType
  perm : Nat
  nlink : Nat
  size : Nat
  blocks : Nat
  rdev : BitVec 64
  ino : BitVec 64
  deriving DecidableEq

def statBlocks (size : Nat) : Nat := (size + 511) / 512

def makedev (major minor : BitVec 32) : BitVec 64 :=
  (major &&& 0xfff).setWidth 64 <<< 8 ||| (major &&& 0xfffff000).setWidth 64 <<< 32 |||
    (minor &&& 0xff).setWidth 64 ||| (minor &&& 0xffffff00).setWidth 64 <<< 12

def devMajor (dev : BitVec 64) : BitVec 32 :=
  ((dev >>> 8) &&& 0xfff ||| (dev >>> 32) &&& 0xfffff000).setWidth 32

def devMinor (dev : BitVec 64) : BitVec 32 :=
  (dev &&& 0xff ||| (dev >>> 12) &&& 0xffffff00).setWidth 32

/-- `vsyscall_vsysfs_attr_perm_bits` -/
def attrPermBits : AccessMode → Nat
  | .none => 0
  | .ro => 0o444
  | .wo => 0o222
  | .rw => 0o644

/-- `vsyscall_stat_kind`, with what `vsyscall_apply_stat_kind` takes for each. -/
inductive StatKind where
  | chrDevice (major minor : BitVec 32)
  | dir
  | regAttr (size : Nat) (access : AccessMode)

def applyStatKind (ino : BitVec 64) : StatKind → Stat
  | .chrDevice major minor => ⟨.chr, 0o600, 1, 0, 0, makedev major minor, ino⟩
  | .dir => ⟨.dir, 0o555, 2, 0, 0, 0, ino⟩
  | .regAttr size access => ⟨.reg, attrPermBits access, 1, size, statBlocks size, 0, ino⟩

/-- `kVsyscallVirtualChrRdevMajor` and `kVsyscallVirtualChrRdevMinor` -/
def defaultRdev : BitVec 32 × BitVec 32 := (1, 3)

def Node.path : Node → Path
  | .vdevNode path _ | .attrNode path _ _ _ _ | .vdir path _ _ => path

def Node.isDir : Node → Bool
  | .vdir _ _ _ => true
  | _ => false

def Node.statKind (st : VirtualState) : Node → StatKind
  | .vdevNode _ id =>
      let rdev := (st.vdev id).getD defaultRdev
      .chrDevice rdev.1 rdev.2
  | .attrNode _ _ _ size access => .regAttr size access
  | .vdir _ _ _ => .dir

section

variable (hash : String → BitVec 64)

def buildSymlinkStat (target : String) : Stat :=
  ⟨.lnk, 0o777, 1, target.length, statBlocks target.length, 0, hash target⟩

def buildStatFromVirtualPath (st : VirtualState) (node : Node) : Stat :=
  applyStatKind (hash (pathText node.path)) (node.statKind st)

/-- What `vsyscall_dispatch_lookup_stat` fills its result from. -/
inductive Described where
  | link (target : String)
  | node (found : Node)
  deriving DecidableEq

def Described.stat (st : VirtualState) : Described → Stat
  | .link target => buildSymlinkStat hash target
  | .node found => buildStatFromVirtualPath hash st found

end

def hasTrailingSlash (pathname : String) : Bool := pathname.toList.getLast? == some '/'

/-- `vsyscall_dispatch_lookup_node_from_resolved_path`; `none` leaves the call to the kernel. -/
def lookupNode (st : VirtualState) (path : Path) (trailingSlash : Bool) :
    Option (Except Errno Node) :=
  (resolve st.snapshot st.live path).map fun node =>
    if trailingSlash = true ∧ node.isDir = false then .error .enotdir else .ok node

/-- `vsyscall_dispatch_resolve_node` of an absolute pathname. -/
def dispatchResolveNode (st : VirtualState) (pathname : String) : Option (Except Errno Node) :=
  (normalizeAbsolutePath pathname).bind fun path =>
    lookupNode st path (hasTrailingSlash pathname)

/-- `vfile_resolve_virtual_node` of the target of a link. -/
def resolveTarget (st : VirtualState) (target : String) : Except Errno Node :=
  match normalizeAbsolutePath target with
  | none => .error .einval
  | some path =>
      match resolve st.snapshot st.live path with
      | none => .error .enoent
      | some node => .ok node

/-- `vsyscall_dispatch_lookup_stat` on a node. -/
def describe (st : VirtualState) (nofollow : Bool) (node : Node) : Except Errno Described :=
  match (classSymlink st node).or (attrSymlink st node) with
  | none => .ok (.node node)
  | some target =>
      if nofollow then .ok (.link target) else (resolveTarget st target).map .node

def lookupDescribed (st : VirtualState) (pathname : String) (nofollow : Bool) :
    Option (Except Errno Described) :=
  (dispatchResolveNode st pathname).map fun resolved => resolved.bind (describe st nofollow)

/-- `dispatch_newfstatat` of an absolute pathname. -/
def newfstatat (hash : String → BitVec 64) (st : VirtualState) (pathname : String)
    (nofollow : Bool) : Option (Except Errno Stat) :=
  (lookupDescribed st pathname nofollow).map fun described =>
    described.map (Described.stat hash st)

/-- `vsyscall_fill_statx_from_stat` -/
structure Statx where
  type : FileType
  perm : Nat
  nlink : Nat
  size : Nat
  blocks : Nat
  rdevMajor : BitVec 32
  rdevMinor : BitVec 32
  ino : BitVec 64
  deriving DecidableEq

def fillStatxFromStat (s : Stat) : Statx :=
  ⟨s.type, s.perm, s.nlink, s.size, s.blocks, devMajor s.rdev, devMinor s.rdev, s.ino⟩

variable {st : VirtualState} {pathname : String} {node : Node} {p : Path} {s : Snapshot}
  {live : Owner → String → Option Attr}

theorem resolve_cases (h : resolve s live p = some node) :
    (∃ b attr, Table.find s.attrBindings p = some b ∧ live b.owner b.attrName = some attr ∧
      node = .attrNode p b.owner b.attrName attr.value.length attr.access) ∨
    (∃ id, Table.find s.vfileNodes p = some id ∧ node = .vdevNode p id) ∨
    (Namespace.isDir s p ∧
      node = .vdir p (Table.find s.vsysfsDirs p) (Table.find s.vmoduleDirs p)) := by
  unfold resolve at h
  rw [Option.or_eq_some_iff, Option.or_eq_some_iff] at h
  rcases h with (hattr | ⟨-, hvdev⟩) | ⟨-, hdir⟩
  · obtain ⟨b, hb, hlive⟩ := Option.bind_eq_some_iff.mp hattr
    obtain ⟨attr, hfound, rfl⟩ := Option.map_eq_some_iff.mp hlive
    exact .inl ⟨b, attr, hb, hfound, rfl⟩
  · obtain ⟨id, hid, rfl⟩ := Option.map_eq_some_iff.mp hvdev
    exact .inr (.inl ⟨id, hid, rfl⟩)
  · obtain ⟨children, hfind, rfl⟩ := Option.map_eq_some_iff.mp hdir
    refine .inr (.inr ⟨?_, rfl⟩)
    unfold Namespace.isDir
    rw [hfind]
    rfl

theorem path_of_resolve (h : resolve s live p = some node) : node.path = p := by
  rcases resolve_cases h with ⟨b, attr, -, -, rfl⟩ | ⟨id, -, rfl⟩ | ⟨-, rfl⟩ <;> rfl

theorem dispatchResolveNode_ok (h : dispatchResolveNode st pathname = some (.ok node)) :
    normalizeAbsolutePath pathname = some node.path ∧
      resolve st.snapshot st.live node.path = some node := by
  obtain ⟨path, hpath, hlookup⟩ := Option.bind_eq_some_iff.mp h
  obtain ⟨found, hfound, hnode⟩ := Option.map_eq_some_iff.mp hlookup
  split at hnode
  · cases hnode
  · cases hnode
    rw [path_of_resolve hfound]
    exact ⟨hpath, hfound⟩

theorem newfstatat_ok (hash : String → BitVec 64) {nofollow : Bool} {described : Described}
    (hnode : dispatchResolveNode st pathname = some (.ok node))
    (h : describe st nofollow node = .ok described) :
    newfstatat hash st pathname nofollow = some (.ok (described.stat hash st)) := by
  unfold newfstatat lookupDescribed
  rw [hnode, Option.map_some, Option.map_some]
  change some ((describe st nofollow node).map (Described.stat hash st)) = _
  rw [h]
  rfl

theorem describe_of_no_link {nofollow : Bool} (hclass : classSymlink st node = none)
    (hattr : attrSymlink st node = none) : describe st nofollow node = .ok (.node node) := by
  unfold describe
  rw [hclass, hattr]
  rfl

theorem node_of_newfstatat {hash : String → BitVec 64} {nofollow : Bool} {named : Stat}
    (h : newfstatat hash st pathname nofollow = some (.ok named)) :
    ∃ node, dispatchResolveNode st pathname = some (.ok node) := by
  obtain ⟨described, hdescribed, hstat⟩ := Option.map_eq_some_iff.mp h
  obtain ⟨resolved, hresolved, rfl⟩ := Option.map_eq_some_iff.mp hdescribed
  cases resolved with
  | error errno => cases hstat
  | ok node => exact ⟨node, hresolved⟩

theorem classSymlink_some {target : String} (h : classSymlink st node = some target) :
    ∃ path vsysfs vmodule id v, node = .vdir path vsysfs vmodule ∧ vsysfs = some id ∧
      st.vsysfs id = some v ∧ pathText path = v.classDir ∧ v.classDir ≠ v.devicesDir ∧
      target = v.devicesDir := by
  unfold classSymlink at h
  split at h
  · rename_i path id vmodule
    split at h
    · rename_i v hv
      split at h
      · rename_i hlink
        cases h
        exact ⟨path, some id, vmodule, id, v, rfl, rfl, hv, hlink.2.2.2.2, hlink.2.2.2.1, rfl⟩
      · cases h
    · cases h
  · cases h

theorem ClassText.three_lt_length {classDir : String} (h : ClassText classDir)
    (hp : ∀ x ∈ p, Segment x) (htext : pathText p = classDir) : 3 < p.length := by
  have hcount : 3 < (pathText p).toList.count '/' := by
    rw [htext]
    obtain ⟨a, b, rfl | rfl⟩ := h
    · simp only [String.toList_append, List.count_append]
      have hfixed : "/sys/class/".toList.count '/' = 3 := by decide
      have hslash : "/".toList.count '/' = 1 := by decide
      omega
    · simp only [String.toList_append, List.count_append]
      have hfixed : "/sys/bus/".toList.count '/' = 3 := by decide
      have hslash : "/devices/".toList.count '/' = 2 := by decide
      omega
  rcases eq_or_ne p [] with rfl | hne
  · exact absurd hcount (by decide)
  · rw [← count_pathText hne hp]
    exact hcount

end HostPimSim.Vfile.Namespace
