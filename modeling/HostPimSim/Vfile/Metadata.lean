import HostPimSim.Vfile.Stat

/-! The reports on a virtual path side by side: `newfstatat` and `statx` of the path, `fstat` of
a descriptor that was opened on it, and the row in the listing of its parent. -/
namespace HostPimSim.Vfile.Namespace
open Attribute Transition

/-- `fd_type`, with the object of an entry. -/
inductive EntryType where
  | vdev (id : Nat)
  | attr (owner : Owner) (name : String)
  | vdir
  | procFdinfo (payload : List UInt8)

/-- A `vfile_fd_entry`; `address` is where it was allocated. -/
structure FdEntry where
  type : EntryType
  flags : Flags
  virtualPath : Path
  address : BitVec 64

/-- The link that an entry opened with `O_PATH` and `O_NOFOLLOW` stays on. -/
def entrySymlink (st : VirtualState) (entry : FdEntry) : Option String :=
  if has entry.flags oNofollow = true ∧ has entry.flags oPath = true then
    match entry.type with
    | .vdir => (resolve st.snapshot st.live entry.virtualPath).bind (classSymlink st)
    | .attr owner name => attrTarget st.live trimsSymlink owner name
    | .vdev _ | .procFdinfo _ => none
  else none

def entryStatKind (st : VirtualState) : EntryType → Except Errno StatKind
  | .vdev id =>
      match st.vdev id with
      | none => .error .ebadf
      | some rdev => .ok (.chrDevice rdev.1 rdev.2)
  | .attr owner name =>
      match st.live owner name with
      | none => .error .enoent
      | some attr => .ok (.regAttr attr.value.length attr.access)
  | .vdir => .ok .dir
  | .procFdinfo payload => .ok (.regAttr payload.length .ro)

def entryIno (hash : String → BitVec 64) (entry : FdEntry) : BitVec 64 :=
  match entry.type with
  | .vdir => hash (pathText entry.virtualPath)
  | .vdev _ | .attr _ _ | .procFdinfo _ => entry.address

/-- `vsyscall_build_vdev_stat` -/
def buildVdevStat (hash : String → BitVec 64) (st : VirtualState) (entry : FdEntry) :
    Except Errno Stat :=
  match entrySymlink st entry with
  | some target => .ok (buildSymlinkStat hash target)
  | none => (entryStatKind st entry.type).map (applyStatKind (entryIno hash entry))

/-- What an open meets outside of the state: where its entry is allocated, whether a descriptor
is left, and how the open callback of a device, if it has one, and the binding of the
descriptor it gives come out. -/
structure OpenEnv where
  address : BitVec 64
  descriptorLeft : Bool
  openFn : Option (Except Errno Unit)

structure Opened where
  entry : FdEntry
  live : Owner → String → Option Attr

def allocTrackedFd (st : VirtualState) (env : OpenEnv) (flags : Flags) (type : EntryType)
    (path : Path) : Except Errno Opened :=
  if env.descriptorLeft then .ok ⟨⟨type, flags, path, env.address⟩, st.live⟩ else .error .emfile

def openVdevNode (st : VirtualState) (env : OpenEnv) (flags : Flags) (path : Path) (id : Nat) :
    Except Errno Opened :=
  if has flags oDirectory then .error .enotdir
  else
    match env.openFn with
    | none => allocTrackedFd st env flags (.vdev id) path
    | some (.ok _) => .ok ⟨⟨.vdev id, flags, path, env.address⟩, st.live⟩
    | some (.error errno) => .error errno

def truncateLive (live : Owner → String → Option Attr) (owner : Owner) (name : String) :
    Owner → String → Option Attr := fun other otherName =>
  if other = owner ∧ otherName = name then
    (live owner name).map fun attr => { attr with value := [] }
  else live other otherName

/-- `vsyscall_dispatch_open_vsysfs_attr_node` and its vmodule twin -/
def openAttr (st : VirtualState) (env : OpenEnv) (flags : Flags) (path : Path) (owner : Owner)
    (name : String) (access : AccessMode) : Except Errno Opened :=
  match openAttrNode flags access with
  | .error errno => .error errno
  | .ok truncates =>
      match allocTrackedFd st env flags (.attr owner name) path with
      | .error errno => .error errno
      | .ok opened =>
          if truncates = false then .ok opened
          else
            match st.live owner name with
            | none => .error .enoent
            | some attr =>
                if attr.access.allowsWrite then
                  .ok { opened with live := truncateLive st.live owner name }
                else .error .eacces

def openDirNode (st : VirtualState) (env : OpenEnv) (flags : Flags) (path : Path) :
    Except Errno Opened :=
  if has flags oPath then allocTrackedFd st env flags .vdir path
  else if flags &&& oAccmode ≠ 0 ∨ flags &&& (oCreat ||| oTrunc) ≠ 0 then .error .eisdir
  else allocTrackedFd st env flags .vdir path

/-- `vsyscall_dispatch_open_resolved_node`, which follows class links from one call into the
next; `none` if they do not end within `fuel` calls. -/
def openResolvedNode (st : VirtualState) (env : OpenEnv) (flags : Flags) :
    Nat → Node → Option (Except Errno Opened)
  | 0, _ => none
  | fuel + 1, node =>
      if flags &&& ~~~supportedOpenFlags ≠ 0 then some (.error .einval)
      else
        match node with
        | .vdevNode path id =>
            if (st.vdev id).isSome then some (openVdevNode st env flags path id)
            else some (.error .eio)
        | .attrNode path owner name _ access =>
            if name = "" then some (.error .eio)
            else some (openAttr st env flags path owner name access)
        | .vdir path vsysfs vmodule =>
            match classSymlink st (.vdir path vsysfs vmodule) with
            | none => some (openDirNode st env flags path)
            | some target =>
                if has flags oNofollow then
                  if has flags oPath then some (openDirNode st env flags path)
                  else some (.error .eloop)
                else
                  match resolveTarget st target with
                  | .error errno => some (.error errno)
                  | .ok next => openResolvedNode st env flags fuel next

/-- `dispatch_openat` of an absolute pathname; `none` if it is left to the kernel or does not
return.  The source first looks for the name of an owned descriptor in `/proc/self/fd` and
`/proc/self/fdinfo`, which is no path of the virtual state. -/
def openat (st : VirtualState) (env : OpenEnv) (flags : Flags) (fuel : Nat) (pathname : String) :
    Option (Except Errno Opened) :=
  (dispatchResolveNode st pathname).bind fun
    | .error errno => some (.error errno)
    | .ok node => openResolvedNode st env flags fuel node

def VirtualState.withLive (st : VirtualState) (live : Owner → String → Option Attr) :
    VirtualState := { st with live }

structure DirentRow where
  name : String
  dtype : DType
  ino : BitVec 64
  deriving DecidableEq

/-- `vfile_collect_dirents` with the inode numbers it gives. -/
def direntRows (hash : String → BitVec 64) (s : Snapshot) (dir : Path) : Option (List DirentRow) :=
  (collectDirents s dir).map fun rows =>
    rows.map fun row => ⟨row.1, row.2, hash (pathText dir ++ "/" ++ row.1)⟩

def Stat.report (s : Stat) : FileType × Nat × Nat × BitVec 64 × BitVec 64 :=
  (s.type, s.perm, s.size, s.rdev, s.ino)

def Statx.report (s : Statx) : FileType × Nat × Nat × BitVec 32 × BitVec 32 × BitVec 64 :=
  (s.type, s.perm, s.size, s.rdevMajor, s.rdevMinor, s.ino)

/-- The reports on a path agree, whatever the hash function and wherever entries are
allocated. -/
structure MetadataAgree (st : VirtualState) (pathname : String) : Prop where
  /-- A descriptor that an open gave reports what the path reports. -/
  opened : ∀ hash env flags fuel opened, has flags oNofollow = false →
    openat st env flags fuel pathname = some (.ok opened) →
    ∃ own named, buildVdevStat hash (st.withLive opened.live) opened.entry = .ok own ∧
      newfstatat hash (st.withLive opened.live) pathname false = some (.ok named) ∧
      own.report = named.report ∧
      (fillStatxFromStat own).report = (fillStatxFromStat named).report
  /-- Two descriptors report the same inode number. -/
  twice : ∀ hash env env' flags flags' fuel fuel' first second own other,
    has flags oNofollow = false → has flags' oNofollow = false →
    openat st env flags fuel pathname = some (.ok first) →
    openat (st.withLive first.live) env' flags' fuel' pathname = some (.ok second) →
    buildVdevStat hash (st.withLive second.live) first.entry = .ok own →
    buildVdevStat hash (st.withLive second.live) second.entry = .ok other → own.ino = other.ino
  /-- The row of the path has the type and the inode number of the path itself. -/
  listed : ∀ hash dir rows row named, normalizeAbsolutePath pathname = some (dir ++ [row.name]) →
    direntRows hash st.snapshot dir = some rows → row ∈ rows →
    newfstatat hash st pathname true = some (.ok named) →
    row.dtype = named.type.dtype ∧ row.ino = named.ino

/-- A directory that is no link, is listed as a directory and is not right below the root. -/
structure PlainDirectory (st : VirtualState) (node : Node) : Prop where
  isDir : node.isDir = true
  noLink : classSymlink st node = none
  listed : ∀ dir x, node.path = dir ++ [x] → dir ≠ [] ∧ childAt st.snapshot dir x = some .dir

variable {st : VirtualState} {pathname : String} {node : Node} {p dir : Path} {x : String}

theorem row_of_resolve (h : resolve st.snapshot st.live (dir ++ [x]) = some node) :
    (childAt st.snapshot dir x).isSome = true := by
  apply st.row
  rcases resolve_cases h with ⟨b, attr, hb, -, -⟩ | ⟨id, hid, -⟩ | ⟨hdir, -⟩
  · exact .inr (.inr (by rw [hb]; rfl))
  · exact .inr (.inl (by rw [hid]; rfl))
  · exact .inl hdir

theorem node_of_openat {env : OpenEnv} {flags : Flags} {fuel : Nat} {opened : Opened}
    (h : openat st env flags fuel pathname = some (.ok opened)) :
    ∃ node, dispatchResolveNode st pathname = some (.ok node) := by
  obtain ⟨resolved, hresolved, hopen⟩ := Option.bind_eq_some_iff.mp h
  cases resolved with
  | error errno => cases hopen
  | ok node => exact ⟨node, hresolved⟩

theorem openDirNode_ok {env : OpenEnv} {flags : Flags} {opened : Opened}
    (h : openDirNode st env flags p = .ok opened) :
    opened = ⟨⟨.vdir, flags, p, env.address⟩, st.live⟩ := by
  have halloc : allocTrackedFd st env flags .vdir p = .ok opened := by
    unfold openDirNode at h
    split at h
    · exact h
    · split at h
      · cases h
      · exact h
  unfold allocTrackedFd at halloc
  split at halloc
  · cases halloc
    rfl
  · cases halloc

theorem openat_plainDirectory {env : OpenEnv} {flags : Flags} {fuel : Nat} {opened : Opened}
    (hnode : dispatchResolveNode st pathname = some (.ok node)) (hplain : PlainDirectory st node)
    (h : openat st env flags fuel pathname = some (.ok opened)) :
    opened = ⟨⟨.vdir, flags, node.path, env.address⟩, st.live⟩ := by
  unfold openat at h
  rw [hnode, Option.bind_some] at h
  dsimp only at h
  cases fuel with
  | zero => cases h
  | succ fuel =>
      cases node with
      | vdevNode path id => cases hplain.isDir
      | attrNode path owner name size access => cases hplain.isDir
      | vdir path vsysfs vmodule =>
          unfold openResolvedNode at h
          split at h
          · cases h
          · dsimp only at h
            rw [hplain.noLink] at h
            exact openDirNode_ok (Option.some.inj h)

theorem newfstatat_plainDirectory (hash : String → BitVec 64) (nofollow : Bool)
    (hnode : dispatchResolveNode st pathname = some (.ok node)) (hplain : PlainDirectory st node) :
    newfstatat hash st pathname nofollow =
      some (.ok (applyStatKind (hash (pathText node.path)) .dir)) := by
  cases node with
  | vdevNode path id => cases hplain.isDir
  | attrNode path owner name size access => cases hplain.isDir
  | vdir path vsysfs vmodule =>
      exact newfstatat_ok hash hnode (describe_of_no_link hplain.noLink rfl)

theorem buildVdevStat_dir (hash : String → BitVec 64) {flags : Flags} (address : BitVec 64)
    (h : has flags oNofollow = false) :
    buildVdevStat hash st ⟨.vdir, flags, p, address⟩ =
      .ok (applyStatKind (hash (pathText p)) .dir) := by
  have hlink : entrySymlink st ⟨.vdir, flags, p, address⟩ = none := by
    unfold entrySymlink
    rw [if_neg]
    intro hboth
    exact absurd (h.symm.trans hboth.1) (by decide)
  unfold buildVdevStat
  rw [hlink]
  rfl

theorem childAt_of_direntRow {hash : String → BitVec 64} {rows : List DirentRow}
    {row : DirentRow} (hrows : direntRows hash st.snapshot dir = some rows) (hrow : row ∈ rows)
    (hname : Segment row.name) :
    childAt st.snapshot dir row.name = some row.dtype ∧
      row.ino = hash (pathText dir ++ "/" ++ row.name) := by
  obtain ⟨listed, hlisted, rfl⟩ := Option.map_eq_some_iff.mp hrows
  obtain ⟨children, hchildren, rfl⟩ := Option.map_eq_some_iff.mp hlisted
  obtain ⟨pair, hpair, rfl⟩ := List.mem_map.mp hrow
  refine ⟨?_, rfl⟩
  have hmem : pair ∈ children := by
    rcases List.mem_cons.mp hpair with rfl | hpair
    · exact absurd rfl hname.2.1
    · rcases List.mem_cons.mp hpair with rfl | hpair
      · exact absurd rfl hname.2.2.1
      · exact mem_inNameOrder.mp hpair
  unfold childAt
  rw [hchildren]
  exact Table.find_of_mem (st.keys dir children hchildren) hmem

theorem MetadataAgree.of_plainDirectory
    (hnode : dispatchResolveNode st pathname = some (.ok node)) (hplain : PlainDirectory st node) :
    MetadataAgree st pathname := by
  refine ⟨?_, ?_, ?_⟩
  · intro hash env flags fuel opened hflags hopen
    rw [openat_plainDirectory hnode hplain hopen]
    exact ⟨_, _, buildVdevStat_dir hash env.address hflags,
      newfstatat_plainDirectory hash false hnode hplain, rfl, rfl⟩
  · intro hash env env' flags flags' fuel fuel' first second own other hflags hflags' hopen hagain
      hown hother
    rw [openat_plainDirectory hnode hplain hopen] at hagain hown
    have hagain : openat st env' flags' fuel' pathname = some (.ok second) := hagain
    rw [openat_plainDirectory hnode hplain hagain] at hown hother
    rw [buildVdevStat_dir hash env.address hflags] at hown
    rw [buildVdevStat_dir hash env'.address hflags'] at hother
    cases hown
    cases hother
    rfl
  · intro hash dir rows row named hpath hrows hrow hnamed
    obtain ⟨hnormal, -⟩ := dispatchResolveNode_ok hnode
    have hsame : node.path = dir ++ [row.name] := Option.some.inj (hnormal.symm.trans hpath)
    have hname : Segment row.name := segments_of_normalize hpath _ (by simp)
    obtain ⟨hchild, hino⟩ := childAt_of_direntRow hrows hrow hname
    obtain ⟨hne, hdir⟩ := hplain.listed dir row.name hsame
    rw [newfstatat_plainDirectory hash true hnode hplain] at hnamed
    cases hnamed
    refine ⟨Option.some.inj (hchild.symm.trans hdir), ?_⟩
    rw [hino, hsame, pathText_append hne]
    rfl

theorem attrName_ne_empty {b : Binding} (hp : ∀ x ∈ p, Segment x)
    (hfind : Table.find st.snapshot.attrBindings p = some b) : b.attrName ≠ "" := by
  intro hempty
  obtain ⟨dir, htext, hdir⟩ := st.bound p b hfind
  rw [hempty, String.append_empty] at htext
  rcases eq_or_ne p [] with rfl | hne
  · have hlength := congrArg String.length htext
    have hnil : dir = "" := by
      rw [String.length_append] at hlength
      change 1 = dir.length + 1 at hlength
      exact String.length_eq_zero_iff.mp (by omega)
    obtain ⟨a, c, rfl⟩ | ⟨a, rfl | rfl | rfl⟩ := hdir.text
    · simp at hnil
    · simp at hnil
    · simp at hnil
    · simp at hnil
  · exact pathText_ne_append_slash hne hp dir htext

/-- An entry whose inode number is its address is told apart from another one. -/
theorem not_agree_of_addressed {type : EntryType} {kind : StatKind}
    (hopen : ∀ address, openat st ⟨address, true, none⟩ oPath 1 pathname =
      some (.ok ⟨⟨type, oPath, p, address⟩, st.live⟩))
    (hkind : entryStatKind st type = .ok kind)
    (hino : ∀ hash address, entryIno hash ⟨type, oPath, p, address⟩ = address) :
    ¬MetadataAgree st pathname := by
  intro hagree
  have hflags : has oPath oNofollow = false := by decide
  have hstat : ∀ address, buildVdevStat (fun _ => 0) st ⟨type, oPath, p, address⟩ =
      .ok (applyStatKind address kind) := by
    intro address
    unfold buildVdevStat
    have hlink : entrySymlink st ⟨type, oPath, p, address⟩ = none :=
      if_neg fun hboth => absurd (hflags.symm.trans hboth.1) (by decide)
    rw [hlink]
    dsimp only
    rw [hkind, hino]
    rfl
  have hsame := hagree.twice (fun _ => 0) _ _ oPath oPath 1 1 _ _ _ _ hflags hflags
    (hopen 0) (hopen 1) (hstat 0) (hstat 1)
  cases kind with
  | chrDevice major minor => exact absurd hsame (by simp [applyStatKind])
  | dir => exact absurd hsame (by simp [applyStatKind])
  | regAttr size access => exact absurd hsame (by simp [applyStatKind])

theorem not_agree_of_vdev {id : Nat}
    (hnode : dispatchResolveNode st pathname = some (.ok (.vdevNode p id))) :
    ¬MetadataAgree st pathname := by
  obtain ⟨-, hresolve⟩ := dispatchResolveNode_ok hnode
  have hdevice : (st.vdev id).isSome = true := by
    rcases resolve_cases hresolve with ⟨b, attr, -, -, hsame⟩ | ⟨other, hfind, hsame⟩ | ⟨-, hsame⟩
    · cases hsame
    · cases hsame
      exact st.device _ id hfind
    · cases hsame
  obtain ⟨rdev, hrdev⟩ := Option.isSome_iff_exists.mp hdevice
  have hkind : entryStatKind st (.vdev id) = .ok (.chrDevice rdev.1 rdev.2) := by
    simp only [entryStatKind, hrdev]
  refine not_agree_of_addressed (p := p) (fun address => ?_) hkind fun _ _ => rfl
  unfold openat
  rw [hnode, Option.bind_some]
  dsimp only
  unfold openResolvedNode
  rw [if_neg (by decide)]
  dsimp only
  rw [if_pos hdevice]
  rfl

theorem not_agree_of_attr {owner : Owner} {name : String} {size : Nat} {access : AccessMode}
    (hnode : dispatchResolveNode st pathname = some (.ok (.attrNode p owner name size access))) :
    ¬MetadataAgree st pathname := by
  obtain ⟨hnormal, hresolve⟩ := dispatchResolveNode_ok hnode
  have hattr : name ≠ "" ∧ ∃ attr, st.live owner name = some attr := by
    rcases resolve_cases hresolve with ⟨b, attr, hb, hlive, hsame⟩ | ⟨id, -, hsame⟩ | ⟨-, hsame⟩
    · cases hsame
      exact ⟨attrName_ne_empty (segments_of_normalize hnormal) hb, attr, hlive⟩
    · cases hsame
    · cases hsame
  obtain ⟨hname, attr, hlive⟩ := hattr
  have hkind : entryStatKind st (.attr owner name) =
      .ok (.regAttr attr.value.length attr.access) := by
    simp only [entryStatKind, hlive]
  refine not_agree_of_addressed (p := p) (fun address => ?_) hkind fun _ _ => rfl
  unfold openat
  rw [hnode, Option.bind_some]
  dsimp only
  unfold openResolvedNode
  rw [if_neg (by decide)]
  dsimp only
  rw [if_neg hname]
  rfl

theorem direntRow_of_childAt (hash : String → BitVec 64) {t : DType}
    (h : childAt st.snapshot dir x = some t) :
    ∃ rows, direntRows hash st.snapshot dir = some rows ∧
      ⟨x, t, hash (pathText dir ++ "/" ++ x)⟩ ∈ rows := by
  obtain ⟨children, hchildren, hfind⟩ := Option.bind_eq_some_iff.mp h
  refine ⟨_, by rw [direntRows, collectDirents, hchildren]; rfl, ?_⟩
  refine List.mem_map.mpr ⟨(x, t), ?_, rfl⟩
  exact List.mem_cons_of_mem _
    (List.mem_cons_of_mem _ (mem_inNameOrder.mpr (Table.mem_of_find hfind)))

theorem MetadataAgree.row (hagree : MetadataAgree st pathname) {described : Described}
    (hnode : dispatchResolveNode st pathname = some (.ok node)) (hpath : node.path = dir ++ [x])
    (hdescribed : describe st true node = .ok described) :
    ∃ t, childAt st.snapshot dir x = some t ∧ ∀ hash,
      t = (described.stat hash st).type.dtype ∧
        hash (pathText dir ++ "/" ++ x) = (described.stat hash st).ino := by
  obtain ⟨hnormal, hresolve⟩ := dispatchResolveNode_ok hnode
  rw [hpath] at hnormal hresolve
  obtain ⟨t, ht⟩ := Option.isSome_iff_exists.mp (row_of_resolve hresolve)
  refine ⟨t, ht, fun hash => ?_⟩
  obtain ⟨rows, hrows, hmem⟩ := direntRow_of_childAt hash ht
  exact hagree.listed hash dir rows _ _ hnormal hrows hmem (newfstatat_ok hash hnode hdescribed)

theorem not_agree_of_classSymlink {target : String}
    (hnode : dispatchResolveNode st pathname = some (.ok node))
    (hlink : classSymlink st node = some target) : ¬MetadataAgree st pathname := by
  intro hagree
  obtain ⟨hnormal, -⟩ := dispatchResolveNode_ok hnode
  have hdescribed : describe st true node = .ok (.link target) := by
    unfold describe
    rw [hlink]
    rfl
  obtain ⟨path, vsysfs, vmodule, id, v, rfl, -, hv, htext, hne, rfl⟩ := classSymlink_some hlink
  have hlength : 3 < path.length :=
    (st.classText id v hv).three_lt_length (segments_of_normalize hnormal) htext
  obtain ⟨dir, x, rfl⟩ := (List.eq_nil_or_concat' path).resolve_left (by
    rintro rfl
    simp at hlength)
  have hdir : dir ≠ [] := by
    rintro rfl
    simp at hlength
  obtain ⟨t, -, hrow⟩ := hagree.row hnode rfl hdescribed
  have hino := (hrow fun text => if text = v.devicesDir then 1 else 0).2
  rw [← pathText_append hdir, htext, if_neg hne] at hino
  change (0 : BitVec 64) = if v.devicesDir = v.devicesDir then 1 else 0 at hino
  rw [if_pos rfl] at hino
  exact absurd hino (by decide)

theorem MetadataAgree.plainDirectory (hagree : MetadataAgree st pathname)
    (hnode : dispatchResolveNode st pathname = some (.ok node)) : PlainDirectory st node := by
  cases hlink : classSymlink st node with
  | some target => exact absurd hagree (not_agree_of_classSymlink hnode hlink)
  | none =>
      cases node with
      | vdevNode path id => exact absurd hagree (not_agree_of_vdev hnode)
      | attrNode path owner name size access => exact absurd hagree (not_agree_of_attr hnode)
      | vdir path vsysfs vmodule =>
          refine ⟨rfl, hlink, fun dir x hpath => ?_⟩
          obtain ⟨t, ht, hrow⟩ := hagree.row hnode hpath (describe_of_no_link hlink rfl)
          obtain ⟨rfl, hino⟩ := hrow fun text => if text = pathText (dir ++ [x]) then 1 else 0
          refine ⟨?_, ht⟩
          rintro rfl
          -- below the root the row hashes the name after two slashes
          have hpath : path = [x] := hpath
          have htexts : pathText [] ++ "/" ++ x ≠ pathText [x] := by
            intro hsame
            have hlength := congrArg String.length hsame
            simp only [pathText, String.length_append, String.intercalate_nil,
              String.intercalate_singleton] at hlength
            have hslash : "/".length = 1 := rfl
            have hempty : "".length = 0 := rfl
            omega
          change (if pathText [] ++ "/" ++ x = pathText [x] then 1 else 0) =
            if pathText path = pathText [x] then (1 : BitVec 64) else 0 at hino
          rw [if_neg htexts, hpath, if_pos rfl] at hino
          exact absurd hino (by decide)

/-- The reports on a path agree exactly if it does not resolve or is a plain directory: the
inode number of a descriptor on a device or an attribute is the address of its entry, a class
link is listed with the hash of its own path and reported with that of its target, and the
root lists its children with the hash of a text that no path has. -/
theorem metadata_agree_iff (st : VirtualState) (pathname : String) :
    MetadataAgree st pathname ↔
      ∀ node, dispatchResolveNode st pathname = some (.ok node) → PlainDirectory st node := by
  constructor
  · exact fun hagree node hnode => hagree.plainDirectory hnode
  · intro hplain
    by_cases hresolves : ∃ node, dispatchResolveNode st pathname = some (.ok node)
    · obtain ⟨node, hnode⟩ := hresolves
      exact .of_plainDirectory hnode (hplain node hnode)
    · refine ⟨?_, ?_, ?_⟩
      · intro hash env flags fuel opened _ hopen
        exact absurd (node_of_openat hopen) hresolves
      · intro hash env env' flags flags' fuel fuel' first second own other _ _ hopen
        exact absurd (node_of_openat hopen) hresolves
      · intro hash dir rows row named _ _ _ hnamed
        exact absurd (node_of_newfstatat hnamed) hresolves

def oneDevice : List Action :=
  [.start (.vdevCreate "rank0" 240 0), .turn 0 true, .turn 0 true, .turn 0 true]

/-- Two opens of a device report two inode numbers. -/
theorem device_opens_differ : ∃ (s : State) (hnamed : s.registry.WellNamed),
    run step init oneDevice = some s ∧
      ¬MetadataAgree (.ofRegistry s.registry hnamed) "/dev/rank0" := by
  have hends : ∃ s, run step init oneDevice = some s ∧
      resolve s.fresh s.registry.live ["dev", "rank0"] =
        some (.vdevNode ["dev", "rank0"] 0) := exists_run (by decide +kernel)
  obtain ⟨s, hrun, hresolve⟩ := hends
  have hnamed := run_named (by decide +kernel) hrun
  have hpath : normalizeAbsolutePath "/dev/rank0" = some ["dev", "rank0"] := by decide +kernel
  have hslash : hasTrailingSlash "/dev/rank0" = false := by decide +kernel
  have hnode : dispatchResolveNode (.ofRegistry s.registry hnamed) "/dev/rank0" =
      some (.ok (.vdevNode ["dev", "rank0"] 0)) := by
    unfold dispatchResolveNode lookupNode
    rw [hpath, hslash, Option.bind_some]
    change (resolve s.fresh s.registry.live ["dev", "rank0"]).map _ = _
    rw [hresolve]
    rfl
  exact ⟨s, hnamed, hrun, not_agree_of_vdev hnode⟩

end HostPimSim.Vfile.Namespace
