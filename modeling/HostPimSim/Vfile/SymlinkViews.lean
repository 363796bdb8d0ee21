import HostPimSim.Vfile.Stat

/-! The links of the virtual layer as `newfstatat` reports them and as `readlink` reads them. -/
namespace HostPimSim.Vfile.Namespace
open Attribute Transition

/-- `vsyscall_trim_readlink_target_in_place` -/
def trimsReadlink (c : Char) : Bool := c == '\n' || c == '\r' || c == '\x00'

/-- `vsyscall_try_get_virtual_readlink_target` -/
def virtualReadlinkTarget (st : VirtualState) : Node → Option String
  | .attrNode _ owner name _ _ => attrTarget st.live trimsReadlink owner name
  | .vdir path _ _ => if pathText path = "/sys/class/subsystem" then some "/sys/class" else none
  | .vdevNode _ _ => none

/-- `vsyscall_extract_virtual_class_subsystem_name` of a normalized path. -/
def extractVirtualClassSubsystemName : Path → Option String
  | ["sys", "class", className, "subsystem"] => some className
  | _ => none

/-- The links that `dispatch_readlinkat` knows without a node: `/sys/class/subsystem`, and
`vsyscall_try_get_virtual_class_subsystem_target`. -/
def hardwiredTarget (st : VirtualState) (path : Path) : Option String :=
  if path = ["sys", "class", "subsystem"] then some "/sys/class"
  else
    (extractVirtualClassSubsystemName path).bind fun className =>
      if className ∈ st.classNames then some ("/sys/subsystem/" ++ className) else none

/-- The target of a class link as `dispatch_readlinkat` gives it. -/
def readlinkClassTarget (path : Path) (target : String) : String :=
  match normalizeAbsolutePath target with
  | some normalized => relativeTarget path normalized
  | none => target

/-- `dispatch_readlinkat` on a node. -/
def readlinkNode (st : VirtualState) (node : Node) : Except Errno String :=
  match classSymlink st node with
  | some target => .ok (readlinkClassTarget node.path target)
  | none =>
      match virtualReadlinkTarget st node with
      | some target => .ok target
      | none => .error .einval

/-- `dispatch_readlinkat` of an absolute pathname up to the copy; `none` leaves the call to the
kernel. -/
def readlinkTarget (st : VirtualState) (pathname : String) : Option (Except Errno String) :=
  (normalizeAbsolutePath pathname).bind fun path =>
    match hardwiredTarget st path with
    | some target => some (.ok target)
    | none =>
        (lookupNode st path (hasTrailingSlash pathname)).map fun resolved =>
          resolved.bind (readlinkNode st)

/-- `vsyscall_return_readlink_target` into a buffer: what is copied. -/
def returnReadlinkTarget (bufsiz : Nat) (target : String) : Except Errno String :=
  if bufsiz = 0 then .error .einval else .ok (String.ofList (target.toList.take bufsiz))

def readlinkat (st : VirtualState) (pathname : String) (bufsiz : Nat) :
    Option (Except Errno String) :=
  (readlinkTarget st pathname).map fun target => target.bind (returnReadlinkTarget bufsiz)

/-- Where a target leads that was read at a path: from the directory of the path if it is
relative. -/
def resolveLink (path : Path) (target : String) : Option Path :=
  if isAbsolute target then normalizeAbsolutePath target
  else normalizeAbsolutePath (pathText path.dropLast ++ "/" ++ target)

/-- The path of the node that `newfstatat` reports when it follows links. -/
def describedPath (st : VirtualState) (pathname : String) : Option Path :=
  match lookupDescribed st pathname false with
  | some (.ok (.node node)) => some node.path
  | _ => none

def isVirtual (st : VirtualState) (path : Path) : Bool := (resolve st.snapshot st.live path).isSome

structure SymlinkViewsAgree (st : VirtualState) (pathname : String) : Prop where
  /-- The path is reported as a link exactly if it can be read as one. -/
  isLink : ∀ hash bufsiz, 0 < bufsiz →
    ((∃ s, newfstatat hash st pathname true = some (.ok s) ∧ s.type = .lnk) ↔
      ∃ target, readlinkat st pathname bufsiz = some (.ok target))
  /-- The size is the length of what is read into a buffer that it does not fill. -/
  size : ∀ hash bufsiz s target, newfstatat hash st pathname true = some (.ok s) →
    s.type = .lnk → readlinkat st pathname bufsiz = some (.ok target) → target.length < bufsiz →
    s.size = target.length
  /-- What is read leads to the path that is reported when links are followed, if there is a
  virtual node to report. -/
  path : ∀ bufsiz path target followed, normalizeAbsolutePath pathname = some path →
    readlinkat st pathname bufsiz = some (.ok target) → target.length < bufsiz →
    resolveLink path target = some followed →
    describedPath st pathname = if isVirtual st followed then some followed else none

/-- When the views of a node agree.  A class link is read relative to its directory and reported
with the length of the target that is stored; a link attribute is read without the zero bytes
at its end, and followed only if it is absolute. -/
structure LinksMeet (st : VirtualState) (node : Node) : Prop where
  classLink : ∀ target normalized, classSymlink st node = some target →
    normalizeAbsolutePath target = some normalized →
    (relativeTarget node.path normalized).length = target.length
  attrLink : ∀ target, attrSymlink st node = some target →
    target.toList.getLast? ≠ some '\x00' ∧ (isAbsolute target = true ∨
      ∀ followed, resolveLink node.path target = some followed → isVirtual st followed = false)

variable {st : VirtualState} {pathname target : String} {node : Node} {p : Path}

theorem readlinkat_ok {bufsiz : Nat} {read : String}
    (h : readlinkat st pathname bufsiz = some (.ok read)) :
    ∃ target, readlinkTarget st pathname = some (.ok target) ∧
      (read.length < bufsiz → read = target) := by
  obtain ⟨result, hresult, hread⟩ := Option.map_eq_some_iff.mp h
  cases result with
  | error errno => cases hread
  | ok target =>
      refine ⟨target, hresult, fun hlength => ?_⟩
      change returnReadlinkTarget bufsiz target = .ok read at hread
      unfold returnReadlinkTarget at hread
      split at hread
      · cases hread
      · cases hread
        rw [String.length_ofList, List.length_take] at hlength
        rw [List.take_of_length_le (by omega), String.ofList_toList]

theorem readlinkat_of_target {bufsiz : Nat} (h : readlinkTarget st pathname = some (.ok target))
    (hpos : 0 < bufsiz) :
    readlinkat st pathname bufsiz =
      some (.ok (String.ofList (target.toList.take bufsiz))) := by
  unfold readlinkat
  rw [h, Option.map_some]
  change some (returnReadlinkTarget bufsiz target) = _
  rw [returnReadlinkTarget, if_neg (by omega)]

theorem readlinkat_whole {bufsiz : Nat} (h : readlinkTarget st pathname = some (.ok target))
    (hlength : target.length < bufsiz) :
    readlinkat st pathname bufsiz = some (.ok target) := by
  rw [readlinkat_of_target h (by omega), List.take_of_length_le, String.ofList_toList]
  rw [String.length_toList]
  exact hlength.le

/-- The target with which `newfstatat` reports a path as a link. -/
def reportedTarget (st : VirtualState) (pathname : String) : Option String :=
  match dispatchResolveNode st pathname with
  | some (.ok node) => (classSymlink st node).or (attrSymlink st node)
  | _ => none

theorem reportedTarget_of_node (h : dispatchResolveNode st pathname = some (.ok node)) :
    reportedTarget st pathname = (classSymlink st node).or (attrSymlink st node) := by
  unfold reportedTarget
  rw [h]

theorem newfstatat_of_reported (hash : String → BitVec 64)
    (h : reportedTarget st pathname = some target) :
    newfstatat hash st pathname true = some (.ok (buildSymlinkStat hash target)) := by
  unfold reportedTarget at h
  split at h
  · rename_i node hnode
    have hdescribed : describe st true node = .ok (.link target) := by
      unfold describe
      rw [h]
      rfl
    exact newfstatat_ok hash hnode hdescribed
  · cases h

theorem type_buildStatFromVirtualPath (hash : String → BitVec 64) :
    (buildStatFromVirtualPath hash st node).type ≠ .lnk := by
  unfold buildStatFromVirtualPath
  cases node with
  | vdevNode path id => exact FileType.noConfusion
  | attrNode path owner name size access => exact FileType.noConfusion
  | vdir path vsysfs vmodule => exact FileType.noConfusion

theorem reported_of_newfstatat {hash : String → BitVec 64} {s : Stat}
    (h : newfstatat hash st pathname true = some (.ok s)) (hlink : s.type = .lnk) :
    ∃ target, reportedTarget st pathname = some target ∧ s.size = target.length := by
  obtain ⟨node, hnode⟩ := node_of_newfstatat h
  rw [reportedTarget_of_node hnode]
  cases htarget : (classSymlink st node).or (attrSymlink st node) with
  | none =>
      have hdescribed : describe st true node = .ok (.node node) := by
        unfold describe
        rw [htarget]
      rw [newfstatat_ok hash hnode hdescribed] at h
      cases h
      exact absurd hlink (type_buildStatFromVirtualPath hash)
  | some target =>
      have hdescribed : describe st true node = .ok (.link target) := by
        unfold describe
        rw [htarget]
        rfl
      rw [newfstatat_ok hash hnode hdescribed] at h
      cases h
      exact ⟨target, rfl, rfl⟩

structure TargetsAgree (st : VirtualState) (pathname : String) : Prop where
  isLink : (∃ target, reportedTarget st pathname = some target) ↔
    ∃ target, readlinkTarget st pathname = some (.ok target)
  size : ∀ reported target, reportedTarget st pathname = some reported →
    readlinkTarget st pathname = some (.ok target) → reported.length = target.length
  path : ∀ path target followed, normalizeAbsolutePath pathname = some path →
    readlinkTarget st pathname = some (.ok target) → resolveLink path target = some followed →
    describedPath st pathname = if isVirtual st followed then some followed else none

theorem targetsAgree_of_neither (hreported : reportedTarget st pathname = none)
    (hread : ∀ target, readlinkTarget st pathname ≠ some (.ok target)) :
    TargetsAgree st pathname := by
  refine ⟨⟨?_, ?_⟩, ?_, ?_⟩
  · rintro ⟨target, htarget⟩
    rw [hreported] at htarget
    cases htarget
  · rintro ⟨target, htarget⟩
    exact absurd htarget (hread target)
  · intro reported target _ htarget
    exact absurd htarget (hread target)
  · intro path target followed _ htarget
    exact absurd htarget (hread target)

theorem symlinkViewsAgree_iff_targets :
    SymlinkViewsAgree st pathname ↔ TargetsAgree st pathname := by
  constructor
  · intro h
    refine ⟨?_, ?_, ?_⟩
    · constructor
      · rintro ⟨target, htarget⟩
        have hstat := newfstatat_of_reported (fun _ => 0) htarget
        obtain ⟨read, hread⟩ := (h.isLink (fun _ => 0) 1 Nat.one_pos).mp ⟨_, hstat, rfl⟩
        obtain ⟨whole, hwhole, -⟩ := readlinkat_ok hread
        exact ⟨whole, hwhole⟩
      · rintro ⟨target, htarget⟩
        have hread := readlinkat_of_target htarget Nat.one_pos
        obtain ⟨s, hstat, hlink⟩ := (h.isLink (fun _ => 0) 1 Nat.one_pos).mpr ⟨_, hread⟩
        obtain ⟨reported, hreported, -⟩ := reported_of_newfstatat hstat hlink
        exact ⟨reported, hreported⟩
    · intro reported target hreported htarget
      exact h.size (fun _ => 0) _ _ target (newfstatat_of_reported _ hreported) rfl
        (readlinkat_whole htarget (Nat.lt_succ_self _)) (Nat.lt_succ_self _)
    · intro path target followed hpath htarget hfollowed
      exact h.path _ path target followed hpath
        (readlinkat_whole htarget (Nat.lt_succ_self _)) (Nat.lt_succ_self _) hfollowed
  · intro h
    refine ⟨?_, ?_, ?_⟩
    · intro hash bufsiz hpos
      constructor
      · rintro ⟨s, hstat, hlink⟩
        obtain ⟨reported, hreported, -⟩ := reported_of_newfstatat hstat hlink
        obtain ⟨target, htarget⟩ := h.isLink.mp ⟨reported, hreported⟩
        exact ⟨_, readlinkat_of_target htarget hpos⟩
      · rintro ⟨read, hread⟩
        obtain ⟨target, htarget, -⟩ := readlinkat_ok hread
        obtain ⟨reported, hreported⟩ := h.isLink.mpr ⟨target, htarget⟩
        exact ⟨_, newfstatat_of_reported hash hreported, rfl⟩
    · intro hash bufsiz s read hstat hlink hread hlength
      obtain ⟨reported, hreported, hsize⟩ := reported_of_newfstatat hstat hlink
      obtain ⟨target, htarget, hwhole⟩ := readlinkat_ok hread
      rw [hsize, hwhole hlength, h.size reported target hreported htarget]
    · intro bufsiz path read followed hpath hread hlength hfollowed
      obtain ⟨target, htarget, hwhole⟩ := readlinkat_ok hread
      rw [hwhole hlength] at hfollowed
      exact h.path path target followed hpath htarget hfollowed

theorem rdropWhile_rdropWhile {α : Type} {trims more : α → Bool} (xs : List α)
    (h : ∀ x, trims x = true → more x = true) :
    (xs.rdropWhile trims).rdropWhile more = xs.rdropWhile more := by
  induction xs using List.reverseRecOn with
  | nil => rfl
  | append_singleton xs x ih =>
      rw [List.rdropWhile_concat]
      split
      · rename_i hx
        rw [ih, List.rdropWhile_concat_pos _ _ _ (h x hx)]
      · rfl

theorem attrTarget_readlink {live : Owner → String → Option Attr} {owner : Owner} {name : String} :
    attrTarget live trimsReadlink owner name =
      (attrTarget live trimsSymlink owner name).bind fun target =>
        let read := String.ofList (target.toList.rdropWhile trimsReadlink)
        if read = "" then none else some read := by
  have hmore : ∀ c, trimsSymlink c = true → trimsReadlink c = true := by
    intro c hc
    unfold trimsReadlink
    unfold trimsSymlink at hc
    rw [hc]
    rfl
  unfold attrTarget
  split
  · cases live owner name with
    | none => rfl
    | some attr =>
        rw [Option.bind_some, Option.bind_some]
        dsimp only
        rw [← rdropWhile_rdropWhile _ hmore]
        by_cases hempty : String.ofList ((textOf attr.value).toList.rdropWhile trimsSymlink) = ""
        · have hnil := congrArg String.toList hempty
          rw [String.toList_ofList] at hnil
          rw [if_pos hempty, hnil]
          rfl
        · rw [if_neg hempty, Option.bind_some, String.toList_ofList]
  · rfl

theorem attrTarget_some {live : Owner → String → Option Attr} {trims : Char → Bool}
    {owner : Owner} {name : String} (h : attrTarget live trims owner name = some target) :
    target ≠ "" ∧ ∃ attr : Attr, target.toList = (textOf attr.value).toList.rdropWhile trims := by
  unfold attrTarget at h
  split at h
  · obtain ⟨attr, -, hattr⟩ := Option.bind_eq_some_iff.mp h
    dsimp only at hattr
    split at hattr
    · cases hattr
    · rename_i hne
      cases hattr
      exact ⟨hne, attr, String.toList_ofList⟩
  · cases h

theorem rdropWhile_readlink_eq_self {owner : Owner} {name : String}
    (h : attrTarget st.live trimsSymlink owner name = some target) :
    target.toList.rdropWhile trimsReadlink = target.toList ↔
      target.toList.getLast? ≠ some '\x00' := by
  have hlast : ∀ hne : target.toList ≠ [], trimsSymlink (target.toList.getLast hne) = false := by
    obtain ⟨-, attr, htext⟩ := attrTarget_some h
    rw [htext]
    intro hne
    exact Bool.eq_false_iff.mpr (List.rdropWhile_last_not _ _ hne)
  rw [List.rdropWhile_eq_self_iff]
  constructor
  · intro hkeeps hnul
    have hne : target.toList ≠ [] := by
      intro hnil
      rw [hnil] at hnul
      cases hnul
    rw [List.getLast?_eq_some_getLast hne] at hnul
    refine hkeeps hne ?_
    rw [Option.some.inj hnul]
    decide
  · intro hnul hne htrims
    have hsymlink := hlast hne
    unfold trimsReadlink at htrims
    unfold trimsSymlink at hsymlink
    rw [hsymlink, Bool.false_or, beq_iff_eq] at htrims
    rw [List.getLast?_eq_some_getLast hne, htrims] at hnul
    exact hnul rfl

theorem attrSymlink_of_classSymlink (h : classSymlink st node = some target) :
    attrSymlink st node = none := by
  obtain ⟨path, vsysfs, vmodule, id, v, rfl, -⟩ := classSymlink_some h
  rfl

theorem target_of_classSymlink (hresolve : resolve st.snapshot st.live node.path = some node)
    (h : classSymlink st node = some target) :
    ∃ q, normalizeAbsolutePath target = some q ∧ isVirtual st q = true := by
  obtain ⟨path, vsysfs, vmodule, id, v, rfl, rfl, hv, -, -, rfl⟩ := classSymlink_some h
  rcases resolve_cases hresolve with ⟨b, attr, -, -, hsame⟩ | ⟨other, -, hsame⟩ | ⟨-, hsame⟩
  · cases hsame
  · cases hsame
  · have hfind : Table.find st.snapshot.vsysfsDirs path = some id := by
      injection hsame with _ hid _
      exact hid.symm
    obtain ⟨q, hq, hdir⟩ := st.target path id v hfind hv
    refine ⟨q, hq, ?_⟩
    obtain ⟨children, hchildren⟩ := Option.isSome_iff_exists.mp hdir
    unfold isVirtual resolve tryResolveDirNode
    rw [hchildren, Option.isSome_or]
    exact Bool.or_true _

theorem resolveLink_relativeTarget {q : Path} (hp : ∀ x ∈ p, Segment x)
    (hq : ∀ x ∈ q, Segment x) : resolveLink p (relativeTarget p q) = some q := by
  unfold resolveLink
  rw [not_isAbsolute_relativeTarget hq, if_neg Bool.false_ne_true,
    normalize_join fun x hx => hp x (List.dropLast_subset p hx), foldl_pieces_relativeTarget hq]

section

variable (hpath : normalizeAbsolutePath pathname = some p)
  (hwired : hardwiredTarget st p = none)
  (hnode : lookupNode st p (hasTrailingSlash pathname) = some (.ok node))
include hpath hnode

theorem dispatchResolveNode_of_lookup : dispatchResolveNode st pathname = some (.ok node) := by
  unfold dispatchResolveNode
  rw [hpath, Option.bind_some, hnode]

theorem path_of_lookup : node.path = p := by
  obtain ⟨hnormal, -⟩ := dispatchResolveNode_ok (dispatchResolveNode_of_lookup hpath hnode)
  exact Option.some.inj (hnormal.symm.trans hpath)

/-- A link is followed once, as an absolute path. -/
theorem describedPath_of_link
    (hlink : (classSymlink st node).or (attrSymlink st node) = some target) :
    describedPath st pathname = (normalizeAbsolutePath target).bind fun q =>
      if isVirtual st q then some q else none := by
  unfold describedPath lookupDescribed
  rw [dispatchResolveNode_of_lookup hpath hnode, Option.map_some]
  change (match some (describe st false node) with
    | some (.ok (.node node)) => some node.path
    | _ => none) = _
  unfold describe
  rw [hlink]
  dsimp only
  rw [if_neg Bool.false_ne_true]
  unfold resolveTarget
  cases hnormal : normalizeAbsolutePath target with
  | none => rfl
  | some q =>
      dsimp only [Option.bind_some]
      unfold isVirtual
      cases hresolve : resolve st.snapshot st.live q with
      | none => rfl
      | some found => exact congrArg some (path_of_resolve hresolve)

include hwired

theorem readlinkTarget_of_lookup : readlinkTarget st pathname = some (readlinkNode st node) := by
  unfold readlinkTarget
  rw [hpath, Option.bind_some, hwired]
  dsimp only
  rw [hnode]
  rfl

theorem targetsAgree_of_classSymlink (hlink : classSymlink st node = some target) :
    TargetsAgree st pathname ↔ LinksMeet st node := by
  have hdispatch := dispatchResolveNode_of_lookup hpath hnode
  have hor : (classSymlink st node).or (attrSymlink st node) = some target := by
    rw [hlink]
    rfl
  have hreported := (reportedTarget_of_node hdispatch).trans hor
  obtain ⟨q, hq, hvirtual⟩ := target_of_classSymlink (dispatchResolveNode_ok hdispatch).2 hlink
  have hread : readlinkTarget st pathname = some (.ok (relativeTarget node.path q)) := by
    rw [readlinkTarget_of_lookup hpath hwired hnode, readlinkNode, hlink]
    dsimp only
    rw [readlinkClassTarget, hq]
  have hnodePath := path_of_lookup hpath hnode
  constructor
  · intro h
    refine ⟨fun other normalized hother hnormalized => ?_, fun other hother => ?_⟩
    · cases hlink.symm.trans hother
      cases hq.symm.trans hnormalized
      exact (h.size _ _ hreported hread).symm
    · rw [attrSymlink_of_classSymlink hlink] at hother
      cases hother
  · intro h
    refine ⟨⟨fun _ => ⟨_, hread⟩, fun _ => ⟨_, hreported⟩⟩, ?_, ?_⟩
    · intro reported read hreported' hread'
      cases hreported.symm.trans hreported'
      cases hread.symm.trans hread'
      exact (h.classLink target q hlink hq).symm
    · intro path read followed hpath' hread' hfollowed
      cases hpath.symm.trans hpath'
      cases hread.symm.trans hread'
      rw [hnodePath, resolveLink_relativeTarget (segments_of_normalize hpath)
        (segments_of_normalize hq)] at hfollowed
      cases hfollowed
      rw [describedPath_of_link hpath hnode hor, hq, Option.bind_some]

theorem readlinkTarget_of_attrSymlink (hclass : classSymlink st node = none)
    (hlink : attrSymlink st node = some target) :
    (∀ read, readlinkTarget st pathname = some (.ok read) →
      read.toList = target.toList.rdropWhile trimsReadlink) ∧
    (target.toList.getLast? ≠ some '\x00' →
      readlinkTarget st pathname = some (.ok target)) := by
  have hread := readlinkTarget_of_lookup hpath hwired hnode
  rw [readlinkNode, hclass] at hread
  dsimp only at hread
  cases node with
  | vdevNode path id => cases hlink
  | vdir path vsysfs vmodule => cases hlink
  | attrNode path owner name size access =>
      have htarget : attrTarget st.live trimsSymlink owner name = some target := hlink
      rw [virtualReadlinkTarget, attrTarget_readlink, htarget, Option.bind_some] at hread
      dsimp only at hread
      constructor
      · intro read hok
        rw [hread] at hok
        split at hok
        · rename_i found hfound
          split at hfound
          · cases hfound
          · cases hfound
            cases hok
            exact String.toList_ofList
        · cases hok
      · intro hlast
        rw [hread, (rdropWhile_readlink_eq_self htarget).mpr hlast, String.ofList_toList,
          if_neg (attrTarget_some htarget).1]

theorem targetsAgree_of_attrSymlink (hclass : classSymlink st node = none)
    (hlink : attrSymlink st node = some target) :
    TargetsAgree st pathname ↔ LinksMeet st node := by
  have hdispatch := dispatchResolveNode_of_lookup hpath hnode
  have hor : (classSymlink st node).or (attrSymlink st node) = some target := by
    rw [hclass, hlink]
    rfl
  have hreported := (reportedTarget_of_node hdispatch).trans hor
  have hdescribed := describedPath_of_link hpath hnode hor
  have hnodePath := path_of_lookup hpath hnode
  obtain ⟨hreads, hkeeps⟩ := readlinkTarget_of_attrSymlink hpath hwired hnode hclass hlink
  constructor
  · intro h
    have hlast : target.toList.getLast? ≠ some '\x00' := by
      obtain ⟨read, hread⟩ := h.isLink.mp ⟨target, hreported⟩
      have hlength := h.size target read hreported hread
      have hkept : target.toList.rdropWhile trimsReadlink = target.toList := by
        apply (List.rdropWhile_prefix trimsReadlink target.toList).eq_of_length
        rw [← hreads read hread, String.length_toList, String.length_toList, hlength]
      cases node with
      | vdevNode path id => cases hlink
      | vdir path vsysfs vmodule => cases hlink
      | attrNode path owner name size access => exact (rdropWhile_readlink_eq_self hlink).mp hkept
    refine ⟨fun other normalized hother _ => ?_, fun other hother => ?_⟩
    · rw [hclass] at hother
      cases hother
    · cases hlink.symm.trans hother
      refine ⟨hlast, ?_⟩
      cases habsolute : isAbsolute target with
      | true => exact .inl rfl
      | false =>
          right
          intro followed hfollowed
          rw [hnodePath] at hfollowed
          have hsame := h.path p target followed hpath (hkeeps hlast) hfollowed
          have hnone : normalizeAbsolutePath target = none := by
            unfold normalizeAbsolutePath
            rw [habsolute, if_neg Bool.false_ne_true]
          rw [hdescribed, hnone, Option.bind_none] at hsame
          cases hvirtual : isVirtual st followed with
          | false => rfl
          | true =>
              rw [hvirtual, if_pos rfl] at hsame
              cases hsame
  · intro h
    obtain ⟨hlast, hleads⟩ := h.attrLink target hlink
    have hread := hkeeps hlast
    refine ⟨⟨fun _ => ⟨_, hread⟩, fun _ => ⟨_, hreported⟩⟩, ?_, ?_⟩
    · intro reported read hreported' hread'
      cases hreported.symm.trans hreported'
      cases hread.symm.trans hread'
      rfl
    · intro path read followed hpath' hread' hfollowed
      cases hpath.symm.trans hpath'
      cases hread.symm.trans hread'
      rw [hdescribed]
      unfold resolveLink at hfollowed
      split at hfollowed
      · rw [hfollowed, Option.bind_some]
      · rename_i hrelative
        have hnone : normalizeAbsolutePath target = none := by
          unfold normalizeAbsolutePath
          rw [if_neg hrelative]
        have hforeign := (hleads.resolve_left hrelative) followed (by
          unfold resolveLink
          rw [if_neg hrelative, hnodePath]
          exact hfollowed)
        rw [hnone, Option.bind_none, hforeign, if_neg Bool.false_ne_true]

theorem targetsAgree_of_no_link (hclass : classSymlink st node = none)
    (hattr : attrSymlink st node = none) : TargetsAgree st pathname := by
  have hreported : reportedTarget st pathname = none := by
    rw [reportedTarget_of_node (dispatchResolveNode_of_lookup hpath hnode), hclass, hattr]
    rfl
  have hnone : virtualReadlinkTarget st node = none := by
    cases node with
    | vdevNode path id => rfl
    | attrNode path owner name size access =>
        have htarget : attrTarget st.live trimsSymlink owner name = none := hattr
        rw [virtualReadlinkTarget, attrTarget_readlink, htarget]
        rfl
    | vdir path vsysfs vmodule =>
        have hnodePath : path = p := path_of_lookup hpath hnode
        refine if_neg fun htext => ?_
        have hwiredPath : p = ["sys", "class", "subsystem"] := by
          apply pathText_inj (segments_of_normalize hpath) (by decide)
          rw [← hnodePath, htext]
          rfl
        rw [hardwiredTarget, if_pos hwiredPath] at hwired
        cases hwired
  have hread : readlinkTarget st pathname = some (.error .einval) := by
    rw [readlinkTarget_of_lookup hpath hwired hnode, readlinkNode, hclass]
    dsimp only
    rw [hnone]
  refine targetsAgree_of_neither hreported fun target hok => ?_
  rw [hread] at hok
  cases hok

end

theorem class_ne_append {tail a : String} :
    "/sys/class/" ++ tail ≠ "/sys/bus/" ++ a ∧ "/sys/class/" ++ tail ≠ "/sys/devices/" ++ a ∧
      "/sys/class/" ++ tail ≠ "/sys/module/" ++ a := by
  refine ⟨?_, ?_, ?_⟩
  · intro h
    have hchar := congrArg (fun text => text.toList[5]?) h
    simp at hchar
  · intro h
    have hchar := congrArg (fun text => text.toList[5]?) h
    simp at hchar
  · intro h
    have hchar := congrArg (fun text => text.toList[5]?) h
    simp at hchar

theorem no_attr_of_class {tail : String} (hp : ∀ x ∈ p, Segment x) (hne : p ≠ [])
    (htext : pathText p = "/sys/class/" ++ tail) (hlength : p.length ≤ 4) :
    Table.find st.snapshot.attrBindings p = none := by
  cases hfind : Table.find st.snapshot.attrBindings p with
  | none => rfl
  | some b =>
      obtain ⟨dir, hbound, hdir⟩ := st.bound p b hfind
      have hsame := htext.symm.trans hbound
      rcases hdir.text with ⟨c, d, rfl⟩ | ⟨c, rfl | rfl | rfl⟩
      · have hcount := congrArg (fun text => text.toList.count '/') hbound
        simp only [String.toList_append, List.count_append, count_pathText hne hp] at hcount
        have hfixed : "/sys/class/".toList.count '/' = 3 := by decide
        have hslash : "/".toList.count '/' = 1 := by decide
        omega
      · rw [String.append_assoc, String.append_assoc] at hsame
        exact absurd hsame class_ne_append.1
      · rw [String.append_assoc, String.append_assoc] at hsame
        exact absurd hsame class_ne_append.2.1
      · rw [String.append_assoc, String.append_assoc] at hsame
        exact absurd hsame class_ne_append.2.2

theorem classSymlink_of_reported {tail : String} (hpath : normalizeAbsolutePath pathname = some p)
    (hne : p ≠ []) (htext : pathText p = "/sys/class/" ++ tail) (hlength : p.length ≤ 4)
    (h : reportedTarget st pathname = some target) :
    ∃ node, lookupNode st p (hasTrailingSlash pathname) = some (.ok node) ∧
      classSymlink st node = some target := by
  unfold reportedTarget at h
  split at h
  · rename_i node hnode
    obtain ⟨hnormal, hresolve⟩ := dispatchResolveNode_ok hnode
    cases hpath.symm.trans hnormal
    have hlookup : lookupNode st node.path (hasTrailingSlash pathname) = some (.ok node) := by
      unfold dispatchResolveNode at hnode
      rw [hpath, Option.bind_some] at hnode
      exact hnode
    rcases Option.or_eq_some_iff.mp h with hclass | ⟨-, hattr⟩
    · exact ⟨node, hlookup, hclass⟩
    · have hnone : Table.find st.snapshot.attrBindings node.path = none :=
        no_attr_of_class (segments_of_normalize hpath) hne htext hlength
      rcases resolve_cases hresolve with ⟨b, attr, hb, -, -⟩ | ⟨id, -, hsame⟩ | ⟨-, hsame⟩
      · rw [hnone] at hb
        cases hb
      · rw [hsame] at hattr
        cases hattr
      · rw [hsame] at hattr
        cases hattr
  · cases h

theorem hardwiredTarget_some (h : hardwiredTarget st p = some target) :
    (p = ["sys", "class", "subsystem"] ∧ target = "/sys/class") ∨
      ∃ c, p = ["sys", "class", c, "subsystem"] ∧ target = "/sys/subsystem/" ++ c := by
  unfold hardwiredTarget at h
  split at h
  · rename_i hp
    cases h
    exact .inl ⟨hp, rfl⟩
  · obtain ⟨c, hc, htarget⟩ := Option.bind_eq_some_iff.mp h
    unfold extractVirtualClassSubsystemName at hc
    split at hc
    · cases hc
      split at htarget
      · cases htarget
        exact .inr ⟨c, rfl, rfl⟩
      · cases htarget
    · cases hc

theorem readlinkTarget_of_hardwired (hpath : normalizeAbsolutePath pathname = some p)
    (hwired : hardwiredTarget st p = some target) :
    readlinkTarget st pathname = some (.ok target) := by
  unfold readlinkTarget
  rw [hpath, Option.bind_some, hwired]

/-- A devices directory that normalizes to `/sys/subsystem/c` is longer than that text, as it
has to leave `/sys/devices` first. -/
theorem length_of_leaves_devices {a c : String}
    (h : normalizeAbsolutePath ("/sys/devices/" ++ a) = some ["sys", "subsystem", c]) :
    c.length + 13 ≤ a.length := by
  have hjoin : "/sys/devices/" ++ a = pathText ["sys", "devices"] ++ "/" ++ a := rfl
  rw [hjoin, normalize_join (by decide)] at h
  have hdescends : Descends "sys" "devices" 0 ["sys", "devices"] := .inl ⟨[], rfl⟩
  have hstack : Descends "sys" "devices" (0 + weight (pieces a))
      ((pieces a).foldl pushPiece ["sys", "devices"]) := descends_foldl hdescends
  rw [Option.some.inj h, weight_pieces] at hstack
  rcases hstack with ⟨rest, hsame⟩ | hweight
  · simp at hsame
  · change 4 + (10 + (c.length + 1 + 0)) + 2 ≤ 0 + (a.length + 1) + 3 at hweight
    omega

theorem not_targetsAgree_of_hardwired (hpath : normalizeAbsolutePath pathname = some p)
    (hwired : hardwiredTarget st p = some target) : ¬TargetsAgree st pathname := by
  intro h
  have hread := readlinkTarget_of_hardwired hpath hwired
  have hsegments := segments_of_normalize hpath
  obtain ⟨reported, hreported⟩ := h.isLink.mpr ⟨target, hread⟩
  rcases hardwiredTarget_some hwired with ⟨rfl, rfl⟩ | ⟨c, rfl, rfl⟩
  · have htext : pathText ["sys", "class", "subsystem"] = "/sys/class/" ++ "subsystem" := rfl
    obtain ⟨node, hnode, hclass⟩ :=
      classSymlink_of_reported hpath (by simp) htext (by simp) hreported
    have hnodePath := path_of_lookup hpath hnode
    obtain ⟨path, vsysfs, vmodule, id, v, rfl, -, hv, hdir, -, -⟩ := classSymlink_some hclass
    cases hnodePath
    exact absurd ((st.classText id v hv).three_lt_length hsegments hdir) (by simp)
  · have htext : pathText ["sys", "class", c, "subsystem"] =
        "/sys/class/" ++ (c ++ "/subsystem") := by
      simp [pathText, ← String.toList_inj]
    obtain ⟨node, hnode, hclass⟩ :=
      classSymlink_of_reported hpath (by simp) htext (by simp) hreported
    have hresolve := (dispatchResolveNode_ok (dispatchResolveNode_of_lookup hpath hnode)).2
    obtain ⟨q, hq, hvirtual⟩ := target_of_classSymlink hresolve hclass
    have hsize := h.size reported _ hreported hread
    have hfollowed : resolveLink ["sys", "class", c, "subsystem"] ("/sys/subsystem/" ++ c) =
        some ["sys", "subsystem", c] := by
      have hcanonical : "/sys/subsystem/" ++ c = pathText ["sys", "subsystem", c] := by
        simp [pathText, ← String.toList_inj]
      have hnames : ∀ x ∈ ["sys", "subsystem", c], Segment x := by
        have hc : Segment c := hsegments c (by simp)
        have hfixed : Segment "sys" ∧ Segment "subsystem" := by decide
        simp [hc, hfixed]
      unfold resolveLink
      rw [hcanonical, isAbsolute_pathText, if_pos rfl, normalize_pathText hnames]
    have hor : (classSymlink st node).or (attrSymlink st node) = some reported := by
      rw [hclass]
      rfl
    have hdescribed := h.path _ _ _ hpath hread hfollowed
    rw [describedPath_of_link hpath hnode hor, hq, Option.bind_some, hvirtual, if_pos rfl]
      at hdescribed
    split at hdescribed
    · cases hdescribed
      obtain ⟨path, vsysfs, vmodule, id, v, rfl, -, hv, -, -, rfl⟩ := classSymlink_some hclass
      obtain ⟨a, ha⟩ := st.devicesText id v hv
      rw [ha] at hq hsize
      have hlonger := length_of_leaves_devices hq
      rw [String.length_append, String.length_append] at hsize
      change 13 + a.length = 15 + c.length at hsize
      omega
    · cases hdescribed

theorem targetsAgree_iff_meet (hpath : normalizeAbsolutePath pathname = some p)
    (hwired : hardwiredTarget st p = none)
    (hnode : lookupNode st p (hasTrailingSlash pathname) = some (.ok node)) :
    TargetsAgree st pathname ↔ LinksMeet st node := by
  cases hclass : classSymlink st node with
  | some target => exact targetsAgree_of_classSymlink hpath hwired hnode hclass
  | none =>
      cases hattr : attrSymlink st node with
      | some target => exact targetsAgree_of_attrSymlink hpath hwired hnode hclass hattr
      | none =>
          have hmeet : LinksMeet st node := by
            refine ⟨fun target normalized htarget => ?_, fun target htarget => ?_⟩
            · rw [hclass] at htarget
              cases htarget
            · rw [hattr] at htarget
              cases htarget
          exact ⟨fun _ => hmeet, fun _ => targetsAgree_of_no_link hpath hwired hnode hclass hattr⟩

theorem targetsAgree_iff_nodes (hpath : normalizeAbsolutePath pathname = some p)
    (hwired : hardwiredTarget st p = none) :
    TargetsAgree st pathname ↔
      ∀ node, lookupNode st p (hasTrailingSlash pathname) = some (.ok node) →
        LinksMeet st node := by
  by_cases hnode : ∃ node, lookupNode st p (hasTrailingSlash pathname) = some (.ok node)
  · obtain ⟨node, hnode⟩ := hnode
    rw [targetsAgree_iff_meet hpath hwired hnode]
    constructor
    · intro h other hother
      cases hnode.symm.trans hother
      exact h
    · exact fun h => h node hnode
  · have hagree : TargetsAgree st pathname := by
      apply targetsAgree_of_neither
      · unfold reportedTarget dispatchResolveNode
        rw [hpath, Option.bind_some]
        split
        · rename_i node hfound
          exact absurd ⟨node, hfound⟩ hnode
        · rfl
      · intro target hread
        unfold readlinkTarget at hread
        rw [hpath, Option.bind_some, hwired] at hread
        obtain ⟨resolved, hresolved, hok⟩ := Option.map_eq_some_iff.mp hread
        cases resolved with
        | error errno => cases hok
        | ok node => exact hnode ⟨node, hresolved⟩
    exact ⟨fun _ node hfound => absurd ⟨node, hfound⟩ hnode, fun _ => hagree⟩

/-- The two views of the links agree on a path exactly if it is none of the hard-wired links
and the links of its node meet. -/
theorem symlink_views_agree_iff (st : VirtualState) (pathname : String) :
    SymlinkViewsAgree st pathname ↔ ∀ path, normalizeAbsolutePath pathname = some path →
      hardwiredTarget st path = none ∧
        ∀ node, lookupNode st path (hasTrailingSlash pathname) = some (.ok node) →
          LinksMeet st node := by
  rw [symlinkViewsAgree_iff_targets]
  cases hpath : normalizeAbsolutePath pathname with
  | none =>
      have hagree : TargetsAgree st pathname := by
        apply targetsAgree_of_neither
        · simp [reportedTarget, dispatchResolveNode, hpath]
        · simp [readlinkTarget, hpath]
      exact ⟨fun _ path hsome => (by cases hsome), fun _ => hagree⟩
  | some p =>
      cases hwired : hardwiredTarget st p with
      | some target =>
          constructor
          · intro h
            exact absurd h (not_targetsAgree_of_hardwired hpath hwired)
          · intro h
            cases hwired.symm.trans (h p rfl).1
      | none =>
          have hnodes : TargetsAgree st pathname ↔
              ∀ node, lookupNode st p (hasTrailingSlash pathname) = some (.ok node) →
                LinksMeet st node := targetsAgree_iff_nodes hpath hwired
          rw [hnodes]
          constructor
          · intro h path hsame
            cases hsame
            exact ⟨hwired, h⟩
          · intro h
            exact (h p rfl).2

theorem relativeTarget_length_ne {classDir devicesDir : Path} (hclass : ClassDir classDir)
    (hdevices : DevicesDir devicesDir) :
    (relativeTarget classDir devicesDir).length ≠ (pathText devicesDir).length := by
  have hrest : ∃ a, pathText devicesDir = "/sys/devices/" ++ a ∧
      (relativeTarget classDir devicesDir = "../../devices/" ++ a ∨
        relativeTarget classDir devicesDir = "../../../devices/" ++ a) := by
    rcases hdevices with ⟨z, w, -, -, rfl⟩ | ⟨z, w, v, -, -, -, rfl⟩
    · refine ⟨z ++ "/" ++ w, by simp [pathText, ← String.toList_inj], ?_⟩
      rcases hclass with ⟨x, y, -, -, rfl⟩ | ⟨x, y, -, -, rfl⟩
      · exact .inl (by simp [relativeTarget, commonLength, List.replicate, ← String.toList_inj])
      · exact .inr (by simp [relativeTarget, commonLength, List.replicate, ← String.toList_inj])
    · refine ⟨z ++ "/" ++ w ++ "/" ++ v, by simp [pathText, ← String.toList_inj], ?_⟩
      rcases hclass with ⟨x, y, -, -, rfl⟩ | ⟨x, y, -, -, rfl⟩
      · exact .inl (by simp [relativeTarget, commonLength, List.replicate, ← String.toList_inj])
      · exact .inr (by simp [relativeTarget, commonLength, List.replicate, ← String.toList_inj])
  obtain ⟨a, htext, hrel | hrel⟩ := hrest
  · rw [htext, hrel, String.length_append, String.length_append]
    change 14 + a.length ≠ 13 + a.length
    omega
  · rw [htext, hrel, String.length_append, String.length_append]
    change 17 + a.length ≠ 13 + a.length
    omega

theorem ClassDir.segments {dir : Path} (h : ClassDir dir) : ∀ x ∈ dir, Segment x := by
  have hfixed : Segment "sys" ∧ Segment "class" ∧ Segment "bus" ∧ Segment "devices" := by decide
  rcases h with ⟨x, y, hx, hy, rfl⟩ | ⟨x, y, hx, hy, rfl⟩
  · simp [hx, hy, hfixed]
  · simp [hx, hy, hfixed]

theorem DevicesDir.segments {dir : Path} (h : DevicesDir dir) : ∀ x ∈ dir, Segment x := by
  have hfixed : Segment "sys" ∧ Segment "devices" := by decide
  rcases h with ⟨x, y, hx, hy, rfl⟩ | ⟨x, y, z, hx, hy, hz, rfl⟩
  · simp [hx, hy, hfixed]
  · simp [hx, hy, hz, hfixed]

/-- With names of one segment the views of a class link never agree. -/
theorem not_linksMeet_of_classSymlink {r : Registry} (hnamed : r.WellNamed)
    (hp : ∀ x ∈ node.path, Segment x)
    (hlink : classSymlink (.ofRegistry r hnamed) node = some target) :
    ¬LinksMeet (.ofRegistry r hnamed) node := by
  intro hmeet
  obtain ⟨path, vsysfs, vmodule, id, v, rfl, -, hv, hdir, -, rfl⟩ := classSymlink_some hlink
  obtain ⟨object, hget, rfl⟩ := Option.map_eq_some_iff.mp hv
  have hobject := hnamed.vsysfs object (List.mem_of_getElem? hget)
  have hpath : path = object.classDir := pathText_inj hp hobject.classDir.segments hdir
  have hlength := hmeet.classLink _ _ hlink (normalize_pathText hobject.devicesDir.segments)
  refine relativeTarget_length_ne hobject.classDir hobject.devicesDir ?_
  rw [← hpath]
  exact hlength

def linkedDevice : List Action :=
  [.addRoot "rank" "pci" "rank*" "pci*", .start (.vdevCreate "rank0" 240 0), .turn 0 true,
    .turn 0 true, .turn 0 true, .start (.vsysfsCreate 0 0 "rank0"), .turn 1 true, .turn 1 true,
    .turn 1 true, .turn 1 true]

/-- The class link of a device is reported with the length of `/sys/devices/pci/rank0` and read
as `../../devices/pci/rank0`. -/
theorem class_link_longer : ∃ (s : State) (hnamed : s.registry.WellNamed),
    run step init linkedDevice = some s ∧
      ¬SymlinkViewsAgree (.ofRegistry s.registry hnamed) "/sys/class/rank/rank0" := by
  have hends : ∃ s, run step init linkedDevice = some s ∧
      resolve s.fresh s.registry.live ["sys", "class", "rank", "rank0"] =
        some (.vdir ["sys", "class", "rank", "rank0"] (some 0) none) ∧
      s.registry.texts 0 =
        some ⟨"/sys/class/rank/rank0", "/sys/devices/pci/rank0", true⟩ :=
    exists_run (by decide +kernel)
  obtain ⟨s, hrun, hresolve, htexts⟩ := hends
  have hnamed := run_named (by decide +kernel) hrun
  refine ⟨s, hnamed, hrun, ?_⟩
  rw [symlinkViewsAgree_iff_targets]
  intro hagree
  have hpath : normalizeAbsolutePath "/sys/class/rank/rank0" =
      some ["sys", "class", "rank", "rank0"] := by decide +kernel
  have hslash : hasTrailingSlash "/sys/class/rank/rank0" = false := by decide +kernel
  have hnode : lookupNode (.ofRegistry s.registry hnamed) ["sys", "class", "rank", "rank0"]
      (hasTrailingSlash "/sys/class/rank/rank0") =
        some (.ok (.vdir ["sys", "class", "rank", "rank0"] (some 0) none)) := by
    rw [hslash]
    change (resolve s.fresh s.registry.live ["sys", "class", "rank", "rank0"]).map _ = _
    rw [hresolve]
    rfl
  have hclass : classSymlink (.ofRegistry s.registry hnamed)
      (.vdir ["sys", "class", "rank", "rank0"] (some 0) none) =
        some "/sys/devices/pci/rank0" := by
    have hview : (VirtualState.ofRegistry s.registry hnamed).vsysfs 0 =
        some ⟨"/sys/class/rank/rank0", "/sys/devices/pci/rank0", true⟩ := htexts
    unfold classSymlink
    dsimp only
    rw [hview]
    decide +kernel
  exact not_linksMeet_of_classSymlink hnamed (by decide) hclass
    ((targetsAgree_iff_meet hpath rfl hnode).mp hagree)

end HostPimSim.Vfile.Namespace
