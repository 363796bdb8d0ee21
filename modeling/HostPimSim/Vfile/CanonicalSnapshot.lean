import HostPimSim.Vfile.TextSnapshot

/-! Objects whose texts are canonical: the snapshot with texts for keys answers every lookup as
the one with paths does. -/
namespace HostPimSim.Vfile.Namespace
open Attribute

variable {s : Snapshot} {t : TextSnapshot} {p q : Path} {leaf : DType}

def Snapshot.withMaps (s maps : Snapshot) : Snapshot := { maps with dirs := s.dirs }

theorem ensureDir_withMaps (s maps : Snapshot) (path : Path) :
    ensureDir (s.withMaps maps) path = (ensureDir s path).withMaps maps := by
  unfold ensureDir
  by_cases h : (Table.find s.dirs path).isSome = true
  · rw [if_pos h, if_pos (show (Table.find (s.withMaps maps).dirs path).isSome = true from h)]
  · rw [if_neg h, if_neg (show ¬(Table.find (s.withMaps maps).dirs path).isSome = true from h)]
    rfl

theorem addChild_withMaps (s maps : Snapshot) (parent : Path) (name : String) (dtype : DType) :
    addChild (s.withMaps maps) parent name dtype =
      (addChild s parent name dtype).withMaps maps := by
  have hdirs : (s.withMaps maps).dirs = s.dirs := rfl
  unfold addChild
  by_cases hname : name = ""
  · rw [if_pos hname, if_pos hname]
  · rw [if_neg hname, if_neg hname]
    dsimp only
    rw [hdirs]
    cases Table.find ((Table.find s.dirs parent).getD []) name with
    | none => rfl
    | some old =>
        cases old with
        | unknown => rfl
        | _ => rfl

theorem addSegments_withMaps (s maps : Snapshot) (current : Path) (leaf : DType)
    (rest : List String) :
    addSegments (s.withMaps maps) current leaf rest =
      (addSegments s current leaf rest).withMaps maps := by
  induction s, current, rest using addSegments.induct leaf with
  | case1 s current => rfl
  | case2 s current name hleaf =>
      rw [addSegments, addSegments, if_pos hleaf, if_pos hleaf, addChild_withMaps,
        ensureDir_withMaps]
  | case3 s current name hleaf =>
      rw [addSegments, addSegments, if_neg hleaf, if_neg hleaf, addChild_withMaps]
  | case4 s current name rest hrest ih =>
      rw [addSegments, addSegments, addChild_withMaps, ensureDir_withMaps, ih]
      · exact hrest
      · exact hrest

theorem addPath_withMaps (s maps : Snapshot) (path : Path) (leaf : DType) :
    addPath (s.withMaps maps) path leaf = (addPath s path leaf).withMaps maps := by
  unfold addPath
  rw [ensureDir_withMaps, addSegments_withMaps]

structure Renders (s : Snapshot) (t : TextSnapshot) : Prop where
  dirs : t.tree.dirs = s.dirs
  nodes : ∀ p, (∀ x ∈ p, Segment x) →
    Table.find t.vfileNodes (pathText p) = Table.find s.vfileNodes p
  vsysfs : ∀ p, (∀ x ∈ p, Segment x) →
    Table.find t.vsysfsDirs (pathText p) = Table.find s.vsysfsDirs p
  vmodules : ∀ p, (∀ x ∈ p, Segment x) →
    Table.find t.vmoduleDirs (pathText p) = Table.find s.vmoduleDirs p
  attrs : ∀ p, (∀ x ∈ p, Segment x) →
    Table.find t.attrBindings (pathText p) = Table.find s.attrBindings p

theorem Renders.addPath (h : Renders s t) (hq : ∀ x ∈ q, Segment x) (leaf : DType) :
    Renders (addPath s q leaf) (t.addPath (pathText q) leaf) := by
  have hself : Namespace.addPath s q leaf = (Namespace.addPath s q leaf).withMaps s :=
    addPath_withMaps s s q leaf
  have htree : Namespace.addPath t.tree q leaf = (Namespace.addPath s q leaf).withMaps t.tree := by
    rw [← addPath_withMaps]
    unfold Snapshot.withMaps
    rw [← h.dirs]
  unfold TextSnapshot.addPath
  rw [normalize_pathText hq, hself]
  dsimp only
  rw [htree]
  exact ⟨rfl, h.nodes, h.vsysfs, h.vmodules, h.attrs⟩

theorem resolve_of_renders (h : Renders s t) (live : Owner → String → Option Attr)
    (text : String) : t.resolve live text = (normalizeAbsolutePath text).bind (resolve s live) := by
  unfold TextSnapshot.resolve
  cases hnormal : normalizeAbsolutePath text with
  | none => rfl
  | some p =>
      have hsegments := segments_of_normalize hnormal
      rw [Option.bind_some, Option.bind_some, h.attrs p hsegments, h.nodes p hsegments,
        h.vsysfs p hsegments, h.vmodules p hsegments, h.dirs]
      rfl

def CanonicalText (text : String) : Prop :=
  ∃ p, p ≠ [] ∧ (∀ x ∈ p, Segment x) ∧ text = pathText p

structure VsysfsObject.Canonical (v : VsysfsObject) : Prop where
  classDir : CanonicalText v.classDir
  devicesDir : CanonicalText v.devicesDir
  attrs : ∀ name ∈ Table.keys v.attrs, Segment name

structure VmoduleObject.Canonical (m : VmoduleObject) : Prop where
  dir : CanonicalText m.dir
  attrs : ∀ name ∈ Table.keys m.attrs, Segment name
  drivers : ∀ driver ∈ m.registeredDrivers, Segment driver.1 ∧ Segment driver.2

def pathOf (text : String) : Path := (normalizeAbsolutePath text).getD []

def VsysfsObject.seed (v : VsysfsObject) (distinctGlobs : Bool) : VsysfsSeed :=
  ⟨pathOf v.classDir, pathOf v.devicesDir, distinctGlobs, Table.keys v.attrs⟩

def VmoduleObject.seed (m : VmoduleObject) : VmoduleSeed :=
  ⟨pathOf m.dir, Table.keys m.attrs, m.registeredDrivers⟩

def textSeeds (distinctGlobs : VsysfsObject → Bool) (vdevs : List (Nat × VdevObject))
    (vsysfs : List (Nat × VsysfsObject)) (vmodules : List (Nat × VmoduleObject)) : Seeds :=
  ⟨vdevs.map fun entry => (entry.1, pathOf entry.2.path),
    vsysfs.map fun entry => (entry.1, entry.2.seed (distinctGlobs entry.2)),
    vmodules.map fun entry => (entry.1, entry.2.seed)⟩

theorem pathOf_pathText (h : ∀ x ∈ p, Segment x) : pathOf (pathText p) = p := by
  unfold pathOf
  rw [normalize_pathText h]
  rfl

theorem pathText_ne_empty (p : Path) : pathText p ≠ "" := by
  rw [ne_eq, ← String.toList_inj, toList_pathText]
  exact List.cons_ne_nil _ _

theorem find_put_pathText {β : Type} {rows : List (Path × β)} {texts : List (String × β)}
    (hq : ∀ x ∈ q, Segment x)
    (h : ∀ p, (∀ x ∈ p, Segment x) → Table.find texts (pathText p) = Table.find rows p)
    (value : β) (p : Path) (hp : ∀ x ∈ p, Segment x) :
    Table.find (Table.put texts (pathText q) value) (pathText p) =
      Table.find (Table.put rows q value) p := by
  rw [Table.find_put, Table.find_put, h p hp]
  by_cases heq : p = q
  · rw [heq, if_pos rfl, if_pos rfl]
  · rw [if_neg heq, if_neg fun htext => heq (pathText_inj hp hq htext)]

theorem Renders.addVdev (h : Renders s t) {vdev : Nat × VdevObject}
    (hpath : CanonicalText vdev.2.path) :
    Renders (addVdev s (vdev.1, pathOf vdev.2.path)) (t.addVdev vdev) := by
  obtain ⟨q, -, hq, hpath⟩ := hpath
  have hadded := h.addPath hq .chr
  unfold TextSnapshot.addVdev Namespace.addVdev
  rw [hpath, pathOf_pathText hq, if_neg (pathText_ne_empty q)]
  exact ⟨hadded.dirs, find_put_pathText hq hadded.nodes vdev.1, hadded.vsysfs, hadded.vmodules,
    hadded.attrs⟩

theorem Renders.bindAttr (h : Renders s t) (hne : q ≠ []) (hq : ∀ x ∈ q, Segment x)
    (owner : Owner) {name : String} (hname : Segment name) :
    Renders (bindAttr owner q s name) (t.bindAttr owner (pathText q) name) := by
  have hattr : ∀ x ∈ q ++ [name], Segment x := by
    intro x hx
    rcases List.mem_append.mp hx with hx | hx
    · exact hq x hx
    · rw [List.mem_singleton.mp hx]
      exact hname
  have hadded := h.addPath hattr .reg
  unfold TextSnapshot.bindAttr Namespace.bindAttr
  rw [← pathText_append hne]
  refine ⟨hadded.dirs, hadded.nodes, hadded.vsysfs, hadded.vmodules, fun p hp => ?_⟩
  unfold Table.emplace emplace
  dsimp only
  rw [hadded.attrs _ hattr]
  split
  · exact hadded.attrs p hp
  · exact find_put_pathText hattr hadded.attrs _ p hp

theorem Renders.bindAttrs (h : Renders s t) (hne : q ≠ []) (hq : ∀ x ∈ q, Segment x)
    (owner : Owner) {names : List String} (hnames : ∀ name ∈ names, Segment name) :
    Renders (names.foldl (Namespace.bindAttr owner q) s)
      (names.foldl (TextSnapshot.bindAttr owner (pathText q)) t) :=
  List.foldl_rel h fun name hname _ _ hr => hr.bindAttr hne hq owner (hnames name hname)

section

variable {v : VsysfsObject} (hv : v.Canonical) (distinctGlobs : Bool)
include hv

theorem VsysfsObject.Canonical.concreteDirs :
    v.concreteDirs = (v.seed distinctGlobs).dirs.map pathText := by
  obtain ⟨⟨p, -, hp, hclass⟩, ⟨q, -, hq, hdevices⟩, -⟩ := hv
  unfold VsysfsObject.concreteDirs VsysfsSeed.dirs VsysfsObject.seed
  rw [hclass, hdevices, pathOf_pathText hp, pathOf_pathText hq, if_neg (pathText_ne_empty p)]
  by_cases heq : q = p
  · rw [heq, if_pos (.inr rfl), if_pos rfl]
    rfl
  · rw [if_neg heq, if_neg]
    · rfl
    · exact not_or.mpr ⟨pathText_ne_empty q, fun htext => heq (pathText_inj hq hp htext)⟩

theorem VsysfsObject.Canonical.dirs : ∀ dir ∈ (v.seed distinctGlobs).dirs,
    dir ≠ [] ∧ ∀ x ∈ dir, Segment x := by
  obtain ⟨⟨p, hpne, hp, hclass⟩, ⟨q, hqne, hq, hdevices⟩, -⟩ := hv
  unfold VsysfsSeed.dirs VsysfsObject.seed
  rw [hclass, hdevices, pathOf_pathText hp, pathOf_pathText hq]
  split
  · exact List.forall_mem_singleton.mpr ⟨hpne, hp⟩
  · exact List.forall_mem_cons.mpr ⟨⟨hpne, hp⟩, List.forall_mem_singleton.mpr ⟨hqne, hq⟩⟩

theorem VsysfsObject.Canonical.leafType (hq : ∀ x ∈ q, Segment x) :
    v.leafType distinctGlobs (pathText q) =
      Namespace.leafType (v.seed distinctGlobs) q := by
  obtain ⟨⟨p, -, hp, hclass⟩, ⟨r, -, hr, hdevices⟩, -⟩ := hv
  have hsame : pathText q = pathText p ↔ q = p := ⟨pathText_inj hq hp, congrArg pathText⟩
  have hapart : pathText p = pathText r ↔ p = r := ⟨pathText_inj hp hr, congrArg pathText⟩
  unfold VsysfsObject.leafType Namespace.leafType VsysfsObject.seed
  rw [hclass, hdevices, pathOf_pathText hp, pathOf_pathText hr]
  simp only [pathText_ne_empty, hsame, hapart, ne_eq, not_false_eq_true, true_and]

theorem Renders.addVsysfsDir (h : Renders s t) (id : Nat) (hne : q ≠ [])
    (hq : ∀ x ∈ q, Segment x) :
    Renders (addVsysfsDir id (v.seed distinctGlobs) s q)
      (t.addVsysfsDir distinctGlobs (id, v) (pathText q)) := by
  have hadded := h.addPath hq (Namespace.leafType (v.seed distinctGlobs) q)
  unfold TextSnapshot.addVsysfsDir Namespace.addVsysfsDir
  dsimp only
  rw [hv.leafType distinctGlobs hq]
  refine Renders.bindAttrs ?_ hne hq _ hv.attrs
  exact ⟨hadded.dirs, hadded.nodes, find_put_pathText hq hadded.vsysfs id, hadded.vmodules,
    hadded.attrs⟩

end

theorem Renders.addVsysfs (h : Renders s t) (distinctGlobs : VsysfsObject → Bool)
    {entry : Nat × VsysfsObject} (hv : entry.2.Canonical) :
    Renders (addVsysfs s (entry.1, entry.2.seed (distinctGlobs entry.2)))
      (t.addVsysfs distinctGlobs entry) := by
  unfold TextSnapshot.addVsysfs Namespace.addVsysfs
  rw [hv.concreteDirs (distinctGlobs entry.2), List.foldl_map]
  refine List.foldl_rel h fun dir hdir _ _ hr => ?_
  obtain ⟨hne, hsegments⟩ := hv.dirs _ dir hdir
  exact hr.addVsysfsDir hv _ entry.1 hne hsegments

theorem Renders.addBusDriverDir (h : Renders s t) {driver : String × String}
    (hbus : Segment driver.1) (hdriver : Segment driver.2) :
    Renders (addBusDriverDir s driver) (t.addBusDriverDir driver) := by
  have htext : "/sys/bus/" ++ driver.1 ++ "/drivers/" ++ driver.2 = pathText (driverPath driver) := by
    simp [pathText, driverPath, ← String.toList_inj]
  have hsegments : ∀ x ∈ driverPath driver, Segment x := by
    intro x hx
    unfold driverPath at hx
    simp only [List.mem_cons, List.not_mem_nil, or_false] at hx
    rcases hx with rfl | rfl | rfl | rfl | rfl
    · decide
    · decide
    · exact hbus
    · decide
    · exact hdriver
  unfold TextSnapshot.addBusDriverDir Namespace.addBusDriverDir
  rw [htext]
  split
  · exact h
  · exact h.addPath hsegments .dir

theorem Renders.addVmodule (h : Renders s t) {entry : Nat × VmoduleObject}
    (hm : entry.2.Canonical) :
    Renders (addVmodule s (entry.1, entry.2.seed)) (t.addVmodule entry) := by
  obtain ⟨⟨q, hne, hq, hdir⟩, hattrs, hdrivers⟩ := hm
  have hadded := h.addPath hq .dir
  unfold TextSnapshot.addVmodule Namespace.addVmodule VmoduleObject.seed
  rw [hdir, if_neg (pathText_ne_empty q), pathOf_pathText hq]
  refine List.foldl_rel (Renders.bindAttrs ?_ hne hq _ hattrs) fun driver hmem _ _ hr =>
    hr.addBusDriverDir (hdrivers driver hmem).1 (hdrivers driver hmem).2
  exact ⟨hadded.dirs, hadded.nodes, hadded.vsysfs, find_put_pathText hq hadded.vmodules entry.1,
    hadded.attrs⟩

variable {distinctGlobs : VsysfsObject → Bool} {vdevs : List (Nat × VdevObject)}
  {vsysfs : List (Nat × VsysfsObject)} {vmodules : List (Nat × VmoduleObject)}

/-- A lookup among canonical objects is the one by paths, on the normal form of its text. -/
theorem resolve_buildTextSnapshot (hvdevs : ∀ entry ∈ vdevs, CanonicalText entry.2.path)
    (hvsysfs : ∀ entry ∈ vsysfs, entry.2.Canonical)
    (hvmodules : ∀ entry ∈ vmodules, entry.2.Canonical) (live : Owner → String → Option Attr)
    (text : String) :
    (buildTextSnapshot distinctGlobs vdevs vsysfs vmodules).resolve live text =
      (normalizeAbsolutePath text).bind
        (resolve (buildSnapshot (textSeeds distinctGlobs vdevs vsysfs vmodules)) live) := by
  refine resolve_of_renders ?_ live text
  have hempty : Renders (ensureDir ⟨[], [], [], [], []⟩ []) .empty :=
    ⟨rfl, fun _ _ => rfl, fun _ _ => rfl, fun _ _ => rfl, fun _ _ => rfl⟩
  unfold buildSnapshot buildTextSnapshot textSeeds
  rw [List.foldl_map, List.foldl_map, List.foldl_map]
  refine List.foldl_rel (List.foldl_rel (List.foldl_rel hempty ?_) ?_) ?_
  · exact fun entry hentry _ _ hr => hr.addVdev (hvdevs entry hentry)
  · exact fun entry hentry _ _ hr => hr.addVsysfs distinctGlobs (hvsysfs entry hentry)
  · exact fun entry hentry _ _ hr => hr.addVmodule (hvmodules entry hentry)

end HostPimSim.Vfile.Namespace
