import HostPimSim.Vfile.ObjectPaths
import HostPimSim.Vfile.PathText

/-! The state that the calls on virtual paths read: a snapshot, and the objects it refers to as
they are now.  What is known of a state holds of every build, whatever names the objects were
made with; `VirtualState.ofRegistry` takes it from the registry. -/
namespace HostPimSim.Vfile.Namespace
open Attribute

/-- The directories that a `pim_vsysfs_t` stores, and whether the globs of its root differ. -/
structure VsysfsDirs where
  classDir : String
  devicesDir : String
  distinctGlobs : Bool
  deriving DecidableEq

def ClassText (dir : String) : Prop :=
  ∃ a b, dir = "/sys/class/" ++ a ++ "/" ++ b ∨ dir = "/sys/bus/" ++ a ++ "/devices/" ++ b

def HasDir (vsysfs : Nat → Option VsysfsDirs) (vmoduleDir : Nat → Option String) :
    Owner → String → Prop
  | .vsysfs id, dir => ∃ v, vsysfs id = some v ∧ (dir = v.classDir ∨ dir = v.devicesDir)
  | .vmodule id, dir => vmoduleDir id = some dir

structure VirtualState where
  snapshot : Snapshot
  vdev : Nat → Option (BitVec 32 × BitVec 32)
  vsysfs : Nat → Option VsysfsDirs
  vmoduleDir : Nat → Option String
  live : Owner → String → Option Attr
  /-- The class names of the registered roots. -/
  classNames : List String
  classText : ∀ id v, vsysfs id = some v → ClassText v.classDir
  devicesText : ∀ id v, vsysfs id = some v → ∃ a, v.devicesDir = "/sys/devices/" ++ a
  moduleText : ∀ id dir, vmoduleDir id = some dir → ∃ a, dir = "/sys/module/" ++ a
  /-- A device node keeps its device. -/
  device : ∀ p id, Table.find snapshot.vfileNodes p = some id → (vdev id).isSome = true
  /-- An attribute is bound below a directory of its owner. -/
  bound : ∀ p b, Table.find snapshot.attrBindings p = some b →
    ∃ dir, pathText p = dir ++ "/" ++ b.attrName ∧ HasDir vsysfs vmoduleDir b.owner dir
  /-- The devices directory of an object is there with its class directory. -/
  target : ∀ p id v, Table.find snapshot.vsysfsDirs p = some id → vsysfs id = some v →
    ∃ q, normalizeAbsolutePath v.devicesDir = some q ∧ isDir snapshot q
  keys : KeysNodup snapshot
  /-- What has a node is a row of its parent. -/
  row : ∀ dir x, isDir snapshot (dir ++ [x]) ∨
      (Table.find snapshot.vfileNodes (dir ++ [x])).isSome = true ∨
      (Table.find snapshot.attrBindings (dir ++ [x])).isSome = true →
    (childAt snapshot dir x).isSome = true

theorem HasDir.text {st : VirtualState} {owner : Owner} {dir : String}
    (h : HasDir st.vsysfs st.vmoduleDir owner dir) :
    (∃ a b, dir = "/sys/class/" ++ a ++ "/" ++ b) ∨
      ∃ a, dir = "/sys/bus/" ++ a ∨ dir = "/sys/devices/" ++ a ∨ dir = "/sys/module/" ++ a := by
  cases owner with
  | vsysfs id =>
      obtain ⟨v, hv, rfl | rfl⟩ := h
      · obtain ⟨a, b, hclass | hbus⟩ := st.classText id v hv
        · exact .inl ⟨a, b, hclass⟩
        · refine .inr ⟨a ++ "/devices/" ++ b, .inl ?_⟩
          rw [hbus, String.append_assoc, String.append_assoc, String.append_assoc]
      · obtain ⟨a, hdevices⟩ := st.devicesText id v hv
        exact .inr ⟨a, .inr (.inl hdevices)⟩
  | vmodule id =>
      obtain ⟨a, hmodule⟩ := st.moduleText id dir h
      exact .inr ⟨a, .inr (.inr hmodule)⟩

theorem addSegments_vsysfsDirs (s : Snapshot) (current : Path) (leaf : DType)
    (rest : List String) :
    (addSegments s current leaf rest).vsysfsDirs = s.vsysfsDirs := by
  have hensure : ∀ (s : Snapshot) path, (ensureDir s path).vsysfsDirs = s.vsysfsDirs := by
    intro s path
    unfold ensureDir
    split <;> rfl
  have hchild : ∀ (s : Snapshot) parent name dtype,
      (addChild s parent name dtype).vsysfsDirs = s.vsysfsDirs := by
    intro s parent name dtype
    unfold addChild
    split
    · rfl
    · dsimp only
      split <;> rfl
  fun_induction addSegments s current leaf rest with
  | case1 s current => rfl
  | case2 s current name added hdir => exact (hensure added _).trans (hchild s current name leaf)
  | case3 s current name added hdir => exact hchild s current name leaf
  | case4 s current name rest hrest ih =>
      exact ih.trans ((hensure _ _).trans (hchild s current name .dir))

theorem addPath_vsysfsDirs (s : Snapshot) (path : Path) (leaf : DType) :
    (addPath s path leaf).vsysfsDirs = s.vsysfsDirs := by
  unfold addPath
  rw [addSegments_vsysfsDirs]
  unfold ensureDir
  split <;> rfl

def Seeds.HasDir (seeds : Seeds) : Owner → Path → Prop
  | .vsysfs id, dir => ∃ seed, (id, seed) ∈ seeds.vsysfs ∧ dir ∈ seed.dirs
  | .vmodule id, dir => ∃ seed, (id, seed) ∈ seeds.vmodules ∧ dir = seed.dir

/-- The objects that the maps refer to are those of the seeds, each at its own directories. -/
structure Recorded (seeds : Seeds) (s : Snapshot) : Prop where
  attrs : ∀ p b, Table.find s.attrBindings p = some b →
    ∃ dir, p = dir ++ [b.attrName] ∧ seeds.HasDir b.owner dir
  dirs : ∀ p id, Table.find s.vsysfsDirs p = some id →
    ∃ seed, (id, seed) ∈ seeds.vsysfs ∧ p ∈ seed.dirs
  nodes : ∀ p id, Table.find s.vfileNodes p = some id → (id, p) ∈ seeds.vdevs

variable {seeds : Seeds} {s after : Snapshot}

theorem Recorded.same (h : Recorded seeds s) (hattrs : after.attrBindings = s.attrBindings)
    (hdirs : after.vsysfsDirs = s.vsysfsDirs) (hnodes : after.vfileNodes = s.vfileNodes) :
    Recorded seeds after := by
  refine ⟨?_, ?_, ?_⟩
  · rw [hattrs]
    exact h.attrs
  · rw [hdirs]
    exact h.dirs
  · rw [hnodes]
    exact h.nodes

theorem Recorded.addPath (h : Recorded seeds s) (path : Path) (leaf : DType) :
    Recorded seeds (addPath s path leaf) :=
  h.same (addPath_maps s path leaf).1 (addPath_vsysfsDirs s path leaf) (addPath_maps s path leaf).2

theorem Recorded.bindAttrs {owner : Owner} {dir : Path} (h : Recorded seeds s)
    (howner : seeds.HasDir owner dir) (names : List String) :
    Recorded seeds (names.foldl (bindAttr owner dir) s) := by
  refine List.foldlRecOn names _ h fun s hs name _ => ?_
  obtain ⟨hattrs, hdirs, hnodes⟩ := hs.addPath (dir ++ [name]) .reg
  refine ⟨?_, hdirs, hnodes⟩
  intro p b hfind
  unfold bindAttr at hfind
  dsimp only at hfind
  rw [find_emplace] at hfind
  split at hfind
  · rename_i hnew
    cases hfind
    exact ⟨dir, hnew.1, howner⟩
  · exact hattrs p b hfind

theorem recorded_buildSnapshot (seeds : Seeds) : Recorded seeds (buildSnapshot seeds) := by
  have hempty : Recorded seeds (ensureDir ⟨[], [], [], [], []⟩ []) := by
    refine ⟨?_, ?_, ?_⟩
    · intro p b hfind
      cases hfind
    · intro p id hfind
      cases hfind
    · intro p id hfind
      cases hfind
  refine List.foldlRecOn _ _ (List.foldlRecOn _ _ (List.foldlRecOn _ _ hempty ?_) ?_) ?_
  · intro s hs vdev hmem
    obtain ⟨hattrs, hdirs, hnodes⟩ := hs.addPath vdev.2 .chr
    refine ⟨hattrs, hdirs, ?_⟩
    intro p id hfind
    unfold addVdev at hfind
    dsimp only at hfind
    rw [Table.find_put] at hfind
    split at hfind
    · rename_i hp
      cases hfind
      rw [hp]
      exact hmem
    · exact hnodes p id hfind
  · intro s hs vsysfs hmem
    refine List.foldlRecOn _ _ hs fun s hs dir hdir => ?_
    have howner : seeds.HasDir (.vsysfs vsysfs.1) dir := ⟨vsysfs.2, hmem, hdir⟩
    refine Recorded.bindAttrs ?_ howner _
    obtain ⟨hattrs, hdirs, hnodes⟩ := hs.addPath dir (leafType vsysfs.2 dir)
    refine ⟨hattrs, ?_, hnodes⟩
    intro p id hfind
    dsimp only at hfind
    rw [Table.find_put] at hfind
    split at hfind
    · rename_i hp
      cases hfind
      rw [hp]
      exact ⟨vsysfs.2, hmem, hdir⟩
    · exact hdirs p id hfind
  · intro s hs vmodule hmem
    have howner : seeds.HasDir (.vmodule vmodule.1) vmodule.2.dir := ⟨vmodule.2, hmem, rfl⟩
    refine List.foldlRecOn _ _ (Recorded.bindAttrs ?_ howner _) ?_
    · obtain ⟨hattrs, hdirs, hnodes⟩ := hs.addPath vmodule.2.dir .dir
      exact ⟨hattrs, hdirs, hnodes⟩
    · intro s hs driver _
      unfold addBusDriverDir
      split
      · exact hs
      · exact hs.addPath _ _

def AtOrAbove (entries : List (Path × DType)) (p : Path) : Prop :=
  p = [] ∨ ∃ e ∈ entries, p <+: e.1

/-- Nothing has a node that is not the root and leads to no entry, whatever the names of the
objects are; the root always has one. -/
structure Covered (entries : List (Path × DType)) (s : Snapshot) : Prop where
  root : isDir s []
  dirs : ∀ p, isDir s p → AtOrAbove entries p
  nodes : ∀ p, (Table.find s.vfileNodes p).isSome = true → ∃ e ∈ entries, e.1 = p
  attrs : ∀ p, (Table.find s.attrBindings p).isSome = true → ∃ e ∈ entries, e.1 = p

variable {entries : List (Path × DType)} {current path : Path}

theorem Covered.ensureDir (h : Covered entries s) (hpath : AtOrAbove entries path) :
    Covered entries (ensureDir s path) := by
  obtain ⟨hattrs, hnodes⟩ := ensureDir_maps s path
  refine ⟨isDir_ensureDir.mpr (.inl h.root), ?_, ?_, ?_⟩
  · intro p hp
    rcases isDir_ensureDir.mp hp with hold | rfl
    · exact h.dirs p hold
    · exact hpath
  · rw [hnodes]
    exact h.nodes
  · rw [hattrs]
    exact h.attrs

theorem Covered.addChild (h : Covered entries s) (hcurrent : AtOrAbove entries current)
    (name : String) (dtype : DType) : Covered entries (addChild s current name dtype) := by
  by_cases hname : name = ""
  · unfold Namespace.addChild
    rw [if_pos hname]
    exact h
  · obtain ⟨hattrs, hnodes⟩ := addChild_maps s current name dtype
    refine ⟨(isDir_addChild hname).mpr (.inl h.root), ?_, ?_, ?_⟩
    · intro p hp
      rcases (isDir_addChild hname).mp hp with hold | rfl
      · exact h.dirs p hold
      · exact hcurrent
    · rw [hnodes]
      exact h.nodes
    · rw [hattrs]
      exact h.attrs

theorem AtOrAbove.mono (h : AtOrAbove entries path) (hpre : current <+: path) :
    AtOrAbove entries current := by
  rcases h with rfl | ⟨e, he, hpath⟩
  · exact .inl (List.prefix_nil.mp hpre)
  · exact .inr ⟨e, he, hpre.trans hpath⟩

theorem Covered.addSegments (h : Covered entries s) {leaf : DType} {rest : List String}
    (hpath : AtOrAbove entries (current ++ rest)) :
    Covered entries (addSegments s current leaf rest) := by
  have hcurrent := hpath.mono (List.prefix_append current rest)
  fun_induction Namespace.addSegments s current leaf rest with
  | case1 s current => exact h
  | case2 s current name added hdir => exact (h.addChild hcurrent name leaf).ensureDir hpath
  | case3 s current name added hdir => exact h.addChild hcurrent name leaf
  | case4 s current name rest hrest ih =>
      rw [List.append_cons] at hpath
      have hnext := hpath.mono (List.prefix_append _ rest)
      exact ih ((h.addChild hcurrent name .dir).ensureDir hnext) hpath hnext

theorem Covered.addPath (h : Covered entries s) (leaf : DType) {e : Path × DType}
    (he : e ∈ entries) (hpath : e.1 = path) : Covered entries (addPath s path leaf) :=
  (h.ensureDir (.inl rfl)).addSegments (.inr ⟨e, he, hpath ▸ List.prefix_refl _⟩)

theorem Covered.bindAttrs {owner : Owner} {dir : Path} (h : Covered entries s)
    {names : List String} (hnames : ∀ name ∈ names, (dir ++ [name], .reg) ∈ entries) :
    Covered entries (names.foldl (bindAttr owner dir) s) := by
  refine List.foldlRecOn names _ h fun s hs name hmem => ?_
  obtain ⟨hroot, hdirs, hnodes, hattrs⟩ := hs.addPath .reg (hnames name hmem) rfl
  refine ⟨hroot, hdirs, hnodes, ?_⟩
  intro p hfind
  unfold bindAttr at hfind
  dsimp only at hfind
  rw [find_emplace] at hfind
  split at hfind
  · rename_i hnew
    exact ⟨_, hnames name hmem, hnew.1.symm⟩
  · exact hattrs p hfind

theorem covered_buildSnapshot (seeds : Seeds) : Covered seeds.entries (buildSnapshot seeds) := by
  have hempty : Covered seeds.entries (ensureDir ⟨[], [], [], [], []⟩ []) := by
    refine ⟨rfl, ?_, ?_, ?_⟩
    · intro p hp
      refine .inl ?_
      rcases isDir_ensureDir.mp hp with hnone | hnil
      · cases hnone
      · exact hnil
    · intro p hfind
      cases hfind
    · intro p hfind
      cases hfind
  refine List.foldlRecOn _ _ (List.foldlRecOn _ _ (List.foldlRecOn _ _ hempty ?_) ?_) ?_
  · intro s hs vdev hmem
    have hentry : (vdev.2, .chr) ∈ seeds.entries := List.mem_append_left _
      (List.mem_append_left _ (List.mem_flatMap.mpr ⟨vdev, hmem, List.mem_cons_self⟩))
    obtain ⟨hroot, hdirs, hnodes, hattrs⟩ := hs.addPath .chr hentry rfl
    refine ⟨hroot, hdirs, ?_, hattrs⟩
    intro p hfind
    unfold addVdev at hfind
    dsimp only at hfind
    rw [Table.find_put] at hfind
    split at hfind
    · rename_i hp
      exact ⟨_, hentry, hp.symm⟩
    · exact hnodes p hfind
  · intro s hs vsysfs hmem
    refine List.foldlRecOn _ _ hs fun s hs dir hdir => ?_
    have hentries : ∀ e ∈ dirEntries dir (leafType vsysfs.2 dir) vsysfs.2.attrs,
        e ∈ seeds.entries := fun e he => List.mem_append_left _ (List.mem_append_right _
      (List.mem_flatMap.mpr ⟨vsysfs, hmem, List.mem_flatMap.mpr ⟨dir, hdir, he⟩⟩))
    refine Covered.bindAttrs ?_ ?_
    · obtain ⟨hroot, hdirs, hnodes, hattrs⟩ :=
        hs.addPath (leafType vsysfs.2 dir) (hentries _ List.mem_cons_self) rfl
      exact ⟨hroot, hdirs, hnodes, hattrs⟩
    · intro name hname
      exact hentries _ (List.mem_cons_of_mem _ (List.mem_map_of_mem hname))
  · intro s hs vmodule hmem
    have hentries : ∀ e ∈ vmodule.2.entries, e ∈ seeds.entries := fun e he =>
      List.mem_append_right _ (List.mem_flatMap.mpr ⟨vmodule, hmem, he⟩)
    refine List.foldlRecOn _ _ (Covered.bindAttrs ?_ ?_) ?_
    · obtain ⟨hroot, hdirs, hnodes, hattrs⟩ := hs.addPath .dir
        (hentries _ (List.mem_append_left _ List.mem_cons_self)) rfl
      exact ⟨hroot, hdirs, hnodes, hattrs⟩
    · intro name hname
      exact hentries _ (List.mem_append_left _
        (List.mem_cons_of_mem _ (List.mem_map_of_mem hname)))
    · intro s hs driver hdriver
      unfold addBusDriverDir
      split
      · exact hs
      · rename_i hnamed
        refine hs.addPath .dir (hentries (driverPath driver, .dir) ?_) rfl
        refine List.mem_append_right _ (List.mem_flatMap.mpr ⟨driver, hdriver, ?_⟩)
        unfold driverEntries
        rw [if_neg hnamed]
        exact List.mem_cons_self

variable {r : Registry} {dir : Path}

theorem classText_pathText (h : ClassDir dir) : ClassText (pathText dir) := by
  rcases h with ⟨x, y, -, -, rfl⟩ | ⟨x, y, -, -, rfl⟩
  · exact ⟨x, y, .inl (by simp [pathText, ← String.toList_inj])⟩
  · exact ⟨x, y, .inr (by simp [pathText, ← String.toList_inj])⟩

theorem devicesText_pathText (h : DevicesDir dir) :
    ∃ a, pathText dir = "/sys/devices/" ++ a := by
  rcases h with ⟨x, y, -, -, rfl⟩ | ⟨x, y, z, -, -, -, rfl⟩
  · exact ⟨x ++ "/" ++ y, by simp [pathText, ← String.toList_inj]⟩
  · exact ⟨x ++ "/" ++ y ++ "/" ++ z, by simp [pathText, ← String.toList_inj]⟩

def Vsysfs.texts (v : Vsysfs) : VsysfsDirs :=
  ⟨pathText v.classDir, pathText v.devicesDir, v.distinctGlobs⟩

def Registry.texts (r : Registry) (id : Nat) : Option VsysfsDirs :=
  (r.vsysfs[id]?).map Vsysfs.texts

def Registry.vmoduleText (r : Registry) (id : Nat) : Option String :=
  (r.vmodules[id]?).map fun m => pathText m.dir

def Registry.deviceNumbers (r : Registry) (id : Nat) : Option (BitVec 32 × BitVec 32) :=
  (r.vdevs[id]?).map fun v => (BitVec.ofNat 32 v.major, BitVec.ofNat 32 v.minor)

theorem Registry.WellNamed.classText (h : r.WellNamed) {id : Nat} {v : VsysfsDirs}
    (hv : r.texts id = some v) : ClassText v.classDir := by
  obtain ⟨v, hget, rfl⟩ := Option.map_eq_some_iff.mp hv
  exact classText_pathText (h.vsysfs v (List.mem_of_getElem? hget)).classDir

theorem Registry.WellNamed.devicesText (h : r.WellNamed) {id : Nat} {v : VsysfsDirs}
    (hv : r.texts id = some v) : ∃ a, v.devicesDir = "/sys/devices/" ++ a := by
  obtain ⟨v, hget, rfl⟩ := Option.map_eq_some_iff.mp hv
  exact devicesText_pathText (h.vsysfs v (List.mem_of_getElem? hget)).devicesDir

theorem Registry.WellNamed.moduleText (h : r.WellNamed) {id : Nat} {dir : String}
    (hdir : r.vmoduleText id = some dir) : ∃ a, dir = "/sys/module/" ++ a := by
  obtain ⟨m, hget, rfl⟩ := Option.map_eq_some_iff.mp hdir
  obtain ⟨x, -, hm⟩ := (h.vmodules m (List.mem_of_getElem? hget)).dir
  rw [hm]
  exact ⟨x, by simp [pathText, ← String.toList_inj]⟩

theorem deviceNumbers_of_node {p : Path} {id : Nat}
    (hfind : Table.find (buildSnapshot r.shape.seeds).vfileNodes p = some id) :
    (r.deviceNumbers id).isSome = true := by
  have hmem := (recorded_buildSnapshot r.shape.seeds).nodes p id hfind
  obtain ⟨other, -, hseed⟩ := List.mem_filterMap.mp hmem
  obtain ⟨v, hget, hsame⟩ := Option.map_eq_some_iff.mp hseed
  cases hsame
  unfold Registry.deviceNumbers
  rw [hget]
  rfl

theorem Registry.WellNamed.bound (h : r.WellNamed) {p : Path} {b : Binding}
    (hfind : Table.find (buildSnapshot r.shape.seeds).attrBindings p = some b) :
    ∃ dir, pathText p = dir ++ "/" ++ b.attrName ∧ HasDir r.texts r.vmoduleText b.owner dir := by
  obtain ⟨dir, rfl, howner⟩ := (recorded_buildSnapshot r.shape.seeds).attrs p b hfind
  cases hb : b.owner with
  | vsysfs id =>
      rw [hb] at howner
      obtain ⟨seed, hmem, hdir⟩ := howner
      obtain ⟨v, -, hget, hseed⟩ := mem_vsysfsSeeds hmem
      dsimp only at hget hseed
      have hnamed := h.vsysfs v (List.mem_of_getElem? hget)
      have htexts : r.texts id = some v.texts := by
        unfold Registry.texts
        rw [hget]
        rfl
      rw [hseed] at hdir
      rcases mem_seedDirs hdir with hclass | hdevices
      · refine ⟨_, pathText_append ?_ _, v.texts, htexts, .inl (congrArg pathText hclass)⟩
        rw [hclass]
        rcases hnamed.classDir with ⟨x, y, -, -, hv⟩ | ⟨x, y, -, -, hv⟩
        · simp [Vsysfs.seed, hv]
        · simp [Vsysfs.seed, hv]
      · refine ⟨_, pathText_append ?_ _, v.texts, htexts, .inr (congrArg pathText hdevices)⟩
        rw [hdevices]
        rcases hnamed.devicesDir with ⟨x, y, -, -, hv⟩ | ⟨x, y, z, -, -, -, hv⟩
        · simp [Vsysfs.seed, hv]
        · simp [Vsysfs.seed, hv]
  | vmodule id =>
      rw [hb] at howner
      obtain ⟨seed, hmem, hdir⟩ := howner
      obtain ⟨m, -, hget, hseed⟩ := mem_vmoduleSeeds hmem
      dsimp only at hget hseed
      obtain ⟨x, -, hm⟩ := (h.vmodules m (List.mem_of_getElem? hget)).dir
      have hsame : dir = m.dir := by
        rw [hdir, hseed]
        rfl
      refine ⟨_, pathText_append ?_ _, ?_⟩
      · rw [hsame, hm]
        simp
      · change r.vmoduleText id = some (pathText dir)
        unfold Registry.vmoduleText
        rw [hget, hsame]
        rfl

theorem Registry.WellNamed.target (h : r.WellNamed) {p : Path} {id : Nat} {v : VsysfsDirs}
    (hfind : Table.find (buildSnapshot r.shape.seeds).vsysfsDirs p = some id)
    (hv : r.texts id = some v) :
    ∃ q, normalizeAbsolutePath v.devicesDir = some q ∧
      isDir (buildSnapshot r.shape.seeds) q := by
  obtain ⟨seed, hmem, -⟩ := (recorded_buildSnapshot r.shape.seeds).dirs p id hfind
  obtain ⟨object, hregistered, hget, hseed⟩ := mem_vsysfsSeeds hmem
  dsimp only at hget hseed
  obtain ⟨other, hother, rfl⟩ := Option.map_eq_some_iff.mp hv
  cases hget.symm.trans hother
  have hnamed := h.vsysfs object (List.mem_of_getElem? hget)
  have hne := classDir_ne_devicesDir hnamed.classDir hnamed.devicesDir
  have hleaf : leafType object.seed object.seed.devicesDir = .dir := leafType_devicesDir hne
  have hentry : (object.devicesDir, .dir) ∈ object.seed.entries := by
    refine List.mem_flatMap.mpr ⟨object.devicesDir, ?_, mem_dirEntries.mpr (.inl ?_)⟩
    · unfold VsysfsSeed.dirs
      rw [if_neg (show object.seed.devicesDir ≠ object.seed.classDir from hne.symm)]
      exact List.mem_cons_of_mem _ List.mem_cons_self
    · exact congrArg (Prod.mk _) hleaf.symm
  have hinserted := mem_entries_of_registered hregistered hentry
  refine ⟨object.devicesDir, normalize_pathText (h.entryForm hinserted).segments, ?_⟩
  exact (h.built.dir _).mpr (.inr ⟨_, hinserted, List.prefix_refl _, .inr rfl⟩)

theorem Registry.WellNamed.row (h : r.WellNamed) {dir : Path} {x : String}
    (hnode : isDir (buildSnapshot r.shape.seeds) (dir ++ [x]) ∨
      (Table.find (buildSnapshot r.shape.seeds).vfileNodes (dir ++ [x])).isSome = true ∨
      (Table.find (buildSnapshot r.shape.seeds).attrBindings (dir ++ [x])).isSome = true) :
    (childAt (buildSnapshot r.shape.seeds) dir x).isSome = true := by
  rw [h.built.child]
  rcases hnode with hdir | hvdev | hattr
  · rcases (h.built.dir _).mp hdir with hnil | ⟨e, he, hpre, -⟩
    · simp at hnil
    · exact ⟨e, he, hpre⟩
  · exact ⟨_, (h.built.vdev _).mp hvdev, List.prefix_refl _⟩
  · exact ⟨_, (h.built.attr _).mp hattr, List.prefix_refl _⟩

/-- The state of the registered objects, with the snapshot that a build makes of them. -/
def VirtualState.ofRegistry (r : Registry) (h : r.WellNamed) : VirtualState where
  snapshot := buildSnapshot r.shape.seeds
  vdev := r.deviceNumbers
  vsysfs := r.texts
  vmoduleDir := r.vmoduleText
  live := r.live
  classNames := r.roots.map Root.className
  classText := fun _ _ => h.classText
  devicesText := fun _ _ => h.devicesText
  moduleText := fun _ _ => h.moduleText
  device := fun _ _ => deviceNumbers_of_node
  bound := fun _ _ => h.bound
  target := fun _ _ _ => h.target
  keys := keysNodup_buildSnapshot _
  row := fun _ _ => h.row

end HostPimSim.Vfile.Namespace
