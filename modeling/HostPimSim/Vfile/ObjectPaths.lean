import HostPimSim.Vfile.Names

/-! The paths that a build inserts for the registered objects, and when they leave listing and
lookup in agreement. -/
namespace HostPimSim.Vfile.Namespace
open Attribute Transition

def dirEntries (dir : Path) (leaf : DType) (attrs : List String) : List (Path × DType) :=
  (dir, leaf) :: attrs.map fun attrName => (dir ++ [attrName], .reg)

def VsysfsSeed.entries (seed : VsysfsSeed) : List (Path × DType) :=
  seed.dirs.flatMap fun dir => dirEntries dir (leafType seed dir) seed.attrs

def driverEntries (driver : String × String) : List (Path × DType) :=
  if driver.1 = "" ∨ driver.2 = "" then [] else [(driverPath driver, .dir)]

def VmoduleSeed.entries (seed : VmoduleSeed) : List (Path × DType) :=
  dirEntries seed.dir .dir seed.attrs ++ seed.registeredDrivers.flatMap driverEntries

def Seeds.entries (seeds : Seeds) : List (Path × DType) :=
  seeds.vdevs.flatMap (fun vdev => [(vdev.2, .chr)]) ++
    seeds.vsysfs.flatMap (fun vsysfs => vsysfs.2.entries) ++
    seeds.vmodules.flatMap fun vmodule => vmodule.2.entries

/-- Paths that `addPath` can insert. -/
def Insertable (entries : List (Path × DType)) : Prop :=
  ∀ e ∈ entries, e.1 ≠ [] ∧ ∀ x ∈ e.1, x ≠ ""

variable {bound : Binding → Prop} {entries : List (Path × DType)} {s : Snapshot}

theorem Built.addAttrs {owner : Owner} {dir : Path} {leaf : DType} {attrs : List String}
    {base : Snapshot} (h : Built bound entries s) (hleaf : leaf = .dir ∨ leaf = .lnk)
    (hinsert : Insertable (dirEntries dir leaf attrs))
    (hbound : ∀ attrName ∈ attrs, bound ⟨owner, attrName⟩)
    (hdirs : base.dirs = (addPath s dir leaf).dirs)
    (hattrs : base.attrBindings = (addPath s dir leaf).attrBindings)
    (hnodes : base.vfileNodes = (addPath s dir leaf).vfileNodes) :
    Built bound (entries ++ dirEntries dir leaf attrs)
      (attrs.foldl (Namespace.bindAttr owner dir) base) := by
  obtain ⟨hne, hnames⟩ := hinsert _ List.mem_cons_self
  have hbase := h.addDir hne hnames hleaf hdirs (hattrs.trans (addPath_maps s dir leaf).1)
    (hnodes.trans (addPath_maps s dir leaf).2)
  unfold dirEntries
  rw [List.append_cons, List.map_eq_flatMap]
  refine hbase.foldl fun attrName hmem entries s hs => ?_
  refine hs.bindAttr ?_ (hbound attrName hmem)
  exact (hinsert _ (List.mem_cons_of_mem _ (List.mem_map_of_mem hmem))).2

theorem leafType_dir_or_lnk (seed : VsysfsSeed) (dir : Path) :
    leafType seed dir = .dir ∨ leafType seed dir = .lnk := by
  unfold leafType
  split
  · exact .inr rfl
  · exact .inl rfl

theorem Built.addVsysfs {vsysfs : Nat × VsysfsSeed} (h : Built bound entries s)
    (hinsert : Insertable vsysfs.2.entries)
    (hbound : ∀ attrName ∈ vsysfs.2.attrs, bound ⟨.vsysfs vsysfs.1, attrName⟩) :
    Built bound (entries ++ vsysfs.2.entries) (addVsysfs s vsysfs) := by
  refine h.foldl fun dir hdir entries s hs => ?_
  refine hs.addAttrs (leafType_dir_or_lnk vsysfs.2 dir) ?_ hbound rfl rfl rfl
  exact fun e he => hinsert e (List.mem_flatMap.mpr ⟨dir, hdir, he⟩)

theorem Built.addBusDriverDir {driver : String × String} (h : Built bound entries s) :
    Built bound (entries ++ driverEntries driver) (addBusDriverDir s driver) := by
  unfold Namespace.addBusDriverDir driverEntries
  split
  · simpa using h
  · rename_i hnames
    obtain ⟨hbus, hdriver⟩ := not_or.mp hnames
    refine h.addDir (by simp [driverPath]) ?_ (.inl rfl) rfl (addPath_maps _ _ _).1
      (addPath_maps _ _ _).2
    simp [driverPath, hbus, hdriver]

theorem Built.addVmodule {vmodule : Nat × VmoduleSeed} (h : Built bound entries s)
    (hinsert : Insertable vmodule.2.entries)
    (hbound : ∀ attrName ∈ vmodule.2.attrs, bound ⟨.vmodule vmodule.1, attrName⟩) :
    Built bound (entries ++ vmodule.2.entries) (addVmodule s vmodule) := by
  unfold VmoduleSeed.entries
  rw [← List.append_assoc]
  refine Built.foldl ?_ fun driver _ entries s hs => hs.addBusDriverDir
  refine h.addAttrs (.inl rfl) ?_ hbound rfl rfl rfl
  exact fun e he => hinsert e (List.mem_append_left _ he)

/-- The one pass over the objects inserts these paths and no others. -/
theorem built_buildSnapshot {seeds : Seeds} (hinsert : Insertable seeds.entries)
    (hvsysfs : ∀ vsysfs ∈ seeds.vsysfs, ∀ attrName ∈ vsysfs.2.attrs,
      bound ⟨.vsysfs vsysfs.1, attrName⟩)
    (hvmodules : ∀ vmodule ∈ seeds.vmodules, ∀ attrName ∈ vmodule.2.attrs,
      bound ⟨.vmodule vmodule.1, attrName⟩) :
    Built bound seeds.entries (buildSnapshot seeds) := by
  refine Built.foldl (Built.foldl (Built.foldl built_nil ?_) ?_) ?_
  · intro vdev hmem entries s hs
    obtain ⟨hne, hnames⟩ := hinsert (vdev.2, .chr) (by
      refine List.mem_append_left _ (List.mem_append_left _ ?_)
      exact List.mem_flatMap.mpr ⟨vdev, hmem, List.mem_cons_self⟩)
    exact hs.addVdev hne hnames
  · intro vsysfs hmem entries s hs
    refine hs.addVsysfs (fun e he => hinsert e ?_) (hvsysfs vsysfs hmem)
    refine List.mem_append_left _ (List.mem_append_right _ ?_)
    exact List.mem_flatMap.mpr ⟨vsysfs, hmem, he⟩
  · intro vmodule hmem entries s hs
    refine hs.addVmodule (fun e he => hinsert e ?_) (hvmodules vmodule hmem)
    exact List.mem_append_right _ (List.mem_flatMap.mpr ⟨vmodule, hmem, he⟩)

def Registry.registered (r : Registry) : List Vsysfs :=
  r.vsysfsList.filterMap fun id => r.vsysfs[id]?

def Registry.registeredModules (r : Registry) : List Vmodule :=
  r.vmoduleList.filterMap fun id => r.vmodules[id]?

/-- No directory that is listed as a link is empty. -/
def LinksHaveAttrs (r : Registry) : Prop :=
  ∀ v ∈ r.registered, v.distinctGlobs = true → v.attrs ≠ []

/-- No attribute has the name of a child of its device. -/
def AttrsApart (r : Registry) : Prop :=
  ∀ v ∈ r.registered, ∀ w ∈ r.registered, ∀ name ∈ Table.keys v.attrs,
    v.devicesDir ++ [name] ≠ w.devicesDir

variable {r : Registry}

/-- The forms of the paths that are inserted, with the objects of those that can meet. -/
inductive EntryForm (r : Registry) : Path × DType → Prop
  | vdev {x : String} : Segment x → EntryForm r (["dev", x], .chr)
  | classDir {x y : String} {t : DType} : Segment x → Segment y → t = .dir ∨ t = .lnk →
      EntryForm r (["sys", "class", x, y], t)
  | classAttr {x y name : String} : Segment x → Segment y → Segment name →
      EntryForm r (["sys", "class", x, y, name], .reg)
  | busDir {x y : String} {t : DType} : Segment x → Segment y → t = .dir ∨ t = .lnk →
      EntryForm r (["sys", "bus", x, "devices", y], t)
  | busAttr {x y name : String} : Segment x → Segment y → Segment name →
      EntryForm r (["sys", "bus", x, "devices", y, name], .reg)
  | deviceDir {x y : String} : Segment x → Segment y →
      EntryForm r (["sys", "devices", x, y], .dir)
  | deviceAttr {x y name : String} {v : Vsysfs} : Segment x → Segment y → Segment name →
      v ∈ r.registered → v.devicesDir = ["sys", "devices", x, y] → name ∈ Table.keys v.attrs →
      EntryForm r (["sys", "devices", x, y, name], .reg)
  | childDir {x y z : String} {v : Vsysfs} : Segment x → Segment y → Segment z →
      v ∈ r.registered → v.devicesDir = ["sys", "devices", x, y, z] →
      EntryForm r (["sys", "devices", x, y, z], .dir)
  | childAttr {x y z name : String} {v : Vsysfs} : Segment x → Segment y → Segment z →
      Segment name → v ∈ r.registered → v.devicesDir = ["sys", "devices", x, y, z] →
      EntryForm r (["sys", "devices", x, y, z, name], .reg)
  | moduleDir {x : String} : Segment x → EntryForm r (["sys", "module", x], .dir)
  | moduleAttr {x name : String} : Segment x → Segment name →
      EntryForm r (["sys", "module", x, name], .reg)
  | driverDir {x y : String} : Segment x → Segment y →
      EntryForm r (["sys", "bus", x, "drivers", y], .dir)

theorem EntryForm.segments {e : Path × DType} (h : EntryForm r e) : ∀ x ∈ e.1, Segment x := by
  have hfixed : ∀ x ∈ ["dev", "sys", "class", "bus", "devices", "module", "drivers"],
      Segment x := by decide
  simp only [List.forall_mem_cons] at hfixed
  cases h <;> simp_all

theorem EntryForm.known {e : Path × DType} (h : EntryForm r e) : e.2 ≠ .unknown := by
  cases h with
  | classDir _ _ ht => rcases ht with rfl | rfl <;> simp
  | busDir _ _ ht => rcases ht with rfl | rfl <;> simp
  | _ => simp

theorem EntryForm.ne_nil {e : Path × DType} (h : EntryForm r e) : e.1 ≠ [] := by
  cases h <;> simp

theorem EntryForm.leaf (hapart : AttrsApart r) {e f : Path × DType} (he : EntryForm r e)
    (hleaf : e.2 = .reg ∨ e.2 = .chr) (hf : EntryForm r f) (hpre : e.1 <+: f.1) : f = e := by
  cases he with
  | vdev _ => cases hf <;> simp_all
  | classDir _ _ ht => rcases ht with rfl | rfl <;> simp at hleaf
  | classAttr _ _ _ => cases hf <;> simp_all
  | busDir _ _ ht => rcases ht with rfl | rfl <;> simp at hleaf
  | busAttr _ _ _ => cases hf <;> simp_all
  | deviceDir _ _ => simp at hleaf
  | deviceAttr _ _ _ hv hdir hname =>
      -- a child of the device is the one thing that could be below
      cases hf with
      | childDir _ _ _ hw hchild =>
          simp only [List.cons_prefix_cons] at hpre
          obtain ⟨_, _, rfl, rfl, rfl, _⟩ := hpre
          refine absurd ?_ (hapart _ hv _ hw _ hname)
          rw [hdir, hchild]
          rfl
      | childAttr _ _ _ _ hw hchild =>
          simp only [List.cons_prefix_cons] at hpre
          obtain ⟨_, _, rfl, rfl, rfl, _⟩ := hpre
          refine absurd ?_ (hapart _ hv _ hw _ hname)
          rw [hdir, hchild]
          rfl
      | _ => simp_all
  | childDir _ _ _ _ _ => simp at hleaf
  | childAttr _ _ _ _ _ _ => cases hf <;> simp_all
  | moduleDir _ => simp at hleaf
  | moduleAttr _ _ => cases hf <;> simp_all
  | driverDir _ _ => simp at hleaf

theorem mem_vsysfsSeeds {vsysfs : Nat × VsysfsSeed} (h : vsysfs ∈ r.shape.seeds.vsysfs) :
    ∃ v ∈ r.registered, r.vsysfs[vsysfs.1]? = some v ∧ vsysfs.2 = v.seed := by
  obtain ⟨id, hid, hseed⟩ := List.mem_filterMap.mp h
  obtain ⟨seed, hget, rfl⟩ := Option.map_eq_some_iff.mp hseed
  change (r.vsysfs.map Vsysfs.seed)[id]? = some seed at hget
  rw [List.getElem?_map] at hget
  obtain ⟨v, hv, rfl⟩ := Option.map_eq_some_iff.mp hget
  exact ⟨v, List.mem_filterMap.mpr ⟨id, hid, hv⟩, hv, rfl⟩

theorem mem_vmoduleSeeds {vmodule : Nat × VmoduleSeed} (h : vmodule ∈ r.shape.seeds.vmodules) :
    ∃ m ∈ r.registeredModules, r.vmodules[vmodule.1]? = some m ∧ vmodule.2 = m.seed := by
  obtain ⟨id, hid, hseed⟩ := List.mem_filterMap.mp h
  obtain ⟨seed, hget, rfl⟩ := Option.map_eq_some_iff.mp hseed
  change (r.vmodules.map Vmodule.seed)[id]? = some seed at hget
  rw [List.getElem?_map] at hget
  obtain ⟨m, hm, rfl⟩ := Option.map_eq_some_iff.mp hget
  exact ⟨m, List.mem_filterMap.mpr ⟨id, hid, hm⟩, hm, rfl⟩

theorem mem_entries {e : Path × DType} (h : e ∈ r.shape.seeds.entries) :
    (∃ v ∈ r.vdevs, e = (["dev", v.name], .chr)) ∨ (∃ v ∈ r.registered, e ∈ v.seed.entries) ∨
      ∃ m ∈ r.registeredModules, e ∈ m.seed.entries := by
  rcases List.mem_append.mp h with h | h
  · rcases List.mem_append.mp h with h | h
    · obtain ⟨vdev, hmem, he⟩ := List.mem_flatMap.mp h
      obtain ⟨id, _, hseed⟩ := List.mem_filterMap.mp hmem
      obtain ⟨v, hv, rfl⟩ := Option.map_eq_some_iff.mp hseed
      exact .inl ⟨v, List.mem_of_getElem? hv, List.mem_singleton.mp he⟩
    · obtain ⟨vsysfs, hmem, he⟩ := List.mem_flatMap.mp h
      obtain ⟨v, hv, _, hseed⟩ := mem_vsysfsSeeds hmem
      exact .inr (.inl ⟨v, hv, hseed ▸ he⟩)
  · obtain ⟨vmodule, hmem, he⟩ := List.mem_flatMap.mp h
    obtain ⟨m, hm, _, hseed⟩ := mem_vmoduleSeeds hmem
    exact .inr (.inr ⟨m, hm, hseed ▸ he⟩)

theorem mem_entries_of_registered {v : Vsysfs} (hv : v ∈ r.registered) {e : Path × DType}
    (he : e ∈ v.seed.entries) : e ∈ r.shape.seeds.entries := by
  obtain ⟨id, hid, hget⟩ := List.mem_filterMap.mp hv
  refine List.mem_append_left _ (List.mem_append_right _ ?_)
  refine List.mem_flatMap.mpr ⟨(id, v.seed), List.mem_filterMap.mpr ⟨id, hid, ?_⟩, he⟩
  change ((r.vsysfs.map Vsysfs.seed)[id]?).map _ = _
  rw [List.getElem?_map, hget]
  rfl

theorem mem_dirEntries {dir : Path} {leaf : DType} {attrs : List String} {e : Path × DType} :
    e ∈ dirEntries dir leaf attrs ↔
      e = (dir, leaf) ∨ ∃ name ∈ attrs, e = (dir ++ [name], .reg) := by
  unfold dirEntries
  rw [List.mem_cons, List.mem_map]
  constructor
  · rintro (h | ⟨name, hname, rfl⟩)
    · exact .inl h
    · exact .inr ⟨name, hname, rfl⟩
  · rintro (h | ⟨name, hname, rfl⟩)
    · exact .inl h
    · exact .inr ⟨name, hname, rfl⟩

theorem mem_seedDirs {seed : VsysfsSeed} {dir : Path} (h : dir ∈ seed.dirs) :
    dir = seed.classDir ∨ dir = seed.devicesDir := by
  unfold VsysfsSeed.dirs at h
  split at h
  · exact .inl (List.mem_singleton.mp h)
  · simpa using h

theorem classDir_ne_devicesDir {dir other : Path} (h : ClassDir dir) (hother : DevicesDir other) :
    dir ≠ other := by
  rintro rfl
  rcases h with ⟨x, y, _, _, rfl⟩ | ⟨x, y, _, _, rfl⟩
  · rcases hother with ⟨_, _, _, _, hsame⟩ | ⟨_, _, _, _, _, _, hsame⟩ <;> simp at hsame
  · rcases hother with ⟨_, _, _, _, hsame⟩ | ⟨_, _, _, _, _, _, hsame⟩ <;> simp at hsame

theorem leafType_devicesDir {seed : VsysfsSeed} (h : seed.classDir ≠ seed.devicesDir) :
    leafType seed seed.devicesDir = .dir :=
  if_neg fun hall => h hall.2.1.symm

theorem classDir_entryForm {v : Vsysfs} {e : Path × DType} (hnamed : v.WellNamed)
    (he : e ∈ dirEntries v.seed.classDir (leafType v.seed v.seed.classDir) v.seed.attrs) :
    EntryForm r e := by
  have hleaf := leafType_dir_or_lnk v.seed v.seed.classDir
  have hform : ClassDir v.seed.classDir := hnamed.classDir
  generalize leafType v.seed v.seed.classDir = leaf at hleaf he
  rcases hform with ⟨x, y, hx, hy, hdir⟩ | ⟨x, y, hx, hy, hdir⟩
  · rw [hdir] at he
    rcases mem_dirEntries.mp he with rfl | ⟨name, hname, rfl⟩
    · exact .classDir hx hy hleaf
    · exact .classAttr hx hy (hnamed.attrs name hname)
  · rw [hdir] at he
    rcases mem_dirEntries.mp he with rfl | ⟨name, hname, rfl⟩
    · exact .busDir hx hy hleaf
    · exact .busAttr hx hy (hnamed.attrs name hname)

theorem devicesDir_entryForm {v : Vsysfs} {e : Path × DType} (hnamed : v.WellNamed)
    (hv : v ∈ r.registered)
    (he : e ∈ dirEntries v.seed.devicesDir (leafType v.seed v.seed.devicesDir) v.seed.attrs) :
    EntryForm r e := by
  have hform : DevicesDir v.seed.devicesDir := hnamed.devicesDir
  rw [leafType_devicesDir (classDir_ne_devicesDir hnamed.classDir hnamed.devicesDir)] at he
  rcases hform with ⟨x, y, hx, hy, hdir⟩ | ⟨x, y, z, hx, hy, hz, hdir⟩
  · rw [hdir] at he
    rcases mem_dirEntries.mp he with rfl | ⟨name, hname, rfl⟩
    · exact .deviceDir hx hy
    · exact .deviceAttr hx hy (hnamed.attrs name hname) hv hdir hname
  · rw [hdir] at he
    rcases mem_dirEntries.mp he with rfl | ⟨name, hname, rfl⟩
    · exact .childDir hx hy hz hv hdir
    · exact .childAttr hx hy hz (hnamed.attrs name hname) hv hdir

theorem vmodule_entryForm {m : Vmodule} {e : Path × DType} (hnamed : m.WellNamed)
    (he : e ∈ m.seed.entries) : EntryForm r e := by
  obtain ⟨x, hx, hdir⟩ := hnamed.dir
  rcases List.mem_append.mp he with he | he
  · change e ∈ dirEntries m.dir .dir (Table.keys m.attrs) at he
    rw [hdir] at he
    rcases mem_dirEntries.mp he with rfl | ⟨name, hname, rfl⟩
    · exact .moduleDir hx
    · exact .moduleAttr hx (hnamed.attrs name hname)
  · obtain ⟨driver, hmem, he⟩ := List.mem_flatMap.mp he
    obtain ⟨hbus, hdriver⟩ := hnamed.drivers driver hmem
    unfold driverEntries at he
    split at he
    · cases he
    · rw [List.mem_singleton.mp he]
      exact .driverDir hbus hdriver

theorem Registry.WellNamed.entryForm (h : r.WellNamed) {e : Path × DType}
    (he : e ∈ r.shape.seeds.entries) : EntryForm r e := by
  rcases mem_entries he with ⟨v, hv, rfl⟩ | ⟨v, hv, he⟩ | ⟨m, hm, he⟩
  · exact .vdev (h.vdevs v hv)
  · obtain ⟨id, _, hget⟩ := List.mem_filterMap.mp hv
    have hnamed := h.vsysfs v (List.mem_of_getElem? hget)
    obtain ⟨dir, hdir, he⟩ := List.mem_flatMap.mp he
    rcases mem_seedDirs hdir with rfl | rfl
    · exact classDir_entryForm hnamed he
    · exact devicesDir_entryForm hnamed hv he
  · obtain ⟨id, _, hget⟩ := List.mem_filterMap.mp hm
    exact vmodule_entryForm (h.vmodules m (List.mem_of_getElem? hget)) he

/-- A link is the class directory of an object with distinct globs, which has an attribute. -/
theorem link_has_attr (hattrs : LinksHaveAttrs r) {q : Path}
    (h : (q, .lnk) ∈ r.shape.seeds.entries) :
    ∃ e ∈ r.shape.seeds.entries, q <+: e.1 ∧ q ≠ e.1 := by
  rcases mem_entries h with ⟨v, _, hsame⟩ | ⟨v, hv, he⟩ | ⟨m, _, he⟩
  · cases hsame
  · obtain ⟨dir, hdir, he⟩ := List.mem_flatMap.mp he
    rcases mem_dirEntries.mp he with hself | ⟨name, _, hsame⟩
    · obtain ⟨rfl, hleaf⟩ := Prod.mk.inj hself
      have hglobs : v.distinctGlobs = true := by
        unfold leafType at hleaf
        split at hleaf
        · rename_i hlink
          exact hlink.1
        · cases hleaf
      obtain ⟨row, hrow⟩ := List.exists_mem_of_ne_nil _ (hattrs v hv hglobs)
      have hmem : (q ++ [row.1], .reg) ∈ v.seed.entries := by
        refine List.mem_flatMap.mpr ⟨q, hdir, mem_dirEntries.mpr (.inr ⟨row.1, ?_, rfl⟩)⟩
        exact List.mem_map_of_mem hrow
      exact ⟨_, mem_entries_of_registered hv hmem, List.prefix_append q [row.1], by simp⟩
    · cases hsame
  · rcases List.mem_append.mp he with he | he
    · rcases mem_dirEntries.mp he with hsame | ⟨name, _, hsame⟩
      · cases hsame
      · cases hsame
    · obtain ⟨driver, _, he⟩ := List.mem_flatMap.mp he
      unfold driverEntries at he
      split at he
      · cases he
      · cases List.mem_singleton.mp he

theorem Registry.WellNamed.consistent (h : r.WellNamed) (hattrs : LinksHaveAttrs r)
    (hapart : AttrsApart r) : Consistent r.shape.seeds.entries where
  names := fun _ he => (h.entryForm he).segments
  known := fun _ he => (h.entryForm he).known
  link := fun _ hq => link_has_attr hattrs hq
  leaf := fun _ _ hq ht _ he hpre =>
    EntryForm.leaf hapart (h.entryForm hq) ht (h.entryForm he) hpre

theorem Registry.WellNamed.insertable (h : r.WellNamed) : Insertable r.shape.seeds.entries := by
  intro e he
  exact ⟨(h.entryForm he).ne_nil, fun x hx => ((h.entryForm he).segments x hx).1⟩

theorem Registry.WellNamed.built (h : r.WellNamed) :
    Built (isLive r.live) r.shape.seeds.entries (buildSnapshot r.shape.seeds) := by
  refine built_buildSnapshot h.insertable ?_ ?_
  · intro vsysfs hmem name hname
    obtain ⟨v, _, hget, hseed⟩ := mem_vsysfsSeeds hmem
    rw [hseed] at hname
    change (r.live (.vsysfs vsysfs.1) name).isSome = true
    rw [Registry.live, Registry.attrs, hget]
    exact Table.find_isSome_iff_mem_keys.mpr hname
  · intro vmodule hmem name hname
    obtain ⟨m, _, hget, hseed⟩ := mem_vmoduleSeeds hmem
    rw [hseed] at hname
    change (r.live (.vmodule vmodule.1) name).isSome = true
    rw [Registry.live, Registry.attrs, hget]
    exact Table.find_isSome_iff_mem_keys.mpr hname

instance : DecidablePred Call.WellNamed
  | .vdevCreate name _ _ | .vsysfsCreate _ _ name | .writeAttr _ name _ _
  | .rootWriteDefaultAttr _ name _ | .vmoduleCreate name =>
      inferInstanceAs (Decidable (Segment name))
  | .registerDriver _ bus driver => inferInstanceAs (Decidable (Segment bus ∧ Segment driver))
  | .vdevDestroy _ | .vsysfsDestroy _ | .removeAttr _ _ | .rootRemoveDefaultAttr _ _
  | .vmoduleDestroy _ => .isTrue trivial

instance : DecidablePred Action.WellNamed
  | .addRoot className kobjectName _ _ =>
      inferInstanceAs (Decidable (Segment className ∧ Segment kobjectName))
  | .start call => inferInstanceAs (Decidable call.WellNamed)
  | .turn _ _ | .lookup | .build _ => .isTrue trivial

instance : DecidablePred LinksHaveAttrs := fun r =>
  inferInstanceAs (Decidable (∀ v ∈ r.registered, v.distinctGlobs = true → v.attrs ≠ []))

instance : DecidablePred AttrsApart := fun r =>
  inferInstanceAs (Decidable (∀ v ∈ r.registered, ∀ w ∈ r.registered,
    ∀ name ∈ Table.keys v.attrs, v.devicesDir ++ [name] ≠ w.devicesDir))

/-- A device below a parent node, and a module with an attribute and a driver. -/
def populated : List Action :=
  [.addRoot "rank" "pci" "rank*" "pci*", .start (.vdevCreate "rank0" 240 0), .turn 0 true,
    .turn 0 true, .turn 0 true, .start (.vsysfsCreate 0 0 "pci0"), .turn 1 true, .turn 1 true,
    .turn 1 true, .turn 1 true, .turn 1 true, .start (.vmoduleCreate "dpu"), .turn 2 true,
    .turn 2 true, .start (.writeAttr (.vmodule 0) "version" ⟨[49], .ro⟩ .stored), .turn 3 true,
    .turn 3 true, .start (.registerDriver 0 "pci" "dpu"), .turn 4 true, .turn 4 true]

/-- An instance with all its attributes removed: its class directory is listed as a link and
does not resolve. -/
def emptied : List Action :=
  [.addRoot "rank" "pci" "rank*" "pci*", .start (.vdevCreate "rank0" 240 0), .turn 0 true,
    .turn 0 true, .turn 0 true, .start (.vsysfsCreate 0 0 "rank0"), .turn 1 true, .turn 1 true,
    .turn 1 true, .turn 1 true, .start (.removeAttr (.vsysfs 0) "dev"), .turn 2 true,
    .turn 2 true, .start (.removeAttr (.vsysfs 0) "subsystem"), .turn 3 true, .turn 3 true,
    .start (.removeAttr (.vsysfs 0) "uevent"), .turn 4 true, .turn 4 true]

end HostPimSim.Vfile.Namespace
