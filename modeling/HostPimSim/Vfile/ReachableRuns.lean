import HostPimSim.Vfile.Reachable

/-! Which calls keep every object where its text leads, over all runs of the calls. -/
namespace HostPimSim.Vfile.Namespace
open Attribute Transition

/-- What the attributes of the system objects are bound to, below their own directories. -/
def ObjectState.attrTexts (s : ObjectState) : List String :=
  s.vsysfsList.flatMap fun entry =>
    (Table.keys entry.2.attrs).map fun name => entry.2.devicesDir ++ "/" ++ name

/-- No attribute is at a directory, and no directory is where attributes of it go. -/
def ObjectState.Clear (s : ObjectState) (dir : String) (names : List String) : Prop :=
  dir ∉ s.attrTexts ∧
    ∀ entry ∈ s.vsysfsList, ∀ name ∈ names, entry.2.devicesDir ≠ dir ++ "/" ++ name

instance (s : ObjectState) (dir : String) (names : List String) : Decidable (s.Clear dir names) :=
  inferInstanceAs (Decidable (_ ∧ _))

def PlainName (name : String) : Prop := name ≠ "." ∧ name ≠ ".."

instance (name : String) : Decidable (PlainName name) := inferInstanceAs (Decidable (_ ∧ _))

def derivedNames : List String := ["dev", "subsystem", "uevent"]

def parentNames : List String := ["subsystem", "device", "uevent"]

/-- The directories of a new system object, and of its parent if it has one, are canonical and
apart from the attributes of all others. -/
def ObjectState.PlainDirs (s : ObjectState) (root : VsysfsRootObject) (v : VdevObject)
    (inst : String) : Prop :=
  (∀ x ∈ pieces root.kobjectName, Segment x) ∧ PlainName inst ∧
    s.Clear (devicesDirText root v inst) derivedNames ∧
    (inst ≠ v.name → v.name ∉ parentNames ∧ s.Clear (parentDirText root inst) parentNames)

instance (s : ObjectState) (root : VsysfsRootObject) (v : VdevObject) (inst : String) :
    Decidable (s.PlainDirs root v inst) := inferInstanceAs (Decidable (_ ∧ _))

/-- A call that makes an object makes it at a text that is canonical and taken by nothing. -/
def ObjectCall.Plain (s : ObjectState) : ObjectCall → Prop
  | .vdev (.create root name major minor) =>
      s.vdev.Accepts root name → -1 ≤ major.toInt → -1 ≤ minor.toInt →
        (resolveDevnum s.vdev.vdevs major minor).isSome = true →
          PlainName (vdevNormalizeName name)
  | .vsysfsCreate root device instanceName =>
      ∀ rootObject v, s.linked root device = some (rootObject, v) →
        vsysfsValidInstanceName (normalizeComponent instanceName) = true →
          s.hasDir (classDirText rootObject v)
            (devicesDirText rootObject v (normalizeComponent instanceName)) = false →
            s.PlainDirs rootObject v (normalizeComponent instanceName)
  | .vmoduleCreate name =>
      vmoduleValidInstanceName (vmoduleNormalizeInstanceName name) = true →
        PlainName (vmoduleNormalizeInstanceName name)
  | _ => True

variable {s t : ObjectState}

theorem PlainName.segment {name : String} (h : PlainName name)
    (hvalid : validInstanceName name = true) : Segment name := by
  obtain ⟨hne, hslash, -⟩ := validInstanceName_iff.mp hvalid
  exact ⟨hne, h.1, h.2, hslash⟩

theorem mem_keys_ensured {rows attrs : List (String × Attr)} {name : String} :
    name ∈ Table.keys (attrs.foldl ensureAttr rows) ↔
      name ∈ Table.keys rows ∨ name ∈ Table.keys attrs := by
  induction attrs generalizing rows with
  | nil => simp [Table.keys]
  | cons attr attrs ih =>
      have hone : name ∈ Table.keys (ensureAttr rows attr) ↔
          name ∈ Table.keys rows ∨ name = attr.1 := by
        unfold ensureAttr
        split
        · rename_i hthere
          rw [Table.find_isSome_iff_mem_keys] at hthere
          exact ⟨.inl, fun h => h.elim id fun heq => heq ▸ hthere⟩
        · rw [Table.mem_keys_put, or_comm]
      have hkeys : Table.keys (attr :: attrs) = attr.1 :: Table.keys attrs := rfl
      rw [List.foldl_cons, ih, hone, hkeys, List.mem_cons, or_assoc]

theorem mem_attrTexts {text : String} : text ∈ s.attrTexts ↔
    ∃ entry ∈ s.vsysfsList, ∃ name ∈ Table.keys entry.2.attrs,
      text = entry.2.devicesDir ++ "/" ++ name := by
  unfold ObjectState.attrTexts
  rw [List.mem_flatMap]
  refine exists_congr fun entry => and_congr_right fun _ => ?_
  rw [List.mem_map]
  exact exists_congr fun name => and_congr_right fun _ => eq_comm

theorem text_ne_longer (text rest : String) : text ≠ text ++ "/" ++ rest := by
  intro h
  have hlength := congrArg String.length h
  rw [String.length_append, String.length_append] at hlength
  have hslash : "/".length = 1 := rfl
  omega

theorem ObjectState.Sound.pushVsysfs (h : s.Sound) {v : VsysfsObject}
    (htext : DevicesText v.devicesDir)
    (hclass : Starts "/sys/class/" v.classDir ∨ Starts "/sys/bus/" v.classDir)
    (hnew : ∀ entry ∈ s.vsysfsList, entry.2.devicesDir ≠ v.devicesDir)
    (hclear : s.Clear v.devicesDir (Table.keys v.attrs)) : (s.pushVsysfs v).Sound := by
  have hmem : ∀ entry ∈ (s.pushVsysfs v).vsysfsList, entry ∈ s.vsysfsList ∨ entry = (s.fresh, v) :=
    fun entry hentry => (List.mem_append.mp hentry).imp_right List.mem_singleton.mp
  refine ⟨h.vdev, h.vdevText, ?_, ?_, h.vmoduleText, ?_, h.vmoduleIds, ⟨?_, ?_⟩, ?_,
    h.vmoduleDirs, ?_⟩
  · intro entry hentry
    rcases hmem entry hentry with hold | rfl
    · exact h.vsysfsText entry hold
    · exact htext
  · intro entry hentry
    rcases hmem entry hentry with hold | rfl
    · exact h.classText entry hold
    · exact hclass
  · refine nodup_map_concat h.vsysfsIds fun entry hentry heq => ?_
    exact absurd (h.older.1 entry hentry) (Nat.not_lt.mpr (Nat.le_of_eq heq.symm))
  · intro entry hentry
    rcases hmem entry hentry with hold | rfl
    · exact Nat.lt_succ_of_lt (h.older.1 entry hold)
    · exact Nat.lt_succ_self s.fresh
  · intro entry hentry
    exact Nat.lt_succ_of_lt (h.older.2 entry hentry)
  · exact nodup_map_concat h.vsysfsDirs hnew
  · intro entry hentry other hother name hname
    rcases hmem entry hentry with hold | rfl
    · rcases hmem other hother with hold' | rfl
      · exact h.attrsApart entry hold other hold' name hname
      · exact hclear.2 entry hold name hname
    · rcases hmem other hother with hold' | rfl
      · exact fun heq => hclear.1 (mem_attrTexts.mpr ⟨other, hold', name, hname, heq⟩)
      · exact text_ne_longer _ _

theorem ObjectState.Sound.mapVsysfs (h : s.Sound) {f : Nat × VsysfsObject → Nat × VsysfsObject}
    (hid : ∀ entry ∈ s.vsysfsList, (f entry).1 = entry.1)
    (hclass : ∀ entry ∈ s.vsysfsList, (f entry).2.classDir = entry.2.classDir)
    (hdir : ∀ entry ∈ s.vsysfsList, (f entry).2.devicesDir = entry.2.devicesDir)
    (hattrs : ∀ entry ∈ s.vsysfsList, ∀ name ∈ Table.keys (f entry).2.attrs,
      name ∈ Table.keys entry.2.attrs ∨
        ∀ other ∈ s.vsysfsList, other.2.devicesDir ≠ entry.2.devicesDir ++ "/" ++ name) :
    ObjectState.Sound { s with vsysfsList := s.vsysfsList.map f } := by
  refine ⟨h.vdev, h.vdevText, ?_, ?_, h.vmoduleText, ?_, h.vmoduleIds, ⟨?_, h.older.2⟩, ?_,
    h.vmoduleDirs, ?_⟩
  · rw [List.forall_mem_map]
    intro entry hentry
    rw [hdir entry hentry]
    exact h.vsysfsText entry hentry
  · rw [List.forall_mem_map]
    intro entry hentry
    rw [hclass entry hentry]
    exact h.classText entry hentry
  · have hsame : (s.vsysfsList.map f).map Prod.fst = s.vsysfsList.map Prod.fst := by
      rw [List.map_map]
      exact List.map_congr_left hid
    dsimp only
    rw [hsame]
    exact h.vsysfsIds
  · rw [List.forall_mem_map]
    intro entry hentry
    rw [hid entry hentry]
    exact h.older.1 entry hentry
  · have hsame : (s.vsysfsList.map f).map (fun entry => entry.2.devicesDir) =
        s.vsysfsList.map fun entry => entry.2.devicesDir := by
      rw [List.map_map]
      exact List.map_congr_left hdir
    dsimp only
    rw [hsame]
    exact h.vsysfsDirs
  · rw [List.forall_mem_map]
    intro entry hentry
    rw [List.forall_mem_map]
    intro other hother name hname
    rw [hdir entry hentry, hdir other hother]
    rcases hattrs other hother name hname with hold | hnew
    · exact h.attrsApart entry hentry other hother name hold
    · exact hnew entry hentry

theorem ObjectState.Sound.filter (h : s.Sound) (keeps : Nat × VsysfsObject → Bool)
    (keeps' : Nat × VmoduleObject → Bool) :
    ObjectState.Sound { s with
      vsysfsList := s.vsysfsList.filter keeps
      vmoduleList := s.vmoduleList.filter keeps' } := by
  have hvsysfs := List.filter_sublist (l := s.vsysfsList) (p := keeps)
  have hvmodules := List.filter_sublist (l := s.vmoduleList) (p := keeps')
  have hmem : ∀ entry ∈ s.vsysfsList.filter keeps, entry ∈ s.vsysfsList := fun _ h => hvsysfs.subset h
  refine ⟨h.vdev, h.vdevText, fun entry hentry => h.vsysfsText entry (hmem entry hentry),
    fun entry hentry => h.classText entry (hmem entry hentry),
    fun entry hentry => h.vmoduleText entry (hvmodules.subset hentry),
    h.vsysfsIds.sublist (hvsysfs.map _), h.vmoduleIds.sublist (hvmodules.map _),
    ⟨fun entry hentry => h.older.1 entry (hmem entry hentry),
      fun entry hentry => h.older.2 entry (hvmodules.subset hentry)⟩,
    h.vsysfsDirs.sublist (hvsysfs.map _), h.vmoduleDirs.sublist (hvmodules.map _), ?_⟩
  intro entry hentry other hother
  exact h.attrsApart entry (hmem entry hentry) other (hmem other hother)

variable {root : VsysfsRootObject} {v : VdevObject} {inst : String}

theorem devicesText_parent (hkobject : ∀ x ∈ pieces root.kobjectName, Segment x)
    (hinst : Segment inst) : DevicesText (parentDirText root inst) := by
  refine ⟨pieces root.kobjectName ++ [inst], by simp, ?_, parentDirText_eq root inst⟩
  intro x hx
  rcases List.mem_append.mp hx with hx | hx
  · exact hkobject x hx
  · rw [List.mem_singleton.mp hx]
    exact hinst

theorem devicesText_devicesDir (hkobject : ∀ x ∈ pieces root.kobjectName, Segment x)
    (hinst : Segment inst) (hname : Segment v.name) :
    DevicesText (devicesDirText root v inst) := by
  have hparent := devicesText_parent hkobject hinst
  unfold devicesDirText
  split
  · exact hparent
  · obtain ⟨rest, hne, hrest, htext⟩ := hparent
    refine ⟨rest ++ [v.name], by simp, ?_, ?_⟩
    · intro x hx
      rcases List.mem_append.mp hx with hx | hx
      · exact hrest x hx
      · rw [List.mem_singleton.mp hx]
        exact hname
    · rw [htext, ← List.cons_append, ← List.cons_append]
      exact (pathText_append (List.cons_ne_nil _ _) v.name).symm

theorem keys_derivedAttrs :
    Table.keys ((derivedAttrsText root v inst).foldl ensureAttr []) = derivedNames := by
  rfl

theorem Starts.ne_empty {front text : String} (h : Starts front text) (hfront : front ≠ "") :
    text ≠ "" := by
  rintro rfl
  refine hfront (String.toList_inj.mp ?_)
  exact List.prefix_nil.mp h

theorem ObjectState.Sound.upsertParent (h : s.Sound) {entry : Nat × VsysfsObject}
    (hentry : entry ∈ s.vsysfsList) (classDir devicesDir : String)
    (attrs : List (String × Attr)) :
    entry.2.upsertParent classDir devicesDir attrs =
      { entry.2 with attrs := attrs.foldl ensureAttr entry.2.attrs } := by
  have hdevices := (h.starts_devicesDir hentry).ne_empty (by decide)
  have hclass : entry.2.classDir ≠ "" := by
    rcases h.classText entry hentry with hstarts | hstarts
    · exact hstarts.ne_empty (by decide)
    · exact hstarts.ne_empty (by decide)
  unfold VsysfsObject.upsertParent
  rw [if_neg hclass, if_neg hdevices]

theorem ObjectState.Sound.ensureParent (h : s.Sound) {id : Nat}
    (hparent : DevicesText (parentDirText root inst))
    (hclear : s.Clear (parentDirText root inst) parentNames) :
    (s.ensureParent id root inst).Sound := by
  have hstarts : Starts "/sys/bus/" (parentClassDirText root inst) := by
    unfold parentClassDirText
    rw [String.append_assoc, String.append_assoc]
    exact .append _ _
  unfold ObjectState.ensureParent
  dsimp only
  split
  · rename_i existing hfind
    have hdir : existing.2.devicesDir = parentDirText root inst := by
      simpa using List.find?_some hfind
    have hexisting := List.mem_of_find?_eq_some hfind
    have hsame : ∀ entry ∈ s.vsysfsList, entry.1 = existing.1 →
        entry.2.devicesDir = parentDirText root inst := by
      intro entry hentry hid
      rw [List.inj_on_of_nodup_map h.vsysfsIds hentry hexisting hid]
      exact hdir
    refine h.mapVsysfs ?_ ?_ ?_ ?_
    · intro entry hentry
      split
      · rfl
      · rfl
    · intro entry hentry
      split
      · rw [h.upsertParent hentry]
      · rfl
    · intro entry hentry
      split
      · rw [h.upsertParent hentry]
      · rfl
    · intro entry hentry name hname
      split at hname
      · rename_i hid
        rw [h.upsertParent hentry] at hname
        rcases mem_keys_ensured.mp hname with hold | hnew
        · exact .inl hold
        · rw [hsame entry hentry hid]
          exact .inr fun other hother => hclear.2 other hother name hnew
      · exact .inl hname
  · rename_i hnone
    rw [List.find?_eq_none] at hnone
    refine h.pushVsysfs hparent (.inr hstarts) ?_ hclear
    intro entry hentry heq
    exact hnone entry hentry (decide_eq_true heq)

theorem ObjectState.linked_some {root vdev : Nat} {rootObject : VsysfsRootObject}
    (h : s.linked root vdev = some (rootObject, v)) : (vdev, v) ∈ s.vdev.vdevList := by
  unfold ObjectState.linked at h
  split at h
  · rename_i hroot hvdev
    split at h
    · obtain ⟨rfl, rfl⟩ := Prod.mk.inj (Option.some.inj h)
      exact Table.mem_of_find hvdev
    · cases h
  · cases h

theorem ObjectState.Clear.pushVsysfs {dir : String} {names : List String} (h : s.Clear dir names)
    {v : VsysfsObject} (hattrs : ∀ name ∈ Table.keys v.attrs, dir ≠ v.devicesDir ++ "/" ++ name)
    (hdir : ∀ name ∈ names, v.devicesDir ≠ dir ++ "/" ++ name) :
    (s.pushVsysfs v).Clear dir names := by
  constructor
  · rw [mem_attrTexts]
    rintro ⟨entry, hentry, name, hname, heq⟩
    rcases List.mem_append.mp hentry with hold | hnew
    · exact h.1 (mem_attrTexts.mpr ⟨entry, hold, name, hname, heq⟩)
    · rw [List.mem_singleton.mp hnew] at hname heq
      exact hattrs name hname heq
  · intro entry hentry name hname
    rcases List.mem_append.mp hentry with hold | hnew
    · exact h.2 entry hold name hname
    · rw [List.mem_singleton.mp hnew]
      exact hdir name hname

theorem join_inj {text left right : String} (h : text ++ "/" ++ left = text ++ "/" ++ right) :
    left = right := by
  have hchars := congrArg String.toList h
  rw [String.toList_append, String.toList_append (s := text ++ "/"),
    List.append_cancel_left_eq] at hchars
  exact String.toList_inj.mp hchars

section

variable (h : s.Sound) (hname : Segment v.name) (hinst : Segment inst)
  (hplain : s.PlainDirs root v inst)

include h hname hinst hplain

theorem ObjectState.Sound.makes (id : Nat)
    (hdir : s.hasDir (classDirText root v) (devicesDirText root v inst) = false) :
    (s.pushVsysfs ⟨id, classDirText root v, devicesDirText root v inst,
      (derivedAttrsText root v inst).foldl ensureAttr []⟩).Sound := by
  obtain ⟨hkobject, -, hown, -⟩ := hplain
  refine h.pushVsysfs (devicesText_devicesDir hkobject hinst hname) (.inl ?_) ?_ ?_
  · unfold classDirText
    rw [String.append_assoc, String.append_assoc]
    exact .append _ _
  · intro entry hentry heq
    exact List.any_eq_false.mp hdir entry hentry (decide_eq_true (.inr heq))
  · rw [keys_derivedAttrs]
    exact hown

omit h hname hinst in
theorem ObjectState.PlainDirs.parent (hne : inst ≠ v.name) (id : Nat) (classDir : String)
    (attrs : List (String × Attr)) :
    (s.pushVsysfs ⟨id, classDir, devicesDirText root v inst, attrs⟩).Clear
      (parentDirText root inst) parentNames := by
  obtain ⟨-, -, -, hparent⟩ := hplain
  obtain ⟨hother, hclear⟩ := hparent hne
  have hchild : devicesDirText root v inst = parentDirText root inst ++ "/" ++ v.name :=
    if_neg hne
  refine hclear.pushVsysfs ?_ ?_
  · intro name hattr
    have hlonger := text_ne_longer (parentDirText root inst) (v.name ++ "/" ++ name)
    rw [← String.append_assoc, ← String.append_assoc] at hlonger
    dsimp only
    rw [hchild]
    exact hlonger
  · intro name hin heq
    dsimp only at heq
    rw [hchild] at heq
    exact hother (join_inj heq ▸ hin)

end

theorem ObjectState.Sound.createVsysfs (h : s.Sound) {id vdev : Nat} {instanceName : String}
    (hplain : ObjectCall.Plain s (.vsysfsCreate id vdev instanceName)) :
    (s.createVsysfs id vdev instanceName).1.Sound := by
  unfold ObjectState.createVsysfs
  split
  · exact h
  · rename_i rootObject v hlinked
    dsimp only
    split
    · exact h
    · rename_i hvalid
      obtain ⟨-, hvalid⟩ := not_or.mp hvalid
      rw [Bool.not_eq_false] at hvalid
      split
      · exact h
      · rename_i hdir
        rw [Bool.not_eq_true] at hdir
        have hdirs := hplain rootObject v hlinked hvalid hdir
        have hinst := hdirs.2.1.segment hvalid
        have hname := (h.vdevText _ (ObjectState.linked_some hlinked)).1
        have hmade := h.makes hname hinst hdirs id hdir
        split
        · exact hmade
        · rename_i hne
          exact hmade.ensureParent (devicesText_parent hdirs.1 hinst) (hdirs.parent hne _ _ _)

theorem ObjectState.Sound.createVmodule (h : s.Sound) {name : String}
    (hplain : ObjectCall.Plain s (.vmoduleCreate name)) : (s.createVmodule name).1.Sound := by
  unfold ObjectState.createVmodule
  split
  · exact h
  · rename_i hvalid
    rw [Bool.not_eq_false] at hvalid
    have hsegment : Segment (vmoduleNormalizeInstanceName name) := (hplain hvalid).segment hvalid
    split
    · exact h
    · rename_i hdir
      have hmem : ∀ entry ∈ s.vmoduleList ++ [(s.fresh, ⟨moduleDirText name, [], []⟩)],
          entry ∈ s.vmoduleList ∨ entry = (s.fresh, ⟨moduleDirText name, [], []⟩) :=
        fun entry hentry => (List.mem_append.mp hentry).imp_right List.mem_singleton.mp
      refine ⟨h.vdev, h.vdevText, h.vsysfsText, h.classText, ?_, h.vsysfsIds, ?_, ⟨?_, ?_⟩,
        h.vsysfsDirs, ?_, h.attrsApart⟩
      · intro entry hentry
        rcases hmem entry hentry with hold | rfl
        · exact h.vmoduleText entry hold
        · exact ⟨_, hsegment, (moduleText_eq _).symm⟩
      · refine nodup_map_concat h.vmoduleIds fun entry hentry heq => ?_
        exact absurd (h.older.2 entry hentry) (Nat.not_lt.mpr (Nat.le_of_eq heq.symm))
      · intro entry hentry
        exact Nat.lt_succ_of_lt (h.older.1 entry hentry)
      · intro entry hentry
        rcases hmem entry hentry with hold | rfl
        · exact Nat.lt_succ_of_lt (h.older.2 entry hold)
        · exact Nat.lt_succ_self s.fresh
      · refine nodup_map_concat h.vmoduleDirs fun entry hentry heq => ?_
        exact hdir (List.any_eq_true.mpr ⟨entry, hentry, decide_eq_true heq⟩)

theorem ObjectState.Sound.vdevs (h : s.Sound) {call : VdevCall} {vdev : VdevState}
    (hplain : ObjectCall.Plain s (.vdev call)) (hstep : vdevStep s.vdev call = some vdev) :
    ObjectState.Sound { s with vdev } := by
  refine ⟨vdevStep_sound h.vdev hstep, ?_, h.vsysfsText, h.classText, h.vmoduleText, h.vsysfsIds,
    h.vmoduleIds, h.older, h.vsysfsDirs, h.vmoduleDirs, h.attrsApart⟩
  cases call with
  | create root name major minor =>
      obtain rfl := Option.some.inj hstep
      rcases create_cases s.vdev root name major minor with
        hnone | ⟨haccepts, hmajor, hminor, pair, hpair, hsome⟩
      · rw [hnone]
        exact h.vdevText
      · have hname : PlainName (vdevNormalizeName name) :=
          hplain haccepts hmajor hminor (Option.isSome_of_eq_some hpair)
        rw [hsome]
        intro entry hentry
        rcases List.mem_append.mp hentry with hold | hnew
        · exact h.vdevText entry hold
        · rw [List.mem_singleton.mp hnew]
          unfold newVdev vdevPath
          dsimp only
          exact ⟨hname.segment haccepts.valid, (vdevText_eq _).symm⟩
  | destroy id =>
      obtain rfl := Option.some.inj hstep
      exact fun entry hentry => h.vdevText entry (List.mem_filter.mp hentry).1
  | createRoot nameGlob =>
      obtain rfl := Option.some.inj hstep
      unfold VdevState.createRoot
      split
      · exact h.vdevText
      · exact h.vdevText
  | destroyRoot id =>
      obtain rfl := Option.some.inj hstep
      exact h.vdevText

theorem objectStep_sound {call : ObjectCall} (h : s.Sound) (hplain : call.Plain s)
    (hstep : objectStep s call = some t) : t.Sound := by
  cases call with
  | vdev call =>
      obtain ⟨vdev, hvdev, rfl⟩ := Option.map_eq_some_iff.mp hstep
      exact h.vdevs hplain hvdev
  | vsysfsRootCreate vdevRoot className kobjectName instanceNameGlob =>
      obtain rfl := Option.some.inj hstep
      unfold ObjectState.createVsysfsRoot
      split
      · exact h
      · dsimp only
        split
        · exact h
        · exact { h with
            older := ⟨fun entry hentry => Nat.lt_succ_of_lt (h.older.1 entry hentry),
              fun entry hentry => Nat.lt_succ_of_lt (h.older.2 entry hentry)⟩ }
  | vsysfsRootDestroy id =>
      obtain rfl := Option.some.inj hstep
      exact { h with }
  | vsysfsCreate root vdev instanceName =>
      obtain rfl := Option.some.inj hstep
      exact h.createVsysfs hplain
  | vsysfsDestroy id =>
      obtain rfl := Option.some.inj hstep
      have hleft := h.filter (fun entry => entry.1 ≠ id) fun _ => true
      rw [List.filter_true] at hleft
      exact hleft
  | vmoduleCreate name =>
      obtain rfl := Option.some.inj hstep
      exact h.createVmodule hplain
  | vmoduleDestroy id =>
      obtain rfl := Option.some.inj hstep
      have hleft := h.filter (fun _ => true) fun entry => entry.1 ≠ id
      rw [List.filter_true] at hleft
      exact hleft

theorem start_sound : ObjectState.start.Sound := by
  unfold ObjectState.start VdevState.start
  refine ⟨⟨?_, ?_, ?_⟩, ?_, ?_, ?_, ?_, ?_, ?_, ⟨?_, ?_⟩, ?_, ?_, ?_⟩
  all_goals simp [VdevState.vdevs]

/-- In a run of plain calls every object is where its text leads, and no two texts are alike. -/
theorem plain_allReachable {calls : List ObjectCall}
    (hplain : Meets objectStep ObjectCall.Plain .start calls)
    (hrun : run objectStep .start calls = some s) : s.AllReachable :=
  (run_invariant_of_meets (fun _ _ _ h hok hstep => objectStep_sound h hok hstep) start_sound hplain
    hrun).allReachable

/-- A device with a directory of its own below that of its parent, and a module. -/
def attached : List ObjectCall :=
  [.vdev (.createRoot "dpu_rank*"), .vdev (.create 0 "/dev/dpu_rank0" 240 0),
    .vsysfsRootCreate 0 "dpu_rank" "platform/upmem" "dpu_region*", .vsysfsCreate 0 1 "dpu_region0",
    .vmoduleCreate "dpu"]

theorem plain_allReachable_attached :
    ∃ s, run objectStep .start attached = some s ∧ s.AllReachable := by
  refine ⟨_, rfl, @plain_allReachable _ attached ?_ rfl⟩
  refine ⟨trivial, ?_⟩
  rintro s ⟨⟩
  refine ⟨fun _ _ _ _ => by decide +kernel, ?_⟩
  rintro s ⟨⟩
  refine ⟨trivial, ?_⟩
  rintro s ⟨⟩
  refine ⟨?_, ?_⟩
  · rintro root v ⟨⟩ - -
    decide +kernel
  rintro s ⟨⟩
  refine ⟨fun _ => by decide +kernel, ?_⟩
  rintro s ⟨⟩
  trivial

def dotDevice : List ObjectCall := [.vdev (.createRoot "dpu_rank*"), .vdev (.create 0 "." 240 0)]

theorem unreachable_dotDevice :
    ¬∀ calls s, run objectStep .start calls = some s → s.AllReachable := by
  intro h
  have hall := h dotDevice _ rfl
  obtain ⟨p, hp⟩ := hall.vdevs 1 ⟨0, ".", "/dev/.", 240, 0⟩ (by decide +kernel)
  have hnone : ((run objectStep .start dotDevice).bind fun s => s.resolve "/dev/.") = none := by
    decide +kernel
  exact absurd (hnone.symm.trans hp) (by simp)

end HostPimSim.Vfile.Namespace
