import HostPimSim.Vfile.Freshness
import HostPimSim.Vfile.Links

/-! The default attributes of a root and the instances linked to it, while one call writes or
removes a default and others create instances.  A writer collects the instances in one section
and sets the default in a later one. -/
namespace HostPimSim.Vfile.Namespace
open Attribute Transition

def Registry.default (r : Registry) (root : Nat) (name : String) : Option Attr :=
  ((r.roots[root]?).map Root.defaultAttrs).bind fun rows => Table.find rows name

/-- Nothing but `pim_vsysfs_create` is called, and memory can be had. -/
def CreatesOnly : Action → Prop
  | .start (.vsysfsCreate _ _ _) | .turn _ true | .lookup | .build _ => True
  | _ => False

def Pc.creating : Pc → Bool
  | .begin (.vsysfsCreate _ _ _) | .linkVsysfs _ _ | .attachDevice _ | .ensureParent _
  | .upsertParent _ _ | .notify => true
  | _ => false

def Pc.collecting (root : Nat) : Pc → Bool
  | .capture w _ _ | .setRoot w _ => w.root = root
  | _ => false

def State.collecting (s : State) (root : Nat) : Bool :=
  s.threads.any fun thread => thread.any fun thread => thread.pc.collecting root

/-- An instance linked while the default is being written finds it written already. -/
def LinksApart (root : Nat) (name : String) (attr : Attr) (s : State) : Pc → Prop
  | .linkVsysfs id _ => (s.registry.vsysfs[id]?).map Vsysfs.root = some root →
      s.collecting root = true → s.registry.default root name = some attr
  | _ => True

/-- No parent node gets the attribute from a call that creates another instance. -/
def NotWritten (name : String) (s : State) : Pc → Prop
  | .upsertParent parent attrs =>
      name ∈ Table.keys attrs → (s.registry.live (.vsysfs parent) name).isSome = true
  | _ => True

def AtTurns (p : State → Pc → Prop) (s : State) : Action → Prop
  | .turn i _ => ∀ thread ∈ (s.threads[i]?).join, p s thread.pc
  | _ => True

def OthersKept (name : String) (r t : Registry) : Prop :=
  ∀ key, key ≠ name → (∀ owner, t.live owner key = r.live owner key) ∧
    ∀ root, t.default root key = r.default root key

/-- The turns of thread `i` change nothing but the attributes of this name. -/
def ChangesOnly (i : Nat) (name : String) (s : State) (a : Action) : Prop :=
  ∀ ok, a = .turn i ok → ∀ t ∈ step s a, OthersKept name s.registry t.registry

variable {r t : Registry} {root id : Nat} {name : String} {attr : Attr} {final : Option Attr}
  {ids : List Nat} {pc : Pc}

def Collected (r : Registry) (root : Nat) (name : String) (final : Option Attr)
    (ids : List Nat) : Prop :=
  ∀ members, r.members[root]? = some members → ∀ id ∈ members,
    id ∈ ids ∨ r.live (.vsysfs id) name = final

structure Pending (r : Registry) (root : Nat) (name : String) (final : Option Attr)
    (ids : List Nat) : Prop where
  collected : Collected r root name final ids
  default : root < r.roots.length → r.default root name = final

def Stage (r : Registry) (root : Nat) (name : String) (final : Option Attr) : Option Pc → Prop
  | none | some .notify => Pending r root name final []
  | some (.begin (.rootWriteDefaultAttr k key attr)) => k = root ∧ key = name ∧ final = some attr
  | some (.begin (.rootRemoveDefaultAttr k key)) =>
      k = root ∧ key = name ∧ final = none ∧ (r.default root name).isSome = true
  | some (.capture w prev left) => w.root = root ∧ w.name = name ∧ final = some w.attr ∧
      Collected r root name final (prev.map Prod.fst ++ left)
  | some (.setRoot w prev) => w.root = root ∧ w.name = name ∧ final = some w.attr ∧
      Collected r root name final (prev.map Prod.fst)
  | some (.apply w _ left) => w.root = root ∧ w.name = name ∧ final = some w.attr ∧
      Pending r root name final (left.map Prod.fst)
  | some (.removeFrom key left _) => key = name ∧ final = none ∧ Pending r root name final left
  | _ => False

/-- What a section of a call that creates an instance does to a root and to one attribute. -/
structure Creates (root : Nat) (name : String) (final : Option Attr) (r t : Registry) : Prop where
  members : ∀ members, t.members[root]? = some members → ∃ old, r.members[root]? = some old ∧
    ∀ id ∈ members, id ∈ old ∨ t.live (.vsysfs id) name = final
  kept : ∀ members, r.members[root]? = some members → ∀ id ∈ members,
    r.live (.vsysfs id) name = final → t.live (.vsysfs id) name = final

def SameDefaults (r t : Registry) : Prop :=
  t.roots.map Root.defaultAttrs = r.roots.map Root.defaultAttrs

theorem SameDefaults.default (h : SameDefaults r t) (k : Nat) (key : String) :
    t.default k key = r.default k key := by
  unfold Registry.default
  rw [← List.getElem?_map, h, List.getElem?_map]

theorem SameDefaults.length (h : SameDefaults r t) : t.roots.length = r.roots.length := by
  have hlength := congrArg List.length h
  simpa only [List.length_map] using hlength

theorem Creates.collected (h : Creates root name final r t)
    (hcollected : Collected r root name final ids) : Collected t root name final ids := by
  intro members hmembers id hid
  obtain ⟨old, hold, hnew⟩ := h.members members hmembers
  rcases hnew id hid with hmem | hlive
  · rcases hcollected old hold id hmem with hleft | hdone
    · exact .inl hleft
    · exact .inr (h.kept old hold id hmem hdone)
  · exact .inr hlive

theorem Creates.pending (h : Creates root name final r t) (hdefaults : SameDefaults r t)
    (hpending : Pending r root name final ids) : Pending t root name final ids := by
  refine ⟨h.collected hpending.collected, fun hroot => ?_⟩
  rw [hdefaults.default]
  exact hpending.default (hdefaults.length ▸ hroot)

theorem Stage.begin {call : Call} (h : Stage r root name final (some (.begin call)))
    (hdefaults : SameDefaults r t) : Stage t root name final (some (.begin call)) := by
  cases call with
  | rootWriteDefaultAttr k key attr => exact h
  | rootRemoveDefaultAttr k key =>
      refine ⟨h.1, h.2.1, h.2.2.1, ?_⟩
      rw [hdefaults.default]
      exact h.2.2.2
  | _ => exact h.elim

theorem Creates.stage {writer : Option Pc} (h : Creates root name final r t)
    (hdefaults : SameDefaults r t) (hstage : Stage r root name final writer) :
    Stage t root name final writer := by
  unfold Stage at hstage
  split at hstage
  · exact h.pending hdefaults hstage
  · exact h.pending hdefaults hstage
  · exact hstage
  · exact Stage.begin hstage hdefaults
  · exact ⟨hstage.1, hstage.2.1, hstage.2.2.1, h.collected hstage.2.2.2⟩
  · exact ⟨hstage.1, hstage.2.1, hstage.2.2.1, h.collected hstage.2.2.2⟩
  · exact ⟨hstage.1, hstage.2.1, hstage.2.2.1, h.pending hdefaults hstage.2.2.2⟩
  · exact ⟨hstage.1, hstage.2.1, h.pending hdefaults hstage.2.2⟩
  · exact hstage.elim

theorem Stage.default_or_collecting {writer : Option Pc} (h : Stage r root name final writer)
    (hbegun : ∀ call, writer ≠ some (.begin call)) :
    (root < r.roots.length → r.default root name = final) ∨
      ∃ pc attr, writer = some pc ∧ pc.collecting root = true ∧ final = some attr := by
  unfold Stage at h
  split at h
  · exact .inl h.default
  · exact .inl h.default
  · exact absurd rfl (hbegun _)
  · exact absurd rfl (hbegun _)
  · exact .inr ⟨_, _, rfl, decide_eq_true h.1, h.2.2.1⟩
  · exact .inr ⟨_, _, rfl, decide_eq_true h.1, h.2.2.1⟩
  · exact .inl h.2.2.2.default
  · exact .inl h.2.2.default
  · exact h.elim

theorem creates_refl (r : Registry) : Creates root name final r r :=
  ⟨fun members h => ⟨members, h, fun _ hid => .inl hid⟩, fun _ _ _ _ h => h⟩

theorem creates_push (hlinked : Linked r) (hroots : t.roots = r.roots) {v : Vsysfs}
    (hpush : t.vsysfs = r.vsysfs ++ [v]) : Creates root name final r t := by
  have hmembers : t.members = r.members := by rw [Registry.members, hroots, Registry.members]
  refine ⟨fun members h => ⟨members, hmembers ▸ h, fun _ hid => .inl hid⟩, ?_⟩
  intro members h id hid hlive
  have howner := hlinked root members h id hid
  rw [Registry.owners, List.getElem?_map] at howner
  obtain ⟨object, hobject, _⟩ := Option.map_eq_some_iff.mp howner
  have hlt := (List.getElem?_eq_some_iff.mp hobject).1
  rw [← hlive, Registry.live, Registry.live, Registry.attrs, Registry.attrs, hpush,
    List.getElem?_append_left hlt]

theorem creates_ensured {attrs old : List (String × Attr)} {parent : Nat}
    (hold : r.attrs (.vsysfs parent) = some old)
    (hkept : final = none → name ∈ Table.keys attrs →
      (r.live (.vsysfs parent) name).isSome = true) :
    Creates root name final r (r.setAttrs (.vsysfs parent) (attrs.foldl ensureAttr old)) := by
  refine ⟨fun members h => ⟨members, h, fun _ hid => .inl hid⟩, ?_⟩
  intro members _ id hid hlive
  by_cases hparent : id = parent
  · subst hparent
    rw [live_setAttrs_self hold]
    have hfind : Table.find old name = final := by
      rw [← hlive, Registry.live, hold]
      rfl
    cases final with
    | some attr => exact (find_ensured old attrs name).1 attr hfind
    | none =>
        refine (find_ensured old attrs name).2 hfind fun hmem => ?_
        have hsome := hkept rfl hmem
        rw [hlive] at hsome
        cases hsome
  · rw [live_setAttrs_of_ne (by simpa using hparent)]
    exact hlive

theorem find_linked {object : Root} {vdev : Vdev} {dir : Path}
    (hdefault : Table.find object.defaultAttrs name = final)
    (hname : final = none → name ∉ ["dev", "subsystem", "uevent"]) :
    Table.find ((derivedAttrs object vdev dir).foldl ensureAttr object.defaultAttrs) name =
      final := by
  cases final with
  | some attr => exact (find_ensured _ _ name).1 attr hdefault
  | none => exact (find_ensured _ _ name).2 hdefault (hname rfl)

theorem creates_linkVsysfs (vdev : Nat) (hlinked : Linked r)
    (hname : final = none → name ∉ ["dev", "subsystem", "uevent"])
    (hdefault : (r.vsysfs[id]?).map Vsysfs.root = some root → root < r.roots.length →
      r.default root name = final) :
    Creates root name final r (linkVsysfs r id vdev) := by
  unfold linkVsysfs
  split
  · rename_i v vdevObject hv hvdev
    split
    · rename_i object hobject
      have hattrs : r.attrs (.vsysfs id) = some v.attrs := by rw [Registry.attrs, hv]; rfl
      have hlive : v.root = root → (r.setAttrs (.vsysfs id)
          ((derivedAttrs object vdevObject v.devicesDir).foldl ensureAttr
            object.defaultAttrs)).live (.vsysfs id) name = final := by
        intro hroot
        rw [live_setAttrs_self hattrs]
        refine find_linked ?_ hname
        have hlength := (List.getElem?_eq_some_iff.mp hobject).1
        rw [hroot] at hobject hlength
        rw [← hdefault (by rw [hv, ← hroot]; rfl) hlength, Registry.default, hobject]
        rfl
      constructor
      · intro members hmembers
        rw [Registry.members, List.getElem?_map] at hmembers
        obtain ⟨after, hafter, rfl⟩ := Option.map_eq_some_iff.mp hmembers
        change (r.roots.modify v.root _)[root]? = some after at hafter
        rw [List.getElem?_modify] at hafter
        obtain ⟨before, hbefore, hchange⟩ := Option.map_eq_some_iff.mp hafter
        refine ⟨before.instances, ?_, ?_⟩
        · rw [Registry.members, List.getElem?_map, hbefore]
          rfl
        · intro other hother
          split at hchange
          · rename_i hroot
            cases hchange
            rcases List.mem_append.mp hother with hold | hnew
            · exact .inl hold
            · right
              rw [List.mem_singleton.mp hnew]
              exact hlive hroot
          · cases hchange
            exact .inl hother
      · intro members hmembers other hother hbefore
        by_cases hsame : other = id
        · subst hsame
          refine hlive ?_
          have howner := hlinked root members hmembers other hother
          rw [Registry.owners, List.getElem?_map, hv] at howner
          exact Option.some.inj howner
        · change (r.setAttrs (.vsysfs id) _).live (.vsysfs other) name = final
          rw [live_setAttrs_of_ne (by simpa using hsame)]
          exact hbefore
    · exact creates_refl r
  · exact creates_refl r

theorem creates_ensureParent (hlinked : Linked r) :
    Creates root name final r (ensureParent r id).1 := by
  unfold ensureParent
  split
  · exact creates_refl r
  · split
    · exact creates_refl r
    · dsimp only
      split
      · exact creates_refl r
      · exact creates_push hlinked rfl rfl

theorem linkVsysfs_sameDefaults (r : Registry) (id vdev : Nat) :
    SameDefaults r (linkVsysfs r id vdev) := by
  unfold linkVsysfs
  split
  · split
    · exact Threads.map_modify_of_eq _ _ _ _ fun _ _ => rfl
    · rfl
  · rfl

theorem ensureParent_sameDefaults (r : Registry) (id : Nat) :
    SameDefaults r (ensureParent r id).1 := by
  unfold ensureParent
  split
  · rfl
  · split
    · rfl
    · dsimp only
      split <;> rfl

theorem runSection_creating (hcreating : pc.creating = true) :
    SameDefaults r (runSection r true pc).1 ∧
      ∀ next, (runSection r true pc).2 = some next → next.creating = true := by
  unfold Pc.creating at hcreating
  split at hcreating
  · dsimp only [runSection, beginCall, registerVsysfs]
    split
    · split
      · exact ⟨rfl, fun next h => by cases h⟩
      · refine ⟨rfl, fun next h => ?_⟩
        cases h
        rfl
    · exact ⟨rfl, fun next h => by cases h⟩
  · refine ⟨linkVsysfs_sameDefaults r _ _, fun next h => ?_⟩
    cases h
    rfl
  · refine ⟨rfl, fun next h => ?_⟩
    cases h
    split <;> rfl
  · rename_i id
    refine ⟨ensureParent_sameDefaults r id, fun next h => ?_⟩
    change (ensureParent r id).2 = some next at h
    rcases ensureParent_next r id with hnext | ⟨parent, attrs, hnext⟩
    · cases hnext.symm.trans h
      rfl
    · cases hnext.symm.trans h
      rfl
  · dsimp only [runSection]
    split
    · refine ⟨rfl, fun next h => ?_⟩
      cases h
      rfl
    · refine ⟨rfl, fun next h => ?_⟩
      cases h
      rfl
  · exact ⟨rfl, fun next h => by cases h⟩
  · cases hcreating

theorem runSection_creates (hcreating : pc.creating = true) (hlinked : Linked r)
    (hname : final = none → name ∉ ["dev", "subsystem", "uevent"])
    (hlink : ∀ id vdev, pc = .linkVsysfs id vdev →
      (r.vsysfs[id]?).map Vsysfs.root = some root → root < r.roots.length →
      r.default root name = final)
    (hupsert : ∀ parent attrs, pc = .upsertParent parent attrs → final = none →
      name ∈ Table.keys attrs → (r.live (.vsysfs parent) name).isSome = true) :
    Creates root name final r (runSection r true pc).1 := by
  unfold Pc.creating at hcreating
  split at hcreating
  · dsimp only [runSection, beginCall, registerVsysfs]
    split
    · split
      · exact creates_refl r
      · exact creates_push hlinked rfl rfl
    · exact creates_refl r
  · rename_i id vdev
    exact creates_linkVsysfs vdev hlinked hname (hlink id vdev rfl)
  · exact creates_refl r
  · exact creates_ensureParent hlinked
  · rename_i parent attrs
    dsimp only [runSection]
    split
    · exact creates_refl r
    · rename_i old hold
      exact creates_ensured hold (hupsert parent attrs rfl)
  · exact creates_refl r
  · cases hcreating

theorem default_modifyRoot (f : Root → Root) (k : Nat) (key : String) :
    (r.modifyRoot root f).default k key =
      if root = k then (r.roots[k]?).bind fun object => Table.find (f object).defaultAttrs key
      else r.default k key := by
  unfold Registry.default Registry.modifyRoot
  rw [List.getElem?_modify]
  cases r.roots[k]? with
  | none => simp
  | some object =>
      split
      · rfl
      · rfl

theorem OthersKept.refl (r : Registry) : OthersKept name r r :=
  fun _ _ => ⟨fun _ => rfl, fun _ => rfl⟩

theorem othersKept_modifyRoot {f : Root → Root}
    (hf : ∀ object key, key ≠ name →
      Table.find (f object).defaultAttrs key = Table.find object.defaultAttrs key) :
    OthersKept name r (r.modifyRoot root f) := by
  intro key hkey
  refine ⟨fun owner => rfl, fun k => ?_⟩
  rw [default_modifyRoot]
  split
  · unfold Registry.default
    cases r.roots[k]? with
    | none => rfl
    | some object => exact hf object key hkey
  · rfl

theorem othersKept_putAttr (r : Registry) (owner : Owner) (name : String) (attr : Attr) :
    OthersKept name r (putAttr r owner name attr) := by
  intro key hkey
  refine ⟨fun other => live_putAttr_of_ne (.inr hkey), fun root => ?_⟩
  unfold putAttr
  split
  · rfl
  · cases owner <;> rfl

theorem othersKept_dropAttr (r : Registry) (owner : Owner) (name : String) :
    OthersKept name r (dropAttr r owner name) := by
  intro key hkey
  refine ⟨fun other => live_dropAttr_of_ne (.inr hkey), fun root => ?_⟩
  unfold dropAttr
  split
  · rfl
  · cases owner <;> rfl

theorem captureNext_stage {w : DefaultWrite} {prev : List (Nat × Option Attr)} {left : List Nat}
    (hroot : w.root = root) (hname : w.name = name) (hfinal : final = some w.attr)
    (h : Collected r root name final (prev.map Prod.fst ++ left)) :
    Stage r root name final (some (captureNext w prev left)) := by
  cases left with
  | nil =>
      rw [List.append_nil] at h
      exact ⟨hroot, hname, hfinal, h⟩
  | cons id left => exact ⟨hroot, hname, hfinal, h⟩

theorem applyNext_stage {w : DefaultWrite} {done left : List (Nat × Option Attr)}
    (hroot : w.root = root) (hname : w.name = name) (hfinal : final = some w.attr)
    (h : Pending r root name final (left.map Prod.fst)) :
    Stage r root name final (applyNext w done left) := by
  cases left with
  | nil =>
      dsimp only [applyNext]
      split <;> exact h
  | cons state left => exact ⟨hroot, hname, hfinal, h⟩

theorem removeNext_stage {left : List Nat} (anyRemoved : Bool) (hfinal : final = none)
    (h : Pending r root name final left) :
    Stage r root name final (removeNext name anyRemoved left) := by
  cases left with
  | nil =>
      dsimp only [removeNext]
      split <;> exact h
  | cons id left => exact ⟨rfl, hfinal, h⟩

theorem collected_instances {object : Root} (h : r.roots[root]? = some object)
    (name : String) (final : Option Attr) :
    Collected r root name final object.instances := by
  intro members hmembers id hid
  rw [Registry.members, List.getElem?_map, h] at hmembers
  cases hmembers
  exact .inl hid

theorem Collected.same (h : Collected r root name final ids) (hmembers : t.members = r.members)
    (hlive : ∀ id, t.live (.vsysfs id) name = r.live (.vsysfs id) name) :
    Collected t root name final ids := by
  intro members hget id hid
  rw [hmembers] at hget
  rw [hlive]
  exact h members hget id hid

theorem Pending.settle (h : Pending r root name final (id :: ids)) (hlinks : SameLinks r t)
    (hroots : t.roots = r.roots)
    (hself : r.owners[id]? = some root → t.live (.vsysfs id) name = final)
    (hothers : ∀ other, other ≠ id → t.live (.vsysfs other) name = r.live (.vsysfs other) name)
    (hlinked : Linked r) : Pending t root name final ids := by
  constructor
  · intro members hmembers other hother
    rw [hlinks.2] at hmembers
    by_cases hsame : other = id
    · subst hsame
      exact .inr (hself (hlinked root members hmembers other hother))
    · rw [hothers other hsame]
      rcases h.collected members hmembers other hother with hmem | hdone
      · exact .inl ((List.mem_cons.mp hmem).resolve_left hsame)
      · exact .inr hdone
  · intro hroot
    unfold Registry.default
    rw [hroots] at hroot ⊢
    exact h.default hroot

theorem attrs_isSome_of_owner (h : r.owners[id]? = some root) :
    (r.attrs (.vsysfs id)).isSome = true := by
  rw [Registry.owners, List.getElem?_map] at h
  obtain ⟨v, hv, _⟩ := Option.map_eq_some_iff.mp h
  rw [Registry.attrs, hv]
  rfl

theorem roots_putAttr (r : Registry) (owner : Owner) (name : String) (attr : Attr) :
    (putAttr r owner name attr).roots = r.roots := by
  unfold putAttr
  split
  · rfl
  · cases owner <;> rfl

theorem roots_dropAttr (r : Registry) (owner : Owner) (name : String) :
    (dropAttr r owner name).roots = r.roots := by
  unfold dropAttr
  split
  · rfl
  · cases owner <;> rfl

theorem setRoot_stage {w : DefaultWrite} {prev : List (Nat × Option Attr)}
    (h : Stage r root name final (some (.setRoot w prev))) :
    Stage (runSection r true (.setRoot w prev)).1 root name final
        (runSection r true (.setRoot w prev)).2 ∧
      OthersKept name r (runSection r true (.setRoot w prev)).1 := by
  obtain ⟨rfl, rfl, rfl, hcollected⟩ := h
  constructor
  · refine applyNext_stage rfl rfl rfl ⟨?_, ?_⟩
    · refine hcollected.same ?_ fun id => rfl
      exact (sameLinks_modifyRoot (by intro object; rfl)).2
    · intro hroot
      have hlength : w.root < r.roots.length := by
        simpa [runSection, Registry.modifyRoot] using hroot
      change (r.modifyRoot w.root _).default w.root w.name = some w.attr
      rw [default_modifyRoot, if_pos rfl, List.getElem?_eq_getElem hlength]
      exact Table.find_put_self
  · exact othersKept_modifyRoot fun object key hkey => Table.find_put_of_ne hkey

theorem beginRemove_stage
    (h : Stage r root name final (some (.begin (.rootRemoveDefaultAttr root name)))) :
    Stage (beginCall r true (.rootRemoveDefaultAttr root name)).1 root name final
        (beginCall r true (.rootRemoveDefaultAttr root name)).2 ∧
      OthersKept name r (beginCall r true (.rootRemoveDefaultAttr root name)).1 := by
  obtain ⟨_, _, rfl, hdefault⟩ := h
  dsimp only [beginCall]
  unfold Registry.default at hdefault
  cases hobject : r.roots[root]? with
  | none =>
      rw [hobject] at hdefault
      cases hdefault
  | some object =>
      rw [hobject] at hdefault
      dsimp only
      rw [if_pos ⟨rfl, hdefault⟩]
      constructor
      · refine removeNext_stage false rfl ⟨?_, ?_⟩
        · refine (collected_instances hobject name none).same ?_ fun id => rfl
          exact (sameLinks_modifyRoot (by intro object; rfl)).2
        · intro _
          rw [default_modifyRoot, if_pos rfl, hobject]
          exact Table.find_remove_self
      · exact othersKept_modifyRoot fun object key hkey => Table.find_remove_of_ne hkey

theorem runSection_stage (hlinked : Linked r) (hnotify : pc ≠ .notify)
    (h : Stage r root name final (some pc)) :
    Stage (runSection r true pc).1 root name final (runSection r true pc).2 ∧
      OthersKept name r (runSection r true pc).1 := by
  cases pc with
  | begin call =>
      cases call with
      | rootWriteDefaultAttr k key attr =>
          obtain ⟨rfl, rfl, rfl⟩ := h
          dsimp only [runSection, beginCall]
          cases hobject : r.roots[k]? with
          | none =>
              have hlength := List.getElem?_eq_none_iff.mp hobject
              refine ⟨⟨fun members hmembers => ?_,
                fun hroot => absurd hroot (Nat.not_lt.mpr hlength)⟩,
                OthersKept.refl r⟩
              rw [Registry.members, List.getElem?_map, hobject] at hmembers
              cases hmembers
          | some object =>
              exact ⟨captureNext_stage rfl rfl rfl (collected_instances hobject key _),
                OthersKept.refl r⟩
      | rootRemoveDefaultAttr k key =>
          obtain ⟨rfl, rfl, hfinal, hdefault⟩ := h
          exact beginRemove_stage ⟨rfl, rfl, hfinal, hdefault⟩
      | _ => exact h.elim
  | notify => exact absurd rfl hnotify
  | capture w prev left =>
      obtain ⟨hroot, hname, hfinal, hcollected⟩ := h
      cases left with
      | nil =>
          rw [List.append_nil] at hcollected
          exact ⟨⟨hroot, hname, hfinal, hcollected⟩, OthersKept.refl r⟩
      | cons id left =>
          refine ⟨captureNext_stage hroot hname hfinal ?_, OthersKept.refl r⟩
          rw [List.map_append, List.append_assoc]
          exact hcollected
  | setRoot w prev => exact setRoot_stage h
  | apply w done left =>
      obtain ⟨hroot, rfl, hfinal, hpending⟩ := h
      cases left with
      | nil => exact ⟨applyNext_stage hroot rfl hfinal hpending, OthersKept.refl r⟩
      | cons state left =>
          refine ⟨applyNext_stage hroot rfl hfinal ?_, othersKept_putAttr r _ _ _⟩
          refine hpending.settle (sameLinks_putAttr r _ _ _) (roots_putAttr r _ _ _) ?_ ?_ hlinked
          · intro howner
            rw [hfinal]
            exact live_putAttr_self (attrs_isSome_of_owner howner)
          · intro other hne
            exact live_putAttr_of_ne (.inl (by simpa using hne))
  | removeFrom key left anyRemoved =>
      obtain ⟨rfl, rfl, hpending⟩ := h
      cases left with
      | nil => exact ⟨removeNext_stage anyRemoved rfl hpending, OthersKept.refl r⟩
      | cons id left =>
          dsimp only [runSection]
          split
          · refine ⟨removeNext_stage true rfl ?_, othersKept_dropAttr r _ _⟩
            refine hpending.settle (sameLinks_dropAttr r _ _) (roots_dropAttr r _ _) ?_ ?_ hlinked
            · intro _
              exact live_dropAttr_self
            · intro other hne
              exact live_dropAttr_of_ne (.inl (by simpa using hne))
          · rename_i hnone
            refine ⟨removeNext_stage anyRemoved rfl ?_, OthersKept.refl r⟩
            refine hpending.settle (sameLinks_refl r) rfl ?_ (fun _ _ => rfl) hlinked
            intro _
            simpa using hnone
  | _ => exact h.elim

variable {s u : State} {i : Nat}

/-- Thread `i` changes the default, and all others create instances. -/
structure Progress (root : Nat) (name : String) (final : Option Attr) (i : Nat) (s : State) :
    Prop where
  linked : Linked s.registry
  started : i < s.threads.length
  creating : ∀ j thread, j ≠ i → (s.threads[j]?).join = some thread → thread.pc.creating = true
  stage : Stage s.registry root name final (((s.threads[i]?).join).map Thread.pc)

theorem section_progress {j : Nat} {thread : Thread} (h : Progress root name final i s)
    (hthread : (s.threads[j]?).join = some thread) (hj : j ≠ i)
    (hname : final = none → name ∉ ["dev", "subsystem", "uevent"])
    (hapart : ∀ attr, final = some attr → LinksApart root name attr s thread.pc)
    (hwritten : final = none → NotWritten name s thread.pc) :
    Progress root name final i (sectionTurn s j thread true) := by
  have hcreating := h.creating j thread hj hthread
  obtain ⟨hdefaults, hnext⟩ := runSection_creating (r := s.registry) hcreating
  refine ⟨runSection_linked true thread.pc h.linked, ?_, ?_, ?_⟩
  · rw [sectionTurn, List.length_set]
    exact h.started
  · intro k moved hk hmoved
    rcases Threads.getElem?_set_some (Option.join_eq_some_iff.mp hmoved) with
      ⟨_, hself⟩ | ⟨_, hother⟩
    · obtain ⟨next, hpc, rfl⟩ := Option.map_eq_some_iff.mp hself.symm
      exact hnext next hpc
    · exact h.creating k moved hk (Option.join_eq_some_iff.mpr hother)
  · rw [sectionTurn, List.getElem?_set_ne hj]
    change Stage (runSection s.registry true thread.pc).1 root name final _
    by_cases hbegun : ∃ call, ((s.threads[i]?).join).map Thread.pc = some (.begin call)
    · obtain ⟨call, hcall⟩ := hbegun
      have hstage := h.stage
      rw [hcall] at hstage ⊢
      exact hstage.begin hdefaults
    · refine (runSection_creates hcreating h.linked hname ?_ ?_).stage hdefaults h.stage
      · intro id vdev hpc hroot hlength
        rcases h.stage.default_or_collecting (fun call hcall => hbegun ⟨call, hcall⟩) with
          hdefault | ⟨pc, attr, hwriter, hcollecting, hfinal⟩
        · exact hdefault hlength
        · rw [hfinal]
          have hlinks := hapart attr hfinal
          rw [hpc] at hlinks
          refine hlinks hroot ?_
          obtain ⟨writer, hget, rfl⟩ := Option.map_eq_some_iff.mp hwriter
          exact List.any_eq_true.mpr ⟨some writer,
            List.mem_iff_getElem?.mpr ⟨i, Option.join_eq_some_iff.mp hget⟩, hcollecting⟩
      · intro parent attrs hpc hfinal
        have hkept := hwritten hfinal
        rw [hpc] at hkept
        exact hkept

theorem notify_progress {j : Nat} {thread : Thread} (h : Progress root name final i s)
    (hthread : (s.threads[j]?).join = some thread) (hpc : thread.pc = .notify) :
    Progress root name final i (notify s j) := by
  refine ⟨h.linked, ?_, ?_, ?_⟩
  · rw [notify, List.length_set]
    exact h.started
  · intro k moved hk hmoved
    rcases Threads.getElem?_set_some (Option.join_eq_some_iff.mp hmoved) with
      ⟨_, hself⟩ | ⟨_, hother⟩
    · cases hself
    · exact h.creating k moved hk (Option.join_eq_some_iff.mpr hother)
  · have hstage := h.stage
    by_cases hj : j = i
    · subst hj
      rw [hthread] at hstage
      change Stage s.registry root name final (some thread.pc) at hstage
      rw [hpc] at hstage
      rw [notify, Threads.getElem?_set_moved (Option.join_eq_some_iff.mp hthread)]
      exact hstage
    · rw [notify, List.getElem?_set_ne hj]
      exact hstage

theorem writer_progress {thread : Thread} (h : Progress root name final i s)
    (hthread : (s.threads[i]?).join = some thread) (hnotify : thread.pc ≠ .notify) :
    Progress root name final i (sectionTurn s i thread true) ∧
      OthersKept name s.registry (sectionTurn s i thread true).registry := by
  have hstage := h.stage
  rw [hthread] at hstage
  obtain ⟨hafter, hothers⟩ := runSection_stage h.linked hnotify hstage
  refine ⟨⟨runSection_linked true thread.pc h.linked, ?_, ?_, ?_⟩, hothers⟩
  · rw [sectionTurn, List.length_set]
    exact h.started
  · intro k moved hk hmoved
    rw [sectionTurn, List.getElem?_set_ne (Ne.symm hk)] at hmoved
    exact h.creating k moved hk hmoved
  · rw [sectionTurn, Threads.getElem?_set_moved (Option.join_eq_some_iff.mp hthread)]
    change Stage _ root name final (Option.map Thread.pc (Option.map _ _))
    rw [Option.map_map]
    change Stage _ root name final (Option.map id _)
    rw [Option.map_id]
    exact hafter

theorem turn_progress {j : Nat} (h : Progress root name final i s)
    (hname : final = none → name ∉ ["dev", "subsystem", "uevent"])
    (hapart : ∀ attr, final = some attr → AtTurns (LinksApart root name attr) s (.turn j true))
    (hwritten : final = none → AtTurns (NotWritten name) s (.turn j true))
    (hstep : step s (.turn j true) = some u) :
    Progress root name final i u ∧ (j = i → OthersKept name s.registry u.registry) := by
  obtain ⟨thread, hthread, rfl⟩ := Option.map_eq_some_iff.mp hstep
  split
  · rename_i hpc
    exact ⟨notify_progress h hthread hpc, fun _ => OthersKept.refl s.registry⟩
  · rename_i hnotify
    by_cases hj : j = i
    · subst hj
      obtain ⟨hprogress, hothers⟩ := writer_progress h hthread hnotify
      exact ⟨hprogress, fun _ => hothers⟩
    · refine ⟨section_progress h hthread hj hname ?_ ?_, fun hsame => absurd hsame hj⟩
      · intro attr hfinal
        exact hapart attr hfinal thread hthread
      · intro hfinal
        exact hwritten hfinal thread hthread

theorem Progress.same (h : Progress root name final i s) (hregistry : u.registry = s.registry)
    (hthreads : u.threads = s.threads) : Progress root name final i u := by
  refine ⟨?_, ?_, ?_, ?_⟩
  · rw [hregistry]
    exact h.linked
  · rw [hthreads]
    exact h.started
  · rw [hthreads]
    exact h.creating
  · rw [hregistry, hthreads]
    exact h.stage

theorem step_progress {a : Action} (h : Progress root name final i s) (hcreates : CreatesOnly a)
    (hname : final = none → name ∉ ["dev", "subsystem", "uevent"])
    (hapart : ∀ attr, final = some attr → AtTurns (LinksApart root name attr) s a)
    (hwritten : final = none → AtTurns (NotWritten name) s a) (hstep : step s a = some u) :
    Progress root name final i u ∧ ChangesOnly i name s a := by
  unfold CreatesOnly at hcreates
  split at hcreates
  · refine ⟨?_, fun ok hturn => by cases hturn⟩
    cases hstep
    refine ⟨h.linked, ?_, ?_, ?_⟩
    · rw [List.length_append]
      exact Nat.lt_add_right _ h.started
    · intro j thread hj hthread
      rcases Threads.getElem?_push_some (Option.join_eq_some_iff.mp hthread) with
        ⟨_, hnew⟩ | hold
      · cases hnew
        rfl
      · exact h.creating j thread hj (Option.join_eq_some_iff.mpr hold)
    · rw [List.getElem?_append_left h.started]
      exact h.stage
  · obtain ⟨hprogress, hothers⟩ := turn_progress h hname hapart hwritten hstep
    refine ⟨hprogress, fun ok hturn t ht => ?_⟩
    cases hturn
    cases hstep.symm.trans ht
    exact hothers rfl
  · obtain ⟨hregistry, hthreads⟩ := lookup_same hstep
    exact ⟨h.same hregistry hthreads, fun ok hturn => by cases hturn⟩
  · obtain ⟨hregistry, hthreads⟩ := build_same hstep
    exact ⟨h.same hregistry hthreads, fun ok hturn => by cases hturn⟩
  · exact hcreates.elim

structure Creating (s : State) : Prop where
  linked : Linked s.registry
  threads : ∀ thread, some thread ∈ s.threads → thread.pc.creating = true

theorem addRoot_linked (object : Root) (h : Linked r) (hinstances : object.instances = []) :
    Linked { r with roots := r.roots ++ [object] } := by
  intro k ids hids id hid
  rw [Registry.members, List.map_append] at hids
  rcases Threads.getElem?_push_some hids with ⟨_, hnew⟩ | hold
  · rw [hnew, hinstances] at hid
    cases hid
  · exact h k ids hold id hid

theorem step_linked {a : Action} (h : Linked s.registry) (hstep : step s a = some u) :
    Linked u.registry := by
  cases a with
  | addRoot className kobjectName vdevGlob instanceGlob =>
      cases hstep
      exact addRoot_linked _ h rfl
  | start call =>
      cases hstep
      exact h
  | turn i ok =>
      obtain ⟨thread, _, rfl⟩ := Option.map_eq_some_iff.mp hstep
      split
      · exact h
      · exact runSection_linked ok thread.pc h
  | lookup =>
      rw [(lookup_same hstep).1]
      exact h
  | build i =>
      rw [(build_same hstep).1]
      exact h

theorem step_creating {a : Action} (h : Creating s) (hcreates : CreatesOnly a)
    (hstep : step s a = some u) : Creating u := by
  refine ⟨step_linked h.linked hstep, ?_⟩
  unfold CreatesOnly at hcreates
  split at hcreates
  · cases hstep
    intro thread hmem
    rcases List.mem_append.mp hmem with hold | hnew
    · exact h.threads thread hold
    · cases List.mem_singleton.mp hnew
      rfl
  · obtain ⟨thread, hthread, rfl⟩ := Option.map_eq_some_iff.mp hstep
    have hcreating := h.threads thread
      (List.mem_iff_getElem?.mpr ⟨_, Option.join_eq_some_iff.mp hthread⟩)
    intro moved hmem
    split at hmem
    · rcases List.mem_or_eq_of_mem_set hmem with hold | hnew
      · exact h.threads moved hold
      · cases hnew
    · rcases List.mem_or_eq_of_mem_set hmem with hold | hnew
      · exact h.threads moved hold
      · obtain ⟨next, hnext, rfl⟩ := Option.map_eq_some_iff.mp hnew.symm
        exact (runSection_creating hcreating).2 next hnext
  · rw [(lookup_same hstep).2]
    exact h.threads
  · rw [(build_same hstep).2]
    exact h.threads
  · exact hcreates.elim

/-- The states in which a default may be changed: reached by any calls that have returned, and
then by calls that create instances. -/
theorem creating_of_run {history before : List Action} {s₀ s₁ : State}
    (hhistory : run step init history = some s₀) (hidle : s₀.idle = true)
    (hbefore : run step s₀ before = some s₁) (hcreates : ∀ a ∈ before, CreatesOnly a) :
    Creating s₁ := by
  have hstep : ∀ (s : State) (a : Action) (t : State), Linked s.registry →
      step s a = some t → Linked t.registry := fun s a t h hstep => step_linked h hstep
  have hinit : Linked init.registry := by
    intro k ids hids
    cases hids
  have hlinked : Linked s₀.registry := run_invariant hstep hinit hhistory
  refine run_invariant_of_meets (fun s a t h hok hstep => step_creating h hok hstep) ?_
    (meets_of_forall hcreates s₀) hbefore
  refine ⟨hlinked, fun thread hmem => ?_⟩
  have hnone := List.all_eq_true.mp hidle _ hmem
  cases hnone

theorem start_progress {call : Call} (h : Creating s)
    (hstage : Stage s.registry root name final (some (.begin call)))
    (hstep : step s (.start call) = some u) :
    Progress root name final s.threads.length u := by
  cases hstep
  refine ⟨h.linked, ?_, ?_, ?_⟩
  · simp
  · intro j thread hj hthread
    rcases Threads.getElem?_push_some (Option.join_eq_some_iff.mp hthread) with
      ⟨hnew, _⟩ | hold
    · exact absurd hnew hj
    · exact h.threads thread (List.mem_iff_getElem?.mpr ⟨j, hold⟩)
  · simpa using hstage

theorem Progress.settled (h : Progress root name final i s) (hidle : s.idle = true)
    {object : Root} (hobject : s.registry.roots[root]? = some object) :
    ∀ id ∈ object.instances, s.registry.live (.vsysfs id) name = final := by
  have hdone : ((s.threads[i]?).join).map Thread.pc = none := by
    cases hthread : (s.threads[i]?).join with
    | none => rfl
    | some thread =>
        have hbusy := not_idle_of_thread hthread
        rw [hidle] at hbusy
        cases hbusy
  have hpending := h.stage
  rw [hdone] at hpending
  intro id hid
  have hmembers : s.registry.members[root]? = some object.instances := by
    rw [Registry.members, List.getElem?_map, hobject]
    rfl
  rcases hpending.collected _ hmembers id hid with hnone | hlive
  · cases hnone
  · exact hlive

theorem change_settled {call : Call} {after : List Action} (h : Creating s)
    (hstage : Stage s.registry root name final (some (.begin call)))
    (hcreates : ∀ a ∈ after, CreatesOnly a)
    (hname : final = none → name ∉ ["dev", "subsystem", "uevent"])
    (hapart : ∀ attr, final = some attr →
      Meets step (AtTurns (LinksApart root name attr)) s (.start call :: after))
    (hwritten : final = none → Meets step (AtTurns (NotWritten name)) s (.start call :: after))
    (hrun : run step s (.start call :: after) = some u) (hidle : u.idle = true) :
    (∀ object ∈ u.registry.roots[root]?, ∀ id ∈ object.instances,
        u.registry.live (.vsysfs id) name = final) ∧
      Meets step (ChangesOnly s.threads.length name) s (.start call :: after) := by
  obtain ⟨started, hstart, hrest⟩ := run_cons_some hrun
  have hmeets : Meets step (fun s a => CreatesOnly a ∧
      ((∀ attr, final = some attr → AtTurns (LinksApart root name attr) s a) ∧
        (final = none → AtTurns (NotWritten name) s a))) started after := by
    refine (meets_of_forall hcreates started).and ?_
    cases final with
    | none =>
        refine ((hwritten rfl).2 started hstart).mono fun s a hkept => ?_
        exact ⟨fun attr hfinal => (by cases hfinal), fun _ => hkept⟩
    | some attr =>
        refine ((hapart attr rfl).2 started hstart).mono fun s a hlinks => ?_
        refine ⟨fun other hfinal => ?_, fun hfinal => (by cases hfinal)⟩
        cases hfinal
        exact hlinks
  obtain ⟨hprogress, hchanges⟩ := run_invariant_and_meets
    (fun s a t hinv hok hstep => step_progress hinv hok.1 hname hok.2.1 hok.2.2 hstep)
    (start_progress h hstage hstart) hmeets hrest
  refine ⟨fun object hobject => hprogress.settled hidle hobject, ?_, fun t ht => ?_⟩
  · intro ok hturn
    cases hturn
  · cases hstart.symm.trans ht
    exact hchanges

/-- A default that is written reaches every instance if none is linked while the writer has
the instances and not yet set the default, or else finds it there; one that is removed is
gone from every instance. -/
theorem defaults_reach_instances {history before after : List Action} {s₀ s₁ : State}
    (hhistory : run step init history = some s₀) (hidle : s₀.idle = true)
    (hbefore : run step s₀ before = some s₁) (hcreates : ∀ a ∈ before ++ after, CreatesOnly a)
    (root : Nat) (name : String) :
    (∀ attr s, run step s₁ (.start (.rootWriteDefaultAttr root name attr) :: after) = some s →
      s.idle = true →
      Meets step (AtTurns (LinksApart root name attr)) s₁
        (.start (.rootWriteDefaultAttr root name attr) :: after) →
      (∀ object ∈ s.registry.roots[root]?, ∀ id ∈ object.instances,
        s.registry.live (.vsysfs id) name = some attr) ∧
      Meets step (ChangesOnly s₁.threads.length name) s₁
        (.start (.rootWriteDefaultAttr root name attr) :: after)) ∧
    (∀ s, name ∉ ["dev", "subsystem", "uevent"] → (s₁.registry.default root name).isSome = true →
      run step s₁ (.start (.rootRemoveDefaultAttr root name) :: after) = some s →
      s.idle = true →
      Meets step (AtTurns (NotWritten name)) s₁
        (.start (.rootRemoveDefaultAttr root name) :: after) →
      (∀ object ∈ s.registry.roots[root]?, ∀ id ∈ object.instances,
        s.registry.live (.vsysfs id) name = none) ∧
      Meets step (ChangesOnly s₁.threads.length name) s₁
        (.start (.rootRemoveDefaultAttr root name) :: after)) := by
  have hcreating := creating_of_run hhistory hidle hbefore fun a ha =>
    hcreates a (List.mem_append_left _ ha)
  have hafter : ∀ a ∈ after, CreatesOnly a := fun a ha => hcreates a (List.mem_append_right _ ha)
  constructor
  · intro attr s hrun hreturned hapart
    refine change_settled hcreating ⟨rfl, rfl, rfl⟩ hafter (fun hfinal => by cases hfinal) ?_
      (fun hfinal => by cases hfinal) hrun hreturned
    intro other hfinal
    cases hfinal
    exact hapart
  · intro s hname hdefault hrun hreturned hwritten
    exact change_settled hcreating ⟨rfl, rfl, rfl, hdefault⟩ hafter (fun _ => hname)
      (fun attr hfinal => by cases hfinal) (fun _ => hwritten) hrun hreturned

instance : DecidablePred CreatesOnly
  | .start (.vsysfsCreate _ _ _) | .turn _ true | .lookup | .build _ => .isTrue trivial
  | .addRoot _ _ _ _ | .turn _ false | .start (.vdevCreate _ _ _) | .start (.vdevDestroy _)
  | .start (.vsysfsDestroy _) | .start (.writeAttr _ _ _ _) | .start (.removeAttr _ _)
  | .start (.rootWriteDefaultAttr _ _ _) | .start (.rootRemoveDefaultAttr _ _)
  | .start (.vmoduleCreate _) | .start (.vmoduleDestroy _) | .start (.registerDriver _ _ _) =>
      .isFalse not_false

instance (root : Nat) (name : String) (attr : Attr) (s : State) :
    DecidablePred (LinksApart root name attr s)
  | .linkVsysfs id _ => inferInstanceAs (Decidable
      ((s.registry.vsysfs[id]?).map Vsysfs.root = some root → s.collecting root = true →
        s.registry.default root name = some attr))
  | .begin _ | .notify | .linkVdev _ | .dropVdev _ | .eraseVdev _ | .dropVsysfs _
  | .attachDevice _ | .ensureParent _ | .upsertParent _ _ | .eraseVsysfs _ | .capture _ _ _
  | .setRoot _ _ | .apply _ _ _ | .rollback _ _ | .removeFrom _ _ _ => .isTrue trivial

instance (name : String) (s : State) : DecidablePred (NotWritten name s)
  | .upsertParent parent attrs => inferInstanceAs (Decidable
      (name ∈ Table.keys attrs → (s.registry.live (.vsysfs parent) name).isSome = true))
  | .begin _ | .notify | .linkVdev _ | .dropVdev _ | .eraseVdev _ | .dropVsysfs _
  | .attachDevice _ | .ensureParent _ | .linkVsysfs _ _ | .eraseVsysfs _ | .capture _ _ _
  | .setRoot _ _ | .apply _ _ _ | .rollback _ _ | .removeFrom _ _ _ => .isTrue trivial

instance (p : State → Pc → Prop) [∀ s, DecidablePred (p s)] (s : State) :
    DecidablePred (AtTurns p s)
  | .turn i _ => inferInstanceAs (Decidable (∀ thread ∈ (s.threads[i]?).join, p s thread.pc))
  | .addRoot _ _ _ _ | .start _ | .lookup | .build _ => .isTrue trivial

/-- Device 0 has an instance with the default `mode`, and device 1 has none. -/
def twoDevices : List Action :=
  oneInstance ++ [.turn 2 true, .turn 2 true, .turn 2 true, .turn 2 true, .turn 2 true,
    .start (.vdevCreate "rank1" 240 1), .turn 3 true, .turn 3 true, .turn 3 true]

def ready : State := (run step init twoDevices).getD init

def registering : List Action := [.start (.vsysfsCreate 0 1 "rank1"), .turn 4 true]

def registered : State := (run step ready registering).getD init

/-- The instance of device 1 is linked when the default is set, or removed; the other instance
is changed after that. -/
def writtenThenLinked : List Action :=
  [.turn 5 true, .turn 5 true, .turn 5 true, .turn 4 true, .turn 5 true, .turn 4 true,
    .turn 4 true]

def removedThenLinked : List Action :=
  [.turn 5 true, .turn 4 true, .turn 4 true, .turn 5 true, .turn 4 true, .turn 5 true]

theorem defaults_reach_instances_linked_after :
    (∃ s, run step registered
        (.start (.rootWriteDefaultAttr 0 "mode" ⟨[50], .rw⟩) :: writtenThenLinked) = some s ∧
      s.registry.members[0]? = some [0, 1] ∧ ∀ object ∈ s.registry.roots[0]?,
        ∀ id ∈ object.instances, s.registry.live (.vsysfs id) "mode" = some ⟨[50], .rw⟩) ∧
    ∃ s, run step registered (.start (.rootRemoveDefaultAttr 0 "mode") :: removedThenLinked) =
        some s ∧
      s.registry.members[0]? = some [0, 1] ∧ ∀ object ∈ s.registry.roots[0]?,
        ∀ id ∈ object.instances, s.registry.live (.vsysfs id) "mode" = none := by
  have hready : run step init twoDevices = some ready := by decide +kernel
  have hbefore : run step ready registering = some registered := by decide +kernel
  constructor
  · have hends : ∃ s, run step registered
        (.start (.rootWriteDefaultAttr 0 "mode" ⟨[50], .rw⟩) :: writtenThenLinked) = some s ∧
        s.registry.members[0]? = some [0, 1] ∧ s.idle = true := exists_run (by decide +kernel)
    obtain ⟨s, hrun, hmembers, hidle⟩ := hends
    exact ⟨s, hrun, hmembers,
      ((defaults_reach_instances hready (by decide +kernel) hbefore (by decide +kernel) 0
        "mode").1 _ s hrun hidle (by decide +kernel)).1⟩
  · have hends : ∃ s, run step registered
        (.start (.rootRemoveDefaultAttr 0 "mode") :: removedThenLinked) = some s ∧
        s.registry.members[0]? = some [0, 1] ∧ s.idle = true := exists_run (by decide +kernel)
    obtain ⟨s, hrun, hmembers, hidle⟩ := hends
    exact ⟨s, hrun, hmembers,
      ((defaults_reach_instances hready (by decide +kernel) hbefore (by decide +kernel) 0
        "mode").2 s (by decide +kernel) (by decide +kernel) hrun hidle (by decide +kernel)).1⟩

/-- The writer has collected instance 0 when instance 1 is linked with the old default. -/
def linkedThenWritten : List Action :=
  [.turn 5 true, .turn 5 true, .turn 4 true, .turn 5 true, .turn 5 true, .turn 4 true,
    .turn 4 true]

theorem linked_instance_missed : ¬∀ history before after s₀ s₁ s root name attr,
    run step init history = some s₀ → s₀.idle = true → run step s₀ before = some s₁ →
      (∀ a ∈ before ++ after, CreatesOnly a) →
      run step s₁ (.start (.rootWriteDefaultAttr root name attr) :: after) = some s →
      s.idle = true → ∀ object ∈ s.registry.roots[root]?, ∀ id ∈ object.instances,
        s.registry.live (.vsysfs id) name = some attr := by
  intro h
  have hends : ∃ s, run step registered
      (.start (.rootWriteDefaultAttr 0 "mode" ⟨[50], .rw⟩) :: linkedThenWritten) = some s ∧
      s.idle = true ∧ ¬∀ object ∈ s.registry.roots[0]?, ∀ id ∈ object.instances,
        s.registry.live (.vsysfs id) "mode" = some ⟨[50], .rw⟩ := exists_run (by decide +kernel)
  obtain ⟨s, hrun, hidle, hmissed⟩ := hends
  exact hmissed (h twoDevices registering linkedThenWritten ready registered s 0 "mode"
    ⟨[50], .rw⟩ (by decide +kernel) (by decide +kernel) (by decide +kernel) (by decide +kernel)
    hrun hidle)

end HostPimSim.Vfile.Namespace
