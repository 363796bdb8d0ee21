import HostPimSim.Vfile.Registry
import HostPimSim.Lib.Threads

/-! The sections of `Registry` seen through the attributes of one object and through the links
between roots and instances. -/
namespace HostPimSim.Vfile.Namespace
open Attribute

variable {r t : Registry} {owner other : Owner} {name key : String} {attr : Attr}
  {attrs rows : List (String × Attr)} {root id : Nat}

theorem attrs_setAttrs :
    (r.setAttrs owner attrs).attrs other =
      if other = owner then (r.attrs owner).map fun _ => attrs else r.attrs other := by
  cases owner with
  | vsysfs id =>
      cases other with
      | vsysfs id' =>
          simp only [Registry.attrs, Registry.setAttrs, List.getElem?_modify, Owner.vsysfs.injEq]
          by_cases h : id' = id
          · subst h
            cases r.vsysfs[id']? <;> simp
          · simp [h, Ne.symm h]
      | vmodule id' => simp [Registry.attrs, Registry.setAttrs]
  | vmodule id =>
      cases other with
      | vsysfs id' => simp [Registry.attrs, Registry.setAttrs]
      | vmodule id' =>
          simp only [Registry.attrs, Registry.setAttrs, List.getElem?_modify,
            Owner.vmodule.injEq]
          by_cases h : id' = id
          · subst h
            cases r.vmodules[id']? <;> simp
          · simp [h, Ne.symm h]

theorem live_setAttrs_self (h : r.attrs owner = some rows) :
    (r.setAttrs owner attrs).live owner name = Table.find attrs name := by
  simp [Registry.live, attrs_setAttrs, h]

theorem live_setAttrs_of_ne (h : other ≠ owner) :
    (r.setAttrs owner attrs).live other name = r.live other name := by
  simp [Registry.live, attrs_setAttrs, h]

theorem live_putAttr_self (h : (r.attrs owner).isSome = true) :
    (putAttr r owner name attr).live owner name = some attr := by
  obtain ⟨rows, hrows⟩ := Option.isSome_iff_exists.mp h
  simp only [putAttr, hrows]
  rw [live_setAttrs_self hrows, Table.find_put_self]

theorem live_putAttr_of_ne (h : other ≠ owner ∨ key ≠ name) :
    (putAttr r owner name attr).live other key = r.live other key := by
  unfold putAttr
  cases hrows : r.attrs owner with
  | none => rfl
  | some rows =>
      by_cases howner : other = owner
      · subst howner
        rw [live_setAttrs_self hrows, Table.find_put_of_ne (h.resolve_left (fun hne => hne rfl)),
          Registry.live, hrows]
        rfl
      · exact live_setAttrs_of_ne howner

theorem live_dropAttr_self : (dropAttr r owner name).live owner name = none := by
  unfold dropAttr
  cases hrows : r.attrs owner with
  | none =>
      change r.live owner name = none
      rw [Registry.live, hrows]
      rfl
  | some rows =>
      change (r.setAttrs owner _).live owner name = none
      rw [live_setAttrs_self hrows, Table.find_remove_self]

theorem live_dropAttr_of_ne (h : other ≠ owner ∨ key ≠ name) :
    (dropAttr r owner name).live other key = r.live other key := by
  unfold dropAttr
  cases hrows : r.attrs owner with
  | none => rfl
  | some rows =>
      by_cases howner : other = owner
      · subst howner
        change (r.setAttrs other _).live other key = _
        rw [live_setAttrs_self hrows,
          Table.find_remove_of_ne (h.resolve_left (fun hne => hne rfl)), Registry.live, hrows]
        rfl
      · exact live_setAttrs_of_ne howner

theorem find_ensured (rows added : List (String × Attr)) (key : String) :
    (∀ attr, Table.find rows key = some attr →
        Table.find (added.foldl ensureAttr rows) key = some attr) ∧
      (Table.find rows key = none → key ∉ Table.keys added →
        Table.find (added.foldl ensureAttr rows) key = none) := by
  induction added generalizing rows with
  | nil => exact ⟨fun attr h => h, fun h _ => h⟩
  | cons row added ih =>
      have hensure : Table.find (ensureAttr rows row) key =
          if key = row.1 ∧ Table.find rows key = none then some row.2
          else Table.find rows key := by
        unfold ensureAttr
        by_cases hkey : key = row.1
        · subst hkey
          cases hfind : Table.find rows row.1 <;> simp [hfind]
        · split
          · simp [hkey]
          · rw [Table.find_put_of_ne hkey]
            simp [hkey]
      constructor
      · intro attr h
        refine (ih (ensureAttr rows row)).1 attr ?_
        rw [hensure, h]
        simp
      · intro h hkey
        rw [Table.keys, List.map_cons, List.mem_cons, not_or] at hkey
        refine (ih (ensureAttr rows row)).2 ?_ hkey.2
        rw [hensure, if_neg (fun hboth => hkey.1 hboth.1), h]

def Registry.owners (r : Registry) : List Nat := r.vsysfs.map Vsysfs.root

def Registry.members (r : Registry) : List (List Nat) := r.roots.map Root.instances

def Linked (r : Registry) : Prop :=
  ∀ (k : Nat) (ids : List Nat), r.members[k]? = some ids → ∀ id ∈ ids, r.owners[id]? = some k

def SameLinks (r t : Registry) : Prop := t.owners = r.owners ∧ t.members = r.members

theorem sameLinks_refl (r : Registry) : SameLinks r r := ⟨rfl, rfl⟩

theorem SameLinks.linked (h : SameLinks r t) (hlinked : Linked r) : Linked t := by
  unfold Linked
  rw [h.1, h.2]
  exact hlinked

theorem sameLinks_setAttrs (r : Registry) (owner : Owner) (attrs : List (String × Attr)) :
    SameLinks r (r.setAttrs owner attrs) := by
  cases owner with
  | vsysfs id => exact ⟨Threads.map_modify_of_eq _ _ _ _ fun _ _ => rfl, rfl⟩
  | vmodule id => exact ⟨rfl, rfl⟩

theorem sameLinks_putAttr (r : Registry) (owner : Owner) (name : String) (attr : Attr) :
    SameLinks r (putAttr r owner name attr) := by
  unfold putAttr
  split
  · exact sameLinks_refl r
  · exact sameLinks_setAttrs r owner _

theorem sameLinks_dropAttr (r : Registry) (owner : Owner) (name : String) :
    SameLinks r (dropAttr r owner name) := by
  unfold dropAttr
  split
  · exact sameLinks_refl r
  · exact sameLinks_setAttrs r owner _

theorem sameLinks_modifyRoot {f : Root → Root} (hf : ∀ root, (f root).instances = root.instances) :
    SameLinks r (r.modifyRoot root f) :=
  ⟨rfl, Threads.map_modify_of_eq _ _ _ _ fun root _ => hf root⟩

theorem sameLinks_restore (r : Registry) (name : String) (state : Nat × Option Attr) :
    SameLinks r (restore r name state) := by
  unfold restore
  split
  · exact sameLinks_putAttr r _ name _
  · exact sameLinks_dropAttr r _ name

theorem sameLinks_restoreRoot (r : Registry) (w : DefaultWrite) :
    SameLinks r (restoreRoot r w) := by
  apply sameLinks_modifyRoot
  intro root
  split <;> rfl

theorem Linked.push (h : Linked r) (hmembers : t.members = r.members)
    (howners : ∃ k, t.owners = r.owners ++ [k]) : Linked t := by
  intro k ids hids id hid
  rw [hmembers] at hids
  obtain ⟨k', hpush⟩ := howners
  have hold := h k ids hids id hid
  rw [hpush, List.getElem?_append_left (List.getElem?_eq_some_iff.mp hold).1]
  exact hold

theorem Linked.modifyRoot {f : Root → Root} (h : Linked r)
    (hf : ∀ k, r.roots[root]? = some k → ∀ id ∈ (f k).instances,
      id ∈ k.instances ∨ r.owners[id]? = some root) :
    Linked (r.modifyRoot root f) := by
  intro k ids hids id hid
  rw [Registry.members, List.getElem?_map] at hids
  obtain ⟨object, hobject, rfl⟩ := Option.map_eq_some_iff.mp hids
  change (r.roots.modify root f)[k]? = some object at hobject
  rw [List.getElem?_modify] at hobject
  obtain ⟨old, hold, hchange⟩ := Option.map_eq_some_iff.mp hobject
  have hlinked : ∀ id ∈ old.instances, r.owners[id]? = some k := by
    refine h k old.instances ?_
    rw [Registry.members, List.getElem?_map, hold]
    rfl
  split at hchange
  · rename_i hroot
    subst hroot hchange
    rcases hf old hold id hid with hmem | hnew
    · exact hlinked id hmem
    · exact hnew
  · cases hchange
    exact hlinked id hid

theorem linkVsysfs_linked (vdev : Nat) (h : Linked r) : Linked (linkVsysfs r id vdev) := by
  unfold linkVsysfs
  split
  · rename_i v vdevObject hv hvdev
    split
    · rename_i root hroot
      have hsame := sameLinks_setAttrs r (.vsysfs id)
        ((derivedAttrs root vdevObject v.devicesDir).foldl ensureAttr root.defaultAttrs)
      refine (hsame.linked h).modifyRoot fun object _ other hother => ?_
      rcases List.mem_append.mp hother with hold | hnew
      · exact .inl hold
      · right
        rw [List.mem_singleton.mp hnew, hsame.1, Registry.owners, List.getElem?_map, hv]
        rfl
    · exact h
  · exact h

theorem beginCall_linked (ok : Bool) (call : Call) (h : Linked r) :
    Linked (beginCall r ok call).1 := by
  cases call with
  | vdevCreate name major minor =>
      dsimp only [beginCall]
      split <;> exact h
  | vdevDestroy id => exact h
  | vsysfsCreate root vdev instanceName =>
      dsimp only [beginCall, registerVsysfs]
      split
      · split
        · exact h
        · exact h.push rfl ⟨root, List.map_append⟩
      · exact h
  | vsysfsDestroy id =>
      dsimp only [beginCall]
      split
      · exact h
      · exact h.modifyRoot fun object _ other hother => .inl (List.mem_filter.mp hother).1
  | writeAttr owner name attr outcome =>
      cases outcome with
      | stored => exact (sameLinks_putAttr r owner name attr).linked h
      | undone => exact h
      | valueOnly => exact (sameLinks_putAttr r owner name _).linked h
  | removeAttr owner name =>
      dsimp only [beginCall]
      split
      · exact (sameLinks_dropAttr r owner name).linked h
      · exact h
  | rootWriteDefaultAttr root name attr =>
      dsimp only [beginCall]
      split
      · exact h
      · split <;> exact h
  | rootRemoveDefaultAttr root name =>
      dsimp only [beginCall]
      split
      · exact h
      · split
        · refine SameLinks.linked (sameLinks_modifyRoot fun _ => ?_) h
          rfl
        · exact h
  | vmoduleCreate name =>
      dsimp only [beginCall]
      split <;> exact h
  | vmoduleDestroy id => exact h
  | registerDriver id bus driver =>
      dsimp only [beginCall]
      split
      · exact h
      · split <;> exact h

theorem ensureParent_linked (id : Nat) (h : Linked r) : Linked (ensureParent r id).1 := by
  unfold ensureParent
  split
  · exact h
  · split
    · exact h
    · dsimp only
      split
      · exact h
      · exact h.push rfl ⟨_, List.map_append⟩

theorem runSection_linked (ok : Bool) (pc : Pc) (h : Linked r) :
    Linked (runSection r ok pc).1 := by
  cases pc with
  | begin call => exact beginCall_linked ok call h
  | notify => exact h
  | linkVdev id => exact h
  | dropVdev id => exact h
  | eraseVdev id => exact h
  | linkVsysfs id vdev =>
      dsimp only [runSection]
      split
      · exact linkVsysfs_linked vdev h
      · exact h
  | dropVsysfs id => exact h
  | attachDevice id =>
      dsimp only [runSection]
      split <;> exact h
  | ensureParent id =>
      dsimp only [runSection]
      split
      · exact ensureParent_linked id h
      · exact h
  | upsertParent parent attrs =>
      dsimp only [runSection]
      split
      · exact h
      · exact (sameLinks_setAttrs r _ _).linked h
  | eraseVsysfs id => exact h
  | capture w prev left =>
      dsimp only [runSection]
      split
      · exact h
      · split <;> exact h
  | setRoot w prev =>
      dsimp only [runSection]
      split
      · refine SameLinks.linked (sameLinks_modifyRoot fun _ => ?_) h
        rfl
      · exact (sameLinks_restoreRoot r w).linked h
  | apply w done left =>
      cases left with
      | nil => exact h
      | cons state left =>
          dsimp only [runSection]
          split
          · exact (sameLinks_putAttr r _ _ _).linked h
          · exact h
  | rollback w left =>
      dsimp only [runSection]
      split
      · exact (sameLinks_restore r w.name _).linked h
      · exact h
  | removeFrom name left anyRemoved =>
      cases left with
      | nil => exact h
      | cons id left =>
          dsimp only [runSection]
          split
          · exact (sameLinks_dropAttr r _ name).linked h
          · exact h

end HostPimSim.Vfile.Namespace
