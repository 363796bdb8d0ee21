import HostPimSim.Lib.Fallible
import HostPimSim.Core.Pool
import HostPimSim.Vfile.Attribute

/-! One call of `pim_vsysfs_root_write_default_attr` in which one allocation fails: what is
captured, what is applied and undone, and the mutexes held on the way. -/
namespace HostPimSim.Vfile.RootWrite
open Attribute Core.Pool Fallible

inductive Owner where
  | root
  | vsysfs (i : Nat)
  deriving DecidableEq

/-- The allocations of `attrs[name] = value; attr_access[name] = access`. -/
inductive Part where
  | key
  | node
  | value
  | accessKey
  | accessNode
  deriving DecidableEq

/-- Where the call allocates.  Both vectors are reserved, so that `push_back` does not. -/
inductive Site where
  | find (owner : Owner)
  | oldValue (owner : Owner)
  | accessFind (owner : Owner)
  | collect
  | reservePrev
  | assign (owner : Owner) (part : Part)
  deriving DecidableEq

structure Attrs where
  attrs : String → Option String
  attrAccess : String → Option AccessMode

structure Store where
  maps : Owner → Attrs
  instances : Nat

structure Memory extends Store where
  held : List Owner
  failed : Bool

inductive Exit where
  | badAlloc
  | terminated
  | deadlocked
  | returned (err : PimError)
  deriving DecidableEq

abbrev Prog (α : Type) := EStateM Exit Memory α

/-- The arguments of the call, whether the string that is stored already has room for the value,
and the allocation that fails in the call. -/
structure Write where
  name : String
  value : String
  access : AccessMode
  roomy : Owner → Bool
  fails : Option Site

/-- What a `std::string` holds without an allocation. -/
def kInlineCapacity : Nat := 15

def isLong (text : String) : Bool := kInlineCapacity < text.utf8ByteSize

def Write.growsValue (w : Write) (owner : Owner) (old : Option String) : Bool :=
  isLong w.value && !(old.isSome && w.roomy owner)

def allocate (w : Write) (site : Site) (needed : Bool) : Prog Unit := fun m =>
  if needed = true ∧ w.fails = some site then .error .badAlloc { m with failed := true }
  else .ok () m

/-- A block under a `std::lock_guard`; a thread that waits for itself releases nothing. -/
def lockGuard {α : Type} (owner : Owner) (body : Prog α) : Prog α := fun m =>
  if m.held.contains owner then .error .deadlocked m
  else match body { m with held := owner :: m.held } with
    | .ok a n => .ok a { n with held := n.held.erase owner }
    | .error .deadlocked n => .error .deadlocked n
    | .error e n => .error e { n with held := n.held.erase owner }

def vsysfsTryOrPimNoMemory (body : Prog Unit) : Prog PimError := fun m =>
  match body m with
  | .ok () n => .ok .success n
  | .error .badAlloc n => .ok .noMemory n
  | .error e n => .error e n

def allocateOrReturn (w : Write) (site : Site) (needed : Bool) : Prog Unit := do
  let ret ← vsysfsTryOrPimNoMemory (allocate w site needed)
  if ret = .success then pure () else throw (.returned ret)

def Attrs.put (maps : Attrs) (name value : String) : Attrs :=
  { maps with attrs := Function.update maps.attrs name (some value) }

def Attrs.putAccess (maps : Attrs) (name : String) (access : AccessMode) : Attrs :=
  { maps with attrAccess := Function.update maps.attrAccess name (some access) }

def Attrs.erase (maps : Attrs) (name : String) : Attrs :=
  ⟨Function.update maps.attrs name none, Function.update maps.attrAccess name none⟩

def Memory.change (m : Memory) (owner : Owner) (f : Attrs → Attrs) : Memory :=
  { m with maps := Function.update m.maps owner (f (m.maps owner)) }

/-- `had_attr`, `old_value` and `old_access` -/
abbrev Prev := Option (String × AccessMode)

def capture (w : Write) (owner : Owner) : Prog Prev := do
  -- The key of a `find` is made outside of every `try`.
  allocate w (.find owner) (isLong w.name)
  match ((← get).maps owner).attrs w.name with
  | none => pure none
  | some old =>
      allocateOrReturn w (.oldValue owner) (isLong old)
      allocate w (.accessFind owner) (isLong w.name)
      pure (some (old, (((← get).maps owner).attrAccess w.name).getD .rw))

def assign (w : Write) (owner : Owner) : Prog Unit := do
  allocate w (.assign owner .key) (isLong w.name)
  let old := ((← get).maps owner).attrs w.name
  allocate w (.assign owner .node) old.isNone
  modify (·.change owner (·.put w.name (old.getD "")))
  allocate w (.assign owner .value) (w.growsValue owner old)
  modify (·.change owner (·.put w.name w.value))
  allocate w (.assign owner .accessKey) (isLong w.name)
  allocate w (.assign owner .accessNode) (((← get).maps owner).attrAccess w.name).isNone
  modify (·.change owner (·.putAccess w.name w.access))

def Attrs.restore (maps : Attrs) (name : String) : Prev → Attrs
  | some (old, access) => (maps.put name old).putAccess name access
  | none => maps.erase name

def restore (w : Write) (owner : Owner) (prev : Prev) : Prog Unit :=
  modify (·.change owner (·.restore w.name prev))

def captureInstances (w : Write) : List Nat → Prog (List (Nat × Prev))
  | [] => pure []
  | i :: rest => do
      let prev ← lockGuard (.vsysfs i) (capture w (.vsysfs i))
      let prevs ← captureInstances w rest
      pure ((i, prev) :: prevs)

def rollbackRoot (w : Write) (prev : Prev) : Prog Unit :=
  lockGuard .root (restore w .root prev)

def rollbackInstances (w : Write) : List (Nat × Prev) → Prog Unit
  | [] => pure ()
  | state :: rest => do
      lockGuard (.vsysfs state.1) (restore w (.vsysfs state.1) state.2)
      rollbackInstances w rest

def setRoot (w : Write) (prev : Prev) : Prog Unit :=
  lockGuard .root do
    let setRet ← vsysfsTryOrPimNoMemory (assign w .root)
    if setRet = .success then pure ()
    else
      restore w .root prev
      throw (.returned setRet)

/-- One turn of the loop over `prev_states`, with the states up to this one. -/
def applyInstance (w : Write) (rootPrev : Prev) (upTo : List (Nat × Prev)) (i : Nat) :
    Prog Unit :=
  lockGuard (.vsysfs i) do
    let setRet ← vsysfsTryOrPimNoMemory (assign w (.vsysfs i))
    if setRet = .success then pure ()
    else
      -- The mutex of this instance is held here.
      rollbackInstances w upTo
      rollbackRoot w rootPrev
      throw (.returned setRet)

def applyInstances (w : Write) (rootPrev : Prev) (done : List (Nat × Prev)) :
    List (Nat × Prev) → Prog Unit
  | [] => pure ()
  | state :: rest => do
      applyInstance w rootPrev (done ++ [state]) state.1
      applyInstances w rootPrev (done ++ [state]) rest

def captureStates (w : Write) : Prog (Prev × List (Nat × Prev)) := do
  let count := (← get).instances
  let rootPrev ← lockGuard .root do
    let prev ← capture w .root
    allocateOrReturn w .collect (0 < count)
    pure prev
  allocateOrReturn w .reservePrev (0 < count)
  let prevs ← captureInstances w (List.range count)
  pure (rootPrev, prevs)

def writeDefaultAttr (w : Write) : Prog PimError := do
  let prev ← captureStates w
  setRoot w prev.1
  applyInstances w prev.1 [] prev.2
  pure .success

/-- What the caller sees of a run: the function is `noexcept`. -/
def finish : EStateM.Result Exit Memory PimError → Exit × Memory
  | .ok err m => (.returned err, m)
  | .error .badAlloc m => (.terminated, m)
  | .error e m => (e, m)

def pimVsysfsRootWriteDefaultAttr (w : Write) (store : Store) : Exit × Memory :=
  finish ((writeDefaultAttr w).run ⟨store, [], false⟩)

def captureExit (w : Write) (maps : Attrs) (owner : Owner) : Option Exit :=
  if isLong w.name = true ∧ w.fails = some (.find owner) then some .badAlloc
  else match maps.attrs w.name with
    | none => none
    | some old =>
        if isLong old = true ∧ w.fails = some (.oldValue owner) then some (.returned .noMemory)
        else if isLong w.name = true ∧ w.fails = some (.accessFind owner) then some .badAlloc
        else none

def captured (w : Write) (maps : Attrs) : Prev :=
  (maps.attrs w.name).map fun old => (old, (maps.attrAccess w.name).getD .rw)

def Part.needed (w : Write) (maps : Attrs) (owner : Owner) : Part → Bool
  | .key | .accessKey => isLong w.name
  | .node => (maps.attrs w.name).isNone
  | .value => w.growsValue owner (maps.attrs w.name)
  | .accessNode => (maps.attrAccess w.name).isNone

def assignFails (w : Write) (maps : Attrs) (owner : Owner) : Prop :=
  ∃ part, Part.needed w maps owner part = true ∧ w.fails = some (.assign owner part)

def Memory.failing (m : Memory) : Memory := { m with failed := true }

def Memory.locking (m : Memory) (owner : Owner) : Memory := { m with held := owner :: m.held }

section
variable {α : Type} {w : Write} {owner : Owner} {m n : Memory} {site : Site} {needed : Bool}

theorem allocate_fails (h : needed = true ∧ w.fails = some site) :
    (allocate w site needed).run m = .error .badAlloc m.failing := if_pos h

theorem allocate_succeeds (h : ¬(needed = true ∧ w.fails = some site)) :
    (allocate w site needed).run m = .ok () m := if_neg h

theorem modify_run {f : Memory → Memory} (h : f m = n) :
    (modify f : Prog Unit).run m = .ok () n := by
  rw [← h]
  rfl

theorem try_ok {body : Prog Unit} (h : body.run m = .ok () n) :
    (vsysfsTryOrPimNoMemory body).run m = .ok .success n := by
  change body m = .ok () n at h
  change vsysfsTryOrPimNoMemory body m = _
  unfold vsysfsTryOrPimNoMemory
  rw [h]

theorem try_badAlloc {body : Prog Unit} (h : body.run m = .error .badAlloc n) :
    (vsysfsTryOrPimNoMemory body).run m = .ok .noMemory n := by
  change body m = .error .badAlloc n at h
  change vsysfsTryOrPimNoMemory body m = _
  unfold vsysfsTryOrPimNoMemory
  rw [h]

theorem allocateOrReturn_fails (h : needed = true ∧ w.fails = some site) :
    (allocateOrReturn w site needed).run m = .error (.returned .noMemory) m.failing :=
  run_bind_ok (try_badAlloc (allocate_fails h))

theorem allocateOrReturn_succeeds (h : ¬(needed = true ∧ w.fails = some site)) :
    (allocateOrReturn w site needed).run m = .ok () m :=
  run_bind_ok (try_ok (allocate_succeeds h))

theorem capture_run : (capture w owner).run m =
    match captureExit w (m.maps owner) owner with
    | some e => .error e m.failing
    | none => .ok (captured w (m.maps owner)) m := by
  unfold capture captureExit captured
  by_cases hfind : isLong w.name = true ∧ w.fails = some (.find owner)
  · rw [run_bind_error (allocate_fails hfind), if_pos hfind]
  · rw [run_bind_ok (allocate_succeeds hfind), run_bind_ok (EStateM.run_get m), if_neg hfind]
    cases hold : (m.maps owner).attrs w.name with
    | none => rfl
    | some old =>
        dsimp only
        by_cases hcopy : isLong old = true ∧ w.fails = some (.oldValue owner)
        · rw [run_bind_error (allocateOrReturn_fails hcopy), if_pos hcopy]
        · rw [run_bind_ok (allocateOrReturn_succeeds hcopy), if_neg hcopy]
          by_cases haccess : isLong w.name = true ∧ w.fails = some (.accessFind owner)
          · rw [run_bind_error (allocate_fails haccess), if_pos haccess]
          · rw [run_bind_ok (allocate_succeeds haccess), if_neg haccess]
            rfl

theorem captureExit_ne_deadlocked {maps : Attrs} {e : Exit}
    (h : captureExit w maps owner = some e) : e ≠ .deadlocked := by
  rintro rfl
  unfold captureExit at h
  split at h
  · cases h
  · split at h
    · cases h
    · split at h
      · cases h
      · split at h <;> cases h

theorem lockGuard_held {body : Prog α} (h : m.held.contains owner = true) :
    (lockGuard owner body).run m = .error .deadlocked m := by
  change lockGuard owner body m = _
  unfold lockGuard
  rw [if_pos h]

theorem not_held (hheld : m.held = []) (owner : Owner) : m.held.contains owner = false := by
  rw [hheld]
  rfl

theorem lockGuard_ok {body : Prog α} {a : α} (hfree : m.held.contains owner = false)
    (h : body.run (m.locking owner) = .ok a n) (hheld : n.held = owner :: m.held) :
    (lockGuard owner body).run m = .ok a { n with held := m.held } := by
  change body { m with held := owner :: m.held } = .ok a n at h
  change lockGuard owner body m = _
  unfold lockGuard
  rw [if_neg (by rw [hfree]; exact Bool.false_ne_true), h]
  dsimp only
  rw [hheld, List.erase_cons_head]

theorem lockGuard_error {body : Prog α} {e : Exit} (hfree : m.held.contains owner = false)
    (h : body.run (m.locking owner) = .error e n) (hheld : n.held = owner :: m.held)
    (he : e ≠ .deadlocked) :
    (lockGuard owner body).run m = .error e { n with held := m.held } := by
  change body { m with held := owner :: m.held } = .error e n at h
  change lockGuard owner body m = _
  unfold lockGuard
  rw [if_neg (by rw [hfree]; exact Bool.false_ne_true), h]
  cases e with
  | deadlocked => exact absurd rfl he
  | _ =>
      dsimp only
      rw [hheld, List.erase_cons_head]

theorem lockGuard_deadlocked {body : Prog α} (hfree : m.held.contains owner = false)
    (h : body.run (m.locking owner) = .error .deadlocked n) :
    (lockGuard owner body).run m = .error .deadlocked n := by
  change body { m with held := owner :: m.held } = .error .deadlocked n at h
  change lockGuard owner body m = _
  unfold lockGuard
  rw [if_neg (by rw [hfree]; exact Bool.false_ne_true), h]

theorem captureInstances_run (is : List Nat) (hheld : m.held = []) :
    (captureInstances w is).run m =
      match is.findSome? fun i => captureExit w (m.maps (.vsysfs i)) (.vsysfs i) with
      | some e => .error e m.failing
      | none => .ok (is.map fun i => (i, captured w (m.maps (.vsysfs i)))) m := by
  induction is with
  | nil => rfl
  | cons i rest ih =>
      have hfree := not_held hheld (.vsysfs i)
      have hone := @capture_run w (.vsysfs i) (m.locking (.vsysfs i))
      unfold captureInstances
      rw [List.findSome?_cons]
      cases hexit : captureExit w (m.maps (.vsysfs i)) (.vsysfs i) with
      | some e =>
          change captureExit w ((m.locking (.vsysfs i)).maps (.vsysfs i)) (.vsysfs i) = some e
            at hexit
          rw [hexit] at hone
          exact run_bind_error
            (lockGuard_error hfree hone rfl (captureExit_ne_deadlocked hexit))
      | none =>
          change captureExit w ((m.locking (.vsysfs i)).maps (.vsysfs i)) (.vsysfs i) = none
            at hexit
          rw [hexit] at hone
          rw [run_bind_ok (lockGuard_ok hfree hone rfl)]
          dsimp only
          cases hrest : rest.findSome? fun i => captureExit w (m.maps (.vsysfs i)) (.vsysfs i) with
          | some e =>
              rw [hrest] at ih
              exact run_bind_error ih
          | none =>
              rw [hrest] at ih
              exact run_bind_ok ih

structure Near (name : String) (owner : Owner) (m n : Memory) : Prop where
  held : n.held = m.held
  others : ∀ o ≠ owner, n.maps o = m.maps o
  attrs : ∀ key ≠ name, (n.maps owner).attrs key = (m.maps owner).attrs key
  attrAccess : ∀ key ≠ name, (n.maps owner).attrAccess key = (m.maps owner).attrAccess key

theorem Near.refl (name : String) (owner : Owner) (m : Memory) : Near name owner m m :=
  ⟨rfl, fun _ _ => rfl, fun _ _ => rfl, fun _ _ => rfl⟩

theorem Near.change {name : String} (h : Near name owner m n) {f : Attrs → Attrs}
    (hattrs : ∀ maps, ∀ key ≠ name, (f maps).attrs key = maps.attrs key)
    (haccess : ∀ maps, ∀ key ≠ name, (f maps).attrAccess key = maps.attrAccess key) :
    Near name owner m (n.change owner f) := by
  have hself : (n.change owner f).maps owner = f (n.maps owner) := Function.update_self ..
  refine ⟨h.held, fun o ho => ?_, fun key hkey => ?_, fun key hkey => ?_⟩
  · exact (Function.update_of_ne ho ..).trans (h.others o ho)
  · rw [hself, hattrs _ key hkey]
    exact h.attrs key hkey
  · rw [hself, haccess _ key hkey]
    exact h.attrAccess key hkey

theorem Near.put {name value : String} (h : Near name owner m n) :
    Near name owner m (n.change owner (·.put name value)) :=
  h.change (fun _ _ hkey => Function.update_of_ne hkey ..) (fun _ _ _ => rfl)

theorem Near.putAccess {name : String} {access : AccessMode} (h : Near name owner m n) :
    Near name owner m (n.change owner (·.putAccess name access)) :=
  h.change (fun _ _ _ => rfl) (fun _ _ hkey => Function.update_of_ne hkey ..)

theorem assign_run (w : Write) (owner : Owner) (m : Memory) : ∃ n, Near w.name owner m n ∧
    (assignFails w (m.maps owner) owner ∧ (assign w owner).run m = .error .badAlloc n.failing ∨
      ¬assignFails w (m.maps owner) owner ∧ (assign w owner).run m = .ok () n ∧
        n.failed = m.failed) := by
  let old := (m.maps owner).attrs w.name
  let inserted := m.change owner (·.put w.name (old.getD ""))
  let valued := inserted.change owner (·.put w.name w.value)
  have hinserted : Near w.name owner m inserted := (Near.refl ..).put
  have hvalued : Near w.name owner m valued := hinserted.put
  have haccess : (valued.maps owner).attrAccess = (m.maps owner).attrAccess := by
    simp [valued, inserted, Memory.change, Attrs.put]
  unfold assign
  by_cases hkey : isLong w.name = true ∧ w.fails = some (.assign owner .key)
  · exact ⟨m, .refl .., .inl ⟨⟨.key, hkey⟩, run_bind_error (allocate_fails hkey)⟩⟩
  rw [run_bind_ok (allocate_succeeds hkey), run_bind_ok (EStateM.run_get m)]
  dsimp only
  by_cases hnode : old.isNone = true ∧ w.fails = some (.assign owner .node)
  · exact ⟨m, .refl .., .inl ⟨⟨.node, hnode⟩, run_bind_error (allocate_fails hnode)⟩⟩
  rw [run_bind_ok (allocate_succeeds hnode),
    run_bind_ok (modify_run (n := inserted) rfl)]
  by_cases hvalue : w.growsValue owner old = true ∧ w.fails = some (.assign owner .value)
  · exact ⟨inserted, hinserted, .inl ⟨⟨.value, hvalue⟩, run_bind_error (allocate_fails hvalue)⟩⟩
  rw [run_bind_ok (allocate_succeeds hvalue),
    run_bind_ok (modify_run (n := valued) rfl)]
  by_cases haccessKey : isLong w.name = true ∧ w.fails = some (.assign owner .accessKey)
  · exact ⟨valued, hvalued,
      .inl ⟨⟨.accessKey, haccessKey⟩, run_bind_error (allocate_fails haccessKey)⟩⟩
  rw [run_bind_ok (allocate_succeeds haccessKey), run_bind_ok (EStateM.run_get valued), haccess]
  by_cases haccessNode : ((m.maps owner).attrAccess w.name).isNone = true ∧
      w.fails = some (.assign owner .accessNode)
  · exact ⟨valued, hvalued,
      .inl ⟨⟨.accessNode, haccessNode⟩, run_bind_error (allocate_fails haccessNode)⟩⟩
  rw [run_bind_ok (allocate_succeeds haccessNode)]
  refine ⟨valued.change owner (·.putAccess w.name w.access), hvalued.putAccess,
    .inr ⟨?_, modify_run rfl, rfl⟩⟩
  rintro ⟨part, hpart⟩
  cases part with
  | key => exact hkey hpart
  | node => exact hnode hpart
  | value => exact hvalue hpart
  | accessKey => exact haccessKey hpart
  | accessNode => exact haccessNode hpart

theorem Near.unlock {name : String} (h : Near name owner (m.locking owner) n) :
    Near name owner m { n with held := m.held } :=
  ⟨rfl, h.others, h.attrs, h.attrAccess⟩

theorem setRoot_fails (prev : Prev) (hheld : m.held = [])
    (h : assignFails w (m.maps .root) .root) :
    ∃ n, Near w.name .root m n ∧ (setRoot w prev).run m =
      .error (.returned .noMemory) (n.failing.change .root (·.restore w.name prev)) := by
  have hfree := not_held hheld Owner.root
  obtain ⟨n, hnear, ⟨-, hrun⟩ | ⟨hnot, -⟩⟩ := assign_run w .root (m.locking .root)
  · refine ⟨{ n with held := m.held }, hnear.unlock, ?_⟩
    refine lockGuard_error hfree ?_ (n := n.failing.change .root (·.restore w.name prev))
      hnear.held Exit.noConfusion
    rw [run_bind_ok (try_badAlloc hrun)]
    exact run_bind_ok (modify_run rfl)
  · exact absurd h hnot

theorem setRoot_succeeds (prev : Prev) (hheld : m.held = [])
    (h : ¬assignFails w (m.maps .root) .root) :
    ∃ n, Near w.name .root m n ∧ (setRoot w prev).run m = .ok () n ∧ n.failed = m.failed := by
  have hfree := not_held hheld Owner.root
  obtain ⟨n, hnear, ⟨hfails, -⟩ | ⟨-, hrun, hfailed⟩⟩ := assign_run w .root (m.locking .root)
  · exact absurd hfails h
  · refine ⟨{ n with held := m.held }, hnear.unlock, lockGuard_ok hfree ?_ hnear.held, hfailed⟩
    exact run_bind_ok (try_ok hrun)

def Attrs.Paired (maps : Attrs) (name : String) : Prop :=
  (maps.attrs name).isSome = (maps.attrAccess name).isSome

theorem restore_attrs (hnear : Near w.name owner m n) :
    ((n.maps owner).restore w.name (captured w (m.maps owner))).attrs = (m.maps owner).attrs := by
  funext key
  by_cases hkey : key = w.name
  · subst hkey
    unfold captured
    cases hold : (m.maps owner).attrs w.name with
    | none => exact Function.update_self ..
    | some old => exact Function.update_self ..
  · refine Eq.trans ?_ (hnear.attrs key hkey)
    unfold captured
    cases hold : (m.maps owner).attrs w.name with
    | none => exact Function.update_of_ne hkey ..
    | some old => exact Function.update_of_ne hkey ..

theorem restore_attrAccess (hnear : Near w.name owner m n) :
    ((n.maps owner).restore w.name (captured w (m.maps owner))).attrAccess =
      (m.maps owner).attrAccess ↔ (m.maps owner).Paired w.name := by
  have hself : ((n.maps owner).restore w.name (captured w (m.maps owner))).attrAccess w.name =
      ((m.maps owner).attrs w.name).map fun _ => ((m.maps owner).attrAccess w.name).getD .rw := by
    unfold captured
    cases hold : (m.maps owner).attrs w.name with
    | none => exact Function.update_self ..
    | some old => exact Function.update_self ..
  have hother : ∀ key ≠ w.name,
      ((n.maps owner).restore w.name (captured w (m.maps owner))).attrAccess key =
        (m.maps owner).attrAccess key := by
    intro key hkey
    refine Eq.trans ?_ (hnear.attrAccess key hkey)
    unfold captured
    cases hold : (m.maps owner).attrs w.name with
    | none => exact Function.update_of_ne hkey ..
    | some old => exact Function.update_of_ne hkey ..
  have hname : ((m.maps owner).attrs w.name).map
      (fun _ => ((m.maps owner).attrAccess w.name).getD .rw) =
        (m.maps owner).attrAccess w.name ↔ (m.maps owner).Paired w.name := by
    unfold Attrs.Paired
    cases (m.maps owner).attrs w.name <;> cases (m.maps owner).attrAccess w.name <;> simp
  rw [← hname, ← hself]
  constructor
  · intro h
    rw [h]
  · intro h
    funext key
    by_cases hkey : key = w.name
    · rw [hkey]
      exact h
    · exact hother key hkey

theorem restored_iff (hnear : Near w.name owner m n) :
    (n.failing.change owner (·.restore w.name (captured w (m.maps owner)))).maps = m.maps ↔
      (m.maps owner).Paired w.name := by
  rw [← restore_attrAccess hnear]
  constructor
  · intro h
    have howner := congrFun h owner
    rw [show (n.failing.change owner _).maps owner = _ from Function.update_self ..] at howner
    exact congrArg Attrs.attrAccess howner
  · intro h
    funext o
    by_cases ho : o = owner
    · rw [ho, show (n.failing.change owner _).maps owner = _ from Function.update_self ..]
      exact congrArg₂ Attrs.mk (@restore_attrs w owner m n hnear) h
    · exact (Function.update_of_ne ho ..).trans (hnear.others o ho)

theorem rollbackInstances_deadlocks (states : List (Nat × Prev))
    (h : ∃ state ∈ states, m.held.contains (.vsysfs state.1) = true) :
    ∃ n, (rollbackInstances w states).run m = .error .deadlocked n := by
  induction states generalizing m with
  | nil =>
      obtain ⟨state, hmem, -⟩ := h
      cases hmem
  | cons state rest ih =>
      unfold rollbackInstances
      cases hheld : m.held.contains (.vsysfs state.1) with
      | true => exact ⟨m, run_bind_error (lockGuard_held hheld)⟩
      | false =>
          have hrestore : (restore w (.vsysfs state.1) state.2).run (m.locking (.vsysfs state.1)) =
              .ok () ((m.locking (.vsysfs state.1)).change (.vsysfs state.1)
                (·.restore w.name state.2)) :=
            modify_run rfl
          rw [run_bind_ok (lockGuard_ok hheld hrestore rfl)]
          apply ih
          obtain ⟨other, hmem, hother⟩ := h
          rcases List.mem_cons.mp hmem with rfl | hrest
          · rw [hheld] at hother
            cases hother
          · exact ⟨other, hrest, hother⟩

/-- An assignment that fails is undone under the mutex that the undoing takes. -/
theorem applyInstance_deadlocks {i : Nat} (rootPrev : Prev) (upTo : List (Nat × Prev))
    (hheld : m.held = []) (hlast : ∃ state ∈ upTo, state.1 = i)
    (h : assignFails w (m.maps (.vsysfs i)) (.vsysfs i)) :
    ∃ n, (applyInstance w rootPrev upTo i).run m = .error .deadlocked n := by
  have hfree := not_held hheld (.vsysfs i)
  obtain ⟨n, hnear, ⟨-, hrun⟩ | ⟨hnot, -⟩⟩ := assign_run w (.vsysfs i) (m.locking (.vsysfs i))
  · have hin : ∃ state ∈ upTo, n.failing.held.contains (.vsysfs state.1) = true := by
      obtain ⟨state, hmem, rfl⟩ := hlast
      refine ⟨state, hmem, ?_⟩
      rw [show n.failing.held = _ from hnear.held]
      simp [Memory.locking]
    obtain ⟨u, hdead⟩ := rollbackInstances_deadlocks (w := w) upTo hin
    refine ⟨u, lockGuard_deadlocked hfree ?_⟩
    rw [run_bind_ok (try_badAlloc hrun)]
    exact run_bind_error hdead
  · exact absurd h hnot

theorem applyInstance_succeeds {i : Nat} (rootPrev : Prev) (upTo : List (Nat × Prev))
    (hheld : m.held = []) (h : ¬assignFails w (m.maps (.vsysfs i)) (.vsysfs i)) :
    ∃ n, Near w.name (.vsysfs i) m n ∧ (applyInstance w rootPrev upTo i).run m = .ok () n ∧
      n.failed = m.failed := by
  have hfree := not_held hheld (.vsysfs i)
  obtain ⟨n, hnear, ⟨hfails, -⟩ | ⟨-, hrun, hfailed⟩⟩ :=
    assign_run w (.vsysfs i) (m.locking (.vsysfs i))
  · exact absurd hfails h
  · refine ⟨{ n with held := m.held }, hnear.unlock, lockGuard_ok hfree ?_ hnear.held, hfailed⟩
    exact run_bind_ok (try_ok hrun)

theorem applyInstances_deadlocks (rootPrev : Prev) (done left : List (Nat × Prev))
    (hheld : m.held = []) (hnodup : (left.map Prod.fst).Nodup)
    (h : ∃ i ∈ left.map Prod.fst, assignFails w (m.maps (.vsysfs i)) (.vsysfs i)) :
    ∃ n, (applyInstances w rootPrev done left).run m = .error .deadlocked n := by
  induction left generalizing m done with
  | nil =>
      obtain ⟨i, hmem, -⟩ := h
      cases hmem
  | cons state rest ih =>
      rw [List.map_cons, List.nodup_cons] at hnodup
      unfold applyInstances
      by_cases hone : assignFails w (m.maps (.vsysfs state.1)) (.vsysfs state.1)
      · obtain ⟨n, hrun⟩ := applyInstance_deadlocks rootPrev (done ++ [state]) hheld
          ⟨state, by simp, rfl⟩ hone
        exact ⟨n, run_bind_error hrun⟩
      · obtain ⟨n, hnear, hrun, -⟩ :=
          applyInstance_succeeds rootPrev (done ++ [state]) hheld hone
        rw [run_bind_ok hrun]
        apply ih (done ++ [state]) (hnear.held.trans hheld) hnodup.2
        obtain ⟨i, hmem, hfails⟩ := h
        rcases List.mem_cons.mp hmem with rfl | hrest
        · exact absurd hfails hone
        · refine ⟨i, hrest, ?_⟩
          rw [hnear.others _ (by rintro ⟨⟩; exact hnodup.1 hrest)]
          exact hfails

theorem applyInstances_succeeds (rootPrev : Prev) (done left : List (Nat × Prev))
    (hheld : m.held = []) (hnodup : (left.map Prod.fst).Nodup)
    (h : ∀ i ∈ left.map Prod.fst, ¬assignFails w (m.maps (.vsysfs i)) (.vsysfs i)) :
    ∃ n, (applyInstances w rootPrev done left).run m = .ok () n ∧ n.failed = m.failed := by
  induction left generalizing m done with
  | nil => exact ⟨m, rfl, rfl⟩
  | cons state rest ih =>
      rw [List.map_cons, List.nodup_cons] at hnodup
      unfold applyInstances
      obtain ⟨n, hnear, hrun, hfailed⟩ :=
        applyInstance_succeeds rootPrev (done ++ [state]) hheld (h state.1 (by simp))
      rw [run_bind_ok hrun]
      have hrest : ∀ i ∈ rest.map Prod.fst,
          ¬assignFails w (n.maps (.vsysfs i)) (.vsysfs i) := by
        intro i hmem
        rw [hnear.others _ (by rintro ⟨⟩; exact hnodup.1 hmem)]
        exact h i (List.mem_cons_of_mem _ hmem)
      obtain ⟨u, hlast, hkept⟩ := ih (done ++ [state]) (hnear.held.trans hheld) hnodup.2 hrest
      exact ⟨u, hlast, hkept.trans hfailed⟩

end

section
variable {w : Write} {m n : Memory}

def collectFails (w : Write) (store : Store) : Bool :=
  0 < store.instances ∧ w.fails = some .collect

def reserveFails (w : Write) (store : Store) : Bool :=
  0 < store.instances ∧ w.fails = some .reservePrev

def captureStatesExit (w : Write) (store : Store) : Option Exit :=
  match captureExit w (store.maps .root) .root with
  | some e => some e
  | none =>
      if collectFails w store then some (.returned .noMemory)
      else if reserveFails w store then some (.returned .noMemory)
      else (List.range store.instances).findSome? fun i =>
        captureExit w (store.maps (.vsysfs i)) (.vsysfs i)

theorem captureStates_run (hheld : m.held = []) : (captureStates w).run m =
    match captureStatesExit w m.toStore with
    | some e => .error e m.failing
    | none => .ok (captured w (m.maps .root), (List.range m.instances).map fun i =>
        (i, captured w (m.maps (.vsysfs i)))) m := by
  have hfree := not_held hheld Owner.root
  have hroot := @capture_run w .root (m.locking .root)
  unfold captureStates captureStatesExit
  rw [run_bind_ok (EStateM.run_get m)]
  dsimp only
  cases hexit : captureExit w (m.maps .root) .root with
  | some e =>
      rw [show captureExit w ((m.locking .root).maps .root) .root = some e from hexit] at hroot
      exact run_bind_error
        (lockGuard_error hfree (run_bind_error hroot) rfl (captureExit_ne_deadlocked hexit))
  | none =>
      rw [show captureExit w ((m.locking .root).maps .root) .root = none from hexit] at hroot
      dsimp only
      unfold collectFails reserveFails
      by_cases hcollect : decide (0 < m.instances) = true ∧ w.fails = some .collect
      · rw [if_pos (by simpa using hcollect)]
        refine run_bind_error (lockGuard_error (n := (m.locking .root).failing) hfree ?_ rfl
          Exit.noConfusion)
        rw [run_bind_ok hroot]
        exact run_bind_error (allocateOrReturn_fails hcollect)
      · rw [if_neg (by simpa using hcollect)]
        have hguard : (lockGuard .root do
            let prev ← capture w .root
            allocateOrReturn w .collect (0 < m.instances)
            pure prev).run m = .ok (captured w (m.maps .root)) m := by
          refine lockGuard_ok (n := m.locking .root) hfree ?_ rfl
          rw [run_bind_ok hroot, run_bind_ok (allocateOrReturn_succeeds hcollect)]
          rfl
        rw [run_bind_ok hguard]
        by_cases hreserve : decide (0 < m.instances) = true ∧ w.fails = some .reservePrev
        · rw [if_pos (by simpa using hreserve), run_bind_error (allocateOrReturn_fails hreserve)]
        · rw [if_neg (by simpa using hreserve), run_bind_ok (allocateOrReturn_succeeds hreserve)]
          have hinstances := @captureInstances_run w m (List.range m.instances) hheld
          cases hfind : (List.range m.instances).findSome? fun i =>
              captureExit w (m.maps (.vsysfs i)) (.vsysfs i) with
          | some e =>
              rw [hfind] at hinstances
              exact run_bind_error hinstances
          | none =>
              rw [hfind] at hinstances
              exact run_bind_ok hinstances

def Store.has (store : Store) : Owner → Prop
  | .root => True
  | .vsysfs i => i < store.instances

def keyFails (w : Write) (maps : Attrs) (owner : Owner) : Prop :=
  isLong w.name = true ∧ (w.fails = some (.find owner) ∨
    (maps.attrs w.name).isSome = true ∧ w.fails = some (.accessFind owner))

/-- The sites at which the call returns before it has written anything. -/
def Site.returns : Site → Prop
  | .oldValue _ | .collect | .reservePrev => True
  | _ => False

theorem captureExit_cases {maps : Attrs} {owner : Owner} {e : Exit}
    (h : captureExit w maps owner = some e) :
    e = .badAlloc ∧ keyFails w maps owner ∨
      e = .returned .noMemory ∧ ∃ site, w.fails = some site ∧ site.returns := by
  unfold captureExit at h
  split at h
  · rename_i hfind
    obtain rfl := Option.some.inj h
    exact .inl ⟨rfl, hfind.1, .inl hfind.2⟩
  · split at h
    · cases h
    · rename_i old hold
      split at h
      · rename_i hcopy
        obtain rfl := Option.some.inj h
        exact .inr ⟨rfl, _, hcopy.2, trivial⟩
      · split at h
        · rename_i haccess
          obtain rfl := Option.some.inj h
          exact .inl ⟨rfl, haccess.1, .inr ⟨by rw [hold]; rfl, haccess.2⟩⟩
        · cases h

theorem not_keyFails_of_none {maps : Attrs} {owner : Owner}
    (h : captureExit w maps owner = none) : ¬keyFails w maps owner := by
  rintro ⟨hlong, hfind | ⟨hsome, haccess⟩⟩
  · unfold captureExit at h
    rw [if_pos ⟨hlong, hfind⟩] at h
    cases h
  · obtain ⟨old, hold⟩ := Option.isSome_iff_exists.mp hsome
    unfold captureExit at h
    rw [haccess, hold] at h
    simp [hlong] at h

theorem captureStatesExit_cases {store : Store} {e : Exit}
    (h : captureStatesExit w store = some e) :
    e = .badAlloc ∧ (∃ owner, store.has owner ∧ keyFails w (store.maps owner) owner) ∨
      e = .returned .noMemory ∧ ∃ site, w.fails = some site ∧ site.returns := by
  unfold captureStatesExit at h
  split at h
  · rename_i e' hroot
    obtain rfl := Option.some.inj h
    rcases captureExit_cases hroot with ⟨he, hkey⟩ | hreturns
    · exact .inl ⟨he, .root, trivial, hkey⟩
    · exact .inr hreturns
  · split at h
    · rename_i hcollect
      obtain rfl := Option.some.inj h
      exact .inr ⟨rfl, .collect, (of_decide_eq_true hcollect).2, trivial⟩
    · split at h
      · rename_i hreserve
        obtain rfl := Option.some.inj h
        exact .inr ⟨rfl, .reservePrev, (of_decide_eq_true hreserve).2, trivial⟩
      · obtain ⟨i, hmem, hone⟩ := List.exists_of_findSome?_eq_some h
        rcases captureExit_cases hone with ⟨he, hkey⟩ | hreturns
        · exact .inl ⟨he, .vsysfs i, List.mem_range.mp hmem, hkey⟩
        · exact .inr hreturns

theorem not_keyFails_of_states {store : Store} (h : captureStatesExit w store = none)
    (owner : Owner) (howner : store.has owner) : ¬keyFails w (store.maps owner) owner := by
  unfold captureStatesExit at h
  split at h
  · cases h
  · rename_i hroot
    split at h
    · cases h
    · split at h
      · cases h
      · cases owner with
        | root => exact not_keyFails_of_none hroot
        | vsysfs i =>
            rw [List.findSome?_eq_none_iff] at h
            exact not_keyFails_of_none (h i (List.mem_range.mpr howner))

/-- No mutex is taken twice, and if an allocation has failed then the call returns
`PIM_ERR_NO_MEMORY` with all maps as they were. -/
def AllOrNothing (w : Write) (store : Store) : Prop :=
  (pimVsysfsRootWriteDefaultAttr w store).1 ≠ .deadlocked ∧
    ((pimVsysfsRootWriteDefaultAttr w store).2.failed = true →
      (pimVsysfsRootWriteDefaultAttr w store).1 = .returned .noMemory ∧
        (pimVsysfsRootWriteDefaultAttr w store).2.maps = store.maps)

/-- The allocation that fails is neither for the key of a lookup nor for the entry of an
instance, and where it is for the entry of the root, the two maps of the root agree on the
name. -/
structure Write.Survives (w : Write) (store : Store) : Prop where
  keys : ∀ owner, store.has owner → ¬keyFails w (store.maps owner) owner
  root : assignFails w (store.maps .root) .root → (store.maps .root).Paired w.name
  instances : ∀ i < store.instances, ¬assignFails w (store.maps (.vsysfs i)) (.vsysfs i)

theorem survives_of_returns {store : Store} {site : Site} (hfails : w.fails = some site)
    (hsite : site.returns) : w.Survives store := by
  have hassign : ∀ maps owner, ¬assignFails w maps owner := by
    rintro maps owner ⟨part, -, hpart⟩
    obtain rfl := Option.some.inj (hfails.symm.trans hpart)
    exact hsite
  refine ⟨?_, fun h => absurd h (hassign _ _), fun i _ => hassign _ _⟩
  rintro owner - ⟨-, hfind | ⟨-, haccess⟩⟩
  · obtain rfl := Option.some.inj (hfails.symm.trans hfind)
    exact hsite
  · obtain rfl := Option.some.inj (hfails.symm.trans haccess)
    exact hsite

theorem call_eq {store : Store} {result : EStateM.Result Exit Memory PimError}
    (h : (writeDefaultAttr w).run ⟨store, [], false⟩ = result) :
    pimVsysfsRootWriteDefaultAttr w store = finish result := congrArg finish h

theorem allOrNothing_of_exit {store : Store} {e : Exit}
    (hexit : captureStatesExit w store = some e) :
    AllOrNothing w store ↔ e = .returned .noMemory := by
  have hcapture := @captureStates_run w ⟨store, [], false⟩ rfl
  rw [show captureStatesExit w (Memory.toStore ⟨store, [], false⟩) = some e from hexit]
    at hcapture
  have hrun : (writeDefaultAttr w).run ⟨store, [], false⟩ =
      .error e (Memory.failing ⟨store, [], false⟩) := run_bind_error hcapture
  unfold AllOrNothing
  rw [call_eq hrun]
  rcases captureStatesExit_cases hexit with ⟨rfl, -⟩ | ⟨rfl, -⟩
  · constructor
    · intro h
      cases (h.2 rfl).1
    · exact fun h => Exit.noConfusion h
  · constructor
    · exact fun _ => rfl
    · exact fun _ => ⟨Exit.noConfusion, fun _ => ⟨rfl, rfl⟩⟩

section
variable {store : Store} (hexit : captureStatesExit w store = none)
include hexit

theorem run_captured : (writeDefaultAttr w).run ⟨store, [], false⟩ = (do
    setRoot w (captured w (store.maps .root))
    applyInstances w (captured w (store.maps .root)) [] ((List.range store.instances).map fun i =>
      (i, captured w (store.maps (.vsysfs i))))
    pure .success : Prog PimError).run ⟨store, [], false⟩ := by
  have hcapture := @captureStates_run w ⟨store, [], false⟩ rfl
  rw [show captureStatesExit w (Memory.toStore ⟨store, [], false⟩) = none from hexit]
    at hcapture
  unfold writeDefaultAttr
  rw [run_bind_ok hcapture]

theorem allOrNothing_of_rootFails (hroot : assignFails w (store.maps .root) .root) :
    AllOrNothing w store ↔ (store.maps .root).Paired w.name := by
  obtain ⟨n, hnear, hset⟩ := @setRoot_fails w ⟨store, [], false⟩
    (captured w (store.maps .root)) rfl hroot
  unfold AllOrNothing
  rw [call_eq ((run_captured hexit).trans (run_bind_error hset))]
  constructor
  · intro h
    exact (restored_iff hnear).mp (h.2 rfl).2
  · intro h
    exact ⟨Exit.noConfusion, fun _ => ⟨rfl, (restored_iff hnear).mpr h⟩⟩

variable (hroot : ¬assignFails w (store.maps .root) .root)
include hroot

theorem not_allOrNothing_of_instanceFails {i : Nat} (hi : i < store.instances)
    (hfails : assignFails w (store.maps (.vsysfs i)) (.vsysfs i)) : ¬AllOrNothing w store := by
  obtain ⟨n, hnear, hset, -⟩ := @setRoot_succeeds w ⟨store, [], false⟩
    (captured w (store.maps .root)) rfl hroot
  obtain ⟨u, hrun⟩ := @applyInstances_deadlocks w n (captured w (store.maps .root)) []
    ((List.range store.instances).map fun i => (i, captured w (store.maps (.vsysfs i))))
    hnear.held (by simp [Function.comp_def, List.nodup_range])
    ⟨i, by simpa using hi, by rw [hnear.others _ Owner.noConfusion]; exact hfails⟩
  unfold AllOrNothing
  rw [call_eq ((run_captured hexit).trans ((run_bind_ok hset).trans (run_bind_error hrun)))]
  exact fun h => h.1 rfl

theorem allOrNothing_of_succeeds
    (hinstances : ∀ i < store.instances, ¬assignFails w (store.maps (.vsysfs i)) (.vsysfs i)) :
    AllOrNothing w store := by
  obtain ⟨n, hnear, hset, hfailed⟩ := @setRoot_succeeds w ⟨store, [], false⟩
    (captured w (store.maps .root)) rfl hroot
  have hassign : ∀ i ∈ ((List.range store.instances).map fun i =>
      (i, captured w (store.maps (.vsysfs i)))).map Prod.fst,
        ¬assignFails w (n.maps (.vsysfs i)) (.vsysfs i) := by
    intro i hmem
    rw [hnear.others _ Owner.noConfusion]
    exact hinstances i (by simpa using hmem)
  obtain ⟨u, hrun, hkept⟩ := applyInstances_succeeds (captured w (store.maps .root)) [] _
    hnear.held (by simp [Function.comp_def, List.nodup_range]) hassign
  unfold AllOrNothing
  rw [call_eq ((run_captured hexit).trans ((run_bind_ok hset).trans (run_bind_ok hrun)))]
  refine ⟨Exit.noConfusion, fun h => ?_⟩
  have hnone : u.failed = false := hkept.trans hfailed
  cases hnone.symm.trans h

end

end

theorem write_all_or_nothing_iff (w : Write) (store : Store) :
    AllOrNothing w store ↔ w.Survives store := by
  cases hexit : captureStatesExit w store with
  | some e =>
      rw [allOrNothing_of_exit hexit]
      rcases captureStatesExit_cases hexit with ⟨rfl, owner, howner, hkey⟩ | ⟨rfl, site, hsite⟩
      · constructor
        · exact fun h => Exit.noConfusion h
        · exact fun h => absurd hkey (h.keys owner howner)
      · exact ⟨fun _ => survives_of_returns hsite.1 hsite.2, fun _ => rfl⟩
  | none =>
      have hkeys := not_keyFails_of_states hexit
      by_cases hroot : assignFails w (store.maps .root) .root
      · rw [allOrNothing_of_rootFails hexit hroot]
        refine ⟨fun hpaired => ⟨hkeys, fun _ => hpaired, ?_⟩, fun h => h.root hroot⟩
        rintro i - ⟨part, -, hpart⟩
        obtain ⟨other, -, hother⟩ := hroot
        cases hpart.symm.trans hother
      · constructor
        · intro h
          refine ⟨hkeys, fun hfails => absurd hfails hroot, fun i hi hfails => ?_⟩
          exact not_allOrNothing_of_instanceFails hexit hroot hi hfails h
        · intro h
          exact allOrNothing_of_succeeds hexit hroot h.instances

/-- A root without defaults and one instance without attributes; the node of the
instance's entry cannot be made. -/
def bareStore : Store := ⟨fun _ => ⟨fun _ => none, fun _ => none⟩, 1⟩

def bareWrite : Write := ⟨"a", "1", .rw, fun _ => false, some (.assign (.vsysfs 0) .node)⟩

/-- The call waits for itself with the new default in place. -/
theorem write_deadlocks :
    (pimVsysfsRootWriteDefaultAttr bareWrite bareStore).1 = .deadlocked ∧
      ((pimVsysfsRootWriteDefaultAttr bareWrite bareStore).2.maps .root).attrs "a" = some "1" ∧
      ¬AllOrNothing bareWrite bareStore := by
  have hdead : (pimVsysfsRootWriteDefaultAttr bareWrite bareStore).1 = .deadlocked := by
    decide +kernel
  exact ⟨hdead, by decide +kernel, fun h => h.1 hdead⟩

end HostPimSim.Vfile.RootWrite
