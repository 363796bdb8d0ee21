import Mathlib.Data.List.Permutation
import HostPimSim.Vfile.AttrRevision

/-! Concurrent calls on one attribute.  A `write` locks the object twice, and so does an
`open` with `O_TRUNC`: to resolve the path and to truncate.  Between the two sections of a
write its entry stays locked by `op_mutex`. -/
namespace HostPimSim.Vfile.Attribute
open Transition

/-- A `write` between its sections, with what it found at the start of the first. -/
structure Writing where
  before : Entry
  seen : Object
  fd : Nat
  data : List UInt8
  copied : Bool
  edited : Bool
  edit : Edit
  deriving DecidableEq

/-- An entry, the flags its `open` was given, and the `write` that holds its lock. -/
structure Slot where
  entry : Entry
  opened : Flags
  writing : Option Writing
  deriving DecidableEq

/-- An `open` with `O_TRUNC` that has resolved the path; its descriptor is not returned yet. -/
structure Opening where
  flags : Flags
  access : AccessMode
  deriving DecidableEq

/-- `log` has the calls in the order they took effect, `held` all that the attribute was. -/
structure State where
  object : Object
  slots : List Slot
  fds : List Nat
  opens : List (Option Opening)
  log : List (Call × Result)
  held : List Attr
  deriving DecidableEq

def init (object : Object) : State := ⟨object, [], [], [], [], object.attr.toList⟩

inductive Action where
  | writeAttr (value : List UInt8) (access : AccessMode) (outcome : StoreOutcome)
  | removeAttr
  | openBegin (flags : Flags) (allocated : Bool)
  | openEnd (i : Nat)
  | dup (fd : Nat)
  | file (fd : Nat) (call : FileCall)
  | writeBegin (fd : Nat) (data : List UInt8) (copied edited : Bool)
  | writeEnd (i : Nat) (stored : Bool)
  deriving DecidableEq

def State.find (s : State) (fd : Nat) : Option (Nat × Slot) :=
  (s.fds[fd]?).bind fun i => (s.slots[i]?).map fun slot => (i, slot)

def State.returns (s : State) (call : Call) (result : Result) : State :=
  { s with log := s.log ++ [(call, result)] }

def State.bind (s : State) (flags : Flags) : State :=
  { s with
    slots := s.slots ++ [⟨makeEntry flags, flags, none⟩]
    fds := s.fds ++ [s.slots.length] }

def openBegin (s : State) (flags : Flags) (allocated : Bool) : State :=
  match s.object.attr with
  | none => s.returns (.openAttr flags allocated) .forwarded
  | some attr =>
      match openResolvedAttr flags attr.access with
      | .error errno => s.returns (.openAttr flags allocated) (.error errno)
      | .ok truncated =>
          if allocated = false then s.returns (.openAttr flags allocated) (.error .emfile)
          else if truncated then { s with opens := s.opens ++ [some ⟨flags, attr.access⟩] }
          else (s.bind flags).returns (.openAttr flags allocated) (.count s.fds.length)

def openEnd (s : State) (i : Nat) (opening : Opening) : State :=
  match truncateAttrForOpen s.object with
  | .error errno =>
      { s with opens := s.opens.set i none }.returns (.openAttr opening.flags true) (.error errno)
  | .ok object =>
      ({ s with object, opens := s.opens.set i none }.bind opening.flags).returns
        (.openAttr opening.flags true) (.count s.fds.length)

def writeBegin (s : State) (fd i : Nat) (slot : Slot) (data : List UInt8) (copied edited : Bool) :
    State :=
  match beginWrite s.object slot.entry data copied edited with
  | (fresh, .error result) =>
      { s with slots := s.slots.set i { slot with entry := fresh } }.returns
        (.file fd (.write data copied edited true)) result
  | (fresh, .ok edit) =>
      { s with
        slots := s.slots.set i { slot with
          entry := fresh
          writing := some ⟨slot.entry, s.object, fd, data, copied, edited, edit⟩ } }

def writeEnd (s : State) (i : Nat) (slot : Slot) (w : Writing) (stored : Bool) : State :=
  { s with
    object := (endWrite s.object slot.entry w.data w.edit stored).1
    slots := s.slots.set i { slot with
      entry := (endWrite s.object slot.entry w.data w.edit stored).2.1
      writing := none } }.returns
    (.file w.fd (.write w.data w.copied w.edited stored))
    (endWrite s.object slot.entry w.data w.edit stored).2.2

def fileStep (s : State) (fd i : Nat) (slot : Slot) (call : FileCall) : State :=
  { s with
    object := (fileCall s.object slot.entry call).1
    slots := s.slots.set i { slot with
      entry := (fileCall s.object slot.entry call).2.1 } }.returns
    (.file fd call) (fileCall s.object slot.entry call).2.2

def move (s : State) : Action → Option State
  | .writeAttr value access outcome =>
      some ({ s with object := (writeAttr s.object value access outcome).1 }.returns
        (.writeAttr value access outcome) (writeAttr s.object value access outcome).2)
  | .removeAttr =>
      some ({ s with object := (removeAttr s.object).1 }.returns .removeAttr
        (removeAttr s.object).2)
  | .openBegin flags allocated => some (openBegin s flags allocated)
  | .openEnd i => ((s.opens[i]?).join).map (openEnd s i)
  | .dup fd => (s.fds[fd]?).map fun i =>
      { s with fds := s.fds ++ [i] }.returns (.dup fd) (.count s.fds.length)
  | .file fd call =>
      match s.find fd with
      | none => none
      | some (i, slot) =>
          if call.isWrite = true ∨ slot.writing.isSome = true then none
          else some (fileStep s fd i slot call)
  | .writeBegin fd data copied edited =>
      match s.find fd with
      | none => none
      | some (i, slot) =>
          if slot.writing.isSome = true then none
          else some (writeBegin s fd i slot data copied edited)
  | .writeEnd i stored =>
      match s.slots[i]? with
      | none => none
      | some slot => slot.writing.map fun w => writeEnd s i slot w stored

def step (s : State) (a : Action) : Option State :=
  (move s a).map fun t => { t with held := t.held ++ t.object.attr.toList }

/-- The calls that have taken effect, in some order one after the other, return what they
returned and leave the attribute as it is. -/
def Serializable (object : Object) (s : State) : Prop :=
  ∃ order : List (Call × Result), order.Perm s.log ∧
    (performAll (Store.init object) (order.map Prod.fst)).2 = order.map Prod.snd ∧
    (performAll (Store.init object) (order.map Prod.fst)).1.object.attr = s.object.attr

/-- A `write` stores into the object that its first section found, and a truncating `open`
into an attribute of the access mode it was resolved with. -/
def Undisturbed (s : State) : Action → Prop
  | .writeEnd i _ => ∀ slot ∈ s.slots[i]?, ∀ w ∈ slot.writing, s.object = w.seen
  | .openEnd i => ∀ opening ∈ (s.opens[i]?).join,
      s.object.attr.map Attr.access = some opening.access
  | _ => True

instance (object : Object) (s : State) : Decidable (Serializable object s) :=
  decidable_of_iff (∃ order ∈ s.log.permutations',
    (performAll (Store.init object) (order.map Prod.fst)).2 = order.map Prod.snd ∧
    (performAll (Store.init object) (order.map Prod.fst)).1.object.attr = s.object.attr)
    (exists_congr fun _ => and_congr_left fun _ => List.mem_permutations')

instance (s : State) : DecidablePred (Undisturbed s)
  | .writeEnd i _ =>
      inferInstanceAs (Decidable (∀ slot ∈ s.slots[i]?, ∀ w ∈ slot.writing, s.object = w.seen))
  | .openEnd i => inferInstanceAs (Decidable (∀ opening ∈ (s.opens[i]?).join,
      s.object.attr.map Attr.access = some opening.access))
  | .writeAttr _ _ _ | .removeAttr | .openBegin _ _ | .dup _ | .file _ _
  | .writeBegin _ _ _ _ => .isTrue trivial

/-- What the entry is to the calls that have taken effect. -/
def Slot.committed (slot : Slot) : Entry :=
  match slot.writing with
  | none => slot.entry
  | some w => w.before

def State.store (s : State) : Store := ⟨s.object, s.slots.map Slot.committed, s.fds⟩

/-- The first section of a write ran as recorded, and a pending open passed its checks. -/
structure Pending (s : State) : Prop where
  writing : ∀ (i : Nat) (slot : Slot), s.slots[i]? = some slot → ∀ w ∈ slot.writing,
    s.fds[w.fd]? = some i ∧
      beginWrite w.seen w.before w.data w.copied w.edited = (slot.entry, .ok w.edit)
  opening : ∀ (i : Nat) (opening : Opening), s.opens[i]? = some (some opening) →
    openResolvedAttr opening.flags opening.access = .ok true

variable {s t : State} {fd i : Nat} {slot : Slot}

theorem find_some (h : s.find fd = some (i, slot)) :
    s.fds[fd]? = some i ∧ s.slots[i]? = some slot := by
  unfold State.find at h
  obtain ⟨j, hfd, hslot⟩ := Option.bind_eq_some_iff.mp h
  obtain ⟨slot', hslot', hpair⟩ := Option.map_eq_some_iff.mp hslot
  cases hpair
  exact ⟨hfd, hslot'⟩

theorem move_file {call : FileCall} (h : move s (.file fd call) = some t) :
    ∃ i slot, s.find fd = some (i, slot) ∧ call.isWrite = false ∧ slot.writing = none ∧
      t = fileStep s fd i slot call := by
  dsimp only [move] at h
  split at h
  · cases h
  · rename_i i slot hfind
    split at h
    · cases h
    · rename_i hidle
      cases h
      exact ⟨i, slot, hfind, Bool.eq_false_iff.mpr fun hwrite => hidle (.inl hwrite),
        Option.not_isSome_iff_eq_none.mp fun hsome => hidle (.inr hsome), rfl⟩

theorem move_writeBegin {data : List UInt8} {copied edited : Bool}
    (h : move s (.writeBegin fd data copied edited) = some t) :
    ∃ i slot, s.find fd = some (i, slot) ∧ slot.writing = none ∧
      t = writeBegin s fd i slot data copied edited := by
  dsimp only [move] at h
  split at h
  · cases h
  · rename_i i slot hfind
    split at h
    · cases h
    · rename_i hidle
      cases h
      exact ⟨i, slot, hfind, Option.not_isSome_iff_eq_none.mp hidle, rfl⟩

theorem move_writeEnd {stored : Bool} (h : move s (.writeEnd i stored) = some t) :
    ∃ slot w, s.slots[i]? = some slot ∧ slot.writing = some w ∧
      t = writeEnd s i slot w stored := by
  dsimp only [move] at h
  split at h
  · cases h
  · rename_i slot hslot
    obtain ⟨w, hw, rfl⟩ := Option.map_eq_some_iff.mp h
    exact ⟨slot, w, hslot, hw, rfl⟩

theorem store_find (hfd : s.fds[fd]? = some i) (hslot : s.slots[i]? = some slot) :
    s.store.find fd = some (i, slot.committed) := by
  unfold Store.find State.store
  rw [hfd, Option.bind_some, List.getElem?_map, hslot]
  rfl

theorem committed_of_idle (h : slot.writing = none) : slot.committed = slot.entry := by
  unfold Slot.committed
  rw [h]

theorem map_committed_set {slots : List Slot} {after : Slot} (hslot : slots[i]? = some slot)
    (hsame : after.committed = slot.committed) :
    (slots.set i after).map Slot.committed = slots.map Slot.committed := by
  have hmap : (slots.map Slot.committed)[i]? = some slot.committed := by
    rw [List.getElem?_map, hslot]
    rfl
  obtain ⟨hlength, hget⟩ := List.getElem?_eq_some_iff.mp hmap
  rw [List.map_set, hsame, ← hget, List.set_getElem_self]

def Serves (s t : State) : Prop :=
  (t.log = s.log ∧ t.store = s.store) ∨
    ∃ call result, t.log = s.log ++ [(call, result)] ∧
      dispatch s.store call = (t.store, result)

theorem openBegin_serves (flags : Flags) (allocated : Bool) :
    Serves s (openBegin s flags allocated) := by
  have hstore : s.store.object = s.object := rfl
  unfold openBegin
  cases hattr : s.object.attr with
  | none =>
      refine .inr ⟨.openAttr flags allocated, .forwarded, rfl, ?_⟩
      simp only [dispatch, dispatchOpen, hstore, hattr]
      rfl
  | some attr =>
      dsimp only
      cases hnode : openResolvedAttr flags attr.access with
      | error errno =>
          refine .inr ⟨.openAttr flags allocated, .error errno, rfl, ?_⟩
          simp only [dispatch, dispatchOpen, hstore, hattr, hnode]
          rfl
      | ok truncated =>
          dsimp only
          split
          · rename_i hallocated
            refine .inr ⟨.openAttr flags allocated, .error .emfile, rfl, ?_⟩
            simp only [dispatch, dispatchOpen, hstore, hattr, hnode, hallocated, if_true]
            rfl
          · rename_i hallocated
            split
            · exact .inl ⟨rfl, rfl⟩
            · rename_i htruncated
              refine .inr ⟨.openAttr flags allocated, .count s.fds.length, rfl, ?_⟩
              simp only [dispatch, dispatchOpen, hstore, hattr, hnode, if_neg hallocated,
                if_neg htruncated]
              simp [State.store, State.bind, State.returns, Store.bind, Slot.committed]

theorem openEnd_serves {opening : Opening}
    (hnode : openResolvedAttr opening.flags opening.access = .ok true)
    (haccess : s.object.attr.map Attr.access = some opening.access) :
    Serves s (openEnd s i opening) := by
  obtain ⟨attr, hattr, hsame⟩ := Option.map_eq_some_iff.mp haccess
  have hstore : s.store.object = s.object := rfl
  have hserial : dispatchOpen s.store opening.flags true =
      match truncateAttrForOpen s.object with
      | .error errno => (s.store, .error errno)
      | .ok object => ({ s.store with object }.bind opening.flags, .count s.fds.length) := by
    unfold dispatchOpen
    simp only [hstore, hattr, hsame, hnode, Bool.true_eq_false, if_false, if_true]
    rfl
  unfold openEnd
  cases htrunc : truncateAttrForOpen s.object with
  | error errno =>
      refine .inr ⟨.openAttr opening.flags true, .error errno, rfl, ?_⟩
      rw [dispatch, hserial, htrunc]
      rfl
  | ok object =>
      refine .inr ⟨.openAttr opening.flags true, .count s.fds.length, rfl, ?_⟩
      rw [dispatch, hserial, htrunc]
      simp [State.store, State.bind, State.returns, Store.bind, Slot.committed]

theorem fileStep_serves {call : FileCall} (hfd : s.fds[fd]? = some i)
    (hslot : s.slots[i]? = some slot) (hidle : slot.writing = none) :
    Serves s (fileStep s fd i slot call) := by
  refine .inr ⟨.file fd call, _, rfl, ?_⟩
  simp only [dispatch, store_find hfd hslot, committed_of_idle hidle]
  simp only [fileStep, State.store, State.returns, List.map_set, Slot.committed, hidle]

theorem writeBegin_serves {data : List UInt8} {copied edited : Bool}
    (hfd : s.fds[fd]? = some i) (hslot : s.slots[i]? = some slot)
    (hidle : slot.writing = none) :
    Serves s (writeBegin s fd i slot data copied edited) := by
  unfold writeBegin
  cases hbegin : beginWrite s.object slot.entry data copied edited with
  | mk fresh outcome =>
      cases outcome with
      | error result =>
          refine .inr ⟨.file fd (.write data copied edited true), result, rfl, ?_⟩
          have hobject : s.store.object = s.object := rfl
          simp only [dispatch, store_find hfd hslot, committed_of_idle hidle, fileCall,
            dispatchAttrWrite, hobject, hbegin]
          simp only [State.store, State.returns, List.map_set, Slot.committed, hidle]
      | ok edit =>
          refine .inl ⟨rfl, ?_⟩
          unfold State.store
          rw [map_committed_set hslot]
          exact (committed_of_idle hidle).symm

theorem writeEnd_serves {w : Writing} {stored : Bool} (hfd : s.fds[w.fd]? = some i)
    (hslot : s.slots[i]? = some slot) (hwriting : slot.writing = some w)
    (hbegin : beginWrite w.seen w.before w.data w.copied w.edited = (slot.entry, .ok w.edit))
    (hseen : s.object = w.seen) :
    Serves s (writeEnd s i slot w stored) := by
  have hcommitted : slot.committed = w.before := by
    unfold Slot.committed
    rw [hwriting]
  have hobject : s.store.object = s.object := rfl
  rw [← hseen] at hbegin
  refine .inr ⟨_, _, rfl, ?_⟩
  simp only [dispatch, store_find hfd hslot, hcommitted, fileCall, dispatchAttrWrite, hobject,
    hbegin]
  simp only [writeEnd, State.store, State.returns, List.map_set, Slot.committed]

theorem Pending.set_slot {object : Object} {log : List (Call × Result)} {after : Slot}
    (h : Pending s)
    (hafter : ∀ w ∈ after.writing, s.fds[w.fd]? = some i ∧
      beginWrite w.seen w.before w.data w.copied w.edited = (after.entry, .ok w.edit)) :
    Pending { s with object := object, slots := s.slots.set i after, log := log } := by
  refine ⟨fun j other hother w hw => ?_, h.opening⟩
  rcases Threads.getElem?_set_some hother with ⟨rfl, rfl⟩ | ⟨_, hold⟩
  · exact hafter w hw
  · exact h.writing j other hold w hw

theorem Pending.bind {flags : Flags} (h : Pending s) : Pending (s.bind flags) := by
  refine ⟨fun j other hother w hw => ?_, h.opening⟩
  rcases Threads.getElem?_push_some hother with ⟨rfl, rfl⟩ | hold
  · cases hw
  · obtain ⟨hfd, hbegin⟩ := h.writing j other hold w hw
    have hlength := (List.getElem?_eq_some_iff.mp hfd).1
    exact ⟨(List.getElem?_append_left hlength).trans hfd, hbegin⟩

theorem Pending.openBegin {flags : Flags} {allocated : Bool} (h : Pending s) :
    Pending (openBegin s flags allocated) := by
  unfold Attribute.openBegin
  split
  · exact ⟨h.writing, h.opening⟩
  · rename_i attr hattr
    split
    · exact ⟨h.writing, h.opening⟩
    · rename_i truncated hnode
      split
      · exact ⟨h.writing, h.opening⟩
      · split
        · rename_i htruncated
          refine ⟨h.writing, fun j opening hopening => ?_⟩
          rcases Threads.getElem?_push_some hopening with ⟨_, hnew⟩ | hold
          · cases hnew
            rw [hnode, htruncated]
          · exact h.opening j opening hold
        · exact ⟨h.bind.writing, h.opening⟩

theorem Pending.openEnd {opening : Opening} (h : Pending s) :
    Pending (openEnd s i opening) := by
  have hclosed : ∀ object : Object, Pending { s with object, opens := s.opens.set i none } := by
    refine fun object => ⟨h.writing, fun j other hother => ?_⟩
    rcases Threads.getElem?_set_some hother with ⟨_, hnone⟩ | ⟨_, hold⟩
    · cases hnone
    · exact h.opening j other hold
  unfold Attribute.openEnd
  split
  · exact ⟨h.writing, (hclosed s.object).opening⟩
  · rename_i object _
    exact ⟨(hclosed object).bind.writing, (hclosed object).opening⟩

theorem Pending.move {a : Action} (h : Pending s) (hmove : move s a = some t) : Pending t := by
  cases a with
  | writeAttr value access outcome =>
      cases hmove
      exact ⟨h.writing, h.opening⟩
  | removeAttr =>
      cases hmove
      exact ⟨h.writing, h.opening⟩
  | openBegin flags allocated =>
      cases hmove
      exact h.openBegin
  | openEnd i =>
      obtain ⟨opening, _, rfl⟩ := Option.map_eq_some_iff.mp hmove
      exact h.openEnd
  | dup fd =>
      obtain ⟨j, _, rfl⟩ := Option.map_eq_some_iff.mp hmove
      refine ⟨fun i slot hslot w hw => ?_, h.opening⟩
      obtain ⟨hfd, hbegin⟩ := h.writing i slot hslot w hw
      have hlength := (List.getElem?_eq_some_iff.mp hfd).1
      exact ⟨(List.getElem?_append_left hlength).trans hfd, hbegin⟩
  | file fd call =>
      obtain ⟨i, slot, _, _, hidle, rfl⟩ := move_file hmove
      refine h.set_slot fun w hw => ?_
      rw [hidle] at hw
      cases hw
  | writeBegin fd data copied edited =>
      obtain ⟨i, slot, hfind, hidle, rfl⟩ := move_writeBegin hmove
      unfold writeBegin
      split
      · refine h.set_slot fun w hw => ?_
        rw [hidle] at hw
        cases hw
      · rename_i fresh edit hbegin
        refine h.set_slot fun w hw => ?_
        cases hw
        exact ⟨(find_some hfind).1, hbegin⟩
  | writeEnd i stored =>
      obtain ⟨slot, w, _, _, rfl⟩ := move_writeEnd hmove
      exact h.set_slot fun w hw => by cases hw

theorem move_serves {a : Action} (h : Pending s) (hok : Undisturbed s a)
    (hmove : move s a = some t) : Serves s t := by
  cases a with
  | writeAttr value access outcome =>
      cases hmove
      exact .inr ⟨_, _, rfl, rfl⟩
  | removeAttr =>
      cases hmove
      exact .inr ⟨_, _, rfl, rfl⟩
  | openBegin flags allocated =>
      cases hmove
      exact openBegin_serves flags allocated
  | openEnd i =>
      obtain ⟨opening, hopening, rfl⟩ := Option.map_eq_some_iff.mp hmove
      exact openEnd_serves (h.opening i opening (Option.join_eq_some_iff.mp hopening))
        (hok opening hopening)
  | dup fd =>
      obtain ⟨j, hfd, rfl⟩ := Option.map_eq_some_iff.mp hmove
      refine .inr ⟨.dup fd, _, rfl, ?_⟩
      have hstore : s.store.fds[fd]? = some j := hfd
      simp only [dispatch, hstore]
      rfl
  | file fd call =>
      obtain ⟨i, slot, hfind, _, hidle, rfl⟩ := move_file hmove
      exact fileStep_serves (find_some hfind).1 (find_some hfind).2 hidle
  | writeBegin fd data copied edited =>
      obtain ⟨i, slot, hfind, hidle, rfl⟩ := move_writeBegin hmove
      exact writeBegin_serves (find_some hfind).1 (find_some hfind).2 hidle
  | writeEnd i stored =>
      obtain ⟨slot, w, hslot, hw, rfl⟩ := move_writeEnd hmove
      obtain ⟨hfd, hbegin⟩ := h.writing i slot hslot w hw
      exact writeEnd_serves hfd hslot hw hbegin (hok slot hslot w hw)

structure Replays (object : Object) (s : State) : Prop where
  pending : Pending s
  replay : performAll (Store.init object) (s.log.map Prod.fst) = (s.store, s.log.map Prod.snd)

theorem Replays.serves {object : Object} (h : Replays object s) (hpending : Pending t)
    (hserves : Serves s t) : Replays object t := by
  refine ⟨hpending, ?_⟩
  rcases hserves with ⟨hlog, hstore⟩ | ⟨call, result, hlog, hdispatch⟩
  · rw [hlog, hstore]
    exact h.replay
  · rw [hlog, List.map_append, List.map_append, List.map_singleton, List.map_singleton,
      performAll_append, h.replay]
    dsimp only
    rw [hdispatch]

theorem step_replays {object : Object} {a : Action} (h : Replays object s)
    (hok : Undisturbed s a) (hstep : step s a = some t) : Replays object t := by
  obtain ⟨u, hmove, rfl⟩ := Option.map_eq_some_iff.mp hstep
  have hreplays := h.serves (h.pending.move hmove) (move_serves h.pending hok hmove)
  exact ⟨⟨hreplays.pending.writing, hreplays.pending.opening⟩, hreplays.replay⟩

theorem init_replays (object : Object) : Replays object (init object) := by
  refine ⟨⟨fun i slot hslot => ?_, fun i opening hopening => ?_⟩, rfl⟩
  · cases hslot
  · cases hopening

/-- Nothing but writes with `O_APPEND` stores into the attribute. -/
def OnlyAppends (s : State) : Action → Prop
  | .writeAttr _ _ outcome => outcome = .undone
  | .removeAttr | .openEnd _ => False
  | .writeEnd i _ => ∀ slot ∈ s.slots[i]?, has slot.entry.flags oAppend = true
  | _ => True

def appendedBy : Call × Result → List UInt8
  | (.file _ (.write data _ _ _), .count _) => data
  | _ => []

/-- The value is the first one and after it the data of the writes that succeeded. -/
structure Appended (value : List UInt8) (s : State) : Prop where
  value : s.object.attr.map Attr.value = some (value ++ s.log.flatMap appendedBy)
  writing : ∀ slot ∈ s.slots, ∀ w ∈ slot.writing, has slot.entry.flags oAppend = true →
    ∀ seen, w.seen.attr.map Attr.value = some seen → w.edit.updated = seen ++ w.data

theorem beginWrite_append {o : Object} {e fresh : Entry} {data seen : List UInt8}
    {copied edited : Bool} {edit : Edit}
    (hcurrent : CopyCurrent o e)
    (hbegin : beginWrite o e data copied edited = (fresh, .ok edit))
    (happend : has fresh.flags oAppend = true) (hseen : o.attr.map Attr.value = some seen) :
    edit.updated = seen ++ data := by
  obtain ⟨_, _, hrefresh, _, rfl⟩ := beginWrite_ok hbegin
  have hcopy : fresh.cachedValue = seen := by
    rcases refreshCache_ok hrefresh with ⟨hrevision, rfl⟩ | ⟨_, attr, hattr, rfl⟩
    · rw [hcurrent hrevision] at hseen
      exact Option.some.inj hseen
    · rw [hattr] at hseen
      exact Option.some.inj hseen
  dsimp only
  rw [writeOffset, if_pos happend, overwrite_at_end, hcopy]

variable {value : List UInt8}

theorem Appended.returns {call : Call} {result : Result} (h : Appended value s)
    (hnone : appendedBy (call, result) = []) : Appended value (s.returns call result) := by
  refine ⟨?_, h.writing⟩
  rw [State.returns, List.flatMap_append, List.flatMap_singleton, hnone, List.append_nil]
  exact h.value

theorem Appended.bind {flags : Flags} (h : Appended value s) : Appended value (s.bind flags) :=
  ⟨h.value, Threads.forall_mem_push h.writing fun w hw => by cases hw⟩

theorem Appended.set_slot {after : Slot} (h : Appended value s)
    (hafter : ∀ w ∈ after.writing, has after.entry.flags oAppend = true →
      ∀ seen, w.seen.attr.map Attr.value = some seen → w.edit.updated = seen ++ w.data) :
    Appended value { s with slots := s.slots.set i after } :=
  ⟨h.value, Threads.forall_mem_set h.writing hafter⟩

theorem Appended.openBegin {flags : Flags} {allocated : Bool} (h : Appended value s) :
    Appended value (openBegin s flags allocated) := by
  unfold Attribute.openBegin
  split
  · exact h.returns rfl
  · split
    · exact h.returns rfl
    · split
      · exact h.returns rfl
      · split
        · exact ⟨h.value, h.writing⟩
        · exact h.bind.returns rfl

theorem Appended.writeEnd {w : Writing} {stored : Bool} (h : Appended value s)
    (hslot : s.slots[i]? = some slot) (hw : slot.writing = some w)
    (happend : has slot.entry.flags oAppend = true) (hseen : s.object = w.seen) :
    Appended value (writeEnd s i slot w stored) := by
  have hmem := List.mem_iff_getElem?.mpr ⟨i, hslot⟩
  have hupdated := h.writing slot hmem w hw happend _ (hseen ▸ h.value)
  unfold Attribute.writeEnd
  rcases endWrite_cases s.object slot.entry w.data w.edit stored with
    ⟨errno, hend⟩ | ⟨attr, _, _, hend⟩
  · rw [hend]
    exact (h.set_slot fun w hw => by cases hw).returns rfl
  · rw [hend]
    refine ⟨?_, Threads.forall_mem_set h.writing fun w hw => by cases hw⟩
    simp only [State.returns, Option.map_some, hupdated, List.flatMap_append,
      List.flatMap_singleton, appendedBy, List.append_assoc]

theorem Appended.move {a : Action} (h : Appended value s) (hok : Undisturbed s a)
    (honly : OnlyAppends s a) (hcurrent : ∀ slot ∈ s.slots, CopyCurrent s.object slot.entry)
    (hmove : move s a = some t) : Appended value t := by
  cases a with
  | writeAttr v access outcome =>
      cases honly
      cases hmove
      exact h.returns rfl
  | removeAttr => exact honly.elim
  | openBegin flags allocated =>
      cases hmove
      exact h.openBegin
  | openEnd i => exact honly.elim
  | dup fd =>
      obtain ⟨j, _, rfl⟩ := Option.map_eq_some_iff.mp hmove
      exact (⟨h.value, h.writing⟩ : Appended value { s with fds := s.fds ++ [j] }).returns rfl
  | file fd call =>
      obtain ⟨i, slot, _, hread, hidle, rfl⟩ := move_file hmove
      unfold fileStep
      rw [fileCall_object hread]
      refine (h.set_slot fun w hw => ?_).returns ?_
      · rw [hidle] at hw
        cases hw
      · cases call with
        | write data copied edited stored => cases hread
        | _ => rfl
  | writeBegin fd data copied edited =>
      obtain ⟨i, slot, hfind, hidle, rfl⟩ := move_writeBegin hmove
      unfold writeBegin
      split
      · rename_i fresh result hbegin
        refine (h.set_slot fun w hw => ?_).returns ?_
        · rw [hidle] at hw
          cases hw
        · rcases beginWrite_error hbegin with ⟨rfl, rfl⟩ | ⟨errno, rfl⟩ <;> rfl
      · rename_i fresh edit hbegin
        refine h.set_slot fun w hw happend seen hseen => ?_
        cases hw
        have hmem := List.mem_iff_getElem?.mpr ⟨i, (find_some hfind).2⟩
        exact beginWrite_append (hcurrent slot hmem) hbegin happend hseen
  | writeEnd i stored =>
      obtain ⟨slot, w, hslot, hw, rfl⟩ := move_writeEnd hmove
      exact h.writeEnd hslot hw (honly slot hslot) (hok slot hslot w hw)

/-- No copy is so old that it passes for current before `n` more steps. -/
structure Tracked (n : Nat) (s : State) : Prop where
  revision : s.object.revision ≠ 0
  slots : ∀ slot ∈ s.slots, EntryTracks n s.object slot.entry

variable {n : Nat}

theorem Tracked.advance {object : Object} (h : Tracked (n + 1) s)
    (hnext : Advances s.object object) :
    ∀ slot ∈ s.slots, EntryTracks n object slot.entry :=
  fun slot hslot => (h.slots slot hslot).advance hnext

theorem Tracked.same (h : Tracked (n + 1) s) : Tracked n s :=
  ⟨h.revision, h.advance (.inl rfl)⟩

theorem Tracked.bind {flags : Flags} (h : Tracked n s) : Tracked n (s.bind flags) :=
  ⟨h.revision, Threads.forall_mem_push h.slots (.inl rfl)⟩

theorem Tracked.move {a : Action} (h : Tracked (n + 1) s) (hn : n < 2 ^ 64 - 1)
    (honly : OnlyAppends s a) (hmove : move s a = some t) : Tracked n t := by
  cases a with
  | writeAttr v access outcome =>
      cases honly
      cases hmove
      exact ⟨h.revision, h.same.slots⟩
  | removeAttr => exact honly.elim
  | openBegin flags allocated =>
      cases hmove
      unfold openBegin
      split
      · exact ⟨h.revision, h.same.slots⟩
      · split
        · exact ⟨h.revision, h.same.slots⟩
        · split
          · exact ⟨h.revision, h.same.slots⟩
          · split
            · exact ⟨h.revision, h.same.slots⟩
            · exact ⟨h.revision, h.same.bind.slots⟩
  | openEnd i => exact honly.elim
  | dup fd =>
      obtain ⟨j, _, rfl⟩ := Option.map_eq_some_iff.mp hmove
      exact ⟨h.revision, h.same.slots⟩
  | file fd call =>
      obtain ⟨i, slot, hfind, _, _, rfl⟩ := move_file hmove
      have hslot := h.slots slot (List.mem_iff_getElem?.mpr ⟨i, (find_some hfind).2⟩)
      obtain ⟨hnext, hafter⟩ := fileCall_tracks call hslot hn h.revision
      exact ⟨hnext.revision_ne_zero h.revision,
        Threads.forall_mem_set (h.advance hnext) hafter⟩
  | writeBegin fd data copied edited =>
      obtain ⟨i, slot, hfind, _, rfl⟩ := move_writeBegin hmove
      have hslot := h.same.slots slot (List.mem_iff_getElem?.mpr ⟨i, (find_some hfind).2⟩)
      have hbegin := beginWrite_tracks data copied edited hslot hn h.revision
      unfold writeBegin
      split <;> rename_i heq <;> rw [heq] at hbegin <;>
        exact ⟨h.revision, Threads.forall_mem_set h.same.slots hbegin⟩
  | writeEnd i stored =>
      obtain ⟨slot, w, hslot, _, rfl⟩ := move_writeEnd hmove
      have hentry := h.same.slots slot (List.mem_iff_getElem?.mpr ⟨i, hslot⟩)
      obtain ⟨hnext, hafter⟩ := endWrite_tracks w.data w.edit stored hentry hn
      exact ⟨hnext.revision_ne_zero h.revision,
        Threads.forall_mem_set (h.advance hnext) hafter⟩

theorem step_appended {a : Action} (h : Appended value s ∧ Tracked (n + 1) s ∧ n + 1 < 2 ^ 64)
    (hok : Undisturbed s a ∧ OnlyAppends s a) (hstep : step s a = some t) :
    Appended value t ∧ Tracked n t ∧ n < 2 ^ 64 := by
  obtain ⟨u, hmove, rfl⟩ := Option.map_eq_some_iff.mp hstep
  obtain ⟨happended, htracked, hn⟩ := h
  have hcurrent := fun slot hslot => (htracked.slots slot hslot).current htracked.revision
  have hafter := happended.move hok.1 hok.2 hcurrent hmove
  have htracks := htracked.move (by omega) hok.2 hmove
  exact ⟨⟨hafter.value, hafter.writing⟩, ⟨htracks.revision, htracks.slots⟩, by omega⟩

/-- If nothing else stores into the object between the two sections of a write, or changes
the access mode between those of a truncating open, the calls have the results and the
effect of a serial order, and appended data is all there. -/
theorem calls_serializable {object : Object} {actions : List Action}
    (hok : Meets step Undisturbed (init object) actions)
    (hrun : run step (init object) actions = some t) :
    Serializable object t ∧
      ∀ value, object.attr.map Attr.value = some value → object.revision ≠ 0 →
        actions.length < 2 ^ 64 - 1 → Meets step OnlyAppends (init object) actions →
        t.object.attr.map Attr.value = some (value ++ t.log.flatMap appendedBy) := by
  constructor
  · have hreplays := run_invariant_of_meets (fun s a t => step_replays)
      (init_replays object) hok hrun
    refine ⟨t.log, .refl _, ?_, ?_⟩
    · rw [hreplays.replay]
    · rw [hreplays.replay]
      rfl
  · intro value hvalue hrevision hlength honly
    have hinit : Appended value (init object) ∧ Tracked actions.length (init object) ∧
        actions.length < 2 ^ 64 := by
      refine ⟨⟨?_, fun slot hslot => by cases hslot⟩,
        ⟨hrevision, fun slot hslot => by cases hslot⟩, by omega⟩
      simpa [init] using hvalue
    exact (run_countdown (fun n s => Appended value s ∧ Tracked n s ∧ n < 2 ^ 64)
      (fun n s a t => step_appended) hinit (hok.and honly) hrun).1.value

theorem calls_serializable_in_turn :
    ∃ t, run step (init ⟨some ⟨[], .rw⟩, 1⟩)
      [.openBegin (oRdwr ||| oAppend) true, .openBegin (oRdwr ||| oAppend) true,
        .writeBegin 0 [97] true true, .writeEnd 0 true, .writeBegin 1 [98] true true,
        .writeEnd 1 true] = some t ∧ Serializable ⟨some ⟨[], .rw⟩, 1⟩ t := by
  have hrun : ∃ t, run step (init ⟨some ⟨[], .rw⟩, 1⟩)
      [.openBegin (oRdwr ||| oAppend) true, .openBegin (oRdwr ||| oAppend) true,
        .writeBegin 0 [97] true true, .writeEnd 0 true, .writeBegin 1 [98] true true,
        .writeEnd 1 true] = some t ∧ t.object.attr = some ⟨[97, 98], .rw⟩ :=
    exists_run (by decide +kernel)
  obtain ⟨t, hrun, _⟩ := hrun
  exact ⟨t, hrun, (calls_serializable (by decide +kernel) hrun).1⟩

/-- The same writes, each of which has copied the value before the other stores: both return
1 and one byte is gone. -/
theorem concurrent_append_lost :
    ¬∀ object actions t, run step (init object) actions = some t → Serializable object t := by
  intro h
  have hrun : ∃ t, run step (init ⟨some ⟨[], .rw⟩, 1⟩)
      [.openBegin (oRdwr ||| oAppend) true, .openBegin (oRdwr ||| oAppend) true,
        .writeBegin 0 [97] true true, .writeBegin 1 [98] true true, .writeEnd 0 true,
        .writeEnd 1 true] = some t ∧ ¬Serializable ⟨some ⟨[], .rw⟩, 1⟩ t :=
    exists_run (by decide +kernel)
  obtain ⟨t, hrun, hlost⟩ := hrun
  exact hlost (h _ _ t hrun)

end HostPimSim.Vfile.Attribute
