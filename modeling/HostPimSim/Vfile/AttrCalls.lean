import HostPimSim.Lib.Transition
import HostPimSim.Vfile.Attribute

/-! Calls on one attribute made one after the other.  A descriptor is the number of the
`open` or `dup` that returned it; duplicates name the entry of one `open`. -/
namespace HostPimSim.Vfile.Attribute

inductive FileCall where
  | read (count : Nat) (copied : Bool)
  | write (data : List UInt8) (copied edited stored : Bool)
  | lseek (offset : Int) (whence : Whence)
  | setFl (requested : Flags)
  | setFd (cloexec : Bool)
  deriving DecidableEq

inductive Call where
  | writeAttr (value : List UInt8) (access : AccessMode) (outcome : StoreOutcome)
  | removeAttr
  | openAttr (flags : Flags) (allocated : Bool)
  | dup (fd : Nat)
  | file (fd : Nat) (call : FileCall)
  deriving DecidableEq

structure Store where
  object : Object
  entries : List Entry
  fds : List Nat
  deriving DecidableEq

def Store.init (object : Object) : Store := ⟨object, [], []⟩

def fileCall (o : Object) (e : Entry) : FileCall → Object × Entry × Result
  | .read count copied => (o, dispatchAttrRead o e count copied)
  | .write data copied edited stored => dispatchAttrWrite o e data copied edited stored
  | .lseek offset whence => (o, dispatchLseek e offset whence)
  | .setFl requested => (o, setFl e requested)
  | .setFd cloexec => (o, setFd e cloexec)

def FileCall.isWrite : FileCall → Bool
  | .write _ _ _ _ => true
  | _ => false

theorem fileCall_object {call : FileCall} (h : call.isWrite = false) (o : Object) (e : Entry) :
    (fileCall o e call).1 = o := by
  cases call with
  | write data copied edited stored => cases h
  | _ => rfl

def Store.find (s : Store) (fd : Nat) : Option (Nat × Entry) :=
  (s.fds[fd]?).bind fun i => (s.entries[i]?).map fun e => (i, e)

def Store.bind (s : Store) (flags : Flags) : Store :=
  { s with entries := s.entries ++ [makeEntry flags], fds := s.fds ++ [s.entries.length] }

/-- `open` of a path that does not resolve to the attribute is left to the kernel. -/
def dispatchOpen (s : Store) (flags : Flags) (allocated : Bool) : Store × Result :=
  match s.object.attr with
  | none => (s, .forwarded)
  | some attr =>
      match openResolvedAttr flags attr.access with
      | .error errno => (s, .error errno)
      | .ok truncated =>
          if allocated = false then (s, .error .emfile)
          else if truncated then
            match truncateAttrForOpen s.object with
            | .error errno => (s, .error errno)
            | .ok object => ({ s with object }.bind flags, .count s.fds.length)
          else (s.bind flags, .count s.fds.length)

/-- A descriptor that nothing returned is left to the kernel. -/
def dispatch (s : Store) : Call → Store × Result
  | .writeAttr value access outcome =>
      ({ s with object := (writeAttr s.object value access outcome).1 },
        (writeAttr s.object value access outcome).2)
  | .removeAttr => ({ s with object := (removeAttr s.object).1 }, (removeAttr s.object).2)
  | .openAttr flags allocated => dispatchOpen s flags allocated
  | .dup fd =>
      match s.fds[fd]? with
      | none => (s, .forwarded)
      | some i => ({ s with fds := s.fds ++ [i] }, .count s.fds.length)
  | .file fd call =>
      match s.find fd with
      | none => (s, .forwarded)
      | some (i, e) =>
          ({ s with
            object := (fileCall s.object e call).1
            entries := s.entries.set i (fileCall s.object e call).2.1 },
            (fileCall s.object e call).2.2)

def performAll : Store → List Call → Store × List Result
  | s, [] => (s, [])
  | s, call :: calls =>
      ((performAll (dispatch s call).1 calls).1,
        (dispatch s call).2 :: (performAll (dispatch s call).1 calls).2)

theorem performAll_append (s : Store) (calls : List Call) (call : Call) :
    performAll s (calls ++ [call]) =
      ((dispatch (performAll s calls).1 call).1,
        (performAll s calls).2 ++ [(dispatch (performAll s calls).1 call).2]) := by
  induction calls generalizing s with
  | nil => rfl
  | cons first calls ih =>
      rw [List.cons_append, performAll, ih]
      rfl

theorem find_eq_some {s : Store} {fd i : Nat} {e : Entry} (h : s.find fd = some (i, e)) :
    s.fds[fd]? = some i ∧ s.entries[i]? = some e := by
  unfold Store.find at h
  obtain ⟨j, hfd, he⟩ := Option.bind_eq_some_iff.mp h
  obtain ⟨e', he', hpair⟩ := Option.map_eq_some_iff.mp he
  cases hpair
  exact ⟨hfd, he'⟩

end HostPimSim.Vfile.Attribute
