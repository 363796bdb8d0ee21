import HostPimSim.Lib.Threads
import HostPimSim.Lib.Transition
import HostPimSim.Vfile.FdTable

/-! Concurrent calls on the aliases of virtual sessions: `close`, the three kinds of
`dup`, `close_range`, `pim_vfile_clear` and the operations in between.  A critical section
of `g_fd_table_mutex` or of the entry's `op_mutex` is one step, a kernel call or a callback
another.  The kernel's descriptors are kept beside the table. -/
namespace HostPimSim.Vfile.Session
open Threads Transition

/-- A `vfile_fd_entry`.  `closeFn` tells whether it is a session of a device with a close
callback, `closes` only counts the calls of it. -/
structure Entry where
  closeFn : Bool
  closing : Bool
  activeOps : Nat
  closes : Nat
  deriving DecidableEq

/-- What a call has still to do when the `close_owned_fd` or the finalization it is in
returns: a `dup` keeps or closes its new descriptor, a `close_range` has descriptors left, and
`pim_vfile_clear` rows that it has taken out of the table, with the entries it has finalized. -/
inductive Rest where
  | nothing
  | dupTarget (target : Nat)
  | closeList (fds : List Nat) (first last : Nat)
  | sweep (fds : List Nat)
  | drain (detached : List (Σ _ : Nat, Nat)) (finalized : List Nat)
  deriving DecidableEq

inductive Pc where
  | kernelClose (fd : Nat)
  | kernelDup2 (oldfd newfd : Nat)
  | closeOwnedFd (fd : Nat) (rest : Rest)
  | detached (fd entry : Nat) (rest : Rest)
  | aliasTest (entry : Nat) (rest : Rest)
  | setClosing (entry : Nat) (rest : Rest)
  | waitIdle (entry : Nat) (rest : Rest)
  | callClose (entry : Nat) (rest : Rest)
  | dup (oldfd entry : Nat)
  | dup2 (oldfd newfd : Nat) (entry : Option Nat)
  | rebind (target : Nat) (entry : Option Nat) (closeTargetFdOnFailure : Bool)
  | closeRange (fds : List Nat) (first last : Nat) (cloexec : Bool)
  | sweepCollect (first last : Nat)
  | sweepFd (fd : Nat) (fds : List Nat)
  | clear
  | drain (detached : List (Σ _ : Nat, Nat)) (finalized : List Nat)
  | acquire (entry : Nat) (callback : Bool)
  | acquired (entry : Nat) (callback : Bool)
  | running (entry : Nat)
  | release (entry : Nat)
  | returned
  deriving DecidableEq

/-- `kernel` has the open descriptors; a duplicate of one that an open of a virtual device has
returned names the entry of that open. -/
structure State where
  kernel : AList fun _ : Nat => Option Nat
  table : FdTable
  entries : List Entry
  calls : List Pc

inductive Call where
  | close (fd : Nat)
  | dup (oldfd : Nat)
  | dup2 (oldfd newfd : Nat)
  | closeRange (first last : Nat) (cloexec : Bool)
  | clear
  | operation (fd : Nat) (callback : Bool)
  deriving DecidableEq

/-- `choice` is the descriptor the kernel hands out, or the row the iteration over the
detached table comes to; `ok` is whether the kernel call, allocation or callback of the step
succeeds.  `kernelOpen` and `kernelDup` are calls that are forwarded, and an `F_DUPFD`. -/
inductive Action where
  | openVdev (fd : Nat) (closeFn : Bool)
  | kernelOpen (fd : Nat)
  | kernelDup (oldfd newfd : Nat)
  | start (call : Call)
  | advance (index choice : Nat) (ok : Bool)
  deriving DecidableEq

def init : State := ⟨∅, ∅, [], []⟩

/-- The point a call goes on from once a finalization has returned 0. -/
def Rest.next : Rest → Pc
  | .nothing | .dupTarget _ => .returned
  | .closeList [] first last => .sweepCollect first last
  | .closeList (fd :: fds) first last => .closeOwnedFd fd (.closeList fds first last)
  | .sweep [] => .returned
  | .sweep (fd :: fds) => .sweepFd fd fds
  | .drain detached finalized => .drain detached finalized

/-- A failed close callback ends a `close_range`, and a `dup` that bound a descriptor anew
closes it; `pim_vfile_clear` ignores it. -/
def Rest.failed : Rest → Pc
  | .nothing | .closeList _ _ _ | .sweep _ => .returned
  | .dupTarget target => .kernelClose target
  | .drain detached finalized => .drain detached finalized

/-- The first critical section of a call.  `dup2` and `dup3` differ in what they return for
equal descriptors, for which neither goes on to the table. -/
def Call.enter (table : FdTable) : Call → Pc
  | .close fd => if fd ∈ table then .closeOwnedFd fd .nothing else .kernelClose fd
  | .dup oldfd =>
      match table.lookup oldfd with
      | some entry => .dup oldfd entry
      | none => .returned
  | .dup2 oldfd newfd =>
      if (table.lookup oldfd).isSome = false ∧ newfd ∉ table then .kernelDup2 oldfd newfd
      else if oldfd = newfd then .returned
      else .dup2 oldfd newfd (table.lookup oldfd)
  | .closeRange first last cloexec =>
      .closeRange (collectOwnedFdsInRange table first last) first last cloexec
  | .clear => .clear
  | .operation fd callback =>
      match table.lookup fd with
      | some entry => .acquire entry callback
      | none => .returned

/-- What is left of a `dup` that has bound its target. -/
def targetRest (target : Nat) (closeTargetFdOnFailure : Bool) : Rest :=
  if closeTargetFdOnFailure then .dupTarget target else .nothing

/-- What `vsyscall_rebind_fd_alias_after_dup` finalizes: the entry it replaced. -/
def replacedPc (replaced entry : Option Nat) (rest : Rest) : Pc :=
  match replaced with
  | some old => if entry = some old then .returned else .aliasTest old rest
  | none => .returned

/-- What the kernel's `close_range` leaves open. -/
def kernelCloseRange (kernel : AList fun _ : Nat => Option Nat) (first last : Nat) :
    AList fun _ : Nat => Option Nat :=
  (kernel.keys.filter fun fd => first ≤ fd && fd ≤ last).foldl
    (fun kernel fd => kernel.erase fd) kernel

def advance (s : State) (index choice : Nat) (ok : Bool) (pc : Pc) : Option State :=
  let move (pc : Pc) := s.calls.set index pc
  match pc with
  | .kernelClose fd =>
      some { s with kernel := s.kernel.erase fd, calls := move .returned }
  | .kernelDup2 oldfd newfd =>
      if ok then (s.kernel.lookup oldfd).map fun file =>
        { s with kernel := s.kernel.insert newfd file, calls := move .returned }
      else some { s with calls := move .returned }
  | .closeOwnedFd fd rest =>
      match s.table.lookup fd with
      | none => some { s with calls := move rest.next }
      | some entry =>
          some { s with table := s.table.erase fd, calls := move (.detached fd entry rest) }
  | .detached fd entry rest =>
      -- a `close_range` has closed the descriptor before
      some { s with
        kernel := if rest = .nothing then s.kernel.erase fd else s.kernel
        calls := move (.aliasTest entry rest) }
  | .aliasTest entry rest =>
      some { s with
        calls := move (if hasAlias s.table entry then rest.next else .setClosing entry rest) }
  | .setClosing entry rest =>
      some { s with
        entries := s.entries.modify entry fun e => { e with closing := true }
        calls := move (.waitIdle entry rest) }
  | .waitIdle entry rest =>
      if (s.entries[entry]?).any (fun e => e.activeOps == 0) then
        some { s with calls := move (.callClose entry rest) }
      else none
  | .callClose entry rest =>
      some { s with
        entries := s.entries.modify entry fun e =>
          { e with closes := if e.closeFn then e.closes + 1 else e.closes }
        calls := move (if ok then rest.next else rest.failed) }
  | .dup oldfd entry =>
      if ok then
        if choice ∈ s.kernel then none
        else (s.kernel.lookup oldfd).map fun file =>
          { s with
            kernel := s.kernel.insert choice file
            calls := move (.rebind choice (some entry) true) }
      else some { s with calls := move .returned }
  | .dup2 oldfd newfd entry =>
      if ok then (s.kernel.lookup oldfd).map fun file =>
        { s with
          kernel := s.kernel.insert newfd file
          calls := move (.rebind newfd entry false) }
      else some { s with calls := move .returned }
  | .rebind target entry closeTargetFdOnFailure =>
      let rest := targetRest target closeTargetFdOnFailure
      match entry with
      | some bound =>
          -- only a new row needs memory
          if ok ∨ target ∈ s.table then
            some { s with
              table := s.table.insert target bound
              calls := move (replacedPc (s.table.lookup target) entry rest) }
          else some { s with calls := move rest.failed }
      | none =>
          some { s with
            table := s.table.erase target
            calls := move (replacedPc (s.table.lookup target) none rest) }
  | .closeRange fds first last cloexec =>
      if ok && !cloexec then
        some { s with
          kernel := kernelCloseRange s.kernel first last
          calls := move (Rest.closeList fds first last).next }
      else some { s with calls := move .returned }
  | .sweepCollect first last =>
      some { s with
        calls := move (Rest.sweep (collectOwnedFdsInRange s.table first last)).next }
  | .sweepFd fd fds =>
      some { s with
        calls := move
          (if fd ∈ s.kernel then (Rest.sweep fds).next else .closeOwnedFd fd (.sweep fds)) }
  | .clear =>
      if s.table.entries = [] then some { s with calls := move .returned }
      else some { s with table := ∅, calls := move (.drain s.table.entries []) }
  | .drain detached finalized =>
      match detached[choice]? with
      | none => if detached = [] then some { s with calls := move .clear } else none
      | some row =>
          some { s with
            kernel := s.kernel.erase row.1
            calls := move
              (if row.2 ∈ finalized then .drain (detached.eraseIdx choice) finalized
              else .setClosing row.2 (.drain (detached.eraseIdx choice) (row.2 :: finalized))) }
  | .acquire entry callback =>
      if (s.entries[entry]?).any (fun e => e.closing) then
        some { s with calls := move .returned }
      else
        some { s with
          entries := s.entries.modify entry fun e => { e with activeOps := e.activeOps + 1 }
          calls := move (.acquired entry callback) }
  | .acquired entry callback =>
      some { s with calls := move (if callback then .running entry else .release entry) }
  | .running entry => some { s with calls := move (.release entry) }
  | .release entry =>
      some { s with
        entries := s.entries.modify entry fun e => { e with activeOps := e.activeOps - 1 }
        calls := move .returned }
  | .returned => none

/-- An open binds a descriptor that is new to the kernel, to a new entry; where the table has
a row for it, the open fails and the descriptor is closed again. -/
def step (s : State) : Action → Option State
  | .openVdev fd closeFn =>
      if fd ∈ s.kernel then none
      else if fd ∈ s.table then some s
      else
        some { s with
          kernel := s.kernel.insert fd (some s.entries.length)
          table := s.table.insert fd s.entries.length
          entries := s.entries ++ [⟨closeFn, false, 0, 0⟩] }
  | .kernelOpen fd =>
      if fd ∈ s.kernel then none else some { s with kernel := s.kernel.insert fd none }
  | .kernelDup oldfd newfd =>
      if newfd ∈ s.kernel then none
      else (s.kernel.lookup oldfd).map fun file =>
        { s with kernel := s.kernel.insert newfd file }
  | .start call => some { s with calls := s.calls ++ [call.enter s.table] }
  | .advance index choice ok => (s.calls[index]?).bind (advance s index choice ok)

end HostPimSim.Vfile.Session
