import HostPimSim.Lib.Transition
import HostPimSim.Vfile.FdTable

/-! Single-threaded calls that open, close and duplicate descriptors through
`_pim_vsyscall_dispatch`, with the kernel's table beside `g_fd_table`.  What the kernel and
the callbacks answer is part of the call. -/
namespace HostPimSim.Vfile.Descriptors
open Transition

/-- A `vfile_fd_entry`: the device of a virtual device session and whether that has a close
callback, `O_PATH`, and `owner_fd`, which only such a session has. -/
structure Entry where
  vdev : Option Nat
  closeFn : Bool
  pathOnly : Bool
  ownerFd : Option Nat
  deriving DecidableEq

/-- `kernel` has the open descriptors; those that are a duplicate of a descriptor a virtual
open has returned name the entry of that open. -/
structure State where
  kernel : AList fun _ : Nat => Option Nat
  table : FdTable
  entries : List Entry

/-- The commands `dispatch_fcntl` tells apart, and `F_DUPFD` with its minimum. -/
inductive FcntlCmd where
  | getfl
  | setfl
  | getfd
  | setfd
  | dupfd (minimum : Nat)
  | other
  deriving DecidableEq

/-- `fd` and `newfd` are what the kernel hands out, if it does; `bound` is whether the table
can take a new row; `failing` are the entries whose close callback returns an error. -/
inductive Call where
  | openVirtual (vdev : Option Nat) (closeFn pathOnly : Bool) (fd : Option Nat)
      (bound truncated : Bool)
  | openForwarded (fd : Option Nat)
  | close (fd : Nat) (succeeds : Bool) (failing : List Nat)
  | dup (oldfd : Nat) (newfd : Option Nat) (bound : Bool) (failing : List Nat)
  | dup2 (oldfd newfd : Nat) (isDup3 succeeds bound : Bool) (failing : List Nat)
  | fcntl (fd : Nat) (cmd : FcntlCmd) (newfd : Option Nat)
  | closeRange (first last : Nat) (cloexec succeeds : Bool) (failing : List Nat)
  deriving DecidableEq

def init : State := ⟨∅, ∅, []⟩

def kernelDup (s : State) (oldfd newfd : Nat) : State :=
  { s with kernel := s.kernel.insert newfd ((s.kernel.lookup oldfd).join) }

/-- Linux releases the descriptor also when `close` returns an error. -/
def kernelClose (s : State) (fd : Nat) : State :=
  { s with kernel := s.kernel.erase fd }

/-- `vsyscall_finalize_entry_if_last_alias` returns an error. -/
def finalizeFails (s : State) (failing : List Nat) (entry : Nat) : Bool :=
  !hasAlias s.table entry && (s.entries[entry]?).any (fun e => e.closeFn) &&
    failing.contains entry

/-- `vsyscall_detach_owned_fd_entry` and the finalization in `close_owned_fd`, the kernel
descriptor apart; whether it succeeds. -/
def closeOwnedFd (failing : List Nat) (s : State) (fd : Nat) : State × Bool :=
  match s.table.lookup fd with
  | none => (s, true)
  | some entry =>
      let detached := { s with table := s.table.erase fd }
      (detached, !finalizeFails detached failing entry)

/-- The row of a descriptor that is now a duplicate of an owned one, or of none. -/
def rebindRow (table : FdTable) (target : Nat) : Option Nat → FdTable
  | some entry => table.insert target entry
  | none => table.erase target

/-- `vsyscall_rebind_fd_alias_after_dup` -/
def rebindFdAliasAfterDup (s : State) (target : Nat) (entry : Option Nat)
    (closeTargetFdOnFailure bound : Bool) (failing : List Nat) : State × Int :=
  let failed (s : State) := (if closeTargetFdOnFailure then kernelClose s target else s, -1)
  if entry.isSome ∧ target ∉ s.table ∧ bound = false then failed s
  else
    let rebound := { s with table := rebindRow s.table target entry }
    match s.table.lookup target with
    | some replaced =>
        if entry ≠ some replaced ∧ finalizeFails rebound failing replaced = true then
          failed rebound
        else (rebound, target)
    | none => (rebound, target)

/-- Opens of a virtual node: `fd` comes from the open callback or from `pim_vfile_open`.  An
attribute opened with `O_TRUNC` is truncated last. -/
def openVirtual (s : State) (vdev : Option Nat) (closeFn pathOnly : Bool) (fd : Option Nat)
    (bound truncated : Bool) : State × Int :=
  match fd with
  | none => (s, -1)
  | some fd =>
      let opened : State :=
        { s with
          kernel := s.kernel.insert fd (some s.entries.length)
          entries := s.entries ++ [⟨vdev, closeFn, pathOnly, vdev.map fun _ => fd⟩] }
      if fd ∈ s.table ∨ bound = false then (kernelClose opened fd, -1)
      else
        let tracked := { opened with table := s.table.insert fd s.entries.length }
        if vdev = none ∧ truncated = false then
          (kernelClose { tracked with table := tracked.table.erase fd } fd, -1)
        else (tracked, fd)

def openForwarded (s : State) (fd : Option Nat) : State × Int :=
  match fd with
  | none => (s, -1)
  | some fd => ({ s with kernel := s.kernel.insert fd none }, fd)

def dispatchClose (s : State) (fd : Nat) (succeeds : Bool) (failing : List Nat) :
    State × Int :=
  if fd ∈ s.table then
    let closed := closeOwnedFd failing s fd
    (kernelClose closed.1 fd, if succeeds && closed.2 then 0 else -1)
  else (kernelClose s fd, if succeeds then 0 else -1)

def dispatchDup (s : State) (oldfd : Nat) (newfd : Option Nat) (bound : Bool)
    (failing : List Nat) : State × Int :=
  match newfd with
  | none => (s, -1)
  | some newfd =>
      match s.table.lookup oldfd with
      | none => (kernelDup s oldfd newfd, newfd)
      | some entry =>
          rebindFdAliasAfterDup (kernelDup s oldfd newfd) newfd (some entry) true bound failing

/-- `dup2` and `dup3`, of owned descriptors or forwarded to the kernel. -/
def dispatchDup2 (s : State) (oldfd newfd : Nat) (isDup3 succeeds bound : Bool)
    (failing : List Nat) : State × Int :=
  if oldfd = newfd then (s, if isDup3 then -1 else newfd)
  else if succeeds = false then (s, -1)
  else if oldfd ∈ s.table ∨ newfd ∈ s.table then
    rebindFdAliasAfterDup (kernelDup s oldfd newfd) newfd (s.table.lookup oldfd) false bound
      failing
  else (kernelDup s oldfd newfd, newfd)

/-- The entry of an owned descriptor was opened with `O_PATH`. -/
def ownedPathOnly (s : State) (fd : Nat) : Bool :=
  (s.table.lookup fd).any fun entry => (s.entries[entry]?).any fun e => e.pathOnly

/-- `vsyscall_fcntl_allowed_for_path_only` -/
def FcntlCmd.allowedForPathOnly : FcntlCmd → Bool
  | .getfd | .setfd | .getfl => true
  | .setfl | .dupfd _ | .other => false

/-- `dispatch_fcntl`: the flag words are kept in the entry, every other command goes to the
kernel as it is. -/
def dispatchFcntl (s : State) (fd : Nat) (cmd : FcntlCmd) (newfd : Option Nat) :
    State × Int :=
  if ownedPathOnly s fd && !cmd.allowedForPathOnly then (s, -1)
  else match cmd with
    | .getfl | .setfl | .getfd | .setfd | .other => (s, 0)
    | .dupfd _ =>
        match newfd with
        | none => (s, -1)
        | some newfd => (kernelDup s fd newfd, newfd)

/-- The kernel's `close_range` without `CLOSE_RANGE_CLOEXEC`. -/
def kernelCloseRange (s : State) (first last : Nat) : State :=
  { s with
    kernel := (s.kernel.keys.filter fun fd => first ≤ fd && fd ≤ last).foldl
      (fun kernel fd => kernel.erase fd) s.kernel }

/-- One turn of `vsyscall_sweep_close_range_stale_aliases` -/
def sweepFd (failing : List Nat) (s : State) (fd : Nat) : State × Bool :=
  if fd ∈ s.kernel then (s, true) else closeOwnedFd failing s fd

/-- `vsyscall_finalize_close_range_aliases` -/
def finalizeCloseRangeAliases (s : State) (first last : Nat) (ownedFds failing : List Nat) :
    State × Bool :=
  let closed := attempt (closeOwnedFd failing) s ownedFds
  if closed.2 then
    attempt (sweepFd failing) closed.1 (collectOwnedFdsInRange closed.1.table first last)
  else closed

def dispatchCloseRange (s : State) (first last : Nat) (cloexec succeeds : Bool)
    (failing : List Nat) : State × Int :=
  if succeeds = false then (s, -1)
  else if cloexec then (s, 0)
  else
    let closed := finalizeCloseRangeAliases (kernelCloseRange s first last) first last
      (collectOwnedFdsInRange s.table first last) failing
    (closed.1, if closed.2 then 0 else -1)

def dispatch (s : State) : Call → State × Int
  | .openVirtual vdev closeFn pathOnly fd bound truncated =>
      openVirtual s vdev closeFn pathOnly fd bound truncated
  | .openForwarded fd => openForwarded s fd
  | .close fd succeeds failing => dispatchClose s fd succeeds failing
  | .dup oldfd newfd bound failing => dispatchDup s oldfd newfd bound failing
  | .dup2 oldfd newfd isDup3 succeeds bound failing =>
      dispatchDup2 s oldfd newfd isDup3 succeeds bound failing
  | .fcntl fd cmd newfd => dispatchFcntl s fd cmd newfd
  | .closeRange first last cloexec succeeds failing =>
      dispatchCloseRange s first last cloexec succeeds failing

/-- What the kernel can answer: it hands out descriptors that are not open and duplicates
those that are. -/
def permitted (s : State) : Call → Bool
  | .openVirtual _ _ _ fd _ _ | .openForwarded fd => fd.all fun fd => fd ∉ s.kernel
  | .dup oldfd newfd _ _ => newfd.all fun newfd => oldfd ∈ s.kernel ∧ newfd ∉ s.kernel
  | .dup2 oldfd _ _ succeeds _ _ => succeeds → oldfd ∈ s.kernel
  | .fcntl fd (.dupfd minimum) newfd =>
      newfd.all fun newfd => fd ∈ s.kernel ∧ newfd ∉ s.kernel ∧ minimum ≤ newfd
  | .fcntl _ _ _ | .close _ _ _ | .closeRange _ _ _ _ _ => true

def step (s : State) (call : Call) : Option State :=
  if permitted s call then some (dispatch s call).1 else none

end HostPimSim.Vfile.Descriptors
