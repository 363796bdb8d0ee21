import HostPimSim.Core.MonitorShards
import HostPimSim.Core.Pool
import HostPimSim.Lib.Mutex

/-! Starting and stopping the monitors and the pool of a device, and tearing the device down.
Any thread may make these calls, those of the device itself among them; the calls meet at
`monitor_ctl_mutex`, `pool_ctl_mutex` and the flag that a teardown sets. -/
namespace HostPimSim.Core.Services
open Threads Transition Pool MonitorShards

inductive Service where
  | monitor
  | pool
  deriving DecidableEq

structure Thread where
  service : Service
  number : Nat
  deriving DecidableEq

/-- `monitor_ctl_mutex` with the call that holds it, `monitor_running`, `monitor_threads` and
`num_monitors`, or the same of the pool. -/
structure Crew where
  ctlMutex : Option Nat
  running : Bool
  threads : List Thread
  size : Nat

inductive Op where
  | startMonitor (numMonitors : BitVec 32) (totalMmioRegions : Nat)
  | stopMonitor
  | poolStart (limitConcurrency hardwareConcurrency : Nat)
  | poolStop
  | setMaxActiveDpus (concurrency : Nat)
  | finalize
  deriving DecidableEq

/-- Where a call is: `pim_device_finalize` at `beginning`, `inspecting`, `inspectingCallbacks`,
`disabling` and `deleting`, any call at the others; from `locked` to `unlocking` it holds the
mutex. -/
inductive Pc where
  | beginning
  | inspecting (service : Service)
  | inspectingCallbacks
  | waiting (service : Service)
  | locked (service : Service)
  | spawning (service : Service) (left : Nat)
  | expanding (left target : Nat)
  | joining (service : Service) (after : AfterJoin)
  | unlocking (service : Service) (result : PimError)
  | disabling
  | deleting
  | returned (result : PimError)
  deriving DecidableEq

/-- A call, and the thread of the device that makes it if it is one. -/
structure Call where
  caller : Option Thread
  op : Op
  pc : Pc
  deriving DecidableEq

/-- `alive` are the threads of the device that run. -/
structure State where
  teardownInProgress : Bool
  sigsegvTransitionInProgress : Bool
  crews : Service → Crew
  alive : List Thread
  created : Nat
  calls : List Call
  deleted : Bool

/-- `outcome` is what the library or the SIGSEGV layer reports in the step. -/
inductive Action where
  | call (caller : Option Thread) (op : Op)
  | advance (index : Nat) (outcome : PimError)
  | throw (thread : Thread)
  | exit (thread : Thread)
  | setSigsegvTransition (value : Bool)
  deriving DecidableEq

def init : State where
  teardownInProgress := false
  sigsegvTransitionInProgress := false
  crews := fun _ => ⟨none, false, [], 0⟩
  alive := []
  created := 0
  calls := []
  deleted := false

def State.setCrew (s : State) (service : Service) (f : Crew → Crew) : State :=
  { s with crews := fun v => if v = service then f (s.crews v) else s.crews v }

/-- `emplace_back` of a thread that starts to run. -/
def State.spawn (s : State) (service : Service) : State :=
  let thread : Thread := ⟨service, s.created⟩
  { s.setCrew service fun crew => { crew with threads := crew.threads ++ [thread] } with
    alive := s.alive ++ [thread]
    created := s.created + 1 }

/-- `pim_current_thread_in_thread_vector_locked` -/
def Call.currentThreadIn (call : Call) (threads : List Thread) : Bool :=
  call.caller.any fun thread => threads.contains thread

def startFailureError (s : State) : Service → PimError
  | .monitor => .noMemory
  | .pool => if s.teardownInProgress then .busy else .noMemory

/-- `pool_start_locked` up to the loop over threads. -/
def poolStartLocked (s : State) (concurrency : Nat) : State × Pc :=
  if s.teardownInProgress then (s, .unlocking .pool (startFailureError s .pool))
  else if (s.crews .pool).running then (s, .unlocking .pool .success)
  else
    (s.setCrew .pool fun crew => { crew with running := true, size := concurrency },
      .spawning .pool concurrency)

def startMonitorLocked (s : State) (numMonitors : BitVec 32) (totalMmioRegions : Nat) :
    State × Pc :=
  if s.teardownInProgress || s.sigsegvTransitionInProgress then (s, .unlocking .monitor .busy)
  else if (s.crews .monitor).running then (s, .unlocking .monitor .alreadyExists)
  else
    let actual := actualMonitors numMonitors totalMmioRegions
    (s.setCrew .monitor fun crew => { crew with running := true, size := actual },
      .spawning .monitor actual)

/-- What a call goes on with when the threads of a service are joined and forgotten. -/
def joined (s : State) (service : Service) : AfterJoin → State × Pc
  | .stopped => (s, .unlocking service .success)
  | .startFailed => (s, .unlocking service (startFailureError s service))
  | .restart count =>
      if count > 0 then poolStartLocked s count else (s, .unlocking service .success)

/-- `pim_stop_monitor` and `pool_stop_locked` up to the join; only the pool passes over it when
there is nothing to join. -/
def stopLocked (s : State) (service : Service) (after : AfterJoin) : State × Pc :=
  let crew := s.crews service
  if service = .pool && !crew.running && crew.threads.isEmpty then
    joined (s.setCrew service fun crew => { crew with size := 0 }) service after
  else (s.setCrew service fun crew => { crew with running := false }, .joining service after)

def setMaxActiveDpusLocked (s : State) (concurrency : Nat) : State × Pc :=
  let crew := s.crews .pool
  let resized := s.setCrew .pool fun crew => { crew with size := concurrency }
  if s.teardownInProgress then (s, .unlocking .pool .busy)
  else if !crew.running then (resized, .unlocking .pool .success)
  else if concurrency = crew.threads.length then (resized, .unlocking .pool .success)
  else if concurrency > crew.threads.length then
    (s, .expanding (concurrency - crew.threads.length) concurrency)
  else stopLocked s .pool (.restart concurrency)

def lockedStep (s : State) (call : Call) (service : Service) : State × Pc :=
  match call.op with
  | .startMonitor numMonitors totalMmioRegions =>
      startMonitorLocked s numMonitors totalMmioRegions
  | .poolStart limit hw =>
      poolStartLocked s (if limit = 0 then poolGetHardwareConcurrencyLimit hw else limit)
  | .stopMonitor | .poolStop | .finalize =>
      if call.currentThreadIn (s.crews service).threads then (s, .unlocking service .busy)
      else stopLocked s service .stopped
  | .setMaxActiveDpus concurrency =>
      if call.currentThreadIn (s.crews .pool).threads then (s, .unlocking .pool .busy)
      else setMaxActiveDpusLocked s concurrency

def Call.leave (call : Call) (service : Service) (result : PimError) : Pc :=
  match call.op, service with
  | .finalize, .monitor => .waiting .pool
  | .finalize, .pool => .disabling
  | _, _ => .returned result

/-- The next step of a call: what it does to the device, and where it leads.  A thread that is to
join itself waits here; the source ends the process. -/
def callNext (s : State) (index : Nat) (call : Call) (outcome : PimError) :
    Option (State × Pc) :=
  match call.pc with
  | .beginning =>
      if s.teardownInProgress then some (s, .returned .busy)
      else some ({ s with teardownInProgress := true }, .inspecting .monitor)
  | .inspecting service =>
      if (s.crews service).ctlMutex.isSome then none
      else if call.currentThreadIn (s.crews service).threads then
        some ({ s with teardownInProgress := false }, .returned .busy)
      else match service with
        | .monitor => some (s, .inspecting .pool)
        | .pool => some (s, .inspectingCallbacks)
  | .inspectingCallbacks =>
      if outcome = .success then some (s, .waiting .monitor)
      else some ({ s with teardownInProgress := false }, .returned .busy)
  | .waiting service =>
      if (s.crews service).ctlMutex.isSome then none
      else some (s.setCrew service fun crew => { crew with ctlMutex := some index }, .locked service)
  | .locked service => some (lockedStep s call service)
  | .spawning service 0 => some (s, .unlocking service .success)
  | .spawning service (left + 1) =>
      if outcome = .success then some (s.spawn service, .spawning service left)
      else
        some (s.setCrew service fun crew => { crew with running := false },
          .joining service .startFailed)
  | .expanding 0 target =>
      some (s.setCrew .pool fun crew => { crew with size := target }, .unlocking .pool .success)
  | .expanding (left + 1) target =>
      if outcome = .success then some (s.spawn .pool, .expanding left target)
      else
        some (s.setCrew .pool fun crew => { crew with size := crew.threads.length },
          .unlocking .pool (startFailureError s .pool))
  | .joining service after =>
      if (s.crews service).threads.any fun thread => s.alive.contains thread then none
      else
        some (joined (s.setCrew service fun crew => { crew with threads := [], size := 0 })
          service after)
  | .unlocking service result =>
      some (s.setCrew service fun crew => { crew with ctlMutex := none },
        call.leave service result)
  | .disabling =>
      if outcome = .success then some (s, .deleting)
      else some ({ s with teardownInProgress := false }, .returned outcome)
  | .deleting => some ({ s with deleted := true }, .returned .success)
  | .returned _ => none

def callStep (s : State) (index : Nat) (call : Call) (outcome : PimError) : Option State :=
  (callNext s index call outcome).map fun next =>
    { next.1 with calls := next.1.calls.set index { call with pc := next.2 } }

def Op.start : Op → Pc
  | .startMonitor _ _ | .stopMonitor => .waiting .monitor
  | .poolStart _ _ | .poolStop | .setMaxActiveDpus _ => .waiting .pool
  | .finalize => .beginning

def Pc.returns : Pc → Bool
  | .returned _ => true
  | _ => false

/-- A thread of the device that is free to make a call or to end. -/
def State.idle (s : State) (thread : Thread) : Bool :=
  s.alive.contains thread &&
    s.calls.all fun call => call.caller != some thread || call.pc.returns

def State.end (s : State) (thread : Thread) : State :=
  { s with alive := s.alive.filter (· ≠ thread) }

/-- A worker ends when the service does not run, a monitor thread also when a scan throws.
There is no step on a device that is deleted. -/
def step (s : State) (action : Action) : Option State :=
  if s.deleted then none
  else match action with
    | .call caller op =>
        if caller.all s.idle then some { s with calls := s.calls ++ [⟨caller, op, op.start⟩] }
        else none
    | .advance index outcome =>
        (s.calls[index]?).bind fun call => callStep s index call outcome
    | .throw thread =>
        if s.idle thread && thread.service = .monitor then
          some ((s.setCrew .monitor fun crew => { crew with running := false }).end thread)
        else none
    | .exit thread =>
        if s.idle thread && !(s.crews thread.service).running then some (s.end thread) else none
    | .setSigsegvTransition value => some { s with sigsegvTransitionInProgress := value }

end HostPimSim.Core.Services
