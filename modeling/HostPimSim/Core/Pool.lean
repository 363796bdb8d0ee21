import HostPimSim.Lib.Threads
import HostPimSim.Lib.Transition

/-! The handler pool of one device: dispatching threads, workers, barrier
waiters and the control calls under `pool_ctl_mutex`.  A critical section of
`pool_mutex` is one step, except in `pool_submit`, whose two counter updates
other threads can see separately. -/
namespace HostPimSim.Core.Pool
open Threads Transition

inductive PimError where
  | success
  | invalidArg
  | noMemory
  | notFound
  | alreadyExists
  | busy
  deriving DecidableEq

structure PoolTaskEntry where
  region : Nat
  offset : BitVec 64
  depth : BitVec 32
  value : BitVec 64
  handler : Nat
  userData : Nat
  deriving DecidableEq

abbrev Key := Option Nat

/-- Where a call of `dispatch_resolved_dpu_handler` is.  The caller moves it up
to `accepted`, where `pool_submit` has returned, and a worker from there. -/
inductive DispatchPc where
  | resolved
  | checked
  | pushed
  | deviceCommited
  | regionCommited
  | accepted
  | taken
  | executed
  | deviceFinished
  | regionFinished
  | direct
  | ran
  deriving DecidableEq

structure Dispatch where
  entry : PoolTaskEntry
  pc : DispatchPc
  deriving DecidableEq

structure Task where
  dispatch : Nat
  entry : PoolTaskEntry
  deriving DecidableEq

/-- Where `pool_worker_func` is.  `ready` is before its critical section,
`blocked` inside `pool_cv.wait`. -/
inductive WorkerPc where
  | ready
  | blocked
  | running (task : Task)
  | finishing (task : Task) (key : Key)
  | counted (task : Task) (key : Key) (finished : BitVec 32)
  | waking (task : Task) (key : Key)
  | exited
  deriving DecidableEq

/-- What `pim_join_and_clear_threads` is called for. -/
inductive AfterJoin where
  | startFailed
  | stopped
  | restart (count : Nat)
  deriving DecidableEq

/-- The control call that holds `pool_ctl_mutex`. -/
inductive ControlPc where
  | idle
  | starting (count : Nat)
  | spawning (left : Nat)
  | expanding (left : Nat) (target : Nat)
  | stopping (after : AfterJoin)
  | notifying (after : AfterJoin)
  | waking (after : AfterJoin)
  | joining (after : AfterJoin)
  | joined (after : AfterJoin)
  | finishing (after : AfterJoin)
  deriving DecidableEq

/-- A control call: whether it is a stop or a shrinking resize, and the tasks
accepted before it was made. -/
structure Call where
  drains : Bool
  before : List Nat
  deriving DecidableEq

structure Return where
  call : Call
  result : PimError
  deriving DecidableEq

/-- Where `pim_wait_pool_barrier` is; `entered` waits for `pool_ctl_mutex`. -/
inductive WaiterPc where
  | entered
  | polling
  | finishedLoaded (finished : BitVec 32)
  | sleeping (finished : BitVec 32)
  | asleep (finished : BitVec 32)
  | returned
  deriving DecidableEq

structure Waiter where
  key : Key
  due : List Nat
  pc : WaiterPc
  deriving DecidableEq

/-- The last six fields only record: the current control call, the returned
ones, and in order the pushes, the pops and the handler runs of either kind. -/
structure State where
  poolRunning : Bool
  teardownInProgress : Bool
  poolMutex : Option Nat
  taskQueue : List Task
  futexCntCommited : Key → BitVec 32
  futexCntFinished : Key → BitVec 32
  maxActiveDpus : Nat
  dispatches : List Dispatch
  workers : List WorkerPc
  waiters : List Waiter
  control : ControlPc
  call : Call
  returns : List Return
  submissions : List Nat
  dequeued : List Nat
  ranDirectly : List Nat
  ranInPool : List Nat

inductive Action where
  | dispatch (entry : PoolTaskEntry)
  | advance (index : Nat) (notified : Nat)
  | pushFails (index : Nat)
  | worker (index : Nat)
  | poolStart (limitConcurrency hardwareConcurrency : Nat)
  | poolStop (caller : Option Nat)
  | setMaxActiveDpus (caller : Option Nat) (concurrency : Nat)
  | control (spawned : Bool)
  | barrier (key : Key)
  | waiter (index : Nat)
  | setTeardown (value : Bool)
  deriving DecidableEq

def init : State where
  poolRunning := false
  teardownInProgress := false
  poolMutex := none
  taskQueue := []
  futexCntCommited := fun _ => 0
  futexCntFinished := fun _ => 0
  maxActiveDpus := 0
  dispatches := []
  workers := []
  waiters := []
  control := .idle
  call := ⟨false, []⟩
  returns := []
  submissions := []
  dequeued := []
  ranDirectly := []
  ranInPool := []

def poolGetHardwareConcurrencyLimit (hw : Nat) : Nat := if hw = 0 then 1 else hw

def poolStartFailureError (s : State) : PimError :=
  if s.teardownInProgress then .busy else .noMemory

/-- `fetch_add(1)` on the counter of `key`. -/
def bump (counter : Key → BitVec 32) (key : Key) : Key → BitVec 32 :=
  fun k => if k = key then counter k + 1 else counter k

/-- `pool_cv.notify_one()`: `notified` is the waiting worker the library picks. -/
def notifyOne (workers : List WorkerPc) (notified : Nat) : Option (List WorkerPc) :=
  if workers[notified]? = some .blocked then some (workers.set notified .ready)
  else if .blocked ∈ workers then none
  else some workers

def WorkerPc.notify : WorkerPc → WorkerPc
  | .blocked => .ready
  | pc => pc

def Waiter.wake (waiter : Waiter) : Waiter :=
  match waiter.pc with
  | .asleep _ => { waiter with pc := .polling }
  | _ => waiter

/-- `FUTEX_WAKE` of everyone on the counter of `key`. -/
def wakeBarrier (key : Key) (waiters : List Waiter) : List Waiter :=
  waiters.map fun waiter => if waiter.key = key then waiter.wake else waiter

/-- The calling thread's next step in `dispatch_resolved_dpu_handler` and
`pool_submit`.  The push and the check before it are one critical section. -/
def dispatchStep (s : State) (index notified : Nat) (dispatch : Dispatch) : Option State :=
  let move (pc : DispatchPc) := s.dispatches.set index { dispatch with pc := pc }
  match dispatch.pc with
  | .resolved =>
      some { s with dispatches := move (if s.poolRunning then .checked else .direct) }
  | .checked =>
      if s.poolMutex ≠ none then none
      else if !s.poolRunning then some { s with dispatches := move .direct }
      else (notifyOne s.workers notified).map fun workers =>
        { s with
          poolMutex := some index
          taskQueue := s.taskQueue ++ [⟨index, dispatch.entry⟩]
          workers := workers
          dispatches := move .pushed
          submissions := s.submissions ++ [index] }
  | .pushed =>
      some { s with
        futexCntCommited := bump s.futexCntCommited none
        dispatches := move .deviceCommited }
  | .deviceCommited =>
      some { s with
        futexCntCommited := bump s.futexCntCommited (some dispatch.entry.region)
        dispatches := move .regionCommited }
  | .regionCommited => some { s with poolMutex := none, dispatches := move .accepted }
  | .direct =>
      some { s with dispatches := move .ran, ranDirectly := s.ranDirectly ++ [index] }
  | .accepted | .taken | .executed | .deviceFinished | .regionFinished | .ran => none

/-- `task_queue.push` throws; `pool_submit` refuses. -/
def pushFailsStep (s : State) (index : Nat) (dispatch : Dispatch) : Option State :=
  if dispatch.pc = .checked ∧ s.poolMutex = none ∧ s.poolRunning = true then
    some { s with dispatches := s.dispatches.set index { dispatch with pc := .direct } }
  else none

/-- After the device counters come those of the region, then the next task. -/
def WorkerPc.next (task : Task) : Key → WorkerPc
  | none => .finishing task (some task.entry.region)
  | some _ => .ready

def finishedPc : Key → DispatchPc
  | none => .deviceFinished
  | some _ => .regionFinished

def workerStep (s : State) (index : Nat) (worker : WorkerPc) : Option State :=
  let move (pc : WorkerPc) := s.workers.set index pc
  let mark (task : Task) (pc : DispatchPc) :=
    s.dispatches.set task.dispatch ⟨task.entry, pc⟩
  match worker with
  | .ready =>
      if s.poolMutex ≠ none then none
      else match s.taskQueue with
        | task :: rest =>
            some { s with
              taskQueue := rest
              workers := move (.running task)
              dispatches := mark task .taken
              dequeued := s.dequeued ++ [task.dispatch] }
        | [] => some { s with workers := move (if s.poolRunning then .blocked else .exited) }
  | .running task =>
      some { s with
        workers := move (.finishing task none)
        dispatches := mark task .executed
        ranInPool := s.ranInPool ++ [task.dispatch] }
  | .finishing task key =>
      some { s with
        futexCntFinished := bump s.futexCntFinished key
        workers := move (.counted task key (s.futexCntFinished key + 1))
        dispatches := mark task (finishedPc key) }
  | .counted task key finished =>
      some { s with
        workers := move
          (if finished = s.futexCntCommited key then .waking task key else .next task key) }
  | .waking task key =>
      some { s with
        workers := move (.next task key)
        waiters := wakeBarrier key s.waiters }
  | .blocked | .exited => none

def State.return (s : State) (result : PimError) : State :=
  { s with control := .idle, returns := s.returns ++ [⟨s.call, result⟩] }

/-- `pool_start_locked` up to the loop over threads.  A limit of zero is for the
caller to resolve. -/
def poolStartLocked (s : State) (count : Nat) : State :=
  if s.teardownInProgress then s.return (poolStartFailureError s)
  else if s.poolRunning then s.return .success
  else { s with maxActiveDpus := count, control := .starting count }

/-- The next step of the control call; `spawned` tells whether the thread it may
create comes up. -/
def controlStep (s : State) (spawned : Bool) : Option State :=
  match s.control with
  | .idle => none
  | .starting count => some { s with poolRunning := true, control := .spawning count }
  | .spawning 0 => some (s.return .success)
  | .spawning (left + 1) =>
      if spawned then
        some { s with workers := s.workers ++ [.ready], control := .spawning left }
      else some { s with control := .stopping .startFailed }
  | .expanding 0 target => some ({ s with maxActiveDpus := target }.return .success)
  | .expanding (left + 1) target =>
      if spawned then
        some { s with workers := s.workers ++ [.ready], control := .expanding left target }
      else
        some ({ s with maxActiveDpus := s.workers.length }.return (poolStartFailureError s))
  | .stopping after =>
      if s.poolRunning = false ∧ s.workers = [] ∧ after ≠ .startFailed then
        some { s with maxActiveDpus := 0, control := .finishing after }
      else some { s with poolRunning := false, control := .notifying after }
  | .notifying after =>
      some { s with workers := s.workers.map WorkerPc.notify, control := .waking after }
  | .waking after =>
      some { s with
        waiters := if after = .startFailed then s.waiters else s.waiters.map Waiter.wake
        control := .joining after }
  | .joining after =>
      if ∀ worker ∈ s.workers, worker = .exited then
        some { s with workers := [], maxActiveDpus := 0, control := .joined after }
      else none
  | .joined after =>
      some { s with
        waiters := if after = .startFailed then s.waiters else s.waiters.map Waiter.wake
        control := .finishing after }
  | .finishing .startFailed => some (s.return (poolStartFailureError s))
  | .finishing .stopped => some (s.return .success)
  | .finishing (.restart count) =>
      some (if count = 0 then s.return .success else poolStartLocked s count)

/-- Who makes a control call: a thread of the program, or the worker at this
index out of the handler it runs. -/
def mayCall (s : State) (caller : Option Nat) : Bool :=
  match caller with
  | none => true
  | some index =>
      match s.workers[index]? with
      | some (.running _) => true
      | _ => false

def poolStart (s : State) (limitConcurrency hardwareConcurrency : Nat) : State :=
  poolStartLocked { s with call := ⟨false, s.submissions⟩ }
    (if limitConcurrency = 0 then poolGetHardwareConcurrencyLimit hardwareConcurrency
    else limitConcurrency)

def poolStop (s : State) (caller : Option Nat) : State :=
  let called := { s with call := ⟨true, s.submissions⟩ }
  if caller.isSome then called.return .busy
  else { called with control := .stopping .stopped }

def setMaxActiveDpus (s : State) (caller : Option Nat) (concurrency : Nat) : State :=
  let shrinks := s.poolRunning && decide (concurrency < s.workers.length)
  let called := { s with call := ⟨shrinks, s.submissions⟩ }
  if caller.isSome then called.return .busy
  else if s.teardownInProgress then called.return .busy
  else if !s.poolRunning then { called with maxActiveDpus := concurrency }.return .success
  else if concurrency = s.workers.length then
    { called with maxActiveDpus := concurrency }.return .success
  else if concurrency > s.workers.length then
    { called with control := .expanding (concurrency - s.workers.length) concurrency }
  else { called with control := .stopping (.restart concurrency) }

/-- `pool_submit` has returned true. -/
def DispatchPc.submitted : DispatchPc → Bool
  | .accepted | .taken | .executed | .deviceFinished | .regionFinished => true
  | _ => false

/-- The task is counted by the counters of `key`. -/
def PoolTaskEntry.concerns (key : Key) (entry : PoolTaskEntry) : Bool :=
  key.all fun region => entry.region == region

/-- The dispatches of `key` whose `pool_submit` has returned. -/
def State.submittedFor (s : State) (key : Key) : List Nat :=
  (List.range s.dispatches.length).filter fun index =>
    (s.dispatches[index]?).any fun dispatch =>
      dispatch.pc.submitted && dispatch.entry.concerns key

def waiterStep (s : State) (index : Nat) (waiter : Waiter) : Option State :=
  let move (pc : WaiterPc) := s.waiters.set index { waiter with pc := pc }
  match waiter.pc with
  | .entered => if s.control = .idle then some { s with waiters := move .polling } else none
  | .polling =>
      some { s with waiters := move (.finishedLoaded (s.futexCntFinished waiter.key)) }
  | .finishedLoaded finished =>
      some { s with
        waiters := move
          (if finished = s.futexCntCommited waiter.key then .returned
          else .sleeping finished) }
  | .sleeping finished =>
      some { s with
        waiters := move
          (if s.futexCntFinished waiter.key = finished then .asleep finished
          else .polling) }
  | .asleep _ | .returned => none

/-- Control calls wait for `pool_ctl_mutex`. -/
def step (s : State) : Action → Option State
  | .dispatch entry => some { s with dispatches := s.dispatches ++ [⟨entry, .resolved⟩] }
  | .advance index notified =>
      (s.dispatches[index]?).bind (dispatchStep s index notified)
  | .pushFails index => (s.dispatches[index]?).bind (pushFailsStep s index)
  | .worker index => (s.workers[index]?).bind (workerStep s index)
  | .poolStart limitConcurrency hardwareConcurrency =>
      if s.control = .idle then some (poolStart s limitConcurrency hardwareConcurrency)
      else none
  | .poolStop caller =>
      if s.control = .idle ∧ mayCall s caller = true then some (poolStop s caller) else none
  | .setMaxActiveDpus caller concurrency =>
      if s.control = .idle ∧ mayCall s caller = true then
        some (setMaxActiveDpus s caller concurrency)
      else none
  | .control spawned => controlStep s spawned
  | .barrier key =>
      some { s with waiters := s.waiters ++ [⟨key, s.submittedFor key, .entered⟩] }
  | .waiter index => (s.waiters[index]?).bind (waiterStep s index)
  | .setTeardown value => some { s with teardownInProgress := value }

end HostPimSim.Core.Pool
