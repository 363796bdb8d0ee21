import HostPimSim.Lib.Threads
import HostPimSim.Lib.Transition

/-! The mailbox of one `CTRL_MMIO` region in SIGSEGV mode.  Faulting threads,
the region's callback thread and `pim_device_disable_sigsegv` move one atomic
access or one futex call at a time, from the end of enabling to the join. -/
namespace HostPimSim.Core.Sigsegv
open Threads Transition

inductive FutexWord where
  | wait
  | work
  | exit
  deriving DecidableEq

structure Intercept where
  offset : BitVec 64
  value : BitVec 64
  deriving DecidableEq

/-- Where a faulting thread is in `_pim_sigsegv_handler_func`, after its first
load of a live `node->dev`.  `refused` and `woken` still hold the node. -/
inductive HandlerPc where
  | snapshot
  | guarded
  | refused
  | admitted
  | offsetStored
  | valueStored
  | workStored
  | woken
  | released
  deriving DecidableEq

structure Handler where
  intercept : Intercept
  pc : HandlerPc
  deriving DecidableEq

/-- Where `sigsegv_callback_thread_func` is.  `waiting` is the load of the inner
loop and `blocking` the `FUTEX_WAIT` call after it. -/
inductive CallbackPc where
  | waiting
  | blocking
  | asleep
  | signalled
  | hasWork
  | offsetLoaded (offset : BitVec 64)
  | pairLoaded (pair : Intercept)
  | reset (pair : Intercept)
  | exited
  deriving DecidableEq

/-- The steps of `pim_device_disable_sigsegv` that other threads can see. -/
inductive DisablePc where
  | idle
  | disarmed
  | tombstoned
  | quiescent
  | exitStored
  | joining
  | joined
  deriving DecidableEq

inductive Event where
  | published (pair : Intercept)
  | dispatched (pair : Intercept)
  deriving DecidableEq

/-- The callback context, its list node, and everybody's progress.  `whole` and
`log` only record: whether the value has been stored since the offset last
changed, and the `WORK` stores and handler calls in order. -/
structure State where
  futexWord : FutexWord
  offset : BitVec 64
  value : BitVec 64
  nodeDev : Bool
  sigsegvEnabled : Bool
  activeWithDev : Nat
  handlers : List Handler
  callback : CallbackPc
  disable : DisablePc
  whole : Bool
  log : List Event
  deriving DecidableEq

inductive Action where
  | fault (intercept : Intercept)
  | handler (index : Nat)
  | callback
  | disable
  deriving DecidableEq

def init : State where
  futexWord := .wait
  offset := 0
  value := 0
  nodeDev := true
  sigsegvEnabled := true
  activeWithDev := 0
  handlers := []
  callback := .waiting
  disable := .idle
  whole := false
  log := []

/-- `FUTEX_WAKE` on the word of this context. -/
def CallbackPc.wake : CallbackPc → CallbackPc
  | .asleep => .waiting
  | pc => pc

def handlerStep (s : State) (index : Nat) (handler : Handler) : Option State :=
  let move (pc : HandlerPc) := s.handlers.set index { handler with pc := pc }
  match handler.pc with
  | .snapshot =>
      some { s with activeWithDev := s.activeWithDev + 1, handlers := move .guarded }
  | .guarded =>
      if s.nodeDev && s.sigsegvEnabled then some { s with handlers := move .admitted }
      else some { s with handlers := move .refused }
  | .admitted =>
      some { s with
        offset := handler.intercept.offset
        whole := s.whole && s.offset == handler.intercept.offset
        handlers := move .offsetStored }
  | .offsetStored =>
      some { s with
        value := handler.intercept.value
        whole := true
        handlers := move .valueStored }
  | .valueStored =>
      some { s with
        futexWord := .work
        handlers := move .workStored
        log := s.log ++ [.published handler.intercept] }
  | .workStored =>
      some { s with callback := s.callback.wake, handlers := move .woken }
  | .refused | .woken =>
      some { s with activeWithDev := s.activeWithDev - 1, handlers := move .released }
  | .released => none

def callbackStep (s : State) : Option State :=
  match s.callback with
  | .waiting =>
      some { s with callback := if s.futexWord = .wait then .blocking else .signalled }
  | .blocking =>
      some { s with callback := if s.futexWord = .wait then .asleep else .waiting }
  | .asleep => none
  | .signalled =>
      some { s with callback := if s.futexWord = .exit then .exited else .hasWork }
  | .hasWork => some { s with callback := .offsetLoaded s.offset }
  | .offsetLoaded offset => some { s with callback := .pairLoaded ⟨offset, s.value⟩ }
  | .pairLoaded pair => some { s with futexWord := .wait, callback := .reset pair }
  | .reset pair =>
      some { s with callback := .waiting, log := s.log ++ [.dispatched pair] }
  | .exited => none

/-- `sigsegv_wait_node_quiescent` passes at zero, the join after the callback
thread has returned. -/
def disableStep (s : State) : Option State :=
  match s.disable with
  | .idle => some { s with sigsegvEnabled := false, disable := .disarmed }
  | .disarmed => some { s with nodeDev := false, disable := .tombstoned }
  | .tombstoned =>
      if s.activeWithDev = 0 then some { s with disable := .quiescent } else none
  | .quiescent => some { s with futexWord := .exit, disable := .exitStored }
  | .exitStored => some { s with callback := s.callback.wake, disable := .joining }
  | .joining => if s.callback = .exited then some { s with disable := .joined } else none
  | .joined => none

/-- A thread faults on a handler register and finds the node's device live. -/
def step (s : State) : Action → Option State
  | .fault intercept =>
      if s.nodeDev then
        some { s with handlers := s.handlers ++ [⟨intercept, .snapshot⟩] }
      else none
  | .handler index => (s.handlers[index]?).bind (handlerStep s index)
  | .callback => callbackStep s
  | .disable => disableStep s

end HostPimSim.Core.Sigsegv
