import HostPimSim.Core.Register
import HostPimSim.Lib.Threads
import HostPimSim.Lib.Transition

/-! One registered `CTRL_MMIO` register under polling.  The scan thread, the
in-process `pim_write` calls and external processes move one atomic access at
a time.  Registration and SIGSEGV mode are excluded while a monitor runs, so
the handler table and the `region_dispatch_guard` do not appear here. -/
namespace HostPimSim.Core.Monitor
open Register Threads Transition

/-- A register width that `pim_register_dpu_handler` and `pim_write` accept. -/
abbrev RegisterSize := { size : Nat // pimIsSupportedRegisterSize size = true }

/-- How far one `write_and_invoke_handler` call has come. -/
inductive WritePc where
  | begun
  | stored
  | cached
  | ended
  | returned
  deriving DecidableEq

structure WriteCall where
  size : RegisterSize
  value : BitVec 64
  pc : WritePc

/-- `static_cast<T>` of the argument for the register width of the call. -/
def WriteCall.typed (call : WriteCall) : BitVec 64 := truncate call.size.val call.value

/-- Between `mmio_handler_mark_write_begin` and `mmio_handler_mark_write_end`. -/
def WriteCall.inProgress (call : WriteCall) : Bool :=
  match call.pc with
  | .begun | .stored | .cached => true
  | .ended | .returned => false

/-- Where the scan is in `monitor_refresh_entry_snapshot_volatile` for this
entry.  `pending` is the queued handler of the dispatch phase. -/
inductive MonitorPc where
  | idle
  | sampling (seqBefore : BitVec 32) (index : Nat) (loaded : BitVec 64)
  | rechecked (loaded : BitVec 64)
  | pending (value : BitVec 64)
  deriving DecidableEq

/-- The entry's atomics, the register bytes and everybody's progress.  The
last two fields only record: the values handlers were called with, and every
content the register has had. -/
structure State where
  bytes : Bytes
  lastValue : BitVec 64
  writeSeq : BitVec 32
  monitor : MonitorPc
  writes : List WriteCall
  invocations : List (BitVec 64)
  held : List Bytes

inductive Action where
  | scan
  | pimWrite (size : RegisterSize) (value : BitVec 64)
  | resume (call : Nat)
  | externalWrite (value : BitVec 64)

/-- Registration takes the current register bytes as the baseline. -/
def init (registerSize : RegisterSize) (bytes : Bytes) : State where
  bytes := bytes
  lastValue := loadBytes bytes registerSize.val
  writeSeq := 0
  monitor := .idle
  writes := []
  invocations := []
  held := [bytes]

def isOdd (seq : BitVec 32) : Bool := seq &&& 1 != 0

/-- The next atomic access of the scan thread.  A refused sample returns
`false` to `monitor_scan`, which then moves on. -/
def scanStep (registerSize : RegisterSize) (s : State) : State :=
  match s.monitor with
  | .idle =>
      if isOdd s.writeSeq then s
      else { s with monitor := .sampling s.writeSeq 0 0 }
  | .sampling seqBefore index loaded =>
      if index < registerSize.val then
        let loaded := loaded ||| (s.bytes index).setWidth 64 <<< (index * 8)
        { s with monitor := .sampling seqBefore (index + 1) loaded }
      else if seqBefore != s.writeSeq || isOdd s.writeSeq then
        { s with monitor := .idle }
      else { s with monitor := .rechecked loaded }
  | .rechecked loaded =>
      { s with
        lastValue := loaded
        monitor := if s.lastValue != loaded then .pending loaded else .idle }
  | .pending value =>
      { s with invocations := s.invocations ++ [value], monitor := .idle }

/-- The next atomic access of a `pim_write` that has marked its begin. -/
def writeStep (registerSize : RegisterSize) (s : State) (index : Nat)
    (call : WriteCall) : Option State :=
  let move (pc : WritePc) := s.writes.set index { call with pc := pc }
  match call.pc with
  | .begun =>
      let bytes := store s.bytes call.size.val call.typed
      some { s with bytes := bytes, held := s.held ++ [bytes], writes := move .stored }
  | .stored =>
      some { s with
        lastValue := call.typed &&& pimRegisterValueMask registerSize.val
        writes := move .cached }
  | .cached => some { s with writeSeq := s.writeSeq + 1, writes := move .ended }
  | .ended =>
      some { s with invocations := s.invocations ++ [call.typed], writes := move .returned }
  | .returned => none

def step (registerSize : RegisterSize) (s : State) : Action → Option State
  | .scan => some (scanStep registerSize s)
  | .pimWrite size value =>
      some { s with
        writeSeq := s.writeSeq + 1
        writes := s.writes ++ [⟨size, value, .begun⟩] }
  | .resume index =>
      (s.writes[index]?).bind (writeStep registerSize s index)
  | .externalWrite value =>
      let bytes := store s.bytes registerSize.val value
      some { s with bytes := bytes, held := s.held ++ [bytes] }

theorem isOdd_eq (seq : BitVec 32) : isOdd seq = decide (seq.toNat % 2 = 1) := by
  have hand : seq &&& 1 = 0 ↔ seq.toNat % 2 = 0 := by
    rw [← BitVec.toNat_inj]
    simp [Nat.and_one_is_mod]
  rw [isOdd, Bool.eq_iff_iff]
  simp only [bne_iff_ne, ne_eq, hand, decide_eq_true_eq]
  omega

@[simp] theorem isOdd_add_one (seq : BitVec 32) : isOdd (seq + 1#32) = !isOdd seq := by
  rw [isOdd_eq, isOdd_eq, Bool.eq_iff_iff]
  have hone : (1#32).toNat = 1 := rfl
  simp only [BitVec.toNat_add, hone, Bool.not_eq_true', decide_eq_true_eq,
    decide_eq_false_iff_not]
  omega

end HostPimSim.Core.Monitor
