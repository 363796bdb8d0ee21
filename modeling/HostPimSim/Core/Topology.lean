import HostPimSim.Core.PoolTasks
import HostPimSim.Core.Register

/-! The regions of a device, their handler tables and the pool that runs the
handlers.  A region is named by an identity of its own, never used again after
`pim_region_free`, since an offset can be. -/
namespace HostPimSim.Core.Topology
open Register Pool Transition

inductive RegionType where
  | ram
  | ctrlMmio
  | ctrlRw
  deriving DecidableEq

structure DpuHandlerEntry where
  offset : Nat
  depth : BitVec 32
  registerSize : Nat
  handler : Nat
  userData : Nat
  lastValue : BitVec 64
  deriving DecidableEq

structure Region where
  id : Nat
  offset : Nat
  size : Nat
  type : RegionType
  handlers : List DpuHandlerEntry
  nestedHandlers : List DpuHandlerEntry
  deriving DecidableEq

/-- `regions` is in the order of the map, that is by offset. -/
structure State where
  size : Nat
  monitorRunning : Bool
  sigsegvEnabled : Bool
  sigsegvTransitionInProgress : Bool
  regions : List Region
  nextRegion : Nat
  pool : Pool.State

inductive Action where
  | regionCreate (offset size : Nat) (type : RegionType) (allocated : Bool)
  | regionFree (region : Nat)
  | registerDpuHandler (region offset : Nat) (depth : BitVec 32) (registerSize handler
      userData : Nat) (bytes : Bytes) (inserted : Bool)
  | unregisterDpuHandler (region offset : Nat) (depth : BitVec 32)
  | invokeDpuHandler (region offset : Nat) (depth : BitVec 32) (value : BitVec 64)
  | setMonitorRunning (value : Bool)
  | setSigsegvEnabled (value : Bool)
  | setSigsegvTransitionInProgress (value : Bool)
  | pool (action : Pool.Action)

def init (size : Nat) : State where
  size := size
  monitorRunning := false
  sigsegvEnabled := false
  sigsegvTransitionInProgress := false
  regions := []
  nextRegion := 0
  pool := Pool.init

/-- Arithmetic on `size_t`. -/
def wrap (n : Nat) : Nat := n % 2 ^ 64

def isTopologyMutationBlocked (s : State) : Bool :=
  s.pool.teardownInProgress || s.monitorRunning || s.sigsegvEnabled ||
    s.sigsegvTransitionInProgress

def validateHandlerTableMutationStateLocked (s : State) : PimError :=
  if s.pool.teardownInProgress || s.monitorRunning || s.sigsegvTransitionInProgress ||
      s.sigsegvEnabled then .busy
  else .success

/-- The region a handle stands for, as long as it is in `dev->regions`. -/
def State.region? (s : State) (region : Nat) : Option Region :=
  s.regions.find? fun r => r.id == region

/-- `std::map` order: the regions before `lower_bound(offset)`, and the rest. -/
def State.before (s : State) (offset : Nat) : List Region :=
  s.regions.takeWhile fun r => r.offset < offset

def State.lowerBound (s : State) (offset : Nat) : List Region :=
  s.regions.dropWhile fun r => r.offset < offset

def overlapsNext (s : State) (offset size : Nat) : Bool :=
  (s.lowerBound offset).head?.any fun next => wrap (offset + size) > next.offset

def overlapsPrevious (s : State) (offset : Nat) : Bool :=
  (s.before offset).getLast?.any fun prev => wrap (prev.offset + prev.size) > offset

/-- The new handle, if any; `allocated` tells whether `new` and `emplace` find
memory. -/
def pimRegionCreate (s : State) (offset size : Nat) (type : RegionType)
    (allocated : Bool) : Option Nat × State :=
  if size = 0 then (none, s)
  else if isTopologyMutationBlocked s then (none, s)
  else if offset > s.size || size > s.size - offset then (none, s)
  else if overlapsNext s offset size then (none, s)
  else if overlapsPrevious s offset then (none, s)
  else if !allocated then (none, s)
  else
    let region : Region := ⟨s.nextRegion, offset, size, type, [], []⟩
    (some s.nextRegion,
      { s with
        regions := s.before offset ++ region :: s.lowerBound offset
        nextRegion := s.nextRegion + 1 })

def pimRegionFree (s : State) (region : Region) : PimError × State :=
  if isTopologyMutationBlocked s then (.busy, s)
  else match s.regions.find? fun r => r.offset == region.offset with
    | none => (.notFound, s)
    | some found =>
        if found.id ≠ region.id then (.notFound, s)
        else (.success,
          { s with regions := s.regions.eraseP fun r => r.offset == region.offset })

def Region.table (region : Region) (depth : BitVec 32) : List DpuHandlerEntry :=
  if depth = 0 then region.handlers else region.nestedHandlers

def Region.setTable (region : Region) (depth : BitVec 32)
    (table : List DpuHandlerEntry) : Region :=
  if depth = 0 then { region with handlers := table }
  else { region with nestedHandlers := table }

def DpuHandlerEntry.at (offset : Nat) (depth : BitVec 32) (entry : DpuHandlerEntry) : Bool :=
  entry.offset == offset && entry.depth == depth

def State.setRegion (s : State) (region : Region) : State :=
  { s with regions := s.regions.map fun r => if r.id = region.id then region else r }

/-- A call of `dispatch_resolved_dpu_handler` that has not returned. -/
def inCall : DispatchPc → Bool
  | .resolved | .checked | .pushed | .deviceCommited | .regionCommited | .direct => true
  | _ => false

def activeDispatchOps (s : State) (region : Region) : Nat :=
  s.pool.dispatches.countP fun d => inCall d.pc && d.entry.region == region.id

def overlapsHandler (region : Region) (offset : Nat) (depth : BitVec 32)
    (registerSize : Nat) : Bool :=
  (region.table depth).any fun existing =>
    existing.depth == depth && offset < wrap (existing.offset + existing.registerSize) &&
      existing.offset < wrap (offset + registerSize)

/-- `bytes` is the register as it is found; `inserted` tells whether the table
finds memory. -/
def pimRegisterDpuHandler (s : State) (region : Region) (offset : Nat) (depth : BitVec 32)
    (registerSize handler userData : Nat) (bytes : Bytes) (inserted : Bool) :
    PimError × State :=
  if region.type ≠ .ctrlMmio ∨ handler = 0 then (.invalidArg, s)
  else if validateHandlerTableMutationStateLocked s ≠ .success then
    (validateHandlerTableMutationStateLocked s, s)
  else if !pimIsSupportedRegisterSize registerSize then (.invalidArg, s)
  else if offset % registerSize ≠ 0 then (.invalidArg, s)
  else if offset > region.size || registerSize > region.size - offset then (.invalidArg, s)
  else if activeDispatchOps s region ≠ 0 then (.busy, s)
  else if overlapsHandler region offset depth registerSize then (.alreadyExists, s)
  else match pimLoadRegisterU64 bytes registerSize with
    | none => (.invalidArg, s)
    | some initialValue =>
        if !inserted then (.noMemory, s)
        else
          let entry : DpuHandlerEntry :=
            ⟨offset, depth, registerSize, handler, userData, initialValue⟩
          let kept := (region.table depth).filter fun e => !e.at offset depth
          (.success, s.setRegion (region.setTable depth (entry :: kept)))

def pimUnregisterDpuHandler (s : State) (region : Region) (offset : Nat)
    (depth : BitVec 32) : PimError × State :=
  if region.type ≠ .ctrlMmio then (.invalidArg, s)
  else if validateHandlerTableMutationStateLocked s ≠ .success then
    (validateHandlerTableMutationStateLocked s, s)
  else if activeDispatchOps s region ≠ 0 then (.busy, s)
  else if (region.table depth).any (DpuHandlerEntry.at offset depth) then
    (.success, s.setRegion
      (region.setTable depth ((region.table depth).filter fun e => !e.at offset depth)))
  else (.notFound, s)

/-- `resolve_mmio_handler` and its nested variant update the cached value. -/
def DpuHandlerEntry.resolve (value : BitVec 64) (entry : DpuHandlerEntry) :
    DpuHandlerEntry :=
  { entry with lastValue := value &&& pimRegisterValueMask entry.registerSize }

/-- Up to the start of `dispatch_resolved_dpu_handler`, which is the pool's. -/
def pimInvokeDpuHandler (s : State) (region : Region) (offset : Nat) (depth : BitVec 32)
    (value : BitVec 64) : PimError × State :=
  if region.type ≠ .ctrlMmio then (.invalidArg, s)
  else match (region.table depth).find? (DpuHandlerEntry.at offset depth) with
    | none => (.notFound, s)
    | some entry =>
        let table := (region.table depth).map fun e =>
          if e.at offset depth then e.resolve value else e
        let task : PoolTaskEntry :=
          ⟨region.id, BitVec.ofNat 64 offset, depth, value, entry.handler, entry.userData⟩
        let resolved := s.setRegion (region.setTable depth table)
        (.success,
          { resolved with
            pool := { s.pool with
              dispatches := s.pool.dispatches ++ [⟨task, .resolved⟩] } })

/-- Calls that take a region are made with the handle of one that is there. -/
def step (s : State) : Action → Option State
  | .regionCreate offset size type allocated =>
      some (pimRegionCreate s offset size type allocated).2
  | .regionFree region => (s.region? region).map fun r => (pimRegionFree s r).2
  | .registerDpuHandler region offset depth registerSize handler userData bytes inserted =>
      (s.region? region).map fun r =>
        (pimRegisterDpuHandler s r offset depth registerSize handler userData bytes
          inserted).2
  | .unregisterDpuHandler region offset depth =>
      (s.region? region).map fun r => (pimUnregisterDpuHandler s r offset depth).2
  | .invokeDpuHandler region offset depth value =>
      (s.region? region).map fun r => (pimInvokeDpuHandler s r offset depth value).2
  | .setMonitorRunning value => some { s with monitorRunning := value }
  | .setSigsegvEnabled value => some { s with sigsegvEnabled := value }
  | .setSigsegvTransitionInProgress value =>
      some { s with sigsegvTransitionInProgress := value }
  | .pool (.dispatch _) => none
  | .pool action => (Pool.step s.pool action).map fun pool => { s with pool := pool }

end HostPimSim.Core.Topology
