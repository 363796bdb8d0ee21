import HostPimSim.Core.Topology

/-! Writes to the memory of a device through its regions, all of whose pages may be written: in
SIGSEGV mode a store to an MMIO page faults, and is left to the signal handler.  Addresses are
offsets from `dev->ptr`, so byte `i` of a region is at `region->offset + i`. -/
namespace HostPimSim.Core.Access
open Register Pool HostPimSim.Core.Topology

/-- `invoked` lists the handlers that `pim_write` has called on the thread of its caller. -/
structure Device where
  topology : Topology.State
  memory : Bytes
  invoked : List PoolTaskEntry

def checkBounds (region : Region) (offset accessSize : Nat) : Bool :=
  offset ≤ region.size && accessSize ≤ region.size - offset

def isAligned (offset alignment : Nat) : Bool :=
  alignment == 0 || offset % alignment == 0

def getTypedRegionPtr (region : Region) (offset size : Nat) : Option Nat :=
  if !isAligned offset size then none
  else if !checkBounds region offset size then none
  else some (region.offset + offset)

def getRegionBytePtr (region : Region) (offset size : Nat) : Option Nat :=
  if !checkBounds region offset size then none else some (region.offset + offset)

/-- `count` bytes at an address, each given by its index. -/
def fill (memory : Bytes) (target count : Nat) (data : Bytes) : Bytes :=
  fun address =>
    if target ≤ address ∧ address < target + count then data (address - target)
    else memory address

/-- Byte `index` of a little-endian value. -/
def byteOf (value : BitVec 64) (index : Nat) : BitVec 8 :=
  (value >>> (index * 8)).setWidth 8

def bytesAt (memory : Bytes) (address : Nat) : Bytes :=
  fun i => memory (address + i)

def findEntry (region : Region) (offset : Nat) : Option DpuHandlerEntry :=
  if region.type = .ctrlMmio then region.handlers.find? (DpuHandlerEntry.at offset 0) else none

/-- `last_value` of the entry at the offset takes the written value, cut to its register. -/
def Device.cache (d : Device) (region : Region) (offset : Nat) (value : BitVec 64) : Device :=
  { d with
    topology := d.topology.setRegion
      { region with
        handlers := region.handlers.map fun e =>
          if e.at offset 0 then e.resolve value else e } }

def Device.storeValue (d : Device) (target size : Nat) (value : BitVec 64) : Device :=
  { d with memory := fill d.memory target size (byteOf value) }

def writeAndInvokeHandler (d : Device) (region : Region) (offset size : Nat)
    (value : BitVec 64) (target : Nat) : Device :=
  let stored := d.storeValue target size value
  match findEntry region offset with
  | none => stored
  | some entry =>
      if d.topology.sigsegvEnabled then stored
      else
        let cached := stored.cache region offset value
        if entry.handler = 0 then cached
        else
          { cached with
            invoked := cached.invoked ++
              [⟨region.id, BitVec.ofNat 64 offset, 0, value, entry.handler, entry.userData⟩] }

def writeRawAtomic (d : Device) (region : Region) (offset size : Nat) (value : BitVec 64)
    (target : Nat) : Device :=
  let stored := d.storeValue target size value
  match findEntry region offset with
  | none => stored
  | some _ => if d.topology.sigsegvEnabled then stored else stored.cache region offset value

def pimIsSupportedAccessSize (size : Nat) : Bool :=
  size == 1 || size == 2 || size == 4 || size == 8

def writeSizedValue (rawWrite : Bool) (d : Device) (region : Region) (offset size : Nat)
    (value : BitVec 64) : PimError × Device :=
  if !pimIsSupportedAccessSize size then (.invalidArg, d)
  else match getTypedRegionPtr region offset size with
    | none => (.invalidArg, d)
    | some target =>
        let value := truncate size value
        (.success,
          if rawWrite then writeRawAtomic d region offset size value target
          else writeAndInvokeHandler d region offset size value target)

def pimWrite : Device → Region → Nat → Nat → BitVec 64 → PimError × Device :=
  writeSizedValue false

def pimWriteRaw : Device → Region → Nat → Nat → BitVec 64 → PimError × Device :=
  writeSizedValue true

def pimMemcpyTo (d : Device) (region : Region) (offset : Nat) (data : Bytes) (size : Nat) :
    PimError × Device :=
  match getRegionBytePtr region offset size with
  | none => (.invalidArg, d)
  | some target => (.success, { d with memory := fill d.memory target size data })

def pimRegionMemset (d : Device) (region : Region) (value : BitVec 32) (size : Nat) :
    PimError × Device :=
  match getRegionBytePtr region 0 size with
  | none => (.invalidArg, d)
  | some target =>
      (.success, { d with memory := fill d.memory target size fun _ => value.setWidth 8 })

inductive RegionWrite where
  | write (offset size : Nat) (value : BitVec 64)
  | writeRaw (offset size : Nat) (value : BitVec 64)
  | memcpyTo (offset : Nat) (data : Bytes) (size : Nat)
  | memset (value : BitVec 32) (size : Nat)

def RegionWrite.perform (d : Device) (region : Region) : RegionWrite → PimError × Device
  | .write offset size value => pimWrite d region offset size value
  | .writeRaw offset size value => pimWriteRaw d region offset size value
  | .memcpyTo offset data size => pimMemcpyTo d region offset data size
  | .memset value size => pimRegionMemset d region value size

inductive Call where
  | topology (action : Topology.Action)
  | registerDpuHandler (region offset : Nat) (depth : BitVec 32) (registerSize handler
      userData : Nat) (inserted : Bool)
  | write (region : Nat) (call : RegionWrite)

def init (size : BitVec 64) (memory : Bytes) : Device := ⟨Topology.init size.toNat, memory, []⟩

/-- A handler is registered with the register as it is in memory, by a call of its own. -/
def step (d : Device) : Call → Option Device
  | .topology (.registerDpuHandler ..) => none
  | .topology action => (Topology.step d.topology action).map fun topology =>
      { d with topology := topology }
  | .registerDpuHandler region offset depth registerSize handler userData inserted =>
      (d.topology.region? region).map fun r =>
        { d with
          topology := (pimRegisterDpuHandler d.topology r offset depth registerSize handler
            userData (bytesAt d.memory (r.offset + offset)) inserted).2 }
  | .write region call => (d.topology.region? region).map fun r => (call.perform d r).2

theorem fill_outside (memory : Bytes) {target count address : Nat} (data : Bytes)
    (h : address < target ∨ target + count ≤ address) :
    fill memory target count data address = memory address := by
  unfold fill
  rw [if_neg (by omega)]

theorem bytesAt_fill (memory : Bytes) (target size : Nat) (value : BitVec 64) :
    bytesAt (fill memory target size (byteOf value)) target =
      store (bytesAt memory target) size value := by
  funext i
  unfold bytesAt fill store byteOf
  by_cases hi : i < size
  · rw [if_pos (by omega), if_pos hi, Nat.add_sub_cancel_left]
  · rw [if_neg (by omega), if_neg hi]

theorem checkBounds_iff {region : Region} {offset size : Nat} :
    checkBounds region offset size = true ↔ offset + size ≤ region.size := by
  simp only [checkBounds, Bool.and_eq_true, decide_eq_true_eq]
  omega

theorem getRegionBytePtr_some {region : Region} {offset size target : Nat}
    (h : getRegionBytePtr region offset size = some target) :
    offset + size ≤ region.size ∧ target = region.offset + offset := by
  unfold getRegionBytePtr at h
  split at h
  · cases h
  · rename_i hbounds
    cases h
    exact ⟨checkBounds_iff.mp (by simpa using hbounds), rfl⟩

theorem getTypedRegionPtr_some {region : Region} {offset size target : Nat}
    (h : getTypedRegionPtr region offset size = some target) :
    offset + size ≤ region.size ∧ target = region.offset + offset := by
  unfold getTypedRegionPtr at h
  split at h
  · cases h
  · exact getRegionBytePtr_some h

def cached (d : Device) (region : Region) (offset : Nat) (value : BitVec 64) :
    Topology.State :=
  if (findEntry region offset).isSome ∧ d.topology.sigsegvEnabled = false then
    (d.cache region offset value).topology
  else d.topology

theorem writeAndInvokeHandler_eq (d : Device) (region : Region) (offset size : Nat)
    (value : BitVec 64) (target : Nat) :
    (writeAndInvokeHandler d region offset size value target).memory =
        fill d.memory target size (byteOf value) ∧
      (writeAndInvokeHandler d region offset size value target).topology =
        cached d region offset value := by
  unfold writeAndInvokeHandler cached
  cases hfind : findEntry region offset with
  | none => simp [Device.storeValue]
  | some entry =>
      by_cases hsigsegv : d.topology.sigsegvEnabled = true
      · simp [hsigsegv, Device.storeValue]
      · by_cases hhandler : entry.handler = 0
        · simp [hsigsegv, hhandler, Device.storeValue, Device.cache]
        · simp [hsigsegv, hhandler, Device.storeValue, Device.cache]

theorem writeRawAtomic_eq (d : Device) (region : Region) (offset size : Nat)
    (value : BitVec 64) (target : Nat) :
    (writeRawAtomic d region offset size value target).memory =
        fill d.memory target size (byteOf value) ∧
      (writeRawAtomic d region offset size value target).topology =
        cached d region offset value := by
  unfold writeRawAtomic cached
  cases hfind : findEntry region offset with
  | none => simp [Device.storeValue]
  | some entry =>
      by_cases hsigsegv : d.topology.sigsegvEnabled = true
      · simp [hsigsegv, Device.storeValue]
      · simp [hsigsegv, Device.storeValue, Device.cache]

theorem writeSizedValue_success {rawWrite : Bool} {d after : Device} {region : Region}
    {offset size : Nat} {value : BitVec 64}
    (h : writeSizedValue rawWrite d region offset size value = (.success, after)) :
    pimIsSupportedAccessSize size = true ∧ offset + size ≤ region.size ∧
      after.memory = fill d.memory (region.offset + offset) size
        (byteOf (truncate size value)) ∧
      after.topology = cached d region offset (truncate size value) := by
  unfold writeSizedValue at h
  split at h
  · cases h
  · rename_i hsupported
    split at h
    · cases h
    · rename_i target hptr
      obtain ⟨hbounds, rfl⟩ := getTypedRegionPtr_some hptr
      refine ⟨by simpa using hsupported, hbounds, ?_⟩
      cases rawWrite with
      | true =>
          cases h
          exact writeRawAtomic_eq d region offset size _ _
      | false =>
          cases h
          exact writeAndInvokeHandler_eq d region offset size _ _

theorem perform_within {d after : Device} {region : Region} {call : RegionWrite}
    (h : call.perform d region = (.success, after)) {address : Nat}
    (haddress : address < region.offset ∨ region.offset + region.size ≤ address) :
    after.memory address = d.memory address := by
  cases call with
  | write offset size value =>
      obtain ⟨_, hbounds, hmemory, _⟩ := writeSizedValue_success h
      rw [hmemory]
      exact fill_outside _ _ (by omega)
  | writeRaw offset size value =>
      obtain ⟨_, hbounds, hmemory, _⟩ := writeSizedValue_success h
      rw [hmemory]
      exact fill_outside _ _ (by omega)
  | memcpyTo offset data size =>
      dsimp only [RegionWrite.perform, pimMemcpyTo] at h
      split at h
      · cases h
      · rename_i target hptr
        obtain ⟨hbounds, rfl⟩ := getRegionBytePtr_some hptr
        cases h
        exact fill_outside _ _ (by omega)
  | memset value size =>
      dsimp only [RegionWrite.perform, pimRegionMemset] at h
      split at h
      · cases h
      · rename_i target hptr
        obtain ⟨hbounds, rfl⟩ := getRegionBytePtr_some hptr
        cases h
        dsimp only
        exact fill_outside _ _ (by omega)

end HostPimSim.Core.Access
