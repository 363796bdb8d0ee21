import HostPimSim.Core.Register

/-! The memories of a DPU and the DMA between them.  IRAM is kept by slot, the
others by byte; accesses out of bounds read zero and write nothing. -/
namespace HostPimSim.Upmem
open Core.Register (Bytes loadBytes)

def kIRAMSizeBytes : Nat := 24 * 1024
def kWRAMSizeBytes : Nat := 64 * 1024
def kMramSizeBytes : Nat := 64 * 1024 * 1024

abbrev Iram := Nat → BitVec 64

def kIramInst48Mask : BitVec 64 := 0x0000FFFFFFFFFFFF

def Iram.slotInBounds (slot : BitVec 16) : Bool :=
  slot.toNat < kIRAMSizeBytes / 8 && slot.toNat * 8 + 6 ≤ kIRAMSizeBytes

def Iram.readWord (iram : Iram) (slot : BitVec 16) : BitVec 64 :=
  if slotInBounds slot then iram slot.toNat &&& kIramInst48Mask else 0

def Iram.writeWord (iram : Iram) (slot : BitVec 16) (inst48 : BitVec 64) : Iram :=
  if slotInBounds slot then
    fun i => if i = slot.toNat then inst48 &&& kIramInst48Mask else iram i
  else iram

abbrev Wram := Bytes

def bswap16 (value : BitVec 16) : BitVec 16 := value >>> 8 ||| value <<< 8

def bswap32 (value : BitVec 32) : BitVec 32 :=
  (value &&& 0x000000FF) <<< 24 ||| (value &&& 0x0000FF00) <<< 8 |||
    (value &&& 0x00FF0000) >>> 8 ||| (value &&& 0xFF000000) >>> 24

def bswap64 (value : BitVec 64) : BitVec 64 :=
  let value := (value &&& 0x00000000FFFFFFFF) <<< 32 ||| (value &&& 0xFFFFFFFF00000000) >>> 32
  let value := (value &&& 0x0000FFFF0000FFFF) <<< 16 ||| (value &&& 0xFFFF0000FFFF0000) >>> 16
  (value &&& 0x00FF00FF00FF00FF) <<< 8 ||| (value &&& 0xFF00FF00FF00FF00) >>> 8

def Wram.relInBounds (offset : BitVec 32) (size : Nat) : Bool :=
  offset.toNat ≤ kWRAMSizeBytes && size ≤ kWRAMSizeBytes - offset.toNat

def Wram.wordInBounds (wordOffset : BitVec 32) : Bool :=
  wordOffset.toNat * 4 + 4 ≤ kWRAMSizeBytes

/-- `memcpy` of `size` bytes at `offset` into a little-endian integer. -/
def Wram.copyOut (wram : Wram) (offset : BitVec 32) (size : Nat) : BitVec 64 :=
  loadBytes (fun i => wram (offset.toNat + i)) size

/-- `memcpy` of the first `size` bytes of `value` to `offset`. -/
def Wram.copyIn (wram : Wram) (offset : BitVec 32) (size : Nat) (value : BitVec 64) : Wram :=
  fun i => if offset.toNat ≤ i ∧ i < offset.toNat + size
    then (value >>> ((i - offset.toNat) * 8)).setWidth 8 else wram i

def Wram.loadU8 (wram : Wram) (offset : BitVec 32) : BitVec 8 :=
  if relInBounds offset 1 then wram offset.toNat else 0

def Wram.loadU16 (wram : Wram) (offset : BitVec 32) (bigEndian : Bool) : BitVec 32 :=
  if !relInBounds offset 2 then 0
  else
    let value := (wram.copyOut offset 2).setWidth 16
    (if bigEndian then bswap16 value else value).setWidth 32

def Wram.loadU32 (wram : Wram) (offset : BitVec 32) (bigEndian : Bool) : BitVec 32 :=
  if !relInBounds offset 4 then 0
  else
    let value := (wram.copyOut offset 4).setWidth 32
    if bigEndian then bswap32 value else value

def Wram.loadU64 (wram : Wram) (offset : BitVec 32) (bigEndian : Bool) : BitVec 64 :=
  if !relInBounds offset 8 then 0
  else
    let value := wram.copyOut offset 8
    if bigEndian then bswap64 value else value

def Wram.storeU8 (wram : Wram) (offset : BitVec 32) (value : BitVec 8) : Wram :=
  if relInBounds offset 1 then wram.copyIn offset 1 (value.setWidth 64) else wram

def Wram.storeU16 (wram : Wram) (offset : BitVec 32) (value : BitVec 16)
    (bigEndian : Bool) : Wram :=
  if relInBounds offset 2 then
    wram.copyIn offset 2 ((if bigEndian then bswap16 value else value).setWidth 64)
  else wram

def Wram.storeU32 (wram : Wram) (offset : BitVec 32) (value : BitVec 32)
    (bigEndian : Bool) : Wram :=
  if relInBounds offset 4 then
    wram.copyIn offset 4 ((if bigEndian then bswap32 value else value).setWidth 64)
  else wram

def Wram.storeU64 (wram : Wram) (offset : BitVec 32) (value : BitVec 64)
    (bigEndian : Bool) : Wram :=
  if relInBounds offset 8 then
    wram.copyIn offset 8 (if bigEndian then bswap64 value else value)
  else wram

def Wram.readWord (wram : Wram) (wordOffset : BitVec 32) : BitVec 32 :=
  if wordInBounds wordOffset then wram.loadU32 (wordOffset * 4) false else 0

def Wram.writeWord (wram : Wram) (wordOffset : BitVec 32) (value : BitVec 32) : Wram :=
  if wordInBounds wordOffset then wram.storeU32 (wordOffset * 4) value false else wram

/-- `mapped` tells whether `addr_` is set. -/
structure Mram where
  mapped : Bool
  size : Nat
  bytes : Bytes

/-- `get_addr() && get_size() != 0`. -/
def Mram.bound (mram : Mram) : Bool := mram.mapped && mram.size != 0

def Mram.byteInBounds (offset : BitVec 32) (size : Nat) : Bool :=
  size != 0 && offset.toNat ≤ kMramSizeBytes && size ≤ kMramSizeBytes - offset.toNat

def Mram.allocate (mram : Mram) : Mram :=
  if mram.bound then mram else ⟨true, kMramSizeBytes, fun _ => 0⟩

/-- `host_copy_from_mram` into WRAM. -/
def Mram.copyToWram (mram : Mram) (wram : Wram) (wramOffset mramOffset : BitVec 32)
    (size : Nat) : Wram :=
  if mram.mapped && Mram.byteInBounds mramOffset size then
    fun i => if wramOffset.toNat ≤ i ∧ i < wramOffset.toNat + size
      then mram.bytes (mramOffset.toNat + (i - wramOffset.toNat)) else wram i
  else wram

/-- `host_copy_to_mram` out of WRAM. -/
def Mram.copyFromWram (mram : Mram) (wram : Wram) (mramOffset wramOffset : BitVec 32)
    (size : Nat) : Mram :=
  if mram.mapped && Mram.byteInBounds mramOffset size then
    { mram with
      bytes := fun i => if mramOffset.toNat ≤ i ∧ i < mramOffset.toNat + size
        then wram (wramOffset.toNat + (i - mramOffset.toNat)) else mram.bytes i }
  else mram

def dmaCopyBytes (mram : Mram) (bytes : Nat) (wramOffset mramOffset : BitVec 32) : Nat :=
  if !mram.bound || bytes = 0 then 0
  else if mramOffset.toNat ≥ mram.size || wramOffset.toNat ≥ kWRAMSizeBytes then 0
  else min bytes (min (mram.size - mramOffset.toNat) (kWRAMSizeBytes - wramOffset.toNat))

def dmaToWramFromMram (wram : Wram) (mram : Mram) (bytes : Nat)
    (wramOffset mramOffset : BitVec 32) : Wram :=
  mram.copyToWram wram wramOffset mramOffset (dmaCopyBytes mram bytes wramOffset mramOffset)

def dmaToMramFromWram (mram : Mram) (wram : Wram) (bytes : Nat)
    (mramOffset wramOffset : BitVec 32) : Mram :=
  mram.copyFromWram wram mramOffset wramOffset
    (dmaCopyBytes mram bytes wramOffset mramOffset)

end HostPimSim.Upmem
