import HostPimSim.Upmem.Control

/-! The control interface of a chip: its words and its protocol state. -/
namespace HostPimSim.Upmem

def kChipNumDpus : Nat := 8

/-- The loop that collects the bits of the DPUs that meet `p`. -/
def maskWhere (p : Nat → Bool) : BitVec 8 :=
  (List.range kChipNumDpus).foldl
    (fun mask dpuIdx => if p dpuIdx then mask ||| BitVec.twoPow 8 dpuIdx else mask) 0

theorem foldl_mask_getLsbD (p : Nat → Bool) (indices : List Nat) (mask : BitVec 8) {i : Nat}
    (hi : i < 8) :
    (indices.foldl
        (fun mask dpuIdx => if p dpuIdx then mask ||| BitVec.twoPow 8 dpuIdx else mask)
        mask).getLsbD i = (mask.getLsbD i || (decide (i ∈ indices) && p i)) := by
  induction indices generalizing mask with
  | nil => simp
  | cons index rest ih =>
      rw [List.foldl_cons, ih]
      by_cases hindex : i = index
      · subst hindex
        cases hp : p i <;> simp [hi]
      · cases hp : p index <;> simp [hi, hindex]

@[simp] theorem maskWhere_getLsbD (p : Nat → Bool) {i : Nat} (hi : i < 8) :
    (maskWhere p).getLsbD i = p i := by
  unfold maskWhere
  rw [foldl_mask_getLsbD p _ _ hi]
  simp [kChipNumDpus, hi]

theorem mask_ext {first second : BitVec 8}
    (h : ∀ i, i < 8 → first.getLsbD i = second.getLsbD i) : first = second :=
  BitVec.eq_of_getLsbD_eq fun i hi => h i hi

theorem mask_ne_zero_iff (mask : BitVec 8) :
    mask ≠ 0 ↔ ∃ i, i < 8 ∧ mask.getLsbD i = true := by
  constructor
  · intro hne
    by_contra hnone
    refine hne (mask_ext fun i hi => ?_)
    cases hbit : mask.getLsbD i with
    | true => exact absurd ⟨i, hi, hbit⟩ hnone
    | false => simp
  · rintro ⟨i, _, hbit⟩ rfl
    simp at hbit

def firstSelectedDpu (mask : BitVec 8) : Nat :=
  ((List.range kChipNumDpus).find? fun dpu => mask.getLsbD dpu).getD kChipNumDpus

def wramLowAddressBits (a2 : BitVec 64) : BitVec 64 :=
  (a2 &&& 0xF) <<< 20 ||| ((a2 >>> 8) &&& 1) <<< 15 ||| ((a2 >>> 9) &&& 1) <<< 14 |||
    ((a2 >>> 10) &&& 1) <<< 13 ||| ((a2 >>> 11) &&& 1) <<< 12 ||| ((a2 >>> 12) &&& 0xFFF)

def wramReadWordFrameForAddr (address : BitVec 32) : BitVec 64 :=
  let a2 := address.setWidth 64 <<< 2
  encodeFrameFromX
    (0x700344000000 ||| (24 &&& 31) <<< 34 ||| wramLowAddressBits a2 |||
      ((a2 >>> 4) &&& 0xF) <<< 16) 0x99

def wramWriteAddrX (address : BitVec 32) : BitVec 64 :=
  let a2 := address.setWidth 64 <<< 2
  0x7c0044000000 ||| (24 &&& 31) <<< 34 ||| wramLowAddressBits a2 |||
    ((a2 >>> 4) &&& 0x7) <<< 39 ||| ((a2 >>> 7) &&& 1) <<< 24

def wramWriteWordStructureForAddr (address : BitVec 32) : BitVec 64 :=
  let x := wramWriteAddrX address
  0x1100000000000000 ||| 0xFF ||| 0x03 <<< 8 ||| moveByte x 0 2 ||| moveByte x 1 3 |||
    moveByte x 3 4 ||| 0x99 <<< 40

def wramWriteWordFrameUpperForAddr (address : BitVec 32) : BitVec 64 :=
  let x := wramWriteAddrX address
  0x3300000000000000 ||| moveByte x 2 4 ||| moveByte x 5 5 ||| moveByte x 4 6

/-- The first of `count` addresses whose encoding is `cmd`. -/
def findAddress (encode : BitVec 32 → BitVec 64) (count : Nat) (cmd : BitVec 64) :
    Option (BitVec 32) :=
  ((List.range count).map (BitVec.ofNat 32)).find? fun candidate => encode candidate == cmd

def kWramWords : Nat := kWRAMSizeBytes / 4

def decodeWramWriteWordStructure (cmd : BitVec 64) : Option (BitVec 16) :=
  (findAddress wramWriteWordStructureForAddr kWramWords cmd).map (·.setWidth 16)

def decodeWramWriteWordFrameLow5 (cmd : BitVec 64) : Option (BitVec 8) :=
  (findAddress wramWriteWordFrameUpperForAddr 32 (cmd &&& 0xFFFFFFFF00000000)).map
    (·.setWidth 8)

def decodeWramReadWordFrame (cmd : BitVec 64) : Option (BitVec 32) :=
  findAddress wramReadWordFrameForAddr kWramWords cmd

def decodeIramWriteStructure (cmd : BitVec 64) : Option (BitVec 16) :=
  if byte cmd 56 = 0x11 ∧ byte cmd 0 = 0xFF ∧ byte cmd 8 = 0x00 ∧ byte cmd 24 = 0x47 ∧
      byte cmd 32 = 0x02 ∧ byte cmd 40 = 0x00 then
    some ((byte cmd 16).setWidth 16)
  else none

def decodeDmaCtrlWriteFrame (word : BitVec 64) : Option (BitVec 8 × BitVec 8) :=
  let nibbles (shift : Nat) : BitVec 8 :=
    (byte word shift &&& 0x0F) <<< 4 ||| (byte word (shift + 8) &&& 0x0F)
  if byte word 0 &&& 0xF0 = 0x60 ∧ byte word 8 &&& 0xF0 = 0x60 ∧
      byte word 16 &&& 0xF0 = 0x60 ∧ byte word 24 &&& 0xF0 = 0x60 then
    some (nibbles 0, nibbles 16)
  else none

def colorByte (expectedColorSet : Bool) : BitVec 64 :=
  (if expectedColorSet then 0xFF else 0x00) <<< 48

def readyResult (expectedColorSet : Bool) (payload : BitVec 32) : BitVec 64 :=
  0x000000FF00000000 ||| colorByte expectedColorSet ||| payload.setWidth 64

def nopStyleResult (expectedColorSet : Bool) (payload : BitVec 32) : BitVec 64 :=
  0xFF0000FF00000000 ||| colorByte expectedColorSet ||| (payload &&& 0xFF).setWidth 64

def runStatePendingNop (expectedSet : Bool) : BitVec 64 := nopStyleResult (!expectedSet) 0

def isSoftwareResetCmd (word : BitVec 64) : Bool :=
  word &&& 0xFFFF00000000FF00 = 0x01FF00000000FF00

def kCiIdentity : BitVec 64 := 0x01FF000000000000
def kCiByteOrder : BitVec 64 := 0x7777777777777777
def ciByteOrderUpdated : BitVec 64 := 0x000103FF0F8FCFEF
def ciEmptyCmd : BitVec 64 := 0

structure DispatchPending where
  expectedSet : Bool
  dispatchGenerationBefore : BitVec 64
  active : Bool

/-- `ControlPending` and `RunStatePending` of the source, which are alike. -/
structure ControlPending where
  expectedSet : Bool
  dispatchGenerationBefore : BitVec 64
  selectedMask : BitVec 8
  executionMask : BitVec 8
  payload : BitVec 8
  controlGenerations : Nat → BitVec 64
  active : Bool

def DispatchPending.cleared : DispatchPending := ⟨false, 0, false⟩

def ControlPending.cleared : ControlPending := ⟨false, 0, 0, 0, 0, fun _ => 0, false⟩

structure CIState where
  committed : BitVec 64
  updated : BitVec 64
  pcMode : BitVec 8
  stackUpMask : BitVec 8
  selectedMask : BitVec 8
  enabledMask : BitVec 8
  groupMask : Nat → BitVec 8
  dmaCtrlReadRegister : BitVec 8
  structure_ : BitVec 64
  iramWriteStructureValid : Bool
  iramWriteAddrHi : BitVec 16
  wramWriteStructureValid : Bool
  wramWriteAddr : BitVec 16
  dispatchedPayload : BitVec 32
  dispatchedNeedsMaskFuzz : Bool
  dispatchedGeneration : BitVec 64
  dispatchPending : DispatchPending
  controlPending : ControlPending
  runStatePending : ControlPending

def CIState.powerOn : CIState where
  committed := 0
  updated := 0
  pcMode := 0x04
  stackUpMask := 0x00
  selectedMask := 0x00
  enabledMask := 0xFF
  groupMask := fun _ => 0
  dmaCtrlReadRegister := 0x00
  structure_ := 0
  iramWriteStructureValid := false
  iramWriteAddrHi := 0
  wramWriteStructureValid := false
  wramWriteAddr := 0
  dispatchedPayload := 0
  dispatchedNeedsMaskFuzz := false
  dispatchedGeneration := 0
  dispatchPending := .cleared
  controlPending := .cleared
  runStatePending := .cleared

def CIState.resetProtocolState (state : CIState) : CIState :=
  { state with
    pcMode := 0x04
    stackUpMask := 0x00
    selectedMask := 0xFF
    groupMask := fun slot => if slot = 0 then 0xFF else 0
    dmaCtrlReadRegister := 0x00
    structure_ := 0
    iramWriteStructureValid := false
    iramWriteAddrHi := 0
    wramWriteStructureValid := false
    wramWriteAddr := 0
    dispatchedPayload := 0
    dispatchedNeedsMaskFuzz := false
    dispatchPending := .cleared
    controlPending := .cleared
    runStatePending := .cleared }

/-- `initialize_ci_state_defaults`; the group masks it sets are those of a reset. -/
def CIState.initializeDefaults (state : CIState) : CIState :=
  { state.resetProtocolState with committed := 0, updated := 0 }

def CIState.setDispatchedResult (state : CIState) (payload : BitVec 32)
    (needsMaskFuzz : Bool) : CIState :=
  { state with
    dispatchedPayload := payload
    dispatchedNeedsMaskFuzz := needsMaskFuzz
    dispatchedGeneration := state.dispatchedGeneration + 1 }

def CIState.latched (state : CIState) : Bool :=
  state.iramWriteStructureValid || state.wramWriteStructureValid

end HostPimSim.Upmem
