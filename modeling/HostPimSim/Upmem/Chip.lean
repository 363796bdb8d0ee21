import HostPimSim.Upmem.Ci

/-! A chip: its control interface, its DPUs and the handlers submitted for them.
`propagateCi` is the execution path of a command; handlers it submits to the
pool have run by the end of the next barrier of the bank. -/
namespace HostPimSim.Upmem

/-- `populated` tells whether the two CI regions are set, `reply` is the word in
the one the host reads, and `submitted` the handlers the pool has not run. -/
structure Chip where
  state : CIState
  populated : Bool
  reply : BitVec 64
  dpus : Nat → Dpu
  submitted : List (Nat × BitVec 64)

def getBoundMask (chip : Chip) (selectedMask : BitVec 8) : BitVec 8 :=
  maskWhere fun dpuIdx => selectedMask.getLsbD dpuIdx && (chip.dpus dpuIdx).mram.bound

/-- The DPUs a control command is for: the bound ones that are selected, or all
that are selected if none is bound. -/
def controlExecutionMask (chip : Chip) : BitVec 8 :=
  if getBoundMask chip chip.state.selectedMask = 0 then chip.state.selectedMask
  else getBoundMask chip chip.state.selectedMask

def isThreadCommandWord (ciWord : BitVec 64) (selectedMask : BitVec 8) : Bool :=
  selectedMask ≠ 0 && (decodeThreadCommand ciWord).isSome

def Chip.setCommitted (chip : Chip) (ciWord : BitVec 64) : Chip :=
  { chip with state := { chip.state with committed := ciWord } }

def Chip.publish (chip : Chip) (payload : BitVec 32) (needsMaskFuzz : Bool) : Chip :=
  { chip with state := chip.state.setDispatchedResult payload needsMaskFuzz }

/-- Apply `f` to the DPUs of a mask. -/
def Chip.mapDpus (chip : Chip) (mask : BitVec 8) (f : Dpu → Dpu) : Chip :=
  { chip with dpus := fun i => if mask.getLsbD i then f (chip.dpus i) else chip.dpus i }

def Chip.select (chip : Chip) (mask : BitVec 8) : Chip :=
  { chip with state := { chip.state with selectedMask := mask } }.publish
    (mask.setWidth 32) false

/-- The DPUs of `mask` that the loop over the handlers does not skip. -/
def reachedMask (chip : Chip) (mask : BitVec 8) (skipUnbound : Bool) : BitVec 8 :=
  maskWhere fun i => mask.getLsbD i && (!skipUnbound || (chip.dpus i).mram.bound)

def Chip.saveGroup (chip : Chip) (group : Nat) : Chip :=
  { chip with state := { chip.state with
      groupMask := fun slot =>
        if slot = group then chip.state.selectedMask else chip.state.groupMask slot
      } }.publish (chip.state.selectedMask.setWidth 32) false

section
variable (decodeRawWord48 : BitVec 64 → RawDecoded48)
-- whether `pim_invoke_dpu_handler` returns success for a DPU
variable (invokes : Nat → Bool)

def invokeSelectedHandlers (chip : Chip) (ciWord : BitVec 64) (mask : BitVec 8)
    (skipUnbound directControl : Bool) : Chip :=
  let reached := reachedMask chip mask skipUnbound
  if directControl then
    (chip.mapDpus reached fun dpu =>
      control decodeRawWord48 dpu.clearLastControlResult ciWord).publish
        (reached.setWidth 32) false
  else
    let invoked := maskWhere fun i => reached.getLsbD i && invokes i
    { chip.mapDpus reached Dpu.clearLastControlResult with
      submitted := chip.submitted ++
        ((List.range kChipNumDpus).filter fun i => invoked.getLsbD i).map (·, ciWord)
      }.publish (invoked.setWidth 32) false

def latchStructure (chip : Chip) (ciWord : BitVec 64) : Chip :=
  let iram := decodeIramWriteStructure ciWord
  let wram := decodeWramWriteWordStructure ciWord
  { chip with state := { chip.state with
      structure_ := ciWord
      iramWriteStructureValid := iram.isSome
      iramWriteAddrHi := iram.getD 0
      wramWriteStructureValid := wram.isSome
      wramWriteAddr := wram.getD 0 } }.publish 0xFF false

def writeIramPayload (chip : Chip) (ciWord : BitVec 64) : Chip :=
  let addr := chip.state.iramWriteAddrHi <<< 8 ||| (byte ciWord 48).setWidth 16
  (chip.mapDpus chip.state.selectedMask fun dpu =>
    { dpu with iram := dpu.iram.writeWord addr (ciWord &&& kIramInst48Mask) }).publish
      (chip.state.selectedMask.setWidth 32) true

def writeWramPayload (chip : Chip) (ciWord : BitVec 64) : Chip :=
  let addr := match decodeWramWriteWordFrameLow5 ciWord with
    | some low5 => (chip.state.wramWriteAddr &&& ~~~0x1F) ||| low5.setWidth 16
    | none => chip.state.wramWriteAddr
  (chip.mapDpus chip.state.selectedMask fun dpu =>
    { dpu with wram := dpu.wram.writeWord (addr.setWidth 32) (ciWord.setWidth 32) }).publish
      (chip.state.selectedMask.setWidth 32) true

/-- The frames of tag zero that select DPUs or keep the selection in a group. -/
def selectFrame (chip : Chip) (ciWord : BitVec 64) : Option Chip :=
  let b0 := byte ciWord 0
  let b1 := byte ciWord 8
  let group := (b1 &&& 0x7).toNat
  if b0 = 0x08 ∧ b1 = 0xFF then some (chip.select 0xFF)
  else if b0 = 0x0A then some (chip.select (BitVec.twoPow 8 group))
  else if b0 = 0x09 then some (chip.select (chip.state.groupMask group))
  else if b0 = 0x0C then some (chip.saveGroup group)
  else none

/-- `exchange_stack_up_mask`, with the old mask as the answer. -/
def Chip.exchangeStackUpMask (chip : Chip) (mask : BitVec 8) : Chip :=
  { chip with state := { chip.state with stackUpMask := mask } }.publish
    (chip.state.stackUpMask.setWidth 32) false

def dmaCtrlReadValue (chip : Chip) : BitVec 8 :=
  let selected := firstSelectedDpu chip.state.selectedMask
  if selected ≥ kChipNumDpus then 0
  else if chip.state.dmaCtrlReadRegister = 0x02 then (chip.dpus selected).dmaMuxStatus
  else (chip.dpus selected).dmaCtrlReg

def queryFrame (chip : Chip) (ciWord : BitVec 64) : Chip :=
  let b0 := byte ciWord 0
  if b0 = 0x16 then chip.publish (chip.state.pcMode.setWidth 32) false
  else if b0 = 0x10 then chip.publish ((dmaCtrlReadValue chip).setWidth 32) false
  else if b0 = 0x84 then
    invokeSelectedHandlers decodeRawWord48 invokes chip ciWord (controlExecutionMask chip)
      false false
  else if b0 = 0xF2 then chip.exchangeStackUpMask 0xFF
  else if b0 = 0xF0 then chip.exchangeStackUpMask 0x00
  else if b0 ∈ [0x80, 0x82, 0xB0, 0xB4, (0xF4 : BitVec 8)] then chip.publish 0 false
  else chip.publish (chip.state.selectedMask.setWidth 32) false

def dmaCtrlFrame (chip : Chip) (ciWord : BitVec 64) : Chip :=
  match decodeDmaCtrlWriteFrame ciWord with
  | none => chip.publish (chip.state.selectedMask.setWidth 32) true
  | some (address, data) =>
      let state := if address = 0xFF then
        { chip.state with dmaCtrlReadRegister := data } else chip.state
      ({ chip with state := state }.mapDpus 0xFF fun dpu =>
        { dpu with
          dmaCtrlReg := data
          dmaMuxStatus :=
            if address = 0x80 ∨ address = 0x82 ∨ address = 0x84 then
              (if data = 0 then 0x00 else 0x03)
            else dpu.dmaMuxStatus }).publish 0xFF false

def modeFrame (chip : Chip) (ciWord : BitVec 64) : Chip :=
  let fuzz := chip.publish (chip.state.selectedMask.setWidth 32) true
  if byte ciWord 48 = 0xA4 then
    if ciWord &&& 0x0000FFFFFFFFFF00 = 0 then
      { chip with state := { chip.state with pcMode := byte ciWord 0 } }.publish 0xFF false
    else fuzz
  else if ciWord &&& kIramInst48Mask = 0 then chip.publish 0xFF false
  else fuzz

def commandFrame (chip : Chip) (ciWord : BitVec 64) : Chip :=
  let state := chip.state
  let fuzz := chip.publish (state.selectedMask.setWidth 32) true
  let selected := firstSelectedDpu state.selectedMask
  if isThreadCommandWord ciWord state.selectedMask then
    invokeSelectedHandlers decodeRawWord48 invokes chip ciWord (controlExecutionMask chip)
      true true
  else if byte ciWord 48 = 0x99 then
    match decodeWramReadWordFrame ciWord with
    | none => fuzz
    | some wordAddr =>
        chip.publish (if selected ≥ kChipNumDpus then 0
          else (chip.dpus selected).wram.readWord wordAddr) false
  else fuzz

def propagateFrame (chip : Chip) (ciWord : BitVec 64) : Chip :=
  let tag := byte ciWord 48
  if chip.state.iramWriteStructureValid then writeIramPayload chip ciWord
  else if chip.state.wramWriteStructureValid then writeWramPayload chip ciWord
  else if tag = 0x00 then
    (selectFrame chip ciWord).getD
      (if byte ciWord 8 = 0x02 then queryFrame decodeRawWord48 invokes chip ciWord
      else commandFrame decodeRawWord48 invokes chip ciWord)
  else if tag = 0xA7 then dmaCtrlFrame chip ciWord
  else if tag = 0xA4 ∨ tag = 0xA6 then modeFrame chip ciWord
  else commandFrame decodeRawWord48 invokes chip ciWord

def propagateCi (chip : Chip) (ciWord : BitVec 64) : Chip :=
  let chip := chip.setCommitted ciWord
  if !chip.populated then chip
  else if ciWord = kCiIdentity then chip.publish 1 false
  else if isSoftwareResetCmd ciWord then
    { chip with state := chip.state.resetProtocolState }.publish 0 false
  else if ciWord = kCiByteOrder then chip.publish 0x0F8FCFEF false
  else if byte ciWord 56 = 0x11 then latchStructure chip ciWord
  else if byte ciWord 56 ≠ 0x33 then chip.publish 0 false
  else propagateFrame decodeRawWord48 invokes chip ciWord

theorem byte_or (x y : BitVec 64) (shift : Nat) :
    byte (x ||| y) shift = byte x shift ||| byte y shift := by
  unfold byte
  rw [BitVec.ushiftRight_or_distrib, BitVec.setWidth_or]

theorem byte_and (x y : BitVec 64) (shift : Nat) :
    byte (x &&& y) shift = byte x shift &&& byte y shift := by
  unfold byte
  rw [BitVec.ushiftRight_and_distrib, BitVec.setWidth_and]

theorem isSoftwareResetCmd_opcode {word : BitVec 64} (h : isSoftwareResetCmd word = true) :
    byte word 56 = 0x01 := by
  have hbyte := congrArg (byte · 56) (of_decide_eq_true h)
  have hmask : byte 0xFFFF00000000FF00 56 = BitVec.allOnes 8 := by decide
  simp only [byte_and] at hbyte
  rw [hmask, BitVec.and_allOnes] at hbyte
  exact hbyte

/-- The words that are taken before their opcode is looked at have one of their own. -/
theorem propagateCi_eq {chip : Chip} {word : BitVec 64} (hpopulated : chip.populated = true)
    (hop : byte word 56 = 0x11 ∨ byte word 56 = 0x33) :
    propagateCi decodeRawWord48 invokes chip word =
      if byte word 56 = 0x11 then latchStructure (chip.setCommitted word) word
      else propagateFrame decodeRawWord48 invokes (chip.setCommitted word) word := by
  have hidentity : word ≠ kCiIdentity := by
    rintro rfl
    exact absurd hop (by decide)
  have hreset : isSoftwareResetCmd word = false := by
    cases h : isSoftwareResetCmd word with
    | false => rfl
    | true =>
        rw [isSoftwareResetCmd_opcode h] at hop
        exact absurd hop (by decide)
  have horder : word ≠ kCiByteOrder := by
    rintro rfl
    exact absurd hop (by decide)
  have hpopulated' : (chip.setCommitted word).populated = true := hpopulated
  unfold propagateCi
  dsimp only
  rw [if_neg (by simp [hpopulated']), if_neg hidentity, if_neg (by simp [hreset]),
    if_neg horder]
  split
  · rfl
  · rename_i hnot
    rw [if_neg (not_not_intro (hop.resolve_left hnot))]

theorem propagateCi_structure {chip : Chip} {word : BitVec 64}
    (hpopulated : chip.populated = true) (hop : byte word 56 = 0x11) :
    propagateCi decodeRawWord48 invokes chip word =
      latchStructure (chip.setCommitted word) word := by
  rw [propagateCi_eq decodeRawWord48 invokes hpopulated (.inl hop), if_pos hop]

theorem propagateCi_payload {chip : Chip} {word : BitVec 64}
    (hpopulated : chip.populated = true) (hop : byte word 56 = 0x33) :
    propagateCi decodeRawWord48 invokes chip word =
      propagateFrame decodeRawWord48 invokes (chip.setCommitted word) word := by
  rw [propagateCi_eq decodeRawWord48 invokes hpopulated (.inr hop), hop]
  rfl

def runHandler (chip : Chip) (handler : Nat × BitVec 64) : Chip :=
  { chip with dpus := fun i =>
      if i = handler.1 then control decodeRawWord48 (chip.dpus i) handler.2
      else chip.dpus i }

/-- `pim_region_barrier`: what was submitted has run. -/
def regionBarrier (chip : Chip) : Chip :=
  { chip.submitted.foldl (runHandler decodeRawWord48) chip with submitted := [] }

theorem runHandlers_dpus (ciWord : BitVec 64) {indices : List Nat} (hnodup : indices.Nodup)
    (chip : Chip) (i : Nat) :
    ((indices.map (·, ciWord)).foldl (runHandler decodeRawWord48) chip).dpus i =
      if i ∈ indices then control decodeRawWord48 (chip.dpus i) ciWord else chip.dpus i := by
  induction indices generalizing chip with
  | nil => rfl
  | cons index rest ih =>
      obtain ⟨hindex, hrest⟩ := List.nodup_cons.mp hnodup
      rw [List.map_cons, List.foldl_cons, ih hrest]
      by_cases hi : i = index
      · subst hi
        simp [hindex, runHandler]
      · simp [hi, runHandler]

theorem regionBarrier_state (chip : Chip) :
    (regionBarrier decodeRawWord48 chip).state = chip.state := by
  have hrun : ∀ (handlers : List (Nat × BitVec 64)) (start : Chip),
      (handlers.foldl (runHandler decodeRawWord48) start).state = start.state := by
    intro handlers
    induction handlers with
    | nil => exact fun _ => rfl
    | cons handler rest ih => exact fun start => ih (runHandler decodeRawWord48 start handler)
  exact hrun chip.submitted chip

theorem regionBarrier_dpus (chip : Chip) (mask : BitVec 8) (ciWord : BitVec 64)
    (hsubmitted : chip.submitted =
      ((List.range kChipNumDpus).filter fun i => mask.getLsbD i).map (·, ciWord)) (i : Nat) :
    (regionBarrier decodeRawWord48 chip).dpus i =
      if mask.getLsbD i then control decodeRawWord48 (chip.dpus i) ciWord
      else chip.dpus i := by
  unfold regionBarrier
  dsimp only
  rw [hsubmitted, runHandlers_dpus decodeRawWord48 ciWord
    (List.nodup_range.filter _) chip i]
  refine if_congr ?_ rfl rfl
  rw [List.mem_filter, List.mem_range]
  constructor
  · exact And.right
  · intro hbit
    exact ⟨BitVec.lt_of_getLsbD hbit, hbit⟩

end

end HostPimSim.Upmem
