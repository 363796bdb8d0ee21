import HostPimSim.Upmem.MemoryStep
import HostPimSim.Upmem.WramWidth

/-! Stores of a register to WRAM and the loads of the same width.  Half a word can be
stored, but the decoded switch has no case for its loads. -/
namespace HostPimSim.Upmem

open DecodeTable (rawDecoded)

def Width.code : Width → BitVec 64
  | byte => 0x0
  | half => 0x2
  | word => 0x4
  | double => 0x6

def Width.storeOp : Width → HotOp
  | byte => .sb
  | half => .sh
  | word => .sw
  | double => .sd

/-- The word stores a register, or a pair as a double. -/
structure StoreWord (inst48 : BitVec 64) (width : Width) : Prop where
  group : field inst48 44 0xF = 0x7
  source : field inst48 32 0x3 ≠ 0x3
  register : field inst48 42 0x3 = 0x3
  pair : field inst48 16 0x1 = if width = .double then 0x1 else 0x0
  memory : field inst48 28 0xF &&& 0xC = 0x4
  code : field inst48 24 0xF &&& 0x6 = width.code

def LoadOp.coded (op : LoadOp) (code : BitVec 64) : Prop :=
  match op with
  | .lbs => code &&& 0x7 = 0x1
  | .lbu => code &&& 0x7 = 0x0
  | .lhs => code &&& 0x7 = 0x3
  | .lhu => code &&& 0x7 = 0x2
  | .lw => code &&& 0x6 = 0x4
  | .ld => code &&& 0x6 = 0x6

def LoadOp.hotOp : LoadOp → HotOp
  | lbs => .lbs
  | lbu => .lbu
  | lhs | lhu => .none
  | lw => .lw
  | ld => .ld

/-- The word loads into a register, or into a pair as a double. -/
structure LoadWord (inst48 : BitVec 64) (op : LoadOp) : Prop where
  group : field inst48 44 0xF = 0x7
  immediate : field inst48 32 0x3 = 0x3
  register : field inst48 42 0x3 ≠ 0x3
  memory : field inst48 28 0xF &&& 0xE = 0x4
  code : op.coded (field inst48 24 0xF)

def isChecked (inst48 : BitVec 64) : Bool := field inst48 28 0x1 ≠ 0x0

def storeDecoding (inst48 : BitVec 64) (width : Width) : RawDecoded48 :=
  let source := gather inst48 [(17, 7, 0), (32, 3, 3)]
  { RawDecoded48.empty with
    rb := if width = .double then 0 else source
    hasRb := width ≠ .double
    db := if width = .double then source else 0
    hasDb := width = .double
    ra := gather inst48 [(34, 31, 0)]
    hasRa := true
    off := gather inst48 ([(20, 15, 0), (39, 7, 4), (24, 1, 7)] ++ highOffset)
    endian := gather inst48 [(27, 1, 0)]
    hasEndian := true
    valid := true
    hotOp := width.storeOp
    hotFmt := if isChecked inst48 then .esir else .erir }

def loadDecoding (inst48 : BitVec 64) (op : LoadOp) : RawDecoded48 :=
  let destination := gather inst48 [(39, 31, 0)]
  { RawDecoded48.empty with
    rc := if op = .ld then 0 else destination
    hasRc := op ≠ .ld
    dc := if op = .ld then destination else 0
    hasDc := op = .ld
    ra := gather inst48 [(34, 31, 0)]
    hasRa := true
    off := gather inst48 ([(20, 15, 0), (16, 15, 4)] ++ highOffset)
    endian := gather inst48 [(27, 1, 0)]
    hasEndian := true
    valid := true
    hotOp := op.hotOp
    hotFmt := if op.hotOp = .none then .none else if isChecked inst48 then .ersi else .erri }

theorem field_toNat (inst48 : BitVec 64) (shift bits : Nat) (hbits : bits < 64) :
    (field inst48 shift (BitVec.ofNat 64 (2 ^ bits - 1))).toNat =
      inst48.toNat / 2 ^ shift % 2 ^ bits := by
  have hpow : 2 ^ bits < 2 ^ 64 := Nat.pow_lt_pow_right (by decide) hbits
  unfold field
  rw [BitVec.toNat_and, BitVec.toNat_ushiftRight, BitVec.toNat_ofNat, Nat.mod_eq_of_lt (by omega),
    Nat.and_two_pow_sub_one_eq_mod, Nat.shiftRight_eq_div_pow]

theorem field_nibble (inst48 : BitVec 64) (shift k : Nat) (mask : BitVec 4)
    (hmask : ∀ i, i < 4 → mask.getLsbD i = true → k + i < 4) :
    field inst48 (shift + k) (mask.setWidth 64) =
      (((inst48.extractLsb' shift 4) >>> k) &&& mask).setWidth 64 := by
  apply BitVec.eq_of_getLsbD_eq
  intro i hi
  unfold field
  rw [BitVec.getLsbD_and, BitVec.getLsbD_ushiftRight, BitVec.getLsbD_setWidth,
    BitVec.getLsbD_setWidth, BitVec.getLsbD_and, BitVec.getLsbD_ushiftRight,
    BitVec.getLsbD_extractLsb', decide_eq_true hi, Bool.true_and, Bool.true_and]
  cases hbit : mask.getLsbD i with
  | false => simp
  | true => simp [hmask i (BitVec.lt_of_getLsbD hbit) hbit, Nat.add_assoc]

theorem field_and_self {inst48 : BitVec 64} (shift : Nat) (mask : BitVec 64) :
    field inst48 shift mask &&& mask = field inst48 shift mask := by
  unfold field
  rw [BitVec.and_assoc, BitVec.and_self]

theorem field_bit (inst48 : BitVec 64) (shift : Nat) :
    field inst48 shift 0x1 = 0x0 ∨ field inst48 shift 0x1 = 0x1 := by
  have hlow : (field inst48 shift 0x1).toNat = inst48.toNat / 2 ^ shift % 2 ^ 1 :=
    field_toNat inst48 shift 1 (by decide)
  rw [← BitVec.toNat_inj, ← BitVec.toNat_inj, hlow, show (0x0 : BitVec 64).toNat = 0 from rfl,
    show (0x1 : BitVec 64).toNat = 1 from rfl]
  omega

theorem eq_checked (inst48 : BitVec 64) :
    DecodeTable.eq 28 0x1 0x1 inst48 = isChecked inst48 := by
  unfold DecodeTable.eq isChecked
  rcases field_bit inst48 28 with h | h <;> rw [h] <;> rfl

theorem eq_unchecked (inst48 : BitVec 64) :
    DecodeTable.eq 28 0x1 0x0 inst48 = !isChecked inst48 := by
  unfold DecodeTable.eq isChecked
  rcases field_bit inst48 28 with h | h <;> rw [h] <;> rfl

theorem rawDecoded_memory {inst48 : BitVec 64} (h : field inst48 44 0xF = 0x7) :
    rawDecoded inst48 =
      (DecisionTree.run DecodeTable.Statement.apply inst48 DecodeTable.memoryWords .empty).1 :=
  congrArg Prod.fst (if_pos (decide_eq_true h))

theorem StoreWord.decoded {inst48 : BitVec 64} {width : Width} (h : StoreWord inst48 width) :
    rawDecoded inst48 = storeDecoding inst48 width := by
  have htransfer : ¬field inst48 39 0x1F &&& 0x1F = 0x0 := by
    rw [field_and_self 39 0x1F]
    intro hzero
    have hlow : (field inst48 39 0x1F).toNat = inst48.toNat / 2 ^ 39 % 2 ^ 5 :=
      field_toNat inst48 39 5 (by decide)
    have hhigh : (field inst48 42 0x3).toNat = inst48.toNat / 2 ^ 42 % 2 ^ 2 :=
      field_toNat inst48 42 2 (by decide)
    rw [hzero, show (0x0 : BitVec 64).toNat = 0 from rfl] at hlow
    rw [h.register, show (0x3 : BitVec 64).toNat = 3 from rfl] at hhigh
    omega
  have himmediate : DecodeTable.immediateSource inst48 = false := decide_eq_false h.source
  have hregister : DecodeTable.ne 32 0x3 0x3 inst48 = true := decide_eq_true h.source
  have hdma : DecodeTable.masked 39 0x1F 0x1F 0x0 inst48 = false := decide_eq_false htransfer
  have hstore : DecodeTable.eq 42 0x3 0x3 inst48 = true := decide_eq_true h.register
  have hmemory : DecodeTable.masked 28 0xF 0xC 0x4 inst48 = true := decide_eq_true h.memory
  have hscalar : DecodeTable.eq 16 0x1 0x0 inst48 = decide (width ≠ .double) := by
    unfold DecodeTable.eq
    rw [h.pair]
    cases width <;> rfl
  have hpair : DecodeTable.eq 16 0x1 0x1 inst48 = decide (width = .double) := by
    unfold DecodeTable.eq
    rw [h.pair]
    cases width <;> rfl
  have hcode (code : BitVec 64) :
      DecodeTable.masked 24 0xF 0x6 code inst48 = decide (width.code = code) := by
    unfold DecodeTable.masked
    rw [h.code]
  rw [rawDecoded_memory h.group]
  unfold storeDecoding
  simp only [DecodeTable.memoryWords, DecodeTable.storeWords, DecodeTable.storeScalar,
    DecodeTable.storePair, DecodeTable.storeBase, DecodeTable.onlyIf, DecodeTable.firstOf,
    DecodeTable.source, DecodeTable.ra, DecodeTable.endian, DecodeTable.set, DecodeTable.accept,
    DecisionTree.firstOf, List.foldr, DecisionTree.run, himmediate, hregister, hdma, hstore,
    hmemory, hscalar, hpair, hcode, eq_unchecked, eq_checked, if_true, Bool.false_eq_true,
    if_false]
  cases width <;> cases isChecked inst48 <;> rfl

theorem LoadWord.bits {inst48 : BitVec 64} {op : LoadOp} (h : LoadWord inst48 op) :
    field inst48 28 0xF &&& 0xC = 0x4 ∧ field inst48 29 0x1 = 0x0 ∧
      (field inst48 25 0x3 = 0x3 ↔ op = .ld) := by
  have hnibble : field inst48 28 0xF = ((inst48.extractLsb' 28 4 >>> 0) &&& 0xF).setWidth 64 :=
    field_nibble inst48 28 0 0xF (by decide)
  have hpair : field inst48 29 0x1 = ((inst48.extractLsb' 28 4 >>> 1) &&& 0x1).setWidth 64 :=
    field_nibble inst48 28 1 0x1 (by decide)
  have hcode : field inst48 24 0xF = ((inst48.extractLsb' 24 4 >>> 0) &&& 0xF).setWidth 64 :=
    field_nibble inst48 24 0 0xF (by decide)
  have hdouble : field inst48 25 0x3 = ((inst48.extractLsb' 24 4 >>> 1) &&& 0x3).setWidth 64 :=
    field_nibble inst48 24 1 0x3 (by decide)
  have hmemory := h.memory
  have hcoded := h.code
  rw [hnibble] at hmemory ⊢
  rw [hcode] at hcoded
  rw [hpair, hdouble]
  generalize inst48.extractLsb' 28 4 = high at hmemory ⊢
  generalize inst48.extractLsb' 24 4 = low at hcoded ⊢
  refine ⟨?_, ?_, ?_⟩
  · revert high
    decide
  · revert high
    decide
  · cases op <;> unfold LoadOp.coded at hcoded <;> revert low <;> decide

theorem LoadWord.decoded {inst48 : BitVec 64} {op : LoadOp} (h : LoadWord inst48 op) :
    rawDecoded inst48 = loadDecoding inst48 op := by
  obtain ⟨hfour, hbit, hwidth⟩ := h.bits
  have himmediate : DecodeTable.immediateSource inst48 = true := decide_eq_true h.immediate
  have hcontrol : DecodeTable.eq 42 0x3 0x3 inst48 = false := decide_eq_false h.register
  have hload : DecodeTable.ne 42 0x3 0x3 inst48 = true := decide_eq_true h.register
  have hmemory : DecodeTable.masked 28 0xF 0xC 0x4 inst48 = true := decide_eq_true hfour
  have hwide : DecodeTable.masked 28 0xF 0xE 0x4 inst48 = true := decide_eq_true h.memory
  have hscalar : DecodeTable.eq 29 0x1 0x0 inst48 = true := decide_eq_true hbit
  have hpair (last : BitVec 64) : ¬(field inst48 29 0x1 = 0x1 ∧ field inst48 39 0x1 = last) := by
    rw [hbit]
    exact fun hone => absurd hone.1 (by decide)
  have hdouble : DecodeTable.eq 25 0x3 0x3 inst48 = decide (op = .ld) := by
    unfold DecodeTable.eq
    rw [decide_eq_decide]
    exact hwidth
  have hsingle : DecodeTable.ne 25 0x3 0x3 inst48 = decide (op ≠ .ld) := by
    unfold DecodeTable.ne
    rw [decide_eq_decide]
    exact not_congr hwidth
  have hcodes : op.coded (field inst48 24 0xF) := h.code
  have hsame : field inst48 24 0xF &&& 0x6 = (field inst48 24 0xF &&& 0x7) &&& 0x6 := by
    rw [BitVec.and_assoc]
    rfl
  rw [rawDecoded_memory h.group]
  unfold loadDecoding
  simp only [DecodeTable.memoryWords, DecodeTable.loadWords, DecodeTable.loadScalar,
    DecodeTable.loadPair, DecodeTable.loadBase, DecodeTable.onlyIf, DecodeTable.firstOf,
    DecodeTable.ra, DecodeTable.rc, DecodeTable.dc, DecodeTable.endian, DecodeTable.set,
    DecodeTable.accept, DecisionTree.firstOf, List.foldr, DecisionTree.run, himmediate, hcontrol,
    hload, hmemory, hwide, hscalar, hpair, hdouble, hsingle, eq_unchecked, eq_checked,
    decide_false, Bool.false_eq_true, if_true, if_false]
  cases op with
  | lbs | lbu | lhs | lhu =>
      have hcode (code : BitVec 64) : DecodeTable.masked 24 0xF 0x7 code inst48 =
          decide (_ = code) := congrArg (fun x : BitVec 64 => decide (x = code)) hcodes
      simp only [hcode]
      cases isChecked inst48 <;> rfl
  | lw =>
      have hcode : DecodeTable.masked 24 0xF 0x6 0x4 inst48 = true := decide_eq_true hcodes
      have hnot (code : BitVec 64) (hother : code &&& 0x6 ≠ 0x4) :
          DecodeTable.masked 24 0xF 0x7 code inst48 = false := by
        apply decide_eq_false
        rintro rfl
        exact hother (hsame.symm.trans hcodes)
      simp only [hcode, hnot 1 (by decide), hnot 0 (by decide), hnot 3 (by decide),
        hnot 2 (by decide)]
      cases isChecked inst48 <;> rfl
  | ld =>
      have hcode : DecodeTable.masked 24 0xF 0x6 0x6 inst48 = true := decide_eq_true hcodes
      simp only [hcode]
      cases isChecked inst48 <;> rfl

/-- A word of this group that the decoded switch does not take has no case in the
other one either. -/
theorem opcodeEffects_memory {inst48 : BitVec 64} (hgroup : field inst48 44 0xF = 0x7)
    (dpu : Dpu) (t : Nat) : opcodeEffects (fields inst48 dpu t) = [] := by
  have hhigh : (field inst48 44 0xF).toNat = inst48.toNat / 2 ^ 44 % 2 ^ 4 :=
    field_toNat inst48 44 4 (by decide)
  rw [hgroup, show (0x7 : BitVec 64).toNat = 7 from rfl] at hhigh
  have hopcode : (fields inst48 dpu t).opcode = none := by
    apply List.getElem?_eq_none
    change 83 ≤ (byte inst48 40).toNat
    unfold byte
    rw [BitVec.toNat_setWidth, BitVec.toNat_ushiftRight, Nat.shiftRight_eq_div_pow]
    omega
  have halu : aluResult (fields inst48 dpu t) = none := by
    unfold aluResult
    rw [hopcode]
  unfold opcodeEffects
  simp only [halu, hopcode]

def baseRegister (inst48 : BitVec 64) : Nat := (gather inst48 [(34, 31, 0)] &&& 0x1F).toNat

def sourceRegister (inst48 : BitVec 64) : Nat :=
  (gather inst48 [(17, 7, 0), (32, 3, 3)] &&& 0x1F).toNat

def destinationRegister (inst48 : BitVec 64) : Nat := (gather inst48 [(39, 31, 0)] &&& 0x1F).toNat

def isBigEndian (inst48 : BitVec 64) : Bool := gather inst48 [(27, 1, 0)] ≠ 0

def storeOffset (inst48 : BitVec 64) : BitVec 32 :=
  signExtend24 (gather inst48 ([(20, 15, 0), (39, 7, 4), (24, 1, 7)] ++ highOffset))

def loadOffset (inst48 : BitVec 64) : BitVec 32 :=
  signExtend24 (gather inst48 ([(20, 15, 0), (16, 15, 4)] ++ highOffset))

def Dpu.source (dpu : Dpu) (t : Nat) (width : Width) (inst48 : BitVec 64) : BitVec 64 :=
  if width = .double then dpu.readDreg t (sourceRegister inst48)
  else (dpu.readReg t (sourceRegister inst48)).setWidth 64

def Dpu.destination (dpu : Dpu) (t : Nat) (op : LoadOp) (inst48 : BitVec 64) : BitVec 64 :=
  if op = .ld then dpu.readDreg t (destinationRegister inst48)
  else (dpu.readReg t (destinationRegister inst48)).setWidth 64

def storeTaken (width : Width) (inst48 : BitVec 64) : Bool :=
  !isChecked inst48 || width = .byte || width = .half

def loadTaken (op : LoadOp) (inst48 : BitVec 64) : Bool :=
  !isChecked inst48 && op.width ≠ .half

section
variable {inst48 : BitVec 64}

theorem StoreWord.handled {width : Width} (h : StoreWord inst48 width) :
    handled rawDecoded inst48 = storeTaken width inst48 := by
  unfold Upmem.handled
  rw [h.decoded]
  unfold RawDecoded48.hotSupported storeDecoding storeTaken
  cases isChecked inst48 <;> cases width <;> rfl

theorem LoadWord.handled {op : LoadOp} (h : LoadWord inst48 op) :
    handled rawDecoded inst48 = loadTaken op inst48 := by
  unfold Upmem.handled
  rw [h.decoded]
  unfold RawDecoded48.hotSupported loadDecoding loadTaken
  cases isChecked inst48 <;> cases op <;> rfl

theorem storeDecoding_hotEffects (width : Width) (dpu : Dpu) (t : Nat) :
    hotEffects (storeDecoding inst48 width) (operands (storeDecoding inst48 width) dpu t) =
      [.storeWram (dpu.wram.storeWidth width
        (dpu.readReg t (baseRegister inst48) + storeOffset inst48) (dpu.source t width inst48)
        (isBigEndian inst48))] := by
  have hsign : (storeDecoding inst48 width).offUsesSignExtend24 = true := by
    unfold RawDecoded48.offUsesSignExtend24 storeDecoding
    cases isChecked inst48 <;> rfl
  have himm : (storeDecoding inst48 width).storesImm32 = false := by
    unfold RawDecoded48.storesImm32 storeDecoding
    cases isChecked inst48 <;> cases width <;> rfl
  have hvoff : (operands (storeDecoding inst48 width) dpu t).voff = storeOffset inst48 :=
    if_pos hsign
  have hwide (value : BitVec 32) {bits : Nat} (hbits : bits ≤ 32) :
      (value.setWidth 64).setWidth bits = value.setWidth bits :=
    BitVec.setWidth_setWidth_of_le value (by omega)
  cases width with
  | byte =>
      simp only [hotEffects, Wram.storeWidth, Dpu.source, reduceCtorEq, if_false,
        hwide _ (show 8 ≤ 32 by decide)]
      rw [himm, hvoff]
      rfl
  | half =>
      simp only [hotEffects, Wram.storeWidth, Dpu.source, reduceCtorEq, if_false,
        hwide _ (show 16 ≤ 32 by decide)]
      rw [himm, hvoff]
      rfl
  | word =>
      simp only [hotEffects, Wram.storeWidth, Dpu.source, reduceCtorEq, if_false,
        hwide _ (show 32 ≤ 32 by decide), BitVec.setWidth_eq]
      rw [himm, hvoff]
      rfl
  | double =>
      simp only [hotEffects, Wram.storeWidth, Dpu.source, if_true]
      rw [himm, hvoff]
      rfl

theorem StoreWord.wordEffects {width : Width} (h : StoreWord inst48 width)
    (dpu : Dpu) (t : Nat) :
    wordEffects rawDecoded inst48 dpu t =
      if storeTaken width inst48 then
        [.storeWram (dpu.wram.storeWidth width
          (dpu.readReg t (baseRegister inst48) + storeOffset inst48) (dpu.source t width inst48)
          (isBigEndian inst48))]
      else [] := by
  unfold Upmem.wordEffects
  rw [h.handled]
  split
  · rw [h.decoded]
    exact storeDecoding_hotEffects width dpu t
  · exact opcodeEffects_memory h.group dpu t

def loadEffects (op : LoadOp) (inst48 : BitVec 64) (value : BitVec 64) : List Effect :=
  if op = .ld then
    [.writeDreg (destinationRegister inst48) value, .setZf ((value ||| value >>> 32).setWidth 32)]
  else
    [.writeReg (destinationRegister inst48) (value.setWidth 32), .setZf (value.setWidth 32)]

theorem loadDecoding_hotEffects {op : LoadOp} (htaken : loadTaken op inst48 = true) (dpu : Dpu)
    (t : Nat) :
    hotEffects (loadDecoding inst48 op) (operands (loadDecoding inst48 op) dpu t) =
      loadEffects op inst48 (op.loaded dpu.wram
        (dpu.readReg t (baseRegister inst48) + loadOffset inst48) (isBigEndian inst48)) := by
  have hchecked : isChecked inst48 = false := by
    cases hc : isChecked inst48 with
    | false => rfl
    | true => simp [loadTaken, hc] at htaken
  have hwidth : op.width ≠ .half := by
    intro hhalf
    simp [loadTaken, hhalf] at htaken
  have hvoff : (operands (loadDecoding inst48 op) dpu t).voff = loadOffset inst48 := by
    refine if_pos ?_
    unfold RawDecoded48.offUsesSignExtend24 loadDecoding
    rw [hchecked]
    cases op with
    | lhs | lhu => exact absurd rfl hwidth
    | _ => rfl
  have hback (value : BitVec 32) : (value.setWidth 64).setWidth 32 = value := by
    rw [BitVec.setWidth_setWidth_of_le value (by decide), BitVec.setWidth_eq]
  cases op with
  | lhs | lhu => exact absurd rfl hwidth
  | lbs | lbu | lw =>
      simp only [loadEffects, LoadOp.loaded, reduceCtorEq, if_false, hback, hotEffects]
      rw [hvoff]
      rfl
  | ld =>
      simp only [loadEffects, LoadOp.loaded, if_true, hotEffects]
      rw [hvoff]
      rfl

theorem LoadWord.wordEffects {op : LoadOp} (h : LoadWord inst48 op)
    (dpu : Dpu) (t : Nat) :
    wordEffects rawDecoded inst48 dpu t =
      if loadTaken op inst48 then
        loadEffects op inst48 (op.loaded dpu.wram
          (dpu.readReg t (baseRegister inst48) + loadOffset inst48) (isBigEndian inst48))
      else [] := by
  unfold Upmem.wordEffects
  rw [h.handled]
  split
  · rename_i htaken
    rw [h.decoded]
    exact loadDecoding_hotEffects htaken dpu t
  · exact opcodeEffects_memory h.group dpu t

theorem LoadWord.destination_lt {op : LoadOp} (h : LoadWord inst48 op) :
    destinationRegister inst48 < 24 := by
  have hhigh : (field inst48 42 0x3).toNat = inst48.toNat / 2 ^ 42 % 2 ^ 2 :=
    field_toNat inst48 42 2 (by decide)
  have hlow : (field inst48 39 0x1F).toNat = inst48.toNat / 2 ^ 39 % 2 ^ 5 :=
    field_toNat inst48 39 5 (by decide)
  have hne : (field inst48 42 0x3).toNat ≠ 3 := fun heq => h.register (BitVec.eq_of_toNat_eq heq)
  have hgather : gather inst48 [(39, 31, 0)] = (field inst48 39 0x1F).setWidth 32 := by
    unfold gather
    simp
  have hand : (gather inst48 [(39, 31, 0)] &&& 0x1F).toNat ≤
      (gather inst48 [(39, 31, 0)]).toNat := by
    rw [BitVec.toNat_and]
    exact Nat.and_le_left
  unfold destinationRegister
  rw [hgather] at hand ⊢
  rw [BitVec.toNat_setWidth, hlow] at hand
  omega

theorem join_halves (value : BitVec 64) :
    ((value >>> 32).setWidth 32).setWidth 64 <<< 32 ||| (value.setWidth 32).setWidth 64 =
      value := by
  apply BitVec.eq_of_getLsbD_eq
  intro i hi
  by_cases hlow : i < 32
  · simp [hi, hlow]
  · have hindex : 32 + (i - 32) = i := by omega
    simp [hi, hlow, hindex, show i - 32 < 32 by omega]

theorem destination_congr {before after : Dpu} {t : Nat}
    (hgp : ∀ r, (after.tasklets t).gp r = (before.tasklets t).gp r) (op : LoadOp) :
    after.destination t op inst48 = before.destination t op inst48 := by
  have hread (r : Nat) : after.readReg t r = before.readReg t r := readReg_congr fun _ => hgp r
  unfold Dpu.destination Dpu.readDreg
  dsimp only
  rw [hread, hread, hread]

theorem onTasklet_loadEffects {op : LoadOp} (hlt : destinationRegister inst48 < 24)
    (tasklet : Tasklet) (value : BitVec 64) {dpu : Dpu} {t : Nat}
    (hdpu : dpu.tasklets t = onTasklet tasklet (loadEffects op inst48 value))
    (hvalue : op ≠ .ld → (value.setWidth 32).setWidth 64 = value) :
    dpu.destination t op inst48 = value := by
  unfold Dpu.destination
  split
  · rename_i hop
    have hgp : (dpu.tasklets t).gp = (tasklet.writeDreg (destinationRegister inst48) value).gp := by
      rw [hdpu, loadEffects, if_pos hop]
      rfl
    have heven : dregSlot (dregSlot (destinationRegister inst48) * 2) =
        dregSlot (destinationRegister inst48) := by
      unfold dregSlot
      omega
    have hodd : dregSlot (dregSlot (destinationRegister inst48) * 2 + 1) =
        dregSlot (destinationRegister inst48) := by
      unfold dregSlot
      omega
    have hslot : dregSlot (destinationRegister inst48) < 12 := by
      unfold dregSlot
      omega
    unfold Dpu.readDreg
    dsimp only
    rw [if_neg (by omega), readReg_scalar _ _ (by omega), readReg_scalar _ _ (by omega), hgp,
      writeDreg_gp, writeDreg_gp, if_pos ⟨heven, by omega⟩, if_pos (by omega),
      if_pos ⟨hodd, by omega⟩, if_neg (by omega)]
    exact join_halves value
  · rename_i hop
    have hgp : (dpu.tasklets t).gp =
        (tasklet.writeReg (destinationRegister inst48) (value.setWidth 32)).gp := by
      rw [hdpu, loadEffects, if_neg hop]
      rfl
    rw [readReg_scalar _ _ hlt, hgp, writeReg_gp, if_pos ⟨rfl, hlt⟩]
    exact hvalue hop

theorem LoadOp.loaded_setWidth {op : LoadOp} (hop : op ≠ .ld) (wram : Wram) (offset : BitVec 32)
    (bigEndian : Bool) :
    ((op.loaded wram offset bigEndian).setWidth 32).setWidth 64 =
      op.loaded wram offset bigEndian := by
  have hback (value : BitVec 32) :
      ((value.setWidth 64).setWidth 32).setWidth 64 = value.setWidth 64 := by
    rw [BitVec.setWidth_setWidth_of_le value (by decide), BitVec.setWidth_eq]
  cases op with
  | ld => exact absurd rfl hop
  | _ => exact hback _

variable {dpu : Dpu} {t : Nat}

theorem StoreWord.executed {width : Width} (h : StoreWord inst48 width)
    (hfetch : fetch dpu t = some inst48) :
    let stored := (executeOnce rawDecoded dpu t).1
    dpu.Advanced stored t ∧ stored.wram =
      if storeTaken width inst48 then
        dpu.wram.storeWidth width (dpu.readReg t (baseRegister inst48) + storeOffset inst48)
          (dpu.source t width inst48) (isBigEndian inst48)
      else dpu.wram := by
  intro stored
  have heffects := h.wordEffects dpu t
  constructor
  · refine executeOnce_advanced hfetch ?_
    rw [heffects]
    split
    · exact (meets_cons _ _).mpr ⟨trivial, meets_nil⟩
    · exact meets_nil
  · have hmemories : stored.memories = _ := executeOnce_memories hfetch
    rw [heffects] at hmemories
    refine (congrArg Memories.wram hmemories).trans ?_
    split <;> rfl

theorem LoadWord.executed {op : LoadOp} (h : LoadWord inst48 op)
    (hfetch : fetch dpu t = some inst48) :
    let loaded := (executeOnce rawDecoded dpu t).1
    loaded.wram = dpu.wram ∧ loaded.destination t op inst48 =
      if loadTaken op inst48 then
        op.loaded dpu.wram (dpu.readReg t (baseRegister inst48) + loadOffset inst48)
          (isBigEndian inst48)
      else dpu.destination t op inst48 := by
  intro loaded
  have heffects := h.wordEffects dpu t
  have hmemories : loaded.memories = _ := executeOnce_memories hfetch
  have htasklet : loaded.tasklets t = _ := executeOnce_onTasklet hfetch
  rw [heffects] at hmemories htasklet
  constructor
  · refine (congrArg Memories.wram hmemories).trans ?_
    unfold loadEffects
    split
    · split <;> rfl
    · rfl
  · split
    · rename_i htaken
      rw [if_pos htaken] at htasklet
      exact onTasklet_loadEffects h.destination_lt _ _ htasklet
        fun hop => LoadOp.loaded_setWidth hop _ _ _
    · rename_i htaken
      rw [if_neg htaken] at htasklet
      refine destination_congr (fun r => ?_) op
      rw [htasklet]
      rfl

end

theorem relInBounds_iff (offset : BitVec 32) (width : Width) :
    Wram.relInBounds offset width.bytes = true ↔
      offset.toNat + width.bytes ≤ kWRAMSizeBytes := by
  unfold Wram.relInBounds
  rw [Bool.and_eq_true, decide_eq_true_eq, decide_eq_true_eq]
  cases width <;> unfold Width.bytes kWRAMSizeBytes <;> omega

/-- What a store and then the load of the same width at the same address are for. -/
structure RoundTrip (before stored loaded : Dpu) (t : Nat) (op : LoadOp)
    (storeInst loadInst : BitVec 64) (address : BitVec 32) : Prop where
  inside : address.toNat + op.width.bytes ≤ kWRAMSizeBytes →
    loaded.destination t op loadInst = op.extend (before.source t op.width storeInst)
  outside : ¬address.toNat + op.width.bytes ≤ kWRAMSizeBytes →
    stored.wram = before.wram ∧ loaded.destination t op loadInst = 0
  frame : ∀ i, ¬(address.toNat ≤ i ∧ i < address.toNat + op.width.bytes) →
    loaded.wram i = before.wram i

/-- The loaded register holds the stored value where both words are taken.  A load of
half a word, and the checked variants of the loads and of the larger stores, are not:
such a load leaves its destination, such a store WRAM as it was. -/
theorem store_load_iff (dpu : Dpu) (t : Nat) (op : LoadOp)
    (storeInst loadInst : BitVec 64) (hstore : StoreWord storeInst op.width)
    (hload : LoadWord loadInst op) (hfetch : fetch dpu t = some storeInst)
    (hnext : fetch (executeOnce rawDecoded dpu t).1 t = some loadInst)
    (haddress : dpu.readReg t (baseRegister loadInst) + loadOffset loadInst =
      dpu.readReg t (baseRegister storeInst) + storeOffset storeInst)
    (hendian : isBigEndian loadInst = isBigEndian storeInst) :
    let address := dpu.readReg t (baseRegister storeInst) + storeOffset storeInst
    let stored := (executeOnce rawDecoded dpu t).1
    let loaded := (executeOnce rawDecoded stored t).1
    let value := op.extend (dpu.source t op.width storeInst)
    let inside := address.toNat + op.width.bytes ≤ kWRAMSizeBytes
    RoundTrip dpu stored loaded t op storeInst loadInst address ↔
      if loadTaken op loadInst then
        inside → storeTaken op.width storeInst = true ∨
          op.loaded dpu.wram address (isBigEndian storeInst) = value
      else dpu.destination t op loadInst = if inside then value else 0 := by
  intro address stored loaded value inside
  obtain ⟨hadvanced, hwram⟩ := hstore.executed hfetch
  obtain ⟨hkept, hdestination⟩ := hload.executed hnext
  have hsame : stored.destination t op loadInst = dpu.destination t op loadInst := by
    refine destination_congr (fun r => ?_) op
    rw [hadvanced.tasklets, if_pos rfl]
    rfl
  rw [hadvanced.readReg, haddress, hendian, hsame] at hdestination
  have hframe (i : Nat) (hi : ¬(address.toNat ≤ i ∧ i < address.toNat + op.width.bytes)) :
      loaded.wram i = dpu.wram i := by
    rw [hkept, hwram]
    split
    · exact dpu.wram.storeWidth_frame op.width address _ _ hi
    · rfl
  have houtside (hout : ¬inside) : stored.wram = dpu.wram := by
    have hbounds := Bool.eq_false_iff.mpr (mt (relInBounds_iff address op.width).mp hout)
    rw [hwram]
    split
    · exact dpu.wram.storeWidth_outside hbounds _ _
    · rfl
  have htrip : RoundTrip dpu stored loaded t op storeInst loadInst address ↔
      loaded.destination t op loadInst = if inside then value else 0 := by
    by_cases hin : inside
    · rw [if_pos hin]
      constructor
      · exact fun h => h.inside hin
      · exact fun h => ⟨fun _ => h, fun hout => absurd hin hout, hframe⟩
    · rw [if_neg hin]
      constructor
      · exact fun h => (h.outside hin).2
      · exact fun h => ⟨fun hin' => absurd hin' hin, fun _ => ⟨houtside hin, h⟩, hframe⟩
  rw [htrip, hdestination]
  cases htaken : loadTaken op loadInst with
  | false => rfl
  | true =>
      have hwidth : op.width ≠ .half := by
        intro hhalf
        simp [loadTaken, hhalf] at htaken
      rw [if_pos rfl, if_pos rfl]
      by_cases hin : inside
      · have hbounds := (relInBounds_iff address op.width).mpr hin
        rw [if_pos hin]
        cases hstored : storeTaken op.width storeInst with
        | true =>
            rw [hwram, hstored, if_pos rfl, LoadOp.loaded_storeWidth hwidth _ hbounds]
            exact ⟨fun _ _ => .inl rfl, fun _ => rfl⟩
        | false =>
            rw [hwram, hstored, if_neg (by decide)]
            exact ⟨fun h _ => .inr h, fun h => (h hin).resolve_left (by decide)⟩
      · have hbounds := Bool.eq_false_iff.mpr (mt (relInBounds_iff address op.width).mp hin)
        rw [if_neg hin, LoadOp.loaded_outside _ hbounds]
        exact ⟨fun _ h => absurd h hin, fun _ => rfl⟩

/-- `sw r0, 4, r1` and `lw r2, r0, 4`, big endian. -/
def wordProgram : Dpu := programDpu [0x7C004C420000, 0x71034C400000] [0x100, 0xDEADBEEF]

theorem store_load_word :
    let decode := rawDecoded
    (executeOnce decode (executeOnce decode wordProgram 0).1 0).1.destination 0 .lw
      0x71034C400000 = 0xDEADBEEF := by
  intro decode
  have hstore : StoreWord 0x7C004C420000 .word :=
    ⟨by decide, by decide, by decide, by decide, by decide, by decide⟩
  have hload : LoadWord 0x71034C400000 .lw :=
    ⟨by decide, by decide, by decide, by decide, by unfold LoadOp.coded; decide⟩
  have htrip := (store_load_iff wordProgram 0 .lw 0x7C004C420000
    0x71034C400000 hstore hload (by decide +kernel) (by decide +kernel) (by decide +kernel)
    (by decide)).mpr fun _ => .inl (by decide)
  exact (htrip.inside (by decide +kernel)).trans (by decide +kernel)

/-- `sh r0, 4, r1` and `lhu r2, r0, 4`. -/
def halfProgram : Dpu := programDpu [0x7C0042420000, 0x710342400000] [0x100, 5]

/-- Register 2 stays zero. -/
theorem store_load_half_missed :
    let decode := rawDecoded
    let stored := (executeOnce decode halfProgram 0).1
    let loaded := (executeOnce decode stored 0).1
    fetch halfProgram 0 = some 0x7C0042420000 ∧ fetch stored 0 = some 0x710342400000 ∧
      StoreWord 0x7C0042420000 .half ∧ LoadWord 0x710342400000 .lhu ∧
      loaded.destination 0 .lhu 0x710342400000 = 0 ∧
      ¬RoundTrip halfProgram stored loaded 0 .lhu 0x7C0042420000 0x710342400000 0x104 := by
  intro decode stored loaded
  have hloaded : loaded.destination 0 .lhu 0x710342400000 = 0 := by decide +kernel
  refine ⟨by decide +kernel, by decide +kernel,
    ⟨by decide, by decide, by decide, by decide, by decide, by decide⟩,
    ⟨by decide, by decide, by decide, by decide, by unfold LoadOp.coded; decide⟩, hloaded, ?_⟩
  intro htrip
  have hvalue := htrip.inside (by decide)
  rw [hloaded] at hvalue
  exact absurd hvalue (by decide +kernel)

end HostPimSim.Upmem
