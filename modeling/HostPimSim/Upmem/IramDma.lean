import HostPimSim.Upmem.LoadStore

/-! Transfers from MRAM to IRAM.  The engine has them and the decoder accepts their
instruction, but no switch executes it. -/
namespace HostPimSim.Upmem

open DecodeTable (rawDecoded)

def Mram.loadU8 (mram : Mram) (byteOffset : BitVec 32) : BitVec 8 :=
  if byteInBounds byteOffset 1 && mram.mapped && decide (byteOffset.toNat < mram.size) then
    mram.bytes byteOffset.toNat
  else 0

def Mram.loadInst48 (mram : Mram) (srcOff : BitVec 32) : BitVec 64 :=
  (mram.loadU8 (srcOff + 0)).setWidth 64 <<< 0 ||| (mram.loadU8 (srcOff + 1)).setWidth 64 <<< 8 |||
    (mram.loadU8 (srcOff + 2)).setWidth 64 <<< 16 |||
    (mram.loadU8 (srcOff + 3)).setWidth 64 <<< 24 |||
    (mram.loadU8 (srcOff + 4)).setWidth 64 <<< 32 |||
    (mram.loadU8 (srcOff + 5)).setWidth 64 <<< 40

/-- The loop over the slots, from `slot` on; it ends at the first one out of bounds. -/
def copySlots (mram : Mram) (mramOffset : BitVec 32) (iramSlot : BitVec 16) :
    Nat → Nat → Iram → Iram
  | _, 0, iram => iram
  | slot, left + 1, iram =>
      let dstSlot := BitVec.ofNat 16 (iramSlot.toNat + slot)
      if Iram.slotInBounds dstSlot then
        copySlots mram mramOffset iramSlot (slot + 1) left
          (iram.writeWord dstSlot
            (mram.loadInst48 (BitVec.ofNat 32 (mramOffset.toNat + slot * 6))))
      else iram

def iramCopySlots (mram : Mram) (bytes : Nat) (mramOffset : BitVec 32) (iramSlot : BitVec 16) :
    Nat :=
  if !mram.bound || bytes = 0 then 0
  else if mramOffset.toNat ≥ mram.size || iramSlot.toNat * 6 ≥ kIRAMSizeBytes then 0
  else
    let copyBytes :=
      min bytes (min (mram.size - mramOffset.toNat) (kIRAMSizeBytes - iramSlot.toNat * 6))
    if copyBytes < 6 then 0 else copyBytes / 6

def dmaToIramFromMram (iram : Iram) (mram : Mram) (bytes : Nat) (mramOffset : BitVec 32)
    (iramSlot : BitVec 16) : Iram :=
  copySlots mram mramOffset iramSlot 0 (iramCopySlots mram bytes mramOffset iramSlot) iram

def iramWritten (mram : Mram) (bytes : Nat) (mramOffset : BitVec 32) (iramSlot : BitVec 16) :
    Nat :=
  min (iramCopySlots mram bytes mramOffset iramSlot) (kIRAMSizeBytes / 8 - iramSlot.toNat)

section
variable (mram : Mram) (mramOffset : BitVec 32) (iramSlot : BitVec 16)

theorem slotInBounds_ofNat {slot : Nat} (h : slot < 2 ^ 16) :
    Iram.slotInBounds (BitVec.ofNat 16 slot) = true ↔ slot < kIRAMSizeBytes / 8 := by
  unfold Iram.slotInBounds kIRAMSizeBytes
  rw [BitVec.toNat_ofNat, Nat.mod_eq_of_lt h, Bool.and_eq_true, decide_eq_true_eq,
    decide_eq_true_eq]
  omega

/-- The word that belongs in the slot `slot` after the first. -/
def sourceWord (slot : Nat) : BitVec 64 :=
  mram.loadInst48 (BitVec.ofNat 32 (mramOffset.toNat + slot * 6)) &&& kIramInst48Mask

theorem copySlots_eq (left slot : Nat) (iram : Iram) (i : Nat)
    (hbound : iramSlot.toNat + slot + left ≤ 2 ^ 16) :
    copySlots mram mramOffset iramSlot slot left iram i =
      if iramSlot.toNat + slot ≤ i ∧ i < iramSlot.toNat + slot + left ∧ i < kIRAMSizeBytes / 8 then
        sourceWord mram mramOffset (i - iramSlot.toNat)
      else iram i := by
  induction left generalizing slot iram with
  | zero =>
      rw [copySlots, if_neg (by omega)]
  | succ left ih =>
      have hslot : iramSlot.toNat + slot < 2 ^ 16 := by omega
      have hin := slotInBounds_ofNat hslot
      unfold copySlots
      dsimp only
      by_cases hlt : iramSlot.toNat + slot < kIRAMSizeBytes / 8
      · rw [if_pos (hin.mpr hlt), ih (slot + 1) _ (by omega)]
        unfold Iram.writeWord
        rw [if_pos (hin.mpr hlt), BitVec.toNat_ofNat, Nat.mod_eq_of_lt hslot]
        by_cases hfirst : i = iramSlot.toNat + slot
        · subst hfirst
          rw [if_neg (by omega), if_pos rfl, if_pos ⟨by omega, by omega, hlt⟩]
          unfold sourceWord
          rw [Nat.add_sub_cancel_left]
        · rw [if_neg hfirst]
          by_cases hlater : iramSlot.toNat + (slot + 1) ≤ i ∧
              i < iramSlot.toNat + (slot + 1) + left ∧ i < kIRAMSizeBytes / 8
          · rw [if_pos hlater, if_pos (by omega)]
          · rw [if_neg hlater, if_neg (by omega)]
      · rw [if_neg (fun h => hlt (hin.mp h)), if_neg (by omega)]

end

section
variable (iram : Iram) (mram : Mram) (bytes : Nat) (mramOffset : BitVec 32) (iramSlot : BitVec 16)

theorem iramCopySlots_le :
    iramSlot.toNat + iramCopySlots mram bytes mramOffset iramSlot ≤ 2 ^ 16 := by
  have hslot := iramSlot.isLt
  unfold iramCopySlots kIRAMSizeBytes
  split
  · omega
  · split
    · omega
    · rename_i hin
      simp only [Bool.or_eq_true, decide_eq_true_eq, not_or, ge_iff_le, Nat.not_le] at hin
      dsimp only
      split
      · omega
      · omega

/-- Consecutive slots get the words at the source, and no other slot changes. -/
theorem dmaToIramFromMram_eq (i : Nat) :
    dmaToIramFromMram iram mram bytes mramOffset iramSlot i =
      if iramSlot.toNat ≤ i ∧ i < iramSlot.toNat + iramWritten mram bytes mramOffset iramSlot then
        sourceWord mram mramOffset (i - iramSlot.toNat)
      else iram i := by
  have hle := iramCopySlots_le mram bytes mramOffset iramSlot
  unfold dmaToIramFromMram
  rw [copySlots_eq mram mramOffset iramSlot _ 0 iram i hle]
  refine if_congr ?_ rfl rfl
  unfold iramWritten
  omega

end

structure LdmaiWord (inst48 : BitVec 64) : Prop where
  group : field inst48 44 0xF = 0x7
  source : field inst48 32 0x3 ≠ 0x3
  transfer : field inst48 39 0x1F = 0x0
  code : field inst48 0 0xFFFF = 0x1

section
variable {inst48 : BitVec 64} (h : LdmaiWord inst48)
include h

theorem LdmaiWord.decoded :
    (rawDecoded inst48).valid = true ∧ (rawDecoded inst48).hotOp = .none := by
  have himmediate : DecodeTable.immediateSource inst48 = false := decide_eq_false h.source
  have hregister : DecodeTable.ne 32 0x3 0x3 inst48 = true := decide_eq_true h.source
  have htransfer : DecodeTable.masked 39 0x1F 0x1F 0x0 inst48 = true := by
    unfold DecodeTable.masked
    rw [field_and_self, h.transfer]
    rfl
  have hcode (code : BitVec 64) :
      DecodeTable.masked 0 0xFFFF 0xFFFF code inst48 = decide (0x1 = code) := by
    unfold DecodeTable.masked
    rw [field_and_self, h.code]
  rw [rawDecoded_memory h.group]
  simp only [DecodeTable.memoryWords, DecodeTable.dmaWords, DecodeTable.firstOf, DecodeTable.set,
    DecodeTable.source, DecodeTable.ra, DecodeTable.accept, DecisionTree.firstOf, List.foldr,
    DecisionTree.run, himmediate, hregister, htransfer, hcode, Bool.false_eq_true, if_true,
    if_false]
  exact ⟨rfl, rfl⟩

theorem LdmaiWord.handled : handled rawDecoded inst48 = false := by
  unfold Upmem.handled RawDecoded48.hotSupported
  rw [h.decoded.2, Bool.and_false]

theorem LdmaiWord.wordEffects (dpu : Dpu) (t : Nat) :
    wordEffects rawDecoded inst48 dpu t = [] := by
  rw [wordEffects_not_handled h.handled]
  exact opcodeEffects_memory h.group dpu t

theorem LdmaiWord.executed {dpu : Dpu} {t : Nat} (hfetch : fetch dpu t = some inst48) :
    dpu.Advanced (executeOnce rawDecoded dpu t).1 t ∧
      (executeOnce rawDecoded dpu t).1.memories = dpu.memories := by
  have heffects := h.wordEffects dpu t
  constructor
  · refine executeOnce_advanced hfetch ?_
    rw [heffects]
    exact meets_nil
  · rw [executeOnce_memories hfetch, heffects]
    rfl

end

/-- What LDMAI is for, whichever length, source and slot its operands stand for. -/
structure LoadsInstructions (before after : Dpu) (bytes : Nat) (mramOffset : BitVec 32)
    (iramSlot : BitVec 16) : Prop where
  iram : after.iram = dmaToIramFromMram before.iram before.mram bytes mramOffset iramSlot
  wram : after.wram = before.wram
  mram : after.mram = before.mram

/-- LDMAI does nothing: IRAM is as the engine would leave it only where it already was. -/
theorem ldmai_loads_iff (dpu : Dpu) (t : Nat)
    (inst48 : BitVec 64) (hword : LdmaiWord inst48) (hfetch : fetch dpu t = some inst48)
    (bytes : Nat) (mramOffset : BitVec 32) (iramSlot : BitVec 16) :
    LoadsInstructions dpu (executeOnce rawDecoded dpu t).1 bytes mramOffset iramSlot ↔
      ∀ slot, slot < iramWritten dpu.mram bytes mramOffset iramSlot →
        dpu.iram (iramSlot.toNat + slot) = sourceWord dpu.mram mramOffset slot := by
  obtain ⟨hadvanced, hmemories⟩ := hword.executed hfetch
  have hwram : (executeOnce rawDecoded dpu t).1.wram = dpu.wram :=
    congrArg Memories.wram hmemories
  have hmram : (executeOnce rawDecoded dpu t).1.mram = dpu.mram :=
    congrArg Memories.mram hmemories
  constructor
  · intro hloads slot hslot
    have hiram := congrFun hloads.iram (iramSlot.toNat + slot)
    rw [hadvanced.iram, dmaToIramFromMram_eq, if_pos (by omega), Nat.add_sub_cancel_left] at hiram
    exact hiram
  · intro hsame
    refine ⟨?_, hwram, hmram⟩
    rw [hadvanced.iram]
    funext i
    rw [dmaToIramFromMram_eq]
    split
    · rename_i hin
      have hslot := hsame (i - iramSlot.toNat) (by omega)
      rw [Nat.add_sub_cancel' hin.1] at hslot
      exact hslot
    · rfl

/-- LDMAI in the first slot, and these bytes at the start of MRAM. -/
def ldmaiDpu (bytes : List (BitVec 8)) : Dpu :=
  { programDpu [0x700000000001] [] with mram := ⟨true, kMramSizeBytes, fun i => bytes.getD i 0⟩ }

theorem ldmaiWord_first : LdmaiWord 0x700000000001 :=
  ⟨by decide, by decide, by decide, by decide⟩

theorem ldmai_loads_itself :
    LoadsInstructions (ldmaiDpu [0x01, 0, 0, 0, 0, 0x70])
      (executeOnce rawDecoded (ldmaiDpu [0x01, 0, 0, 0, 0, 0x70]) 0).1
      8 0 0 := by
  refine (ldmai_loads_iff _ 0 0x700000000001 ldmaiWord_first (by decide +kernel)
    8 0 0).mpr ?_
  have hwritten : iramWritten (ldmaiDpu [0x01, 0, 0, 0, 0, 0x70]).mram 8 0 0 = 1 := by
    decide +kernel
  intro slot hslot
  rw [hwritten] at hslot
  obtain rfl : slot = 0 := by omega
  decide +kernel

/-- The first slot keeps LDMAI, where the source has another word. -/
theorem ldmai_loads_nothing :
    let dpu := ldmaiDpu [0x05]
    let after := (executeOnce rawDecoded dpu 0).1
    dpu.mram.bound = true ∧ fetch dpu 0 = some 0x700000000001 ∧ LdmaiWord 0x700000000001 ∧
      (dmaToIramFromMram dpu.iram dpu.mram 8 0 0) 0 = 0x05 ∧ after.iram 0 = 0x700000000001 ∧
      ¬LoadsInstructions dpu after 8 0 0 := by
  intro dpu after
  have hloaded : (dmaToIramFromMram dpu.iram dpu.mram 8 0 0) 0 = 0x05 := by decide +kernel
  have hkept : after.iram 0 = 0x700000000001 := by decide +kernel
  refine ⟨by decide, by decide +kernel, ldmaiWord_first, hloaded, hkept, ?_⟩
  intro hloads
  have hiram := congrFun hloads.iram 0
  rw [hkept, hloaded] at hiram
  exact absurd hiram (by decide)

end HostPimSim.Upmem
