import HostPimSim.Upmem.Memory

/-! WRAM by the width of an access: what a store leaves, and what the load of the same
width makes of it. -/
namespace HostPimSim.Upmem
open Core.Register (loadBytes loadBytes_eq_iff loadBytes_store pimIsSupportedRegisterSize
  getLsbD_pimRegisterValueMask supported_le truncate store)

theorem bswap32_getLsbD (value : BitVec 32) {i : Nat} (hi : i < 32) :
    (bswap32 value).getLsbD i = value.getLsbD (24 - i / 8 * 8 + i % 8) := by
  unfold bswap32
  interval_cases i <;> simp

theorem bswap32_bswap32 (value : BitVec 32) : bswap32 (bswap32 value) = value := by
  apply BitVec.eq_of_getLsbD_eq
  intro i hi
  rw [bswap32_getLsbD _ hi, bswap32_getLsbD _ (by omega)]
  congr 1
  omega

/-- The bit that lands in place `i` when neighbouring groups of `s` bits are swapped. -/
def swapped (s i : Nat) : Nat := if i / s % 2 = 0 then i + s else i - s

theorem swapStep_getLsbD {s : Nat} (hs : s = 8 ∨ s = 16 ∨ s = 32) (value low high : BitVec 64)
    (hlow : ∀ j, j < 64 → low.getLsbD j = decide (j / s % 2 = 0))
    (hhigh : ∀ j, j < 64 → high.getLsbD j = decide (j / s % 2 = 1)) {i : Nat} (hi : i < 64) :
    ((value &&& low) <<< s ||| (value &&& high) >>> s).getLsbD i =
      value.getLsbD (swapped s i) := by
  rw [BitVec.getLsbD_or, BitVec.getLsbD_shiftLeft, BitVec.getLsbD_ushiftRight,
    BitVec.getLsbD_and, BitVec.getLsbD_and, hlow _ (by omega)]
  unfold swapped
  split
  · rename_i heven
    have hup : s + i < 64 := by
      obtain rfl | rfl | rfl := hs <;> omega
    have hhighBit : (s + i) / s % 2 = 1 := by
      obtain rfl | rfl | rfl := hs <;> omega
    have hfirst : (decide (i < 64) && !decide (i < s) &&
        (value.getLsbD (i - s) && decide ((i - s) / s % 2 = 0))) = false := by
      by_cases hsmall : i < s
      · simp [hsmall]
      · have hodd : ¬(i - s) / s % 2 = 0 := by
          obtain rfl | rfl | rfl := hs <;> omega
        simp [hodd]
    rw [hfirst, hhigh _ hup, decide_eq_true hhighBit, Nat.add_comm, Bool.and_true,
      Bool.false_or]
  · rename_i hodd
    have hlarge : ¬i < s := by
      obtain rfl | rfl | rfl := hs <;> omega
    have hlowBit : (i - s) / s % 2 = 0 := by
      obtain rfl | rfl | rfl := hs <;> omega
    have hsecond : (value.getLsbD (s + i) && high.getLsbD (s + i)) = false := by
      by_cases hin : s + i < 64
      · have heven : ¬(s + i) / s % 2 = 1 := by
          obtain rfl | rfl | rfl := hs <;> omega
        rw [hhigh _ hin, decide_eq_false heven, Bool.and_false]
      · rw [BitVec.getLsbD_of_ge _ _ (by omega), Bool.false_and]
    rw [hsecond, Bool.or_false, decide_eq_true hi, decide_eq_false hlarge,
      decide_eq_true hlowBit]
    simp

theorem swapped_swapped (i : Fin 64) :
    swapped 32 (swapped 16 (swapped 8 (swapped 32 (swapped 16 (swapped 8 i))))) = i ∧
      swapped 8 i < 64 ∧ swapped 16 (swapped 8 i) < 64 ∧
      swapped 32 (swapped 16 (swapped 8 i)) < 64 := by
  revert i
  decide

theorem bswap64_getLsbD (value : BitVec 64) {i : Nat} (hi : i < 64) :
    (bswap64 value).getLsbD i = value.getLsbD (swapped 32 (swapped 16 (swapped 8 i))) := by
  obtain ⟨-, hfirst, hsecond, -⟩ := swapped_swapped ⟨i, hi⟩
  unfold bswap64
  dsimp only
  rw [swapStep_getLsbD (.inl rfl) _ _ _ (by decide) (by decide) hi,
    swapStep_getLsbD (.inr (.inl rfl)) _ _ _ (by decide) (by decide) hfirst,
    swapStep_getLsbD (.inr (.inr rfl)) _ _ _ (by decide) (by decide) hsecond]

theorem bswap64_bswap64 (value : BitVec 64) : bswap64 (bswap64 value) = value := by
  apply BitVec.eq_of_getLsbD_eq
  intro i hi
  obtain ⟨hback, -, -, hlast⟩ := swapped_swapped ⟨i, hi⟩
  rw [bswap64_getLsbD _ hi, bswap64_getLsbD _ hlast]
  exact congrArg value.getLsbD hback

inductive Width where
  | byte
  | half
  | word
  | double
  deriving DecidableEq

def Width.bytes : Width → Nat
  | byte => 1
  | half => 2
  | word => 4
  | double => 8

namespace Wram
variable (wram : Wram)

def storeWidth (width : Width) (offset : BitVec 32) (value : BitVec 64) (bigEndian : Bool) :
    Wram :=
  match width with
  | .byte => wram.storeU8 offset (value.setWidth 8)
  | .half => wram.storeU16 offset (value.setWidth 16) false
  | .word => wram.storeU32 offset (value.setWidth 32) bigEndian
  | .double => wram.storeU64 offset value bigEndian

theorem storeWidth_copyIn (width : Width) (offset : BitVec 32) (value : BitVec 64)
    (bigEndian : Bool) :
    ∃ stored, wram.storeWidth width offset value bigEndian =
      if relInBounds offset width.bytes then wram.copyIn offset width.bytes stored else wram := by
  cases width <;> exact ⟨_, rfl⟩

theorem storeWidth_frame (width : Width) (offset : BitVec 32) (value : BitVec 64)
    (bigEndian : Bool) {i : Nat}
    (hi : ¬(offset.toNat ≤ i ∧ i < offset.toNat + width.bytes)) :
    wram.storeWidth width offset value bigEndian i = wram i := by
  obtain ⟨stored, hstored⟩ := wram.storeWidth_copyIn width offset value bigEndian
  rw [hstored]
  split
  · exact if_neg hi
  · rfl

theorem storeWidth_outside {width : Width} {offset : BitVec 32}
    (h : relInBounds offset width.bytes = false) (value : BitVec 64) (bigEndian : Bool) :
    wram.storeWidth width offset value bigEndian = wram := by
  obtain ⟨stored, hstored⟩ := wram.storeWidth_copyIn width offset value bigEndian
  rw [hstored, if_neg (Bool.eq_false_iff.mp h)]

theorem copyOut_copyIn {size : Nat} (hsize : pimIsSupportedRegisterSize size = true)
    (offset : BitVec 32) (value : BitVec 64) :
    (wram.copyIn offset size value).copyOut offset size = truncate size value := by
  have hbytes : loadBytes (fun i => wram.copyIn offset size value (offset.toNat + i)) size =
      loadBytes (store (fun _ => 0) size value) size := by
    rw [loadBytes_eq_iff (supported_le hsize)]
    intro i hi
    unfold copyIn store
    rw [if_pos (by omega), if_pos hi, Nat.add_sub_cancel_left]
  unfold copyOut
  rw [hbytes, loadBytes_store hsize hsize value (by omega)]
  unfold truncate
  rw [BitVec.and_assoc, BitVec.and_self]

end Wram

theorem setWidth_truncate_word (value : BitVec 32) :
    (truncate 4 (value.setWidth 64)).setWidth 32 = value := by
  apply BitVec.eq_of_getLsbD_eq
  intro i hi
  unfold truncate
  rw [BitVec.getLsbD_setWidth, BitVec.getLsbD_and, BitVec.getLsbD_setWidth,
    getLsbD_pimRegisterValueMask rfl (by omega)]
  simp [hi, show i < 64 by omega]

namespace Wram
variable (wram : Wram) {offset : BitVec 32}

theorem loadU8_storeU8 (h : relInBounds offset 1 = true) (value : BitVec 8) :
    (wram.storeU8 offset value).loadU8 offset = value := by
  unfold storeU8 loadU8
  rw [if_pos h, if_pos h]
  unfold copyIn
  rw [if_pos (by omega), Nat.sub_self, Nat.zero_mul, BitVec.ushiftRight_zero,
    BitVec.setWidth_setWidth_of_le _ (by decide), BitVec.setWidth_eq]

theorem loadU32_storeU32 (h : relInBounds offset 4 = true) (value : BitVec 32)
    (bigEndian : Bool) :
    (wram.storeU32 offset value bigEndian).loadU32 offset bigEndian = value := by
  unfold storeU32 loadU32
  rw [if_pos h, if_neg (by simp [h])]
  dsimp only
  rw [copyOut_copyIn _ rfl, setWidth_truncate_word]
  cases bigEndian with
  | true => exact bswap32_bswap32 value
  | false => rfl

theorem loadU64_storeU64 (h : relInBounds offset 8 = true) (value : BitVec 64)
    (bigEndian : Bool) :
    (wram.storeU64 offset value bigEndian).loadU64 offset bigEndian = value := by
  have htruncate (stored : BitVec 64) : truncate 8 stored = stored := BitVec.and_allOnes
  unfold storeU64 loadU64
  rw [if_pos h, if_neg (by simp [h])]
  dsimp only
  rw [copyOut_copyIn _ rfl, htruncate]
  cases bigEndian with
  | true => exact bswap64_bswap64 value
  | false => rfl

end Wram

inductive LoadOp where
  | lbs
  | lbu
  | lhs
  | lhu
  | lw
  | ld
  deriving DecidableEq

namespace LoadOp

def width : LoadOp → Width
  | lbs | lbu => .byte
  | lhs | lhu => .half
  | lw => .word
  | ld => .double

/-- The value that stands for a stored one: cut to the width and extended to the
destination, which is a pair for the last load and a register for the others. -/
def extend (op : LoadOp) (value : BitVec 64) : BitVec 64 :=
  match op with
  | lbs => ((value.setWidth 8).signExtend 32).setWidth 64
  | lbu => ((value.setWidth 8).setWidth 32).setWidth 64
  | lhs => ((value.setWidth 16).signExtend 32).setWidth 64
  | lhu => ((value.setWidth 16).setWidth 32).setWidth 64
  | lw => (value.setWidth 32).setWidth 64
  | ld => value

def loaded (op : LoadOp) (wram : Wram) (offset : BitVec 32) (bigEndian : Bool) : BitVec 64 :=
  match op with
  | lbs => ((wram.loadU8 offset).signExtend 32).setWidth 64
  | lbu => ((wram.loadU8 offset).setWidth 32).setWidth 64
  | lhs => (((wram.loadU16 offset bigEndian).setWidth 16).signExtend 32).setWidth 64
  | lhu => (wram.loadU16 offset bigEndian).setWidth 64
  | lw => (wram.loadU32 offset bigEndian).setWidth 64
  | ld => wram.loadU64 offset bigEndian

theorem loaded_storeWidth {op : LoadOp} (hop : op.width ≠ .half) (wram : Wram)
    {offset : BitVec 32} (h : Wram.relInBounds offset op.width.bytes = true)
    (value : BitVec 64) (bigEndian : Bool) :
    op.loaded (wram.storeWidth op.width offset value bigEndian) offset bigEndian =
      op.extend value := by
  cases op with
  | lhs | lhu => exact absurd rfl hop
  | lbs => simp only [loaded, width, Wram.storeWidth, Wram.loadU8_storeU8 wram h, extend]
  | lbu => simp only [loaded, width, Wram.storeWidth, Wram.loadU8_storeU8 wram h, extend]
  | lw => simp only [loaded, width, Wram.storeWidth, Wram.loadU32_storeU32 wram h, extend]
  | ld => simp only [loaded, width, Wram.storeWidth, Wram.loadU64_storeU64 wram h, extend]

theorem loaded_outside {op : LoadOp} (wram : Wram) {offset : BitVec 32}
    (h : Wram.relInBounds offset op.width.bytes = false) (bigEndian : Bool) :
    op.loaded wram offset bigEndian = 0 := by
  cases op with
  | lbs | lbu =>
      have hzero : wram.loadU8 offset = 0 := if_neg (Bool.eq_false_iff.mp h)
      simp only [loaded, hzero]
      decide
  | lhs | lhu =>
      have hzero : wram.loadU16 offset bigEndian = 0 := if_pos (congrArg (!·) h)
      simp only [loaded, hzero]
      decide
  | lw =>
      have hzero : wram.loadU32 offset bigEndian = 0 := if_pos (congrArg (!·) h)
      simp only [loaded, hzero]
      decide
  | ld => exact if_pos (congrArg (!·) h)

end LoadOp

end HostPimSim.Upmem
