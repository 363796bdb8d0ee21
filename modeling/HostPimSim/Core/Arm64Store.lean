import HostPimSim.Core.StoreDecode

/-! The stores of AArch64 against the two tests of the decoder. -/
namespace HostPimSim.Core.StoreDecode

inductive Arm64Offset where
  | unsigned (imm : BitVec 12)
  | unscaled (imm : BitVec 9)

/-- STRB, STRH and STR, or STURB, STURH and STUR, by `size`. -/
structure Arm64Store where
  size : BitVec 2
  offset : Arm64Offset
  rn : BitVec 5
  rt : BitVec 5

namespace Arm64Store

def word (store : Arm64Store) : BitVec 32 :=
  match store.offset with
  | .unsigned imm => store.size ++ 0b11100100#8 ++ imm ++ store.rn ++ store.rt
  | .unscaled imm =>
      store.size ++ 0b11100000#8 ++ 0#1 ++ imm ++ 0#2 ++ store.rn ++ store.rt

def write (store : Arm64Store) (regs : Nat → BitVec 64) : DecodedWrite :=
  let value := if store.rt = 31 then 0 else regs store.rt.toNat
  ⟨2 ^ store.size.toNat, Register.truncate (2 ^ store.size.toNat) value, 4⟩

theorem word_getLsbD (store : Arm64Store) : store.word.getLsbD 27 = true := by
  unfold word
  split
  · rw [BitVec.getLsbD_append, BitVec.getLsbD_append, BitVec.getLsbD_append,
      BitVec.getLsbD_append]
    rfl
  · rw [BitVec.getLsbD_append, BitVec.getLsbD_append, BitVec.getLsbD_append,
      BitVec.getLsbD_append, BitVec.getLsbD_append, BitVec.getLsbD_append]
    rfl

end Arm64Store

/-- A word is decoded as the store it encodes, and not at all if it encodes none. -/
def Arm64Decoded (insn : BitVec 32) (regs : Nat → BitVec 64) : Prop :=
  (∀ store : Arm64Store, store.word = insn →
    decodeArm64Write insn regs = some (store.write regs)) ∧
      ((¬∃ store : Arm64Store, store.word = insn) → decodeArm64Write insn regs = none)

def tested (insn : BitVec 32) : Prop :=
  insn.extractLsb' 25 7 = 0x38 ∧ (insn.getLsbD 22 = true ∨ insn.extractLsb' 10 2 = 0)

theorem op1_tests (top : BitVec 10) :
    (top.setWidth 32 &&& 0x3F9 = 0x1C1 ↔ top.extractLsb' 3 7 = 0x38 ∧ top.getLsbD 0 = true) ∧
      (top.setWidth 32 &&& 0x3F8 = 0x1C0 ↔ top.extractLsb' 3 7 = 0x38) := by
  revert top
  decide +kernel

theorem shiftRight_and_mask (insn : BitVec 32) (start len : Nat) (hlen : len < 32) :
    (insn >>> start) &&& BitVec.ofNat 32 (2 ^ len - 1) =
      (insn.extractLsb' start len).setWidth 32 := by
  have hpow : 2 ^ len < 2 ^ 32 := Nat.pow_lt_pow_right (by decide) hlen
  apply BitVec.eq_of_toNat_eq
  rw [BitVec.toNat_and, BitVec.toNat_ushiftRight, BitVec.toNat_ofNat, BitVec.toNat_setWidth,
    BitVec.extractLsb'_toNat, Nat.mod_eq_of_lt (by omega), Nat.and_two_pow_sub_one_eq_mod,
    Nat.mod_eq_of_lt (a := _ % 2 ^ len) ((Nat.mod_lt _ (Nat.two_pow_pos len)).trans hpow)]

theorem decodeArm64Write_eq (insn : BitVec 32) (regs : Nat → BitVec 64) :
    (tested insn → decodeArm64Write insn regs = some (arm64Write insn regs)) ∧
      (¬tested insn → decodeArm64Write insn regs = none) := by
  obtain ⟨hunsigned, hunscaled⟩ := op1_tests (insn.extractLsb' 22 10)
  have hop1 : (insn >>> 22) &&& 0x3FF = (insn.extractLsb' 22 10).setWidth 32 :=
    shiftRight_and_mask insn 22 10 (by decide)
  have hlow : (insn >>> 10) &&& 0x03 = 0 ↔ insn.extractLsb' 10 2 = 0 := by
    have hmask : (insn >>> 10) &&& 0x03 = (insn.extractLsb' 10 2).setWidth 32 :=
      shiftRight_and_mask insn 10 2 (by decide)
    rw [hmask, ← BitVec.toNat_inj, ← BitVec.toNat_inj, BitVec.toNat_setWidth]
    have hlt := (insn.extractLsb' 10 2).isLt
    rw [Nat.mod_eq_of_lt (by omega)]
    rfl
  have htop : (insn.extractLsb' 22 10).extractLsb' 3 7 = insn.extractLsb' 25 7 := by
    apply BitVec.eq_of_getLsbD_eq
    intro i hi
    have hlt : 3 + i < 10 := by omega
    simp only [BitVec.getLsbD_extractLsb', hi, hlt, decide_true, Bool.true_and]
    rw [← Nat.add_assoc]
  have hbit : (insn.extractLsb' 22 10).getLsbD 0 = insn.getLsbD 22 := by
    rw [BitVec.getLsbD_extractLsb']
    rfl
  rw [htop, hbit] at hunsigned
  rw [htop] at hunscaled
  unfold decodeArm64Write tested
  dsimp only
  rw [hop1]
  constructor
  · rintro ⟨htest, hbit' | hform⟩
    · rw [if_pos (hunsigned.mpr ⟨htest, hbit'⟩)]
    · rw [if_pos (c := _ ∧ _) ⟨hunscaled.mpr htest, hlow.mpr hform⟩, ite_self]
  · intro hnot
    rw [if_neg fun h => hnot ⟨(hunsigned.mp h).1, .inl (hunsigned.mp h).2⟩,
      if_neg fun h => hnot ⟨hunscaled.mp h.1, .inr (hlow.mp h.2)⟩]

theorem not_tested (store : Arm64Store) : ¬tested store.word := by
  rintro ⟨htop, -⟩
  have hbit := congrArg (BitVec.getLsbD · 2) htop
  rw [BitVec.getLsbD_extractLsb', store.word_getLsbD] at hbit
  exact absurd hbit (by decide)

/-- No store is decoded, and some words that are none are. -/
theorem arm64_decoded_iff (insn : BitVec 32) (regs : Nat → BitVec 64) :
    Arm64Decoded insn regs ↔
      (¬∃ store : Arm64Store, store.word = insn) ∧
        ¬(insn.extractLsb' 25 7 = 0x38 ∧
          (insn.getLsbD 22 = true ∨ insn.extractLsb' 10 2 = 0)) := by
  obtain ⟨htrue, hfalse⟩ := decodeArm64Write_eq insn regs
  constructor
  · rintro ⟨hstores, hothers⟩
    have hnone : ¬∃ store : Arm64Store, store.word = insn := by
      rintro ⟨store, rfl⟩
      have hdecoded := hstores store rfl
      rw [hfalse (not_tested store)] at hdecoded
      cases hdecoded
    refine ⟨hnone, fun htest => ?_⟩
    have hdecoded := hothers hnone
    rw [htrue htest] at hdecoded
    cases hdecoded
  · rintro ⟨hnone, htest⟩
    refine ⟨fun store hstore => absurd ⟨store, hstore⟩ hnone, fun _ => ?_⟩
    exact hfalse htest

/-- `str w0, [x1]` is not decoded, and `adr x0, . + 3` is, as a store of two bytes. -/
theorem arm64_str_missed :
    ¬Arm64Decoded 0xB9000020 (fun _ => 0) ∧ ¬Arm64Decoded 0x70000000 (fun _ => 0) := by
  constructor
  · rintro ⟨hstores, -⟩
    have hdecoded := hstores ⟨2, .unsigned 0, 1, 0⟩ (by decide)
    exact absurd hdecoded (by decide)
  · rintro ⟨-, hothers⟩
    have hdecoded := hothers fun ⟨store, hstore⟩ => by
      have hbit := store.word_getLsbD
      rw [hstore] at hbit
      exact absurd hbit (by decide)
    exact absurd hdecoded (by decide)

end HostPimSim.Core.StoreDecode
