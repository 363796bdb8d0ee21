import HostPimSim.Lib.ShiftSteps
import HostPimSim.Upmem.Multiword
import HostPimSim.Upmem.TaskletStep

/-! Chains of MUL_STEP and of DIV_STEP on one pair.  The even register holds the
factor or the quotient, the odd one the product or the remainder. -/
namespace HostPimSim.Upmem

open DecodeTable (rawDecoded)
open Lib.ShiftSteps (Adding Dividing)

/-- A step in the branch form on the pair `d`, with the scalar `ra`. -/
structure PairStep (decoded : RawDecoded48) (op : HotOp) (d ra shift : Nat) : Prop where
  valid : decoded.valid = true
  hotOp : decoded.hotOp = op
  format : decoded.hotFmt = .rrrici
  hasDb : decoded.hasDb = true
  db : (decoded.db &&& 0x1F).toNat = d
  hasDc : decoded.hasDc = true
  dc : (decoded.dc &&& 0x1F).toNat = d
  hasRa : decoded.hasRa = true
  ra : (decoded.ra &&& 0x1F).toNat = ra
  shift : (decoded.shift &&& 31).toNat = shift

structure PairRegisters (d ra : Nat) : Prop where
  even : d % 2 = 0
  pair : d < 24
  scalar : ra ≠ d ∧ ra ≠ d + 1

def mulStepPair (a : BitVec 32) (shift : Nat) (pair : BitVec 32 × BitVec 32) :
    BitVec 32 × BitVec 32 :=
  (pair.1 >>> 1, if pair.1 &&& 1 ≠ 0 then pair.2 + a <<< shift else pair.2)

def divStepPair (divisor : BitVec 32) (shift : Nat) (pair : BitVec 32 × BitVec 32) :
    BitVec 32 × BitVec 32 :=
  if pair.2 ≥ divisor <<< shift then (pair.1 <<< 1 ||| 1, pair.2 - divisor <<< shift)
  else (pair.1 <<< 1, pair.2)

def Dpu.readPair (dpu : Dpu) (t d : Nat) : BitVec 32 × BitVec 32 :=
  (dpu.readReg t d, dpu.readReg t (d + 1))

def stepPair (op : HotOp) (scalar : BitVec 32) (shift : Nat) (pair : BitVec 32 × BitVec 32) :
    BitVec 32 × BitVec 32 :=
  if op = .mulStep then mulStepPair scalar shift pair else divStepPair scalar shift pair

section
variable {decoded : RawDecoded48} {op : HotOp} {d ra shift : Nat}

theorem PairStep.hotEffects (h : PairStep decoded op d ra shift)
    (hop : op = .mulStep ∨ op = .divStep) (o : Operands) :
    ∃ value, Upmem.hotEffects decoded o =
      [.writeReg d (stepPair op o.vra shift (o.dpu.readPair o.t d)).1,
        .writeReg (d + 1) (stepPair op o.vra shift (o.dpu.readPair o.t d)).2, .setZf value,
        .setCf false] ++ takeCondBranch decoded value := by
  have hdb : decodedDb decoded = d := by
    unfold decodedDb
    rw [if_pos h.hasDb, h.db]
  have hdc : decodedDc decoded = d := by
    unfold decodedDc
    rw [if_pos h.hasDc, h.dc]
  rcases hop with rfl | rfl
  · refine ⟨o.dpu.readReg o.t d >>> 1, ?_⟩
    simp only [Upmem.hotEffects, h.hotOp, mulStepEffects, h.format, h.hasDb, if_true, hdb, hdc,
      h.shift, stepPair, mulStepPair, Dpu.readPair]
    rfl
  · refine ⟨o.dpu.readReg o.t (d + 1) - o.vra <<< shift, ?_⟩
    simp only [Upmem.hotEffects, h.hotOp, divStepEffects, h.hasDb, if_true, hdb, hdc, h.shift,
      stepPair, divStepPair, Dpu.readPair, reduceCtorEq, if_false]
    by_cases hfits : o.dpu.readReg o.t (d + 1) ≥ o.vra <<< shift
    · simp only [hfits, if_true]
    · simp only [hfits, if_false]

theorem PairStep.hotSupported (h : PairStep decoded op d ra shift)
    (hop : op = .mulStep ∨ op = .divStep) : decoded.hotSupported = true := by
  unfold RawDecoded48.hotSupported
  rcases hop with rfl | rfl <;> simp [h.hotOp, h.format]

end

section
variable {decodeRawWord48 : BitVec 64 → RawDecoded48} {dpu : Dpu} {t d ra shift : Nat} {op : HotOp}
  {inst48 : BitVec 64}

theorem executeOnce_pairStep (hfetch : fetch dpu t = some inst48)
    (hstep : PairStep (decodeRawWord48 inst48) op d ra shift)
    (hop : op = .mulStep ∨ op = .divStep) (hregisters : PairRegisters d ra) :
    (executeOnce decodeRawWord48 dpu t).1.readPair t d =
        stepPair op (dpu.readReg t ra) shift (dpu.readPair t d) ∧
      (executeOnce decodeRawWord48 dpu t).1.readReg t ra = dpu.readReg t ra := by
  have hhandled : handled decodeRawWord48 inst48 = true := by
    unfold handled
    rw [hstep.valid, hstep.hotSupported hop]
    rfl
  have hra : (operands (decodeRawWord48 inst48) dpu t).vra = dpu.readReg t ra := by
    unfold operands
    rw [if_pos hstep.hasRa, hstep.ra]
  obtain ⟨value, heffects⟩ := hstep.hotEffects hop (operands (decodeRawWord48 inst48) dpu t)
  have htasklet : (executeOnce decodeRawWord48 dpu t).1.tasklets t = _ :=
    executeOnce_onTasklet hfetch
  rw [wordEffects_handled hhandled, heffects, hra, onTasklet_append,
    onTasklet_takeCondBranch] at htasklet
  generalize hpair : stepPair op (dpu.readReg t ra) shift (dpu.readPair t d) = pair
  have hpair' : stepPair op (dpu.readReg t ra) shift
      ((operands (decodeRawWord48 inst48) dpu t).dpu.readPair
        (operands (decodeRawWord48 inst48) dpu t).t d) = pair := hpair
  rw [hpair'] at htasklet
  have hgp : ∀ r, ((executeOnce decodeRawWord48 dpu t).1.tasklets t).gp r =
      (((dpu.tasklets t).advanced.writeReg d pair.1).writeReg (d + 1) pair.2).gp r := by
    intro r
    rw [htasklet]
    rfl
  have hd := hregisters.pair
  have hodd : d + 1 < 24 := by
    have heven := hregisters.even
    omega
  refine ⟨Prod.ext ?_ ?_, ?_⟩
  · change (executeOnce decodeRawWord48 dpu t).1.readReg t d = pair.1
    rw [readReg_scalar _ t hd, hgp, writeReg_gp, writeReg_gp, if_neg (by omega),
      if_pos ⟨rfl, hd⟩]
  · change (executeOnce decodeRawWord48 dpu t).1.readReg t (d + 1) = pair.2
    rw [readReg_scalar _ t hodd, hgp, writeReg_gp, if_pos ⟨rfl, hodd⟩]
  · obtain ⟨heven, hoddNe⟩ := hregisters.scalar
    apply readReg_congr
    intro _
    rw [hgp, writeReg_gp, writeReg_gp, if_neg (fun h => hoddNe h.1), if_neg (fun h => heven h.1)]
    rfl

end

/-- The steps of a chain on one pair: the word `i` shifts by `shift i`. -/
structure StepChain (decodeRawWord48 : BitVec 64 → RawDecoded48) (op : HotOp) (d ra : Nat)
    (shift : Nat → Nat) (word : Nat → BitVec 64) (n : Nat) : Prop where
  registers : PairRegisters d ra
  step : ∀ i, i < n → PairStep (decodeRawWord48 (word i)) op d ra (shift i)

/-- The pair after `i` steps of a chain. -/
def chainPair (op : HotOp) (scalar : BitVec 32) (shift : Nat → Nat)
    (pair : BitVec 32 × BitVec 32) : Nat → BitVec 32 × BitVec 32
  | 0 => pair
  | i + 1 => stepPair op scalar (shift i) (chainPair op scalar shift pair i)

theorem executed_chain {decodeRawWord48 : BitVec 64 → RawDecoded48} {dpu : Dpu}
    {t d ra n : Nat} {op : HotOp} {shift : Nat → Nat} {word : Nat → BitVec 64}
    (hchain : StepChain decodeRawWord48 op d ra shift word n)
    (hop : op = .mulStep ∨ op = .divStep) (hexec : Executes decodeRawWord48 dpu t word n)
    {i : Nat} (hi : i ≤ n) :
    (executed decodeRawWord48 dpu t i).readPair t d =
        chainPair op (dpu.readReg t ra) shift (dpu.readPair t d) i ∧
      (executed decodeRawWord48 dpu t i).readReg t ra = dpu.readReg t ra := by
  induction i with
  | zero => exact ⟨rfl, rfl⟩
  | succ i ih =>
      obtain ⟨hpair, hscalar⟩ := ih (by omega)
      obtain ⟨hpair', hscalar'⟩ := executeOnce_pairStep (hexec i (by omega))
        (hchain.step i (by omega)) hop hchain.registers
      rw [hpair, hscalar] at hpair'
      exact ⟨hpair', hscalar'.trans hscalar⟩

theorem and_one_eq_zero_iff (x : BitVec 32) : x &&& 1 = 0 ↔ x.toNat % 2 = 0 := by
  rw [← BitVec.toNat_inj, BitVec.toNat_and]
  exact Iff.of_eq (congrArg (· = 0) (Nat.and_one_is_mod x.toNat))

theorem mulStepPair_adding {a : BitVec 32} {b i : Nat} {pair : BitVec 32 × BitVec 32}
    (h : Adding (2 ^ 32) a.toNat b i pair.1.toNat pair.2.toNat) :
    Adding (2 ^ 32) a.toNat b (i + 1) (mulStepPair a i pair).1.toNat
      (mulStepPair a i pair).2.toNat := by
  have hrest : (mulStepPair a i pair).1.toNat = pair.1.toNat / 2 := by
    unfold mulStepPair
    rw [BitVec.toNat_ushiftRight, Nat.shiftRight_eq_div_pow, pow_one]
  rw [hrest]
  apply h.step
  unfold mulStepPair
  dsimp only
  split
  · rename_i hbit
    have hodd : pair.1.toNat % 2 = 1 := by
      have hne := mt (and_one_eq_zero_iff pair.1).mpr hbit
      omega
    rw [hodd, Nat.mul_one, BitVec.toNat_add, BitVec.toNat_shiftLeft, Nat.shiftLeft_eq]
    exact (Nat.mod_modEq _ _).trans ((Nat.mod_modEq _ _).add_left _)
  · rename_i hbit
    rw [(and_one_eq_zero_iff pair.1).mp (not_not.mp hbit), Nat.mul_zero, Nat.add_zero]

theorem chainPair_adding {a b : BitVec 32} (i : Nat) :
    Adding (2 ^ 32) a.toNat b.toNat i (chainPair .mulStep a id (b, 0) i).1.toNat
      (chainPair .mulStep a id (b, 0) i).2.toNat := by
  induction i with
  | zero => exact Adding.start _ _ _
  | succ i ih => exact mulStepPair_adding ih

/-- A chain of MUL_STEP with the shifts 0, 1, 2, ... multiplies: after `k` steps the odd
register has the product with the low `k` bits of the factor, and the even one the
other bits.  Where these are zero the product is complete, as it is after all 32
steps.  A word has no shift above 31, so there is no longer chain. -/
theorem mulStep_chain_multiplies (decodeRawWord48 : BitVec 64 → RawDecoded48) (dpu : Dpu)
    (t d ra k : Nat) (word : Nat → BitVec 64) (a b : BitVec 32)
    (hchain : StepChain decodeRawWord48 .mulStep d ra id word k)
    (hexec : Executes decodeRawWord48 dpu t word k) (ha : dpu.readReg t ra = a)
    (heven : dpu.readReg t d = b) (hodd : dpu.readReg t (d + 1) = 0) :
    let after := executed decodeRawWord48 dpu t k
    after.readReg t (d + 1) = BitVec.ofNat 32 (a.toNat * (b.toNat % 2 ^ k)) ∧
      after.readReg t d = b >>> k ∧
      (after.readReg t d = 0 ∨ k = 32 → after.readReg t (d + 1) = a * b) := by
  intro after
  have hpair : dpu.readPair t d = (b, 0) := by
    unfold Dpu.readPair
    rw [heven, hodd]
  have hafter := (executed_chain hchain (.inl rfl) hexec (le_refl k)).1
  rw [ha, hpair] at hafter
  obtain ⟨hrest, hsum⟩ := chainPair_adding (a := a) (b := b) k
  rw [← hafter] at hrest hsum
  have hfactor : (after.readReg t d).toNat = b.toNat / 2 ^ k := hrest
  have hproduct : after.readReg t (d + 1) = BitVec.ofNat 32 (a.toNat * (b.toNat % 2 ^ k)) := by
    apply BitVec.eq_of_toNat_eq
    rw [BitVec.toNat_ofNat, ← Nat.mod_eq_of_lt (after.readReg t (d + 1)).isLt]
    exact hsum
  have hbits : after.readReg t d = b >>> k := by
    apply BitVec.eq_of_toNat_eq
    rw [BitVec.toNat_ushiftRight, Nat.shiftRight_eq_div_pow]
    exact hfactor
  refine ⟨hproduct, hbits, fun hdone => ?_⟩
  have hall : b.toNat % 2 ^ k = b.toNat := by
    apply Nat.mod_eq_of_lt
    rcases hdone with hzero | rfl
    · rw [hzero] at hfactor
      exact (Nat.div_eq_zero_iff_lt (Nat.two_pow_pos k)).mp hfactor.symm
    · exact b.isLt
  rw [hproduct, hall]
  apply BitVec.eq_of_toNat_eq
  rw [BitVec.toNat_ofNat, BitVec.toNat_mul]

/-- `MUL_STEP d2, r0, d2, i`, with a condition that is never true. -/
def mulStepWord (i : Nat) : BitVec 64 := if i = 0 then 0x810040050000 else 0x810040150000

theorem mulStep_chain_three :
    (executed rawDecoded (programDpu [mulStepWord 0, mulStepWord 1]
      [5, 0, 3, 0]) 0 2).readReg 0 3 = 15 := by
  have hchain : StepChain rawDecoded .mulStep 2 0 id mulStepWord 2 := by
    refine ⟨⟨by decide +kernel, by decide +kernel, by decide +kernel⟩, fun i hi => ?_⟩
    obtain rfl | rfl : i = 0 ∨ i = 1 := by omega
    · exact ⟨by decide +kernel, by decide +kernel, by decide +kernel, by decide +kernel, by decide +kernel, by decide +kernel, by decide +kernel,
        by decide +kernel, by decide +kernel, by decide +kernel⟩
    · exact ⟨by decide +kernel, by decide +kernel, by decide +kernel, by decide +kernel, by decide +kernel, by decide +kernel, by decide +kernel,
        by decide +kernel, by decide +kernel, by decide +kernel⟩
  have hexec : Executes rawDecoded
      (programDpu [mulStepWord 0, mulStepWord 1] [5, 0, 3, 0]) 0 mulStepWord 2 := by
    unfold Executes
    decide +kernel
  exact (mulStep_chain_multiplies rawDecoded _ 0 2 0 2 mulStepWord 5 3
    hchain hexec (by decide +kernel) (by decide +kernel) (by decide +kernel)).1

theorem divStepPair_dividing {divisor : BitVec 32} {dividend s : Nat}
    {pair : BitVec 32 × BitVec 32} (hdividend : dividend < 2 ^ 32)
    (hfits : divisor.toNat * 2 ^ s < 2 ^ 32)
    (h : Dividing dividend divisor.toNat (s + 1) pair.1.toNat pair.2.toNat) :
    Dividing dividend divisor.toNat s (divStepPair divisor s pair).1.toNat
      (divStepPair divisor s pair).2.toNat := by
  have hshifted : (divisor <<< s).toNat = divisor.toNat * 2 ^ s := by
    rw [BitVec.toNat_shiftLeft, Nat.shiftLeft_eq, Nat.mod_eq_of_lt hfits]
  unfold divStepPair
  split
  · rename_i hle
    rw [ge_iff_le, BitVec.le_def, hshifted] at hle
    have hnext := h.subtract hle
    have hquotient := hnext.quotient_le
    have hshift : (pair.1 <<< 1).toNat = 2 ^ 1 * pair.1.toNat := by
      rw [BitVec.toNat_shiftLeft, Nat.shiftLeft_eq]
      omega
    have hbit : (pair.1 <<< 1 ||| 1).toNat = 2 * pair.1.toNat + 1 := by
      have hone : (1 : BitVec 32).toNat = 1 := rfl
      rw [BitVec.toNat_or, hshift, hone, ← Nat.two_pow_add_eq_or_of_lt (by decide), pow_one]
    have hrest : (pair.2 - divisor <<< s).toNat = pair.2.toNat - divisor.toNat * 2 ^ s := by
      rw [BitVec.toNat_sub_of_le (by rw [BitVec.le_def, hshifted]; exact hle), hshifted]
    rw [hbit, hrest]
    exact hnext
  · rename_i hlt
    rw [ge_iff_le, BitVec.le_def, hshifted, Nat.not_le] at hlt
    have hnext := h.restore hlt
    have hquotient := hnext.quotient_le
    have hbit : (pair.1 <<< 1).toNat = 2 * pair.1.toNat := by
      rw [BitVec.toNat_shiftLeft, Nat.shiftLeft_eq]
      omega
    rw [hbit]
    exact hnext

theorem chainPair_dividing {dividend divisor : BitVec 32} {k : Nat}
    (hfits : divisor.toNat * 2 ^ k < 2 ^ 32)
    (hbound : dividend.toNat < divisor.toNat * 2 ^ (k + 1)) {i : Nat} (hi : i ≤ k + 1) :
    Dividing dividend.toNat divisor.toNat (k + 1 - i)
      (chainPair .divStep divisor (k - ·) (0, dividend) i).1.toNat
      (chainPair .divStep divisor (k - ·) (0, dividend) i).2.toNat := by
  induction i with
  | zero => exact Dividing.start hbound
  | succ i ih =>
      have hnext := ih (by omega)
      have hshift : k + 1 - i = k - i + 1 := by omega
      have hsmaller : divisor.toNat * 2 ^ (k - i) < 2 ^ 32 :=
        Nat.lt_of_le_of_lt (Nat.mul_le_mul_left _
          (Nat.pow_le_pow_right (by decide) (Nat.sub_le k i))) hfits
      rw [hshift] at hnext
      rw [Nat.add_sub_add_right]
      exact divStepPair_dividing dividend.isLt hsmaller hnext

/-- A chain of DIV_STEP with the shifts `k`, ..., 1, 0 divides, if the divisor shifted by
`k` fits a word and by one more exceeds the dividend. -/
theorem divStep_chain_divides (decodeRawWord48 : BitVec 64 → RawDecoded48) (dpu : Dpu)
    (t d ra k : Nat) (word : Nat → BitVec 64) (dividend divisor : BitVec 32)
    (hfits : divisor.toNat * 2 ^ k < 2 ^ 32)
    (hbound : dividend.toNat < divisor.toNat * 2 ^ (k + 1))
    (hchain : StepChain decodeRawWord48 .divStep d ra (k - ·) word (k + 1))
    (hexec : Executes decodeRawWord48 dpu t word (k + 1)) (ha : dpu.readReg t ra = divisor)
    (heven : dpu.readReg t d = 0) (hodd : dpu.readReg t (d + 1) = dividend) :
    let after := executed decodeRawWord48 dpu t (k + 1)
    after.readReg t d = dividend / divisor ∧ after.readReg t (d + 1) = dividend % divisor := by
  intro after
  have hpair : dpu.readPair t d = (0, dividend) := by
    unfold Dpu.readPair
    rw [heven, hodd]
  have hafter := (executed_chain hchain (.inr rfl) hexec (le_refl (k + 1))).1
  rw [ha, hpair] at hafter
  have hdivided := chainPair_dividing hfits hbound (le_refl (k + 1))
  rw [← hafter, Nat.sub_self] at hdivided
  obtain ⟨hquotient, hremainder⟩ := hdivided.finish
  constructor
  · exact BitVec.eq_of_toNat_eq hquotient
  · exact BitVec.eq_of_toNat_eq hremainder

/-- `DIV_STEP d2, r0, d2, 1 - i`, with a condition that is never true. -/
def divStepWord (i : Nat) : BitVec 64 := if i = 0 then 0x810060150000 else 0x810060050000

theorem divStep_chain_seventeen :
    let after := executed rawDecoded
      (programDpu [divStepWord 0, divStepWord 1] [5, 0, 0, 17]) 0 2
    after.readReg 0 2 = 3 ∧ after.readReg 0 3 = 2 := by
  have hchain : StepChain rawDecoded .divStep 2 0 (1 - ·) divStepWord
      2 := by
    refine ⟨⟨by decide +kernel, by decide +kernel, by decide +kernel⟩, fun i hi => ?_⟩
    obtain rfl | rfl : i = 0 ∨ i = 1 := by omega
    · exact ⟨by decide +kernel, by decide +kernel, by decide +kernel, by decide +kernel, by decide +kernel, by decide +kernel, by decide +kernel,
        by decide +kernel, by decide +kernel, by decide +kernel⟩
    · exact ⟨by decide +kernel, by decide +kernel, by decide +kernel, by decide +kernel, by decide +kernel, by decide +kernel, by decide +kernel,
        by decide +kernel, by decide +kernel, by decide +kernel⟩
  have hexec : Executes rawDecoded
      (programDpu [divStepWord 0, divStepWord 1] [5, 0, 0, 17]) 0 divStepWord 2 := by
    unfold Executes
    decide +kernel
  exact divStep_chain_divides rawDecoded _ 0 2 0 1 divStepWord 17 5
    (by decide +kernel) (by decide +kernel) hchain hexec (by decide +kernel) (by decide +kernel)
    (by decide +kernel)

end HostPimSim.Upmem
