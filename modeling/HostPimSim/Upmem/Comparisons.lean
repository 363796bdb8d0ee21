import HostPimSim.Upmem.Conditions

/-! Comparisons by subtraction.  A condition of SUB stands for a relation between
the two operands, an extended one of SUBC for a relation between numbers of two
words whose low words a SUB has compared. -/
namespace HostPimSim.Upmem

open DecodeTable (rawDecoded)

inductive Comparison where
  | eq | ne | ltu | geu | leu | gtu | lts | ges | les | gts
  deriving DecidableEq

namespace Comparison

def holds {w : Nat} (comparison : Comparison) (a b : BitVec w) : Bool :=
  match comparison with
  | eq => a = b
  | ne => a ≠ b
  | ltu => a < b
  | geu => b ≤ a
  | leu => a ≤ b
  | gtu => b < a
  | lts => a.toInt < b.toInt
  | ges => b.toInt ≤ a.toInt
  | les => a.toInt ≤ b.toInt
  | gts => b.toInt < a.toInt

def isSigned : Comparison → Bool
  | lts | ges | les | gts => true
  | _ => false

def kind : Comparison → CcKind
  | eq => .zero
  | ne => .nonZero
  | ltu => .carry
  | geu => .noCarry
  | leu => .lessEqualUnsigned
  | gtu => .greaterUnsigned
  | lts => .lessSigned
  | ges => .greaterEqualSigned
  | les => .lessEqualSigned
  | gts => .greaterSigned

def ofCode : Nat → Option Comparison
  | 2 | 12 => some eq
  | 3 | 13 => some ne
  | 20 => some ltu
  | 21 => some geu
  | 22 => some lts
  | 23 => some ges
  | 24 => some les
  | 25 => some gts
  | 26 => some leu
  | 27 => some gtu
  | _ => none

def ofWideCode : Nat → Option Comparison
  | 6 => some eq
  | 7 => some ne
  | code => if code < 32 then none else ofCode (code - 32)

theorem decode_ofCode {code : Nat} {comparison : Comparison} (h : ofCode code = some comparison) :
    decodeCcMetadata48 .map13 code = comparison.kind := by
  unfold ofCode at h
  split at h <;> cases h <;> rfl

theorem ofCode_le {code : Nat} {comparison : Comparison} (h : ofCode code = some comparison) :
    code ≤ 27 := by
  unfold ofCode at h
  split at h <;> cases h <;> decide

theorem decode_ofWideCode {code : Nat} {comparison : Comparison}
    (h : ofWideCode code = some comparison) :
    decodeCcMetadata48 .map15 code = comparison.kind := by
  unfold ofWideCode at h
  split at h
  · cases h
    rfl
  · cases h
    rfl
  · split at h
    · cases h
    · rename_i hwide
      have hcode := decode_ofCode h
      have hle := ofCode_le h
      unfold decodeCcMetadata48 at hcode ⊢
      rw [if_neg (by omega)] at hcode ⊢
      simp only [decodeCcMap15Metadata, if_neg hwide] at hcode ⊢
      exact hcode

theorem sub_eq_zero_iff (a b : BitVec 32) : a - b = 0 ↔ a = b := by
  constructor
  · intro h
    bv_omega
  · intro h
    bv_omega

/-- The difference as a signed number: off by `2 ^ 32` where it overflows. -/
theorem toInt_difference (a b : BitVec 32) :
    (BitVec.ssubOverflow a b = false ∧ (a - b).toInt = a.toInt - b.toInt) ∨
      (BitVec.ssubOverflow a b = true ∧ 2 ^ 31 ≤ a.toInt - b.toInt ∧
        (a - b).toInt = a.toInt - b.toInt - 2 ^ 32) ∨
      (BitVec.ssubOverflow a b = true ∧ a.toInt - b.toInt < -2 ^ 31 ∧
        (a - b).toInt = a.toInt - b.toInt + 2 ^ 32) := by
  have ha := BitVec.toInt_lt (x := a)
  have ha' := BitVec.le_toInt a
  have hb := BitVec.toInt_lt (x := b)
  have hb' := BitVec.le_toInt b
  simp only [BitVec.ssubOverflow, BitVec.toInt_sub, Int.bmod_eq_emod]
  simp only [ge_iff_le, Bool.or_eq_false_iff, decide_eq_false_iff_not, Bool.or_eq_true,
    decide_eq_true_eq]
  split <;> omega

theorem eval_unsigned {comparison : Comparison} (h : comparison.isSigned = false)
    (a b : BitVec 32) :
    evalCcKindSimple comparison.kind (a - b = 0) (a < b) (a - b) = comparison.holds a b := by
  have hzero := sub_eq_zero_iff a b
  rw [Bool.eq_iff_iff]
  cases comparison with
  | lts | ges | les | gts => cases h
  | _ =>
      simp only [evalCcKindSimple, kind, holds, hzero, Bool.or_eq_true, Bool.and_eq_true,
        Bool.not_eq_true', decide_eq_true_eq, decide_eq_false_iff_not, ne_eq, BitVec.lt_def,
        BitVec.le_def, ← BitVec.toNat_inj]
      try omega

theorem eval_signed {comparison : Comparison} (h : comparison.isSigned = true)
    (a b : BitVec 32) :
    evalCcKindSimple comparison.kind (a - b = 0) (a < b) (a - b) = comparison.holds a b ↔
      BitVec.ssubOverflow a b = false := by
  have ha := BitVec.toInt_lt (x := a)
  have ha' := BitVec.le_toInt a
  have hb := BitVec.toInt_lt (x := b)
  have hb' := BitVec.le_toInt b
  rw [Bool.eq_iff_iff]
  rcases toInt_difference a b with ⟨hover, hint⟩ | ⟨hover, hlarge, hint⟩ | ⟨hover, hsmall, hint⟩
  all_goals rw [hover]
  all_goals cases comparison
  all_goals simp only [isSigned, Bool.false_eq_true] at h
  all_goals
    simp only [evalCcKindSimple, kind, holds, hint, decide_eq_true_eq, Bool.true_eq_false,
      iff_false, iff_true, gt_iff_lt, ge_iff_le]
    omega

/-- Only the difference and the borrow are looked at, so a signed relation is read
wrong where the difference overflows, and nowhere else. -/
theorem eval_kind (comparison : Comparison) (a b : BitVec 32) :
    evalCcKindSimple comparison.kind (a - b = 0) (a < b) (a - b) = comparison.holds a b ↔
      (comparison.isSigned = true → BitVec.ssubOverflow a b = false) := by
  cases hsigned : comparison.isSigned with
  | false => exact iff_of_true (eval_unsigned hsigned a b) fun h => by cases h
  | true =>
      rw [eval_signed hsigned]
      exact ⟨fun h _ => h, fun h => h rfl⟩

end Comparison

/-- The comparison the code of a decoded SUB names. -/
def RawDecoded48.comparison (decoded : RawDecoded48) : Option Comparison :=
  if decoded.hotFmt = .rrrc then Comparison.ofWideCode decoded.cc.toNat
  else Comparison.ofCode decoded.cc.toNat

/-- What the decoder fills in for the forms of SUB with a condition. -/
structure ComparesBySub (decoded : RawDecoded48) : Prop where
  valid : decoded.valid = true
  hotOp : decoded.hotOp = .sub
  format : decoded.hotFmt ∈ [HotFormat.rrrc, .rrici, .rrrci, .zrici, .zrrci]
  hasCc : decoded.hasCc = true
  hasRc : decoded.hotFmt = .rrrc → decoded.hasRc = true
  hasPc : decoded.hotFmt ≠ .rrrc → decoded.hasPc = true

section
variable {decoded : RawDecoded48}

theorem ComparesBySub.hotSupported (h : ComparesBySub decoded) : decoded.hotSupported = true := by
  have hformat := h.format
  simp only [List.mem_cons, List.not_mem_nil, or_false] at hformat
  unfold RawDecoded48.hotSupported
  rcases hformat with hfmt | hfmt | hfmt | hfmt | hfmt <;> simp [h.hotOp, hfmt]

theorem ComparesBySub.ccKind (h : ComparesBySub decoded) {comparison : Comparison}
    (hcode : decoded.comparison = some comparison) : decoded.ccKind = comparison.kind := by
  have hformat := h.format
  simp only [List.mem_cons, List.not_mem_nil, or_false] at hformat
  unfold RawDecoded48.comparison at hcode
  unfold RawDecoded48.ccKind
  rw [if_pos h.hasCc, h.hotOp]
  rcases hformat with hfmt | hfmt | hfmt | hfmt | hfmt <;> rw [hfmt] at hcode ⊢
  · rw [if_pos rfl] at hcode
    exact Comparison.decode_ofWideCode hcode
  all_goals
    rw [if_neg (by decide)] at hcode
    exact Comparison.decode_ofCode hcode

theorem ComparesBySub.evaluates (h : ComparesBySub decoded) :
    decoded.writesBoolean = decide (decoded.hotFmt = .rrrc) ∧
      decoded.branches = decide (decoded.hotFmt ≠ .rrrc) := by
  have hformat := h.format
  simp only [List.mem_cons, List.not_mem_nil, or_false] at hformat
  refine ⟨by simp [RawDecoded48.writesBoolean, h.hotOp, RawDecoded48.isRrrc], ?_⟩
  rw [branches_subtraction (.inl h.hotOp), h.hasCc]
  by_cases hfmt : decoded.hotFmt = .rrrc
  · simp [hfmt, RawDecoded48.isRrrc]
  · rw [h.hasPc hfmt]
    rcases hformat with hf | hf | hf | hf | hf <;>
      simp [hf, RawDecoded48.isRrrc, RawDecoded48.isZrrc] at hfmt ⊢

end

/-- The condition of a SUB, in the boolean it writes or the branch it takes, is the
relation its code names, unless the code is a signed one and the difference of the
operands overflows. -/
theorem sub_condition_iff (decodeRawWord48 : BitVec 64 → RawDecoded48) (dpu : Dpu) (t : Nat)
    (inst48 : BitVec 64) (comparison : Comparison) (hfetch : fetch dpu t = some inst48)
    (hform : ComparesBySub (decodeRawWord48 inst48))
    (hcode : (decodeRawWord48 inst48).comparison = some comparison) :
    let decoded := decodeRawWord48 inst48
    let o := operands decoded dpu t
    let next := (executeOnce decodeRawWord48 dpu t).1.tasklets t
    let condition := conditionValue decoded o
    evaluatedCondition decoded o = some condition ∧
      (decoded.hotFmt = .rrrc → next.gp = ((dpu.tasklets t).writeReg
        (decoded.rc &&& 0x1F).toNat (if condition then 1 else 0)).gp) ∧
      (decoded.hotFmt ≠ .rrrc → next.pc = if condition then decoded.pc.setWidth 64 * 8
        else (dpu.tasklets t).pc + 8) ∧
      (condition = comparison.holds (subLhs decoded o) (subRhs decoded o) ↔
        (comparison.isSigned = true →
          BitVec.ssubOverflow (subLhs decoded o) (subRhs decoded o) = false)) := by
  intro decoded o next condition
  have hhandled : handled decodeRawWord48 inst48 = true := by
    unfold handled
    rw [hform.valid, hform.hotSupported]
    rfl
  obtain ⟨hboolean, hbranches⟩ := hform.evaluates
  have htested := executeOnce_tested hfetch hhandled (by rw [hform.hotOp]; decide)
  refine ⟨?_, fun hfmt => ?_, fun hfmt => ?_, ?_⟩
  · unfold evaluatedCondition
    rw [hboolean, hbranches]
    by_cases hfmt : (decodeRawWord48 inst48).hotFmt = .rrrc <;> simp [hfmt, condition, decoded]
  · rw [htested.gp (by rw [hboolean]; exact decide_eq_true hfmt),
      writeBoolean_scalar (by rw [hform.hotOp]; decide), if_pos (hform.hasRc hfmt)]
    simp only [Tasklet.writeReg]
    split <;> rfl
  · rw [htested.pc, hbranches, decide_eq_true hfmt, Bool.true_and]
    rfl
  · have hvalue : condition = evalCcKindSimple comparison.kind
        (subLhs decoded o - subRhs decoded o = 0) (subLhs decoded o < subRhs decoded o)
        (subLhs decoded o - subRhs decoded o) := by
      unfold condition
      rw [conditionValue_sub hform.hotOp, hform.ccKind hcode]
    rw [hvalue]
    exact comparison.eval_kind _ _

/-- `SUB r2, r0, r1, LTS, 5`. -/
def subLtsWord : BitVec 64 := 0x0D0096C20005

theorem subLtsWord_compares :
    ComparesBySub (rawDecoded subLtsWord) :=
  ⟨by decide, by decide, by decide, by decide, by decide, by decide⟩

theorem sub_lts_of_small :
    let decoded := rawDecoded subLtsWord
    let o := operands decoded (programDpu [subLtsWord] [1, 2]) 0
    conditionValue decoded o = Comparison.lts.holds (subLhs decoded o) (subRhs decoded o) :=
  (sub_condition_iff rawDecoded (programDpu [subLtsWord] [1, 2]) 0
    subLtsWord .lts (by decide +kernel) subLtsWord_compares (by decide)).2.2.2.mpr
    fun _ => by decide +kernel

/-- The least number is less than one, and the branch is not taken. -/
theorem sub_lts_overflow :
    ∃ dpu : Dpu, fetch dpu 0 = some subLtsWord ∧
      ComparesBySub (rawDecoded subLtsWord) ∧
      (rawDecoded subLtsWord).comparison = some .lts ∧
      (let decoded := rawDecoded subLtsWord
      let o := operands decoded dpu 0
      Comparison.lts.holds (subLhs decoded o) (subRhs decoded o) = true ∧
        evaluatedCondition decoded o = some false ∧
        ((executeOnce rawDecoded dpu 0).1.tasklets 0).pc = 8 ∧
        decoded.pc.setWidth 64 * 8 = (40 : BitVec 64)) :=
  ⟨programDpu [subLtsWord] [0x80000000, 1], by decide +kernel, subLtsWord_compares, by decide,
    by decide +kernel, by decide +kernel, by decide +kernel, by decide⟩

/-- The comparison an extended condition stands for. -/
def CcKind.extended : CcKind → Option Comparison
  | .xZero => some .eq
  | .xNonZero => some .ne
  | .xLessEqualUnsigned => some .leu
  | .xGreaterUnsigned => some .gtu
  | .xLessEqualSigned => some .les
  | .xGreaterSigned => some .gts
  | _ => Option.none

/-- Where the comparison of numbers of two words is read right from the flags that
the subtractions leave. -/
def Comparison.readRight (comparison : Comparison) (a b : BitVec 64) : Prop :=
  match comparison with
  | leu => ¬(a.setWidth 32 = b.setWidth 32 ∧ b < a)
  | gtu => a.setWidth 32 = b.setWidth 32 ∧ a ≤ b
  | les | gts => a.toInt - b.toInt < 2 ^ 63
  | _ => True

theorem halves_toNat (high low : BitVec 32) :
    (high ++ low).toNat = high.toNat * 2 ^ 32 + low.toNat := by
  rw [BitVec.toNat_append, Nat.shiftLeft_eq, Nat.mul_comm, Nat.two_pow_add_eq_or_of_lt low.isLt]

theorem halves_low (high low : BitVec 32) : (high ++ low).setWidth 32 = low := by
  apply BitVec.eq_of_toNat_eq
  rw [BitVec.toNat_setWidth, halves_toNat]
  omega

theorem halves_toInt (high low : BitVec 32) :
    (high ++ low).toInt = high.toInt * 2 ^ 32 + low.toNat := by
  have hhigh := high.isLt
  have hlow := low.isLt
  rw [BitVec.toInt_eq_toNat_cond, BitVec.toInt_eq_toNat_cond, halves_toNat]
  split <;> split <;> omega

theorem toInt_cases (x : BitVec 32) :
    (x.toNat < 2 ^ 31 ∧ x.toInt = x.toNat) ∨ (2 ^ 31 ≤ x.toNat ∧ x.toInt = x.toNat - 2 ^ 32) := by
  rw [BitVec.toInt_eq_toNat_cond]
  split <;> omega

section
variable {ahi alo bhi blo : BitVec 32} {result : BitVec 32 × Bool}

theorem high_difference (h : limbResult .subc ahi bhi (alo < blo) = result) :
    (alo.toNat < blo.toNat ∧
        ahi.toNat + 2 ^ 32 * result.2.toNat = result.1.toNat + bhi.toNat + 1) ∨
      (blo.toNat ≤ alo.toNat ∧
        ahi.toNat + 2 ^ 32 * result.2.toNat = result.1.toNat + bhi.toNat) := by
  have hsub := subWithBorrow_toNat ahi bhi (alo < blo)
  rw [h] at hsub
  by_cases hlow : alo < blo
  · rw [decide_eq_true hlow, Bool.toNat_true] at hsub
    exact .inl ⟨BitVec.lt_def.mp hlow, hsub⟩
  · rw [decide_eq_false hlow, Bool.toNat_false] at hsub
    have hle := mt BitVec.lt_def.mpr hlow
    exact .inr ⟨by omega, hsub⟩

/-- The borrow out of the high words is the borrow of the whole, and the whole is
zero if both words are. -/
theorem high_flags (h : limbResult .subc ahi bhi (alo < blo) = result) :
    (result.2 = true ↔ ahi ++ alo < bhi ++ blo) ∧
      (result.1 = 0 ∧ alo = blo ↔ ahi ++ alo = bhi ++ blo) := by
  have hsub := high_difference h
  have hresult := result.1.isLt
  have halo := alo.isLt
  have hblo := blo.isLt
  have hbhi := bhi.isLt
  have hahi := ahi.isLt
  have hnone : (0 : BitVec 32).toNat = 0 := rfl
  rw [BitVec.lt_def, ← BitVec.toNat_inj, ← BitVec.toNat_inj, ← BitVec.toNat_inj, halves_toNat,
    halves_toNat, hnone]
  constructor
  · cases hflag : result.2 with
    | false =>
        rw [hflag, Bool.toNat_false] at hsub
        simp only [Bool.false_eq_true, false_iff]
        omega
    | true =>
        rw [hflag, Bool.toNat_true] at hsub
        simp only [true_iff]
        omega
  · have hcarry := result.2.toNat_le
    omega

/-- The sign of the high difference and the overflow together: less, or so much
greater that the difference of the whole overflows. -/
theorem high_sign (h : limbResult .subc ahi bhi (alo < blo) = result) :
    (result.1.toInt < 0 ∨ (ahi.msb && !bhi.msb && !result.1.msb ||
        !ahi.msb && bhi.msb && result.1.msb) = true) ↔
      (ahi ++ alo).toInt < (bhi ++ blo).toInt ∨
        2 ^ 63 ≤ (ahi ++ alo).toInt - (bhi ++ blo).toInt := by
  have hsub := high_difference h
  have hcarry := result.2.toNat_le
  have halo := alo.isLt
  have hblo := blo.isLt
  have hresult := result.1.isLt
  have ha := toInt_cases ahi
  have hb := toInt_cases bhi
  have hr := toInt_cases result.1
  simp only [BitVec.msb_eq_toInt, halves_toInt, Bool.or_eq_true, Bool.and_eq_true,
    Bool.not_eq_true', decide_eq_true_eq, decide_eq_false_iff_not]
  omega

theorem eval_extended (h : limbResult .subc ahi bhi (alo < blo) = result) {kind : CcKind}
    {comparison : Comparison} (hkind : kind.extended = some comparison) (zf : Bool) :
    evalSubcCcSimple kind zf result.2 result.1 (alo = blo)
        (ahi.msb && !bhi.msb && !result.1.msb || !ahi.msb && bhi.msb && result.1.msb) =
      comparison.holds (ahi ++ alo) (bhi ++ blo) ↔
      comparison.readRight (ahi ++ alo) (bhi ++ blo) := by
  obtain ⟨hborrow, hzero⟩ := high_flags h
  have hsign := high_sign h
  generalize hover : (ahi.msb && !bhi.msb && !result.1.msb || !ahi.msb && bhi.msb &&
    result.1.msb) = overflow at hsign
  have hlow : (ahi ++ alo).setWidth 32 = (bhi ++ blo).setWidth 32 ↔ alo = blo := by
    rw [halves_low, halves_low]
  have hequal : (ahi ++ alo).toNat = (bhi ++ blo).toNat → alo = blo := fun heq =>
    (hzero.mpr (BitVec.eq_of_toNat_eq heq)).2
  have hsigned : (ahi ++ alo).toInt = (bhi ++ blo).toInt ↔ result.1 = 0 ∧ alo = blo := by
    rw [BitVec.toInt_inj, hzero]
  rw [Bool.eq_iff_iff]
  unfold CcKind.extended at hkind
  split at hkind <;> cases hkind
  all_goals
    simp only [evalSubcCcSimple, Comparison.holds, Comparison.readRight, Bool.or_eq_true,
      Bool.and_eq_true, Bool.not_eq_true', Bool.or_eq_false_iff, Bool.and_eq_false_iff,
      decide_eq_true_eq, decide_eq_false_iff_not, hborrow, hlow, BitVec.lt_def, BitVec.le_def]
  · rw [hzero]
    simp
  · rw [ne_eq, ← hzero, ← not_and_or]
    simp
  · by_cases hlo : alo = blo
    · simp only [hlo, or_true, true_iff, true_and]
      omega
    · have hne := mt hequal hlo
      simp only [hlo, or_false, false_and, not_false_eq_true, iff_true]
      omega
  · by_cases hlo : alo = blo
    · simp only [hlo, not_true_eq_false, and_false, false_iff, true_and]
      omega
    · have hne := mt hequal hlo
      simp only [hlo, not_false_eq_true, and_true, false_and, iff_false]
      omega
  · rw [hsign, and_comm, ← hsigned]
    omega
  · have hless : (¬result.1.toInt < 0 ∧ overflow = false) ↔ ¬((ahi ++ alo).toInt <
        (bhi ++ blo).toInt ∨ 2 ^ 63 ≤ (ahi ++ alo).toInt - (bhi ++ blo).toInt) := by
      rw [← hsign, not_or, Bool.not_eq_true]
    rw [hless, ← not_and_or, and_comm (a := alo = blo), ← hsigned]
    omega

end

theorem Tested.evaluated {decoded : RawDecoded48} {o : Operands} {dpu : Dpu} {t : Nat}
    {next : Tasklet} (h : Tested decoded o (dpu.tasklets t).advanced next)
    (hevaluates : (decoded.writesBoolean || decoded.branches) = true) :
    evaluatedCondition decoded o = some (conditionValue decoded o) ∧
      (decoded.writesBoolean = true → next.gp =
        ((dpu.tasklets t).writeBoolean decoded (conditionValue decoded o)).gp) ∧
      (decoded.branches = true → next.pc = if conditionValue decoded o then
        decoded.pc.setWidth 64 * 8 else (dpu.tasklets t).pc + 8) := by
  refine ⟨if_pos hevaluates, fun hboolean => ?_, fun hbranches => ?_⟩
  · rw [h.gp hboolean]
    funext r
    unfold Tasklet.writeBoolean
    split
    · rw [writeDreg_gp, writeDreg_gp]
      rfl
    · split
      · rw [writeReg_gp, writeReg_gp]
        rfl
      · rfl
  · rw [h.pc, hbranches, Bool.true_and]
    rfl

theorem Tested.shown {decoded : RawDecoded48} {o : Operands} {dpu : Dpu} {t : Nat}
    {next : Tasklet} {condition : Bool} (h : Tested decoded o (dpu.tasklets t).advanced next)
    (hcondition : evaluatedCondition decoded o = some condition) :
    (decoded.writesBoolean = true →
      next.gp = ((dpu.tasklets t).writeBoolean decoded condition).gp) ∧
      (decoded.branches = true → next.pc = if condition then decoded.pc.setWidth 64 * 8
        else (dpu.tasklets t).pc + 8) := by
  have hevaluates : (decoded.writesBoolean || decoded.branches) = true := by
    by_contra hnot
    rw [evaluatedCondition, if_neg hnot] at hcondition
    cases hcondition
  obtain ⟨hevaluated, hgp, hpc⟩ := h.evaluated hevaluates
  rw [hevaluated] at hcondition
  cases hcondition
  exact ⟨hgp, hpc⟩

theorem evaluatedCondition_eq_some {decoded : RawDecoded48} {o : Operands} {condition : Bool} :
    evaluatedCondition decoded o = some condition ↔
      (decoded.writesBoolean || decoded.branches) = true ∧
        conditionValue decoded o = condition := by
  unfold evaluatedCondition
  by_cases hevaluates : (decoded.writesBoolean || decoded.branches) = true
  · rw [if_pos hevaluates, Option.some.injEq]
    exact ⟨fun h => ⟨hevaluates, h⟩, fun h => h.2⟩
  · rw [if_neg hevaluates]
    exact ⟨fun h => (by cases h), fun h => absurd h.1 hevaluates⟩

theorem Tested.zf_ne_zero {decoded : RawDecoded48} {o : Operands} {tasklet next : Tasklet}
    (h : Tested decoded o tasklet next) :
    decide (next.zf ≠ 0) = decide (testedResult decoded o = 0) := by
  rw [h.zf]
  by_cases hzero : testedResult decoded o = 0
  · simp [hzero]
  · simp

/-- A SUB on the low words and a SUBC with an extended condition on the high words: the
condition is the relation of the whole numbers where it is evaluated and `readRight` says so. -/
theorem subc_condition_iff (decodeRawWord48 : BitVec 64 → RawDecoded48) (dpu : Dpu) (t : Nat)
    (low high : BitVec 64) (comparison : Comparison) (hlow : fetch dpu t = some low)
    (hsub : handled decodeRawWord48 low = true ∧ (decodeRawWord48 low).hotOp = .sub)
    (hhigh : fetch (executeOnce decodeRawWord48 dpu t).1 t = some high)
    (hsubc : handled decodeRawWord48 high = true ∧ (decodeRawWord48 high).hotOp = .subc)
    (hcode : (decodeRawWord48 high).ccKind.extended = some comparison) :
    let first := operands (decodeRawWord48 low) dpu t
    let between := (executeOnce decodeRawWord48 dpu t).1
    let decoded := decodeRawWord48 high
    let second := operands decoded between t
    let a := subcLhs decoded second ++ subLhs (decodeRawWord48 low) first
    let b := subcRhs decoded second ++ subRhs (decodeRawWord48 low) first
    let next := (executeOnce decodeRawWord48 between t).1.tasklets t
    (∀ condition, evaluatedCondition decoded second = some condition →
      (decoded.writesBoolean = true → next.gp =
        ((between.tasklets t).writeBoolean decoded condition).gp) ∧
      (decoded.branches = true → next.pc = if condition then decoded.pc.setWidth 64 * 8
        else (between.tasklets t).pc + 8)) ∧
      (evaluatedCondition decoded second = some (comparison.holds a b) ↔
        (decoded.writesBoolean || decoded.branches) = true ∧ comparison.readRight a b) := by
  intro first between decoded second a b next
  have hfirst := executeOnce_tested hlow hsub.1 (by rw [hsub.2]; decide)
  have hsecond := executeOnce_tested hhigh hsubc.1 (by rw [hsubc.2]; decide)
  refine ⟨fun condition hcondition => hsecond.shown hcondition, ?_⟩
  -- the flags that SUB left are the ones SUBC starts from
  have hzf : decide ((between.tasklets t).zf ≠ 0) =
      decide (subLhs (decodeRawWord48 low) first = subRhs (decodeRawWord48 low) first) := by
    rw [hfirst.zf_ne_zero, testedResult_sub hsub.2, decide_eq_decide]
    exact Comparison.sub_eq_zero_iff _ _
  have hcf : decide ((between.tasklets t).cf ≠ 0) =
      decide (subLhs (decodeRawWord48 low) first < subRhs (decodeRawWord48 low) first) := by
    rw [hfirst.cf, testedCarry_sub hsub.2, flag_ne_zero]
  have hvalue := conditionValue_subc hsubc.2 second
  have hresult : testedResult decoded second = (limbResult .subc (subcLhs decoded second)
      (subcRhs decoded second) ((between.tasklets t).cf ≠ 0)).1 := by
    simp only [testedResult, decoded, hsubc.2]
    rfl
  have hborrow : conditionValue decoded second =
      evalSubcCcSimple decoded.ccKind (testedResult decoded second = 0)
      (limbResult .subc (subcLhs decoded second) (subcRhs decoded second)
        ((between.tasklets t).cf ≠ 0)).2 (testedResult decoded second)
      ((between.tasklets t).zf ≠ 0) (subcOverflow decoded second) := hvalue
  have hread : conditionValue decoded second = comparison.holds a b ↔
      comparison.readRight a b := by
    rw [hborrow, subcOverflow, hresult, hzf, hcf]
    exact eval_extended rfl hcode _
  rw [evaluatedCondition_eq_some, hread]

/-- `SUB r4, r0, r2` and `SUBC r5, r1, r3, XLES, 5`. -/
def xlesWords : List (BitVec 64) := [0x0E0080C40000, 0x0E84BCC60005]

/-- `SUB r4, r0, r2` and `SUBC r5, r1, r3, XGTU, 5`. -/
def xgtuWords : List (BitVec 64) := [0x0E0080C40000, 0x0E84BFC60005]

theorem xles_of_small :
    let second := operands (rawDecoded 0x0E84BCC60005)
      (executeOnce rawDecoded (programDpu xlesWords [1, 0, 2, 0]) 0).1 0
    evaluatedCondition (rawDecoded 0x0E84BCC60005) second = some true := by
  intro second
  have h := (subc_condition_iff rawDecoded (programDpu xlesWords [1, 0, 2, 0]) 0 0x0E0080C40000
    0x0E84BCC60005 .les (by decide +kernel) (by decide +kernel) (by decide +kernel)
    (by decide +kernel) (by decide +kernel)).2.mpr
    ⟨by decide +kernel, by unfold Comparison.readRight; decide +kernel⟩
  exact h.trans (by decide +kernel)

/-- One is greater than zero, and the branch is not taken. -/
theorem xgtu_not_taken :
    let decode := rawDecoded
    ∃ dpu : Dpu, fetch dpu 0 = some 0x0E0080C40000 ∧
      handled decode 0x0E0080C40000 = true ∧ (decode 0x0E0080C40000).hotOp = .sub ∧
      fetch (executeOnce decode dpu 0).1 0 = some 0x0E84BFC60005 ∧
      handled decode 0x0E84BFC60005 = true ∧ (decode 0x0E84BFC60005).hotOp = .subc ∧
      (decode 0x0E84BFC60005).ccKind.extended = some .gtu ∧
      (let first := operands (decode 0x0E0080C40000) dpu 0
      let between := (executeOnce decode dpu 0).1
      let decoded := decode 0x0E84BFC60005
      let second := operands decoded between 0
      Comparison.gtu.holds (subcLhs decoded second ++ subLhs (decode 0x0E0080C40000) first)
          (subcRhs decoded second ++ subRhs (decode 0x0E0080C40000) first) = true ∧
        evaluatedCondition decoded second = some false ∧
        ((executeOnce decode between 0).1.tasklets 0).pc = 16) :=
  ⟨programDpu xgtuWords [1, 0, 0, 0], by decide +kernel, by decide, by decide, by decide +kernel,
    by decide, by decide, by decide, by decide +kernel, by decide +kernel, by decide +kernel⟩

def expectedZero (decoded : RawDecoded48) (o : Operands) : Bool :=
  let both := (o.dpu.tasklets o.t).zf ≠ 0 && testedResult decoded o = 0
  if decoded.ccKind = .xZero then both else !both

/-- SUBC reads the flag as it was; the others have replaced it with that of their own
result, so that they only see this word. -/
theorem conditionValue_zero {decoded : RawDecoded48} {o : Operands}
    (hcc : decoded.ccKind = .xZero ∨ decoded.ccKind = .xNonZero) :
    conditionValue decoded o = expectedZero decoded o ↔
      decoded.hotOp = .subc ∨ (o.dpu.tasklets o.t).zf ≠ 0 ∨ testedResult decoded o ≠ 0 := by
  unfold expectedZero
  by_cases hsubc : decoded.hotOp = .subc
  · rw [conditionValue_subc hsubc]
    rcases hcc with h | h <;> simp [h, evalSubcCcSimple, hsubc, Bool.and_comm]
  · have hvalue : conditionValue decoded o = evalCcKindSimple decoded.ccKind
        (testedResult decoded o = 0) (testedCarry decoded o ≠ 0) (testedResult decoded o) := by
      unfold conditionValue
      dsimp only
      split
      · rcases hcc with h | h <;> simp [h]
      · contradiction
      · rfl
    rw [hvalue]
    by_cases hzero : testedResult decoded o = 0
    · rcases hcc with h | h <;> simp [h, evalCcKindSimple, hsubc, hzero]
    · have hfalse : decide (testedResult decoded o = 0) = false := decide_eq_false hzero
      refine iff_of_true ?_ (.inr (.inr hzero))
      rcases hcc with h | h <;>
        simp only [h, evalCcKindSimple, hfalse, Bool.and_false, if_true, reduceCtorEq, if_false]

/-- An extended zero condition: when it is evaluated, where it shows, and when it is
the zero of both words.  The flag before it is the zero of the word before it. -/
theorem extended_zero_iff (decodeRawWord48 : BitVec 64 → RawDecoded48) (dpu : Dpu) (t : Nat)
    (inst48 : BitVec 64) (hfetch : fetch dpu t = some inst48)
    (hhandled : handled decodeRawWord48 inst48 = true)
    (hop : (decodeRawWord48 inst48).hotOp ∈ testedOps)
    (hcc : (decodeRawWord48 inst48).ccKind = .xZero ∨
      (decodeRawWord48 inst48).ccKind = .xNonZero) :
    let decoded := decodeRawWord48 inst48
    let o := operands decoded dpu t
    let next := (executeOnce decodeRawWord48 dpu t).1.tasklets t
    (∀ condition, evaluatedCondition decoded o = some condition →
      (decoded.writesBoolean = true →
        next.gp = ((dpu.tasklets t).writeBoolean decoded condition).gp) ∧
      (decoded.branches = true → next.pc = if condition then decoded.pc.setWidth 64 * 8
        else (dpu.tasklets t).pc + 8)) ∧
    (evaluatedCondition decoded o = some (expectedZero decoded o) ↔
      (decoded.writesBoolean || decoded.branches) = true ∧
        (decoded.hotOp = .subc ∨ (dpu.tasklets t).zf ≠ 0 ∨ testedResult decoded o ≠ 0)) ∧
    ∀ (earlier : Dpu) (word : BitVec 64), fetch earlier t = some word →
      handled decodeRawWord48 word = true → (decodeRawWord48 word).hotOp ∈ testedOps →
      dpu = (executeOnce decodeRawWord48 earlier t).1 →
      ((dpu.tasklets t).zf ≠ 0 ↔
        testedResult (decodeRawWord48 word) (operands (decodeRawWord48 word) earlier t) = 0) := by
  intro decoded o next
  have htested := executeOnce_tested hfetch hhandled hop
  refine ⟨fun condition hcondition => htested.shown hcondition, ?_, ?_⟩
  · rw [evaluatedCondition_eq_some, conditionValue_zero hcc]
    rfl
  · intro earlier word hword hwordHandled hwordOp hdpu
    have hbefore := (executeOnce_tested hword hwordHandled hwordOp).zf_ne_zero
    rw [← hdpu] at hbefore
    exact decide_eq_decide.mp hbefore

/-- `ADD r2, r0, r1, XZ, 5`. -/
def addXzWord : BitVec 64 := 0x0D0004C20005

theorem addXz_of_nonzero :
    let decoded := rawDecoded addXzWord
    let o := operands decoded (programDpu [addXzWord] [1, 2]) 0
    evaluatedCondition decoded o = some (expectedZero decoded o) :=
  (extended_zero_iff rawDecoded (programDpu [addXzWord] [1, 2]) 0
    addXzWord (by decide +kernel) (by decide) (by decide) (by decide)).2.1.mpr
    (by decide +kernel)

/-- The sum is zero, the flag was clear, and the branch is taken. -/
theorem addXz_ignores_flag :
    let decode := rawDecoded
    ∃ dpu : Dpu, fetch dpu 0 = some addXzWord ∧ handled decode addXzWord = true ∧
      (decode addXzWord).hotOp = .add ∧ (decode addXzWord).ccKind = .xZero ∧
      (dpu.tasklets 0).zf = 0 ∧
      evaluatedCondition (decode addXzWord) (operands (decode addXzWord) dpu 0) = some true ∧
      expectedZero (decode addXzWord) (operands (decode addXzWord) dpu 0) = false ∧
      ((executeOnce decode dpu 0).1.tasklets 0).pc = 40 :=
  ⟨programDpu [addXzWord] [], by decide +kernel, by decide, by decide, by decide,
    by decide +kernel, by decide +kernel, by decide +kernel, by decide +kernel⟩

end HostPimSim.Upmem
