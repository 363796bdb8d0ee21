import HostPimSim.Lib.Limbs
import HostPimSim.Upmem.DecodeTable
import HostPimSim.Upmem.Effects
import HostPimSim.Upmem.Tasklets

/-! Arithmetic on numbers of several words: ADD or SUB on the lowest words, then
ADDC or SUBC on the others, with the flag of a tasklet as the carry between them. -/
namespace HostPimSim.Upmem

open DecodeTable (rawDecoded)
open Lib.Limbs (value)

def limbResult (op : HotOp) (left right : BitVec 32) (carry : Bool) : BitVec 32 × Bool :=
  match op with
  | .add => addWithCarry left right false
  | .addc => addWithCarry left right carry
  | .sub => (left - right, left < right)
  | _ =>
      let subtrahend := right + (if carry then 1 else 0)
      (left - subtrahend, left < subtrahend || subtrahend < right)

/-- The forms of the operations on three scalar registers.  The one with a
condition may jump as well. -/
structure RegisterForm (decoded : RawDecoded48) (op : HotOp) (ra rb rc : Nat) : Prop where
  hotOp : decoded.hotOp = op
  format : decoded.hotFmt = .rrr ∨ decoded.hotFmt = .rrrci
  hasRa : decoded.hasRa = true
  hasRb : decoded.hasRb = true
  hasRc : decoded.hasRc = true
  ra : (decoded.ra &&& 0x1F).toNat = ra
  rb : (decoded.rb &&& 0x1F).toNat = rb
  rc : (decoded.rc &&& 0x1F).toNat = rc

def Tasklet.withResult (tasklet : Tasklet) (rc : Nat) (result : BitVec 32 × Bool) : Tasklet :=
  ((tasklet.writeReg rc result.1).setZf result.1).setCf result.2

def Effect.isJump : Effect → Prop
  | .branch _ _ _ | .jump _ => True
  | _ => False

theorem applyEffects_jumps {t : Nat} {effects : List Effect} (h : Meets Effect.isJump effects)
    (exec : Exec) :
    (applyEffects t exec effects).dpu = exec.dpu ∧
      (applyEffects t exec effects).keepRunning = exec.keepRunning := by
  refine applyEffects_invariant (fun next => next.dpu = exec.dpu ∧
    next.keepRunning = exec.keepRunning) ?_ h ⟨rfl, rfl⟩
  intro next effect hnext heffect
  cases effect with
  | branch ccKind target value =>
      simp only [Effect.apply]
      split <;> exact hnext
  | jump target => exact hnext
  | _ => exact absurd heffect id

section
variable {decoded : RawDecoded48} {op : HotOp} {ra rb rc : Nat} {o : Operands}

theorem isJump_takeCondBranch (value : BitVec 32) :
    Meets Effect.isJump (takeCondBranch decoded value) := by
  unfold takeCondBranch
  split
  · simp [Effect.isJump]
  · exact meets_nil

theorem takeCondBranch_of_hasPc (hpc : decoded.hasPc = false) (value : BitVec 32) :
    takeCondBranch decoded value = [] := by
  simp [takeCondBranch, hpc]

theorem RegisterForm.writeRc (h : RegisterForm decoded op ra rb rc) (value : BitVec 32) :
    writeRc decoded value = [.writeReg rc value] := by
  unfold Upmem.writeRc
  rw [if_pos h.hasRc, h.rc]

@[simp] theorem setTasklet_setTasklet (dpu : Dpu) (t : Nat) (first second : Tasklet) :
    (dpu.setTasklet t first).setTasklet t second = dpu.setTasklet t second := by
  unfold Dpu.setTasklet
  congr 1
  funext i
  dsimp only
  split <;> rfl

inductive WritesResult (rc : Nat) (result : BitVec 32 × Bool) : List Effect → Prop
  | wordFirst : WritesResult rc result
      [.writeReg rc result.1, .setZf result.1, .setCf result.2]
  | flagsFirst : WritesResult rc result
      [.setZf result.1, .setCf result.2, .writeReg rc result.1]

theorem WritesResult.apply {result : BitVec 32 × Bool} {writes : List Effect}
    (h : WritesResult rc result writes) (t : Nat) (exec : Exec) :
    applyEffects t exec writes =
      { exec with
        dpu := exec.dpu.setTasklet t ((exec.dpu.tasklets t).withResult rc result) } := by
  cases h with
  | wordFirst => simp [applyEffects, Effect.apply, Tasklet.withResult]
  | flagsFirst =>
      simp only [applyEffects, Effect.apply, List.foldl_cons, List.foldl_nil, setTasklet_tasklets,
        if_true, setTasklet_setTasklet, Tasklet.withResult, Tasklet.writeReg]
      split <;> rfl

theorem RegisterForm.hotEffects (h : RegisterForm decoded op ra rb rc)
    (hop : op ∈ [HotOp.add, .addc, .sub, .subc]) (o : Operands) :
    ∃ writes jumps,
      WritesResult rc (limbResult op o.vra o.vrb ((o.dpu.tasklets o.t).cf ≠ 0)) writes ∧
      Meets Effect.isJump jumps ∧ (decoded.hasPc = false → jumps = []) ∧
      Upmem.hotEffects decoded o = writes ++ jumps := by
  have hnotC : decoded.isRrrc = false := by
    obtain hfmt | hfmt := h.format <;> simp [RawDecoded48.isRrrc, hfmt]
  have hreg : decoded.rhsIsReg = true := by
    obtain hfmt | hfmt := h.format <;> simp [RawDecoded48.rhsIsReg, hfmt]
  have hop' := h.hotOp
  simp only [List.mem_cons, List.not_mem_nil, or_false] at hop
  unfold Upmem.hotEffects
  obtain rfl | rfl | rfl | rfl := hop
  · have hsigned : decoded.immIsSigned8 = false := by
      obtain hfmt | hfmt := h.format <;> simp [RawDecoded48.immIsSigned8, hfmt]
    simp only [hop', Upmem.addEffects, h.writeRc, hsigned, h.hasRb, if_true, Bool.false_eq_true,
      if_false]
    refine ⟨_, _, .wordFirst, ?_, ?_, rfl⟩
    · split
      · simp [Effect.isJump]
      · exact isJump_takeCondBranch _
    · intro hpc
      simp [hpc, takeCondBranch_of_hasPc hpc]
  · simp only [hop', h.writeRc, h.hasRb, if_true]
    exact ⟨_, _, .wordFirst, isJump_takeCondBranch _, (takeCondBranch_of_hasPc · _), rfl⟩
  · have himm : decoded.subLhsIsImm = false := by
      obtain hfmt | hfmt := h.format <;> simp [RawDecoded48.subLhsIsImm, hfmt]
    simp only [hop', Upmem.subEffects, h.writeRc, hnotC, hreg, himm, if_true,
      Bool.false_eq_true, if_false]
    refine ⟨_, _, .flagsFirst, ?_, ?_, rfl⟩
    · split
      · exact isJump_takeCondBranch _
      · exact meets_nil
    · intro hpc
      simp [takeCondBranch_of_hasPc hpc]
  · have himm : decoded.subcLhsIsImm = false := by
      obtain hfmt | hfmt := h.format <;> simp [RawDecoded48.subcLhsIsImm, hfmt]
    have hresult : limbResult .subc o.vra o.vrb ((o.dpu.tasklets o.t).cf ≠ 0) =
        let rhs := o.vrb + (if (o.dpu.tasklets o.t).cf ≠ 0 then 1 else 0)
        (o.vra - rhs, o.vra < rhs || rhs < o.vrb) := by
      simp only [limbResult, decide_eq_true_eq]
    rw [hresult]
    simp only [hop', Upmem.subcEffects, h.writeRc, hnotC, hreg, himm, if_true,
      Bool.false_eq_true, if_false]
    refine ⟨_, _, .flagsFirst, ?_, ?_, rfl⟩
    · rw [meets_ite]
      simp [Effect.isJump]
    · intro hpc
      simp [hpc]

end

theorem retireHot_running {exec : Exec} (hkeep : exec.keepRunning = true) (t : Nat) :
    (retireHot exec t).1.tasklets t = { exec.dpu.tasklets t with pc := exec.nextPc } ∧
      (retireHot exec t).1.iram = exec.dpu.iram ∧
      (retireHot exec t).1.runBits = exec.dpu.runBits ∧
      (retireHot exec t).1.sleepBits = exec.dpu.sleepBits := by
  unfold retireHot
  rw [if_pos hkeep]
  unfold Dpu.perfCounterRetireStep
  dsimp only
  split <;> simp [Exec.commitPc, Dpu.setTasklet]

section
variable {decodeRawWord48 : BitVec 64 → RawDecoded48} {dpu : Dpu} {t ra rb rc : Nat}
  {op : HotOp} {inst48 : BitVec 64}

theorem executeOnce_registerForm (hfetch : fetch dpu t = some inst48)
    (hhandled : handled decodeRawWord48 inst48 = true)
    (hform : RegisterForm (decodeRawWord48 inst48) op ra rb rc)
    (hop : op ∈ [HotOp.add, .addc, .sub, .subc]) :
    ∃ nextPc,
      ((decodeRawWord48 inst48).hasPc = false → nextPc = (dpu.tasklets t).pc + 8) ∧
      (executeOnce decodeRawWord48 dpu t).1.tasklets t =
        { (dpu.tasklets t).withResult rc (limbResult op (dpu.readReg t ra) (dpu.readReg t rb)
            ((dpu.tasklets t).cf ≠ 0)) with pc := nextPc } ∧
      (executeOnce decodeRawWord48 dpu t).1.iram = dpu.iram ∧
      (executeOnce decodeRawWord48 dpu t).1.runBits = dpu.runBits ∧
      (executeOnce decodeRawWord48 dpu t).1.sleepBits = dpu.sleepBits := by
  have hra : (operands (decodeRawWord48 inst48) dpu t).vra = dpu.readReg t ra := by
    unfold operands
    rw [if_pos hform.hasRa, hform.ra]
  have hrb : (operands (decodeRawWord48 inst48) dpu t).vrb = dpu.readReg t rb := by
    unfold operands
    rw [if_pos hform.hasRb, hform.rb]
  obtain ⟨writes, jumps, hwrites, hjumps, hpc, heffects⟩ :=
    hform.hotEffects hop (operands (decodeRawWord48 inst48) dpu t)
  rw [hra, hrb] at hwrites
  rw [executeOnce_handled hfetch hhandled, heffects, applyEffects_append,
    hwrites.apply t (dpu.startExec t)]
  generalize hstart : ({ dpu.startExec t with dpu := _ } : Exec) = written
  have hwritten : written.keepRunning = true ∧ written.nextPc = (dpu.tasklets t).pc + 8 := by
    subst hstart
    exact ⟨rfl, rfl⟩
  obtain ⟨hdpu, hkeep⟩ := applyEffects_jumps hjumps written
  obtain ⟨htasklet, hiram, hrun, hsleep⟩ :=
    retireHot_running (hkeep.trans hwritten.1) t
  refine ⟨(applyEffects t written jumps).nextPc, ?_, ?_, ?_, ?_, ?_⟩
  · intro hnone
    rw [hpc hnone]
    exact hwritten.2
  · rw [htasklet, hdpu, ← hstart]
    simp only [setTasklet_tasklets, if_true]
    rfl
  · rw [hiram, hdpu, ← hstart]
    rfl
  · rw [hrun, hdpu, ← hstart]
    rfl
  · rw [hsleep, hdpu, ← hstart]
    rfl

end

theorem addWithCarry_toNat (left right : BitVec 32) (carry : Bool) :
    (addWithCarry left right carry).1.toNat +
        2 ^ 32 * (addWithCarry left right carry).2.toNat =
      left.toNat + right.toNat + carry.toNat := by
  have hleft := left.isLt
  have hright := right.isLt
  have hcarry := carry.toNat_le
  have hsum : (left.setWidth 64 + right.setWidth 64 + (if carry then 1 else 0)).toNat =
      left.toNat + right.toNat + carry.toNat := by
    cases carry <;> simp [BitVec.toNat_add] <;> omega
  unfold addWithCarry
  dsimp only
  generalize (left.setWidth 64 + right.setWidth 64 + (if carry then 1 else 0)) = sum at hsum ⊢
  have hhigh : (decide (sum >>> 32 ≠ 0)).toNat = sum.toNat / 2 ^ 32 := by
    have hshift : (sum >>> 32).toNat = sum.toNat / 2 ^ 32 := by
      rw [BitVec.toNat_ushiftRight, Nat.shiftRight_eq_div_pow]
    by_cases hzero : sum >>> 32 = 0
    · rw [hzero] at hshift
      rw [← hshift, hzero]
      rfl
    · have hpos : sum.toNat / 2 ^ 32 ≠ 0 := by
        intro h
        exact hzero (BitVec.eq_of_toNat_eq (hshift.trans h))
      simp only [hzero, ne_eq, not_false_eq_true, decide_true, Bool.toNat_true]
      omega
  rw [hhigh, BitVec.toNat_setWidth, hsum]
  exact Nat.mod_add_div _ _

theorem subWithBorrow_toNat (left right : BitVec 32) (borrow : Bool) :
    left.toNat + 2 ^ 32 * (limbResult .subc left right borrow).2.toNat =
      (limbResult .subc left right borrow).1.toNat + right.toNat + borrow.toNat := by
  have hleft := left.isLt
  have hright := right.isLt
  have hborrow := borrow.toNat_le
  have hrhs : (right + (if borrow then 1 else 0)).toNat =
      (right.toNat + borrow.toNat) % 2 ^ 32 := by
    cases borrow with
    | false => simpa using (Nat.mod_eq_of_lt hright).symm
    | true => simp [BitVec.toNat_add]
  unfold limbResult
  dsimp only
  generalize right + (if borrow then 1 else 0) = subtrahend at hrhs ⊢
  have hflag : (decide (left < subtrahend) || decide (subtrahend < right)).toNat =
      if left.toNat < subtrahend.toNat ∨ subtrahend.toNat < right.toNat then 1 else 0 := by
    simp only [BitVec.lt_def, ← Bool.decide_or]
    split <;> rename_i h <;> simp [h]
  rw [hflag, BitVec.toNat_sub]
  split <;> omega

section
variable (decodeRawWord48 : BitVec 64 → RawDecoded48)

/-- The DPU after `i` calls of `execute_once` for one tasklet. -/
def executed (dpu : Dpu) (t : Nat) : Nat → Dpu
  | 0 => dpu
  | i + 1 => (executeOnce decodeRawWord48 (executed dpu t i) t).1

def Executes (dpu : Dpu) (t : Nat) (word : Nat → BitVec 64) (n : Nat) : Prop :=
  ∀ i, i < n → fetch (executed decodeRawWord48 dpu t i) t = some (word i)

/-- `first` on the lowest words and `next` on the others, in register forms of the
decoded switch.  No word overwrites a source of a later one, nor its destination;
the destinations may be sources otherwise. -/
structure Multiword (first next : HotOp) (word : Nat → BitVec 64) (ra rb rc : Nat → Nat)
    (n : Nat) : Prop where
  handled : ∀ i, i < n → handled decodeRawWord48 (word i) = true
  form : ∀ i, i < n → RegisterForm (decodeRawWord48 (word i)) (if i = 0 then first else next)
    (ra i) (rb i) (rc i)
  scalar : ∀ i, i < n → ra i < 24 ∧ rb i < 24 ∧ rc i < 24
  distinct : ∀ i j, i < j → j < n → rc i ≠ ra j ∧ rc i ≠ rb j ∧ rc i ≠ rc j

end

/-- The number that the registers of a tasklet hold, the lowest word first. -/
def number (dpu : Dpu) (t : Nat) (register : Nat → Nat) (n : Nat) : Nat :=
  value (2 ^ 32) (fun i => (dpu.readReg t (register i)).toNat) n

def arithmeticOps : List HotOp := [.add, .addc, .sub, .subc]

theorem limbOp_mem {first next : HotOp} (hops : first ∈ arithmeticOps ∧ next ∈ arithmeticOps)
    (i : Nat) : (if i = 0 then first else next) ∈ arithmeticOps := by
  split
  · exact hops.1
  · exact hops.2

section
variable {decodeRawWord48 : BitVec 64 → RawDecoded48} {dpu : Dpu} {t n : Nat}
  {first next : HotOp} {word : Nat → BitVec 64} {ra rb rc : Nat → Nat}
variable (hwords : Multiword decodeRawWord48 first next word ra rb rc n)
  (hexec : Executes decodeRawWord48 dpu t word n)
  (hops : first ∈ arithmeticOps ∧ next ∈ arithmeticOps)
include hwords hexec hops

theorem executed_succ {i : Nat} (hi : i < n) :
    ∃ result, result = limbResult (if i = 0 then first else next)
        ((executed decodeRawWord48 dpu t i).readReg t (ra i))
        ((executed decodeRawWord48 dpu t i).readReg t (rb i))
        (((executed decodeRawWord48 dpu t i).tasklets t).cf ≠ 0) ∧
      ((executed decodeRawWord48 dpu t (i + 1)).tasklets t).cf = (if result.2 then 1 else 0) ∧
      ∀ r, r < 24 → (executed decodeRawWord48 dpu t (i + 1)).readReg t r =
        if r = rc i then result.1 else (executed decodeRawWord48 dpu t i).readReg t r := by
  have hstep : executed decodeRawWord48 dpu t (i + 1) =
      (executeOnce decodeRawWord48 (executed decodeRawWord48 dpu t i) t).1 := rfl
  obtain ⟨nextPc, -, htasklet, -⟩ :=
    executeOnce_registerForm (hexec i hi) (hwords.handled i hi) (hwords.form i hi)
      (limbOp_mem hops i)
  refine ⟨_, rfl, ?_, ?_⟩
  · rw [hstep, htasklet]
    rfl
  · intro r hr
    rw [readReg_scalar _ t hr, readReg_scalar _ t hr, hstep, htasklet]
    simp only [Tasklet.withResult, Tasklet.setCf, Tasklet.setZf, Tasklet.writeReg,
      (hwords.scalar i hi).2.2, if_true]

theorem readReg_executed {k m r : Nat} (hkm : k ≤ m) (hm : m ≤ n) (hr : r < 24)
    (hne : ∀ i, k ≤ i → i < m → rc i ≠ r) :
    (executed decodeRawWord48 dpu t m).readReg t r =
      (executed decodeRawWord48 dpu t k).readReg t r := by
  induction m, hkm using Nat.le_induction with
  | base => rfl
  | succ m hkm ih =>
      obtain ⟨result, -, -, hregs⟩ := executed_succ hwords hexec hops (i := m) (by omega)
      rw [hregs r hr, if_neg (hne m hkm (by omega)).symm]
      exact ih (by omega) fun i hki him => hne i hki (by omega)

theorem executed_limb {i : Nat} (hi : i < n) :
    ∃ result, result = limbResult (if i = 0 then first else next) (dpu.readReg t (ra i))
        (dpu.readReg t (rb i)) (((executed decodeRawWord48 dpu t i).tasklets t).cf ≠ 0) ∧
      ((executed decodeRawWord48 dpu t (i + 1)).tasklets t).cf = (if result.2 then 1 else 0) ∧
      (executed decodeRawWord48 dpu t n).readReg t (rc i) = result.1 := by
  obtain ⟨hra, hrb, hrc⟩ := hwords.scalar i hi
  obtain ⟨result, hresult, hcf, hregs⟩ := executed_succ hwords hexec hops hi
  have hleft := readReg_executed hwords hexec hops (Nat.zero_le i) (by omega) hra
    fun j _ hji => (hwords.distinct j i hji hi).1
  have hright := readReg_executed hwords hexec hops (Nat.zero_le i) (by omega) hrb
    fun j _ hji => (hwords.distinct j i hji hi).2.1
  have hkept := readReg_executed hwords hexec hops (k := i + 1) hi (le_refl n) hrc
    fun j hij hjn => ((hwords.distinct i j (by omega) hjn).2.2).symm
  rw [hleft, hright] at hresult
  refine ⟨result, hresult, hcf, ?_⟩
  rw [hkept, hregs (rc i) hrc, if_pos rfl]

end

/-- The flag before word `i` as a carry; the first word starts without one. -/
def carryBefore (decodeRawWord48 : BitVec 64 → RawDecoded48) (dpu : Dpu) (t i : Nat) : Bool :=
  i ≠ 0 ∧ ((executed decodeRawWord48 dpu t i).tasklets t).cf ≠ 0

section
variable {decodeRawWord48 : BitVec 64 → RawDecoded48} {dpu : Dpu} {t n : Nat}
  {word : Nat → BitVec 64} {ra rb rc : Nat → Nat}

theorem carryBefore_succ {i : Nat} {carry : Bool}
    (hcf : ((executed decodeRawWord48 dpu t (i + 1)).tasklets t).cf =
      (if carry then 1 else 0)) :
    carryBefore decodeRawWord48 dpu t (i + 1) = carry := by
  unfold carryBefore
  rw [hcf]
  cases carry <;> simp

theorem limb_add (hwords : Multiword decodeRawWord48 .add .addc word ra rb rc n)
    (hexec : Executes decodeRawWord48 dpu t word n) {i : Nat} (hi : i < n) :
    ((executed decodeRawWord48 dpu t n).readReg t (rc i)).toNat +
        2 ^ 32 * (carryBefore decodeRawWord48 dpu t (i + 1)).toNat =
      (dpu.readReg t (ra i)).toNat + (dpu.readReg t (rb i)).toNat +
        (carryBefore decodeRawWord48 dpu t i).toNat := by
  obtain ⟨result, hresult, hcf, hword⟩ :=
    executed_limb hwords hexec ⟨by decide, by decide⟩ hi
  have hsum : result = addWithCarry (dpu.readReg t (ra i)) (dpu.readReg t (rb i))
      (carryBefore decodeRawWord48 dpu t i) := by
    rw [hresult]
    by_cases hzero : i = 0
    · simp [hzero, carryBefore, limbResult]
    · simp [hzero, carryBefore, limbResult]
  rw [hword, carryBefore_succ hcf, hsum]
  exact addWithCarry_toNat _ _ _

theorem limb_sub (hwords : Multiword decodeRawWord48 .sub .subc word ra rb rc n)
    (hexec : Executes decodeRawWord48 dpu t word n) {i : Nat} (hi : i < n) :
    (dpu.readReg t (ra i)).toNat +
        2 ^ 32 * (carryBefore decodeRawWord48 dpu t (i + 1)).toNat =
      ((executed decodeRawWord48 dpu t n).readReg t (rc i)).toNat +
        (dpu.readReg t (rb i)).toNat + (carryBefore decodeRawWord48 dpu t i).toNat := by
  obtain ⟨result, hresult, hcf, hword⟩ :=
    executed_limb hwords hexec ⟨by decide, by decide⟩ hi
  have hdifference : result = limbResult .subc (dpu.readReg t (ra i)) (dpu.readReg t (rb i))
      (carryBefore decodeRawWord48 dpu t i) := by
    rw [hresult]
    by_cases hzero : i = 0
    · simp [hzero, carryBefore, limbResult]
    · simp [hzero, carryBefore]
  rw [hword, carryBefore_succ hcf, hdifference]
  exact subWithBorrow_toNat _ _ _

theorem number_lt (dpu : Dpu) (t : Nat) (register : Nat → Nat) (n : Nat) :
    number dpu t register n < (2 ^ 32) ^ n :=
  Lib.Limbs.value_lt fun _ _ => BitVec.isLt _

theorem cf_executed {first next : HotOp}
    (hwords : Multiword decodeRawWord48 first next word ra rb rc n)
    (hexec : Executes decodeRawWord48 dpu t word n)
    (hops : first ∈ arithmeticOps ∧ next ∈ arithmeticOps) (hn : 1 ≤ n) :
    ((executed decodeRawWord48 dpu t n).tasklets t).cf =
      if (carryBefore decodeRawWord48 dpu t n).toNat = 1 then 1 else 0 := by
  obtain ⟨i, rfl⟩ : ∃ i, n = i + 1 := ⟨n - 1, by omega⟩
  obtain ⟨result, -, hcf, -⟩ := executed_limb hwords hexec hops (Nat.lt_succ_self i)
  rw [carryBefore_succ hcf, hcf]
  cases result.2 <;> rfl

theorem executed_add (hwords : Multiword decodeRawWord48 .add .addc word ra rb rc n)
    (hexec : Executes decodeRawWord48 dpu t word n) (hn : 1 ≤ n) :
    number (executed decodeRawWord48 dpu t n) t rc n =
        (number dpu t ra n + number dpu t rb n) % 2 ^ (32 * n) ∧
      ((executed decodeRawWord48 dpu t n).tasklets t).cf =
        if 2 ^ (32 * n) ≤ number dpu t ra n + number dpu t rb n then 1 else 0 := by
  have hchain : number (executed decodeRawWord48 dpu t n) t rc n +
        (2 ^ 32) ^ n * (carryBefore decodeRawWord48 dpu t n).toNat =
      number dpu t ra n + number dpu t rb n +
        (carryBefore decodeRawWord48 dpu t 0).toNat :=
    Lib.Limbs.carry_chain _ _ _ (fun i => (carryBefore decodeRawWord48 dpu t i).toNat)
      fun i hi => limb_add hwords hexec hi
  have hzero : (carryBefore decodeRawWord48 dpu t 0).toNat = 0 := by simp [carryBefore]
  rw [hzero, Nat.add_zero] at hchain
  obtain ⟨htotal, hcarry⟩ := Lib.Limbs.sum_of_chain (Bool.toNat_le _)
    (number_lt (executed decodeRawWord48 dpu t n) t rc n) hchain
  rw [pow_mul, cf_executed hwords hexec ⟨by decide, by decide⟩ hn]
  exact ⟨htotal, if_congr hcarry rfl rfl⟩

theorem executed_sub (hwords : Multiword decodeRawWord48 .sub .subc word ra rb rc n)
    (hexec : Executes decodeRawWord48 dpu t word n) (hn : 1 ≤ n) :
    number (executed decodeRawWord48 dpu t n) t rc n =
        (number dpu t ra n + 2 ^ (32 * n) - number dpu t rb n) % 2 ^ (32 * n) ∧
      ((executed decodeRawWord48 dpu t n).tasklets t).cf =
        if number dpu t ra n < number dpu t rb n then 1 else 0 := by
  have hchain : number dpu t ra n +
        (2 ^ 32) ^ n * (carryBefore decodeRawWord48 dpu t n).toNat =
      number (executed decodeRawWord48 dpu t n) t rc n + number dpu t rb n +
        (carryBefore decodeRawWord48 dpu t 0).toNat :=
    Lib.Limbs.carry_chain _ _ _ (fun i => (carryBefore decodeRawWord48 dpu t i).toNat)
      fun i hi => limb_sub hwords hexec hi
  have hzero : (carryBefore decodeRawWord48 dpu t 0).toNat = 0 := by simp [carryBefore]
  rw [hzero, Nat.add_zero] at hchain
  obtain ⟨htotal, hborrow⟩ := Lib.Limbs.difference_of_chain (Bool.toNat_le _)
    (number_lt (executed decodeRawWord48 dpu t n) t rc n) (number_lt dpu t rb n) hchain
  rw [pow_mul, cf_executed hwords hexec ⟨by decide, by decide⟩ hn]
  exact ⟨htotal, if_congr hborrow rfl rfl⟩

/-- The words stand in consecutive slots from the one the tasklet is at, and have
no condition to jump on. -/
structure StraightLine (decodeRawWord48 : BitVec 64 → RawDecoded48) (dpu : Dpu) (t slot : Nat)
    (word : Nat → BitVec 64) (n : Nat) : Prop where
  tasklet : t < kNumTasklets
  runnable : dpu.runnable t = true
  pc : (dpu.tasklets t).pc = BitVec.ofNat 64 (slot * 8)
  slots : slot + n ≤ kIRAMSizeBytes / 8
  loaded : ∀ i, i < n → dpu.iram.readWord (BitVec.ofNat 16 (slot + i)) = word i
  nonzero : ∀ i, i < n → word i ≠ 0
  unconditional : ∀ i, i < n → (decodeRawWord48 (word i)).hasPc = false

/-- After `i` words the tasklet is at the next slot, and it can run the same program. -/
structure AtWord (dpu after : Dpu) (t slot i : Nat) : Prop where
  pc : (after.tasklets t).pc = BitVec.ofNat 64 ((slot + i) * 8)
  iram : after.iram = dpu.iram
  runBits : after.runBits = dpu.runBits
  sleepBits : after.sleepBits = dpu.sleepBits

theorem StraightLine.fetch {slot i : Nat} {after : Dpu}
    (hline : StraightLine decodeRawWord48 dpu t slot word n) (hi : i < n)
    (h : AtWord dpu after t slot i) : fetch after t = some (word i) := by
  have hrunnable : after.runnable t = true := by
    unfold Dpu.runnable
    rw [h.runBits, h.sleepBits]
    exact hline.runnable
  have hslots := hline.slots
  unfold Upmem.fetch
  rw [if_neg (Nat.not_le.mpr hline.tasklet), if_neg (by simp [hrunnable]), h.pc,
    iramSlot_ofNat (by omega), h.iram]
  simp only [Option.bind_some, hline.loaded i hi, hline.nonzero i hi, if_false]

theorem atWord_executed {first next : HotOp} {slot : Nat}
    (hwords : Multiword decodeRawWord48 first next word ra rb rc n)
    (hops : first ∈ arithmeticOps ∧ next ∈ arithmeticOps)
    (hline : StraightLine decodeRawWord48 dpu t slot word n) {i : Nat} (hi : i ≤ n) :
    AtWord dpu (executed decodeRawWord48 dpu t i) t slot i := by
  induction i with
  | zero => exact ⟨hline.pc, rfl, rfl, rfl⟩
  | succ i ih =>
      have hat := ih (by omega)
      obtain ⟨nextPc, hnext, htasklet, hiram, hrun, hsleep⟩ :=
        executeOnce_registerForm (hline.fetch hi hat) (hwords.handled i hi) (hwords.form i hi)
          (limbOp_mem hops i)
      have hmoved : ((executed decodeRawWord48 dpu t (i + 1)).tasklets t).pc = nextPc :=
        congrArg Tasklet.pc htasklet
      refine ⟨?_, hiram.trans hat.iram, hrun.trans hat.runBits, hsleep.trans hat.sleepBits⟩
      rw [hmoved, hnext (hline.unconditional i hi), hat.pc]
      have hadd : (slot + (i + 1)) * 8 = (slot + i) * 8 + 8 := by omega
      rw [hadd, BitVec.ofNat_add]
      rfl

theorem executes_of_straightLine {first next : HotOp} {slot : Nat}
    (hwords : Multiword decodeRawWord48 first next word ra rb rc n)
    (hops : first ∈ arithmeticOps ∧ next ∈ arithmeticOps)
    (hline : StraightLine decodeRawWord48 dpu t slot word n) :
    Executes decodeRawWord48 dpu t word n := by
  intro i hi
  exact hline.fetch hi (atWord_executed hwords hops hline (by omega))

end

/-- ADD and ADDC add numbers of `n` words, SUB and SUBC subtract them, whatever the
flags were; the flag at the end is the carry or the borrow out of the numbers.  A
program without conditions executes all its words. -/
theorem multiword_arithmetic (decodeRawWord48 : BitVec 64 → RawDecoded48) (dpu : Dpu)
    (t n : Nat) (hn : 1 ≤ n) (word : Nat → BitVec 64) (ra rb rc : Nat → Nat) :
    (Multiword decodeRawWord48 .add .addc word ra rb rc n →
      (∀ slot, StraightLine decodeRawWord48 dpu t slot word n →
        Executes decodeRawWord48 dpu t word n) ∧
      (Executes decodeRawWord48 dpu t word n →
        number (executed decodeRawWord48 dpu t n) t rc n =
            (number dpu t ra n + number dpu t rb n) % 2 ^ (32 * n) ∧
          ((executed decodeRawWord48 dpu t n).tasklets t).cf =
            if 2 ^ (32 * n) ≤ number dpu t ra n + number dpu t rb n then 1 else 0)) ∧
    (Multiword decodeRawWord48 .sub .subc word ra rb rc n →
      (∀ slot, StraightLine decodeRawWord48 dpu t slot word n →
        Executes decodeRawWord48 dpu t word n) ∧
      (Executes decodeRawWord48 dpu t word n →
        number (executed decodeRawWord48 dpu t n) t rc n =
            (number dpu t ra n + 2 ^ (32 * n) - number dpu t rb n) % 2 ^ (32 * n) ∧
          ((executed decodeRawWord48 dpu t n).tasklets t).cf =
            if number dpu t ra n < number dpu t rb n then 1 else 0)) := by
  constructor
  · intro hwords
    refine ⟨fun slot hline => ?_, fun hexec => executed_add hwords hexec hn⟩
    exact executes_of_straightLine hwords ⟨by decide, by decide⟩ hline
  · intro hwords
    refine ⟨fun slot hline => ?_, fun hexec => executed_sub hwords hexec hn⟩
    exact executes_of_straightLine hwords ⟨by decide, by decide⟩ hline

/-- `ADD r4, r0, r2` and `ADDC r5, r1, r3`. -/
def pairSumWord (i : Nat) : BitVec 64 := if i = 0 then 0x0E0000C40000 else 0x0E8420C60000

/-- The words in the first slots of a DPU whose tasklet 0 has a number of all ones
in r0 and r1, and one in r2 and r3. -/
def pairSumDpu : Dpu :=
  { Dpu.powerOn with
    iram := fun slot => if slot < 2 then pairSumWord slot else 0
    tasklets := fun _ => { Tasklet.reset with
      gp := fun r => if r < 2 then 0xFFFFFFFF else if r = 2 then 1 else 0 }
    runBits := 1 }

theorem pairSum_carries :
    Multiword rawDecoded .add .addc pairSumWord id (· + 2)
        (· + 4) 2 ∧
      number (executed rawDecoded pairSumDpu 0 2) 0 (· + 4) 2 =
        (number pairSumDpu 0 id 2 + number pairSumDpu 0 (· + 2) 2) % 2 ^ (32 * 2) ∧
      number pairSumDpu 0 id 2 = 2 ^ 64 - 1 := by
  have hwords : Multiword rawDecoded .add .addc pairSumWord id
      (· + 2) (· + 4) 2 := by
    refine ⟨by decide +kernel, ?_, by decide +kernel, fun i j hij hj => ?_⟩
    · intro i hi
      obtain rfl | rfl : i = 0 ∨ i = 1 := by omega
      · exact ⟨by decide +kernel, by decide +kernel, by decide +kernel, by decide +kernel, by decide +kernel, by decide +kernel, by decide +kernel,
          by decide +kernel⟩
      · exact ⟨by decide +kernel, by decide +kernel, by decide +kernel, by decide +kernel, by decide +kernel, by decide +kernel, by decide +kernel,
          by decide +kernel⟩
    · simp only [id_eq, ne_eq]
      omega
  have hline : StraightLine rawDecoded pairSumDpu 0 0
      pairSumWord 2 :=
    ⟨by decide +kernel, by decide +kernel, by decide +kernel, by decide +kernel, by decide +kernel, by decide +kernel, by decide +kernel⟩
  obtain ⟨hexecutes, hsum⟩ := (multiword_arithmetic rawDecoded
    pairSumDpu 0 2 (by decide +kernel) pairSumWord id (· + 2) (· + 4)).1 hwords
  exact ⟨hwords, (hsum (hexecutes 0 hline)).1, by decide +kernel⟩

end HostPimSim.Upmem
