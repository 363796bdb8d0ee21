import HostPimSim.Upmem.Multiword
import HostPimSim.Upmem.TaskletStep

/-! The conditions of the decoded switch: which value and which flags a condition
is evaluated on, and where its outcome goes. -/
namespace HostPimSim.Upmem

def subLhs (decoded : RawDecoded48) (o : Operands) : BitVec 32 :=
  if decoded.subLhsIsImm then o.vimm else o.vra

def subRhs (decoded : RawDecoded48) (o : Operands) : BitVec 32 :=
  if decoded.rhsIsReg then o.vrb else if decoded.subLhsIsImm then o.vra else o.vimm

def subcLhs (decoded : RawDecoded48) (o : Operands) : BitVec 32 :=
  if decoded.subcLhsIsImm then o.vimm else o.vra

def subcRhs (decoded : RawDecoded48) (o : Operands) : BitVec 32 :=
  if decoded.rhsIsReg then o.vrb else if decoded.subcLhsIsImm then o.vra else o.vimm

def addRhs (decoded : RawDecoded48) (o : Operands) : BitVec 32 :=
  if decoded.immIsSigned8 then (decoded.imm.setWidth 8).signExtend 32
  else if decoded.hasRb then o.vrb else o.vimm

def shiftOps : List HotOp :=
  [.lsl, .lslS, .lslU, .lslx, .lslxS, .lslxU, .lsr, .lsrS, .lsrU, .lsrx, .lsrxS, .lsrxU]

/-- The operations that set the zero flag from the result their condition tests. -/
def testedOps : List HotOp :=
  [.or, .orS, .orU, .add, .and, .andS, .andU, .sub, .subc, .clz, .clo] ++ shiftOps

def testedResult (decoded : RawDecoded48) (o : Operands) : BitVec 32 :=
  match decoded.hotOp with
  | .or | .orS | .orU => o.vra ||| (if decoded.hasRb then o.vrb else o.vimm)
  | .add => (addWithCarry o.vra (addRhs decoded o) false).1
  | .and | .andS | .andU =>
      if decoded.immPassthrough then o.vimm
      else o.vra &&& (if decoded.hasRb then o.vrb else o.vimm)
  | .sub => (limbResult .sub (subLhs decoded o) (subRhs decoded o) false).1
  | .subc =>
      (limbResult .subc (subcLhs decoded o) (subcRhs decoded o)
        ((o.dpu.tasklets o.t).cf ≠ 0)).1
  | .clz => if o.vra = 0 then 32 else o.vra.clz
  | .clo => if ~~~o.vra = 0 then 32 else (~~~o.vra).clz
  | op => shiftValue op o.vra (if decoded.hasRb then o.vrb &&& 31 else decoded.shift &&& 31)

def testedCarry (decoded : RawDecoded48) (o : Operands) : BitVec 8 :=
  let flag (carry : Bool) : BitVec 8 := if carry then 1 else 0
  match decoded.hotOp with
  | .add => flag (addWithCarry o.vra (addRhs decoded o) false).2
  | .sub => flag (limbResult .sub (subLhs decoded o) (subRhs decoded o) false).2
  | .subc =>
      flag (limbResult .subc (subcLhs decoded o) (subcRhs decoded o)
        ((o.dpu.tasklets o.t).cf ≠ 0)).2
  | _ => (o.dpu.tasklets o.t).cf

def subcOverflow (decoded : RawDecoded48) (o : Operands) : Bool :=
  let lhs := (subcLhs decoded o).msb
  let rhs := (subcRhs decoded o).msb
  let result := (testedResult decoded o).msb
  (lhs && !rhs && !result) || (!lhs && rhs && result)

def RawDecoded48.writesBoolean (decoded : RawDecoded48) : Bool :=
  if decoded.hotOp = .sub ∨ decoded.hotOp = .subc then decoded.isRrrc
  else decoded.hotOp ∈ shiftOps && decoded.hasCc && !decoded.hasPc &&
    (decoded.hasRc || decoded.hasDc)

def RawDecoded48.branches (decoded : RawDecoded48) : Bool :=
  decoded.hasCc && decoded.hasPc &&
    !((decoded.hotOp = .sub ∨ decoded.hotOp = .subc) && (decoded.isRrrc || decoded.isZrrc))

def conditionValue (decoded : RawDecoded48) (o : Operands) : Bool :=
  let x := testedResult decoded o
  let cf : Bool := testedCarry decoded o ≠ 0
  match decoded.hotOp with
  | .add =>
      if decoded.ccKind = .subwordNoCarry then
        evalAddSubwordNoCarry decoded.ccSubwordBits o.vra (addRhs decoded o)
      else evalCcKindSimple decoded.ccKind (x = 0) cf x
  | .subc =>
      evalSubcCcSimple decoded.ccKind (x = 0) cf x ((o.dpu.tasklets o.t).zf ≠ 0)
        (subcOverflow decoded o)
  | _ => evalCcKindSimple decoded.ccKind (x = 0) cf x

def evaluatedCondition (decoded : RawDecoded48) (o : Operands) : Option Bool :=
  if decoded.writesBoolean || decoded.branches then some (conditionValue decoded o) else none

def Tasklet.writeBoolean (tasklet : Tasklet) (decoded : RawDecoded48) (value : Bool) : Tasklet :=
  if decoded.hotOp ∈ shiftOps ∧ decoded.hasDc then
    tasklet.writeDreg (decodedDc decoded) (if value then 1 else 0)
  else if decoded.hasRc then
    tasklet.writeReg (decoded.rc &&& 0x1F).toNat (if value then 1 else 0)
  else tasklet

/-- The flags come from the result and the carry, and the condition decides the
program counter or the boolean. -/
structure Tested (decoded : RawDecoded48) (o : Operands) (tasklet next : Tasklet) : Prop where
  zf : next.zf = if testedResult decoded o = 0 then 1 else 0
  cf : next.cf = testedCarry decoded o
  pc : next.pc = if decoded.branches && conditionValue decoded o then
    decoded.pc.setWidth 64 * 8 else tasklet.pc
  gp : decoded.writesBoolean = true →
    next.gp = (tasklet.writeBoolean decoded (conditionValue decoded o)).gp

section
variable {decoded : RawDecoded48} {o : Operands} {tasklet : Tasklet}

theorem setZf_ne_zero (tasklet : Tasklet) (x : BitVec 32) :
    decide ((tasklet.setZf x).zf ≠ 0) = decide (x = 0) := by
  unfold Tasklet.setZf
  by_cases hx : x = 0
  · simp [hx]
  · simp

theorem onTasklet_setZf_branch {writes : List Effect} (hwrites : Meets Effect.isWrite writes)
    (tasklet : Tasklet) (x : BitVec 32) :
    onTasklet tasklet (writes ++ [.setZf x] ++ takeCondBranch decoded x) =
      { (onTasklet tasklet writes).setZf x with
        pc := if decoded.hasCc && decoded.hasPc &&
            evalCcKindSimple decoded.ccKind (x = 0) (tasklet.cf ≠ 0) x then
          decoded.pc.setWidth 64 * 8 else tasklet.pc } := by
  obtain ⟨-, hcf, hpc⟩ := onTasklet_writes hwrites tasklet
  have hset : onTasklet tasklet (writes ++ [.setZf x]) = (onTasklet tasklet writes).setZf x := by
    rw [onTasklet_append]
    rfl
  have hcarry : ((onTasklet tasklet writes).setZf x).cf = tasklet.cf := hcf
  have hnext : ((onTasklet tasklet writes).setZf x).pc = tasklet.pc := hpc
  rw [onTasklet_append, hset, onTasklet_takeCondBranch, setZf_ne_zero, hnext]
  simp only [hcarry]

theorem testedCarry_plain
    (hop : decoded.hotOp ≠ .add ∧ decoded.hotOp ≠ .sub ∧ decoded.hotOp ≠ .subc)
    (o : Operands) : testedCarry decoded o = (o.dpu.tasklets o.t).cf := by
  obtain ⟨hadd, hsub, hsubc⟩ := hop
  unfold testedCarry
  split <;> first | contradiction | rfl

theorem conditionValue_plain (hop : decoded.hotOp ≠ .add ∧ decoded.hotOp ≠ .subc)
    (o : Operands) :
    conditionValue decoded o = evalCcKindSimple decoded.ccKind (testedResult decoded o = 0)
      (testedCarry decoded o ≠ 0) (testedResult decoded o) := by
  obtain ⟨hadd, hsubc⟩ := hop
  unfold conditionValue
  dsimp only
  split <;> first | contradiction | rfl

theorem tested_of_setZf_branch {writes : List Effect} (hwrites : Meets Effect.isWrite writes)
    (hop : decoded.hotOp ≠ .add ∧ decoded.hotOp ≠ .sub ∧ decoded.hotOp ≠ .subc)
    (hcf : tasklet.cf = (o.dpu.tasklets o.t).cf)
    (hgp : decoded.writesBoolean = true → (onTasklet tasklet writes).gp =
      (tasklet.writeBoolean decoded (conditionValue decoded o)).gp) :
    Tested decoded o tasklet (onTasklet tasklet (writes ++ [.setZf (testedResult decoded o)] ++
      takeCondBranch decoded (testedResult decoded o))) := by
  have hkept := testedCarry_plain hop o
  have hbranches : decoded.branches = (decoded.hasCc && decoded.hasPc) := by
    simp [RawDecoded48.branches, hop]
  rw [onTasklet_setZf_branch hwrites]
  refine ⟨rfl, ?_, ?_, hgp⟩
  · rw [hkept, ← hcf]
    exact (onTasklet_writes hwrites tasklet).2.1
  · rw [hbranches, conditionValue_plain ⟨hop.1, hop.2.2⟩, hkept, ← hcf]

def logicalOps : List HotOp := [.or, .orS, .orU, .and, .andS, .andU, .clz, .clo]

theorem plain_of_mem {op : HotOp} (h : op ∈ logicalOps ++ shiftOps) :
    op ≠ .add ∧ op ≠ .sub ∧ op ≠ .subc := by
  revert h
  cases op <;> decide

theorem not_shift_of_logical {op : HotOp} (h : op ∈ logicalOps) : op ∉ shiftOps := by
  revert h
  cases op <;> decide

theorem tested_logical (hop : decoded.hotOp ∈ logicalOps)
    (hcf : tasklet.cf = (o.dpu.tasklets o.t).cf) :
    Tested decoded o tasklet (onTasklet tasklet (hotEffects decoded o)) := by
  have hplain := plain_of_mem (List.mem_append_left shiftOps hop)
  have hnot : decoded.writesBoolean = false := by
    simp [RawDecoded48.writesBoolean, hplain, not_shift_of_logical hop]
  have heffects : ∃ writes, Meets Effect.isWrite writes ∧ hotEffects decoded o =
      writes ++ [.setZf (testedResult decoded o)] ++
        takeCondBranch decoded (testedResult decoded o) := by
    simp only [logicalOps, List.mem_cons, List.not_mem_nil, or_false] at hop
    unfold hotEffects testedResult
    rcases hop with h | h | h | h | h | h | h | h <;> simp only [h]
    all_goals refine ⟨_, ?_, rfl⟩
    · exact isWrite_writeResult _ _
    · exact isWrite_writeResult _ _
    · exact isWrite_writeResult _ _
    · rw [meets_ite]
      split <;> simp
    · rw [meets_ite]
      split <;> simp
    · rw [meets_ite]
      split <;> simp
    · exact isWrite_writeRc _ _
    · exact isWrite_writeRc _ _
  obtain ⟨writes, hwrites, heq⟩ := heffects
  rw [heq]
  exact tested_of_setZf_branch hwrites hplain hcf fun h => by rw [hnot] at h; cases h

theorem hotEffects_shift (hop : decoded.hotOp ∈ shiftOps) (o : Operands) :
    hotEffects decoded o = shiftEffects decoded o := by
  unfold hotEffects
  rw [shiftOps] at hop
  cases h : decoded.hotOp <;> first | rfl | simp [h] at hop

theorem testedResult_shift (hop : decoded.hotOp ∈ shiftOps) (o : Operands) :
    testedResult decoded o = shiftValue decoded.hotOp o.vra
      (if decoded.hasRb then o.vrb &&& 31 else decoded.shift &&& 31) := by
  unfold testedResult
  rw [shiftOps] at hop
  cases h : decoded.hotOp <;> first | rfl | simp [h] at hop

theorem tested_shift (hop : decoded.hotOp ∈ shiftOps)
    (hcf : tasklet.cf = (o.dpu.tasklets o.t).cf) :
    Tested decoded o tasklet (onTasklet tasklet (hotEffects decoded o)) := by
  have hplain := plain_of_mem (List.mem_append_right logicalOps hop)
  have hboolean : decoded.writesBoolean =
      (decoded.hasCc && !decoded.hasPc && (decoded.hasRc || decoded.hasDc)) := by
    simp [RawDecoded48.writesBoolean, hplain, hop]
  rw [hotEffects_shift hop]
  unfold shiftEffects
  dsimp only
  rw [← testedResult_shift hop]
  refine tested_of_setZf_branch ?_ hplain hcf fun hwrites => ?_
  · rw [meets_ite]
    split
    · simp [Effect.isWrite]
    · exact isWrite_writeRc _ _
  · have hvalue := conditionValue_plain ⟨hplain.1, hplain.2.2⟩ o
    rw [testedCarry_plain hplain] at hvalue
    rw [hboolean] at hwrites
    simp only [hwrites, if_true, Bool.true_and, ← hvalue, Tasklet.writeBoolean, hop, true_and]
    by_cases hdc : decoded.hasDc = true
    · rw [if_pos hdc, if_pos hdc]
      rfl
    · rw [if_neg hdc, if_neg hdc]
      unfold writeRc
      split <;> rfl

theorem flag_ne_zero (carry : Bool) : decide ((if carry then 1 else 0 : BitVec 8) ≠ 0) = carry := by
  cases carry <;> rfl

theorem onTasklet_flags_branch (tasklet : Tasklet) (x : BitVec 32) (carry : Bool) :
    onTasklet ((tasklet.setZf x).setCf carry) (takeCondBranch decoded x) =
      { (tasklet.setZf x).setCf carry with
        pc := if decoded.hasCc && decoded.hasPc &&
            evalCcKindSimple decoded.ccKind (x = 0) carry x then
          decoded.pc.setWidth 64 * 8 else tasklet.pc } := by
  have hzf : decide (((tasklet.setZf x).setCf carry).zf ≠ 0) = decide (x = 0) :=
    setZf_ne_zero tasklet x
  have hcf : decide (((tasklet.setZf x).setCf carry).cf ≠ 0) = carry := flag_ne_zero carry
  rw [onTasklet_takeCondBranch, hzf, hcf]
  rfl

theorem testedCarry_add (hop : decoded.hotOp = .add) (o : Operands) :
    testedCarry decoded o = if (addWithCarry o.vra (addRhs decoded o) false).2 then 1 else 0 := by
  simp only [testedCarry, hop]

theorem conditionValue_add (hop : decoded.hotOp = .add) (o : Operands) :
    conditionValue decoded o = if decoded.ccKind = .subwordNoCarry then
        evalAddSubwordNoCarry decoded.ccSubwordBits o.vra (addRhs decoded o)
      else evalCcKindSimple decoded.ccKind (testedResult decoded o = 0)
        (addWithCarry o.vra (addRhs decoded o) false).2 (testedResult decoded o) := by
  simp only [conditionValue, hop, testedCarry_add hop, flag_ne_zero]

/-- How ADD branches once its flags are set; a subword code is false for the shared
evaluator. -/
theorem onTasklet_add_branch (hop : decoded.hotOp = .add) (o : Operands) (tasklet : Tasklet)
    {carry : Bool} (hcarry : (addWithCarry o.vra (addRhs decoded o) false).2 = carry) :
    onTasklet ((tasklet.setZf (testedResult decoded o)).setCf carry)
      (if decoded.hasCc && decoded.hasPc && decoded.ccKind = .subwordNoCarry &&
          evalAddSubwordNoCarry decoded.ccSubwordBits o.vra (addRhs decoded o) then
        [.jump (decoded.pc.setWidth 64 * 8)]
      else takeCondBranch decoded (testedResult decoded o)) =
      { (tasklet.setZf (testedResult decoded o)).setCf carry with
        pc := if decoded.branches && conditionValue decoded o then
          decoded.pc.setWidth 64 * 8 else tasklet.pc } := by
  have hbranches : decoded.branches = (decoded.hasCc && decoded.hasPc) := by
    simp [RawDecoded48.branches, hop]
  rw [hbranches, conditionValue_add hop, hcarry]
  by_cases hword : decoded.ccKind = .subwordNoCarry
  · simp only [hword, decide_true, Bool.and_true, if_true]
    split
    · rfl
    · rw [onTasklet_flags_branch, hword]
      simp [evalCcKindSimple]
  · simp only [hword, decide_false, Bool.and_false, Bool.false_and, Bool.false_eq_true, if_false]
    exact onTasklet_flags_branch tasklet (testedResult decoded o) carry

theorem tested_add (hop : decoded.hotOp = .add) :
    Tested decoded o tasklet (onTasklet tasklet (hotEffects decoded o)) := by
  have hresult : testedResult decoded o = (addWithCarry o.vra (addRhs decoded o) false).1 := by
    simp only [testedResult, hop]
  have hflag := testedCarry_add hop o
  generalize hcarry : (addWithCarry o.vra (addRhs decoded o) false).2 = carry at hflag
  have hnot : decoded.writesBoolean = false := by
    simp [RawDecoded48.writesBoolean, hop, shiftOps]
  have heffects : hotEffects decoded o =
      (writeRc decoded (testedResult decoded o) ++
          [.setZf (testedResult decoded o), .setCf carry]) ++
        (if decoded.hasCc && decoded.hasPc && decoded.ccKind = .subwordNoCarry &&
            evalAddSubwordNoCarry decoded.ccSubwordBits o.vra (addRhs decoded o) then
          [.jump (decoded.pc.setWidth 64 * 8)]
        else takeCondBranch decoded (testedResult decoded o)) := by
    simp only [hotEffects, hop, hresult, ← hcarry]
    rfl
  have hset : onTasklet tasklet (writeRc decoded (testedResult decoded o) ++
        [.setZf (testedResult decoded o), .setCf carry]) =
      ((onTasklet tasklet (writeRc decoded (testedResult decoded o))).setZf
        (testedResult decoded o)).setCf carry := by
    rw [onTasklet_append]
    rfl
  have hkept := (onTasklet_writes (isWrite_writeRc decoded (testedResult decoded o)) tasklet).2.2
  rw [heffects, onTasklet_append, hset, onTasklet_add_branch hop o _ hcarry, hkept]
  exact ⟨rfl, hflag.symm, rfl, fun h => by rw [hnot] at h; cases h⟩

theorem onTasklet_flags_first (tasklet : Tasklet) (x value : BitVec 32) (carry : Bool) :
    ∃ written, onTasklet tasklet ([.setZf x, .setCf carry] ++ writeRc decoded value) = written ∧
      written.zf = (if x = 0 then 1 else 0) ∧ written.cf = (if carry then 1 else 0) ∧
      written.pc = tasklet.pc ∧
      written.gp = (if decoded.hasRc then
        tasklet.writeReg (decoded.rc &&& 0x1F).toNat value else tasklet).gp := by
  obtain ⟨hzf, hcf, hpc⟩ := onTasklet_writes (isWrite_writeRc decoded value)
    ((tasklet.setZf x).setCf carry)
  refine ⟨_, rfl, ?_⟩
  rw [onTasklet_append]
  refine ⟨hzf, hcf, hpc, ?_⟩
  simp only [onTasklet_cons, onTasklet_nil, Effect.onTasklet, writeRc]
  split
  · simp only [onTasklet_cons, onTasklet_nil, Effect.onTasklet, Tasklet.writeReg]
    split <;> rfl
  · rfl

theorem writeBoolean_scalar (hop : decoded.hotOp ∉ shiftOps) (tasklet : Tasklet)
    (value : Bool) :
    tasklet.writeBoolean decoded value = if decoded.hasRc then
      tasklet.writeReg (decoded.rc &&& 0x1F).toNat (if value then 1 else 0) else tasklet := by
  simp [Tasklet.writeBoolean, hop]

theorem branches_subtraction (hop : decoded.hotOp = .sub ∨ decoded.hotOp = .subc) :
    decoded.branches = (decoded.hasCc && decoded.hasPc &&
      (!decoded.isRrrc && !decoded.isZrrc)) := by
  simp [RawDecoded48.branches, hop]

theorem tested_of_flags_first {x : BitVec 32} {carry : Bool} (tail : List Effect)
    (hop : decoded.hotOp = .sub ∨ decoded.hotOp = .subc)
    (hresult : testedResult decoded o = x)
    (hcarry : testedCarry decoded o = if carry then 1 else 0)
    (heffects : hotEffects decoded o =
      ([.setZf x, .setCf carry] ++ writeRc decoded
        (if decoded.isRrrc then (if conditionValue decoded o then 1 else 0) else x)) ++ tail)
    (htail : ∀ written : Tasklet, written.zf = (if x = 0 then 1 else 0) →
      written.cf = (if carry then 1 else 0) →
      onTasklet written tail = { written with
        pc := if decoded.branches && conditionValue decoded o then
          decoded.pc.setWidth 64 * 8 else written.pc }) :
    Tested decoded o tasklet (onTasklet tasklet (hotEffects decoded o)) := by
  have hboolean : decoded.writesBoolean = decoded.isRrrc := by
    simp [RawDecoded48.writesBoolean, hop]
  have hscalar : decoded.hotOp ∉ shiftOps := by
    rcases hop with h | h <;> simp [h, shiftOps]
  obtain ⟨written, hwritten, hzf, hcf, hpc, hgp⟩ := @onTasklet_flags_first decoded
    tasklet x (if decoded.isRrrc then (if conditionValue decoded o then 1 else 0) else x) carry
  rw [heffects, onTasklet_append, hwritten, htail written hzf hcf, hpc]
  refine ⟨?_, ?_, rfl, fun hwrites => ?_⟩
  · rw [hresult]
    exact hzf
  · rw [hcarry]
    exact hcf
  · rw [hboolean] at hwrites
    rw [hwrites, if_pos rfl] at hgp
    rw [writeBoolean_scalar hscalar]
    exact hgp

theorem testedCarry_sub (hop : decoded.hotOp = .sub) (o : Operands) :
    testedCarry decoded o =
      if decide (subLhs decoded o < subRhs decoded o) then 1 else 0 := by
  simp only [testedCarry, hop, limbResult]
  rfl

theorem testedResult_sub (hop : decoded.hotOp = .sub) (o : Operands) :
    testedResult decoded o = subLhs decoded o - subRhs decoded o := by
  simp only [testedResult, hop, limbResult]

theorem conditionValue_sub (hop : decoded.hotOp = .sub) (o : Operands) :
    conditionValue decoded o = evalCcKindSimple decoded.ccKind
      (subLhs decoded o - subRhs decoded o = 0) (subLhs decoded o < subRhs decoded o)
      (subLhs decoded o - subRhs decoded o) := by
  rw [conditionValue_plain (by simp [hop]), testedResult_sub hop, testedCarry_sub hop,
    flag_ne_zero]

theorem tested_sub (hop : decoded.hotOp = .sub) :
    Tested decoded o tasklet (onTasklet tasklet (hotEffects decoded o)) := by
  have hresult := testedResult_sub hop o
  have hvalue := conditionValue_sub hop o
  refine tested_of_flags_first
    (if !decoded.isRrrc && !decoded.isZrrc then
      takeCondBranch decoded (subLhs decoded o - subRhs decoded o) else [])
    (.inl hop) hresult (testedCarry_sub hop o) ?_ ?_
  · rw [hvalue]
    simp only [hotEffects, hop]
    rfl
  · intro written hzf hcf
    have hzero : decide (written.zf ≠ 0) =
        decide (subLhs decoded o - subRhs decoded o = 0) := by
      rw [hzf]
      by_cases h : subLhs decoded o - subRhs decoded o = 0 <;> simp [h]
    rw [branches_subtraction (.inl hop), hvalue]
    split
    · rename_i hform
      rw [onTasklet_takeCondBranch, hzero, hcf, flag_ne_zero, hform, Bool.and_true]
    · rename_i hform
      simp [hform]

theorem testedCarry_subc (hop : decoded.hotOp = .subc) (o : Operands) :
    testedCarry decoded o = if (limbResult .subc (subcLhs decoded o) (subcRhs decoded o)
      ((o.dpu.tasklets o.t).cf ≠ 0)).2 then 1 else 0 := by
  simp only [testedCarry, hop]

theorem conditionValue_subc (hop : decoded.hotOp = .subc) (o : Operands) :
    conditionValue decoded o = evalSubcCcSimple decoded.ccKind (testedResult decoded o = 0)
      (limbResult .subc (subcLhs decoded o) (subcRhs decoded o)
        ((o.dpu.tasklets o.t).cf ≠ 0)).2
      (testedResult decoded o) ((o.dpu.tasklets o.t).zf ≠ 0) (subcOverflow decoded o) := by
  simp only [conditionValue, hop, testedCarry_subc hop, flag_ne_zero]

theorem tested_subc (hop : decoded.hotOp = .subc) :
    Tested decoded o tasklet (onTasklet tasklet (hotEffects decoded o)) := by
  refine tested_of_flags_first
    (if decoded.branches && conditionValue decoded o then
      [.jump (decoded.pc.setWidth 64 * 8)] else [])
    (.inr hop) rfl (testedCarry_subc hop o) ?_ ?_
  · rw [branches_subtraction (.inr hop), conditionValue_subc hop]
    simp only [hotEffects, testedResult, hop, limbResult, subcOverflow, decide_eq_true_eq,
      ← Bool.and_assoc]
    rfl
  · intro written _ _
    split <;> rfl

theorem tested_hotEffects (hop : decoded.hotOp ∈ testedOps)
    (hcf : tasklet.cf = (o.dpu.tasklets o.t).cf) :
    Tested decoded o tasklet (onTasklet tasklet (hotEffects decoded o)) := by
  have hfamily : decoded.hotOp ∈ logicalOps ∨ decoded.hotOp ∈ shiftOps ∨ decoded.hotOp = .add ∨
      decoded.hotOp = .sub ∨ decoded.hotOp = .subc := by
    revert hop
    cases decoded.hotOp <;> decide
  rcases hfamily with h | h | h | h | h
  · exact tested_logical h hcf
  · exact tested_shift h hcf
  · exact tested_add h
  · exact tested_sub h
  · exact tested_subc h

theorem executeOnce_tested {decodeRawWord48 : BitVec 64 → RawDecoded48} {dpu : Dpu} {t : Nat}
    {inst48 : BitVec 64} (hfetch : fetch dpu t = some inst48)
    (hhandled : handled decodeRawWord48 inst48 = true)
    (hop : (decodeRawWord48 inst48).hotOp ∈ testedOps) :
    Tested (decodeRawWord48 inst48) (operands (decodeRawWord48 inst48) dpu t)
      (dpu.tasklets t).advanced ((executeOnce decodeRawWord48 dpu t).1.tasklets t) := by
  rw [executeOnce_onTasklet hfetch, wordEffects_handled hhandled]
  exact tested_hotEffects hop rfl

end

end HostPimSim.Upmem
