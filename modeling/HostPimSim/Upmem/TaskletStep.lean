import HostPimSim.Upmem.Destination

/-! What an instruction leaves in the tasklet that executes it: its effects, applied
one after the other to the registers, the flags and the program counter alone. -/
namespace HostPimSim.Upmem

/-- The effect on the executing tasklet, whose program counter is the next one. -/
def Effect.onTasklet (tasklet : Tasklet) : Effect → Tasklet
  | .writeReg idx value => tasklet.writeReg idx value
  | .writeDreg idx value => tasklet.writeDreg idx value
  | .setZf value => tasklet.setZf value
  | .setCf value => tasklet.setCf value
  | .branch ccKind target value =>
      if evalCcKindSimple ccKind (tasklet.zf ≠ 0) (tasklet.cf ≠ 0) value then
        { tasklet with pc := target }
      else tasklet
  | .jump target => { tasklet with pc := target }
  | _ => tasklet

def onTasklet (tasklet : Tasklet) (effects : List Effect) : Tasklet :=
  effects.foldl Effect.onTasklet tasklet

@[simp] theorem onTasklet_nil (tasklet : Tasklet) : onTasklet tasklet [] = tasklet := rfl

@[simp] theorem onTasklet_cons (tasklet : Tasklet) (effect : Effect) (effects : List Effect) :
    onTasklet tasklet (effect :: effects) = onTasklet (effect.onTasklet tasklet) effects := rfl

@[simp] theorem onTasklet_append (tasklet : Tasklet) (first second : List Effect) :
    onTasklet tasklet (first ++ second) = onTasklet (onTasklet tasklet first) second :=
  List.foldl_append

def Exec.retired (exec : Exec) (t : Nat) : Tasklet :=
  { exec.dpu.tasklets t with pc := exec.nextPc }

theorem apply_retired {t : Nat} (exec : Exec) (effect : Effect)
    (hboots : effect.boots ≠ some t) :
    (effect.apply t exec).retired t = effect.onTasklet (exec.retired t) := by
  unfold Exec.retired
  cases effect with
  | writeReg idx value =>
      simp only [Effect.apply, setTasklet_tasklets, if_true, Effect.onTasklet,
        Tasklet.writeReg]
      split <;> rfl
  | writeDreg idx value =>
      simp only [Effect.apply, setTasklet_tasklets, if_true, Effect.onTasklet,
        Tasklet.writeDreg, Tasklet.writeReg]
      split
      · rfl
      · split <;> split <;> rfl
  | branch ccKind target value =>
      simp only [Effect.apply, Effect.onTasklet]
      split <;> rfl
  | boot index clears =>
      have hne : t ≠ index := fun h => hboots (by rw [h]; rfl)
      simp [Effect.apply, Effect.onTasklet, hne]
  | setZf value => simp [Effect.apply, Effect.onTasklet, Tasklet.setZf]
  | setCf value => simp [Effect.apply, Effect.onTasklet, Tasklet.setCf]
  | _ => rfl

theorem applyEffects_retired {t : Nat} {effects : List Effect}
    (hboots : Meets (fun effect => effect.boots ≠ some t) effects) (exec : Exec) :
    (applyEffects t exec effects).retired t = onTasklet (exec.retired t) effects := by
  induction effects generalizing exec with
  | nil => rfl
  | cons effect rest ih =>
      rw [meets_cons] at hboots
      rw [onTasklet_cons, ← apply_retired exec effect hboots.1]
      exact ih hboots.2 (effect.apply t exec)

def Tasklet.advanced (tasklet : Tasklet) : Tasklet := { tasklet with pc := tasklet.pc + 8 }

section
variable {decodeRawWord48 : BitVec 64 → RawDecoded48} {dpu : Dpu} {t : Nat} {inst48 : BitVec 64}

theorem executeOnce_onTasklet (hfetch : fetch dpu t = some inst48) :
    (executeOnce decodeRawWord48 dpu t).1.tasklets t =
      onTasklet (dpu.tasklets t).advanced (wordEffects decodeRawWord48 inst48 dpu t) := by
  unfold wordEffects
  cases hhandled : handled decodeRawWord48 inst48 with
  | true =>
      have hsound := sound_hotEffects (decodeRawWord48 inst48)
        (operands (decodeRawWord48 inst48) dpu t)
      rw [executeOnce_handled hfetch hhandled, retire_commits (.inl rfl), if_pos rfl]
      unfold Exec.commitPc
      rw [setTasklet_tasklets, if_pos rfl]
      exact applyEffects_retired (sound_boots hfetch hsound) (dpu.startExec t)
  | false =>
      have hsound := sound_opcodeEffects (fields inst48 dpu t)
      rw [executeOnce_not_handled hfetch hhandled, retire_commits (.inr rfl), if_neg (by simp)]
      unfold Exec.commitPc
      rw [setTasklet_tasklets, if_pos rfl]
      exact applyEffects_retired (sound_boots hfetch hsound) (dpu.startExec t)

theorem wordEffects_handled (hhandled : handled decodeRawWord48 inst48 = true) :
    wordEffects decodeRawWord48 inst48 dpu t =
      hotEffects (decodeRawWord48 inst48) (operands (decodeRawWord48 inst48) dpu t) :=
  if_pos hhandled

end

def Effect.isWrite : Effect → Prop
  | .writeReg _ _ | .writeDreg _ _ => True
  | _ => False

@[simp] theorem isWrite_writeRc (decoded : RawDecoded48) (value : BitVec 32) :
    Meets Effect.isWrite (writeRc decoded value) := by
  unfold writeRc
  split <;> simp [Effect.isWrite]

@[simp] theorem isWrite_writeExtDreg32 (decoded : RawDecoded48) (value : BitVec 32) :
    Meets Effect.isWrite (writeExtDreg32 decoded value) := by
  unfold writeExtDreg32
  split
  · exact meets_nil
  · split <;> simp [Effect.isWrite]

@[simp] theorem isWrite_writeResult (decoded : RawDecoded48) (value : BitVec 32) :
    Meets Effect.isWrite (writeResult decoded value) := by
  unfold writeResult
  split
  · exact isWrite_writeExtDreg32 decoded value
  · split
    · exact isWrite_writeRc decoded value
    · exact meets_nil

def Tasklet.SameControl (first second : Tasklet) : Prop :=
  first.zf = second.zf ∧ first.cf = second.cf ∧ first.pc = second.pc

theorem writeReg_sameControl (tasklet : Tasklet) (idx : Nat) (value : BitVec 32) :
    (tasklet.writeReg idx value).SameControl tasklet := by
  unfold Tasklet.writeReg
  split <;> exact ⟨rfl, rfl, rfl⟩

theorem onTasklet_writes {effects : List Effect} (h : Meets Effect.isWrite effects)
    (tasklet : Tasklet) : (onTasklet tasklet effects).SameControl tasklet := by
  induction effects generalizing tasklet with
  | nil => exact ⟨rfl, rfl, rfl⟩
  | cons effect rest ih =>
      rw [meets_cons] at h
      obtain ⟨hzf, hcf, hpc⟩ := ih h.2 (effect.onTasklet tasklet)
      have hone : (effect.onTasklet tasklet).SameControl tasklet := by
        cases effect with
        | writeReg idx value => exact writeReg_sameControl tasklet idx value
        | writeDreg idx value =>
            simp only [Effect.onTasklet, Tasklet.writeDreg]
            split
            · exact ⟨rfl, rfl, rfl⟩
            · have hfirst := writeReg_sameControl tasklet (dregSlot idx * 2)
                ((value >>> 32).setWidth 32)
              have hsecond := writeReg_sameControl (tasklet.writeReg (dregSlot idx * 2)
                ((value >>> 32).setWidth 32)) (dregSlot idx * 2 + 1) (value.setWidth 32)
              exact ⟨hsecond.1.trans hfirst.1, hsecond.2.1.trans hfirst.2.1,
                hsecond.2.2.trans hfirst.2.2⟩
        | _ => exact absurd h.1 id
      exact ⟨hzf.trans hone.1, hcf.trans hone.2.1, hpc.trans hone.2.2⟩

theorem onTasklet_takeCondBranch (tasklet : Tasklet) (decoded : RawDecoded48)
    (value : BitVec 32) :
    onTasklet tasklet (takeCondBranch decoded value) =
      { tasklet with
        pc := if decoded.hasCc && decoded.hasPc &&
            evalCcKindSimple decoded.ccKind (tasklet.zf ≠ 0) (tasklet.cf ≠ 0) value then
          decoded.pc.setWidth 64 * 8 else tasklet.pc } := by
  unfold takeCondBranch
  split
  · rename_i h
    simp only [onTasklet_cons, onTasklet_nil, Effect.onTasklet, h, Bool.true_and]
    split <;> rfl
  · rename_i h
    simp [h]

/-- The words in the first slots of a DPU whose tasklet 0 runs with these registers. -/
def programDpu (words : List (BitVec 64)) (registers : List (BitVec 32)) : Dpu :=
  { Dpu.powerOn with
    iram := fun slot => words.getD slot 0
    tasklets := fun _ => { Tasklet.reset with gp := fun r => registers.getD r 0 }
    runBits := 1 }

end HostPimSim.Upmem
