import HostPimSim.Upmem.TaskletStep

/-! What an instruction leaves in the memories of a DPU: its effects, applied to
them alone.  No instruction writes IRAM. -/
namespace HostPimSim.Upmem

structure Memories where
  iram : Iram
  wram : Wram
  mram : Mram

def Dpu.memories (dpu : Dpu) : Memories := ⟨dpu.iram, dpu.wram, dpu.mram⟩

def Effect.onMemories (memories : Memories) : Effect → Memories
  | .loadDma bytes wramOffset mramOffset =>
      { memories with
        wram := dmaToWramFromMram memories.wram memories.mram bytes wramOffset mramOffset }
  | .storeDma bytes mramOffset wramOffset =>
      { memories with
        mram := dmaToMramFromWram memories.mram memories.wram bytes mramOffset wramOffset }
  | .storeWram wram => { memories with wram := wram }
  | _ => memories

def onMemories (memories : Memories) (effects : List Effect) : Memories :=
  effects.foldl Effect.onMemories memories

@[simp] theorem onMemories_cons (memories : Memories) (effect : Effect)
    (effects : List Effect) :
    onMemories memories (effect :: effects) =
      onMemories (effect.onMemories memories) effects := rfl

theorem apply_memories (t : Nat) (exec : Exec) (effect : Effect) :
    (effect.apply t exec).dpu.memories = effect.onMemories exec.dpu.memories := by
  cases effect with
  | branch ccKind target value =>
      simp only [Effect.apply]
      split <;> rfl
  | _ => rfl

theorem applyEffects_memories (t : Nat) (effects : List Effect) (exec : Exec) :
    (applyEffects t exec effects).dpu.memories = onMemories exec.dpu.memories effects := by
  induction effects generalizing exec with
  | nil => rfl
  | cons effect rest ih =>
      rw [onMemories_cons, ← apply_memories t exec effect]
      exact ih (effect.apply t exec)

theorem perfCounterRetireStep_memories (dpu : Dpu) (isReplay : Bool) :
    (dpu.perfCounterRetireStep isReplay).memories = dpu.memories := by
  unfold Dpu.perfCounterRetireStep
  split <;> rfl

theorem retire_memories {retire : Exec → Nat → Dpu × Bool}
    (hretire : retire = retireHot ∨ retire = retireOpcode) (exec : Exec) (t : Nat) :
    (retire exec t).1.memories = exec.dpu.memories := by
  rcases hretire with rfl | rfl
  · simp only [retireHot, perfCounterRetireStep_memories]
    split <;> rfl
  · simp only [retireOpcode, perfCounterRetireStep_memories]
    rfl

section
variable {decodeRawWord48 : BitVec 64 → RawDecoded48} {dpu : Dpu} {t : Nat} {inst48 : BitVec 64}

theorem executeOnce_memories (hfetch : fetch dpu t = some inst48) :
    (executeOnce decodeRawWord48 dpu t).1.memories =
      onMemories dpu.memories (wordEffects decodeRawWord48 inst48 dpu t) := by
  unfold wordEffects
  cases hhandled : handled decodeRawWord48 inst48 with
  | true =>
      rw [executeOnce_handled hfetch hhandled, retire_memories (.inl rfl), applyEffects_memories,
        if_pos rfl]
      rfl
  | false =>
      rw [executeOnce_not_handled hfetch hhandled, retire_memories (.inr rfl),
        applyEffects_memories, if_neg (by simp)]
      rfl

theorem wordEffects_not_handled (hhandled : handled decodeRawWord48 inst48 = false) :
    wordEffects decodeRawWord48 inst48 dpu t = opcodeEffects (fields inst48 dpu t) :=
  if_neg (by simp [hhandled])

end

def Effect.isMemory : Effect → Prop
  | .loadDma _ _ _ | .storeDma _ _ _ | .storeWram _ => True
  | _ => False

/-- Beside the memories only the program counter of the tasklet, the performance
counter and the bit of a replay may differ. -/
structure Dpu.Advanced (before after : Dpu) (t : Nat) : Prop where
  iram : after.iram = before.iram
  tasklets : ∀ u, after.tasklets u =
    if u = t then (before.tasklets t).advanced else before.tasklets u
  dmaMuxStatus : after.dmaMuxStatus = before.dmaMuxStatus
  dmaCtrlReg : after.dmaCtrlReg = before.dmaCtrlReg
  perfCounterMode : after.perfCounterMode = before.perfCounterMode
  runBits : after.runBits = before.runBits
  sleepBits : after.sleepBits = before.sleepBits
  atomicBits : after.atomicBits = before.atomicBits
  lastControlResult : after.lastControlResult = before.lastControlResult
  lastControlGeneration : after.lastControlGeneration = before.lastControlGeneration

theorem Dpu.Advanced.readReg {before after : Dpu} {t : Nat} (h : before.Advanced after t)
    (u r : Nat) : after.readReg u r = before.readReg u r := by
  apply readReg_congr
  intro _
  rw [h.tasklets]
  split
  · rename_i htasklet
    rw [htasklet]
    rfl
  · rfl

theorem perfCounterRetireStep_advanced {before after : Dpu} {t : Nat}
    (h : before.Advanced after t) (isReplay : Bool) :
    before.Advanced (after.perfCounterRetireStep isReplay) t := by
  unfold Dpu.perfCounterRetireStep
  split
  · exact ⟨h.iram, h.tasklets, h.dmaMuxStatus, h.dmaCtrlReg, h.perfCounterMode, h.runBits,
      h.sleepBits, h.atomicBits, h.lastControlResult, h.lastControlGeneration⟩
  · exact h

theorem applyEffects_memory {t : Nat} {effects : List Effect} (h : Meets Effect.isMemory effects)
    (exec : Exec) :
    ∃ wram mram, applyEffects t exec effects =
      { exec with dpu := { exec.dpu with wram := wram, mram := mram } } := by
  refine applyEffects_invariant (fun next => ∃ wram mram, next =
    { exec with dpu := { exec.dpu with wram := wram, mram := mram } }) ?_ h ⟨_, _, rfl⟩
  rintro next effect ⟨wram, mram, rfl⟩ heffect
  cases effect with
  | loadDma | storeDma | storeWram => exact ⟨_, _, rfl⟩
  | _ => exact absurd heffect id

section
variable {decodeRawWord48 : BitVec 64 → RawDecoded48} {dpu : Dpu} {t : Nat} {inst48 : BitVec 64}

theorem executeOnce_advanced (hfetch : fetch dpu t = some inst48)
    (heffects : Meets Effect.isMemory (wordEffects decodeRawWord48 inst48 dpu t)) :
    dpu.Advanced (executeOnce decodeRawWord48 dpu t).1 t := by
  cases hhandled : handled decodeRawWord48 inst48 with
  | true =>
      rw [wordEffects_handled hhandled] at heffects
      obtain ⟨wram, mram, hexec⟩ := applyEffects_memory heffects (dpu.startExec t)
      rw [executeOnce_handled hfetch hhandled, hexec]
      refine perfCounterRetireStep_advanced ?_ false
      exact ⟨rfl, fun _ => rfl, rfl, rfl, rfl, rfl, rfl, rfl, rfl, rfl⟩
  | false =>
      rw [wordEffects_not_handled hhandled] at heffects
      obtain ⟨wram, mram, hexec⟩ := applyEffects_memory heffects (dpu.startExec t)
      rw [executeOnce_not_handled hfetch hhandled, hexec]
      refine perfCounterRetireStep_advanced ?_ _
      exact ⟨rfl, fun _ => rfl, rfl, rfl, rfl, rfl, rfl, rfl, rfl, rfl⟩

end

end HostPimSim.Upmem
