import HostPimSim.Upmem.DmaWindow
import HostPimSim.Upmem.DpuInvariant

/-! The performance counter over whole runs.  Every step that retires counts, whichever
switch executed it: no tasklet ever replays. -/
namespace HostPimSim.Upmem

structure Perf where
  raw : BitVec 32
  mode : BitVec 8
  deriving DecidableEq

def Dpu.perf (dpu : Dpu) : Perf := ⟨dpu.perfCounterRaw, dpu.perfCounterMode⟩

def Perf.config (perf : Perf) (configBits : BitVec 32) : Perf :=
  let packed := configBits &&& 0x7
  let modeBits := ((packed >>> 1) &&& 0x3).setWidth 8
  let mode := if modeBits = 0 then perf.mode else modeBits
  ⟨if packed &&& 0x1 ≠ 0 then (if mode = 3 then 0 else 0xFFFFFFFF) else perf.raw, mode⟩

def Perf.retire (perf : Perf) : Perf :=
  if perf.mode = 1 ∨ perf.mode = 2 then { perf with raw := perf.raw + 1 } else perf

theorem perfCounterRetireStep_perf (dpu : Dpu) :
    (dpu.perfCounterRetireStep false).perf = dpu.perf.retire := by
  unfold Dpu.perfCounterRetireStep Perf.retire
  simp only [and_true]
  by_cases hmode : dpu.perfCounterMode = 1 ∨ dpu.perfCounterMode = 2
  · rw [if_pos hmode]
    exact (if_pos hmode).symm
  · rw [if_neg hmode]
    exact (if_neg hmode).symm

/-- With the reset bit, in the mode of cycles or of instructions, the step that configures
wraps the counter to zero. -/
theorem config_retire {perf : Perf} {configBits : BitVec 32} (hreset : configBits &&& 0x1 = 0x1)
    (hmode : (perf.config configBits).mode = 1 ∨ (perf.config configBits).mode = 2) :
    (perf.config configBits).retire = ⟨0, (perf.config configBits).mode⟩ := by
  have hbit : configBits &&& 0x7 &&& 0x1 = 0x1 := by
    rw [BitVec.and_assoc]
    exact hreset
  have hnot : (perf.config configBits).mode ≠ 3 := by
    rcases hmode with h | h
    · rw [h]
      decide
    · rw [h]
      decide
  have hraw : (perf.config configBits).raw = 0xFFFFFFFF := by
    unfold Perf.config at hnot ⊢
    dsimp only at hnot ⊢
    rw [if_pos (by rw [hbit]; decide), if_neg hnot]
  unfold Perf.retire
  rw [if_pos hmode, hraw]
  rfl

theorem iterate_retire {perf : Perf} (hraw : perf.raw = 0) (hmode : perf.mode = 1 ∨ perf.mode = 2)
    (n : Nat) : Perf.retire^[n] perf = ⟨BitVec.ofNat 32 n, perf.mode⟩ := by
  induction n with
  | zero =>
      rw [Function.iterate_zero_apply]
      exact congrArg (Perf.mk · perf.mode) hraw
  | succ n ih =>
      rw [Function.iterate_succ_apply', ih]
      unfold Perf.retire
      rw [if_pos hmode, BitVec.ofNat_add]
      rfl

def Effect.onPerf (perf : Perf) : Effect → Perf
  | .perfConfig configBits => perf.config configBits
  | _ => perf

def onPerf (perf : Perf) (effects : List Effect) : Perf := effects.foldl Effect.onPerf perf

theorem applyEffects_perf (t : Nat) (effects : List Effect) (exec : Exec) :
    (applyEffects t exec effects).dpu.perf = onPerf exec.dpu.perf effects := by
  induction effects generalizing exec with
  | nil => rfl
  | cons effect rest ih =>
      have hone : (effect.apply t exec).dpu.perf = effect.onPerf exec.dpu.perf := by
        cases effect with
        | branch ccKind target value =>
            simp only [Effect.apply]
            split <;> rfl
        | _ => rfl
      refine (ih (effect.apply t exec)).trans ?_
      rw [hone]
      rfl

def Effect.keepsPerf : Effect → Prop
  | .perfConfig _ => False
  | _ => True

theorem onPerf_kept {effects : List Effect} (h : Meets Effect.keepsPerf effects) (perf : Perf) :
    onPerf perf effects = perf := by
  induction effects with
  | nil => rfl
  | cons effect rest ih =>
      rw [meets_cons] at h
      have hone : effect.onPerf perf = perf := by
        cases effect with
        | perfConfig configBits => exact h.1.elim
        | _ => rfl
      refine Eq.trans ?_ (ih h.2)
      change onPerf (effect.onPerf perf) rest = onPerf perf rest
      rw [hone]

section
variable (decoded : RawDecoded48) (o : Operands)

@[simp] theorem keepsPerf_takeCondBranch (value : BitVec 32) :
    Meets Effect.keepsPerf (takeCondBranch decoded value) := by
  unfold takeCondBranch
  split <;> simp [Effect.keepsPerf]

theorem keepsPerf_of_isWrite {effects : List Effect} (h : Meets Effect.isWrite effects) :
    Meets Effect.keepsPerf effects := by
  intro effect hmem
  have hwrite := h effect hmem
  cases effect <;> trivial

@[simp] theorem keepsPerf_writeRc (value : BitVec 32) :
    Meets Effect.keepsPerf (writeRc decoded value) :=
  keepsPerf_of_isWrite (isWrite_writeRc decoded value)

@[simp] theorem keepsPerf_writeExtDreg32 (value : BitVec 32) :
    Meets Effect.keepsPerf (writeExtDreg32 decoded value) :=
  keepsPerf_of_isWrite (isWrite_writeExtDreg32 decoded value)

@[simp] theorem keepsPerf_writeResult (value : BitVec 32) :
    Meets Effect.keepsPerf (writeResult decoded value) :=
  keepsPerf_of_isWrite (isWrite_writeResult decoded value)

@[simp] theorem keepsPerf_resumeEffects (dpu : Dpu) (index : Nat) :
    Meets Effect.keepsPerf (resumeEffects dpu index) := by
  unfold resumeEffects
  split <;> simp [Effect.keepsPerf]

@[simp] theorem keepsPerf_bootEffects (dpu : Dpu) (index : Nat) (clears : Bool) :
    Meets Effect.keepsPerf (bootEffects dpu index clears) := by
  unfold bootEffects
  split <;> simp [Effect.keepsPerf]

theorem keepsPerf_hotEffects (hop : decoded.hotOp ≠ .timeCfg) :
    Meets Effect.keepsPerf (hotEffects decoded o) := by
  unfold hotEffects
  cases h : decoded.hotOp with
  | timeCfg => exact absurd h hop
  | lslAdd | lslAddS | lslAddU | lslSub | lslSubS | lslSubU | lsrAdd | lsrAddS | lsrAddU =>
      simp only [shiftAddEffects]
      split <;> simp [Effect.keepsPerf]
  | lsl | lslS | lslU | lslx | lslxS | lslxU | lsr | lsrS | lsrU | lsrx | lsrxS | lsrxU =>
      simp [shiftEffects, Effect.keepsPerf]
  | mulStep => simp [mulStepEffects, Effect.keepsPerf]
  | divStep => simp [divStepEffects, Effect.keepsPerf]
  | movd | swapd => simp [moveEffects, Effect.keepsPerf]
  | add => simp [addEffects, Effect.keepsPerf]
  | sub => simp [subEffects, Effect.keepsPerf]
  | subc => simp [subcEffects, Effect.keepsPerf]
  | _ => simp [Effect.keepsPerf]

theorem keepsPerf_opcodeEffects {f : Fields} (hop : f.opcode ≠ some .timeCfg) :
    Meets Effect.keepsPerf (opcodeEffects f) := by
  unfold opcodeEffects
  dsimp only
  split
  · rename_i carry halu
    cases carry <;> simp [Effect.keepsPerf]
  · split
    all_goals rename_i hcase
    all_goals first
      | exact absurd hcase hop
      | simp [Effect.keepsPerf]

end

section
variable (decodeRawWord48 : BitVec 64 → RawDecoded48)

/-- The word is TIME_CFG to the switch that executes it. -/
def isTimeCfg (inst48 : BitVec 64) : Bool :=
  if handled decodeRawWord48 inst48 then (decodeRawWord48 inst48).hotOp = .timeCfg
  else (fields inst48 .powerOn 0).opcode = some .timeCfg

/-- The value a TIME_CFG passes to `perf_counter_config`. -/
def timeConfig (inst48 : BitVec 64) (dpu : Dpu) (t : Nat) : BitVec 32 :=
  if handled decodeRawWord48 inst48 then
    let o := operands (decodeRawWord48 inst48) dpu t
    if (decodeRawWord48 inst48).timeCfgUsesRa then o.vra else o.vrb
  else (fields inst48 dpu t).opB &&& 0x7

def timeRegister (inst48 : BitVec 64) : Option Nat :=
  if handled decodeRawWord48 inst48 then
    if (decodeRawWord48 inst48).hotOp = .time ∧ (decodeRawWord48 inst48).hasRc = true then
      some ((decodeRawWord48 inst48).rc &&& 0x1F).toNat
    else none
  else if (fields inst48 .powerOn 0).opcode = some .time then
    some (fields inst48 .powerOn 0).rc
  else none

end

section
variable {decodeRawWord48 : BitVec 64 → RawDecoded48} {dpu : Dpu} {t : Nat} {inst48 : BitVec 64}

theorem onPerf_wordEffects :
    onPerf dpu.perf (wordEffects decodeRawWord48 inst48 dpu t) =
      if isTimeCfg decodeRawWord48 inst48 then
        dpu.perf.config (timeConfig decodeRawWord48 inst48 dpu t)
      else dpu.perf := by
  unfold isTimeCfg timeConfig
  cases hhandled : handled decodeRawWord48 inst48 with
  | true =>
      rw [wordEffects_handled hhandled, if_pos rfl, if_pos rfl]
      by_cases hop : (decodeRawWord48 inst48).hotOp = .timeCfg
      · rw [if_pos (decide_eq_true hop)]
        unfold hotEffects
        simp only [hop]
        exact onPerf_kept (keepsPerf_writeRc _ _) _
      · rw [if_neg (by simp [hop]), onPerf_kept (keepsPerf_hotEffects _ _ hop)]
  | false =>
      rw [wordEffects_not_handled hhandled, if_neg Bool.false_ne_true, if_neg Bool.false_ne_true]
      by_cases hop : (fields inst48 dpu t).opcode = some .timeCfg
      · have halu : aluResult (fields inst48 dpu t) = none := by
          unfold aluResult
          rw [hop]
        have hfixed : (fields inst48 .powerOn 0).opcode = some .timeCfg := hop
        rw [if_pos (decide_eq_true hfixed)]
        unfold opcodeEffects
        simp only [halu, hop]
        rfl
      · have hnot : (fields inst48 .powerOn 0).opcode ≠ some .timeCfg := hop
        rw [if_neg (by simp [hnot]), onPerf_kept (keepsPerf_opcodeEffects hop)]

theorem executeOnce_perf (hsound : dpu.Sound) (hfetch : fetch dpu t = some inst48) :
    (executeOnce decodeRawWord48 dpu t).1.perf =
      (if isTimeCfg decodeRawWord48 inst48 then
        dpu.perf.config (timeConfig decodeRawWord48 inst48 dpu t)
      else dpu.perf).retire := by
  rw [← onPerf_wordEffects]
  cases hhandled : handled decodeRawWord48 inst48 with
  | true =>
      rw [executeOnce_handled hfetch hhandled, wordEffects_handled hhandled]
      refine (perfCounterRetireStep_perf _).trans (congrArg Perf.retire ?_)
      refine Eq.trans ?_ (applyEffects_perf t _ (dpu.startExec t))
      split <;> rfl
  | false =>
      rw [executeOnce_not_handled hfetch hhandled, wordEffects_not_handled hhandled]
      have hstart : (dpu.startExec t).Sound := ⟨hsound, nextSlot_dvd (hsound.tasklets t).pc⟩
      have hexec := applyEffects_invariant _ (apply_sound t)
        (sound_opcodeEffects (fields inst48 dpu t)) hstart
      have hreplay : ((applyEffects t (dpu.startExec t)
          (opcodeEffects (fields inst48 dpu t))).commitPc t).replayBits.getLsbD t = false := by
        rw [(commitPc_sound hexec t).replayBits]
        exact BitVec.getLsbD_zero
      unfold retireOpcode
      dsimp only
      rw [hreplay]
      refine (perfCounterRetireStep_perf _).trans (congrArg Perf.retire ?_)
      exact applyEffects_perf t _ (dpu.startExec t)

/-- TIME returns the counter as it was before its own step. -/
theorem executeOnce_time {r : Nat} (hfetch : fetch dpu t = some inst48)
    (htime : timeRegister decodeRawWord48 inst48 = some r) (hr : r < 24) :
    (executeOnce decodeRawWord48 dpu t).1.readReg t r = dpu.perfCounterRead32 := by
  have htasklet := @executeOnce_onTasklet decodeRawWord48 dpu t inst48 hfetch
  have hgp : ((executeOnce decodeRawWord48 dpu t).1.tasklets t).gp r = dpu.perfCounterRead32 := by
    rw [htasklet]
    unfold timeRegister at htime
    cases hhandled : handled decodeRawWord48 inst48 with
    | true =>
        rw [hhandled, if_pos rfl] at htime
        split at htime
        · rename_i hop
          obtain rfl := Option.some.inj htime
          rw [wordEffects_handled hhandled]
          unfold hotEffects writeRc
          simp only [hop.1, hop.2, if_true, onTasklet_cons, onTasklet_nil, Effect.onTasklet]
          rw [writeReg_gp, if_pos ⟨rfl, hr⟩]
          rfl
        · cases htime
    | false =>
        rw [hhandled, if_neg Bool.false_ne_true] at htime
        split at htime
        · rename_i hop
          obtain rfl := Option.some.inj htime
          have hopcode : (fields inst48 dpu t).opcode = some .time := hop
          have halu : aluResult (fields inst48 dpu t) = none := by
            unfold aluResult
            rw [hopcode]
          rw [wordEffects_not_handled hhandled]
          unfold opcodeEffects
          simp only [halu, hopcode, onTasklet_cons, onTasklet_nil, Effect.onTasklet,
            Tasklet.setZf]
          rw [writeReg_gp]
          exact if_pos ⟨rfl, hr⟩
        · cases htime
  rw [readReg_scalar _ t hr, hgp]

end

section
variable (decodeRawWord48 : BitVec 64 → RawDecoded48)

def turnWords : List Nat → Dpu → List (BitVec 64)
  | [], _ => []
  | t :: rest, dpu =>
      (fetch dpu t).toList ++ turnWords rest (taskletTurn decodeRawWord48 dpu t)

def roundWords : Nat → Dpu → List (BitVec 64)
  | 0, _ => []
  | budget + 1, dpu =>
      if dpu.runBits = 0 then []
      else turnWords decodeRawWord48 (List.range kNumTasklets) dpu ++
        roundWords budget (round decodeRawWord48 dpu)

def eventWords (dpu : Dpu) : DpuEvent → List (BitVec 64)
  | .allocate | .transfer _ _ _ => []
  | .control ciCmd =>
      if isRunStateReadCommand ciCmd && dpu.mram.bound then
        roundWords decodeRawWord48 kProgressBudget dpu
      else []
  | .turn t => if dpu.mram.bound then (fetch dpu t).toList else []

/-- All words that retire while the events happen, in order. -/
def retiredWords : List DpuEvent → Dpu → List (BitVec 64)
  | [], _ => []
  | event :: rest, dpu =>
      eventWords decodeRawWord48 dpu event ++
        retiredWords rest (dpu.happens decodeRawWord48 event)

def NoTimeCfg (words : List (BitVec 64)) : Prop :=
  ∀ inst48 ∈ words, isTimeCfg decodeRawWord48 inst48 = false

variable {decodeRawWord48}

theorem NoTimeCfg.append {first second : List (BitVec 64)}
    (h : NoTimeCfg decodeRawWord48 (first ++ second)) :
    NoTimeCfg decodeRawWord48 first ∧ NoTimeCfg decodeRawWord48 second :=
  List.forall_mem_append.mp h

theorem fetch_none_of_not_runnable {dpu : Dpu} {t : Nat} (h : dpu.runnable t = false) :
    fetch dpu t = none := by
  unfold fetch
  split
  · rfl
  · rw [if_pos (by simp [h])]

theorem taskletTurn_perf (dpu : Dpu) (t : Nat) :
    (taskletTurn decodeRawWord48 dpu t).perf = (executeOnce decodeRawWord48 dpu t).1.perf := by
  unfold taskletTurn
  split
  · rename_i hrunnable
    rw [executeOnce_none (fetch_none_of_not_runnable (by simpa using hrunnable))]
  · dsimp only
    split <;> rfl

theorem taskletTurn_counts {dpu : Dpu} (hsound : dpu.Sound) (t : Nat)
    (hno : NoTimeCfg decodeRawWord48 (fetch dpu t).toList) :
    (taskletTurn decodeRawWord48 dpu t).perf =
      Perf.retire^[(fetch dpu t).toList.length] dpu.perf := by
  rw [taskletTurn_perf]
  cases hfetch : fetch dpu t with
  | none =>
      rw [executeOnce_none hfetch]
      rfl
  | some inst48 =>
      rw [hfetch] at hno
      have hplain := hno inst48 (by simp)
      rw [executeOnce_perf hsound hfetch, hplain, if_neg Bool.false_ne_true]
      rfl

theorem turns_counts (schedule : List Nat) {dpu : Dpu} (hsound : dpu.Sound)
    (hno : NoTimeCfg decodeRawWord48 (turnWords decodeRawWord48 schedule dpu)) :
    (schedule.foldl (taskletTurn decodeRawWord48) dpu).perf =
      Perf.retire^[(turnWords decodeRawWord48 schedule dpu).length] dpu.perf := by
  induction schedule generalizing dpu with
  | nil => rfl
  | cons t rest ih =>
      unfold turnWords at hno ⊢
      obtain ⟨hfirst, hrest⟩ := hno.append
      rw [List.foldl_cons, ih (taskletTurn_sound decodeRawWord48 hsound t) hrest,
        taskletTurn_counts hsound t hfirst, ← Function.iterate_add_apply, List.length_append,
        Nat.add_comm]

theorem rounds_counts (budget : Nat) {dpu : Dpu} (hsound : dpu.Sound)
    (hno : NoTimeCfg decodeRawWord48 (roundWords decodeRawWord48 budget dpu)) :
    (rounds decodeRawWord48 budget dpu).perf =
      Perf.retire^[(roundWords decodeRawWord48 budget dpu).length] dpu.perf := by
  induction budget generalizing dpu with
  | zero => rfl
  | succ budget ih =>
      unfold rounds
      unfold roundWords at hno ⊢
      split
      · rfl
      · rename_i hrun
        rw [if_neg hrun] at hno
        obtain ⟨hfirst, hrest⟩ := hno.append
        have hround := turns_counts (List.range kNumTasklets) hsound hfirst
        have hnext : (round decodeRawWord48 dpu).Sound := turns_sound decodeRawWord48 _ hsound
        rw [ih hnext hrest, List.length_append, Nat.add_comm,
          Function.iterate_add_apply]
        exact congrArg _ hround

theorem happens_sound {dpu : Dpu} (h : dpu.Sound) (event : DpuEvent) :
    (dpu.happens decodeRawWord48 event).Sound := by
  cases event with
  | allocate => exact ⟨h.runBits, h.sleepBits, h.replayBits, h.tasklets⟩
  | transfer iram wram bytes => exact ⟨h.runBits, h.sleepBits, h.replayBits, h.tasklets⟩
  | control ciCmd => exact control_sound decodeRawWord48 h ciCmd
  | turn t =>
      unfold Dpu.happens
      dsimp only
      split
      · exact taskletTurn_sound decodeRawWord48 h t
      · exact h

theorem events_sound (events : List DpuEvent) {dpu : Dpu} (h : dpu.Sound) :
    (events.foldl (Dpu.happens decodeRawWord48) dpu).Sound := by
  induction events generalizing dpu with
  | nil => exact h
  | cons event rest ih => exact ih (happens_sound h event)

theorem happens_counts {dpu : Dpu} (hsound : dpu.Sound) (event : DpuEvent)
    (hno : NoTimeCfg decodeRawWord48 (eventWords decodeRawWord48 dpu event)) :
    (dpu.happens decodeRawWord48 event).perf =
      Perf.retire^[(eventWords decodeRawWord48 dpu event).length] dpu.perf := by
  cases event with
  | allocate => rfl
  | transfer iram wram bytes => rfl
  | control ciCmd =>
      unfold Dpu.happens control
      unfold eventWords at hno ⊢
      dsimp only at hno ⊢
      cases hread : isRunStateReadCommand ciCmd with
      | false =>
          simp only [Bool.false_and, Bool.false_eq_true, if_false]
          split
          · rfl
          · rename_i kind threadId _
            cases kind <;> rfl
      | true =>
          cases hbound : dpu.mram.bound with
          | false => rfl
          | true =>
              rw [hread, hbound] at hno
              exact rounds_counts kProgressBudget hsound hno
  | turn t =>
      unfold Dpu.happens
      unfold eventWords at hno ⊢
      dsimp only at hno ⊢
      split
      · rename_i hbound
        rw [if_pos hbound] at hno
        exact taskletTurn_counts hsound t hno
      · rfl

theorem events_counts (events : List DpuEvent) {dpu : Dpu} (hsound : dpu.Sound)
    (hno : NoTimeCfg decodeRawWord48 (retiredWords decodeRawWord48 events dpu)) :
    (events.foldl (Dpu.happens decodeRawWord48) dpu).perf =
      Perf.retire^[(retiredWords decodeRawWord48 events dpu).length] dpu.perf := by
  induction events generalizing dpu with
  | nil => rfl
  | cons event rest ih =>
      unfold retiredWords at hno ⊢
      obtain ⟨hfirst, hrest⟩ := hno.append
      rw [List.foldl_cons, ih (happens_sound hsound event) hrest,
        happens_counts hsound event hfirst, ← Function.iterate_add_apply, List.length_append,
        Nat.add_comm]

end

theorem iterate_retire_stopped {perf : Perf} (hmode : ¬(perf.mode = 1 ∨ perf.mode = 2)) (n : Nat) :
    Perf.retire^[n] perf = perf := by
  apply Function.iterate_fixed
  unfold Perf.retire
  exact if_neg hmode

theorem config_masked (perf : Perf) (configBits : BitVec 32) :
    perf.config (configBits &&& 0x7) = perf.config configBits := by
  unfold Perf.config
  rw [BitVec.and_assoc, BitVec.and_self]

theorem config_one (perf : Perf) :
    perf.config 1 = ⟨if perf.mode = 3 then 0 else 0xFFFFFFFF, perf.mode⟩ := rfl

open DecodeTable (rawDecoded)

/-- The value that a TIME_CFG names to configure the counter by. -/
def timeOperand (inst48 : BitVec 64) (dpu : Dpu) (t : Nat) : BitVec 32 :=
  if handled rawDecoded inst48 then (operands (rawDecoded inst48) dpu t).vrb
  else (fields inst48 dpu t).opB

/-- The TIME_CFG is one without a destination, which passes its other source. -/
def passesRa (inst48 : BitVec 64) : Bool :=
  handled rawDecoded inst48 && (rawDecoded inst48).timeCfgUsesRa

theorem config_timeOperand {inst48 : BitVec 64} (h : passesRa inst48 = false) (dpu : Dpu) (t : Nat) :
    dpu.perf.config (timeConfig rawDecoded inst48 dpu t) =
      dpu.perf.config (timeOperand inst48 dpu t) := by
  unfold passesRa at h
  unfold timeConfig timeOperand
  cases hhandled : handled rawDecoded inst48 with
  | true =>
      rw [hhandled, Bool.true_and] at h
      rw [h]
      rfl
  | false => exact config_masked _ _

theorem timeConfig_passesRa {inst48 : BitVec 64} (h : passesRa inst48 = true)
    (htimeCfg : isTimeCfg rawDecoded inst48 = true) (dpu : Dpu) (t : Nat) :
    timeConfig rawDecoded inst48 dpu t = 1 := by
  obtain ⟨hhandled, husesRa⟩ := Bool.and_eq_true_iff.mp h
  unfold isTimeCfg at htimeCfg
  rw [if_pos hhandled] at htimeCfg
  obtain ⟨hhas, hra⟩ := DecodeTable.rawDecoded_timeCfg inst48 (of_decide_eq_true htimeCfg)
  unfold timeConfig operands
  rw [if_pos hhandled, if_pos husesRa, hhas, hra]
  rfl

section
variable {before after : List DpuEvent} {dpu configured last : Dpu} {t t' r : Nat}
  {cfgInst timeInst : BitVec 64}

theorem configured_perf (hdpu : dpu = before.foldl (Dpu.happens rawDecoded) .powerOn)
    (hbound : dpu.mram.bound = true) (hcfg : fetch dpu t = some cfgInst)
    (htimeCfg : isTimeCfg rawDecoded cfgInst = true)
    (hconfigured : configured = dpu.happens rawDecoded (.turn t)) :
    configured.Sound ∧ configured.perf =
      (dpu.perf.config (timeConfig rawDecoded cfgInst dpu t)).retire := by
  have hsound : dpu.Sound := by
    rw [hdpu]
    exact events_sound before powerOn_sound
  constructor
  · rw [hconfigured]
    exact happens_sound hsound (.turn t)
  · rw [hconfigured]
    unfold Dpu.happens
    dsimp only
    rw [if_pos hbound, taskletTurn_perf, executeOnce_perf hsound hcfg, if_pos htimeCfg]

theorem time_reads (hsound : configured.Sound)
    (hno : NoTimeCfg rawDecoded (retiredWords rawDecoded after configured))
    (hlast : last = after.foldl (Dpu.happens rawDecoded) configured)
    (hfetch : fetch last t' = some timeInst)
    (htime : timeRegister rawDecoded timeInst = some r) (hr : r < 24) :
    (executeOnce rawDecoded last t').1.readReg t' r =
      (Perf.retire^[(retiredWords rawDecoded after configured).length] configured.perf).raw >>>
        4 := by
  rw [executeOnce_time hfetch htime hr, hlast, ← events_counts after hsound hno]
  rfl

end

/-- After a TIME_CFG that names the reset bit and the mode of cycles or of instructions, TIME
returns the number of the steps that have retired since, by whichever tasklets and commands,
unless the TIME_CFG has no destination and the counter was not counting before it. -/
theorem time_counts_retired (before after : List DpuEvent) (dpu configured last : Dpu)
    (t t' r : Nat) (cfgInst timeInst : BitVec 64)
    (hdpu : dpu = before.foldl (Dpu.happens rawDecoded) .powerOn)
    (hbound : dpu.mram.bound = true) (hcfg : fetch dpu t = some cfgInst)
    (htimeCfg : isTimeCfg rawDecoded cfgInst = true)
    (hreset : timeOperand cfgInst dpu t &&& 0x1 = 0x1)
    (hmode : (dpu.perf.config (timeOperand cfgInst dpu t)).mode = 1 ∨
      (dpu.perf.config (timeOperand cfgInst dpu t)).mode = 2)
    (hconfigured : configured = dpu.happens rawDecoded (.turn t))
    (hno : NoTimeCfg rawDecoded (retiredWords rawDecoded after configured))
    (hlast : last = after.foldl (Dpu.happens rawDecoded) configured)
    (hfetch : fetch last t' = some timeInst)
    (htime : timeRegister rawDecoded timeInst = some r) (hr : r < 24) :
    let n := (retiredWords rawDecoded after configured).length
    let mode := dpu.perfCounterMode
    (executeOnce rawDecoded last t').1.readReg t' r = BitVec.ofNat 32 (n % 2 ^ 32 / 2 ^ 4) ↔
      passesRa cfgInst = false ∨ (mode = 1 ∨ mode = 2) ∨
        -- nothing is counted, and the number happens to be what is read
        if mode = 3 then n % 2 ^ 32 < 2 ^ 4 else 2 ^ 32 - 2 ^ 4 ≤ n % 2 ^ 32 := by
  intro n mode
  obtain ⟨hsound, hperf⟩ := configured_perf hdpu hbound hcfg htimeCfg hconfigured
  have hread := time_reads hsound hno hlast hfetch htime hr
  have hcounted (configBits : BitVec 32) (hbit : configBits &&& 0x1 = 0x1)
      (hcounts : (dpu.perf.config configBits).mode = 1 ∨ (dpu.perf.config configBits).mode = 2)
      (hconfig : configured.perf = (dpu.perf.config configBits).retire) :
      (executeOnce rawDecoded last t').1.readReg t' r =
        BitVec.ofNat 32 (n % 2 ^ 32 / 2 ^ 4) := by
    have hcount := @iterate_retire ⟨0, (dpu.perf.config configBits).mode⟩ rfl hcounts n
    rw [hread, hconfig, config_retire hbit hcounts, hcount]
    apply BitVec.eq_of_toNat_eq
    rw [BitVec.toNat_ushiftRight, BitVec.toNat_ofNat, BitVec.toNat_ofNat,
      Nat.shiftRight_eq_div_pow]
    omega
  cases hpasses : passesRa cfgInst with
  | false =>
      rw [config_timeOperand hpasses] at hperf
      exact iff_of_true (hcounted _ hreset hmode hperf) (.inl rfl)
  | true =>
      rw [timeConfig_passesRa hpasses htimeCfg] at hperf
      by_cases hcounts : mode = 1 ∨ mode = 2
      · exact iff_of_true (hcounted 1 rfl hcounts hperf) (.inr (.inl hcounts))
      · have hstopped : ¬((dpu.perf.config 1).mode = 1 ∨ (dpu.perf.config 1).mode = 2) := hcounts
        rw [hread, hperf, ← Function.iterate_succ_apply, iterate_retire_stopped hstopped,
          config_one, ← BitVec.toNat_inj, BitVec.toNat_ushiftRight, BitVec.toNat_ofNat,
          Nat.shiftRight_eq_div_pow]
        simp only [Bool.true_eq_false, hcounts, false_or]
        change (if mode = 3 then (0 : BitVec 32) else 0xFFFFFFFF).toNat / 2 ^ 4 = _ ↔ _
        split
        · rw [show (0 : BitVec 32).toNat = 0 from rfl]
          omega
        · rw [show (0xFFFFFFFF : BitVec 32).toNat = 2 ^ 32 - 1 from rfl]
          omega

/-- Slot 0 adds 3 into r0, slot 1 configures by r0, slot 18 reads into r2; the other slots
add. -/
def timedIram (slot : Nat) : BitVec 64 :=
  if slot = 1 then 0x0CE420800000
  else if slot = 18 then 0x0D6020800000
  else 0x006300300000

theorem time_counts_sixteen :
    let decode := rawDecoded
    let before := [.allocate, .transfer timedIram (fun _ => 0) (fun _ => 0),
      .control (threadCmdCache (.boot, 0)), .turn 0]
    let dpu := before.foldl (Dpu.happens decode) .powerOn
    let configured := dpu.happens decode (.turn 0)
    let last := (List.replicate 16 (DpuEvent.turn 0)).foldl (Dpu.happens decode) configured
    (executeOnce decode last 0).1.readReg 0 2 =
      BitVec.ofNat 32
        ((retiredWords decode (List.replicate 16 (.turn 0)) configured).length % 2 ^ 32 / 2 ^ 4) := by
  intro decode before dpu configured last
  have hwords : retiredWords decode (List.replicate 16 (.turn 0)) configured =
      List.replicate 16 0x006300300000 := by
    decide +kernel
  have hplain : isTimeCfg decode 0x006300300000 = false := by decide +kernel
  have hno : NoTimeCfg decode (retiredWords decode (List.replicate 16 (.turn 0)) configured) := by
    rw [hwords]
    intro inst48 hmem
    rw [List.eq_of_mem_replicate hmem]
    exact hplain
  exact (time_counts_retired before (List.replicate 16 (.turn 0)) dpu configured last 0 0 2
    0x0CE420800000 0x0D6020800000 rfl (by decide +kernel) (by decide +kernel)
    (by decide +kernel) (by decide +kernel) (by decide +kernel) rfl hno rfl
    (by decide +kernel) (by decide +kernel) (by decide)).mpr (.inl (by decide +kernel))

/-- As before, but that slot 1 configures without a destination, and slot 2 reads. -/
def untimedIram (slot : Nat) : BitVec 64 :=
  if slot = 1 then 0x3CE420800000
  else if slot = 2 then 0x0D6020800000
  else 0x006300300000

/-- The counter is reset and not started, so that TIME reads all ones right after it. -/
theorem time_counts_nothing :
    let before := [.allocate, .transfer untimedIram (fun _ => 0) (fun _ => 0),
      .control (threadCmdCache (.boot, 0)), .turn 0]
    let dpu := before.foldl (Dpu.happens rawDecoded) .powerOn
    let configured := dpu.happens rawDecoded (.turn 0)
    dpu.mram.bound = true ∧ fetch dpu 0 = some 0x3CE420800000 ∧
      isTimeCfg rawDecoded 0x3CE420800000 = true ∧ timeOperand 0x3CE420800000 dpu 0 = 3 ∧
      (dpu.perf.config 3).mode = 1 ∧ fetch configured 0 = some 0x0D6020800000 ∧
      timeRegister rawDecoded 0x0D6020800000 = some 2 ∧
      (executeOnce rawDecoded configured 0).1.readReg 0 2 = 0xFFFFFFF ∧
      (executeOnce rawDecoded configured 0).1.readReg 0 2 ≠
        BitVec.ofNat 32 (0 % 2 ^ 32 / 2 ^ 4) := by
  decide +kernel

end HostPimSim.Upmem
