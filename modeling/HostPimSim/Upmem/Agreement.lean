import HostPimSim.Upmem.Commit

/-! Commit reads a word on its own to tell which DPUs the reply waits for;
`propagateCi` reads it after the structure that is latched.  Here is when the
two readings agree. -/
namespace HostPimSim.Upmem

theorem isRunStateReadCommand_bytes {word : BitVec 64}
    (h : isRunStateReadCommand word = true) :
    byte word 56 = 0x33 ∧ byte word 48 = 0x00 ∧ byte word 0 = 0x84 ∧ byte word 8 = 0x02 := by
  unfold isRunStateReadCommand at h
  simp only [Bool.and_eq_true, beq_iff_eq] at h
  obtain ⟨⟨⟨hop, htag⟩, hb0⟩, hb1⟩ := h
  exact ⟨hop, htag, hb0, hb1⟩

theorem isThreadCommandFrame_bytes {chip : Chip} {word : BitVec 64}
    (h : isThreadCommandFrame chip word = true) :
    isRunStateReadCommand word = false ∧ byte word 56 = 0x33 ∧ byte word 48 = 0x98 ∧
      isThreadCommandWord word chip.state.selectedMask = true := by
  unfold isThreadCommandFrame at h
  simp only [Bool.and_eq_true, beq_iff_eq, Bool.not_eq_true'] at h
  obtain ⟨⟨⟨hrun, hop⟩, htag⟩, hword⟩ := h
  exact ⟨hrun, hop, htag, hword⟩

section
variable (decodeRawWord48 : BitVec 64 → RawDecoded48) (invokes : Nat → Bool)

def Chip.taking (chip : Chip) (word : BitVec 64) : Chip :=
  ((chip.setCommitted word).dropPending word).setCommitted word

theorem taking_frame (chip : Chip) (word : BitVec 64) :
    (chip.taking word).state.selectedMask = chip.state.selectedMask ∧
      (chip.taking word).state.latched = chip.state.latched ∧
      (chip.taking word).dpus = chip.dpus ∧
      (chip.taking word).submitted = chip.submitted ∧
      (chip.taking word).populated = chip.populated := by
  unfold Chip.taking Chip.dropPending
  split <;> exact ⟨rfl, rfl, rfl, rfl, rfl⟩

@[simp] theorem taking_selectedMask (chip : Chip) (word : BitVec 64) :
    (chip.taking word).state.selectedMask = chip.state.selectedMask :=
  (taking_frame chip word).1

@[simp] theorem taking_latched (chip : Chip) (word : BitVec 64) :
    (chip.taking word).state.latched = chip.state.latched :=
  (taking_frame chip word).2.1

@[simp] theorem taking_dpus (chip : Chip) (word : BitVec 64) :
    (chip.taking word).dpus = chip.dpus :=
  (taking_frame chip word).2.2.1

@[simp] theorem taking_submitted (chip : Chip) (word : BitVec 64) :
    (chip.taking word).submitted = chip.submitted :=
  (taking_frame chip word).2.2.2.1

@[simp] theorem taking_populated (chip : Chip) (word : BitVec 64) :
    (chip.taking word).populated = chip.populated :=
  (taking_frame chip word).2.2.2.2

@[simp] theorem taking_controlExecutionMask (chip : Chip) (word : BitVec 64) :
    controlExecutionMask (chip.taking word) = controlExecutionMask chip := by
  unfold controlExecutionMask getBoundMask
  rw [taking_selectedMask, taking_dpus]

@[simp] theorem taking_reachedMask (chip : Chip) (word : BitVec 64) (mask : BitVec 8)
    (skipUnbound : Bool) :
    reachedMask (chip.taking word) mask skipUnbound = reachedMask chip mask skipUnbound := by
  simp [reachedMask]

theorem propagateCi_frame {chip : Chip} {word : BitVec 64} (hpopulated : chip.populated = true)
    (hop : byte word 56 = 0x33) :
    propagateCi decodeRawWord48 invokes ((chip.setCommitted word).dropPending word) word =
      propagateFrame decodeRawWord48 invokes (chip.taking word) word :=
  propagateCi_payload decodeRawWord48 invokes ((taking_populated chip word).trans hpopulated) hop

theorem propagateFrame_latched {chip : Chip} (hlatched : chip.state.latched = true)
    (word : BitVec 64) :
    (propagateFrame decodeRawWord48 invokes chip word).submitted = chip.submitted ∧
      ∀ i, ((propagateFrame decodeRawWord48 invokes chip word).dpus i).lastControlGeneration =
        (chip.dpus i).lastControlGeneration := by
  unfold propagateFrame
  dsimp only
  split
  · refine ⟨rfl, fun i => ?_⟩
    simp only [writeIramPayload, Chip.publish, Chip.mapDpus]
    split <;> rfl
  · rename_i hiram
    have hwram : chip.state.wramWriteStructureValid = true := by
      simpa [CIState.latched, hiram] using hlatched
    rw [if_pos hwram]
    refine ⟨rfl, fun i => ?_⟩
    simp only [writeWramPayload, Chip.publish, Chip.mapDpus]
    split <;> rfl

theorem unlatched_parts {state : CIState} (hlatched : state.latched = false) :
    state.iramWriteStructureValid = false ∧ state.wramWriteStructureValid = false := by
  unfold CIState.latched at hlatched
  exact Bool.or_eq_false_iff.mp hlatched

theorem propagateFrame_runState {chip : Chip} {word : BitVec 64}
    (hlatched : chip.state.latched = false) (hrun : isRunStateReadCommand word = true) :
    propagateFrame decodeRawWord48 invokes chip word =
      invokeSelectedHandlers decodeRawWord48 invokes chip word (controlExecutionMask chip)
        false false := by
  obtain ⟨hiram, hwram⟩ := unlatched_parts hlatched
  obtain ⟨-, htag, hb0, hb1⟩ := isRunStateReadCommand_bytes hrun
  have hselect : selectFrame chip word = none := by
    simp [selectFrame, hb0]
  have hquery : queryFrame decodeRawWord48 invokes chip word =
      invokeSelectedHandlers decodeRawWord48 invokes chip word (controlExecutionMask chip)
        false false := by
    simp [queryFrame, hb0]
  unfold propagateFrame
  simp [hiram, hwram, htag, hselect, hb1, hquery]

theorem propagateFrame_thread {chip : Chip} {word : BitVec 64}
    (hlatched : chip.state.latched = false) (htag : byte word 48 = 0x98)
    (hword : isThreadCommandWord word chip.state.selectedMask = true) :
    propagateFrame decodeRawWord48 invokes chip word =
      invokeSelectedHandlers decodeRawWord48 invokes chip word (controlExecutionMask chip)
        true true := by
  obtain ⟨hiram, hwram⟩ := unlatched_parts hlatched
  unfold propagateFrame
  simp [hiram, hwram, htag, commandFrame, hword]

theorem next_generation_ne (generation : BitVec 64) : generation + 1 ≠ generation := by
  intro h
  simp at h

theorem regionBarrier_of_none {chip : Chip} (hnone : chip.submitted = []) :
    (regionBarrier decodeRawWord48 chip).dpus = chip.dpus := by
  unfold regionBarrier
  rw [hnone]
  rfl

theorem reachedMask_all (chip : Chip) (mask : BitVec 8) : reachedMask chip mask false = mask := by
  refine mask_ext fun i hi => ?_
  rw [reachedMask, maskWhere_getLsbD _ hi]
  simp

/-- The pool runs `control` on the DPUs whose handler it took; the others that were
reached have their last result cleared. -/
theorem invoke_pooled_dpus {chip : Chip} (hnone : chip.submitted = [])
    (word : BitVec 64) (mask : BitVec 8) (i : Nat) :
    (regionBarrier decodeRawWord48
        (invokeSelectedHandlers decodeRawWord48 invokes chip word mask false false)).dpus i =
      if mask.getLsbD i && invokes i then
        control decodeRawWord48 (chip.dpus i).clearLastControlResult word
      else if mask.getLsbD i then (chip.dpus i).clearLastControlResult
      else chip.dpus i := by
  have hinvoked : (maskWhere fun j => (reachedMask chip mask false).getLsbD j && invokes j).getLsbD i
      = (mask.getLsbD i && invokes i) := by
    by_cases hi : i < 8
    · rw [maskWhere_getLsbD _ hi, reachedMask, maskWhere_getLsbD _ hi]
      simp
    · rw [BitVec.getLsbD_of_ge _ _ (by omega), BitVec.getLsbD_of_ge _ _ (by omega)]
      rfl
  have hcleared : (invokeSelectedHandlers decodeRawWord48 invokes chip word mask false
      false).dpus i = if mask.getLsbD i then (chip.dpus i).clearLastControlResult
        else chip.dpus i := by
    simp only [invokeSelectedHandlers, Bool.false_eq_true, if_false, Chip.publish, Chip.mapDpus,
      reachedMask_all]
  rw [regionBarrier_dpus decodeRawWord48 _
    (maskWhere fun j => (reachedMask chip mask false).getLsbD j && invokes j) word
    (by simp [invokeSelectedHandlers, Chip.publish, hnone]) i, hinvoked, hcleared]
  split
  · rename_i htaken
    rw [if_pos (Bool.and_eq_true_iff.mp htaken).1]
  · rfl

theorem invoke_pooled_generation {chip : Chip} (hnone : chip.submitted = [])
    (word : BitVec 64) (mask : BitVec 8) (i : Nat) :
    ((regionBarrier decodeRawWord48
        (invokeSelectedHandlers decodeRawWord48 invokes chip word mask false false)).dpus
          i).lastControlGeneration =
      if mask.getLsbD i && invokes i then (chip.dpus i).lastControlGeneration + 1
      else (chip.dpus i).lastControlGeneration := by
  rw [invoke_pooled_dpus decodeRawWord48 invokes hnone]
  split
  · rw [control_generation]
    rfl
  · split <;> rfl

theorem invoke_direct_generation (chip : Chip) (word : BitVec 64) (mask : BitVec 8) (i : Nat) :
    ((invokeSelectedHandlers decodeRawWord48 invokes chip word mask true true).dpus
        i).lastControlGeneration =
      if (reachedMask chip mask true).getLsbD i then (chip.dpus i).lastControlGeneration + 1
      else (chip.dpus i).lastControlGeneration := by
  simp only [invokeSelectedHandlers, if_true, Chip.publish, Chip.mapDpus]
  split
  · rw [control_generation]
    rfl
  · rfl

theorem prepareBank_dpus {chip : Chip} {word : BitVec 64} (sync : Bool)
    (hpopulated : chip.populated = true) (hrefusal : refusal chip.state word = none)
    (hop : byte word 56 = 0x33) :
    (regionBarrier decodeRawWord48
        (prepareBank decodeRawWord48 invokes sync word chip).1).dpus =
      (regionBarrier decodeRawWord48
        (propagateFrame decodeRawWord48 invokes (chip.taking word) word)).dpus := by
  have hrefusal' : refusal (chip.setCommitted word).state word = none := hrefusal
  unfold prepareBank
  dsimp only
  rw [hrefusal', propagateCi_frame decodeRawWord48 invokes hpopulated hop]
  dsimp only
  split
  · exact regionBarrier_of_none decodeRawWord48 rfl
  · rfl

def CommitBankContext.waitedMask (context : CommitBankContext) : BitVec 8 :=
  if context.deferRunState then context.runStatePendingMask else context.pendingMask

def runStateMask (chip : Chip) : BitVec 8 :=
  if chip.state.runStatePending.active then retryMask chip else controlExecutionMask chip

theorem prepareBank_waited {chip : Chip} {word : BitVec 64} (sync : Bool)
    (hrefusal : refusal chip.state word = none) :
    (prepareBank decodeRawWord48 invokes sync word chip).2.waitedMask =
      if isRunStateReadCommand word then runStateMask chip
      else if isThreadCommandFrame chip word then
        reachedMask chip (controlExecutionMask chip) true
      else 0 := by
  have hrefusal' : refusal (chip.setCommitted word).state word = none := hrefusal
  have hclassify : (prepareBank decodeRawWord48 invokes sync word chip).2 =
      classify chip word sync := by
    unfold prepareBank
    dsimp only
    rw [hrefusal']
    rfl
  rw [hclassify]
  cases hrun : isRunStateReadCommand word with
  | true =>
      have hthread : isThreadCommandFrame chip word = false := by
        simp [isThreadCommandFrame, hrun]
      cases hactive : chip.state.runStatePending.active with
      | true =>
          simp [classify, CommitBankContext.waitedMask, retries, runStateMask, hrun, hactive]
      | false =>
          cases hdefers : defers chip <;>
            simp [classify, CommitBankContext.waitedMask, retries, runStateMask, hrun, hactive,
              hdefers, hthread, reachedMask_all]
  | false =>
      cases hthread : isThreadCommandFrame chip word <;>
        simp [classify, CommitBankContext.waitedMask, hrun, hthread]

theorem prepareBank_waited_refused {chip : Chip} {word : BitVec 64} {expectedSet : Bool}
    (sync : Bool) (hrefusal : refusal chip.state word = some expectedSet) :
    (prepareBank decodeRawWord48 invokes sync word chip).2.waitedMask = 0 := by
  have hrefusal' : refusal (chip.setCommitted word).state word = some expectedSet := hrefusal
  unfold prepareBank
  dsimp only
  rw [hrefusal']
  rfl

/-- The bank as a word finds it; handlers of earlier words are not this word's. -/
def Chip.entered (chip : Chip) : Chip := { chip.lazyPopulate with submitted := [] }

/-- Every DPU whose generation commit waits for has `control` called on it. -/
def Agrees (sync : Bool) (chip : Chip) (word : BitVec 64) : Prop :=
  let prepared := prepareBank decodeRawWord48 invokes sync word chip
  ∀ i, prepared.2.waitedMask.getLsbD i = true →
    ((regionBarrier decodeRawWord48 prepared.1).dpus i).lastControlGeneration ≠
      (chip.dpus i).lastControlGeneration

/-- No structure is latched under a run-state read or thread command, a run-state
read that is repeated still has its DPUs in the execution mask, and the pool
takes the handlers. -/
def ReadAlike (chip : Chip) (word : BitVec 64) : Prop :=
  (isRunStateReadCommand word = true → ∀ i, (runStateMask chip).getLsbD i = true →
    chip.state.latched = false ∧ (controlExecutionMask chip).getLsbD i = true ∧
      invokes i = true) ∧
  (isThreadCommandFrame chip word = true → refusal chip.state word = none →
    getBoundMask chip chip.state.selectedMask ≠ 0 → chip.state.latched = false)

theorem refusal_of_runState {state : CIState} {word : BitVec 64}
    (hrun : isRunStateReadCommand word = true) : refusal state word = none := by
  unfold refusal
  rw [if_pos hrun]

theorem runState_generation {chip : Chip} {word : BitVec 64} (sync : Bool)
    (hpopulated : chip.populated = true) (hnone : chip.submitted = [])
    (hrun : isRunStateReadCommand word = true) (i : Nat) :
    ((regionBarrier decodeRawWord48
        (prepareBank decodeRawWord48 invokes sync word chip).1).dpus i).lastControlGeneration =
      if !chip.state.latched && ((controlExecutionMask chip).getLsbD i && invokes i) then
        (chip.dpus i).lastControlGeneration + 1
      else (chip.dpus i).lastControlGeneration := by
  rw [prepareBank_dpus decodeRawWord48 invokes sync hpopulated (refusal_of_runState hrun)
    (isRunStateReadCommand_bytes hrun).1]
  cases hlatched : chip.state.latched with
  | true =>
      obtain ⟨hsubmitted, hgeneration⟩ := propagateFrame_latched decodeRawWord48 invokes
        ((taking_latched chip word).trans hlatched) word
      rw [regionBarrier_of_none decodeRawWord48
        ((hsubmitted.trans (taking_submitted chip word)).trans hnone), hgeneration, taking_dpus]
      rfl
  | false =>
      rw [propagateFrame_runState decodeRawWord48 invokes
        ((taking_latched chip word).trans hlatched) hrun,
        invoke_pooled_generation decodeRawWord48 invokes
          ((taking_submitted chip word).trans hnone), taking_controlExecutionMask,
        taking_dpus]
      rfl

theorem thread_generation {chip : Chip} {word : BitVec 64} (sync : Bool)
    (hpopulated : chip.populated = true) (hnone : chip.submitted = [])
    (hthread : isThreadCommandFrame chip word = true)
    (hrefusal : refusal chip.state word = none) (i : Nat) :
    ((regionBarrier decodeRawWord48
        (prepareBank decodeRawWord48 invokes sync word chip).1).dpus i).lastControlGeneration =
      if !chip.state.latched && (reachedMask chip (controlExecutionMask chip) true).getLsbD i then
        (chip.dpus i).lastControlGeneration + 1
      else (chip.dpus i).lastControlGeneration := by
  obtain ⟨-, hop, htag, hword⟩ := isThreadCommandFrame_bytes hthread
  rw [prepareBank_dpus decodeRawWord48 invokes sync hpopulated hrefusal hop]
  cases hlatched : chip.state.latched with
  | true =>
      obtain ⟨hsubmitted, hgeneration⟩ := propagateFrame_latched decodeRawWord48 invokes
        ((taking_latched chip word).trans hlatched) word
      rw [regionBarrier_of_none decodeRawWord48
        ((hsubmitted.trans (taking_submitted chip word)).trans hnone), hgeneration, taking_dpus]
      rfl
  | false =>
      have hdirect : (invokeSelectedHandlers decodeRawWord48 invokes (chip.taking word) word
          (controlExecutionMask (chip.taking word)) true true).submitted = [] :=
        (taking_submitted chip word).trans hnone
      rw [propagateFrame_thread decodeRawWord48 invokes
        ((taking_latched chip word).trans hlatched) htag
        ((congrArg (isThreadCommandWord word) (taking_selectedMask chip word)).trans hword),
        regionBarrier_of_none decodeRawWord48 hdirect, invoke_direct_generation,
        taking_controlExecutionMask, taking_reachedMask, taking_dpus]
      rfl

theorem exists_reached_iff (chip : Chip) :
    (∃ i, (reachedMask chip (controlExecutionMask chip) true).getLsbD i = true) ↔
      getBoundMask chip chip.state.selectedMask ≠ 0 := by
  have hreached : reachedMask chip (controlExecutionMask chip) true =
      getBoundMask chip chip.state.selectedMask := by
    refine mask_ext fun i hi => ?_
    rw [reachedMask, maskWhere_getLsbD _ hi, controlExecutionMask]
    split
    · rw [getBoundMask, maskWhere_getLsbD _ hi]
      simp
    · rw [getBoundMask, maskWhere_getLsbD _ hi]
      simp
  rw [hreached, mask_ne_zero_iff]
  constructor
  · rintro ⟨i, hbit⟩
    exact ⟨i, BitVec.lt_of_getLsbD hbit, hbit⟩
  · rintro ⟨i, -, hbit⟩
    exact ⟨i, hbit⟩

theorem agrees_runState_iff {chip : Chip} {word : BitVec 64} (sync : Bool)
    (hpopulated : chip.populated = true) (hnone : chip.submitted = [])
    (hrun : isRunStateReadCommand word = true) :
    Agrees decodeRawWord48 invokes sync chip word ↔
      ∀ i, (runStateMask chip).getLsbD i = true →
        chip.state.latched = false ∧ (controlExecutionMask chip).getLsbD i = true ∧
          invokes i = true := by
  unfold Agrees
  simp only [prepareBank_waited decodeRawWord48 invokes sync (refusal_of_runState hrun), hrun,
    if_true, runState_generation decodeRawWord48 invokes sync hpopulated hnone hrun]
  refine forall_congr' fun i => imp_congr_right fun _ => ?_
  split
  · rename_i h
    simp only [Bool.and_eq_true, Bool.not_eq_true'] at h
    exact ⟨fun _ => h, fun _ => next_generation_ne _⟩
  · rename_i h
    simp only [Bool.and_eq_true, Bool.not_eq_true'] at h
    exact ⟨fun hne => absurd rfl hne, fun hall => absurd hall h⟩

theorem agrees_thread_iff {chip : Chip} {word : BitVec 64} (sync : Bool)
    (hpopulated : chip.populated = true) (hnone : chip.submitted = [])
    (hthread : isThreadCommandFrame chip word = true)
    (hrefusal : refusal chip.state word = none) :
    Agrees decodeRawWord48 invokes sync chip word ↔
      (getBoundMask chip chip.state.selectedMask ≠ 0 → chip.state.latched = false) := by
  unfold Agrees
  simp only [prepareBank_waited decodeRawWord48 invokes sync hrefusal, hthread, if_true,
    (isThreadCommandFrame_bytes hthread).1, Bool.false_eq_true, if_false,
    thread_generation decodeRawWord48 invokes sync hpopulated hnone hthread hrefusal]
  rw [← exists_reached_iff]
  cases chip.state.latched with
  | true => simp
  | false =>
      simp only [implies_true, iff_true]
      intro i hbit
      simp [hbit]

/-- Commit and the execution path agree on a word exactly when they read it
alike. -/
theorem commit_agrees_iff (sync : Bool) (chip : Chip) (word : BitVec 64) :
    Agrees decodeRawWord48 invokes sync chip.entered word ↔
      ReadAlike invokes chip.entered word := by
  have hpopulated : chip.entered.populated = true := lazyPopulate_populated chip
  have hnone : chip.entered.submitted = [] := rfl
  unfold ReadAlike
  cases hrun : isRunStateReadCommand word with
  | true =>
      have hthread : isThreadCommandFrame chip.entered word = false := by
        simp [isThreadCommandFrame, hrun]
      rw [agrees_runState_iff decodeRawWord48 invokes sync hpopulated hnone hrun]
      simp [hthread]
  | false =>
      cases hrefusal : refusal chip.entered.state word with
      | some expectedSet =>
          unfold Agrees
          simp [prepareBank_waited_refused decodeRawWord48 invokes sync hrefusal]
      | none =>
          cases hthread : isThreadCommandFrame chip.entered word with
          | true =>
              rw [agrees_thread_iff decodeRawWord48 invokes sync hpopulated hnone hthread hrefusal]
              simp
          | false =>
              unfold Agrees
              simp [prepareBank_waited decodeRawWord48 invokes sync hrefusal, hrun, hthread]

def loadingChip : Chip where
  state :=
    { CIState.powerOn.initializeDefaults with
      selectedMask := 0x01
      structure_ := 0x11000002470000FF
      iramWriteStructureValid := true
      dispatchedPayload := 0xFF
      dispatchedGeneration := 2 }
  populated := true
  reply := 0
  dpus := fun _ => { Dpu.powerOn with mram := Dpu.powerOn.mram.allocate }
  submitted := []

/-- The instruction 0x284 for slot zero is taken for a run-state read. -/
theorem payload_taken_for_runState :
    ¬ Agrees (fun _ => .empty) (fun _ => true) true loadingChip.entered 0x3300000000000284 ∧
      (publishBank (fun _ => .empty)
        (prepareBank (fun _ => .empty) (fun _ => true) true 0x3300000000000284
          loadingChip.entered).1 0
        (prepareBank (fun _ => .empty) (fun _ => true) true 0x3300000000000284
          loadingChip.entered).2).1.state.runStatePending.active = true := by
  constructor
  · intro hagrees
    exact absurd (hagrees 0 (by decide)) (by decide)
  · decide

end

end HostPimSim.Upmem
