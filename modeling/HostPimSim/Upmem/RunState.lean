import HostPimSim.Upmem.Agreement
import HostPimSim.Upmem.Independence

/-! The reply to a run-state read.  It is published at once, or left pending for the
update that follows when a single DPU is asked and is running; both ways it tells
which of the DPUs asked still run. -/
namespace HostPimSim.Upmem

section
variable (decodeRawWord48 : BitVec 64 → RawDecoded48)

theorem control_runState_result (dpu : Dpu) {word : BitVec 64}
    (hrun : isRunStateReadCommand word = true) :
    (control decodeRawWord48 dpu word).lastControlResult ≠ 0 ↔
      (control decodeRawWord48 dpu word).runBits ≠ 0 := by
  unfold control
  rw [if_pos hrun]
  split
  · simp [Dpu.setLastControlResult]
  · dsimp only [Dpu.setLastControlResult]
    split
    · rename_i hactive
      exact ⟨fun _ => hactive, fun _ => by decide⟩
    · rename_i hidle
      exact ⟨fun hne => absurd rfl hne, fun hactive => absurd hactive hidle⟩

def askedDpu (word : BitVec 64) (dpu : Dpu) : Dpu :=
  control decodeRawWord48 dpu.clearLastControlResult word

theorem askedDpu_generation (word : BitVec 64) (dpu : Dpu) :
    (askedDpu decodeRawWord48 word dpu).lastControlGeneration ≠ dpu.lastControlGeneration := by
  unfold askedDpu
  rw [control_generation]
  exact next_generation_ne _

def ranBank (invokes : Nat → Bool) (word : BitVec 64) (bank : Chip) : Chip :=
  regionBarrier decodeRawWord48
    (invokeSelectedHandlers decodeRawWord48 invokes (bank.taking word) word
      (controlExecutionMask bank) false false)

variable {invokes : Nat → Bool}

theorem ranBank_dpus (hinvokes : ∀ i < kChipNumDpus, invokes i = true) {bank : Chip}
    (hnone : bank.submitted = []) (word : BitVec 64) (i : Nat) :
    (ranBank decodeRawWord48 invokes word bank).dpus i =
      if (controlExecutionMask bank).getLsbD i then
        askedDpu decodeRawWord48 word (bank.dpus i)
      else bank.dpus i := by
  unfold ranBank
  rw [invoke_pooled_dpus decodeRawWord48 invokes ((taking_submitted bank word).trans hnone),
    taking_dpus]
  by_cases hbit : (controlExecutionMask bank).getLsbD i = true
  · rw [hinvokes i (BitVec.lt_of_getLsbD hbit), hbit]
    rfl
  · simp [hbit]

/-- No write structure is latched and no reply is pending. -/
structure CIState.Quiet (state : CIState) : Prop where
  latched : state.latched = false
  runStatePending : state.runStatePending.active = false
  controlPending : state.controlPending.active = false
  dispatchPending : state.dispatchPending.active = false

theorem ranBank_state (invokes : Nat → Bool) (word : BitVec 64) (bank : Chip) :
    (ranBank decodeRawWord48 invokes word bank).state.dispatchedGeneration =
        (bank.taking word).state.dispatchedGeneration + 1 ∧
      (ranBank decodeRawWord48 invokes word bank).populated = bank.populated := by
  constructor
  · unfold ranBank
    rw [regionBarrier_state]
    rfl
  · have hselection := (regionBarrier_selection decodeRawWord48 _).trans
      (invoke_replies decodeRawWord48 invokes (bank.taking word) word
        (controlExecutionMask bank) false false).selection
    exact (congrArg Selection.populated hselection).trans (taking_populated bank word)

theorem taking_dispatchedGeneration (bank : Chip) (word : BitVec 64) :
    (bank.taking word).state.dispatchedGeneration = bank.state.dispatchedGeneration := by
  unfold Chip.taking Chip.dropPending
  split <;> rfl

theorem commitBank_runState (invokes : Nat → Bool) (sync : Bool) {word : BitVec 64}
    (hrun : isRunStateReadCommand word = true) (chip : Chip) (color : BitVec 8)
    (hlatched : chip.lazyPopulate.state.latched = false) :
    (commitBank decodeRawWord48 invokes sync word chip color).1 =
      let ran := ranBank decodeRawWord48 invokes word chip.lazyPopulate
      let published := publishReply ran
        (classify (chip.lazyPopulate.setCommitted word) word false) (color.getLsbD 0)
      writeCiRw { ran with state := published.1 } published.2 := by
  have hrefusal : refusal (chip.lazyPopulate.setCommitted word).state word = none :=
    refusal_of_runState hrun
  have hcontext : (classify (chip.lazyPopulate.setCommitted word) word false).active = true ∧
      (classify (chip.lazyPopulate.setCommitted word) word false).isRunStateCommand = true ∧
      (classify (chip.lazyPopulate.setCommitted word) word false).wroteRunStateSync = false :=
    ⟨rfl, hrun, Bool.and_false _⟩
  rw [commitBank_sync]
  unfold commitBank prepareBank
  dsimp only
  rw [hrefusal, propagateCi_frame decodeRawWord48 invokes (lazyPopulate_populated chip)
    (isRunStateReadCommand_bytes hrun).1, propagateFrame_runState decodeRawWord48 invokes
      ((taking_latched chip.lazyPopulate word).trans hlatched) hrun, taking_controlExecutionMask]
  dsimp only
  rw [hcontext.2.2, if_neg Bool.false_ne_true]
  unfold publishBank
  rw [hcontext.1, hcontext.2.1, hcontext.2.2]
  rfl

def runningMask (word : BitVec 64) (bank : Chip) : BitVec 8 :=
  maskWhere fun i => (controlExecutionMask bank).getLsbD i &&
    (askedDpu decodeRawWord48 word (bank.dpus i)).runBits ≠ 0

section
variable {bank : Chip} {word : BitVec 64} (hrun : isRunStateReadCommand word = true)
  (hinvokes : ∀ i < kChipNumDpus, invokes i = true) (hnone : bank.submitted = [])
include hinvokes hnone

theorem unfinishedMask_ran :
    unfinishedMask (ranBank decodeRawWord48 invokes word bank) (controlExecutionMask bank)
      (bank.generations (controlExecutionMask bank)) = 0 := by
  apply mask_ext
  intro i hi
  rw [unfinishedMask, maskWhere_getLsbD _ hi, ranBank_dpus decodeRawWord48 hinvokes hnone]
  cases hbit : (controlExecutionMask bank).getLsbD i with
  | false => simp
  | true =>
      have hgeneration := askedDpu_generation decodeRawWord48 word (bank.dpus i)
      simp [Chip.generations, hbit, hgeneration]

include hrun in
theorem resultMask_ran :
    resultMask (ranBank decodeRawWord48 invokes word bank) (controlExecutionMask bank)
      (bank.generations (controlExecutionMask bank)) =
      runningMask decodeRawWord48 word bank := by
  apply mask_ext
  intro i hi
  rw [resultMask, runningMask, maskWhere_getLsbD _ hi, maskWhere_getLsbD _ hi,
    ranBank_dpus decodeRawWord48 hinvokes hnone]
  cases hbit : (controlExecutionMask bank).getLsbD i with
  | false => simp
  | true =>
      have hgeneration := askedDpu_generation decodeRawWord48 word (bank.dpus i)
      have hresult := control_runState_result decodeRawWord48
        (bank.dpus i).clearLastControlResult hrun
      rw [Bool.eq_iff_iff]
      simp only [Chip.generations, hbit, if_true, Bool.true_and, bne_iff_ne, ne_eq, hgeneration,
        not_false_eq_true, Bool.and_eq_true, true_and, decide_eq_true_eq]
      exact hresult

end

structure Asks (bank : Chip) (word : BitVec 64) (context : CommitBankContext) : Prop where
  ciWord : context.ciWord = word
  before : context.dispatchGenerationBefore = bank.state.dispatchedGeneration
  deferred : context.deferRunState = true → context.retryPendingRunState = false ∧
    context.runStatePendingMask = controlExecutionMask bank ∧
    context.runStatePendingGenerations = bank.generations (controlExecutionMask bank)
  waited : context.deferRunState = false → context.waitForControlResults = true ∧
    context.pendingMask = controlExecutionMask bank ∧
    context.pendingGenerations = bank.generations (controlExecutionMask bank)

theorem classify_asks {bank : Chip} {word : BitVec 64}
    (hrun : isRunStateReadCommand word = true) (hquiet : bank.state.Quiet) (sync : Bool) :
    Asks bank word (classify (bank.setCommitted word) word sync) := by
  have hthread : isThreadCommandFrame (bank.setCommitted word) word = false := by
    simp [isThreadCommandFrame, hrun]
  have hretry : retries (bank.setCommitted word).state word = false := by
    simp [retries, Chip.setCommitted, hquiet.runStatePending]
  have hmask : controlExecutionMask (bank.setCommitted word) = controlExecutionMask bank := rfl
  have hgenerations : ∀ mask, (bank.setCommitted word).generations mask =
      bank.generations mask := fun _ => rfl
  refine ⟨rfl, rfl, ?_, ?_⟩
  · intro hdefer
    have hdefers : defers (bank.setCommitted word) = true := by
      simpa [classify, hrun, hretry] using hdefer
    simp [classify, hrun, hretry, hdefers, hmask, hgenerations]
  · intro hdefer
    have hdefers : defers (bank.setCommitted word) = false := by
      simpa [classify, hrun, hretry] using hdefer
    simp [classify, hrun, hretry, hdefers, hmask, hgenerations, hthread, reachedMask_all]

section
variable {bank : Chip} {word : BitVec 64} (hrun : isRunStateReadCommand word = true)
  (hinvokes : ∀ i < kChipNumDpus, invokes i = true) (hnone : bank.submitted = [])
  {context : CommitBankContext} (hasks : Asks bank word context) (expectedSet : Bool)
include hrun hasks

theorem publishReply_asks (ran : Chip) :
    publishReply ran context expectedSet =
      if context.deferRunState then deferRunState ran context expectedSet
      else waitControl ran context expectedSet := by
  have hempty : context.ciWord ≠ ciEmptyCmd := by
    rw [hasks.ciWord]
    rintro rfl
    exact absurd hrun (by decide)
  have horder : context.ciWord ≠ kCiByteOrder := by
    rw [hasks.ciWord]
    rintro rfl
    exact absurd hrun (by decide)
  unfold publishReply
  rw [if_neg hempty, if_neg horder]
  split
  · rfl
  · rename_i hdefer
    rw [if_pos (hasks.waited (by simpa using hdefer)).1]

include hinvokes hnone

/-- The two ways a reply goes: ready, or pending with a record that the next update
finds finished. -/
theorem publishReply_ran :
    let ran := ranBank decodeRawWord48 invokes word bank
    let published := publishReply ran context expectedSet
    published.2 = readyResult expectedSet
        ((runningMask decodeRawWord48 word bank).setWidth 32) ∨
      (published.2 = runStatePendingNop expectedSet ∧
        published.1.runStatePending.active = true ∧
        published.1.runStatePending.expectedSet = expectedSet ∧
        published.1.runStatePending.poll
            (writeCiRw { ran with state := published.1 } published.2) =
          .inr (runningMask decodeRawWord48 word bank)) := by
  have hunfinished : unfinishedMask (ranBank decodeRawWord48 invokes word bank)
      (controlExecutionMask bank) (bank.generations (controlExecutionMask bank)) = 0 :=
    unfinishedMask_ran decodeRawWord48 hinvokes hnone
  have hresult := resultMask_ran decodeRawWord48 hrun hinvokes hnone
  dsimp only
  rw [publishReply_asks hrun hasks]
  cases hdefer : context.deferRunState with
  | false =>
      obtain ⟨-, hmask, hgenerations⟩ := hasks.waited hdefer
      left
      simp only [Bool.false_eq_true, if_false, waitControl, hmask, hgenerations, hunfinished,
        hresult, if_true]
  | true =>
      obtain ⟨hretry, hmask, hgenerations⟩ := hasks.deferred hdefer
      have hgeneration : (ranBank decodeRawWord48 invokes word bank).state.dispatchedGeneration ≠
          bank.state.dispatchedGeneration := by
        rw [(ranBank_state decodeRawWord48 invokes word bank).1, taking_dispatchedGeneration]
        exact next_generation_ne _
      right
      simp only [if_true, deferRunState, hretry, Bool.false_eq_true, if_false, hmask,
        hgenerations, hasks.before, true_and]
      unfold ControlPending.poll
      dsimp only [writeCiRw, CIState.clearPending]
      rw [if_neg hgeneration]
      exact (if_pos hunfinished).trans
        (congrArg Sum.inr ((BitVec.zero_or).trans hresult))

end

theorem updateBank_finished {chip : Chip} {payload : BitVec 8} (hpopulated : chip.populated = true)
    (hactive : chip.state.runStatePending.active = true)
    (hpoll : chip.state.runStatePending.poll chip = .inr payload) :
    updateBank chip =
      let word := readyResult chip.state.runStatePending.expectedSet (payload.setWidth 32)
      some (writeCiRw { chip with state := chip.state.clearPending } word, word) := by
  unfold updateBank
  rw [if_pos hactive]
  unfold updateRunState
  dsimp only
  rw [hpoll]
  exact if_pos hpopulated

/-- A run-state read is answered exactly.  `bank` is the bank as the word finds it,
with its regions and its first DPU populated; its handlers are the ones that populating
it has registered, and none of an earlier word is left. -/
theorem runState_reply_exact {calls : CommitCalls} {input : Nat → BitVec 64}
    {rank committed : Rank} {bankIdx : Nat} (hbank : bankIdx < kRankNumBanks)
    (hrun : isRunStateReadCommand (input bankIdx) = true)
    (hquiet : (rank.chips bankIdx).lazyPopulate.state.Quiet)
    (hnone : (rank.chips bankIdx).submitted = [])
    (hinvokes : ∀ i < kChipNumDpus, calls.invokes bankIdx i = true)
    (hcommit : commitCommands decodeRawWord48 calls input rank = some committed) :
    let bank := (rank.chips bankIdx).lazyPopulate
    let mask := controlExecutionMask bank
    let expectedSet := (rank.color bankIdx).getLsbD 0
    (∀ i, (committed.chips bankIdx).dpus i =
      if mask.getLsbD i then
        control decodeRawWord48 (bank.dpus i).clearLastControlResult (input bankIdx)
      else bank.dpus i) ∧
    ∃ payload : BitVec 8,
      (∀ i < kChipNumDpus, payload.getLsbD i = true ↔
        mask.getLsbD i = true ∧ ((committed.chips bankIdx).dpus i).runBits ≠ 0) ∧
      ((committed.chips bankIdx).reply = readyResult expectedSet (payload.setWidth 32) ∨
        ((committed.chips bankIdx).reply = runStatePendingNop expectedSet ∧
          ∃ updated, updateCommands committed = some updated ∧
            updated.output bankIdx = readyResult expectedSet (payload.setWidth 32) ∧
            (updated.rank.chips bankIdx).reply =
              readyResult expectedSet (payload.setWidth 32) ∧
            (updated.rank.chips bankIdx).dpus = (committed.chips bankIdx).dpus)) := by
  have hnone' : (rank.chips bankIdx).lazyPopulate.submitted = [] := by
    unfold Chip.lazyPopulate Chip.lazyPopulateCi
    dsimp only
    split <;> exact hnone
  have hchip : committed.chips bankIdx = _ :=
    congrArg Prod.fst (commitCommands_bank decodeRawWord48 hcommit hbank)
  rw [commitBank_runState decodeRawWord48 _ _ hrun _ _ hquiet.latched] at hchip
  have hasks := classify_asks hrun hquiet false
  have hreply := publishReply_ran decodeRawWord48 hrun hinvokes hnone' hasks
    ((rank.color bankIdx).getLsbD 0)
  have hdpus : ∀ i, (committed.chips bankIdx).dpus i =
      if (controlExecutionMask (rank.chips bankIdx).lazyPopulate).getLsbD i then
        askedDpu decodeRawWord48 (input bankIdx) ((rank.chips bankIdx).lazyPopulate.dpus i)
      else (rank.chips bankIdx).lazyPopulate.dpus i := by
    intro i
    rw [hchip]
    exact ranBank_dpus decodeRawWord48 hinvokes hnone' (input bankIdx) i
  refine ⟨hdpus, runningMask decodeRawWord48 (input bankIdx) (rank.chips bankIdx).lazyPopulate,
    fun i hi => ?_, ?_⟩
  · rw [runningMask, maskWhere_getLsbD _ hi, hdpus i, Bool.and_eq_true, decide_eq_true_eq]
    refine and_congr_right fun hbit => ?_
    rw [if_pos hbit]
  obtain hready | ⟨hnop, hactive, hexpected, hpoll⟩ := hreply
  · left
    rw [hchip]
    exact hready
  · right
    have hpopulated := commitCommands_populated decodeRawWord48 hcommit hbank
    obtain ⟨updated, hupdated⟩ := updateCommands_isSome fun i hi =>
      commitCommands_populated decodeRawWord48 hcommit hi
    have hupdate := (updateCommands_bank hupdated hbank).2
    have hstate : (committed.chips bankIdx).state.runStatePending = _ :=
      congrArg (fun chip : Chip => chip.state.runStatePending) hchip
    rw [updateBank_finished hpopulated (hstate ▸ hactive)
      (by rw [hstate, hchip]; exact hpoll)] at hupdate
    have houtput := Prod.ext_iff.mp (Option.some.inj hupdate)
    have hword : (committed.chips bankIdx).state.runStatePending.expectedSet =
        (rank.color bankIdx).getLsbD 0 := by
      rw [hstate]
      exact hexpected
    rw [hword] at houtput
    refine ⟨by rw [hchip]; exact hnop, updated, hupdated, houtput.2.symm, ?_, ?_⟩
    · exact (congrArg Chip.reply houtput.1).symm
    · exact (congrArg Chip.dpus houtput.1).symm

end

theorem runState_reply_exact_idle :
    ∃ committed, commitCommands (fun _ => .empty) reliableCalls
        (fun _ => 0x3300000000000284) idleRank = some committed ∧
      ∃ payload : BitVec 8, ∀ i < kChipNumDpus, payload.getLsbD i = true ↔
        (controlExecutionMask idleChip.lazyPopulate).getLsbD i = true ∧
          ((committed.chips 0).dpus i).runBits ≠ 0 := by
  obtain ⟨committed, h⟩ := Option.isSome_iff_exists.mp
    (by decide +kernel : (commitCommands (fun _ => .empty) reliableCalls
      (fun _ => 0x3300000000000284) idleRank).isSome = true)
  have hquiet : (idleRank.chips 0).lazyPopulate.state.Quiet := ⟨rfl, rfl, rfl, rfl⟩
  obtain ⟨-, payload, hpayload, -⟩ := runState_reply_exact (fun _ => .empty)
    (by decide : 0 < kRankNumBanks) (by decide) hquiet rfl (fun _ _ => rfl) h
  exact ⟨committed, h, payload, hpayload⟩

end HostPimSim.Upmem
