import HostPimSim.Upmem.Bank
import HostPimSim.Upmem.Color

/-! The replies of a rank, each to one commit and the update after it.  Records, retries and
generations come and go in between; the host sees one answer for each word, and the answer
is that of a machine that has none of them. -/
namespace HostPimSim.Upmem

inductive Answer where
  | empty
  | byteOrder
  | ready (payload : BitVec 32)
  | nopStyle (payload : BitVec 32)
  deriving DecidableEq

def Answer.word (color : Bool) : Answer → BitVec 64
  | .empty => ciEmptyCmd
  | .byteOrder => ciByteOrderUpdated
  | .ready payload => readyResult color payload
  | .nopStyle payload => nopStyleResult color payload

def Book.blank : Book := (Chip.mk .powerOn true 0 (fun _ => .powerOn) []).book

structure Book.Idle (book : Book) : Prop where
  dispatchPending : book.dispatchPending.active = false
  controlPending : book.controlPending.active = false
  runStatePending : book.runStatePending.active = false

theorem blank_idle : Book.blank.Idle := ⟨rfl, rfl, rfl⟩

/-- The first DPU of a bank is there from its first word on. -/
def Bank.populated (bank : Bank) : Bank :=
  { bank with dpus := fun i =>
      if i = 0 then { bank.dpus 0 with mram := (bank.dpus 0).mram.allocate } else bank.dpus i }

/-- The DPUs whose results are the answer, to a word that is answered with results. -/
def Bank.asked (bank : Bank) (word : BitVec 64) : Option (BitVec 8) :=
  let chip := bank.chip .blank
  if isRunStateReadCommand word then some (controlExecutionMask chip)
  else if isThreadCommandFrame chip word then
    some (reachedMask chip (controlExecutionMask chip) true)
  else none

def Chip.results (chip : Chip) (mask : BitVec 8) : BitVec 8 :=
  maskWhere fun i => mask.getLsbD i && (chip.dpus i).lastControlResult != 0

section
variable (decodeRawWord48 : BitVec 64 → RawDecoded48)

/-- The word is executed, and the handlers it gave to the pool have run. -/
def Bank.executed (bank : Bank) (word : BitVec 64) : Chip :=
  regionBarrier decodeRawWord48
    (propagateCi decodeRawWord48 (fun _ => true) (bank.chip .blank) word)

def Bank.answer (bank : Bank) (word : BitVec 64) : Answer :=
  let executed := bank.executed decodeRawWord48 word
  if word = ciEmptyCmd then .empty
  else if word = kCiByteOrder then .byteOrder
  else match bank.asked word with
    | some mask => .ready ((executed.results mask).setWidth 32)
    | none =>
        if executed.state.dispatchedNeedsMaskFuzz then .nopStyle executed.state.dispatchedPayload
        else .ready executed.state.dispatchedPayload

structure ColoredBank where
  bank : Bank
  color : Bool

/-- The empty word keeps the colour, a software reset starts again from the first. -/
def colorAfter (word : BitVec 64) (color : Bool) : Bool :=
  if word = ciEmptyCmd then color else if isSoftwareResetCmd word then false else !color

def ColoredBank.next (state : ColoredBank) (word : BitVec 64) : ColoredBank × BitVec 64 :=
  let bank := state.bank.populated
  (⟨(bank.executed decodeRawWord48 word).bank, colorAfter word state.color⟩,
    (bank.answer decodeRawWord48 word).word state.color)

end

/-- While a write structure is latched the next word is its payload, and is not one that a
commit takes for a run-state read or a thread command. -/
def ColoredBank.Meant (state : ColoredBank) (word : BitVec 64) : Prop :=
  (state.bank.populated.chip .blank).state.latched = true →
    isRunStateReadCommand word = false ∧
      isThreadCommandFrame (state.bank.populated.chip .blank) word = false

instance (state : ColoredBank) (word : BitVec 64) : Decidable (state.Meant word) :=
  inferInstanceAs (Decidable (_ → _))

section
variable (decodeRawWord48 : BitVec 64 → RawDecoded48)

def handlersRun (handlers : List (Nat × BitVec 64)) (dpus : Nat → Dpu) : Nat → Dpu :=
  handlers.foldl (fun dpus handler =>
    fun i => if i = handler.1 then control decodeRawWord48 (dpus i) handler.2 else dpus i) dpus

theorem regionBarrier_eq (chip : Chip) :
    regionBarrier decodeRawWord48 chip =
      { chip with
        dpus := handlersRun decodeRawWord48 chip.submitted chip.dpus
        submitted := [] } := by
  have hrun : ∀ (handlers : List (Nat × BitVec 64)) (start : Chip),
      handlers.foldl (runHandler decodeRawWord48) start =
        { start with dpus := handlersRun decodeRawWord48 handlers start.dpus } := by
    intro handlers
    induction handlers with
    | nil => exact fun _ => rfl
    | cons handler rest ih => exact fun start => ih (runHandler decodeRawWord48 start handler)
  unfold regionBarrier
  rw [hrun]

theorem regionBarrier_none {chip : Chip} (hnone : chip.submitted = []) :
    regionBarrier decodeRawWord48 chip = chip := by
  rw [regionBarrier_eq, hnone]
  cases chip
  cases hnone
  rfl

theorem regionBarrier_outcome {first second : Chip} (h : first.outcome = second.outcome) :
    (regionBarrier decodeRawWord48 first).outcome =
      (regionBarrier decodeRawWord48 second).outcome := by
  have hran : ∀ chip : Chip, (regionBarrier decodeRawWord48 chip).outcome =
      { chip.outcome with
        bank := { chip.outcome.bank with
          dpus := handlersRun decodeRawWord48 chip.outcome.submitted chip.outcome.bank.dpus }
        submitted := [] } := by
    intro chip
    rw [regionBarrier_eq]
    rfl
  rw [hran, hran, h]

theorem queryFrame_submitted {chip : Chip} {word : BitVec 64} (invokes : Nat → Bool)
    (hb0 : byte word 0 ≠ 0x84) :
    (queryFrame decodeRawWord48 invokes chip word).submitted = chip.submitted := by
  unfold queryFrame
  dsimp only
  rw [if_neg hb0]
  repeat' split
  all_goals rfl

theorem commandFrame_submitted (chip : Chip) (word : BitVec 64) (invokes : Nat → Bool) :
    (commandFrame decodeRawWord48 invokes chip word).submitted = chip.submitted := by
  unfold commandFrame
  dsimp only
  split
  · rfl
  split
  · cases decodeWramReadWordFrame word <;> rfl
  · rfl

theorem selectFrame_submitted {chip answered : Chip} {word : BitVec 64}
    (h : selectFrame chip word = some answered) : answered.submitted = chip.submitted := by
  unfold selectFrame at h
  dsimp only at h
  repeat' split at h
  all_goals cases h
  all_goals rfl

theorem propagateFrame_submitted {chip : Chip} {word : BitVec 64} (invokes : Nat → Bool)
    (hop : byte word 56 = 0x33) (hrun : isRunStateReadCommand word = false) :
    (propagateFrame decodeRawWord48 invokes chip word).submitted = chip.submitted := by
  unfold propagateFrame
  dsimp only
  split
  · rfl
  split
  · rfl
  split
  · rename_i htag
    cases hframe : selectFrame chip word with
    | some answered => exact selectFrame_submitted hframe
    | none =>
        rw [Option.getD_none]
        split
        · rename_i hb1
          apply queryFrame_submitted
          rintro hb0
          simp [isRunStateReadCommand, hop, htag, hb0, hb1] at hrun
        · exact commandFrame_submitted decodeRawWord48 chip word invokes
  split
  · unfold dmaCtrlFrame
    cases decodeDmaCtrlWriteFrame word with
    | none => rfl
    | some row => rfl
  split
  · unfold modeFrame
    dsimp only
    repeat' split
    all_goals rfl
  · exact commandFrame_submitted decodeRawWord48 chip word invokes

theorem propagateCi_submitted (chip : Chip) {word : BitVec 64} (invokes : Nat → Bool)
    (hrun : isRunStateReadCommand word = false) :
    (propagateCi decodeRawWord48 invokes chip word).submitted = chip.submitted := by
  unfold propagateCi
  dsimp only
  repeat' split
  all_goals first
    | rfl
    | skip
  rename_i hop
  exact propagateFrame_submitted decodeRawWord48 invokes (not_not.mp hop) hrun

theorem propagateCi_populated (chip : Chip) (word : BitVec 64) (invokes : Nat → Bool) :
    (propagateCi decodeRawWord48 invokes chip word).populated = chip.populated :=
  selects_populated (propagateCi_selects decodeRawWord48 invokes chip word)

end

def CommitBankContext.waitedGenerations (context : CommitBankContext) : Nat → BitVec 64 :=
  if context.deferRunState then context.runStatePendingGenerations else context.pendingGenerations

def settledReply (ran : Chip) (context : CommitBankContext) (expectedSet : Bool) : BitVec 64 :=
  if context.ciWord = ciEmptyCmd then ciEmptyCmd
  else if context.ciWord = kCiByteOrder then ciByteOrderUpdated
  else if context.deferRunState || context.waitForControlResults then
    readyResult expectedSet
      ((resultMask ran context.waitedMask context.waitedGenerations).setWidth 32)
  else dispatchedResult ran.state expectedSet

def Chip.settled (ran : Chip) (word : BitVec 64) : Chip :=
  writeCiRw { ran with state := ran.state.clearPending } word

theorem updateBank_ready (ran : Chip) (word : BitVec 64) :
    updateBank (ran.settled word) = some (ran.settled word, word) := rfl

theorem poll_finished {record : ControlPending} {chip : Chip}
    (hgeneration : chip.state.dispatchedGeneration ≠ record.dispatchGenerationBefore)
    (hpayload : record.payload = 0)
    (hfinished : unfinishedMask chip record.executionMask record.controlGenerations = 0) :
    record.poll chip = .inr (resultMask chip record.executionMask record.controlGenerations) := by
  unfold ControlPending.poll
  dsimp only
  rw [if_neg hgeneration, if_pos hfinished, hpayload]
  exact congrArg Sum.inr BitVec.zero_or

/-- Whether the reply is ready when it is published or pending until the update, the
update leaves the bank with nothing pending and gives the same word. -/
theorem updateBank_settles {ran : Chip} {context : CommitBankContext} (expectedSet : Bool)
    (hpopulated : ran.populated = true) (hretry : context.retryPendingRunState = false)
    (hgeneration : ran.state.dispatchedGeneration ≠ context.dispatchGenerationBefore)
    (hwaited : unfinishedMask ran context.waitedMask context.waitedGenerations = 0) :
    let published := publishReply ran context expectedSet
    let reply := settledReply ran context expectedSet
    updateBank (writeCiRw { ran with state := published.1 } published.2) =
      some (ran.settled reply, reply) := by
  dsimp only
  unfold publishReply settledReply
  split
  · exact updateBank_ready ran ciEmptyCmd
  split
  · exact updateBank_ready ran ciByteOrderUpdated
  unfold CommitBankContext.waitedMask CommitBankContext.waitedGenerations at hwaited ⊢
  cases hdefer : context.deferRunState with
  | true =>
      rw [hdefer, if_pos rfl, if_pos rfl] at hwaited
      let deferred := writeCiRw { ran with state := (deferRunState ran context expectedSet).1 }
        (deferRunState ran context expectedSet).2
      have hpoll : deferred.state.runStatePending.poll deferred =
          .inr (resultMask ran context.runStatePendingMask
            context.runStatePendingGenerations) :=
        poll_finished hgeneration rfl hwaited
      have hexpected : deferred.state.runStatePending.expectedSet = expectedSet := by
        dsimp only [deferred, deferRunState, writeCiRw]
        rw [hretry]
        rfl
      have hready : deferred.populated = true ∧ deferred.state.runStatePending.active = true :=
        ⟨hpopulated, rfl⟩
      have hupdate := updateBank_finished hready.1 hready.2 hpoll
      rw [hexpected] at hupdate
      exact hupdate
  | false =>
      rw [hdefer, if_neg Bool.false_ne_true, if_neg Bool.false_ne_true] at hwaited
      rw [Bool.false_or, if_neg Bool.false_ne_true]
      split
      · unfold waitControl
        dsimp only
        rw [if_pos hwaited]
        exact updateBank_ready ran _
      · unfold waitDispatch
        rw [if_neg hgeneration]
        exact updateBank_ready ran _

theorem resultMask_finished {ran : Chip} {mask : BitVec 8} {generations : Nat → BitVec 64}
    (hwaited : unfinishedMask ran mask generations = 0) :
    resultMask ran mask generations = ran.results mask := by
  apply mask_ext
  intro i hi
  have hbit := congrArg (BitVec.getLsbD · i) hwaited
  rw [unfinishedMask, maskWhere_getLsbD _ hi] at hbit
  rw [resultMask, Chip.results, maskWhere_getLsbD _ hi, maskWhere_getLsbD _ hi]
  cases hmask : mask.getLsbD i with
  | false => rfl
  | true =>
      have hfinished : ((ran.dpus i).lastControlGeneration == generations i) = false := by
        simpa [hmask] using hbit
      simp [bne, hfinished]

/-- The bank of the machine, with the record keeping of a bank that waits for nothing. -/
structure Follows (chip : Chip) (color : BitVec 8) (state : ColoredBank) : Prop where
  chip : ∃ book : Book, book.Idle ∧ chip.lazyPopulateCi = state.bank.chip book
  color : color.getLsbD 0 = state.color

section
variable (decodeRawWord48 : BitVec 64 → RawDecoded48) {bank : Bank} {book : Book}

theorem lazyPopulate_chip {chip : Chip} (h : chip.lazyPopulateCi = bank.chip book) :
    chip.lazyPopulate = bank.populated.chip book := by
  unfold Chip.lazyPopulate
  rw [h]
  rfl

variable (bank) in
theorem refusal_idle (hidle : book.Idle) (word : BitVec 64) :
    refusal (bank.chip book).state word = none := by
  have hcontrol : (bank.chip book).state.controlPending.active = false := hidle.controlPending
  have hdispatch : (bank.chip book).state.dispatchPending.active = false := hidle.dispatchPending
  simp [refusal, hcontrol, hdispatch]

variable (bank) in
theorem retries_idle (hidle : book.Idle) (word : BitVec 64) :
    retries (bank.chip book).state word = false := by
  have hrunState : (bank.chip book).state.runStatePending.active = false := hidle.runStatePending
  simp [retries, hrunState]

theorem dropPending_chip (bank : Bank) (book : Book) (word : BitVec 64) :
    ∃ taken : Book, ((bank.chip book).setCommitted word).dropPending word = bank.chip taken ∧
      taken.dispatchedGeneration = book.dispatchedGeneration := by
  unfold Chip.dropPending
  split
  · exact ⟨{ book with committed := word }, rfl, rfl⟩
  · exact ⟨{ book with
      committed := word
      dispatchPending :=
        if book.dispatchPending.active then .cleared else book.dispatchPending
      runStatePending := .cleared }, rfl, rfl⟩

def Chip.ran (chip : Chip) (word : BitVec 64) : Chip :=
  regionBarrier decodeRawWord48
    (prepareBank decodeRawWord48 (fun _ => true) false word chip).1

theorem prepareBank_idle (hidle : book.Idle) (word : BitVec 64) :
    prepareBank decodeRawWord48 (fun _ => true) false word (bank.chip book) =
      (propagateCi decodeRawWord48 (fun _ => true)
        (((bank.chip book).setCommitted word).dropPending word) word,
        classify ((bank.chip book).setCommitted word) word false) := by
  have hrefusal : refusal ((bank.chip book).setCommitted word).state word = none :=
    refusal_idle bank hidle word
  have hsync : (classify ((bank.chip book).setCommitted word) word false).wroteRunStateSync =
      false := Bool.and_false _
  unfold prepareBank
  dsimp only
  rw [hrefusal]
  dsimp only
  rw [hsync, if_neg Bool.false_ne_true]

variable (bank) in
theorem ran_outcome (hidle : book.Idle) (word : BitVec 64) :
    ((bank.chip book).ran decodeRawWord48 word).outcome =
      (bank.executed decodeRawWord48 word).outcome := by
  obtain ⟨taken, htaken, -⟩ := dropPending_chip bank book word
  unfold Chip.ran Bank.executed
  rw [prepareBank_idle decodeRawWord48 hidle, htaken]
  exact regionBarrier_outcome decodeRawWord48
    (propagateCi_outcome decodeRawWord48 bank taken .blank word)

variable (bank) in
theorem ran_state (hidle : book.Idle) (word : BitVec 64) :
    ((bank.chip book).ran decodeRawWord48 word).populated = true ∧
      ((bank.chip book).ran decodeRawWord48 word).submitted = [] ∧
      ((bank.chip book).ran decodeRawWord48 word).state.dispatchedGeneration =
        book.dispatchedGeneration + 1 := by
  obtain ⟨taken, htaken, hgeneration⟩ := dropPending_chip bank book word
  unfold Chip.ran
  rw [prepareBank_idle decodeRawWord48 hidle, htaken, regionBarrier_eq]
  refine ⟨propagateCi_populated decodeRawWord48 (bank.chip taken) word _, rfl, ?_⟩
  dsimp only
  rw [propagateCi_generation decodeRawWord48 _ (chip_populated bank taken), ← hgeneration]
  rfl

theorem commitBank_idle (hidle : book.Idle) (word : BitVec 64) {chip : Chip} (color : BitVec 8)
    (hchip : chip.lazyPopulate = bank.chip book) :
    let ran := (bank.chip book).ran decodeRawWord48 word
    let context := classify ((bank.chip book).setCommitted word) word false
    let published := publishReply ran context (color.getLsbD 0)
    commitBank decodeRawWord48 (fun _ => true) false word chip color =
      (writeCiRw { ran with state := published.1 } published.2, nextColor color context) := by
  have hcontext : (classify ((bank.chip book).setCommitted word) word false).active = true ∧
      (classify ((bank.chip book).setCommitted word) word false).isRunStateCommand =
        isRunStateReadCommand word ∧
      (classify ((bank.chip book).setCommitted word) word false).wroteRunStateSync = false :=
    ⟨rfl, rfl, Bool.and_false _⟩
  obtain ⟨taken, htaken, -⟩ := dropPending_chip bank book word
  unfold commitBank Chip.ran
  rw [hchip, prepareBank_idle decodeRawWord48 hidle, htaken]
  unfold publishBank
  dsimp only
  rw [hcontext.1, hcontext.2.1, hcontext.2.2]
  cases hrun : isRunStateReadCommand word with
  | true => rfl
  | false =>
      have hsubmitted : (propagateCi decodeRawWord48 (fun _ => true) (bank.chip taken)
          word).submitted = [] := propagateCi_submitted decodeRawWord48 _ _ hrun
      rw [regionBarrier_none decodeRawWord48 hsubmitted]
      rfl

theorem classify_waitedGenerations (chip : Chip) (word : BitVec 64) (sync : Bool) :
    (classify chip word sync).waitedGenerations =
      chip.generations (classify chip word sync).waitedMask := by
  unfold CommitBankContext.waitedGenerations CommitBankContext.waitedMask
  split <;> rfl

theorem agrees_idle (hidle : book.Idle) {word : BitVec 64}
    (hmeant : (bank.chip book).state.latched = true → isRunStateReadCommand word = false ∧
      isThreadCommandFrame (bank.chip book) word = false) :
    Agrees decodeRawWord48 (fun _ => true) false (bank.chip book) word := by
  have hrunState : (bank.chip book).state.runStatePending.active = false := hidle.runStatePending
  cases hrun : isRunStateReadCommand word with
  | true =>
      apply (agrees_runState_iff decodeRawWord48 _ false rfl rfl hrun).mpr
      intro i hbit
      have hlatched : (bank.chip book).state.latched = false := by
        cases hlatched : (bank.chip book).state.latched with
        | false => rfl
        | true => simp [(hmeant hlatched).1] at hrun
      rw [runStateMask, if_neg (by simp [hrunState])] at hbit
      exact ⟨hlatched, hbit, rfl⟩
  | false =>
      cases hthread : isThreadCommandFrame (bank.chip book) word with
      | true =>
          apply (agrees_thread_iff decodeRawWord48 _ false rfl rfl hthread
            (refusal_idle bank hidle word)).mpr
          intro _
          cases hlatched : (bank.chip book).state.latched with
          | false => rfl
          | true => simp [(hmeant hlatched).2] at hthread
      | false =>
          unfold Agrees
          simp [prepareBank_waited decodeRawWord48 _ false (refusal_idle bank hidle word), hrun,
            hthread]

theorem unfinishedMask_idle (hidle : book.Idle) {word : BitVec 64}
    (hmeant : (bank.chip book).state.latched = true → isRunStateReadCommand word = false ∧
      isThreadCommandFrame (bank.chip book) word = false) :
    let context := classify ((bank.chip book).setCommitted word) word false
    unfinishedMask ((bank.chip book).ran decodeRawWord48 word) context.waitedMask
      context.waitedGenerations = 0 := by
  have hagrees := agrees_idle decodeRawWord48 hidle hmeant
  unfold Agrees at hagrees
  dsimp only at hagrees ⊢
  apply mask_ext
  intro i hi
  rw [unfinishedMask, maskWhere_getLsbD _ hi, classify_waitedGenerations]
  cases hbit : (classify ((bank.chip book).setCommitted word) word false).waitedMask.getLsbD i with
  | false => simp
  | true =>
      have hgeneration := hagrees i (by rw [prepareBank_idle decodeRawWord48 hidle]; exact hbit)
      rw [Chip.generations, if_pos hbit, Bool.true_and]
      exact beq_eq_false_iff_ne.mpr hgeneration |>.trans (by simp)

theorem asked_idle (hidle : book.Idle) (word : BitVec 64) :
    let context := classify ((bank.chip book).setCommitted word) word false
    bank.asked word =
      if context.deferRunState || context.waitForControlResults then some context.waitedMask
      else none := by
  have hasked : bank.asked word =
      if isRunStateReadCommand word then some (controlExecutionMask (bank.chip book))
      else if isThreadCommandFrame (bank.chip book) word then
        some (reachedMask (bank.chip book) (controlExecutionMask (bank.chip book)) true)
      else none := rfl
  have hmask : runStateMask (bank.chip book) = controlExecutionMask (bank.chip book) :=
    if_neg (by simp [show (bank.chip book).state.runStatePending.active = false from
      hidle.runStatePending])
  have hwaited := prepareBank_waited (fun _ => .empty) (fun _ => true) false
    (refusal_idle bank hidle word)
  have hwaits : ((classify ((bank.chip book).setCommitted word) word false).deferRunState ||
      (classify ((bank.chip book).setCommitted word) word false).waitForControlResults) =
        (isRunStateReadCommand word || isThreadCommandFrame (bank.chip book) word) := by
    change ((isRunStateReadCommand word && _) || ((isRunStateReadCommand word && !(
      isRunStateReadCommand word && _)) || isThreadCommandFrame (bank.chip book) word)) = _
    grind
  rw [prepareBank_idle _ hidle] at hwaited
  dsimp only at hwaited ⊢
  rw [hwaited, hwaits, hasked, hmask]
  cases isRunStateReadCommand word with
  | true => rfl
  | false => cases isThreadCommandFrame (bank.chip book) word <;> rfl

theorem settledReply_answer (hidle : book.Idle) {word : BitVec 64} (expectedSet : Bool)
    (hwaited :
      let context := classify ((bank.chip book).setCommitted word) word false
      unfinishedMask ((bank.chip book).ran decodeRawWord48 word) context.waitedMask
        context.waitedGenerations = 0) :
    settledReply ((bank.chip book).ran decodeRawWord48 word)
        (classify ((bank.chip book).setCommitted word) word false) expectedSet =
      (bank.answer decodeRawWord48 word).word expectedSet := by
  have hword : (classify ((bank.chip book).setCommitted word) word false).ciWord = word := rfl
  have houtcome := ran_outcome decodeRawWord48 bank hidle word
  have hdpus : ((bank.chip book).ran decodeRawWord48 word).dpus =
      (bank.executed decodeRawWord48 word).dpus :=
    congrArg (fun outcome => outcome.bank.dpus) houtcome
  have hpayload : ((bank.chip book).ran decodeRawWord48 word).state.dispatchedPayload =
      (bank.executed decodeRawWord48 word).state.dispatchedPayload :=
    congrArg Outcome.payload houtcome
  have hfuzz : ((bank.chip book).ran decodeRawWord48 word).state.dispatchedNeedsMaskFuzz =
      (bank.executed decodeRawWord48 word).state.dispatchedNeedsMaskFuzz :=
    congrArg Outcome.needsMaskFuzz houtcome
  unfold settledReply Bank.answer
  dsimp only
  rw [hword, resultMask_finished hwaited, asked_idle hidle]
  split
  · rfl
  split
  · rfl
  split
  · unfold Chip.results
    rw [hdpus]
    rfl
  · unfold dispatchedResult
    rw [hpayload, hfuzz]
    dsimp only
    split <;> rfl

theorem nextColor_idle (hidle : book.Idle) (word : BitVec 64) {color : BitVec 8} {bit : Bool}
    (hcolor : color.getLsbD 0 = bit) :
    (nextColor color (classify ((bank.chip book).setCommitted word) word false)).getLsbD 0 =
      colorAfter word bit := by
  have hrefusal : refusal ((bank.chip book).setCommitted word).state word = none :=
    refusal_idle bank hidle word
  have hretries : retries ((bank.chip book).setCommitted word).state word = false :=
    retries_idle bank hidle word
  have hhost : color.getLsbD 0 = (HostBank.mk bit none).color := hcolor
  rw [nextColor_bit false hhost hrefusal, HostBank.commit, hrefusal, hretries]
  unfold colorAfter
  split
  · rename_i hfalse
    cases hfalse
  split <;> rfl

theorem settled_chip {ran : Chip} (word : BitVec 64) (hpopulated : ran.populated = true)
    (hnone : ran.submitted = []) :
    ∃ book : Book, book.Idle ∧ (ran.settled word).lazyPopulateCi = ran.bank.chip book := by
  have hbank : ran.bank.chip (ran.settled word).book = ran.settled word :=
    @bank_chip_book (ran.settled word) hpopulated hnone
  have hci : (ran.settled word).lazyPopulateCi = ran.settled word := if_pos hpopulated
  refine ⟨(ran.settled word).book, ⟨rfl, rfl, rfl⟩, ?_⟩
  rw [hci, hbank]

/-- A commit and the update after it are one step of the machine. -/
theorem exchange_follows {chip : Chip} {color : BitVec 8} {state : ColoredBank}
    (hfollows : Follows chip color state) {word : BitVec 64} (hmeant : state.Meant word) :
    let committed := commitBank decodeRawWord48 (fun _ => true) false word chip color
    ∃ updated, updateBank committed.1 =
        some (updated, (state.next decodeRawWord48 word).2) ∧
      Follows updated committed.2 (state.next decodeRawWord48 word).1 := by
  obtain ⟨book, hidle, hchip⟩ := hfollows.chip
  have hentered := lazyPopulate_chip hchip
  have hwaited := unfinishedMask_idle decodeRawWord48 hidle hmeant
  obtain ⟨hpopulated, hnone, hgeneration⟩ := ran_state decodeRawWord48
    state.bank.populated hidle word
  have hretry : (classify ((state.bank.populated.chip book).setCommitted word) word
      false).retryPendingRunState = false := retries_idle state.bank.populated hidle word
  have hanswered : ((state.bank.populated.chip book).ran decodeRawWord48
      word).state.dispatchedGeneration ≠ book.dispatchedGeneration := by
    rw [hgeneration]
    exact next_generation_ne _
  have hupdate := updateBank_settles (color.getLsbD 0) hpopulated hretry hanswered hwaited
  have hbank : ((state.bank.populated.chip book).ran decodeRawWord48 word).bank =
      (state.bank.populated.executed decodeRawWord48 word).bank :=
    congrArg Outcome.bank (ran_outcome decodeRawWord48 _ hidle word)
  dsimp only at hupdate ⊢
  rw [settledReply_answer decodeRawWord48 hidle _ hwaited, hfollows.color] at hupdate
  rw [commitBank_idle decodeRawWord48 hidle word color hentered, hfollows.color]
  have hsettled := settled_chip ((state.bank.populated.answer decodeRawWord48 word).word
    state.color) hpopulated hnone
  rw [hbank] at hsettled
  exact ⟨_, hupdate, hsettled, nextColor_idle hidle word hfollows.color⟩

theorem commitCommands_isSome (input : Nat → BitVec 64) (rank : Rank) :
    ∃ committed, commitCommands decodeRawWord48 reliableCalls input rank = some committed := by
  have hprepare : ∀ commit : Commit, ∀ bankIdx ∈ List.range kRankNumBanks, ∃ prepared,
      prepareStep decodeRawWord48 reliableCalls input commit bankIdx = some prepared ∧ True := by
    intro commit bankIdx _
    have hpopulate : ∃ populated, tryLazyPopulateDpu reliableCalls commit.rank bankIdx =
        some populated := by
      unfold tryLazyPopulateDpu
      dsimp only
      rw [if_pos (by simp [reliableCalls])]
      exact ⟨_, rfl⟩
    obtain ⟨populated, hpopulated⟩ := hpopulate
    unfold prepareStep
    rw [hpopulated, Option.bind_some]
    dsimp only
    rw [if_neg (by simp [reliableCalls])]
    exact ⟨_, rfl, trivial⟩
  have hpublish : ∀ commit : Commit, ∀ bankIdx ∈ List.range kRankNumBanks, ∃ published,
      publishStep decodeRawWord48 reliableCalls commit bankIdx = some published ∧ True := by
    intro commit bankIdx _
    unfold publishStep
    dsimp only
    rw [if_neg (by simp [reliableCalls])]
    exact ⟨_, rfl, trivial⟩
  obtain ⟨prepared, hprepared⟩ := Transition.run_of_enabled (fun _ => True)
    (fun commit _ => hprepare commit) (s := ⟨rank, fun _ => .empty⟩) trivial
  obtain ⟨published, hpublished⟩ := Transition.run_of_enabled (fun _ => True)
    (fun commit _ => hpublish commit) (s := prepared) trivial
  refine ⟨published.rank, ?_⟩
  unfold commitCommands
  dsimp only
  rw [hprepared, Option.bind_some, hpublished]
  rfl

/-- The host writes a word to every bank and reads the replies. -/
def exchange (rank : Rank) (input : Nat → BitVec 64) : Option (Rank × (Nat → BitVec 64)) :=
  (commitCommands decodeRawWord48 reliableCalls input rank).bind fun committed =>
    (updateCommands committed).map fun update => (update.rank, update.output)

theorem exchange_banks {rank : Rank} {banks : Fin kRankNumBanks → ColoredBank}
    {input : Nat → BitVec 64}
    (h : ∀ i : Fin kRankNumBanks,
      Follows (rank.chips i) (rank.color i) (banks i) ∧ (banks i).Meant (input i)) :
    ∃ final output, exchange decodeRawWord48 rank input = some (final, output) ∧
      ∀ i : Fin kRankNumBanks,
        Follows (final.chips i) (final.color i)
          ((banks i).next decodeRawWord48 (input i)).1 ∧
        output i = ((banks i).next decodeRawWord48 (input i)).2 := by
  obtain ⟨committed, hcommit⟩ := commitCommands_isSome decodeRawWord48 input rank
  obtain ⟨update, hupdate⟩ := updateCommands_isSome fun i hi =>
    commitCommands_populated decodeRawWord48 hcommit hi
  refine ⟨update.rank, update.output, ?_, fun i => ?_⟩
  · unfold exchange
    rw [hcommit, Option.bind_some, hupdate]
    rfl
  · obtain ⟨updated, hbank, hfollows⟩ := exchange_follows decodeRawWord48 (h i).1 (h i).2
    have hcommitted := commitCommands_bank decodeRawWord48 hcommit i.isLt
    obtain ⟨hcolor, hchip⟩ := updateCommands_bank hupdate i.isLt
    have hinvokes : reliableCalls.invokes i = fun _ => true := rfl
    rw [hinvokes, commitBank_sync] at hcommitted
    rw [← hcommitted] at hbank hfollows
    rw [hbank] at hchip
    obtain ⟨hupdated, houtput⟩ := Prod.mk.inj (Option.some.inj hchip)
    rw [hcolor, ← hupdated, ← houtput]
    exact ⟨hfollows, rfl⟩

/-- Over every run of exchanges the rank replies, and each bank's replies are the answers of
its machine: one for each word, in order, whatever the other banks are given. -/
theorem replies_follow {rank : Rank} {banks : Fin kRankNumBanks → ColoredBank}
    (hfollows : ∀ i : Fin kRankNumBanks, Follows (rank.chips i) (rank.color i) (banks i))
    (inputs : List (Nat → BitVec 64))
    (hmeant : ∀ i : Fin kRankNumBanks, Transducer.Takes (ColoredBank.next decodeRawWord48)
      ColoredBank.Meant (banks i) (inputs.map (· i))) :
    ∃ final replies, Transducer.converse (exchange decodeRawWord48) rank inputs =
        some (final, replies) ∧
      ∀ i : Fin kRankNumBanks,
        Follows (final.chips i) (final.color i)
          (Transducer.after (ColoredBank.next decodeRawWord48) (banks i) (inputs.map (· i))) ∧
        replies.map (· i) =
          Transducer.outputs (ColoredBank.next decodeRawWord48) (banks i) (inputs.map (· i)) :=
  Transducer.converse_follows
    (fun (i : Fin kRankNumBanks) (rank : Rank) state => Follows (rank.chips i) (rank.color i) state)
    (fun i (input : Nat → BitVec 64) => input i) (fun i (output : Nat → BitVec 64) => output i)
    (fun _ _ _ h => exchange_banks decodeRawWord48 h) hfollows inputs hmeant

end

def ColoredBank.created : ColoredBank :=
  ⟨(Rank.created.chips 0).lazyPopulateCi.bank, false⟩

theorem created_follows (i : Fin kRankNumBanks) :
    Follows (Rank.created.chips i) (Rank.created.color i) .created :=
  ⟨⟨(Rank.created.chips 0).lazyPopulateCi.book, ⟨rfl, rfl, rfl⟩, rfl⟩, BitVec.getLsbD_zero⟩

theorem replies_follow_created :
    ∃ final replies, Transducer.converse (exchange fun _ => .empty) .created
        [fun _ => 0x01FF00000000FF00, fun i => if i = 0 then 0 else kCiIdentity,
          fun _ => 0x3300000000000284] = some (final, replies) ∧
      replies.map (· 0) = [readyResult false 0, 0, readyResult false 0] ∧
      replies.map (· 1) = [readyResult false 0, readyResult false 1, readyResult true 0] := by
  obtain ⟨final, replies, hrun, hreplies⟩ := replies_follow (fun _ => .empty) created_follows
    [fun _ => 0x01FF00000000FF00, fun i => if i = 0 then 0 else kCiIdentity,
      fun _ => 0x3300000000000284] (by decide +kernel)
  refine ⟨final, replies, hrun, ?_, ?_⟩
  · exact (hreplies ⟨0, by decide⟩).2.trans (by decide +kernel)
  · exact (hreplies ⟨1, by decide⟩).2.trans (by decide +kernel)

end HostPimSim.Upmem
