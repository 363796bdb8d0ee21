import HostPimSim.Lib.Transition
import HostPimSim.Upmem.Chip

/-! `upmem_ioctl_commit_commands`, where each bank takes its word in a first loop
and publishes its reply in a second, and `upmem_ioctl_update_commands`.  A call
that returns -1 is `none`. -/
namespace HostPimSim.Upmem

def kRankNumBanks : Nat := 8

/-- `ciColorState` is the region of the colour bytes, once it is there. -/
structure Rank where
  chips : Nat → Chip
  ciColorState : Option (Nat → BitVec 8)

def Rank.created : Rank :=
  ⟨fun _ => ⟨.powerOn, false, 0, fun _ => .powerOn, []⟩, none⟩

def Rank.color (rank : Rank) (bankIdx : Nat) : BitVec 8 :=
  (rank.ciColorState.map (· bankIdx)).getD 0

def Rank.setChip (rank : Rank) (bankIdx : Nat) (chip : Chip) : Rank :=
  { rank with chips := fun i => if i = bankIdx then chip else rank.chips i }

def Rank.setColor (rank : Rank) (bankIdx : Nat) (value : BitVec 8) : Rank :=
  { rank with ciColorState := some fun i => if i = bankIdx then value else rank.color i }

/-- Which of the library calls of a commit succeed, for each bank. -/
structure CommitCalls where
  populateCiBank : Nat → Bool
  populateCiColor : Nat → Bool
  allocateMram : Nat → Bool
  populateThread : Nat → Bool
  invokes : Nat → Nat → Bool
  barrier : Nat → Bool

def Chip.lazyPopulateCi (chip : Chip) : Chip :=
  if chip.populated then chip
  else { chip with state := chip.state.initializeDefaults, populated := true }

def Chip.lazyPopulate (chip : Chip) : Chip :=
  let chip := chip.lazyPopulateCi
  { chip with dpus := fun i =>
      if i = 0 then { chip.dpus 0 with mram := (chip.dpus 0).mram.allocate }
      else chip.dpus i }

theorem lazyPopulate_populated (chip : Chip) : chip.lazyPopulate.populated = true := by
  unfold Chip.lazyPopulate Chip.lazyPopulateCi
  dsimp only
  split
  · assumption
  · rfl

def tryLazyPopulateDpu (calls : CommitCalls) (rank : Rank) (bankIdx : Nat) : Option Rank :=
  let chip := rank.chips bankIdx
  if (chip.populated || calls.populateCiBank bankIdx) && calls.populateCiColor bankIdx &&
      ((chip.dpus 0).mram.bound ||
        (calls.allocateMram bankIdx && calls.populateThread bankIdx)) then
    some { rank.setChip bankIdx chip.lazyPopulate with
      ciColorState := some (rank.ciColorState.getD fun _ => 0) }
  else none

/-- The pending arrays of the source are `pendingMask` and the generations of
its DPUs. -/
structure CommitBankContext where
  active : Bool
  ciWord : BitVec 64
  dispatchGenerationBefore : BitVec 64
  selectedMask : BitVec 8
  isRunStateCommand : Bool
  wroteRunStateSync : Bool
  isThreadCommand : Bool
  waitForControlResults : Bool
  deferRunState : Bool
  retryPendingRunState : Bool
  pendingExpectedSet : Bool
  runStatePendingMask : BitVec 8
  runStatePendingGenerations : Nat → BitVec 64
  pendingMask : BitVec 8
  pendingGenerations : Nat → BitVec 64

def CommitBankContext.empty : CommitBankContext :=
  ⟨false, 0, 0, 0, false, false, false, false, false, false, false, 0, fun _ => 0, 0,
    fun _ => 0⟩

def hasSingleSelectedDpu (selectedMask : BitVec 8) : Bool :=
  selectedMask ≠ 0 && selectedMask &&& (selectedMask - 1) = 0

def hasActiveRunSelected (chip : Chip) (selectedMask : BitVec 8) : Bool :=
  selectedMask ≠ 0 && (List.range kChipNumDpus).any fun i =>
    selectedMask.getLsbD i && (chip.dpus i).runBits ≠ 0

def Chip.generations (chip : Chip) (mask : BitVec 8) : Nat → BitVec 64 := fun i =>
  if mask.getLsbD i then (chip.dpus i).lastControlGeneration else 0

def refusal (state : CIState) (ciWord : BitVec 64) : Option Bool :=
  if isRunStateReadCommand ciWord then none
  else if state.controlPending.active then some state.controlPending.expectedSet
  else if state.dispatchPending.active &&
      state.dispatchedGeneration == state.dispatchPending.dispatchGenerationBefore then
    some state.dispatchPending.expectedSet
  else none

def Chip.dropPending (chip : Chip) (ciWord : BitVec 64) : Chip :=
  if isRunStateReadCommand ciWord then chip
  else
    { chip with state := { chip.state with
        dispatchPending :=
          if chip.state.dispatchPending.active then .cleared else chip.state.dispatchPending
        runStatePending := .cleared } }

def retries (state : CIState) (ciWord : BitVec 64) : Bool :=
  isRunStateReadCommand ciWord && state.runStatePending.active

def retryMask (chip : Chip) : BitVec 8 :=
  let pending := chip.state.runStatePending
  if pending.executionMask ≠ 0 then pending.executionMask
  else if pending.selectedMask ≠ 0 then
    if getBoundMask chip pending.selectedMask = 0 then pending.selectedMask
    else getBoundMask chip pending.selectedMask
  else controlExecutionMask chip

def isThreadCommandFrame (chip : Chip) (ciWord : BitVec 64) : Bool :=
  !isRunStateReadCommand ciWord && byte ciWord 56 == 0x33 && byte ciWord 48 == 0x98 &&
    isThreadCommandWord ciWord chip.state.selectedMask

def defers (chip : Chip) : Bool :=
  hasSingleSelectedDpu (controlExecutionMask chip) &&
    hasActiveRunSelected chip (controlExecutionMask chip)

def classify (chip : Chip) (ciWord : BitVec 64) (sync : Bool) : CommitBankContext :=
  let runState := isRunStateReadCommand ciWord
  let retry := retries chip.state ciWord
  let defer := runState && (retry || defers chip)
  let thread := isThreadCommandFrame chip ciWord
  let wait := (runState && !defer) || thread
  let runStateMask :=
    if retry then retryMask chip else if defer then controlExecutionMask chip else 0
  let pendingMask :=
    if wait then reachedMask chip (controlExecutionMask chip) thread else 0
  { active := true
    ciWord := ciWord
    dispatchGenerationBefore := chip.state.dispatchedGeneration
    selectedMask := chip.state.selectedMask
    isRunStateCommand := runState
    wroteRunStateSync := runState && sync
    isThreadCommand := thread
    waitForControlResults := wait
    deferRunState := defer
    retryPendingRunState := retry
    pendingExpectedSet := retry && chip.state.runStatePending.expectedSet
    runStatePendingMask := runStateMask
    runStatePendingGenerations := chip.generations runStateMask
    pendingMask := pendingMask
    pendingGenerations := chip.generations pendingMask }

/-- `write_ci_rw`. -/
def writeCiRw (chip : Chip) (word : BitVec 64) : Chip :=
  { chip with reply := word, state := { chip.state with updated := word } }

section
variable (decodeRawWord48 : BitVec 64 → RawDecoded48)

/-- One turn of the first loop, on a populated bank. -/
def prepareBank (invokes : Nat → Bool) (sync : Bool) (ciWord : BitVec 64) (chip : Chip) :
    Chip × CommitBankContext :=
  let chip := chip.setCommitted ciWord
  match refusal chip.state ciWord with
  | some expectedSet => (writeCiRw chip (runStatePendingNop expectedSet), .empty)
  | none =>
      let context := classify chip ciWord sync
      let executed := propagateCi decodeRawWord48 invokes (chip.dropPending ciWord) ciWord
      (if context.wroteRunStateSync then regionBarrier decodeRawWord48 executed else executed,
        context)

def unfinishedMask (chip : Chip) (mask : BitVec 8) (generations : Nat → BitVec 64) :
    BitVec 8 :=
  maskWhere fun i => mask.getLsbD i && (chip.dpus i).lastControlGeneration == generations i

def resultMask (chip : Chip) (mask : BitVec 8) (generations : Nat → BitVec 64) : BitVec 8 :=
  maskWhere fun i => mask.getLsbD i && (chip.dpus i).lastControlGeneration != generations i &&
    (chip.dpus i).lastControlResult != 0

def CIState.clearPending (state : CIState) : CIState :=
  { state with
    dispatchPending := .cleared
    controlPending := .cleared
    runStatePending := .cleared }

def waitControl (chip : Chip) (context : CommitBankContext) (expectedSet : Bool) :
    CIState × BitVec 64 :=
  let unfinished := unfinishedMask chip context.pendingMask context.pendingGenerations
  let payload := resultMask chip context.pendingMask context.pendingGenerations
  let record : ControlPending :=
    { expectedSet := expectedSet
      dispatchGenerationBefore := context.dispatchGenerationBefore
      selectedMask := context.selectedMask
      executionMask := unfinished
      payload := payload
      controlGenerations := fun i =>
        if unfinished.getLsbD i then context.pendingGenerations i else 0
      active := true }
  if unfinished = 0 then
    (chip.state.clearPending, readyResult expectedSet (payload.setWidth 32))
  else if context.isThreadCommand then
    ({ chip.state.clearPending with controlPending := record }, runStatePendingNop expectedSet)
  else
    ({ chip.state.clearPending with runStatePending := record }, runStatePendingNop expectedSet)

def deferRunState (chip : Chip) (context : CommitBankContext) (expectedSet : Bool) :
    CIState × BitVec 64 :=
  let pendingExpected :=
    if context.retryPendingRunState then context.pendingExpectedSet else expectedSet
  ({ chip.state.clearPending with
      runStatePending :=
        { expectedSet := pendingExpected
          dispatchGenerationBefore := context.dispatchGenerationBefore
          selectedMask := context.selectedMask
          executionMask := context.runStatePendingMask
          payload := 0
          controlGenerations := context.runStatePendingGenerations
          active := true } },
    runStatePendingNop pendingExpected)

def dispatchedResult (state : CIState) (expectedSet : Bool) : BitVec 64 :=
  if state.dispatchedNeedsMaskFuzz then nopStyleResult expectedSet state.dispatchedPayload
  else readyResult expectedSet state.dispatchedPayload

def waitDispatch (state : CIState) (context : CommitBankContext) (expectedSet : Bool) :
    CIState × BitVec 64 :=
  if state.dispatchedGeneration = context.dispatchGenerationBefore then
    ({ state with
        dispatchPending := ⟨expectedSet, context.dispatchGenerationBefore, true⟩
        runStatePending := .cleared },
      runStatePendingNop expectedSet)
  else (state.clearPending, dispatchedResult state expectedSet)

def publishReply (chip : Chip) (context : CommitBankContext) (expectedSet : Bool) :
    CIState × BitVec 64 :=
  if context.ciWord = ciEmptyCmd then (chip.state.clearPending, ciEmptyCmd)
  else if context.ciWord = kCiByteOrder then (chip.state.clearPending, ciByteOrderUpdated)
  else if context.deferRunState then deferRunState chip context expectedSet
  else if context.waitForControlResults then waitControl chip context expectedSet
  else waitDispatch chip.state context expectedSet

def advancesColor (context : CommitBankContext) : Bool :=
  context.ciWord ≠ ciEmptyCmd && !(context.deferRunState && context.retryPendingRunState)

def nextColor (color : BitVec 8) (context : CommitBankContext) : BitVec 8 :=
  if !advancesColor context then color
  else if isSoftwareResetCmd context.ciWord then 0
  else (color ^^^ 1) &&& 1

/-- One turn of the second loop: the bank and its colour. -/
def publishBank (chip : Chip) (color : BitVec 8) (context : CommitBankContext) :
    Chip × BitVec 8 :=
  if !context.active then (chip, color)
  else
    let chip := if context.isRunStateCommand && !context.wroteRunStateSync then
      regionBarrier decodeRawWord48 chip else chip
    let published := publishReply chip context (color.getLsbD 0)
    (writeCiRw { chip with state := published.1 } published.2, nextColor color context)

structure Commit where
  rank : Rank
  contexts : Nat → CommitBankContext

variable (calls : CommitCalls) (input : Nat → BitVec 64)

def runStateSubmitCount (input : Nat → BitVec 64) : Nat :=
  ((List.range kRankNumBanks).filter fun i => isRunStateReadCommand (input i)).length

def prepareStep (commit : Commit) (bankIdx : Nat) : Option Commit :=
  (tryLazyPopulateDpu calls commit.rank bankIdx).bind fun rank =>
    let prepared := prepareBank decodeRawWord48 (calls.invokes bankIdx)
      (runStateSubmitCount input ≤ 1) (input bankIdx) (rank.chips bankIdx)
    if prepared.2.wroteRunStateSync && !calls.barrier bankIdx then none
    else some
      { rank := rank.setChip bankIdx prepared.1
        contexts := fun i => if i = bankIdx then prepared.2 else commit.contexts i }

def publishStep (commit : Commit) (bankIdx : Nat) : Option Commit :=
  let context := commit.contexts bankIdx
  if context.active && context.isRunStateCommand && !context.wroteRunStateSync &&
      !calls.barrier bankIdx then none
  else
    let published := publishBank decodeRawWord48 (commit.rank.chips bankIdx)
      (commit.rank.color bankIdx) context
    some { commit with
      rank := (commit.rank.setChip bankIdx published.1).setColor bankIdx published.2 }

def commitCommands (rank : Rank) : Option Rank :=
  let banks := List.range kRankNumBanks
  (Transition.run (prepareStep decodeRawWord48 calls input) ⟨rank, fun _ => .empty⟩
    banks).bind fun prepared =>
      (Transition.run (publishStep decodeRawWord48 calls) prepared banks).map Commit.rank

end

/-- What one more look at the DPUs makes of a record: the payload if all are
finished, the record to keep if not. -/
def ControlPending.poll (record : ControlPending) (chip : Chip) :
    ControlPending ⊕ BitVec 8 :=
  let dispatchNow := chip.state.dispatchedGeneration
  if dispatchNow = record.dispatchGenerationBefore then .inl record
  else
    let unfinished := unfinishedMask chip record.executionMask record.controlGenerations
    let payload := record.payload |||
      resultMask chip record.executionMask record.controlGenerations
    if unfinished = 0 then .inr payload
    else
      -- the source looks once more at those that were not finished
      let refreshed := unfinishedMask chip unfinished record.controlGenerations
      let payload := payload ||| resultMask chip unfinished record.controlGenerations
      if refreshed = 0 then .inr payload
      else .inl
        { record with
          dispatchGenerationBefore := if dispatchNow = 0 then 0 else dispatchNow - 1
          executionMask := refreshed
          payload := payload
          controlGenerations := chip.generations refreshed }

def publishReady (chip : Chip) (state : CIState) (word : BitVec 64) :
    Option (Chip × BitVec 64) :=
  if chip.populated then some (writeCiRw { chip with state := state } word, word) else none

def updateRunState (chip : Chip) : Option (Chip × BitVec 64) :=
  let pending := chip.state.runStatePending
  match pending.poll chip with
  | .inl record =>
      some ({ chip with state := { chip.state with runStatePending := record } },
        runStatePendingNop pending.expectedSet)
  | .inr payload =>
      publishReady chip chip.state.clearPending
        (readyResult pending.expectedSet (payload.setWidth 32))

def updateControl (chip : Chip) : Option (Chip × BitVec 64) :=
  let pending := chip.state.controlPending
  match pending.poll chip with
  | .inl record =>
      some ({ chip with state := { chip.state with controlPending := record } },
        runStatePendingNop pending.expectedSet)
  | .inr payload =>
      publishReady chip
        { chip.state with controlPending := .cleared, dispatchPending := .cleared }
        (readyResult pending.expectedSet (payload.setWidth 32))

def updateDispatch (chip : Chip) : Option (Chip × BitVec 64) :=
  let pending := chip.state.dispatchPending
  if chip.state.dispatchedGeneration = pending.dispatchGenerationBefore then
    some (chip, runStatePendingNop pending.expectedSet)
  else
    publishReady chip { chip.state with dispatchPending := .cleared }
      (dispatchedResult chip.state pending.expectedSet)

def updateBank (chip : Chip) : Option (Chip × BitVec 64) :=
  if chip.state.runStatePending.active then updateRunState chip
  else if chip.state.controlPending.active then updateControl chip
  else if chip.state.dispatchPending.active then updateDispatch chip
  else some (chip, chip.state.updated)

structure Update where
  rank : Rank
  output : Nat → BitVec 64

def updateStep (update : Update) (bankIdx : Nat) : Option Update :=
  (updateBank (update.rank.chips bankIdx)).map fun updated =>
    { rank := update.rank.setChip bankIdx updated.1
      output := fun i => if i = bankIdx then updated.2 else update.output i }

def updateCommands (rank : Rank) : Option Update :=
  Transition.run updateStep ⟨rank, fun _ => 0⟩ (List.range kRankNumBanks)

@[simp] theorem setChip_color (rank : Rank) (bankIdx i : Nat) (chip : Chip) :
    (rank.setChip bankIdx chip).color i = rank.color i := rfl

@[simp] theorem setColor_color (rank : Rank) (bankIdx i : Nat) (value : BitVec 8) :
    (rank.setColor bankIdx value).color i = if i = bankIdx then value else rank.color i := rfl

@[simp] theorem setColor_chips (rank : Rank) (bankIdx : Nat) (value : BitVec 8) :
    (rank.setColor bankIdx value).chips = rank.chips := rfl

@[simp] theorem setChip_chips (rank : Rank) (bankIdx i : Nat) (chip : Chip) :
    (rank.setChip bankIdx chip).chips i = if i = bankIdx then chip else rank.chips i := rfl

theorem tryLazyPopulateDpu_bank {calls : CommitCalls} {rank populated : Rank} {bankIdx : Nat}
    (h : tryLazyPopulateDpu calls rank bankIdx = some populated) (i : Nat) :
    populated.chips i = (if i = bankIdx then (rank.chips i).lazyPopulate else rank.chips i) ∧
      populated.color i = rank.color i := by
  unfold tryLazyPopulateDpu at h
  dsimp only at h
  split at h
  · cases h
    constructor
    · simp only [setChip_chips]
      split
      · rename_i hi
        rw [hi]
      · rfl
    · cases hcolor : rank.ciColorState <;> simp [Rank.color, hcolor]
  · cases h

section
variable (decodeRawWord48 : BitVec 64 → RawDecoded48)

def commitBank (invokes : Nat → Bool) (sync : Bool) (ciWord : BitVec 64) (chip : Chip)
    (color : BitVec 8) : Chip × BitVec 8 :=
  let prepared := prepareBank decodeRawWord48 invokes sync ciWord chip.lazyPopulate
  publishBank decodeRawWord48 prepared.1 color prepared.2

variable {calls : CommitCalls} {input : Nat → BitVec 64}

def Commit.bank (commit : Commit) (i : Nat) : Chip × BitVec 8 × CommitBankContext :=
  (commit.rank.chips i, commit.rank.color i, commit.contexts i)

theorem prepareStep_bank {commit prepared : Commit} {bankIdx : Nat}
    (h : prepareStep decodeRawWord48 calls input commit bankIdx = some prepared) (i : Nat) :
    prepared.bank i =
      if i = bankIdx then
        let turn := prepareBank decodeRawWord48 (calls.invokes i)
          (runStateSubmitCount input ≤ 1) (input i) (commit.rank.chips i).lazyPopulate
        (turn.1, commit.rank.color i, turn.2)
      else commit.bank i := by
  unfold prepareStep at h
  obtain ⟨populated, hpopulated, h⟩ := Option.bind_eq_some_iff.mp h
  dsimp only at h
  obtain ⟨hchip, hcolor⟩ := tryLazyPopulateDpu_bank hpopulated i
  split at h
  · cases h
  · cases h
    by_cases hi : i = bankIdx
    · subst hi
      rw [if_pos rfl] at hchip
      simp [Commit.bank, hchip, hcolor]
    · rw [if_neg hi] at hchip
      simp [Commit.bank, hi, hchip, hcolor]

theorem publishStep_bank {commit published : Commit} {bankIdx : Nat}
    (h : publishStep decodeRawWord48 calls commit bankIdx = some published) (i : Nat) :
    published.bank i =
      if i = bankIdx then
        let turn := publishBank decodeRawWord48 (commit.rank.chips i) (commit.rank.color i)
          (commit.contexts i)
        (turn.1, turn.2, commit.contexts i)
      else commit.bank i := by
  unfold publishStep at h
  dsimp only at h
  split at h
  · cases h
  · cases h
    by_cases hi : i = bankIdx
    · subst hi
      simp [Commit.bank]
    · simp [Commit.bank, hi]

theorem commitCommands_bank {rank committed : Rank}
    (h : commitCommands decodeRawWord48 calls input rank = some committed) {i : Nat}
    (hi : i < kRankNumBanks) :
    (committed.chips i, committed.color i) =
      commitBank decodeRawWord48 (calls.invokes i) (runStateSubmitCount input ≤ 1) (input i)
        (rank.chips i) (rank.color i) := by
  unfold commitCommands at h
  obtain ⟨prepared, hprepare, h⟩ := Option.bind_eq_some_iff.mp h
  obtain ⟨published, hpublish, rfl⟩ := Option.map_eq_some_iff.mp h
  have hfirst := (Transition.run_pointwise Commit.bank
    (fun j before after => after =
      let turn := prepareBank decodeRawWord48 (calls.invokes j) (runStateSubmitCount input ≤ 1)
        (input j) before.1.lazyPopulate
      (turn.1, before.2.1, turn.2))
    (fun s j t ht => by rw [prepareStep_bank decodeRawWord48 ht, if_pos rfl]; rfl)
    (fun s j t k ht hk => by rw [prepareStep_bank decodeRawWord48 ht, if_neg hk])
    List.nodup_range hprepare i).1 (List.mem_range.mpr hi)
  have hsecond := (Transition.run_pointwise Commit.bank
    (fun _ before after => after =
      let turn := publishBank decodeRawWord48 before.1 before.2.1 before.2.2
      (turn.1, turn.2, before.2.2))
    (fun s j t ht => by rw [publishStep_bank decodeRawWord48 ht, if_pos rfl]; rfl)
    (fun s j t k ht hk => by rw [publishStep_bank decodeRawWord48 ht, if_neg hk])
    List.nodup_range hpublish i).1 (List.mem_range.mpr hi)
  rw [hfirst] at hsecond
  exact congrArg (fun bank => (bank.1, bank.2.1)) hsecond

end

theorem updateStep_bank {update updated : Update} {bankIdx : Nat}
    (h : updateStep update bankIdx = some updated) (i : Nat) :
    updated.rank.color i = update.rank.color i ∧
      (i = bankIdx → updateBank (update.rank.chips i) =
        some (updated.rank.chips i, updated.output i)) ∧
      (i ≠ bankIdx → updated.rank.chips i = update.rank.chips i ∧
        updated.output i = update.output i) := by
  unfold updateStep at h
  obtain ⟨bank, hbank, rfl⟩ := Option.map_eq_some_iff.mp h
  refine ⟨rfl, ?_, ?_⟩
  · rintro rfl
    simpa using hbank
  · intro hi
    simp [hi]

theorem updateCommands_bank {rank : Rank} {updated : Update}
    (h : updateCommands rank = some updated) {i : Nat} (hi : i < kRankNumBanks) :
    updated.rank.color i = rank.color i ∧
      updateBank (rank.chips i) = some (updated.rank.chips i, updated.output i) := by
  have hbank := (Transition.run_pointwise
    (fun (update : Update) j =>
      (update.rank.chips j, update.output j, update.rank.color j))
    (fun _ before after => after.2.2 = before.2.2 ∧
      updateBank before.1 = some (after.1, after.2.1))
    (fun s j t ht => ⟨(updateStep_bank ht j).1, (updateStep_bank ht j).2.1 rfl⟩)
    (fun s j t k ht hk => by
      obtain ⟨hcolor, -, hother⟩ := updateStep_bank ht k
      rw [(hother hk).1, (hother hk).2, hcolor])
    List.nodup_range h i).1 (List.mem_range.mpr hi)
  exact hbank

end HostPimSim.Upmem
