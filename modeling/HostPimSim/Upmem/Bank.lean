import HostPimSim.Lib.Transducer
import HostPimSim.Upmem.RunState

/-! A bank as the host programs it: registers, DPUs and one answer for each word.  Commits
and updates keep records, generations and the last reply beside this; none of it shows. -/
namespace HostPimSim.Upmem

@[ext] structure Bank where
  pcMode : BitVec 8
  stackUpMask : BitVec 8
  selectedMask : BitVec 8
  groupMask : Nat → BitVec 8
  dmaCtrlReadRegister : BitVec 8
  iramWriteStructureValid : Bool
  iramWriteAddrHi : BitVec 16
  wramWriteStructureValid : Bool
  wramWriteAddr : BitVec 16
  dpus : Nat → Dpu

structure Book where
  committed : BitVec 64
  updated : BitVec 64
  enabledMask : BitVec 8
  structure_ : BitVec 64
  dispatchedPayload : BitVec 32
  dispatchedNeedsMaskFuzz : Bool
  dispatchedGeneration : BitVec 64
  dispatchPending : DispatchPending
  controlPending : ControlPending
  runStatePending : ControlPending
  reply : BitVec 64

def Chip.bank (chip : Chip) : Bank where
  pcMode := chip.state.pcMode
  stackUpMask := chip.state.stackUpMask
  selectedMask := chip.state.selectedMask
  groupMask := chip.state.groupMask
  dmaCtrlReadRegister := chip.state.dmaCtrlReadRegister
  iramWriteStructureValid := chip.state.iramWriteStructureValid
  iramWriteAddrHi := chip.state.iramWriteAddrHi
  wramWriteStructureValid := chip.state.wramWriteStructureValid
  wramWriteAddr := chip.state.wramWriteAddr
  dpus := chip.dpus

def Chip.book (chip : Chip) : Book where
  committed := chip.state.committed
  updated := chip.state.updated
  enabledMask := chip.state.enabledMask
  structure_ := chip.state.structure_
  dispatchedPayload := chip.state.dispatchedPayload
  dispatchedNeedsMaskFuzz := chip.state.dispatchedNeedsMaskFuzz
  dispatchedGeneration := chip.state.dispatchedGeneration
  dispatchPending := chip.state.dispatchPending
  controlPending := chip.state.controlPending
  runStatePending := chip.state.runStatePending
  reply := chip.reply

/-- A chip that has its regions and no handler on its way. -/
def Bank.chip (bank : Bank) (book : Book) : Chip where
  state :=
    { committed := book.committed
      updated := book.updated
      pcMode := bank.pcMode
      stackUpMask := bank.stackUpMask
      selectedMask := bank.selectedMask
      enabledMask := book.enabledMask
      groupMask := bank.groupMask
      dmaCtrlReadRegister := bank.dmaCtrlReadRegister
      structure_ := book.structure_
      iramWriteStructureValid := bank.iramWriteStructureValid
      iramWriteAddrHi := bank.iramWriteAddrHi
      wramWriteStructureValid := bank.wramWriteStructureValid
      wramWriteAddr := bank.wramWriteAddr
      dispatchedPayload := book.dispatchedPayload
      dispatchedNeedsMaskFuzz := book.dispatchedNeedsMaskFuzz
      dispatchedGeneration := book.dispatchedGeneration
      dispatchPending := book.dispatchPending
      controlPending := book.controlPending
      runStatePending := book.runStatePending }
  populated := true
  reply := book.reply
  dpus := bank.dpus
  submitted := []

@[simp] theorem chip_populated (bank : Bank) (book : Book) : (bank.chip book).populated = true :=
  rfl

theorem bank_chip_book {chip : Chip} (hpopulated : chip.populated = true)
    (hnone : chip.submitted = []) : chip.bank.chip chip.book = chip := by
  cases chip
  cases hpopulated
  cases hnone
  rfl

structure Outcome where
  bank : Bank
  payload : BitVec 32
  needsMaskFuzz : Bool
  submitted : List (Nat × BitVec 64)

def Chip.outcome (chip : Chip) : Outcome where
  bank := chip.bank
  payload := chip.state.dispatchedPayload
  needsMaskFuzz := chip.state.dispatchedNeedsMaskFuzz
  submitted := chip.submitted

section
variable (decodeRawWord48 : BitVec 64 → RawDecoded48) (bank : Bank) (book book' : Book)
  (word : BitVec 64)

theorem invokeSelectedHandlers_outcome (mask : BitVec 8) (skipUnbound directControl : Bool) :
    (invokeSelectedHandlers decodeRawWord48 (fun _ => true) (bank.chip book) word mask
        skipUnbound directControl).outcome =
      (invokeSelectedHandlers decodeRawWord48 (fun _ => true) (bank.chip book') word mask
        skipUnbound directControl).outcome := by
  unfold invokeSelectedHandlers
  cases directControl <;> rfl

theorem queryFrame_outcome :
    (queryFrame decodeRawWord48 (fun _ => true) (bank.chip book) word).outcome =
      (queryFrame decodeRawWord48 (fun _ => true) (bank.chip book') word).outcome := by
  unfold queryFrame
  dsimp only
  repeat' split
  all_goals rfl

theorem selectFrame_outcome :
    (selectFrame (bank.chip book) word).map Chip.outcome =
      (selectFrame (bank.chip book') word).map Chip.outcome := by
  unfold selectFrame
  dsimp only
  repeat' split
  all_goals rfl

theorem commandFrame_outcome :
    (commandFrame decodeRawWord48 (fun _ => true) (bank.chip book) word).outcome =
      (commandFrame decodeRawWord48 (fun _ => true) (bank.chip book') word).outcome := by
  have hthread : isThreadCommandWord word (bank.chip book').state.selectedMask =
      isThreadCommandWord word (bank.chip book).state.selectedMask := rfl
  unfold commandFrame
  dsimp only
  rw [hthread]
  split
  · exact invokeSelectedHandlers_outcome decodeRawWord48 bank book book' word _ _ _
  split
  · cases decodeWramReadWordFrame word <;> rfl
  · rfl

theorem dmaCtrlFrame_outcome :
    (dmaCtrlFrame (bank.chip book) word).outcome = (dmaCtrlFrame (bank.chip book') word).outcome := by
  unfold dmaCtrlFrame
  cases decodeDmaCtrlWriteFrame word with
  | none => rfl
  | some row =>
      dsimp only
      split <;> rfl

theorem modeFrame_outcome :
    (modeFrame (bank.chip book) word).outcome = (modeFrame (bank.chip book') word).outcome := by
  unfold modeFrame
  dsimp only
  repeat' split
  all_goals rfl

theorem propagateFrame_outcome :
    (propagateFrame decodeRawWord48 (fun _ => true) (bank.chip book) word).outcome =
      (propagateFrame decodeRawWord48 (fun _ => true) (bank.chip book') word).outcome := by
  have hselect := selectFrame_outcome bank book book' word
  have hiram : (bank.chip book').state.iramWriteStructureValid =
      (bank.chip book).state.iramWriteStructureValid := rfl
  have hwram : (bank.chip book').state.wramWriteStructureValid =
      (bank.chip book).state.wramWriteStructureValid := rfl
  unfold propagateFrame
  dsimp only
  rw [hiram, hwram]
  split
  · rfl
  split
  · rfl
  split
  · cases hframe : selectFrame (bank.chip book) word with
    | none =>
        have hframe' : selectFrame (bank.chip book') word = none := by simpa [hframe] using hselect
        rw [hframe', Option.getD_none, Option.getD_none]
        split
        · exact queryFrame_outcome decodeRawWord48 bank book book' word
        · exact commandFrame_outcome decodeRawWord48 bank book book' word
    | some answered =>
        obtain ⟨answered', hframe', houtcome⟩ : ∃ answered',
            selectFrame (bank.chip book') word = some answered' ∧
              answered'.outcome = answered.outcome := by
          simpa [hframe, eq_comm] using hselect
        rw [hframe']
        exact houtcome.symm
  split
  · exact dmaCtrlFrame_outcome bank book book' word
  split
  · exact modeFrame_outcome bank book book' word
  · exact commandFrame_outcome decodeRawWord48 bank book book' word

theorem propagateCi_outcome :
    (propagateCi decodeRawWord48 (fun _ => true) (bank.chip book) word).outcome =
      (propagateCi decodeRawWord48 (fun _ => true) (bank.chip book') word).outcome := by
  have hcommitted : ∀ book : Book, (bank.chip book).setCommitted word =
      bank.chip { book with committed := word } := fun _ => rfl
  unfold propagateCi
  rw [hcommitted, hcommitted]
  simp only [chip_populated, Bool.not_true, Bool.false_eq_true, if_false]
  split
  · rfl
  split
  · rfl
  split
  · rfl
  split
  · rfl
  split
  · rfl
  · exact propagateFrame_outcome decodeRawWord48 bank _ _ word

end

end HostPimSim.Upmem
