import HostPimSim.Upmem.Commit

/-! What the calls do to the selection of a bank: which words write its masks, and
that nothing else does. -/
namespace HostPimSim.Upmem

structure Selection where
  populated : Bool
  enabledMask : BitVec 8
  selectedMask : BitVec 8
  groupMask : Nat → BitVec 8

def Chip.selection (chip : Chip) : Selection :=
  ⟨chip.populated, chip.state.enabledMask, chip.state.selectedMask, chip.state.groupMask⟩

def selectedByFrame (state : CIState) (ciWord : BitVec 64) : Option (BitVec 8) :=
  if byte ciWord 56 = 0x33 ∧ byte ciWord 48 = 0x00 ∧
      !state.iramWriteStructureValid ∧ !state.wramWriteStructureValid then
    if byte ciWord 0 = 0x08 ∧ byte ciWord 8 = 0xFF then some 0xFF
    else if byte ciWord 0 = 0x0A then some (BitVec.twoPow 8 (byte ciWord 8 &&& 0x7).toNat)
    else none
  else none

def namedMask (state : CIState) (ciWord : BitVec 64) : Option (BitVec 8) :=
  if isSoftwareResetCmd ciWord then some 0xFF else selectedByFrame state ciWord

def takenMask (state : CIState) (ciWord : BitVec 64) : Option (BitVec 8) :=
  if (refusal state ciWord).isSome then none else namedMask state ciWord

def resetGroups : Nat → BitVec 8 := fun slot => if slot = 0 then 0xFF else 0

inductive Selects (named : Option (BitVec 8)) (before : Selection) : Selection → Prop
  | keep : Selects named before before
  | name {mask : BitVec 8} (h : named = some mask) :
      Selects named before { before with selectedMask := mask }
  | reset (h : named = some 0xFF) :
      Selects named before { before with selectedMask := 0xFF, groupMask := resetGroups }
  | selectGroup (group : Nat) :
      Selects named before { before with selectedMask := before.groupMask group }
  | save (group : Nat) :
      Selects named before { before with groupMask := fun slot =>
        if slot = group then before.selectedMask else before.groupMask slot }

section
variable (decodeRawWord48 : BitVec 64 → RawDecoded48) (invokes : Nat → Bool)

structure Replies (chip answered : Chip) : Prop where
  selection : answered.selection = chip.selection
  generation : answered.state.dispatchedGeneration = chip.state.dispatchedGeneration + 1

theorem invoke_replies (chip : Chip) (word : BitVec 64) (mask : BitVec 8)
    (skipUnbound directControl : Bool) :
    Replies chip (invokeSelectedHandlers decodeRawWord48 invokes chip word mask skipUnbound
      directControl) := by
  unfold invokeSelectedHandlers
  dsimp only
  split
  · exact ⟨rfl, rfl⟩
  · exact ⟨rfl, rfl⟩

theorem queryFrame_replies (chip : Chip) (word : BitVec 64) :
    Replies chip (queryFrame decodeRawWord48 invokes chip word) := by
  unfold queryFrame
  dsimp only
  repeat' split
  all_goals exact ⟨rfl, rfl⟩

theorem commandFrame_replies (chip : Chip) (word : BitVec 64) :
    Replies chip (commandFrame decodeRawWord48 invokes chip word) := by
  unfold commandFrame
  dsimp only
  split
  · exact invoke_replies decodeRawWord48 invokes chip word _ _ _
  · split
    · cases decodeWramReadWordFrame word with
      | none => exact ⟨rfl, rfl⟩
      | some wordAddr => exact ⟨rfl, rfl⟩
    · exact ⟨rfl, rfl⟩

theorem dmaCtrlFrame_replies (chip : Chip) (word : BitVec 64) :
    Replies chip (dmaCtrlFrame chip word) := by
  unfold dmaCtrlFrame
  cases decodeDmaCtrlWriteFrame word with
  | none => exact ⟨rfl, rfl⟩
  | some fields =>
      dsimp only
      split
      · exact ⟨rfl, rfl⟩
      · exact ⟨rfl, rfl⟩

theorem modeFrame_replies (chip : Chip) (word : BitVec 64) :
    Replies chip (modeFrame chip word) := by
  unfold modeFrame
  dsimp only
  repeat' split
  all_goals exact ⟨rfl, rfl⟩

theorem selectFrame_selects {chip answered : Chip} {word : BitVec 64}
    (hop : byte word 56 = 0x33) (htag : byte word 48 = 0x00)
    (hiram : chip.state.iramWriteStructureValid = false)
    (hwram : chip.state.wramWriteStructureValid = false)
    (hreset : isSoftwareResetCmd word = false)
    (h : selectFrame chip word = some answered) :
    Selects (namedMask chip.state word) chip.selection answered.selection := by
  unfold selectFrame at h
  dsimp only at h
  split at h
  · rename_i hall
    cases h
    have hnamed : namedMask chip.state word = some 0xFF := by
      simp [namedMask, hreset, selectedByFrame, hop, htag, hiram, hwram, hall]
    exact .name hnamed
  split at h
  · rename_i hall hone
    cases h
    have hnamed : namedMask chip.state word =
        some (BitVec.twoPow 8 (byte word 8 &&& 0x7).toNat) := by
      simp [namedMask, hreset, selectedByFrame, hop, htag, hiram, hwram, hone]
    exact .name hnamed
  split at h
  · cases h
    exact .selectGroup _
  split at h
  · cases h
    exact .save _
  · cases h

theorem propagateFrame_selects (chip : Chip) {word : BitVec 64}
    (hop : byte word 56 = 0x33) (hreset : isSoftwareResetCmd word = false) :
    Selects (namedMask chip.state word) chip.selection
      (propagateFrame decodeRawWord48 invokes chip word).selection := by
  unfold propagateFrame
  dsimp only
  split
  · exact .keep
  split
  · exact .keep
  rename_i hiram hwram
  split
  · rename_i htag
    cases hframe : selectFrame chip word with
    | none =>
        rw [Option.getD_none]
        split
        · rw [(queryFrame_replies decodeRawWord48 invokes chip word).selection]
          exact .keep
        · rw [(commandFrame_replies decodeRawWord48 invokes chip word).selection]
          exact .keep
    | some answered =>
        exact selectFrame_selects hop htag (by simpa using hiram) (by simpa using hwram) hreset
          hframe
  split
  · rw [(dmaCtrlFrame_replies chip word).selection]
    exact .keep
  split
  · rw [(modeFrame_replies chip word).selection]
    exact .keep
  · rw [(commandFrame_replies decodeRawWord48 invokes chip word).selection]
    exact .keep

theorem propagateCi_selects (chip : Chip) (word : BitVec 64) :
    Selects (namedMask chip.state word) chip.selection
      (propagateCi decodeRawWord48 invokes chip word).selection := by
  unfold propagateCi
  dsimp only
  split
  · exact .keep
  split
  · exact .keep
  split
  · rename_i hreset
    exact .reset (by simp [namedMask, hreset])
  split
  · exact .keep
  split
  · exact .keep
  split
  · exact .keep
  · rename_i hreset _ _ hop
    exact propagateFrame_selects decodeRawWord48 invokes (chip.setCommitted word)
      (by simpa using hop) (by simpa using hreset)

theorem regionBarrier_selection (chip : Chip) :
    (regionBarrier decodeRawWord48 chip).selection = chip.selection := by
  have hrun : ∀ (handlers : List (Nat × BitVec 64)) (start : Chip),
      (handlers.foldl (runHandler decodeRawWord48) start).selection = start.selection := by
    intro handlers
    induction handlers with
    | nil => exact fun _ => rfl
    | cons handler rest ih => exact fun start => ih (runHandler decodeRawWord48 start handler)
  exact hrun chip.submitted chip

theorem dropPending_selection (chip : Chip) (word : BitVec 64) :
    (chip.dropPending word).selection = chip.selection ∧
      namedMask (chip.dropPending word).state word = namedMask chip.state word := by
  unfold Chip.dropPending
  split
  · exact ⟨rfl, rfl⟩
  · exact ⟨rfl, rfl⟩

theorem prepareBank_selects (sync : Bool) (word : BitVec 64) (chip : Chip) :
    Selects (takenMask chip.state word) chip.selection
      (prepareBank decodeRawWord48 invokes sync word chip).1.selection := by
  have hrefusal : refusal (chip.setCommitted word).state word = refusal chip.state word := rfl
  unfold prepareBank takenMask
  dsimp only
  rw [hrefusal]
  cases refusal chip.state word with
  | some expectedSet => exact .keep
  | none =>
      have htaken := propagateCi_selects decodeRawWord48 invokes
        ((chip.setCommitted word).dropPending word) word
      rw [(dropPending_selection (chip.setCommitted word) word).1,
        (dropPending_selection (chip.setCommitted word) word).2] at htaken
      rw [Option.isSome_none, if_neg Bool.false_ne_true]
      dsimp only
      split
      · rw [regionBarrier_selection]
        exact htaken
      · exact htaken

theorem publishReply_selection (chip : Chip) (context : CommitBankContext) (expectedSet : Bool) :
    ({ chip with state := (publishReply chip context expectedSet).1 } : Chip).selection =
      chip.selection := by
  unfold publishReply deferRunState waitControl waitDispatch
  dsimp only
  repeat' split
  all_goals rfl

theorem publishBank_selection (chip : Chip) (color : BitVec 8) (context : CommitBankContext) :
    (publishBank decodeRawWord48 chip color context).1.selection = chip.selection := by
  unfold publishBank
  split
  · rfl
  dsimp only
  split
  · exact (publishReply_selection _ context _).trans (regionBarrier_selection decodeRawWord48 chip)
  · exact publishReply_selection chip context _

theorem updateBank_selection {chip updated : Chip} {output : BitVec 64}
    (h : updateBank chip = some (updated, output)) : updated.selection = chip.selection := by
  unfold updateBank updateRunState updateControl updateDispatch publishReady at h
  dsimp only at h
  repeat' split at h
  all_goals cases h
  all_goals rfl

theorem selects_populated {named : Option (BitVec 8)} {before after : Selection}
    (h : Selects named before after) : after.populated = before.populated := by
  cases h with
  | keep => rfl
  | name _ => rfl
  | reset _ => rfl
  | selectGroup _ => rfl
  | save _ => rfl

end

end HostPimSim.Upmem
