import HostPimSim.Upmem.Selection
import HostPimSim.Upmem.Transfer

/-! `upmem_ioctl_slice_info` and the masks of a bank after it, over any sequence
of the other calls.  A call that fails leaves what it did before. -/
namespace HostPimSim.Upmem
open Core.Register (Bytes)
open Fallible

/-- The fields of `dpu_configuration_slice_info_abi` that are read. -/
structure SliceInfo where
  enabledDpus : BitVec 32
  allDpusAreEnabled : BitVec 8

def SliceInfo.enabledMask (info : SliceInfo) : BitVec 8 :=
  if info.allDpusAreEnabled ≠ 0 then 0xFF else (info.enabledDpus &&& 0xFF).setWidth 8

def CIState.enable (state : CIState) (enabledMask : BitVec 8) : CIState :=
  { state with
    enabledMask := enabledMask
    selectedMask := enabledMask
    groupMask := fun slot =>
      if slot = 0 then enabledMask else state.groupMask slot &&& enabledMask }

def sliceInfo (rank : Rank) (info : Nat → SliceInfo) : Rank :=
  { rank with chips := fun i =>
      if i < kRankNumBanks then
        { rank.chips i with state := (rank.chips i).state.enable (info i).enabledMask }
      else rank.chips i }

section
variable (decodeRawWord48 : BitVec 64 → RawDecoded48)
variable (calls : CommitCalls) (input : Nat → BitVec 64)

def prepareTurn (commit : Commit) (bankIdx : Nat) : Commit × Bool :=
  let populated := lazyPopulateDpu calls commit.rank bankIdx
  if !populated.2 then ({ commit with rank := populated.1 }, false)
  else
    let prepared := prepareBank decodeRawWord48 (calls.invokes bankIdx)
      (runStateSubmitCount input ≤ 1) (input bankIdx) (populated.1.chips bankIdx)
    let failed := prepared.2.wroteRunStateSync && !calls.barrier bankIdx
    -- what was submitted has not run when the barrier fails
    let chip := if failed then
      (prepareBank decodeRawWord48 (calls.invokes bankIdx) false (input bankIdx)
        (populated.1.chips bankIdx)).1 else prepared.1
    ({ rank := populated.1.setChip bankIdx chip
       contexts := fun i => if i = bankIdx then prepared.2 else commit.contexts i }, !failed)

def publishTurn (commit : Commit) (bankIdx : Nat) : Commit × Bool :=
  match publishStep decodeRawWord48 calls commit bankIdx with
  | some published => (published, true)
  | none => (commit, false)

def commitLeft (rank : Rank) : Rank × Bool :=
  let banks := List.range kRankNumBanks
  let prepared := Transition.attempt (prepareTurn decodeRawWord48 calls input)
    ⟨rank, fun _ => .empty⟩ banks
  if !prepared.2 then (prepared.1.rank, false)
  else
    let published := Transition.attempt (publishTurn decodeRawWord48 calls) prepared.1 banks
    (published.1.rank, published.2)

end

def updateTurn (update : Update) (bankIdx : Nat) : Update × Bool :=
  match updateStep update bankIdx with
  | some updated => (updated, true)
  | none => (update, false)

def updateLeft (rank : Rank) : Rank :=
  (Transition.attempt updateTurn ⟨rank, fun _ => 0⟩ (List.range kRankNumBanks)).1.rank

inductive RankCall
  | commit (calls : CommitCalls) (input : Nat → BitVec 64)
  | update
  | writeToRank (calls : CommitCalls) (tm : Option DpuTransferMram) (host : Bytes)
  | readFromRank (calls : CommitCalls) (tm : Option DpuTransferMram) (host : Bytes)
  | populate (calls : CommitCalls) (dpuGlobalIdx : Nat)

def Rank.call (decodeRawWord48 : BitVec 64 → RawDecoded48) (rank : Rank) : RankCall → Rank
  | .commit calls input => (commitLeft decodeRawWord48 calls input rank).1
  | .update => updateLeft rank
  | .writeToRank calls tm host => (left (hostCopyToRank calls tm) (.start rank host)).rank
  | .readFromRank calls tm host => (left (hostCopyFromRank calls tm) (.start rank host)).rank
  | .populate calls dpuGlobalIdx => (lazyPopulateDpu calls rank dpuGlobalIdx).1

theorem commitCommands_eq (decodeRawWord48 : BitVec 64 → RawDecoded48) (calls : CommitCalls)
    (input : Nat → BitVec 64) (rank : Rank) :
    commitCommands decodeRawWord48 calls input rank =
      if (commitLeft decodeRawWord48 calls input rank).2 then
        some (commitLeft decodeRawWord48 calls input rank).1 else none := by
  have hprepare : ∀ bankIdx ∈ List.range kRankNumBanks, ∀ commit,
      prepareStep decodeRawWord48 calls input commit bankIdx =
        if (prepareTurn decodeRawWord48 calls input commit bankIdx).2 then
          some (prepareTurn decodeRawWord48 calls input commit bankIdx).1 else none := by
    intro bankIdx hbank commit
    unfold prepareStep prepareTurn
    rw [tryLazyPopulateDpu_eq calls commit.rank (List.mem_range.mp hbank)]
    obtain ⟨rank, populated⟩ := lazyPopulateDpu calls commit.rank bankIdx
    cases populated with
    | false => rfl
    | true =>
        rw [if_pos rfl, Option.bind_some]
        dsimp only
        split
        · rename_i hfailed
          simp [hfailed]
        · rename_i hgoes
          simp [Bool.eq_false_iff.mpr hgoes]
  have hpublish : ∀ bankIdx ∈ List.range kRankNumBanks, ∀ commit,
      publishStep decodeRawWord48 calls commit bankIdx =
        if (publishTurn decodeRawWord48 calls commit bankIdx).2 then
          some (publishTurn decodeRawWord48 calls commit bankIdx).1 else none := by
    intro bankIdx _ commit
    unfold publishTurn
    cases publishStep decodeRawWord48 calls commit bankIdx with
    | none => rfl
    | some published => rfl
  unfold commitCommands commitLeft
  dsimp only
  rw [Transition.run_eq_attempt hprepare]
  by_cases hprepared : (Transition.attempt (prepareTurn decodeRawWord48 calls input)
      ⟨rank, fun _ => .empty⟩ (List.range kRankNumBanks)).2 = true
  · rw [if_pos hprepared, Option.bind_some, Transition.run_eq_attempt hpublish]
    simp only [hprepared, Bool.not_true, Bool.false_eq_true, if_false]
    split
    · rfl
    · rfl
  · simp [hprepared]

def Within (enabledMask mask : BitVec 8) : Prop := mask &&& enabledMask = mask

instance (enabledMask mask : BitVec 8) : Decidable (Within enabledMask mask) :=
  inferInstanceAs (Decidable (mask &&& enabledMask = mask))

structure Confined (enabledMask : BitVec 8) (selection : Selection) : Prop where
  selected : Within enabledMask selection.selectedMask
  groups : ∀ slot, Within enabledMask (selection.groupMask slot)

def Allows (enabledMask : BitVec 8) (state : CIState) (ciWord : BitVec 64) : Prop :=
  ∀ mask ∈ takenMask state ciWord, Within enabledMask mask

theorem within_zero (enabledMask : BitVec 8) : Within enabledMask 0 := BitVec.zero_and

theorem selects_confined {enabledMask : BitVec 8} {named : Option (BitVec 8)}
    {before after : Selection} (h : Selects named before after)
    (hnamed : ∀ mask ∈ named, Within enabledMask mask) (hconfined : Confined enabledMask before) :
    Confined enabledMask after := by
  cases h with
  | keep => exact hconfined
  | name h => exact ⟨hnamed _ h, hconfined.groups⟩
  | reset h =>
      refine ⟨hnamed _ h, fun slot => ?_⟩
      dsimp only [resetGroups]
      split
      · exact hnamed _ h
      · exact within_zero enabledMask
  | selectGroup group => exact ⟨hconfined.groups group, hconfined.groups⟩
  | save group =>
      refine ⟨hconfined.selected, fun slot => ?_⟩
      dsimp only
      split
      · exact hconfined.selected
      · exact hconfined.groups slot

theorem enable_confined (chip : Chip) (enabledMask : BitVec 8) :
    Confined enabledMask
      ({ chip with state := chip.state.enable enabledMask } : Chip).selection := by
  refine ⟨BitVec.and_self, fun slot => ?_⟩
  dsimp only [Chip.selection, CIState.enable]
  unfold Within
  split
  · exact BitVec.and_self
  · rw [BitVec.and_assoc, BitVec.and_self]

def Kept (enabledMask : BitVec 8) (chip : Chip) : Prop :=
  chip.populated = true ∧ Confined enabledMask chip.selection

theorem kept_of_selection {enabledMask : BitVec 8} {chip after : Chip}
    (h : after.selection = chip.selection) (hkept : Kept enabledMask chip) :
    Kept enabledMask after := by
  constructor
  · exact (congrArg Selection.populated h).trans hkept.1
  · rw [h]
    exact hkept.2

theorem lazyPopulateDpu_state {rank : Rank} {bankIdx : Nat}
    (h : (rank.chips bankIdx).populated = true) (calls : CommitCalls) (dpuGlobalIdx : Nat) :
    ((lazyPopulateDpu calls rank dpuGlobalIdx).1.chips bankIdx).populated = true ∧
      ((lazyPopulateDpu calls rank dpuGlobalIdx).1.chips bankIdx).state =
        (rank.chips bankIdx).state := by
  have hci : ∀ ciIdx, (((rank.setChip ciIdx (rank.chips ciIdx).lazyPopulateCi).chips
      bankIdx).populated = true ∧ ((rank.setChip ciIdx (rank.chips ciIdx).lazyPopulateCi).chips
        bankIdx).state = (rank.chips bankIdx).state) := by
    intro ciIdx
    rw [setChip_chips]
    split
    · rename_i hbank
      rw [← hbank, Chip.lazyPopulateCi, if_pos h]
      exact ⟨h, rfl⟩
    · exact ⟨h, rfl⟩
  unfold lazyPopulateDpu
  dsimp only
  split
  · exact ⟨h, rfl⟩
  split
  · exact ⟨h, rfl⟩
  split
  · exact hci _
  split
  · exact hci _
  split
  · exact hci _
  · have hset := hci (dpuGlobalIdx % kRankNumBanks)
    unfold Rank.setMram
    rw [setChip_chips]
    split
    · rename_i hbank
      rw [hbank] at hset ⊢
      exact hset
    · exact hset

theorem selection_of_state {chip after : Chip} (hpopulated : after.populated = chip.populated)
    (hstate : after.state = chip.state) : after.selection = chip.selection := by
  unfold Chip.selection
  rw [hpopulated, hstate]

theorem lazyPopulateDpu_kept {enabledMask : BitVec 8} {rank : Rank} {bankIdx : Nat}
    (hkept : Kept enabledMask (rank.chips bankIdx)) (calls : CommitCalls) (dpuGlobalIdx : Nat) :
    Kept enabledMask ((lazyPopulateDpu calls rank dpuGlobalIdx).1.chips bankIdx) := by
  obtain ⟨hpopulated, hstate⟩ := lazyPopulateDpu_state hkept.1 calls dpuGlobalIdx
  exact kept_of_selection (selection_of_state (hpopulated.trans hkept.1.symm) hstate) hkept

section
variable {enabledMask : BitVec 8} {bankIdx : Nat}

theorem prepareTurn_kept (decodeRawWord48 : BitVec 64 → RawDecoded48) (calls : CommitCalls)
    (input : Nat → BitVec 64) {commit : Commit} (i : Nat)
    (hkept : Kept enabledMask (commit.rank.chips bankIdx))
    (hallows : i = bankIdx →
      Allows enabledMask (commit.rank.chips bankIdx).state (input bankIdx)) :
    Kept enabledMask
      ((prepareTurn decodeRawWord48 calls input commit i).1.rank.chips bankIdx) := by
  have hpopulate := lazyPopulateDpu_kept hkept calls i
  have hstate := (lazyPopulateDpu_state hkept.1 calls i).2
  unfold prepareTurn
  dsimp only
  split
  · exact hpopulate
  dsimp only
  rw [setChip_chips]
  split
  · rename_i hbank
    subst hbank
    have hallows := hallows rfl
    rw [← hstate] at hallows
    have htaken : ∀ sync, Kept enabledMask (prepareBank decodeRawWord48 (calls.invokes bankIdx)
        sync (input bankIdx) ((lazyPopulateDpu calls commit.rank bankIdx).1.chips bankIdx)).1 := by
      intro sync
      have hselects := prepareBank_selects decodeRawWord48 (calls.invokes bankIdx) sync
        (input bankIdx) ((lazyPopulateDpu calls commit.rank bankIdx).1.chips bankIdx)
      exact ⟨(selects_populated hselects).trans hpopulate.1,
        selects_confined hselects hallows hpopulate.2⟩
    split
    · exact htaken _
    · exact htaken _
  · exact hpopulate

theorem prepareTurn_other (decodeRawWord48 : BitVec 64 → RawDecoded48) (calls : CommitCalls)
    (input : Nat → BitVec 64) {commit : Commit} {i : Nat} (hi : bankIdx ≠ i)
    (h : (commit.rank.chips bankIdx).populated = true) :
    ((prepareTurn decodeRawWord48 calls input commit i).1.rank.chips bankIdx).state =
      (commit.rank.chips bankIdx).state := by
  have hstate := (lazyPopulateDpu_state h calls i).2
  unfold prepareTurn
  dsimp only
  split
  · exact hstate
  · dsimp only
    rw [setChip_chips, if_neg hi]
    exact hstate

theorem publishTurn_kept (decodeRawWord48 : BitVec 64 → RawDecoded48) (calls : CommitCalls)
    {commit : Commit} (i : Nat) (hkept : Kept enabledMask (commit.rank.chips bankIdx)) :
    Kept enabledMask ((publishTurn decodeRawWord48 calls commit i).1.rank.chips bankIdx) := by
  unfold publishTurn
  cases hstep : publishStep decodeRawWord48 calls commit i with
  | none => exact hkept
  | some published =>
      have hbank := congrArg Prod.fst (publishStep_bank decodeRawWord48 hstep bankIdx)
      change published.rank.chips bankIdx = _ at hbank
      dsimp only
      rw [hbank]
      split
      · exact kept_of_selection (publishBank_selection decodeRawWord48 _ _ _) hkept
      · exact hkept

/-- The word of the bank is taken in one turn; the others leave its state alone. -/
theorem commitLeft_kept (decodeRawWord48 : BitVec 64 → RawDecoded48) (calls : CommitCalls)
    {input : Nat → BitVec 64} {rank : Rank} (hkept : Kept enabledMask (rank.chips bankIdx))
    (hallows : Allows enabledMask (rank.chips bankIdx).state (input bankIdx)) :
    Kept enabledMask ((commitLeft decodeRawWord48 calls input rank).1.chips bankIdx) := by
  obtain ⟨rest, -, hprepared, -⟩ := Transition.attempt_invariant
    (prepareTurn decodeRawWord48 calls input)
    (fun banks commit => banks.Nodup ∧ Kept enabledMask (commit.rank.chips bankIdx) ∧
      (bankIdx ∈ banks → Allows enabledMask (commit.rank.chips bankIdx).state (input bankIdx)))
    ⟨rank, fun _ => .empty⟩ (List.range kRankNumBanks)
    (by
      rintro i banks commit ⟨hnodup, hkept, hallows⟩
      obtain ⟨hi, hnodup⟩ := List.nodup_cons.mp hnodup
      refine ⟨hnodup, prepareTurn_kept decodeRawWord48 calls input i hkept ?_, ?_⟩
      · rintro rfl
        exact hallows List.mem_cons_self
      · intro hbank
        have hother : bankIdx ≠ i := by
          rintro rfl
          exact hi hbank
        rw [prepareTurn_other decodeRawWord48 calls input hother hkept.1]
        exact hallows (List.mem_cons_of_mem i hbank))
    ⟨List.nodup_range, hkept, fun _ => hallows⟩
  unfold commitLeft
  dsimp only
  split
  · exact hprepared
  · obtain ⟨-, hpublished⟩ := Transition.attempt_invariant
      (publishTurn decodeRawWord48 calls)
      (fun _ commit => Kept enabledMask (commit.rank.chips bankIdx)) _
      (List.range kRankNumBanks)
      (fun i _ commit h => publishTurn_kept decodeRawWord48 calls i h) hprepared
    exact hpublished

theorem updateLeft_kept {rank : Rank} (hkept : Kept enabledMask (rank.chips bankIdx)) :
    Kept enabledMask ((updateLeft rank).chips bankIdx) := by
  obtain ⟨-, hupdated⟩ := Transition.attempt_invariant updateTurn
    (fun _ update => Kept enabledMask (update.rank.chips bankIdx))
    ⟨rank, fun _ => 0⟩ (List.range kRankNumBanks)
    (by
      intro i _ update hkept
      unfold updateTurn
      cases hstep : updateStep update i with
      | none => exact hkept
      | some updated =>
          obtain ⟨-, hself, hother⟩ := updateStep_bank hstep bankIdx
          by_cases hi : bankIdx = i
          · exact kept_of_selection (updateBank_selection (hself hi)) hkept
          · dsimp only
            rw [(hother hi).1]
            exact hkept)
    hkept
  exact hupdated

def Rank.Kept (enabledMask : BitVec 8) (bankIdx : Nat) (rank : Rank) : Prop :=
  Upmem.Kept enabledMask (rank.chips bankIdx)

def TransferState.Kept (enabledMask : BitVec 8) (bankIdx : Nat) (s : TransferState) : Prop :=
  s.rank.Kept enabledMask bankIdx

theorem tryLazyPopulate_keeps (calls : CommitCalls) (dpuGlobalIdx : Nat) :
    Keeps (TransferState.Kept enabledMask bankIdx) (tryLazyPopulate calls dpuGlobalIdx) :=
  keeps_bind (keeps_modifyGet fun _ h => lazyPopulateDpu_kept h calls dpuGlobalIdx)
    fun populated => keeps_require populated Errno.enomem

theorem copyDpu_keeps (memcpy : Memcpy) (offset size ptr dpuGlobalIdx : Nat) :
    Keeps (TransferState.Kept enabledMask bankIdx)
      (copyDpu memcpy offset size ptr dpuGlobalIdx) := by
  refine keeps_modifyGet fun s h => kept_of_selection ?_ h
  dsimp only [Rank.setMram]
  rw [setChip_chips]
  split
  · rename_i hbank
    rw [hbank]
    rfl
  · rfl

theorem hostCopyMram_keeps (memcpy : Memcpy) (offset : BitVec 32) (size ptr dpuGlobalIdx : Nat) :
    Keeps (TransferState.Kept enabledMask bankIdx)
      (hostCopyMram memcpy offset size ptr dpuGlobalIdx) := by
  refine keeps_bind (keeps_modifyGet fun _ h => h) fun mapped =>
    keeps_bind (keeps_require _ _) fun _ => ?_
  split
  · exact keeps_pure ()
  · exact keeps_bind (keeps_require _ _) fun _ => copyDpu_keeps memcpy _ _ _ _

theorem hostCopyMramBankGroup_keeps (memcpy : Memcpy) (calls : CommitCalls) (dpuLocalIdx : Nat)
    (mask : BitVec 8) (offset : BitVec 32) (ptrs : Nat → Nat) (size : Nat) :
    Keeps (TransferState.Kept enabledMask bankIdx)
      (hostCopyMramBankGroup memcpy calls dpuLocalIdx mask offset ptrs size) := by
  refine keeps_bind (keeps_require _ _) fun _ => ?_
  split
  · exact keeps_pure ()
  refine keeps_bind (keeps_bind (keeps_require _ _) fun _ => keeps_forM (fun i => ?_) _) fun _ =>
    keeps_forM (fun i => keeps_bind (keeps_require _ _) fun _ => copyDpu_keeps memcpy _ _ _ _) _
  exact keeps_bind (keeps_require _ _) fun _ => keeps_bind (tryLazyPopulate_keeps calls _)
    fun _ => keeps_bind (keeps_modifyGet fun _ h => h) fun _ => keeps_require _ _

theorem hostCopyRank_keeps (memcpy : Memcpy) (calls : CommitCalls)
    (tm : Option DpuTransferMram) :
    Keeps (TransferState.Kept enabledMask bankIdx) (hostCopyRank memcpy calls tm) := by
  unfold hostCopyRank
  split
  · exact keeps_throw Errno.einval
  refine keeps_bind (keeps_require _ _) fun _ => ?_
  split
  · exact keeps_pure ()
  refine keeps_bind ?_ fun _ => keeps_forM (fun i => ?_) _
  · unfold sparseTransfers
    split
    · refine keeps_forM (fun i => ?_) _
      unfold sparseTurn
      split
      · exact keeps_pure ()
      · exact keeps_bind (keeps_modifyGet fun _ h => h) fun _ => keeps_bind (keeps_require _ _)
          fun _ => hostCopyMramBankGroup_keeps memcpy calls _ _ _ _ _
    · exact keeps_pure ()
  · refine keeps_bind (keeps_modifyGet fun _ h => h) fun copied => ?_
    split
    · exact keeps_pure ()
    · exact keeps_bind (tryLazyPopulate_keeps calls i) fun _ => hostCopyMram_keeps memcpy _ _ _ _

/-- What a call asks of a bank is within the enabled mask. -/
def RankCall.Allowed (enabledMask : BitVec 8) (bankIdx : Nat) (rank : Rank) : RankCall → Prop
  | .commit _ input => Allows enabledMask (rank.chips bankIdx).state (input bankIdx)
  | _ => True

theorem call_kept (decodeRawWord48 : BitVec 64 → RawDecoded48) {rank : Rank} (call : RankCall)
    (hkept : Kept enabledMask (rank.chips bankIdx))
    (hallowed : call.Allowed enabledMask bankIdx rank) :
    Kept enabledMask ((rank.call decodeRawWord48 call).chips bankIdx) := by
  cases call with
  | commit calls input => exact commitLeft_kept decodeRawWord48 calls hkept hallowed
  | update => exact updateLeft_kept hkept
  | writeToRank calls tm host => exact hostCopyRank_keeps memcpyToMram calls tm _ hkept
  | readFromRank calls tm host => exact hostCopyRank_keeps memcpyFromMram calls tm _ hkept
  | populate calls dpuGlobalIdx => exact lazyPopulateDpu_kept hkept calls dpuGlobalIdx

end

/-- The calls after `upmem_ioctl_slice_info`, as steps that are always enabled. -/
def callStep (decodeRawWord48 : BitVec 64 → RawDecoded48) (rank : Rank) (call : RankCall) :
    Option Rank :=
  some (rank.call decodeRawWord48 call)

/-- Once a bank is populated, its masks stay within what was enabled as long as
the words it takes bring in no other DPU. -/
theorem masks_stay_enabled (decodeRawWord48 : BitVec 64 → RawDecoded48) {rank final : Rank}
    {info : Nat → SliceInfo} {bankIdx : Nat} {calls : List RankCall}
    (hbank : bankIdx < kRankNumBanks)
    (hpopulated : (rank.chips bankIdx).populated = true ∨ (info bankIdx).enabledMask = 0xFF)
    (hallowed : Transition.Meets (callStep decodeRawWord48)
      (fun rank call => call.Allowed (info bankIdx).enabledMask bankIdx rank)
      (sliceInfo rank info) calls)
    (hrun : Transition.run (callStep decodeRawWord48) (sliceInfo rank info) calls =
      some final) :
    Confined (info bankIdx).enabledMask (final.chips bankIdx).selection := by
  rcases hpopulated with hpopulated | hall
  · have hslice : (sliceInfo rank info).Kept (info bankIdx).enabledMask bankIdx := by
      unfold Rank.Kept sliceInfo
      dsimp only
      rw [if_pos hbank]
      exact ⟨hpopulated, enable_confined _ _⟩
    have hkept : final.Kept (info bankIdx).enabledMask bankIdx := by
      refine Transition.run_invariant_of_meets ?_ hslice hallowed hrun
      intro rank call after hkept hallowed hstep
      cases hstep
      exact call_kept decodeRawWord48 call hkept hallowed
    exact hkept.2
  · rw [hall]
    exact ⟨BitVec.and_allOnes, fun slot => BitVec.and_allOnes⟩

def lastEnabled : Nat → SliceInfo := fun _ => ⟨0x80, 0⟩

def identifiedRank : Rank :=
  Rank.created.call (fun _ => .empty) (.commit reliableCalls fun _ => kCiIdentity)

theorem masks_stay_enabled_lastEnabled :
    ∃ final, Transition.run (callStep fun _ => .empty) (sliceInfo identifiedRank lastEnabled)
        [.commit reliableCalls fun _ => 0x330000000000070A, .update] = some final ∧
      Confined 0x80 (final.chips 0).selection := by
  have hselect : ∀ mask ∈ takenMask
      ((sliceInfo identifiedRank lastEnabled).chips 0).state 0x330000000000070A,
        Within 0x80 mask := by decide +kernel
  have hallowed : Transition.Meets (callStep fun _ => .empty)
      (fun rank call => call.Allowed (lastEnabled 0).enabledMask 0 rank)
      (sliceInfo identifiedRank lastEnabled)
      [.commit reliableCalls fun _ => 0x330000000000070A, .update] :=
    ⟨hselect, fun _ _ => ⟨trivial, fun _ _ => trivial⟩⟩
  have hpopulated : (identifiedRank.chips 0).populated = true := by decide +kernel
  exact ⟨_, rfl, masks_stay_enabled (fun _ => .empty) (by decide) (.inl hpopulated) hallowed rfl⟩

/-- Selecting all DPUs brings in those that are not enabled. -/
theorem select_all_ignores_enabled :
    ¬∀ (decodeRawWord48 : BitVec 64 → RawDecoded48) (info : Nat → SliceInfo)
      (before after : List RankCall) (bankIdx : Nat) (reached final : Rank),
      bankIdx < kRankNumBanks →
      Transition.run (callStep decodeRawWord48) .created before = some reached →
      Transition.run (callStep decodeRawWord48) (sliceInfo reached info) after = some final →
      Confined (info bankIdx).enabledMask (final.chips bankIdx).selection := by
  intro h
  have hconfined := h (fun _ => .empty) lastEnabled
    [.commit reliableCalls fun _ => kCiIdentity]
    [.commit reliableCalls fun _ => 0x330000000000FF08] 0 _ _ (by decide) rfl rfl
  exact absurd hconfined.selected (by decide +kernel)

end HostPimSim.Upmem
