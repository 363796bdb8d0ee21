import HostPimSim.Upmem.Populate
import HostPimSim.Upmem.Selection

/-! Banks do not interfere: what a commit and the update after it do to a bank is
a function of that bank and of its word. -/
namespace HostPimSim.Upmem

/-- Every bank and every DPU is there, and the handlers that were registered for
them are found. -/
structure FullyPopulated (calls : CommitCalls) (rank : Rank) : Prop where
  ci : ∀ i < kRankNumBanks, (rank.chips i).populated = true
  color : rank.ciColorState.isSome = true
  mram : ∀ i < kRankNumDpus, (rank.dpuByGlobal i).mram.bound = true
  handlers : ∀ i < kRankNumBanks, ∀ j < kChipNumDpus, calls.invokes i j = true

structure AgreeOn (bankIdx : Nat) (rank rank' : Rank) : Prop where
  chip : rank.chips bankIdx = rank'.chips bankIdx
  color : rank.color bankIdx = rank'.color bankIdx

section
variable (decodeRawWord48 : BitVec 64 → RawDecoded48)

theorem invokeSelectedHandlers_congr {invokes invokes' : Nat → Bool}
    (h : ∀ i < kChipNumDpus, invokes i = invokes' i) :
    invokeSelectedHandlers decodeRawWord48 invokes =
      invokeSelectedHandlers decodeRawWord48 invokes' := by
  funext chip ciWord mask skipUnbound directControl
  have hinvoked : (maskWhere fun i => (reachedMask chip mask skipUnbound).getLsbD i &&
      invokes i) = maskWhere fun i => (reachedMask chip mask skipUnbound).getLsbD i &&
        invokes' i := by
    apply mask_ext
    intro i hi
    rw [maskWhere_getLsbD _ hi, maskWhere_getLsbD _ hi, h i hi]
  unfold invokeSelectedHandlers
  dsimp only
  rw [hinvoked]

theorem propagateCi_congr {invokes invokes' : Nat → Bool}
    (h : ∀ i < kChipNumDpus, invokes i = invokes' i) :
    propagateCi decodeRawWord48 invokes = propagateCi decodeRawWord48 invokes' := by
  have hinvoke := invokeSelectedHandlers_congr decodeRawWord48 h
  funext chip ciWord
  unfold propagateCi propagateFrame queryFrame commandFrame
  rw [hinvoke]

theorem publishBank_sync {context : CommitBankContext} (hactive : context.active = true)
    (hrun : context.isRunStateCommand = true) (hsync : context.wroteRunStateSync = false)
    (chip : Chip) (color : BitVec 8) :
    publishBank decodeRawWord48 (regionBarrier decodeRawWord48 chip) color
        { context with wroteRunStateSync := true } =
      publishBank decodeRawWord48 chip color context := by
  unfold publishBank
  simp only [hactive, hrun, hsync, Bool.not_true, Bool.not_false, Bool.and_false, Bool.and_true,
    Bool.false_eq_true, if_false, if_true]
  rfl

/-- Which of the two loops has the barrier makes no difference to the bank. -/
theorem commitBank_sync (invokes : Nat → Bool) (sync : Bool) (ciWord : BitVec 64)
    (chip : Chip) (color : BitVec 8) :
    commitBank decodeRawWord48 invokes sync ciWord chip color =
      commitBank decodeRawWord48 invokes false ciWord chip color := by
  cases sync with
  | false => rfl
  | true =>
    unfold commitBank prepareBank
    dsimp only
    split
    · rfl
    · have hlater : (classify (chip.lazyPopulate.setCommitted ciWord) ciWord
          false).wroteRunStateSync = false := Bool.and_false _
      rw [hlater]
      cases hrun : isRunStateReadCommand ciWord with
      | false => simp [classify, hrun]
      | true =>
        have hnow : classify (chip.lazyPopulate.setCommitted ciWord) ciWord true =
            { classify (chip.lazyPopulate.setCommitted ciWord) ciWord false with
              wroteRunStateSync := true } := by
          simp [classify, hrun]
        rw [hnow]
        exact publishBank_sync decodeRawWord48 rfl hrun hlater _ color

theorem commitBank_congr {invokes invokes' : Nat → Bool}
    (h : ∀ i < kChipNumDpus, invokes i = invokes' i) (sync sync' : Bool) (ciWord : BitVec 64)
    (chip : Chip) (color : BitVec 8) :
    commitBank decodeRawWord48 invokes sync ciWord chip color =
      commitBank decodeRawWord48 invokes' sync' ciWord chip color := by
  rw [commitBank_sync decodeRawWord48 invokes sync,
    commitBank_sync decodeRawWord48 invokes' sync']
  unfold commitBank prepareBank
  rw [propagateCi_congr decodeRawWord48 h]

theorem commitBank_populated (invokes : Nat → Bool) (sync : Bool) (ciWord : BitVec 64)
    (chip : Chip) (color : BitVec 8) :
    (commitBank decodeRawWord48 invokes sync ciWord chip color).1.populated = true := by
  have hpublished := congrArg Selection.populated (publishBank_selection decodeRawWord48
    (prepareBank decodeRawWord48 invokes sync ciWord chip.lazyPopulate).1 color
    (prepareBank decodeRawWord48 invokes sync ciWord chip.lazyPopulate).2)
  have hprepared := selects_populated
    (prepareBank_selects decodeRawWord48 invokes sync ciWord chip.lazyPopulate)
  exact hpublished.trans (hprepared.trans (lazyPopulate_populated chip))

theorem commitCommands_populated {calls : CommitCalls} {input : Nat → BitVec 64}
    {rank committed : Rank}
    (h : commitCommands decodeRawWord48 calls input rank = some committed) {i : Nat}
    (hi : i < kRankNumBanks) : (committed.chips i).populated = true := by
  have hbank : committed.chips i = _ :=
    congrArg Prod.fst (commitCommands_bank decodeRawWord48 h hi)
  rw [hbank]
  exact commitBank_populated decodeRawWord48 _ _ _ _ _

end

theorem updateBank_isSome {chip : Chip} (hpopulated : chip.populated = true) :
    ∃ updated output, updateBank chip = some (updated, output) := by
  have hready : ∀ state word, publishReady chip state word =
      some (writeCiRw { chip with state := state } word, word) := fun _ _ => if_pos hpopulated
  unfold updateBank updateRunState updateControl updateDispatch
  simp only [hready]
  repeat' split
  all_goals exact ⟨_, _, rfl⟩

theorem updateCommands_isSome {rank : Rank}
    (hpopulated : ∀ i < kRankNumBanks, (rank.chips i).populated = true) :
    ∃ updated, updateCommands rank = some updated := by
  refine Transition.run_of_enabled
    (fun update => ∀ i < kRankNumBanks, (update.rank.chips i).populated = true) ?_ hpopulated
  intro update hupdate bankIdx hbank
  obtain ⟨chip, output, hchip⟩ := updateBank_isSome (hupdate bankIdx (List.mem_range.mp hbank))
  refine ⟨_, congrArg (Option.map _) hchip, fun i hi => ?_⟩
  dsimp only
  rw [setChip_chips]
  split
  · rename_i heq
    have hkept := congrArg Selection.populated (updateBank_selection hchip)
    rw [heq] at hi
    exact hkept.trans (hupdate bankIdx hi)
  · exact hupdate i hi

/-- The other banks and their words are no part of what a bank does. -/
theorem banks_independent (decodeRawWord48 : BitVec 64 → RawDecoded48) {calls calls' : CommitCalls}
    {input input' : Nat → BitVec 64} {rank rank' committed committed' : Rank} {bankIdx : Nat}
    (hbank : bankIdx < kRankNumBanks)
    (hfull : FullyPopulated calls rank) (hfull' : FullyPopulated calls' rank')
    (hagree : AgreeOn bankIdx rank rank') (hword : input bankIdx = input' bankIdx)
    (h : commitCommands decodeRawWord48 calls input rank = some committed)
    (h' : commitCommands decodeRawWord48 calls' input' rank' = some committed') :
    AgreeOn bankIdx committed committed' ∧
      ∃ updated updated', updateCommands committed = some updated ∧
        updateCommands committed' = some updated' ∧
        AgreeOn bankIdx updated.rank updated'.rank ∧
        updated.output bankIdx = updated'.output bankIdx := by
  have hinvokes : ∀ i < kChipNumDpus, calls.invokes bankIdx i = calls'.invokes bankIdx i := by
    intro i hi
    rw [hfull.handlers bankIdx hbank i hi, hfull'.handlers bankIdx hbank i hi]
  have hbanks := commitCommands_bank decodeRawWord48 h hbank
  rw [hagree.chip, hagree.color, hword, commitBank_congr decodeRawWord48 hinvokes _
    (runStateSubmitCount input' ≤ 1), ← commitCommands_bank decodeRawWord48 h' hbank] at hbanks
  have hcommitted : AgreeOn bankIdx committed committed' :=
    ⟨congrArg Prod.fst hbanks, congrArg Prod.snd hbanks⟩
  obtain ⟨updated, hupdated⟩ := updateCommands_isSome fun i hi =>
    commitCommands_populated decodeRawWord48 h hi
  obtain ⟨updated', hupdated'⟩ := updateCommands_isSome fun i hi =>
    commitCommands_populated decodeRawWord48 h' hi
  obtain ⟨hcolor, hchip⟩ := updateCommands_bank hupdated hbank
  obtain ⟨hcolor', hchip'⟩ := updateCommands_bank hupdated' hbank
  rw [hcommitted.chip, hchip'] at hchip
  have hsame := Option.some.inj hchip
  refine ⟨hcommitted, updated, updated', hupdated, hupdated', ⟨?_, ?_⟩, ?_⟩
  · exact (congrArg Prod.fst hsame).symm
  · rw [hcolor, hcolor', hcommitted.color]
  · exact (congrArg Prod.snd hsame).symm

def idleChip : Chip :=
  ⟨CIState.powerOn.initializeDefaults, true, 0,
    fun _ => { Dpu.powerOn with mram := Dpu.powerOn.mram.allocate }, []⟩

def idleRank : Rank := ⟨fun _ => idleChip, some fun _ => 0⟩

theorem idleRank_full : FullyPopulated reliableCalls idleRank :=
  ⟨fun _ _ => rfl, rfl, fun _ _ => rfl, fun _ _ _ _ => rfl⟩

theorem banks_independent_read :
    ∃ committed committed',
      commitCommands (fun _ => .empty) reliableCalls
        (fun i => if i = 0 then 0x3300000000000284 else kCiIdentity) idleRank = some committed ∧
      commitCommands (fun _ => .empty) reliableCalls
        (fun _ => 0x3300000000000284) (idleRank.setColor 1 1) = some committed' ∧
      committed.color 1 ≠ committed'.color 1 ∧ AgreeOn 0 committed committed' := by
  obtain ⟨committed, h⟩ := Option.isSome_iff_exists.mp
    (by decide +kernel : (commitCommands (fun _ => .empty) reliableCalls
      (fun i => if i = 0 then 0x3300000000000284 else kCiIdentity) idleRank).isSome = true)
  obtain ⟨committed', h'⟩ := Option.isSome_iff_exists.mp
    (by decide +kernel : (commitCommands (fun _ => .empty) reliableCalls
      (fun _ => 0x3300000000000284) (idleRank.setColor 1 1)).isSome = true)
  have hcolor := congrArg Prod.snd (commitCommands_bank _ h (by decide : 1 < kRankNumBanks))
  have hcolor' := congrArg Prod.snd (commitCommands_bank _ h' (by decide : 1 < kRankNumBanks))
  refine ⟨committed, committed', h, h', ?_, ?_⟩
  · change committed.color 1 = _ at hcolor
    change committed'.color 1 = _ at hcolor'
    rw [hcolor, hcolor']
    decide +kernel
  · have hfull : FullyPopulated reliableCalls (idleRank.setColor 1 1) :=
      ⟨fun _ _ => rfl, rfl, fun _ _ => rfl, fun _ _ _ _ => rfl⟩
    have hagree : AgreeOn 0 idleRank (idleRank.setColor 1 1) := ⟨rfl, rfl⟩
    exact (banks_independent _ (by decide) idleRank_full hfull hagree (if_pos rfl) h h').1

end HostPimSim.Upmem
