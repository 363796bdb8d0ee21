import HostPimSim.Upmem.Agreement
import HostPimSim.Upmem.Selection

/-! The colour of the replies.  The host knows a bank by its colour and by the
last command it accepted with the colour before it; what the banks publish has
to be read that way, over every run of commits and updates. -/
namespace HostPimSim.Upmem

structure HostBank where
  color : Bool
  command : Option (BitVec 64 × Bool)

/-- What committing `word` is to the host.  A word that is refused for a pending
reply and the repetition of a run-state read leave everything as it is. -/
def HostBank.commit (host : HostBank) (state : CIState) (word : BitVec 64) : HostBank :=
  if (refusal state word).isSome || retries state word then host
  else if word = ciEmptyCmd then { host with command := none }
  else
    { color := if isSoftwareResetCmd word then false else !host.color
      command := some (word, host.color) }

def Carries (word : BitVec 64) (color : Bool) : Prop :=
  byte word 48 = if color then 0xFF else 0x00

/-- The colour is that of before the command once the reply is ready, and the
other one until then. -/
def Colored (host : HostBank) (ready : Bool) (word : BitVec 64) : Prop :=
  ∀ command color, host.command = some (command, color) → command ≠ kCiByteOrder →
    Carries word (if ready then color else !color)

def CIState.pending (state : CIState) : Bool :=
  state.runStatePending.active || state.controlPending.active || state.dispatchPending.active

structure PendingTracks (state : CIState) (host : HostBank) : Prop where
  runState : state.runStatePending.active = true →
    ∃ command, host.command = some (command, state.runStatePending.expectedSet)
  control : state.controlPending.active = true →
    ∃ command, host.command = some (command, state.controlPending.expectedSet)
  dispatch : state.dispatchPending.active = true →
    ∃ command, host.command = some (command, state.dispatchPending.expectedSet)

structure Published (state : CIState) (host : HostBank) (word : BitVec 64) : Prop where
  tracks : PendingTracks state host
  colored : Colored host (!state.pending) word
  updated : state.pending = false → Colored host true state.updated

def Answers (reply : CIState × BitVec 64) (host : HostBank) : Prop :=
  Published { reply.1 with updated := reply.2 } host reply.2

theorem byte_payload (payload : BitVec 32) : byte (payload.setWidth 64) 48 = 0 := by
  refine BitVec.eq_of_getLsbD_eq fun i hi => ?_
  simp only [byte, BitVec.getLsbD_setWidth, BitVec.getLsbD_ushiftRight]
  rw [BitVec.getLsbD_of_ge payload (48 + i) (by omega)]
  simp

theorem carries_readyResult (color : Bool) (payload : BitVec 32) :
    Carries (readyResult color payload) color := by
  unfold Carries readyResult
  rw [byte_or, byte_or, byte_payload]
  cases color <;> decide

theorem carries_nopStyleResult (color : Bool) (payload : BitVec 32) :
    Carries (nopStyleResult color payload) color := by
  unfold Carries nopStyleResult
  rw [byte_or, byte_or, byte_payload]
  cases color <;> decide

theorem carries_runStatePendingNop (expectedSet : Bool) :
    Carries (runStatePendingNop expectedSet) (!expectedSet) :=
  carries_nopStyleResult (!expectedSet) 0

theorem carries_dispatchedResult (state : CIState) (expectedSet : Bool) :
    Carries (dispatchedResult state expectedSet) expectedSet := by
  unfold dispatchedResult
  split
  · exact carries_nopStyleResult expectedSet _
  · exact carries_readyResult expectedSet _

theorem colored_of_command {host : HostBank} {word : BitVec 64} {expectedSet ready : Bool}
    (hcommand : ∃ command, host.command = some (command, expectedSet))
    (hword : Carries word (if ready then expectedSet else !expectedSet)) :
    Colored host ready word := by
  intro command color hhost _
  obtain ⟨known, hknown⟩ := hcommand
  rw [hknown] at hhost
  cases hhost
  exact hword

theorem tracks_of_idle {state : CIState} (host : HostBank) (hpending : state.pending = false) :
    PendingTracks state host := by
  unfold CIState.pending at hpending
  simp only [Bool.or_eq_false_iff] at hpending
  obtain ⟨⟨hrunState, hcontrol⟩, hdispatch⟩ := hpending
  refine ⟨?_, ?_, ?_⟩
  · simp [hrunState]
  · simp [hcontrol]
  · simp [hdispatch]

theorem published_ready {state : CIState} {host : HostBank} {word : BitVec 64}
    (hpending : state.pending = false) (hupdated : state.updated = word)
    (hcolored : Colored host true word) : Published state host word := by
  refine ⟨tracks_of_idle host hpending, ?_, ?_⟩
  · rw [hpending]
    exact hcolored
  · intro _
    rw [hupdated]
    exact hcolored

theorem published_pending {state : CIState} {host : HostBank} {expectedSet : Bool}
    (htracks : PendingTracks state host) (hpending : state.pending = true)
    (hcommand : ∃ command, host.command = some (command, expectedSet)) :
    Published state host (runStatePendingNop expectedSet) := by
  refine ⟨htracks, ?_, ?_⟩
  · rw [hpending]
    exact colored_of_command hcommand (carries_runStatePendingNop expectedSet)
  · intro hnone
    rw [hpending] at hnone
    cases hnone

theorem tracks_runState {state : CIState} {host : HostBank}
    (hcontrol : state.controlPending.active = false)
    (hdispatch : state.dispatchPending.active = false)
    (hcommand : ∃ command, host.command = some (command, state.runStatePending.expectedSet)) :
    PendingTracks state host := by
  refine ⟨fun _ => hcommand, ?_, ?_⟩
  · simp [hcontrol]
  · simp [hdispatch]

theorem tracks_control {state : CIState} {host : HostBank}
    (hrunState : state.runStatePending.active = false)
    (hdispatch : state.dispatchPending.active = false)
    (hcommand : ∃ command, host.command = some (command, state.controlPending.expectedSet)) :
    PendingTracks state host := by
  refine ⟨?_, fun _ => hcommand, ?_⟩
  · simp [hrunState]
  · simp [hdispatch]

section
variable (decodeRawWord48 : BitVec 64 → RawDecoded48) (invokes : Nat → Bool)

theorem selectFrame_generation {chip answered : Chip} {word : BitVec 64}
    (h : selectFrame chip word = some answered) :
    answered.state.dispatchedGeneration = chip.state.dispatchedGeneration + 1 := by
  unfold selectFrame at h
  dsimp only at h
  repeat' split at h
  all_goals cases h
  all_goals rfl

theorem propagateFrame_generation (chip : Chip) (word : BitVec 64) :
    (propagateFrame decodeRawWord48 invokes chip word).state.dispatchedGeneration =
      chip.state.dispatchedGeneration + 1 := by
  unfold propagateFrame
  dsimp only
  split
  · rfl
  split
  · rfl
  split
  · cases hframe : selectFrame chip word with
    | none =>
        rw [Option.getD_none]
        split
        · exact (queryFrame_replies decodeRawWord48 invokes chip word).generation
        · exact (commandFrame_replies decodeRawWord48 invokes chip word).generation
    | some answered => exact selectFrame_generation hframe
  split
  · exact (dmaCtrlFrame_replies chip word).generation
  split
  · exact (modeFrame_replies chip word).generation
  · exact (commandFrame_replies decodeRawWord48 invokes chip word).generation

theorem propagateCi_generation {chip : Chip} (hpopulated : chip.populated = true)
    (word : BitVec 64) :
    (propagateCi decodeRawWord48 invokes chip word).state.dispatchedGeneration =
      chip.state.dispatchedGeneration + 1 := by
  unfold propagateCi
  dsimp only
  rw [if_neg (by simp [Chip.setCommitted, hpopulated])]
  repeat' split
  all_goals first
    | rfl
    | exact propagateFrame_generation decodeRawWord48 invokes _ word

theorem retries_runState {state : CIState} {word : BitVec 64} (h : retries state word = true) :
    isRunStateReadCommand word = true ∧ state.runStatePending.active = true := by
  unfold retries at h
  exact Bool.and_eq_true_iff.mp h

theorem commit_of_retry {host : HostBank} {state : CIState} {word : BitVec 64}
    (hretry : retries state word = true) : host.commit state word = host := by
  simp [HostBank.commit, hretry]

theorem commit_of_empty {host : HostBank} {state : CIState}
    (hrefusal : refusal state ciEmptyCmd = none) :
    host.commit state ciEmptyCmd = { host with command := none } := by
  have hretry : retries state ciEmptyCmd = false := by
    have hrun : isRunStateReadCommand ciEmptyCmd = false := by decide
    simp [retries, hrun]
  simp [HostBank.commit, hretry, hrefusal]

theorem commit_of_accepted {host : HostBank} {state : CIState} {word : BitVec 64}
    (hrefusal : refusal state word = none) (hretry : retries state word = false)
    (hword : word ≠ ciEmptyCmd) :
    host.commit state word =
      { color := if isSoftwareResetCmd word then false else !host.color
        command := some (word, host.color) } := by
  simp [HostBank.commit, hretry, hrefusal, hword]

theorem nextColor_bit {bank : Chip} {host : HostBank} {word : BitVec 64} {color : BitVec 8}
    (sync : Bool) (hcolor : color.getLsbD 0 = host.color)
    (hrefusal : refusal bank.state word = none) :
    (nextColor color (classify bank word sync)).getLsbD 0 =
      (host.commit bank.state word).color := by
  by_cases hword : word = ciEmptyCmd
  · subst hword
    rw [commit_of_empty hrefusal]
    simpa [nextColor, advancesColor, classify] using hcolor
  · cases hretry : retries bank.state word with
    | true =>
        rw [commit_of_retry hretry]
        simpa [nextColor, advancesColor, classify, hretry, (retries_runState hretry).1] using
          hcolor
    | false =>
        rw [commit_of_accepted hrefusal hretry hword]
        have hadvance : advancesColor (classify bank word sync) = true := by
          simp [advancesColor, classify, hretry, hword]
        have hflip : ((color ^^^ 1) &&& 1).getLsbD 0 = !color.getLsbD 0 := by
          simp
        have hcommitted : (classify bank word sync).ciWord = word := rfl
        unfold nextColor
        rw [hadvance, hcommitted]
        cases isSoftwareResetCmd word with
        | true => simp
        | false => exact hflip.trans (congrArg (!·) hcolor)

theorem waitControl_answers {executed : Chip} {context : CommitBankContext}
    {host : HostBank} {expectedSet : Bool}
    (hcommand : ∃ command, host.command = some (command, expectedSet)) :
    Answers (waitControl executed context expectedSet) host := by
  unfold waitControl
  dsimp only
  split
  · exact published_ready rfl rfl (colored_of_command hcommand (carries_readyResult _ _))
  · split
    · exact published_pending (tracks_control rfl rfl hcommand) rfl hcommand
    · exact published_pending (tracks_runState rfl rfl hcommand) rfl hcommand

theorem deferRunState_answers {executed : Chip} {context : CommitBankContext}
    {host : HostBank} {expectedSet : Bool}
    (hcommand : ∃ command, host.command = some (command,
      if context.retryPendingRunState then context.pendingExpectedSet else expectedSet)) :
    Answers (deferRunState executed context expectedSet) host := by
  unfold Answers deferRunState
  exact published_pending (tracks_runState rfl rfl hcommand) rfl hcommand

theorem publishReply_answers {bank executed : Chip} {host : HostBank} {word : BitVec 64}
    (sync : Bool) (htracks : PendingTracks bank.state host)
    (hrefusal : refusal bank.state word = none)
    (hanswered : executed.state.dispatchedGeneration ≠ bank.state.dispatchedGeneration) :
    Answers (publishReply executed (classify bank word sync) host.color)
      (host.commit bank.state word) := by
  have hcommitted : (classify bank word sync).ciWord = word := rfl
  unfold publishReply
  rw [hcommitted]
  by_cases hword : word = ciEmptyCmd
  · subst hword
    rw [commit_of_empty hrefusal, if_pos rfl]
    exact published_ready rfl rfl fun _ _ h _ => nomatch h
  rw [if_neg hword]
  cases hretry : retries bank.state word with
  | true =>
      obtain ⟨hrun, hactive⟩ := retries_runState hretry
      have horder : word ≠ kCiByteOrder := by
        rintro rfl
        exact absurd hrun (by decide)
      have hdefer : (classify bank word sync).deferRunState = true := by
        simp [classify, hrun, hretry]
      rw [commit_of_retry hretry, if_neg horder, if_pos hdefer]
      refine deferRunState_answers ?_
      simpa [classify, hretry] using htracks.runState hactive
  | false =>
      rw [commit_of_accepted hrefusal hretry hword]
      by_cases horder : word = kCiByteOrder
      · subst horder
        rw [if_pos rfl]
        refine published_ready rfl rfl fun command color hcommand hne => ?_
        cases hcommand
        exact absurd rfl hne
      rw [if_neg horder]
      split
      · refine deferRunState_answers ⟨word, ?_⟩
        simp [classify, hretry]
      split
      · exact waitControl_answers ⟨word, rfl⟩
      · unfold waitDispatch
        rw [if_neg (show executed.state.dispatchedGeneration ≠
          (classify bank word sync).dispatchGenerationBefore from hanswered)]
        exact published_ready rfl rfl
          (colored_of_command ⟨word, rfl⟩ (carries_dispatchedResult _ _))

theorem lazyPopulate_tracks {chip : Chip} {host : HostBank}
    (htracks : PendingTracks chip.state host) :
    PendingTracks chip.lazyPopulate.state host := by
  have hstate : chip.lazyPopulate.state = chip.lazyPopulateCi.state := rfl
  rw [hstate]
  unfold Chip.lazyPopulateCi
  split
  · exact htracks
  · exact ⟨(fun h => nomatch h), (fun h => nomatch h), (fun h => nomatch h)⟩

theorem refusal_command {state : CIState} {host : HostBank} {word : BitVec 64}
    {expectedSet : Bool} (htracks : PendingTracks state host)
    (hrefusal : refusal state word = some expectedSet) :
    state.pending = true ∧ ∃ command, host.command = some (command, expectedSet) := by
  unfold refusal at hrefusal
  split at hrefusal
  · cases hrefusal
  · split at hrefusal
    · rename_i hactive
      cases hrefusal
      exact ⟨by simp [CIState.pending, hactive], htracks.control hactive⟩
    · split at hrefusal
      · rename_i hactive
        cases hrefusal
        have hdispatch := (Bool.and_eq_true_iff.mp hactive).1
        exact ⟨by simp [CIState.pending, hdispatch], htracks.dispatch hdispatch⟩
      · cases hrefusal

theorem commitBank_refused {chip : Chip} {host : HostBank} {word : BitVec 64}
    {expectedSet : Bool} (sync : Bool) (color : BitVec 8)
    (htracks : PendingTracks chip.lazyPopulate.state host)
    (hrefusal : refusal chip.lazyPopulate.state word = some expectedSet) :
    (commitBank decodeRawWord48 invokes sync word chip color).2 = color ∧
      Published (commitBank decodeRawWord48 invokes sync word chip color).1.state host
        (commitBank decodeRawWord48 invokes sync word chip color).1.reply := by
  have hrefusal' : refusal (chip.lazyPopulate.setCommitted word).state word =
      some expectedSet := hrefusal
  obtain ⟨hpending, hcommand⟩ := refusal_command htracks hrefusal
  unfold commitBank prepareBank
  dsimp only
  rw [hrefusal']
  exact ⟨rfl, published_pending ⟨htracks.runState, htracks.control, htracks.dispatch⟩ hpending
    hcommand⟩

def barrierIf (waits : Bool) (chip : Chip) : Chip :=
  if waits then regionBarrier decodeRawWord48 chip else chip

theorem barrierIf_state (waits : Bool) (chip : Chip) :
    (barrierIf decodeRawWord48 waits chip).state = chip.state := by
  cases waits with
  | true => exact regionBarrier_state decodeRawWord48 chip
  | false => rfl

theorem dropPending_frame (chip : Chip) (word : BitVec 64) :
    (chip.dropPending word).state.dispatchedGeneration = chip.state.dispatchedGeneration ∧
      (chip.dropPending word).populated = chip.populated := by
  unfold Chip.dropPending
  split <;> exact ⟨rfl, rfl⟩

/-- The bank whose reply is published is the one that took the word. -/
theorem commitBank_accepted {chip : Chip} {word : BitVec 64} (sync : Bool) (color : BitVec 8)
    (hrefusal : refusal chip.lazyPopulate.state word = none) :
    ∃ executed : Chip,
      executed.state.dispatchedGeneration ≠ chip.lazyPopulate.state.dispatchedGeneration ∧
      commitBank decodeRawWord48 invokes sync word chip color =
        let context := classify chip.lazyPopulate word sync
        let published := publishReply executed context (color.getLsbD 0)
        (writeCiRw { executed with state := published.1 } published.2,
          nextColor color context) := by
  have hrefusal' : refusal (chip.lazyPopulate.setCommitted word).state word = none := hrefusal
  have hdropped := dropPending_frame (chip.lazyPopulate.setCommitted word) word
  refine ⟨barrierIf decodeRawWord48
    ((classify chip.lazyPopulate word sync).isRunStateCommand &&
      !(classify chip.lazyPopulate word sync).wroteRunStateSync)
    (barrierIf decodeRawWord48 (classify chip.lazyPopulate word sync).wroteRunStateSync
      (propagateCi decodeRawWord48 invokes
        ((chip.lazyPopulate.setCommitted word).dropPending word) word)), ?_, ?_⟩
  · rw [barrierIf_state, barrierIf_state,
      propagateCi_generation decodeRawWord48 invokes
        (hdropped.2.trans (lazyPopulate_populated chip)), hdropped.1]
    exact next_generation_ne _
  · unfold commitBank prepareBank
    dsimp only
    rw [hrefusal']
    rfl

theorem commitBank_published {chip : Chip} {host : HostBank} {color : BitVec 8}
    (sync : Bool) (word : BitVec 64) (hcolor : color.getLsbD 0 = host.color)
    (htracks : PendingTracks chip.state host) :
    (commitBank decodeRawWord48 invokes sync word chip color).2.getLsbD 0 =
        (host.commit chip.lazyPopulate.state word).color ∧
      Published (commitBank decodeRawWord48 invokes sync word chip color).1.state
        (host.commit chip.lazyPopulate.state word)
        (commitBank decodeRawWord48 invokes sync word chip color).1.reply := by
  have htracks := lazyPopulate_tracks htracks
  cases hrefusal : refusal chip.lazyPopulate.state word with
  | some expectedSet =>
      have hhost : host.commit chip.lazyPopulate.state word = host := by
        simp [HostBank.commit, hrefusal]
      obtain ⟨hsame, hpublished⟩ :=
        commitBank_refused decodeRawWord48 invokes sync color htracks hrefusal
      rw [hhost, hsame]
      exact ⟨hcolor, hpublished⟩
  | none =>
      obtain ⟨executed, hanswered, hcommit⟩ :=
        commitBank_accepted decodeRawWord48 invokes sync color hrefusal
      rw [hcommit]
      refine ⟨nextColor_bit sync hcolor hrefusal, ?_⟩
      dsimp only
      rw [hcolor]
      exact publishReply_answers sync htracks hrefusal hanswered

end

theorem poll_record {record kept : ControlPending} {chip : Chip}
    (h : record.poll chip = .inl kept) :
    kept.expectedSet = record.expectedSet ∧ kept.active = record.active := by
  unfold ControlPending.poll at h
  dsimp only at h
  repeat' split at h
  all_goals cases h
  all_goals exact ⟨rfl, rfl⟩

theorem publishReady_published {chip updated : Chip} {state : CIState} {host : HostBank}
    {word output : BitVec 64} (h : publishReady chip state word = some (updated, output))
    (hpending : state.pending = false) (hcolored : Colored host true word) :
    Published updated.state host output := by
  unfold publishReady at h
  split at h
  · cases h
    exact published_ready hpending rfl hcolored
  · cases h

theorem updateRunState_published {chip updated : Chip} {host : HostBank} {output : BitVec 64}
    (h : updateRunState chip = some (updated, output)) (htracks : PendingTracks chip.state host)
    (hactive : chip.state.runStatePending.active = true) :
    Published updated.state host output := by
  have hcommand := htracks.runState hactive
  unfold updateRunState at h
  dsimp only at h
  cases hpoll : chip.state.runStatePending.poll chip with
  | inl kept =>
      obtain ⟨hexpected, hkept⟩ := poll_record hpoll
      rw [hpoll] at h
      cases h
      refine published_pending ⟨fun _ => ?_, htracks.control, htracks.dispatch⟩ ?_ hcommand
      · simpa [hexpected] using hcommand
      · simp [CIState.pending, hkept, hactive]
  | inr payload =>
      rw [hpoll] at h
      exact publishReady_published h rfl (colored_of_command hcommand (carries_readyResult _ _))

theorem updateControl_published {chip updated : Chip} {host : HostBank} {output : BitVec 64}
    (h : updateControl chip = some (updated, output)) (htracks : PendingTracks chip.state host)
    (hrunState : chip.state.runStatePending.active = false)
    (hactive : chip.state.controlPending.active = true) :
    Published updated.state host output := by
  have hcommand := htracks.control hactive
  unfold updateControl at h
  dsimp only at h
  cases hpoll : chip.state.controlPending.poll chip with
  | inl kept =>
      obtain ⟨hexpected, hkept⟩ := poll_record hpoll
      rw [hpoll] at h
      cases h
      refine published_pending ⟨htracks.runState, fun _ => ?_, htracks.dispatch⟩ ?_ hcommand
      · simpa [hexpected] using hcommand
      · simp [CIState.pending, hkept, hactive]
  | inr payload =>
      rw [hpoll] at h
      refine publishReady_published h ?_
        (colored_of_command hcommand (carries_readyResult _ _))
      simp [CIState.pending, hrunState, ControlPending.cleared, DispatchPending.cleared]

theorem updateDispatch_published {chip updated : Chip} {host : HostBank} {output : BitVec 64}
    (h : updateDispatch chip = some (updated, output)) (htracks : PendingTracks chip.state host)
    (hrunState : chip.state.runStatePending.active = false)
    (hcontrol : chip.state.controlPending.active = false)
    (hactive : chip.state.dispatchPending.active = true) :
    Published updated.state host output := by
  have hcommand := htracks.dispatch hactive
  unfold updateDispatch at h
  dsimp only at h
  split at h
  · cases h
    exact published_pending htracks (by simp [CIState.pending, hactive]) hcommand
  · refine publishReady_published h ?_
      (colored_of_command hcommand (carries_dispatchedResult _ _))
    simp [CIState.pending, hrunState, hcontrol, DispatchPending.cleared]

theorem updateBank_published {chip updated : Chip} {host : HostBank} {output : BitVec 64}
    (h : updateBank chip = some (updated, output)) (htracks : PendingTracks chip.state host)
    (hupdated : chip.state.pending = false → Colored host true chip.state.updated) :
    Published updated.state host output := by
  unfold updateBank at h
  cases hrunState : chip.state.runStatePending.active with
  | true =>
      rw [if_pos hrunState] at h
      exact updateRunState_published h htracks hrunState
  | false =>
      rw [if_neg (by simp [hrunState])] at h
      cases hcontrol : chip.state.controlPending.active with
      | true =>
          rw [if_pos hcontrol] at h
          exact updateControl_published h htracks hrunState hcontrol
      | false =>
          rw [if_neg (by simp [hcontrol])] at h
          cases hdispatch : chip.state.dispatchPending.active with
          | true =>
              rw [if_pos hdispatch] at h
              exact updateDispatch_published h htracks hrunState hcontrol hdispatch
          | false =>
              have hnone : chip.state.pending = false := by
                simp [CIState.pending, hrunState, hcontrol, hdispatch]
              rw [if_neg (by simp [hdispatch])] at h
              cases h
              exact published_ready hnone rfl (hupdated hnone)

/-- A word the host got, with the command it is for. -/
structure Reply where
  host : HostBank
  ready : Bool
  word : BitVec 64

/-- A rank with what the host knows of its banks and the replies it got. -/
structure Session where
  rank : Rank
  hosts : Nat → HostBank
  replies : List Reply

inductive Call where
  | commit (calls : CommitCalls) (input : Nat → BitVec 64)
  | update

/-- The host starts with the colours and no command. -/
def Session.start (rank : Rank) : Session :=
  ⟨rank, fun i => ⟨(rank.color i).getLsbD 0, none⟩, []⟩

/-- What the banks of `rank` answer with `words`. -/
def answers (rank : Rank) (hosts : Nat → HostBank) (words : Nat → BitVec 64) : List Reply :=
  (List.range kRankNumBanks).map fun i => ⟨hosts i, !(rank.chips i).state.pending, words i⟩

section
variable (decodeRawWord48 : BitVec 64 → RawDecoded48)

/-- A call that returns 0.  A bank's reply to a commit is in its reply region. -/
def Session.step (session : Session) : Call → Option Session
  | .commit calls input =>
      (commitCommands decodeRawWord48 calls input session.rank).map fun rank =>
        let hosts := fun i =>
          (session.hosts i).commit (session.rank.chips i).lazyPopulate.state (input i)
        { rank := rank
          hosts := hosts
          replies := session.replies ++ answers rank hosts fun i => (rank.chips i).reply }
  | .update =>
      (updateCommands session.rank).map fun update =>
        { rank := update.rank
          hosts := session.hosts
          replies := session.replies ++ answers update.rank session.hosts update.output }

structure Session.Inv (session : Session) : Prop where
  color : ∀ i, i < kRankNumBanks →
    (session.rank.color i).getLsbD 0 = (session.hosts i).color
  tracks : ∀ i, i < kRankNumBanks →
    PendingTracks (session.rank.chips i).state (session.hosts i)
  updated : ∀ i, i < kRankNumBanks → (session.rank.chips i).state.pending = false →
    Colored (session.hosts i) true (session.rank.chips i).state.updated
  replies : ∀ reply ∈ session.replies, Colored reply.host reply.ready reply.word

theorem start_inv {rank : Rank}
    (hidle : ∀ i, i < kRankNumBanks → (rank.chips i).state.pending = false) :
    (Session.start rank).Inv := by
  refine ⟨fun _ _ => rfl, fun i hi => tracks_of_idle _ (hidle i hi), ?_, ?_⟩
  · intro i _ _ command color hcommand
    cases hcommand
  · intro reply hreply
    cases hreply

theorem inv_of_published {session : Session} {rank : Rank} {hosts : Nat → HostBank}
    {words : Nat → BitVec 64} (hinv : session.Inv)
    (hcolor : ∀ i, i < kRankNumBanks → (rank.color i).getLsbD 0 = (hosts i).color)
    (hpublished : ∀ i, i < kRankNumBanks →
      Published (rank.chips i).state (hosts i) (words i)) :
    Session.Inv ⟨rank, hosts, session.replies ++ answers rank hosts words⟩ := by
  refine ⟨hcolor, fun i hi => (hpublished i hi).tracks, fun i hi => (hpublished i hi).updated,
    fun reply hreply => ?_⟩
  rcases List.mem_append.mp hreply with hold | hnew
  · exact hinv.replies reply hold
  · obtain ⟨i, hi, rfl⟩ := List.mem_map.mp hnew
    exact (hpublished i (List.mem_range.mp hi)).colored

theorem step_inv {session after : Session} {call : Call} (hinv : session.Inv)
    (hstep : session.step decodeRawWord48 call = some after) : after.Inv := by
  cases call with
  | commit calls input =>
      obtain ⟨rank, hcommit, rfl⟩ := Option.map_eq_some_iff.mp hstep
      have hbank : ∀ i, i < kRankNumBanks → _ := fun i hi =>
        commitBank_published decodeRawWord48 (calls.invokes i) (runStateSubmitCount input ≤ 1)
          (input i) (hinv.color i hi) (hinv.tracks i hi)
      refine inv_of_published hinv ?_ ?_
      · intro i hi
        rw [← (hbank i hi).1, ← commitCommands_bank decodeRawWord48 hcommit hi]
      · intro i hi
        have hpublished := (hbank i hi).2
        rw [← commitCommands_bank decodeRawWord48 hcommit hi] at hpublished
        exact hpublished
  | update =>
      obtain ⟨update, hupdate, rfl⟩ := Option.map_eq_some_iff.mp hstep
      refine inv_of_published hinv ?_ ?_
      · intro i hi
        rw [(updateCommands_bank hupdate hi).1]
        exact hinv.color i hi
      · intro i hi
        exact updateBank_published (updateCommands_bank hupdate hi).2 (hinv.tracks i hi)
          (hinv.updated i hi)

/-- Over every run of calls that return 0, the colour of a bank is the one the
host computes from the commands that were accepted, and every reply has the
colour that tells whether it is ready. -/
theorem color_protocol {rank : Rank} {calls : List Call} {final : Session}
    (hidle : ∀ i, i < kRankNumBanks → (rank.chips i).state.pending = false)
    (hrun : Transition.run (Session.step decodeRawWord48) (.start rank) calls = some final) :
    (∀ i, i < kRankNumBanks → (final.rank.color i).getLsbD 0 = (final.hosts i).color) ∧
      ∀ reply ∈ final.replies, Colored reply.host reply.ready reply.word := by
  have hinv : final.Inv := Transition.run_invariant
    (fun _ _ _ hinv hstep => step_inv decodeRawWord48 hinv hstep) (start_inv hidle) hrun
  exact ⟨hinv.color, hinv.replies⟩

/-- Identify every bank, reset the first and select a DPU of the second, then read. -/
def probeCalls : List Call :=
  let calls : CommitCalls :=
    ⟨fun _ => true, fun _ => true, fun _ => true, fun _ => true, fun _ _ => true, fun _ => true⟩
  [.commit calls fun _ => kCiIdentity,
    .commit calls fun i =>
      if i = 0 then 0x01FF00000000FF00 else if i = 1 then 0x330000000000000A else 0,
    .update]

theorem color_protocol_probeCalls :
    ∃ final, Transition.run (Session.step fun _ => .empty) (.start .created) probeCalls =
        some final ∧
      final.replies.length = 24 ∧
      (final.hosts 0).color = false ∧ (final.hosts 1).color = false ∧
      (final.hosts 2).color = true ∧
      (final.rank.color 2).getLsbD 0 = (final.hosts 2).color ∧
      ∀ reply ∈ final.replies, Colored reply.host reply.ready reply.word := by
  obtain ⟨final, hrun, hcount, hfirst, hsecond, hthird⟩ :
      ∃ final, Transition.run (Session.step fun _ => .empty) (.start .created) probeCalls =
          some final ∧
        final.replies.length = 24 ∧ (final.hosts 0).color = false ∧
        (final.hosts 1).color = false ∧ (final.hosts 2).color = true :=
    Transition.exists_run (by decide +kernel)
  obtain ⟨hcolor, hreplies⟩ := color_protocol (fun _ => .empty) (fun _ _ => rfl) hrun
  exact ⟨final, hrun, hcount, hfirst, hsecond, hthird, hcolor 2 (by decide), hreplies⟩

end

end HostPimSim.Upmem
