import HostPimSim.Upmem.DmaWindow
import HostPimSim.Upmem.Replies

/-! Run-state reads in a row.  Each runs the tasklets for one budget of rounds and answers
which DPUs still run, so a program comes to the same end however often the host asks, and the
host is told of it by the first read that finds it. -/
namespace HostPimSim.Upmem

/-- The result and the count of commands, which no instruction reads. -/
def Dpu.withControl (dpu : Dpu) (result : BitVec 32) (generation : BitVec 64) : Dpu :=
  { dpu with lastControlResult := result, lastControlGeneration := generation }

@[simp] theorem withControl_runBits (dpu : Dpu) (result : BitVec 32) (generation : BitVec 64) :
    (dpu.withControl result generation).runBits = dpu.runBits := rfl

@[simp] theorem withControl_withControl (dpu : Dpu) (result result' : BitVec 32)
    (generation generation' : BitVec 64) :
    (dpu.withControl result generation).withControl result' generation' =
      dpu.withControl result' generation' := rfl

section
variable (decodeRawWord48 : BitVec 64 → RawDecoded48) (result : BitVec 32)
  (generation : BitVec 64)

def Exec.withControl (exec : Exec) : Exec :=
  { exec with dpu := exec.dpu.withControl result generation }

theorem apply_withControl (t : Nat) (exec : Exec) (effect : Effect) :
    effect.apply t (exec.withControl result generation) =
      (effect.apply t exec).withControl result generation := by
  cases effect with
  | branch ccKind target value =>
      have htasklet : (exec.withControl result generation).dpu.tasklets = exec.dpu.tasklets := rfl
      simp only [Effect.apply, htasklet]
      split <;> rfl
  | _ => rfl

theorem applyEffects_withControl (t : Nat) (effects : List Effect) (exec : Exec) :
    applyEffects t (exec.withControl result generation) effects =
      (applyEffects t exec effects).withControl result generation := by
  induction effects generalizing exec with
  | nil => rfl
  | cons effect rest ih =>
      have hrest := ih (effect.apply t exec)
      rw [← apply_withControl] at hrest
      exact hrest

theorem perfCounterRetireStep_withControl (dpu : Dpu) (isReplay : Bool) :
    (dpu.withControl result generation).perfCounterRetireStep isReplay =
      (dpu.perfCounterRetireStep isReplay).withControl result generation := by
  have hmode : (dpu.withControl result generation).perfCounterMode = dpu.perfCounterMode := rfl
  unfold Dpu.perfCounterRetireStep
  rw [hmode]
  split <;> rfl

theorem retire_withControl {retire : Exec → Nat → Dpu × Bool}
    (hretire : retire = retireHot ∨ retire = retireOpcode) (exec : Exec) (t : Nat) :
    retire (exec.withControl result generation) t =
      ((retire exec t).1.withControl result generation, (retire exec t).2) := by
  rcases hretire with rfl | rfl
  · have hkeep : (exec.withControl result generation).keepRunning = exec.keepRunning := rfl
    unfold retireHot
    rw [hkeep, ← perfCounterRetireStep_withControl]
    split <;> rfl
  · unfold retireOpcode
    dsimp only
    rw [← perfCounterRetireStep_withControl]
    rfl

theorem executeOnce_withControl (dpu : Dpu) (t : Nat) :
    executeOnce decodeRawWord48 (dpu.withControl result generation) t =
      ((executeOnce decodeRawWord48 dpu t).1.withControl result generation,
        (executeOnce decodeRawWord48 dpu t).2) := by
  have hfetch : fetch (dpu.withControl result generation) t = fetch dpu t := rfl
  have hstart : (dpu.withControl result generation).startExec t =
      (dpu.startExec t).withControl result generation := rfl
  cases h : fetch dpu t with
  | none =>
      rw [executeOnce_none (hfetch.trans h), executeOnce_none h]
  | some inst48 =>
      cases hhandled : handled decodeRawWord48 inst48 with
      | true =>
          have heffects : hotEffects (decodeRawWord48 inst48) (operands (decodeRawWord48 inst48)
              (dpu.withControl result generation) t) = hotEffects (decodeRawWord48 inst48)
                (operands (decodeRawWord48 inst48) dpu t) := rfl
          rw [executeOnce_handled (hfetch.trans h) hhandled, executeOnce_handled h hhandled,
            heffects, hstart, applyEffects_withControl, retire_withControl _ _ (.inl rfl)]
      | false =>
          have heffects : opcodeEffects (fields inst48 (dpu.withControl result generation) t) =
              opcodeEffects (fields inst48 dpu t) := rfl
          rw [executeOnce_not_handled (hfetch.trans h) hhandled,
            executeOnce_not_handled h hhandled, heffects, hstart, applyEffects_withControl,
            retire_withControl _ _ (.inr rfl)]

theorem taskletTurn_withControl (dpu : Dpu) (t : Nat) :
    taskletTurn decodeRawWord48 (dpu.withControl result generation) t =
      (taskletTurn decodeRawWord48 dpu t).withControl result generation := by
  have hrunnable : (dpu.withControl result generation).runnable t = dpu.runnable t := rfl
  unfold taskletTurn
  rw [hrunnable, executeOnce_withControl]
  split
  · rfl
  · dsimp only
    split <;> rfl

theorem round_withControl (dpu : Dpu) :
    round decodeRawWord48 (dpu.withControl result generation) =
      (round decodeRawWord48 dpu).withControl result generation := by
  have hturns : ∀ (schedule : List Nat) (dpu : Dpu),
      schedule.foldl (taskletTurn decodeRawWord48) (dpu.withControl result generation) =
        (schedule.foldl (taskletTurn decodeRawWord48) dpu).withControl result generation := by
    intro schedule
    induction schedule with
    | nil => exact fun _ => rfl
    | cons t rest ih =>
        intro dpu
        rw [List.foldl_cons, List.foldl_cons, taskletTurn_withControl, ih]
  exact hturns _ dpu

theorem rounds_withControl (budget : Nat) (dpu : Dpu) :
    rounds decodeRawWord48 budget (dpu.withControl result generation) =
      (rounds decodeRawWord48 budget dpu).withControl result generation := by
  induction budget generalizing dpu with
  | zero => rfl
  | succ budget ih =>
      unfold rounds
      rw [withControl_runBits, round_withControl, ih]
      split <;> rfl

end

section
variable (decodeRawWord48 : BitVec 64 → RawDecoded48)

theorem rounds_idle (budget : Nat) {dpu : Dpu} (hidle : dpu.runBits = 0) :
    rounds decodeRawWord48 budget dpu = dpu := by
  cases budget with
  | zero => rfl
  | succ budget => exact if_pos hidle

theorem rounds_add (first second : Nat) (dpu : Dpu) :
    rounds decodeRawWord48 (first + second) dpu =
      rounds decodeRawWord48 second (rounds decodeRawWord48 first dpu) := by
  induction first generalizing dpu with
  | zero => rw [Nat.zero_add, rounds]
  | succ first ih =>
      rw [Nat.succ_add, rounds, rounds]
      split
      · rename_i hidle
        exact (rounds_idle decodeRawWord48 second hidle).symm
      · exact ih (round decodeRawWord48 dpu)

theorem rounds_halted {count budget : Nat} {dpu : Dpu}
    (hhalted : (rounds decodeRawWord48 count dpu).runBits = 0) (hle : count ≤ budget) :
    rounds decodeRawWord48 budget dpu = rounds decodeRawWord48 count dpu := by
  obtain ⟨rest, rfl⟩ := Nat.exists_eq_add_of_le hle
  rw [rounds_add, rounds_idle decodeRawWord48 rest hhalted]

theorem askedDpu_rounds {dpu : Dpu} {word : BitVec 64} (hbound : dpu.mram.bound = true)
    (hrun : isRunStateReadCommand word = true) :
    ∃ result generation, askedDpu decodeRawWord48 word dpu =
      (rounds decodeRawWord48 kProgressBudget dpu).withControl result generation := by
  have hcleared : dpu.clearLastControlResult =
      dpu.withControl 0xFFFFFFFF dpu.lastControlGeneration := rfl
  unfold askedDpu control
  rw [if_pos hrun, if_neg (by simpa [Dpu.clearLastControlResult] using hbound), hcleared,
    rounds_withControl]
  exact ⟨_, _, rfl⟩

/-- The DPUs of a bank that a run-state read is for. -/
def Bank.read (bank : Bank) : BitVec 8 := controlExecutionMask (bank.chip .blank)

def Bank.running (bank : Bank) (count : Nat) : BitVec 8 :=
  maskWhere fun i => bank.read.getLsbD i &&
    (rounds decodeRawWord48 count (bank.dpus i)).runBits ≠ 0

variable {decodeRawWord48} {bank : Bank} {word : BitVec 64}

theorem taking_of_runState (chip : Chip) (hrun : isRunStateReadCommand word = true) :
    chip.taking word = chip.setCommitted word := by
  unfold Chip.taking Chip.dropPending
  rw [if_pos hrun]
  rfl

theorem executed_of_runState (hrun : isRunStateReadCommand word = true)
    (hlatched : (bank.chip .blank).state.latched = false) :
    bank.executed decodeRawWord48 word =
      ranBank decodeRawWord48 (fun _ => true) word (bank.chip .blank) := by
  have hframe := propagateCi_payload decodeRawWord48 (fun _ => true) (chip_populated bank .blank)
    (isRunStateReadCommand_bytes hrun).1
  unfold Bank.executed ranBank
  rw [hframe, taking_of_runState _ hrun]
  rw [propagateFrame_runState decodeRawWord48 _ (by exact hlatched) hrun]
  rfl

theorem executed_dpus (hrun : isRunStateReadCommand word = true)
    (hlatched : (bank.chip .blank).state.latched = false) (i : Nat) :
    (bank.executed decodeRawWord48 word).dpus i =
      if bank.read.getLsbD i then askedDpu decodeRawWord48 word (bank.dpus i)
      else bank.dpus i := by
  rw [executed_of_runState hrun hlatched]
  exact ranBank_dpus decodeRawWord48 (fun _ _ => rfl) rfl word i

theorem executed_bank (hrun : isRunStateReadCommand word = true)
    (hlatched : (bank.chip .blank).state.latched = false) :
    (bank.executed decodeRawWord48 word).bank =
      { bank with dpus := (bank.executed decodeRawWord48 word).dpus } := by
  rw [executed_of_runState hrun hlatched]
  unfold ranBank
  rw [regionBarrier_eq, taking_of_runState _ hrun]
  rfl

theorem answer_of_runState (hrun : isRunStateReadCommand word = true)
    (hlatched : (bank.chip .blank).state.latched = false) :
    bank.answer decodeRawWord48 word =
      .ready ((maskWhere fun i => bank.read.getLsbD i &&
        (askedDpu decodeRawWord48 word (bank.dpus i)).runBits ≠ 0).setWidth 32) := by
  have hempty : word ≠ ciEmptyCmd := by
    rintro rfl
    exact absurd hrun (by decide)
  have horder : word ≠ kCiByteOrder := by
    rintro rfl
    exact absurd hrun (by decide)
  have hasked : bank.asked word = some bank.read := if_pos hrun
  unfold Bank.answer
  dsimp only
  rw [if_neg hempty, if_neg horder, hasked]
  dsimp only
  refine congrArg (fun mask : BitVec 8 => Answer.ready (mask.setWidth 32)) ?_
  apply mask_ext
  intro i hi
  rw [Chip.results, maskWhere_getLsbD _ hi, maskWhere_getLsbD _ hi, executed_dpus hrun hlatched]
  cases hbit : bank.read.getLsbD i with
  | false => rfl
  | true =>
      have hresult := control_runState_result decodeRawWord48
        (bank.dpus i).clearLastControlResult hrun
      rw [if_pos rfl, Bool.true_and, Bool.true_and, Bool.eq_iff_iff, bne_iff_ne,
        decide_eq_true_iff]
      exact hresult

/-- The bank takes run-state reads, and has the memory of the DPUs that it asks. -/
structure Bank.Polled (bank : Bank) : Prop where
  first : (bank.dpus 0).mram.bound = true
  unlatched : (bank.chip .blank).state.latched = false
  asked : ∀ i, bank.read.getLsbD i = true → (bank.dpus i).mram.bound = true

theorem populated_of_bound (hfirst : (bank.dpus 0).mram.bound = true) : bank.populated = bank := by
  have hdpus : bank.populated.dpus = bank.dpus := by
    funext i
    unfold Bank.populated
    dsimp only
    split
    · rename_i hi
      subst hi
      unfold Mram.allocate
      rw [if_pos hfirst]
    · rfl
  exact congrArg (fun dpus => { bank with dpus := dpus }) hdpus

variable (decodeRawWord48) in
theorem executed_bound (hrun : isRunStateReadCommand word = true) (hpolled : bank.Polled) (i : Nat) :
    ((bank.executed decodeRawWord48 word).dpus i).mram.bound = (bank.dpus i).mram.bound := by
  rw [executed_dpus hrun hpolled.unlatched]
  split
  · obtain ⟨hmapped, hsize⟩ := control_sameExtent decodeRawWord48
      (bank.dpus i).clearLastControlResult word
    unfold askedDpu Mram.bound
    rw [hmapped, hsize]
    rfl
  · rfl

variable (decodeRawWord48) in
theorem executed_read (hrun : isRunStateReadCommand word = true) (hpolled : bank.Polled) :
    (bank.executed decodeRawWord48 word).bank.read = bank.read := by
  have hselected : ((bank.executed decodeRawWord48 word).bank.chip .blank).state.selectedMask =
      (bank.chip .blank).state.selectedMask := by
    rw [executed_bank hrun hpolled.unlatched]
    rfl
  have hbound : ∀ mask, getBoundMask ((bank.executed decodeRawWord48 word).bank.chip .blank) mask =
      getBoundMask (bank.chip .blank) mask := by
    intro mask
    have hdpus := executed_bound decodeRawWord48 hrun hpolled
    apply mask_ext
    intro i hi
    rw [getBoundMask, getBoundMask, maskWhere_getLsbD _ hi, maskWhere_getLsbD _ hi]
    exact congrArg (mask.getLsbD i && ·) (hdpus i)
  unfold Bank.read controlExecutionMask
  rw [hselected, hbound]

theorem executed_polled (hrun : isRunStateReadCommand word = true) (hpolled : bank.Polled) :
    (bank.executed decodeRawWord48 word).bank.Polled := by
  refine ⟨?_, ?_, fun i hi => ?_⟩
  · exact (executed_bound decodeRawWord48 hrun hpolled 0).trans hpolled.first
  · rw [executed_bank hrun hpolled.unlatched]
    exact hpolled.unlatched
  · rw [executed_read decodeRawWord48 hrun hpolled] at hi
    exact (executed_bound decodeRawWord48 hrun hpolled i).trans (hpolled.asked i hi)

variable (decodeRawWord48) in
theorem executed_rounds (hrun : isRunStateReadCommand word = true) (hpolled : bank.Polled)
    {i : Nat} (hi : bank.read.getLsbD i = true) (count : Nat) :
    ∃ result generation, rounds decodeRawWord48 count
        ((bank.executed decodeRawWord48 word).dpus i) =
      (rounds decodeRawWord48 (kProgressBudget + count) (bank.dpus i)).withControl result
        generation := by
  obtain ⟨result, generation, hasked⟩ := askedDpu_rounds decodeRawWord48 (hpolled.asked i hi) hrun
  refine ⟨result, generation, ?_⟩
  rw [executed_dpus hrun hpolled.unlatched, if_pos hi, hasked, rounds_withControl, rounds_add]

theorem executed_running (hrun : isRunStateReadCommand word = true) (hpolled : bank.Polled)
    (count : Nat) :
    (bank.executed decodeRawWord48 word).bank.running decodeRawWord48 count =
      bank.running decodeRawWord48 (kProgressBudget + count) := by
  apply mask_ext
  intro i hi
  rw [Bank.running, Bank.running, maskWhere_getLsbD _ hi, maskWhere_getLsbD _ hi,
    executed_read decodeRawWord48 hrun hpolled]
  cases hbit : bank.read.getLsbD i with
  | false => rfl
  | true =>
      obtain ⟨result, generation, hrounds⟩ := executed_rounds decodeRawWord48 hrun hpolled hbit count
      have hdpus : (bank.executed decodeRawWord48 word).bank.dpus =
          (bank.executed decodeRawWord48 word).dpus := rfl
      rw [hdpus, hrounds, withControl_runBits]

theorem next_of_runState (hrun : isRunStateReadCommand word = true) (hpolled : bank.Polled)
    (color : Bool) :
    (ColoredBank.mk bank color).next decodeRawWord48 word =
      (⟨(bank.executed decodeRawWord48 word).bank, !color⟩,
        readyResult color ((bank.running decodeRawWord48 kProgressBudget).setWidth 32)) := by
  have hempty : word ≠ ciEmptyCmd := by
    rintro rfl
    exact absurd hrun (by decide)
  have hreset : isSoftwareResetCmd word = false := by
    cases hreset : isSoftwareResetCmd word with
    | false => rfl
    | true =>
        have hop := (isRunStateReadCommand_bytes hrun).1
        rw [isSoftwareResetCmd_opcode hreset] at hop
        exact absurd hop (by decide)
  have hcolor : colorAfter word color = !color := by
    rw [colorAfter, if_neg hempty, if_neg (by simp [hreset])]
  have hanswer : bank.answer decodeRawWord48 word =
      .ready ((bank.running decodeRawWord48 kProgressBudget).setWidth 32) := by
    rw [answer_of_runState hrun hpolled.unlatched]
    refine congrArg (fun mask : BitVec 8 => Answer.ready (mask.setWidth 32)) ?_
    apply mask_ext
    intro i hi
    rw [Bank.running, maskWhere_getLsbD _ hi, maskWhere_getLsbD _ hi]
    cases hbit : bank.read.getLsbD i with
    | false => rfl
    | true =>
        obtain ⟨result, generation, hasked⟩ := askedDpu_rounds decodeRawWord48
          (hpolled.asked i hbit) hrun
        rw [hasked, withControl_runBits]
  unfold ColoredBank.next
  dsimp only
  rw [populated_of_bound hpolled.first, hcolor, hanswer]
  rfl

def colorOf (color : Bool) (index : Nat) : Bool := color ^^ index % 2 == 1

theorem colorOf_succ (color : Bool) (index : Nat) :
    colorOf color (index + 1) = colorOf (!color) index := by
  unfold colorOf
  rcases Nat.mod_two_eq_zero_or_one index with h | h
  · have hsucc : (index + 1) % 2 = 1 := by omega
    rw [h, hsucc]
    cases color <;> rfl
  · have hsucc : (index + 1) % 2 = 0 := by omega
    rw [h, hsucc]
    cases color <;> rfl

theorem outputs_of_runState (hrun : isRunStateReadCommand word = true) (hpolled : bank.Polled)
    (color : Bool) (count : Nat) :
    Transducer.outputs (ColoredBank.next decodeRawWord48) ⟨bank, color⟩
        (List.replicate count word) =
      (List.range count).map fun j => readyResult (colorOf color j)
        ((bank.running decodeRawWord48 ((j + 1) * kProgressBudget)).setWidth 32) := by
  induction count generalizing bank color with
  | zero => rfl
  | succ count ih =>
      have hfirst : 1 * kProgressBudget = kProgressBudget := Nat.one_mul _
      have hcolor : colorOf color 0 = color := by simp [colorOf]
      rw [List.replicate_succ, Transducer.outputs, next_of_runState hrun hpolled]
      dsimp only
      rw [ih (executed_polled hrun hpolled), List.range_succ_eq_map, List.map_cons, List.map_map,
        Nat.zero_add, hfirst, hcolor]
      apply congrArg (List.cons _)
      apply List.map_congr_left
      intro j _
      have hcount : kProgressBudget + (j + 1) * kProgressBudget =
          (j + 1 + 1) * kProgressBudget := by
        rw [Nat.succ_mul (j + 1), Nat.add_comm]
      rw [executed_running hrun hpolled, hcount, Function.comp_apply, Nat.succ_eq_add_one,
        colorOf_succ]

variable (decodeRawWord48) in
/-- The DPUs that were asked have gone as many rounds as there were reads, in budgets. -/
theorem after_of_runState (hrun : isRunStateReadCommand word = true) (hpolled : bank.Polled)
    (color : Bool) (count : Nat) {i : Nat} (hi : bank.read.getLsbD i = true) :
    ∃ result generation, (Transducer.after (ColoredBank.next decodeRawWord48) ⟨bank, color⟩
        (List.replicate count word)).bank.dpus i =
      (rounds decodeRawWord48 (count * kProgressBudget) (bank.dpus i)).withControl result
        generation := by
  induction count generalizing bank color with
  | zero =>
      refine ⟨(bank.dpus i).lastControlResult, (bank.dpus i).lastControlGeneration, ?_⟩
      rw [Nat.zero_mul]
      rfl
  | succ count ih =>
      rw [List.replicate_succ, Transducer.after, next_of_runState hrun hpolled]
      dsimp only
      rw [← executed_read decodeRawWord48 hrun hpolled] at hi
      obtain ⟨result, generation, hafter⟩ := ih (executed_polled hrun hpolled) (!color) hi
      rw [executed_read decodeRawWord48 hrun hpolled] at hi
      obtain ⟨result', generation', hrounds⟩ := executed_rounds decodeRawWord48 hrun hpolled hi
        (count * kProgressBudget)
      have hcount : kProgressBudget + count * kProgressBudget = (count + 1) * kProgressBudget := by
        rw [Nat.succ_mul, Nat.add_comm]
      have hdpus : (bank.executed decodeRawWord48 word).bank.dpus =
          (bank.executed decodeRawWord48 word).dpus := rfl
      refine ⟨result, generation, ?_⟩
      rw [hafter, hdpus, hrounds, hcount, withControl_withControl]

theorem takes_of_runState (hrun : isRunStateReadCommand word = true) (hpolled : bank.Polled)
    (color : Bool) (count : Nat) :
    Transducer.Takes (ColoredBank.next decodeRawWord48) ColoredBank.Meant ⟨bank, color⟩
      (List.replicate count word) := by
  induction count generalizing bank color with
  | zero => trivial
  | succ count ih =>
      refine ⟨fun hlatched => ?_, ?_⟩
      · have hunlatched := hpolled.unlatched
        rw [populated_of_bound hpolled.first, hunlatched] at hlatched
        cases hlatched
      · rw [next_of_runState hrun hpolled]
        exact ih (executed_polled hrun hpolled) (!color)

variable (decodeRawWord48) in
/-- The host asks a bank for its run state again and again, with words for the other banks that
are meant for these.  Each reply names the DPUs that run after the budgets so far, so none is
reported early and one that halts is reported by the first read after it; and it is left as its
own rounds leave it, however many reads come later. -/
theorem polls_report {rank : Rank} {banks : Fin kRankNumBanks → ColoredBank}
    (hfollows : ∀ i : Fin kRankNumBanks, Follows (rank.chips i) (rank.color i) (banks i))
    (i : Fin kRankNumBanks) (hrun : isRunStateReadCommand word = true)
    (hpolled : (banks i).bank.Polled) (inputs : List (Nat → BitVec 64))
    (hword : ∀ input ∈ inputs, input i = word)
    (hothers : ∀ j, j ≠ i → Transducer.Takes (ColoredBank.next decodeRawWord48)
      ColoredBank.Meant (banks j) (inputs.map (· j))) :
    ∃ final replies, Transducer.converse (exchange decodeRawWord48) rank inputs =
        some (final, replies) ∧
      replies.map (· i) = ((List.range inputs.length).map fun j =>
        readyResult (colorOf (banks i).color j)
          (((banks i).bank.running decodeRawWord48 ((j + 1) * kProgressBudget)).setWidth 32)) ∧
      ∀ dpuIdx count, (banks i).bank.read.getLsbD dpuIdx = true →
        (rounds decodeRawWord48 count ((banks i).bank.dpus dpuIdx)).runBits = 0 →
        count ≤ inputs.length * kProgressBudget →
        ∃ result generation, (final.chips i).dpus dpuIdx =
          (rounds decodeRawWord48 count ((banks i).bank.dpus dpuIdx)).withControl result
            generation := by
  have hreplicate : inputs.map (· i) = List.replicate inputs.length word := by
    rw [List.eq_replicate_iff]
    refine ⟨List.length_map _, fun given hgiven => ?_⟩
    obtain ⟨input, hinput, rfl⟩ := List.mem_map.mp hgiven
    exact hword input hinput
  have hmeant : ∀ j : Fin kRankNumBanks, Transducer.Takes (ColoredBank.next decodeRawWord48)
      ColoredBank.Meant (banks j) (inputs.map (· j)) := by
    intro j
    by_cases hj : j = i
    · rw [hj, hreplicate]
      exact takes_of_runState hrun hpolled (banks i).color inputs.length
    · exact hothers j hj
  obtain ⟨final, replies, hconverse, hbanks⟩ := replies_follow decodeRawWord48 hfollows inputs
    hmeant
  obtain ⟨⟨⟨book, -, hchip⟩, -⟩, hreplies⟩ := hbanks i
  refine ⟨final, replies, hconverse, ?_, fun dpuIdx count hasked hhalted hle => ?_⟩
  · rw [hreplies, hreplicate]
    exact outputs_of_runState hrun hpolled (banks i).color inputs.length
  · obtain ⟨result, generation, hafter⟩ := after_of_runState decodeRawWord48 hrun hpolled
      (banks i).color inputs.length hasked
    have hdpus : (final.chips i).lazyPopulateCi.dpus = (final.chips i).dpus := by
      unfold Chip.lazyPopulateCi
      split <;> rfl
    refine ⟨result, generation, ?_⟩
    rw [← hdpus, hchip, hreplicate, ← rounds_halted decodeRawWord48 hhalted hle]
    exact hafter

end

def stoppingBank : Bank :=
  { idleChip.bank with dpus := fun i =>
      if i = 0 then { programDpu [0x380000000000] [] with mram := Dpu.powerOn.mram.allocate }
      else idleChip.dpus i }

def stoppingRank : Rank := ⟨fun _ => stoppingBank.chip .blank, none⟩

theorem polls_report_stopping :
    ∃ final replies, Transducer.converse (exchange fun _ => .empty) stoppingRank
        [fun _ => 0x3300000000000284, fun _ => 0x3300000000000284] = some (final, replies) ∧
      replies.map (· 0) = [readyResult false 0, readyResult true 0] := by
  have hpolled : stoppingBank.Polled := by
    refine ⟨rfl, rfl, fun i _ => ?_⟩
    unfold stoppingBank
    dsimp only
    split <;> rfl
  have hfollows : ∀ i : Fin kRankNumBanks,
      Follows (stoppingRank.chips i) (stoppingRank.color i) ⟨stoppingBank, false⟩ :=
    fun _ => ⟨⟨.blank, blank_idle, rfl⟩, BitVec.getLsbD_zero⟩
  have hrun : isRunStateReadCommand 0x3300000000000284 = true := by decide
  have htakes : Transducer.Takes (ColoredBank.next fun _ => .empty) ColoredBank.Meant
      ⟨stoppingBank, false⟩ (List.replicate 2 0x3300000000000284) :=
    takes_of_runState hrun hpolled false 2
  obtain ⟨final, replies, hconverse, hreplies, -⟩ := polls_report (fun _ => .empty) hfollows
    ⟨0, by decide⟩ hrun hpolled
    [fun _ => 0x3300000000000284, fun _ => 0x3300000000000284] (by simp) fun _ _ => htakes
  exact ⟨final, replies, hconverse, hreplies.trans (by decide +kernel)⟩

end HostPimSim.Upmem
