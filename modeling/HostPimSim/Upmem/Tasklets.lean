import HostPimSim.Upmem.Effects

/-! Isolation of tasklets.  Booting is the one effect that reaches the registers
of another tasklet, and it reaches only one that is neither running nor asleep. -/
namespace HostPimSim.Upmem

def Effect.boots : Effect → Option Nat
  | .boot index _ => some index
  | _ => none

@[simp] theorem setTasklet_tasklets (dpu : Dpu) (t j : Nat) (tasklet : Tasklet) :
    (dpu.setTasklet t tasklet).tasklets j = if j = t then tasklet else dpu.tasklets j := rfl

@[simp] theorem setTasklet_runBits (dpu : Dpu) (t : Nat) (tasklet : Tasklet) :
    (dpu.setTasklet t tasklet).runBits = dpu.runBits := rfl

@[simp] theorem perfCounterConfig_tasklets (dpu : Dpu) (bits : BitVec 32) :
    (dpu.perfCounterConfig bits).tasklets = dpu.tasklets := rfl

@[simp] theorem perfCounterConfig_runBits (dpu : Dpu) (bits : BitVec 32) :
    (dpu.perfCounterConfig bits).runBits = dpu.runBits := rfl

variable {t j : Nat}

theorem apply_tasklets (exec : Exec) (effect : Effect) (hj : j ≠ t)
    (hboots : effect.boots ≠ some j) :
    (effect.apply t exec).dpu.tasklets j = exec.dpu.tasklets j := by
  cases effect with
  | boot index clears =>
      have hne : j ≠ index := fun h => hboots (by rw [h]; rfl)
      simp [Effect.apply, hne]
  | branch ccKind target value =>
      simp only [Effect.apply]
      split <;> rfl
  | _ => simp [Effect.apply, hj]

theorem apply_runBits (exec : Exec) (effect : Effect)
    (hrun : exec.dpu.runBits.getLsbD j = true) :
    (effect.apply t exec).dpu.runBits.getLsbD j = true := by
  cases effect with
  | boot index clears => simp [Effect.apply, hrun]
  | resume index => simp [Effect.apply, hrun]
  | branch ccKind target value =>
      simp only [Effect.apply]
      split <;> exact hrun
  | _ => simpa [Effect.apply] using hrun

theorem applyEffects_tasklets (effects : List Effect) (exec : Exec) (hj : j ≠ t)
    (hboots : Meets (fun effect => effect.boots ≠ some j) effects) :
    (applyEffects t exec effects).dpu.tasklets j = exec.dpu.tasklets j := by
  apply applyEffects_invariant (fun e => e.dpu.tasklets j = exec.dpu.tasklets j) _ hboots rfl
  intro e effect he heffect
  exact (apply_tasklets e effect hj heffect).trans he

theorem applyEffects_runBits (effects : List Effect) (exec : Exec)
    (hrun : exec.dpu.runBits.getLsbD j = true) :
    (applyEffects t exec effects).dpu.runBits.getLsbD j = true := by
  have hall : Meets (fun _ => True) effects := fun _ _ => trivial
  apply applyEffects_invariant (fun e => e.dpu.runBits.getLsbD j = true) _ hall hrun
  intro e effect he _
  exact apply_runBits e effect he

def Effect.isLocal (effect : Effect) : Prop := effect.boots = none

@[simp] theorem local_takeCondBranch (decoded : RawDecoded48) (value : BitVec 32) :
    Meets Effect.isLocal (takeCondBranch decoded value) := by
  unfold takeCondBranch
  split <;> simp [Effect.isLocal, Effect.boots]

@[simp] theorem local_writeRc (decoded : RawDecoded48) (value : BitVec 32) :
    Meets Effect.isLocal (writeRc decoded value) := by
  unfold writeRc
  split <;> simp [Effect.isLocal, Effect.boots]

@[simp] theorem local_writeExtDreg32 (decoded : RawDecoded48) (value : BitVec 32) :
    Meets Effect.isLocal (writeExtDreg32 decoded value) := by
  unfold writeExtDreg32
  split
  · simp
  · split <;> simp [Effect.isLocal, Effect.boots]

@[simp] theorem local_writeResult (decoded : RawDecoded48) (value : BitVec 32) :
    Meets Effect.isLocal (writeResult decoded value) := by
  unfold writeResult
  split
  · simp
  · split <;> simp

@[simp] theorem local_resumeEffects (dpu : Dpu) (index : Nat) :
    Meets Effect.isLocal (resumeEffects dpu index) := by
  unfold resumeEffects
  split <;> simp [Effect.isLocal, Effect.boots]

theorem local_shiftAddEffects (decoded : RawDecoded48) (o : Operands) :
    Meets Effect.isLocal (shiftAddEffects decoded o) := by
  unfold shiftAddEffects
  dsimp only
  split <;> simp [Effect.isLocal, Effect.boots]

theorem local_hotEffects (decoded : RawDecoded48) (o : Operands)
    (hop : decoded.hotOp ≠ .boot) : Meets Effect.isLocal (hotEffects decoded o) := by
  unfold hotEffects
  cases h : decoded.hotOp with
  | boot => exact absurd h hop
  | lslAdd | lslAddS | lslAddU | lslSub | lslSubS | lslSubU | lsrAdd | lsrAddS | lsrAddU =>
      exact local_shiftAddEffects decoded o
  | _ =>
      simp [addEffects, subEffects, subcEffects, mulStepEffects, divStepEffects, shiftEffects,
        moveEffects, Effect.isLocal, Effect.boots]

theorem hotEffects_boot (decoded : RawDecoded48) (o : Operands)
    (hop : decoded.hotOp = .boot) :
    ∃ rest, Meets Effect.isLocal rest ∧
      hotEffects decoded o = bootEffects o.dpu (threadIndex (o.vra + o.vimm)) true ++ rest := by
  refine ⟨writeRc decoded (if o.dpu.bootable (threadIndex (o.vra + o.vimm)) then 0 else 1) ++
    [.setZf (if o.dpu.bootable (threadIndex (o.vra + o.vimm)) then 0 else 1)] ++
    takeCondBranch decoded
      (if o.dpu.bootable (threadIndex (o.vra + o.vimm)) then 0 else 1), ?_, ?_⟩
  · simp [Effect.isLocal, Effect.boots]
  · simp only [hotEffects, hop, List.append_assoc]

theorem local_opcodeEffects (f : Fields) (hop : f.opcode ≠ some .boot) :
    Meets Effect.isLocal (opcodeEffects f) := by
  unfold opcodeEffects
  dsimp only
  split
  · rename_i carry _
    cases carry <;> simp [Effect.isLocal, Effect.boots]
  · split
    all_goals first | exact absurd ‹_› hop | simp [Effect.isLocal, Effect.boots]

theorem opcodeEffects_boot (f : Fields) (hop : f.opcode = some .boot) :
    ∃ rest, Meets Effect.isLocal rest ∧
      opcodeEffects f = bootEffects f.dpu (threadIndex (f.raVal + f.imm16s)) false ++ rest := by
  have halu : aluResult f = none := by simp only [aluResult, hop]
  refine ⟨[.writeReg f.rc (if f.dpu.bootable (threadIndex (f.raVal + f.imm16s)) then 0 else 1),
    .setZf (if f.dpu.bootable (threadIndex (f.raVal + f.imm16s)) then 0 else 1)], ?_, ?_⟩
  · simp [Effect.isLocal, Effect.boots]
  · simp only [opcodeEffects, halu, hop]

section
variable (decodeRawWord48 : BitVec 64 → RawDecoded48)

/-- The tasklet `execute_once` would boot: the operand of the instruction, if
that is a BOOT. -/
def bootTarget (dpu : Dpu) (t : Nat) : Option Nat :=
  (fetch dpu t).bind fun inst48 =>
    let decoded := decodeRawWord48 inst48
    let o := operands decoded dpu t
    let f := fields inst48 dpu t
    if handled decodeRawWord48 inst48 then
      (if decoded.hotOp = .boot then some (threadIndex (o.vra + o.vimm)) else none)
    else if f.opcode = some .boot then some (threadIndex (f.raVal + f.imm16s)) else none

def targetEffects (dpu : Dpu) (target : Option Nat) (clears : Bool) : List Effect :=
  target.elim [] fun index => bootEffects dpu index clears

/-- Both switches boot the target first and then keep to the executing tasklet. -/
theorem executeOnce_effects {dpu : Dpu} {inst48 : BitVec 64}
    (hfetch : fetch dpu t = some inst48) :
    ∃ clears rest retire, Meets Effect.isLocal rest ∧ (retire = retireHot ∨ retire = retireOpcode) ∧
      executeOnce decodeRawWord48 dpu t =
        retire (applyEffects t ⟨dpu, (dpu.tasklets t).pc + 8, true⟩
          (targetEffects dpu (bootTarget decodeRawWord48 dpu t) clears ++ rest)) t := by
  unfold executeOnce bootTarget
  rw [hfetch]
  dsimp only [Option.bind_some]
  by_cases hhandled : handled decodeRawWord48 inst48 = true
  · simp only [hhandled, if_true]
    by_cases hop : (decodeRawWord48 inst48).hotOp = .boot
    · obtain ⟨rest, hlocal, heffects⟩ :=
        hotEffects_boot _ (operands (decodeRawWord48 inst48) dpu t) hop
      refine ⟨true, rest, retireHot, hlocal, .inl rfl, ?_⟩
      simp only [heffects, hop, if_true, targetEffects, Option.elim_some]
      rfl
    · have hlocal := local_hotEffects _ (operands (decodeRawWord48 inst48) dpu t) hop
      refine ⟨true, _, retireHot, hlocal, .inl rfl, ?_⟩
      simp only [hop, if_false, targetEffects, Option.elim_none, List.nil_append]
  · simp only [hhandled, Bool.false_eq_true, if_false]
    by_cases hop : (fields inst48 dpu t).opcode = some .boot
    · obtain ⟨rest, hlocal, heffects⟩ := opcodeEffects_boot _ hop
      refine ⟨false, rest, retireOpcode, hlocal, .inr rfl, ?_⟩
      simp only [heffects, hop, if_true, targetEffects, Option.elim_some]
      rfl
    · have hlocal := local_opcodeEffects _ hop
      refine ⟨false, _, retireOpcode, hlocal, .inr rfl, ?_⟩
      simp only [hop, if_false, targetEffects, Option.elim_none, List.nil_append]

theorem retire_tasklets {retire : Exec → Nat → Dpu × Bool}
    (hretire : retire = retireHot ∨ retire = retireOpcode) (exec : Exec) (hj : j ≠ t) :
    (retire exec t).1.tasklets j = exec.dpu.tasklets j := by
  rw [retire_commits hretire]
  simp [Exec.commitPc, hj]

theorem retire_runBits {retire : Exec → Nat → Dpu × Bool}
    (hretire : retire = retireHot ∨ retire = retireOpcode) (exec : Exec) (hj : j ≠ t)
    (hrun : exec.dpu.runBits.getLsbD j = true) :
    (retire exec t).1.runBits.getLsbD j = true := by
  have hj64 : j < 64 := BitVec.lt_of_getLsbD hrun
  rcases hretire with rfl | rfl
  · simp only [retireHot, perfCounterRetireStep_runBits]
    split
    · simpa [Exec.commitPc] using hrun
    · simpa [Exec.commitPc, Dpu.clearBits, bit, hrun, hj64] using hj
  · simpa [retireOpcode, Exec.commitPc] using hrun

theorem bootable_not_running {dpu : Dpu} (h : dpu.bootable j = true) :
    dpu.runBits.getLsbD j = false := by
  simp only [Dpu.bootable, Bool.and_eq_true, Bool.not_eq_true'] at h
  exact h.1.2

theorem bootable_lt {dpu : Dpu} (h : dpu.bootable j = true) : j < kNumTasklets := by
  simp only [Dpu.bootable, Bool.and_eq_true, decide_eq_true_eq] at h
  exact h.1.1

/-- `execute_once` changes the registers of another tasklet exactly when it
boots it, and then resets them and lets it run. -/
theorem executeOnce_other (dpu : Dpu) (hj : j ≠ t) :
    if bootTarget decodeRawWord48 dpu t = some j ∧ dpu.bootable j = true then
      (executeOnce decodeRawWord48 dpu t).1.tasklets j = .reset ∧
        (executeOnce decodeRawWord48 dpu t).1.runBits.getLsbD j = true
    else (executeOnce decodeRawWord48 dpu t).1.tasklets j = dpu.tasklets j := by
  cases hfetch : fetch dpu t with
  | none => simp [bootTarget, executeOnce, hfetch]
  | some inst48 =>
      obtain ⟨clears, rest, retire, hlocal, hretire, hexec⟩ :=
        executeOnce_effects decodeRawWord48 hfetch
      have hrest (exec : Exec) :
          (applyEffects t exec rest).dpu.tasklets j = exec.dpu.tasklets j :=
        applyEffects_tasklets rest exec hj fun e he hsome => by
          cases (hlocal e he).symm.trans hsome
      rw [hexec, retire_tasklets hretire _ hj]
      simp only [applyEffects, List.foldl_append] at hrest ⊢
      split
      · rename_i hboots
        obtain ⟨htarget, hbootable⟩ := hboots
        simp only [htarget, targetEffects, Option.elim_some, bootEffects, hbootable, if_true,
          List.foldl_cons, List.foldl_nil]
        refine ⟨?_, ?_⟩
        · rw [hrest]
          simp [Effect.apply]
        · refine retire_runBits hretire _ hj (applyEffects_runBits rest _ ?_)
          have hj64 : j < 64 := Nat.lt_trans (bootable_lt hbootable) (by decide)
          simp [Effect.apply, bit, hj64]
      · rename_i hboots
        rw [hrest]
        refine applyEffects_tasklets _ _ hj ?_
        cases htarget : bootTarget decodeRawWord48 dpu t with
        | none => simp [targetEffects]
        | some index =>
            simp only [targetEffects, Option.elim_some, bootEffects]
            split
            · rename_i hbootable
              have hne : index ≠ j := by
                rintro rfl
                exact hboots ⟨htarget, hbootable⟩
              simp [Effect.boots, hne]
            · simp

theorem executeOnce_runBits (dpu : Dpu) (hj : j ≠ t) (hrun : dpu.runBits.getLsbD j = true) :
    (executeOnce decodeRawWord48 dpu t).1.runBits.getLsbD j = true := by
  cases hfetch : fetch dpu t with
  | none => simpa [executeOnce, hfetch] using hrun
  | some inst48 =>
      obtain ⟨clears, rest, retire, _, hretire, hexec⟩ :=
        executeOnce_effects decodeRawWord48 hfetch
      rw [hexec]
      exact retire_runBits hretire _ hj (applyEffects_runBits _ _ hrun)

theorem taskletTurn_running (dpu : Dpu) (hj : j ≠ t) (hrun : dpu.runBits.getLsbD j = true) :
    (taskletTurn decodeRawWord48 dpu t).tasklets j = dpu.tasklets j ∧
      (taskletTurn decodeRawWord48 dpu t).runBits.getLsbD j = true := by
  have hother := executeOnce_other decodeRawWord48 dpu hj
  have hnot : ¬(bootTarget decodeRawWord48 dpu t = some j ∧ dpu.bootable j = true) := by
    rintro ⟨_, hbootable⟩
    rw [bootable_not_running hbootable] at hrun
    cases hrun
  have hkept := executeOnce_runBits decodeRawWord48 dpu hj hrun
  have hj64 : j < 64 := BitVec.lt_of_getLsbD hrun
  rw [if_neg hnot] at hother
  unfold taskletTurn
  split
  · exact ⟨rfl, hrun⟩
  · dsimp only
    split
    · exact ⟨hother, hkept⟩
    · refine ⟨hother, ?_⟩
      simpa [Dpu.clearBits, bit, hkept, hj64] using hj

theorem turns_running (schedule : List Nat) (dpu : Dpu) (hj : j ∉ schedule)
    (hrun : dpu.runBits.getLsbD j = true) :
    (schedule.foldl (taskletTurn decodeRawWord48) dpu).tasklets j = dpu.tasklets j ∧
      (schedule.foldl (taskletTurn decodeRawWord48) dpu).runBits.getLsbD j = true := by
  induction schedule generalizing dpu with
  | nil => exact ⟨rfl, hrun⟩
  | cons t rest ih =>
      have hne : j ≠ t := fun h => hj (h ▸ List.mem_cons_self)
      obtain ⟨hkept, hstill⟩ := taskletTurn_running decodeRawWord48 dpu hne hrun
      have hrest := ih (taskletTurn decodeRawWord48 dpu t)
        (fun h => hj (List.mem_cons_of_mem t h)) hstill
      exact ⟨hrest.1.trans hkept, hrest.2⟩

/-- Tasklets are isolated: one step changes another tasklet only by booting it
while it neither runs nor sleeps, which resets it, and in a run a tasklet that
runs keeps its registers through the turns of the others. -/
theorem tasklets_isolated :
    (∀ (dpu : Dpu) (t j : Nat), j ≠ t →
      if bootTarget decodeRawWord48 dpu t = some j ∧ dpu.bootable j = true then
        (executeOnce decodeRawWord48 dpu t).1.tasklets j = .reset ∧
          (executeOnce decodeRawWord48 dpu t).1.runBits.getLsbD j = true
      else (executeOnce decodeRawWord48 dpu t).1.tasklets j = dpu.tasklets j) ∧
    (∀ (schedule : List Nat) (dpu : Dpu) (j : Nat), j ∉ schedule → dpu.runBits.getLsbD j = true →
      (schedule.foldl (taskletTurn decodeRawWord48) dpu).tasklets j = dpu.tasklets j ∧
        (schedule.foldl (taskletTurn decodeRawWord48) dpu).runBits.getLsbD j = true) :=
  ⟨fun dpu _ _ hj => executeOnce_other decodeRawWord48 dpu hj,
    fun schedule dpu _ => turns_running decodeRawWord48 schedule dpu⟩

end

/-- Tasklet 0 is about to boot tasklet 1, and tasklet 2 runs too. -/
def bootingDpu : Dpu :=
  { Dpu.powerOn with
    iram := fun slot => if slot = 0 then 0x361818180001 else 0
    tasklets := fun t => if t = 0 then .reset else ⟨fun _ => 7, 16, 1, 1⟩
    runBits := 0b101 }

theorem tasklets_isolated_bootingDpu :
    bootTarget (fun _ => .empty) bootingDpu 0 = some 1 ∧
      (executeOnce (fun _ => .empty) bootingDpu 0).1.tasklets 1 = .reset ∧
      ([0, 0].foldl (taskletTurn fun _ => .empty) bootingDpu).tasklets 2 =
        bootingDpu.tasklets 2 := by
  have htarget : bootTarget (fun _ => .empty) bootingDpu 0 = some 1 := by decide
  have hisolated := tasklets_isolated fun _ => .empty
  have hstep := hisolated.1 bootingDpu 0 1 (by decide)
  rw [if_pos ⟨htarget, by decide⟩] at hstep
  exact ⟨htarget, hstep.1, (hisolated.2 [0, 0] bootingDpu 2 (by decide) (by decide)).1⟩

end HostPimSim.Upmem
