import HostPimSim.Lib.Transition
import HostPimSim.Upmem.DpuInvariant

/-! The locks of a DPU.  Each of the 256 bits is a lock; the operations of a run,
listed in order, are a run of the one-bit automaton of every lock. -/
namespace HostPimSim.Upmem
open Transition (run)

/-- What can happen to the locks: an ACQUIRE that reports success, a RELEASE,
and the boot of thread 0 through the CI. -/
inductive LockEvent where
  | acquired (index : Nat)
  | released (index : Nat)
  | booted
  deriving DecidableEq

def lockStep (index : Nat) (held : Bool) : LockEvent → Option Bool
  | .acquired i => if i = index then (if held then none else some true) else some held
  | .released i => if i = index then some false else some held
  | .booted => some false

def Frees (index : Nat) (events : List LockEvent) : Prop :=
  .released index ∈ events ∨ .booted ∈ events

theorem frees_cons (index : Nat) (event : LockEvent) (events : List LockEvent) :
    Frees index (event :: events) ↔
      event = .released index ∨ event = .booted ∨ Frees index events := by
  simp only [Frees, List.mem_cons, eq_comm]
  tauto

theorem lockStep_kept {index : Nat} {event : LockEvent} {held next : Bool}
    (hstep : lockStep index held event = some next) (hreleased : event ≠ .released index)
    (hbooted : event ≠ .booted) (hacquired : held = true ∨ event ≠ .acquired index) :
    next = held := by
  cases event with
  | acquired i =>
      by_cases hi : i = index
      · have hheld : held = true := hacquired.resolve_right (by simp [hi])
        simp [lockStep, hi, hheld] at hstep
      · simpa [lockStep, hi] using hstep.symm
  | released i =>
      have hi : i ≠ index := fun h => hreleased (by rw [h])
      simpa [lockStep, hi] using hstep.symm
  | booted => exact absurd rfl hbooted

theorem run_kept {index : Nat} {events : List LockEvent} {held last : Bool}
    (hrun : run (lockStep index) held events = some last) (hfrees : ¬Frees index events)
    (hacquired : held = true ∨ .acquired index ∉ events) : last = held := by
  induction events generalizing held with
  | nil => exact (Option.some.inj hrun).symm
  | cons event rest ih =>
      obtain ⟨next, hstep, hrest⟩ := Transition.run_cons_some hrun
      rw [frees_cons, not_or, not_or] at hfrees
      rw [List.mem_cons, not_or] at hacquired
      have hnext : next = held := lockStep_kept hstep hfrees.1 hfrees.2.1
        (hacquired.imp_right fun h => Ne.symm h.1)
      rw [hnext] at hrest
      exact ih hrest hfrees.2.2 (hacquired.imp_right fun h => h.2)

/-- In a run of the automaton a lock is let go before it is acquired again. -/
theorem frees_between {index : Nat} {before between after : List LockEvent} {held last : Bool}
    (hrun : run (lockStep index) held
      (before ++ .acquired index :: (between ++ .acquired index :: after)) = some last) :
    Frees index between := by
  by_contra hnot
  rw [Transition.run_append, Option.bind_eq_some_iff] at hrun
  obtain ⟨first, _, hrun⟩ := hrun
  obtain ⟨second, hacquire, hrun⟩ := Transition.run_cons_some hrun
  have hsecond : second = true := by
    cases first <;> simp [lockStep] at hacquire
    exact hacquire
  rw [hsecond, Transition.run_append, Option.bind_eq_some_iff] at hrun
  obtain ⟨third, hbetween, hrun⟩ := hrun
  obtain ⟨_, hagain, _⟩ := Transition.run_cons_some hrun
  rw [run_kept hbetween hnot (.inl rfl)] at hagain
  simp [lockStep] at hagain

def Dpu.held (dpu : Dpu) (index : Nat) : Bool :=
  (dpu.atomicBits (index / 8)).getLsbD (index % 8)

def lockIndex (addr : BitVec 32) : Nat := (addr &&& 0xFF).toNat

theorem getLsbD_mask {n k : Nat} (hk : k < 8) :
    (((1 <<< n : Nat) : BitVec 8)).getLsbD k = decide (k = n) := by
  rw [BitVec.natCast_eq_ofNat, BitVec.getLsbD_ofNat, Nat.one_shiftLeft, Nat.testBit_two_pow]
  simp [hk, eq_comm]

theorem and_mask_eq_zero (old : BitVec 8) {n : Nat} (hn : n < 8) :
    old &&& ((1 <<< n : Nat) : BitVec 8) = 0 ↔ old.getLsbD n = false := by
  constructor
  · intro h
    have hbit : (old &&& ((1 <<< n : Nat) : BitVec 8)).getLsbD n = false := by
      rw [h]
      exact BitVec.getLsbD_zero
    rw [BitVec.getLsbD_and, getLsbD_mask hn] at hbit
    simpa using hbit
  · intro h
    apply BitVec.eq_of_getLsbD_eq
    intro k hk
    rw [BitVec.getLsbD_and, getLsbD_mask hk]
    by_cases hkn : k = n
    · simp [hkn, h]
    · simp [hkn]

theorem atomicAccess_bit (dpu : Dpu) (addr : BitVec 32) (isRelease : Bool) (index : Nat) :
    (if index / 8 = (atomicAccess dpu addr isRelease).1 then
        (atomicAccess dpu addr isRelease).2.1 else dpu.atomicBits (index / 8)).getLsbD (index % 8) =
      if index = lockIndex addr then !isRelease else dpu.held index := by
  have hmod : index % 8 < 8 := Nat.mod_lt _ (by decide)
  have hfirst : (atomicAccess dpu addr isRelease).1 = lockIndex addr / 8 := by
    cases isRelease <;> rfl
  rw [hfirst]
  by_cases hbyte : index / 8 = lockIndex addr / 8
  · have hindex : index = lockIndex addr ↔ index % 8 = lockIndex addr % 8 := by omega
    rw [if_pos hbyte]
    cases isRelease with
    | true =>
        have hvalue : (atomicAccess dpu addr true).2.1 = dpu.atomicBits (lockIndex addr / 8) &&&
            ~~~((1 <<< (lockIndex addr % 8) : Nat) : BitVec 8) := rfl
        rw [hvalue, BitVec.getLsbD_and, BitVec.getLsbD_not, getLsbD_mask hmod, ← hbyte]
        by_cases h : index % 8 = lockIndex addr % 8 <;> simp [hindex, h, hmod, Dpu.held]
    | false =>
        have hvalue : (atomicAccess dpu addr false).2.1 = dpu.atomicBits (lockIndex addr / 8) |||
            ((1 <<< (lockIndex addr % 8) : Nat) : BitVec 8) := rfl
        rw [hvalue, BitVec.getLsbD_or, getLsbD_mask hmod, ← hbyte]
        by_cases h : index % 8 = lockIndex addr % 8 <;> simp [hindex, h, Dpu.held]
  · have hindex : index ≠ lockIndex addr := fun h => hbyte (by rw [h])
    rw [if_neg hbyte, if_neg hindex]
    rfl

theorem atomicAccess_result (dpu : Dpu) (addr : BitVec 32) (isRelease : Bool) :
    (atomicAccess dpu addr isRelease).2.2 = 0 ↔ dpu.held (lockIndex addr) = isRelease := by
  have hmod : lockIndex addr % 8 < 8 := Nat.mod_lt _ (by decide)
  have hzero := and_mask_eq_zero (dpu.atomicBits (lockIndex addr / 8)) hmod
  cases isRelease with
  | true =>
      have hresult : (atomicAccess dpu addr true).2.2 =
          if dpu.atomicBits (lockIndex addr / 8) &&&
            ((1 <<< (lockIndex addr % 8) : Nat) : BitVec 8) ≠ 0 then 0 else 1 := rfl
      rw [hresult, ← Bool.not_eq_false]
      split
      · rename_i h
        simpa [Dpu.held] using (not_congr hzero).mp h
      · rename_i h
        simpa [Dpu.held] using hzero.mp (not_not.mp h)
  | false =>
      have hresult : (atomicAccess dpu addr false).2.2 =
          if dpu.atomicBits (lockIndex addr / 8) &&&
            ((1 <<< (lockIndex addr % 8) : Nat) : BitVec 8) = 0 then 0 else 1 := rfl
      rw [hresult]
      split
      · rename_i h
        simpa [Dpu.held] using hzero.mp h
      · rename_i h
        simpa [Dpu.held] using (not_congr hzero).mp h

theorem apply_atomicBits (t : Nat) {index : Nat} {value : BitVec 8} (exec : Exec) (effect : Effect)
    (hexec : exec.dpu.atomicBits index = value)
    (heffect : ∀ i v, effect = .setAtomic i v → i = index ∧ v = value) :
    (effect.apply t exec).dpu.atomicBits = exec.dpu.atomicBits := by
  cases effect with
  | setAtomic i v =>
      obtain ⟨rfl, rfl⟩ := heffect i v rfl
      funext j
      simp only [Effect.apply]
      split
      · rename_i hj
        rw [hj, hexec]
      · rfl
  | branch ccKind target value =>
      simp only [Effect.apply]
      split <;> rfl
  | _ => rfl

theorem applyEffects_atomicBits (t index : Nat) {value : BitVec 8} {effects : List Effect}
    {exec : Exec} (hexec : exec.dpu.atomicBits index = value)
    (heffects : Meets (fun effect => ∀ i v, effect = .setAtomic i v → i = index ∧ v = value)
      effects) :
    (applyEffects t exec effects).dpu.atomicBits = exec.dpu.atomicBits := by
  refine applyEffects_invariant (fun e => e.dpu.atomicBits = exec.dpu.atomicBits) ?_
    heffects rfl
  intro e effect he heffect
  rw [apply_atomicBits t e effect (by rw [he]; exact hexec) heffect]
  exact he

def OnlyAccess (dpu : Dpu) (addr : BitVec 32) (isRelease : Bool) (effect : Effect) : Prop :=
  ∀ i v, effect = .setAtomic i v →
    i = (atomicAccess dpu addr isRelease).1 ∧ v = (atomicAccess dpu addr isRelease).2.1

section
variable {dpu : Dpu} {t : Nat} {retire : Exec → Nat → Dpu × Bool}

theorem held_after_access {addr : BitVec 32} {isRelease : Bool} {rest : List Effect}
    (hretire : retire = retireHot ∨ retire = retireOpcode)
    (hrest : Meets (OnlyAccess dpu addr isRelease) rest) (index : Nat) :
    (retire (applyEffects t (dpu.startExec t)
      (.setAtomic (atomicAccess dpu addr isRelease).1 (atomicAccess dpu addr isRelease).2.1 ::
        rest)) t).1.held index =
      if index = lockIndex addr then !isRelease else dpu.held index := by
  rw [← atomicAccess_bit]
  unfold Dpu.held applyEffects
  rw [retire_atomicBits hretire, List.foldl_cons]
  rw [← applyEffects, applyEffects_atomicBits t _ (by simp [Effect.apply]) hrest]
  rfl

theorem held_without_access {effects : List Effect}
    (hretire : retire = retireHot ∨ retire = retireOpcode)
    (heffects : Meets (fun effect => ∀ i v, effect ≠ .setAtomic i v) effects) (index : Nat) :
    (retire (applyEffects t (dpu.startExec t) effects) t).1.held index = dpu.held index := by
  unfold Dpu.held
  rw [retire_atomicBits hretire, applyEffects_atomicBits t 0 rfl]
  · rfl
  · exact fun effect heffect i v h => absurd h (heffects effect heffect i v)

end

theorem hotEffects_lock (decoded : RawDecoded48) (o : Operands)
    (hop : decoded.hotOp = .acquire ∨ decoded.hotOp = .release) :
    ∃ rest, hotEffects decoded o =
        .setAtomic (atomicAccess o.dpu (o.vra + o.vimm) (decoded.hotOp = .release)).1
          (atomicAccess o.dpu (o.vra + o.vimm) (decoded.hotOp = .release)).2.1 :: rest ∧
      Meets (OnlyAccess o.dpu (o.vra + o.vimm) (decoded.hotOp = .release)) rest := by
  have hmeets := ofDecoded_hotEffects decoded o
  have hhead : ∃ rest, hotEffects decoded o =
      .setAtomic (atomicAccess o.dpu (o.vra + o.vimm) (decoded.hotOp = .release)).1
        (atomicAccess o.dpu (o.vra + o.vimm) (decoded.hotOp = .release)).2.1 :: rest := by
    unfold hotEffects
    rcases hop with hop | hop <;> exact ⟨_, by simp only [hop, List.cons_append]; rfl⟩
  obtain ⟨rest, heffects⟩ := hhead
  rw [heffects, meets_cons] at hmeets
  refine ⟨rest, heffects, fun effect heffect i v h => ?_⟩
  have hof := hmeets.2 effect heffect
  rw [h] at hof
  exact hof.2

theorem opcodeEffects_lock (f : Fields)
    (hop : f.opcode = some .acquire ∨ f.opcode = some .release) :
    ∃ rest, opcodeEffects f =
        .setAtomic (atomicAccess f.dpu (f.raVal + f.imm16s) (f.opcode = some .release)).1
          (atomicAccess f.dpu (f.raVal + f.imm16s) (f.opcode = some .release)).2.1 :: rest ∧
      Meets (OnlyAccess f.dpu (f.raVal + f.imm16s) (f.opcode = some .release)) rest := by
  have hmeets := ofFields_opcodeEffects f
  have hhead : ∃ rest, opcodeEffects f =
      .setAtomic (atomicAccess f.dpu (f.raVal + f.imm16s) (f.opcode = some .release)).1
        (atomicAccess f.dpu (f.raVal + f.imm16s) (f.opcode = some .release)).2.1 :: rest := by
    have halu : aluResult f = none := by rcases hop with hop | hop <;> simp only [aluResult, hop]
    unfold opcodeEffects
    rcases hop with hop | hop <;> exact ⟨_, by simp only [halu, hop]; rfl⟩
  obtain ⟨rest, heffects⟩ := hhead
  rw [heffects, meets_cons] at hmeets
  refine ⟨rest, heffects, fun effect heffect i v h => ?_⟩
  have hof := hmeets.2 effect heffect
  rw [h] at hof
  exact hof.2

section
variable (decodeRawWord48 : BitVec 64 → RawDecoded48)

/-- The ACQUIRE or RELEASE that `execute_once` is about to execute: the address,
and whether it releases. -/
def lockAccess (dpu : Dpu) (t : Nat) : Option (BitVec 32 × Bool) :=
  (fetch dpu t).bind fun inst48 =>
    let decoded := decodeRawWord48 inst48
    let o := operands decoded dpu t
    let f := fields inst48 dpu t
    if handled decodeRawWord48 inst48 then
      (if decoded.hotOp = .acquire ∨ decoded.hotOp = .release then
        some (o.vra + o.vimm, decoded.hotOp = .release) else none)
    else if f.opcode = some .acquire ∨ f.opcode = some .release then
      some (f.raVal + f.imm16s, f.opcode = some .release)
    else none

theorem executeOnce_held (dpu : Dpu) (t index : Nat) :
    (executeOnce decodeRawWord48 dpu t).1.held index =
      match lockAccess decodeRawWord48 dpu t with
      | none => dpu.held index
      | some (addr, isRelease) =>
          if index = lockIndex addr then !isRelease else dpu.held index := by
  unfold lockAccess
  cases hfetch : fetch dpu t with
  | none =>
      rw [executeOnce_none hfetch]
      rfl
  | some inst48 =>
      dsimp only [Option.bind_some]
      cases hhandled : handled decodeRawWord48 inst48 with
      | true =>
          rw [executeOnce_handled hfetch hhandled, if_pos rfl]
          by_cases hop : (decodeRawWord48 inst48).hotOp = .acquire ∨
              (decodeRawWord48 inst48).hotOp = .release
          · obtain ⟨rest, heffects, hrest⟩ :=
              hotEffects_lock _ (operands (decodeRawWord48 inst48) dpu t) hop
            rw [heffects, if_pos hop]
            exact held_after_access (.inl rfl) hrest index
          · rw [if_neg hop]
            refine held_without_access (.inl rfl) (fun effect heffect i v h => ?_) index
            have hof := ofDecoded_hotEffects _ _ effect heffect
            rw [h] at hof
            exact hop hof.1
      | false =>
          rw [executeOnce_not_handled hfetch hhandled, if_neg (by simp)]
          by_cases hop : (fields inst48 dpu t).opcode = some .acquire ∨
              (fields inst48 dpu t).opcode = some .release
          · obtain ⟨rest, heffects, hrest⟩ := opcodeEffects_lock _ hop
            rw [heffects, if_pos hop]
            exact held_after_access (.inr rfl) hrest index
          · rw [if_neg hop]
            refine held_without_access (.inr rfl) (fun effect heffect i v h => ?_) index
            have hof := ofFields_opcodeEffects _ effect heffect
            rw [h] at hof
            exact hop hof.1

theorem takeCondBranch_dpu (t : Nat) (exec : Exec) (decoded : RawDecoded48) (value : BitVec 32) :
    (applyEffects t exec (takeCondBranch decoded value)).dpu = exec.dpu := by
  unfold takeCondBranch
  split
  · simp only [applyEffects, List.foldl_cons, List.foldl_nil, Effect.apply]
    split <;> rfl
  · rfl

theorem retire_zf {retire : Exec → Nat → Dpu × Bool}
    (hretire : retire = retireHot ∨ retire = retireOpcode) (exec : Exec) (t : Nat) :
    ((retire exec t).1.tasklets t).zf = (exec.dpu.tasklets t).zf := by
  rw [retire_commits hretire]
  simp [Exec.commitPc, Dpu.setTasklet]

theorem executeOnce_reports {dpu : Dpu} {t : Nat} {addr : BitVec 32} {isRelease : Bool}
    (haccess : lockAccess decodeRawWord48 dpu t = some (addr, isRelease)) :
    ((executeOnce decodeRawWord48 dpu t).1.tasklets t).zf =
      if (atomicAccess dpu addr isRelease).2.2 = 0 then 1 else 0 := by
  have hset (exec : Exec) (value : BitVec 32) :
      ((applyEffects t exec [.setZf value]).dpu.tasklets t).zf = if value = 0 then 1 else 0 := by
    simp [applyEffects, Effect.apply, Dpu.setTasklet, Tasklet.setZf]
  unfold lockAccess at haccess
  obtain ⟨inst48, hfetch, haccess⟩ := Option.bind_eq_some_iff.mp haccess
  dsimp only at haccess
  cases hhandled : handled decodeRawWord48 inst48 with
  | true =>
      rw [if_pos hhandled] at haccess
      split at haccess
      · rename_i hop
        cases haccess
        rw [executeOnce_handled hfetch hhandled, retire_zf (.inl rfl)]
        rcases hop with hop | hop
        all_goals
          simp only [hotEffects, hop, applyEffects_append, takeCondBranch_dpu]
          exact hset _ _
      · cases haccess
  | false =>
      rw [if_neg (by simp [hhandled])] at haccess
      split at haccess
      · rename_i hop
        cases haccess
        rw [executeOnce_not_handled hfetch hhandled, retire_zf (.inr rfl)]
        have halu : aluResult (fields inst48 dpu t) = none := by
          rcases hop with hop | hop <;> simp only [aluResult, hop]
        rcases hop with hop | hop
        all_goals
          simp only [opcodeEffects, halu, hop]
          exact hset _ _
      · cases haccess

/-- The events of one call of `execute_once`. -/
def lockEvents (dpu : Dpu) (t : Nat) : List LockEvent :=
  match lockAccess decodeRawWord48 dpu t with
  | none => []
  | some (addr, isRelease) =>
      if isRelease then [.released (lockIndex addr)]
      else if (atomicAccess dpu addr false).2.2 = 0 then [.acquired (lockIndex addr)]
      else []

theorem executeOnce_run (dpu : Dpu) (t index : Nat) :
    run (lockStep index) (dpu.held index) (lockEvents decodeRawWord48 dpu t) =
      some ((executeOnce decodeRawWord48 dpu t).1.held index) := by
  rw [executeOnce_held]
  unfold lockEvents
  cases lockAccess decodeRawWord48 dpu t with
  | none => rfl
  | some access =>
      obtain ⟨addr, isRelease⟩ := access
      cases isRelease with
      | true => by_cases h : index = lockIndex addr <;> simp [lockStep, h, eq_comm]
      | false =>
          have hresult := atomicAccess_result dpu addr false
          simp only [Bool.false_eq_true, if_false]
          by_cases h : index = lockIndex addr
          · subst h
            split
            · rename_i hfree
              simp [lockStep, hresult.mp hfree]
            · rename_i hfree
              simpa using (not_congr hresult).mp hfree
          · split
            · simp [lockStep, Ne.symm h]
            · simp

theorem taskletTurn_run (dpu : Dpu) (t index : Nat) :
    run (lockStep index) (dpu.held index) (lockEvents decodeRawWord48 dpu t) =
      some ((taskletTurn decodeRawWord48 dpu t).held index) := by
  have hrun := executeOnce_run decodeRawWord48 dpu t index
  unfold taskletTurn
  split
  · rename_i hrunnable
    have hfetch : fetch dpu t = none := by simp [fetch, hrunnable]
    rw [executeOnce_none hfetch] at hrun
    exact hrun
  · dsimp only
    split
    · exact hrun
    · exact hrun

/-- The turns of the loop of `control`, in order. -/
def schedule : Nat → Dpu → List Nat
  | 0, _ => []
  | budget + 1, dpu =>
      if dpu.runBits = 0 then []
      else List.range kNumTasklets ++ schedule budget (round decodeRawWord48 dpu)

theorem rounds_schedule (budget : Nat) (dpu : Dpu) :
    rounds decodeRawWord48 budget dpu =
      (schedule decodeRawWord48 budget dpu).foldl (taskletTurn decodeRawWord48) dpu := by
  induction budget generalizing dpu with
  | zero => rfl
  | succ budget ih =>
      unfold rounds schedule
      split
      · rfl
      · rw [ih, List.foldl_append]
        rfl

def turnsEvents : Dpu → List Nat → List LockEvent
  | _, [] => []
  | dpu, t :: rest =>
      lockEvents decodeRawWord48 dpu t ++ turnsEvents (taskletTurn decodeRawWord48 dpu t) rest

theorem turns_run (turns : List Nat) (dpu : Dpu) (index : Nat) :
    run (lockStep index) (dpu.held index) (turnsEvents decodeRawWord48 dpu turns) =
      some ((turns.foldl (taskletTurn decodeRawWord48) dpu).held index) := by
  induction turns generalizing dpu with
  | nil => rfl
  | cons t rest ih =>
      unfold turnsEvents
      rw [Transition.run_append, taskletTurn_run]
      exact ih (taskletTurn decodeRawWord48 dpu t)

def controlEvents (dpu : Dpu) (ciCmd : BitVec 64) : List LockEvent :=
  if isRunStateReadCommand ciCmd then
    if !dpu.mram.bound then []
    else turnsEvents decodeRawWord48 dpu (schedule decodeRawWord48 kProgressBudget dpu)
  else if decodeThreadCommand ciCmd = some (.boot, 0) then [.booted] else []

theorem threadCommand_atomicBits (dpu : Dpu) (kind : ThreadCmdKind) (threadId : Nat) :
    (threadCommand dpu kind threadId).atomicBits =
      if kind = .boot ∧ threadId = 0 then fun _ => 0 else dpu.atomicBits := by
  cases kind <;> simp [threadCommand, Dpu.clearBits]

theorem control_run (dpu : Dpu) (ciCmd : BitVec 64) (index : Nat) :
    run (lockStep index) (dpu.held index) (controlEvents decodeRawWord48 dpu ciCmd) =
      some ((control decodeRawWord48 dpu ciCmd).held index) := by
  unfold control controlEvents
  split
  · split
    · rfl
    · rw [turns_run, ← rounds_schedule]
      rfl
  · cases hrow : decodeThreadCommand ciCmd with
    | none => rfl
    | some row =>
        obtain ⟨kind, threadId⟩ := row
        have hbits := threadCommand_atomicBits dpu kind threadId
        simp only [Option.some.injEq, Prod.mk.injEq, Dpu.held, Dpu.setLastControlResult]
        rw [hbits]
        split
        · simp [lockStep]
        · rfl

/-- What a run of a DPU is made of: calls of `execute_once` in any order,
commands, and transfers. -/
inductive DpuAction where
  | execute (t : Nat)
  | input (input : DpuInput)

def Dpu.act (dpu : Dpu) : DpuAction → Dpu
  | .execute t => (executeOnce decodeRawWord48 dpu t).1
  | .input input => dpu.receive decodeRawWord48 input

def actEvents (dpu : Dpu) : DpuAction → List LockEvent
  | .execute t => lockEvents decodeRawWord48 dpu t
  | .input (.control ciCmd) => controlEvents decodeRawWord48 dpu ciCmd
  | .input (.transfer _ _ _) => []

theorem act_run (dpu : Dpu) (action : DpuAction) (index : Nat) :
    run (lockStep index) (dpu.held index) (actEvents decodeRawWord48 dpu action) =
      some ((dpu.act decodeRawWord48 action).held index) := by
  cases action with
  | execute t => exact executeOnce_run decodeRawWord48 dpu t index
  | input input =>
      cases input with
      | control ciCmd => exact control_run decodeRawWord48 dpu ciCmd index
      | transfer iram wram mram => rfl

def lockLog : Dpu → List DpuAction → List LockEvent
  | _, [] => []
  | dpu, action :: rest =>
      actEvents decodeRawWord48 dpu action ++ lockLog (dpu.act decodeRawWord48 action) rest

theorem lockLog_run (actions : List DpuAction) (dpu : Dpu) (index : Nat) :
    run (lockStep index) (dpu.held index) (lockLog decodeRawWord48 dpu actions) =
      some ((actions.foldl (Dpu.act decodeRawWord48) dpu).held index) := by
  induction actions generalizing dpu with
  | nil => rfl
  | cons action rest ih =>
      unfold lockLog
      rw [Transition.run_append, act_run]
      exact ih (dpu.act decodeRawWord48 action)

/-- Locks exclude: in the log of any run a lock is released, or thread 0 booted,
between two successful ACQUIREs; a step whose events do not name a lock leaves
its bit alone; and an ACQUIRE reports 0, in the zero flag, exactly if it is in the log. -/
theorem locks_exclude :
    (∀ (dpu : Dpu) (actions : List DpuAction) (index : Nat)
      (before between after : List LockEvent),
      lockLog decodeRawWord48 dpu actions =
        before ++ .acquired index :: (between ++ .acquired index :: after) →
      .released index ∈ between ∨ .booted ∈ between) ∧
    (∀ (dpu : Dpu) (action : DpuAction) (index : Nat),
      .acquired index ∉ actEvents decodeRawWord48 dpu action →
      .released index ∉ actEvents decodeRawWord48 dpu action →
      .booted ∉ actEvents decodeRawWord48 dpu action →
      (dpu.act decodeRawWord48 action).held index = dpu.held index) ∧
    (∀ (dpu : Dpu) (t : Nat) (addr : BitVec 32),
      lockAccess decodeRawWord48 dpu t = some (addr, false) →
      (((dpu.act decodeRawWord48 (.execute t)).tasklets t).zf = 1 ↔
        actEvents decodeRawWord48 dpu (.execute t) = [.acquired (addr &&& 0xFF).toNat])) := by
  refine ⟨fun dpu actions index before between after hlog => ?_,
    fun dpu action index hacquired hreleased hbooted => ?_, fun dpu t addr haccess => ?_⟩
  · have hrun := lockLog_run decodeRawWord48 actions dpu index
    rw [hlog] at hrun
    exact frees_between hrun
  · have hrun := act_run decodeRawWord48 dpu action index
    exact run_kept hrun (not_or.mpr ⟨hreleased, hbooted⟩) (.inr hacquired)
  · have hzf := executeOnce_reports decodeRawWord48 haccess
    unfold Dpu.act actEvents lockEvents
    dsimp only
    rw [hzf, haccess]
    dsimp only
    rw [if_neg Bool.false_ne_true]
    split
    · simp [lockIndex]
    · simp

end

/-- Tasklet 0 is about to acquire lock 5, to release it and to acquire it again. -/
def lockingDpu : Dpu :=
  { Dpu.powerOn with
    iram := fun slot => if slot = 1 then 0x011818180005 else 0x001818180005
    runBits := 1 }

theorem locks_exclude_lockingDpu :
    lockLog (fun _ => .empty) lockingDpu (List.replicate 3 (.execute 0)) =
      [.acquired 5, .released 5, .acquired 5] ∧
    (LockEvent.released 5 ∈ [LockEvent.released 5] ∨ .booted ∈ [LockEvent.released 5]) ∧
    (lockingDpu.act (fun _ => .empty) (.execute 0)).held 6 = lockingDpu.held 6 ∧
    ((lockingDpu.act (fun _ => .empty) (.execute 0)).tasklets 0).zf = 1 := by
  have hlocks := locks_exclude fun _ => .empty
  have hlog : lockLog (fun _ => .empty) lockingDpu (List.replicate 3 (.execute 0)) =
      [.acquired 5, .released 5, .acquired 5] := by decide
  exact ⟨hlog, hlocks.1 lockingDpu _ 5 [] [.released 5] [] hlog,
    hlocks.2.1 lockingDpu (.execute 0) 6 (by decide) (by decide) (by decide),
    (hlocks.2.2 lockingDpu 0 5 (by decide)).mpr (by decide)⟩

end HostPimSim.Upmem
