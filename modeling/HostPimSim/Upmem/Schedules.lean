import HostPimSim.Lib.Schedule
import HostPimSim.Upmem.Multiword
import HostPimSim.Upmem.Polling
import HostPimSim.Upmem.PrivateTurn

/-! The loop of `UPMEMDPU::control` gives the tasklets their turns in the order of their
numbers.  As long as each keeps to bytes of its own and to bytes that nobody writes, any other
order comes to the same. -/
namespace HostPimSim.Upmem

def Effect.halts : Effect → Bool
  | .halt => true
  | _ => false

theorem applyEffects_keepRunning (t : Nat) (effects : List Effect) (exec : Exec) :
    (applyEffects t exec effects).keepRunning =
      (exec.keepRunning && !effects.any Effect.halts) := by
  induction effects generalizing exec with
  | nil => simp [applyEffects]
  | cons effect rest ih =>
      have hone : (effect.apply t exec).keepRunning = (exec.keepRunning && !effect.halts) := by
        cases effect with
        | branch ccKind target value =>
            simp only [Effect.apply]
            split <;> simp [Effect.halts]
        | _ => simp [Effect.apply, Effect.halts]
      have hrest := ih (effect.apply t exec)
      rw [hone, Bool.and_assoc, ← Bool.not_or] at hrest
      exact hrest

theorem isOwn_boots {effect : Effect} (h : effect.isOwn) : effect.boots = none := by
  cases effect with
  | boot index clears => exact h.elim
  | _ => rfl

theorem apply_own {t : Nat} {effect : Effect} (h : effect.isOwn) (exec : Exec) (tasklet : Tasklet) :
    (effect.apply t exec).dpu.setTasklet t tasklet = exec.dpu.setTasklet t tasklet := by
  cases effect with
  | writeReg | writeDreg | setZf | setCf => exact setTasklet_setTasklet exec.dpu t _ tasklet
  | branch ccKind target value =>
      simp only [Effect.apply]
      split <;> rfl
  | jump | halt => rfl
  | _ => exact h.elim

structure Exec.EndsAt (exec : Exec) (t : Nat) (dpu : Dpu) (wram : Wram) (tasklet : Tasklet)
    (keepRunning : Bool) : Prop where
  commitPc : exec.commitPc t = { dpu with wram := wram }.setTasklet t tasklet
  nextPc : exec.nextPc = tasklet.pc
  keepRunning : exec.keepRunning = keepRunning

theorem applyEffects_own {t : Nat} {effects : List Effect} (h : Meets Effect.isOwn effects)
    (exec : Exec) (tasklet : Tasklet) :
    (applyEffects t exec effects).dpu.setTasklet t tasklet = exec.dpu.setTasklet t tasklet := by
  induction effects generalizing exec with
  | nil => rfl
  | cons effect rest ih =>
      rw [meets_cons] at h
      exact (ih h.2 (effect.apply t exec)).trans (apply_own h.1 exec tasklet)

theorem own_endsAt {t : Nat} {effects : List Effect} (h : Meets Effect.isOwn effects) (dpu : Dpu) :
    (applyEffects t (dpu.startExec t) effects).EndsAt t dpu dpu.wram
      (onTasklet (dpu.tasklets t).advanced effects) (!effects.any Effect.halts) := by
  have hboots : Meets (fun effect => effect.boots ≠ some t) effects := by
    intro effect he
    rw [isOwn_boots (h effect he)]
    exact (Option.some_ne_none t).symm
  have hretired := applyEffects_retired hboots (dpu.startExec t)
  refine ⟨?_, congrArg Tasklet.pc hretired, applyEffects_keepRunning t effects (dpu.startExec t)⟩
  calc (applyEffects t (dpu.startExec t) effects).commitPc t
      = (applyEffects t (dpu.startExec t) effects).dpu.setTasklet t
          (onTasklet ((dpu.startExec t).retired t) effects) := by rw [← hretired]; rfl
    _ = dpu.setTasklet t (onTasklet (dpu.tasklets t).advanced effects) :=
        applyEffects_own h (dpu.startExec t) _

/-- What a turn changes beside WRAM: the tasklet, its run, sleep and replay bits, and the
performance counter. -/
structure TurnEnd where
  tasklet : Tasklet
  stops : Bool
  replayed : Bool
  counts : Bool

def Dpu.settle (dpu : Dpu) (t : Nat) (ending : TurnEnd) (wram : Wram) : Dpu :=
  { dpu with
    wram := wram
    tasklets := fun i => if i = t then ending.tasklet else dpu.tasklets i
    perfCounterRaw := if ending.counts then dpu.perfCounterRaw + 1 else dpu.perfCounterRaw
    runBits := if ending.stops then dpu.runBits &&& ~~~bit t else dpu.runBits
    sleepBits := if ending.stops then dpu.sleepBits &&& ~~~bit t else dpu.sleepBits
    replayBits := if ending.replayed then dpu.replayBits &&& ~~~bit t else dpu.replayBits }

theorem settle_self (dpu : Dpu) (t : Nat) :
    dpu.settle t ⟨dpu.tasklets t, false, false, false⟩ dpu.wram = dpu := by
  unfold Dpu.settle
  have htasklets : (fun i => if i = t then dpu.tasklets t else dpu.tasklets i) = dpu.tasklets := by
    funext i
    split
    · rename_i hi
      rw [hi]
    · rfl
  simp [htasklets]

/-- The new memories of two alike states: nothing changes outside the bytes of the tasklet, and
these come out the same. -/
structure Shares (owners : Owners) (t : Nat) (x y : Dpu) (first second : Wram) : Prop where
  first_frame : ∀ a, owners a ≠ some t → first a = x.wram a
  second_frame : ∀ a, owners a ≠ some t → second a = y.wram a
  own : ∀ a, owners a = some t → second a = first a

section
variable {owners : Owners} {t : Nat} {x y : Dpu}

theorem Alike.shares (h : Alike owners t x y) : Shares owners t x y x.wram y.wram :=
  ⟨fun _ _ => rfl, fun _ _ => rfl, fun a ha => h.wram a (.inl ha)⟩

theorem Alike.shares_store (h : Alike owners t x y) {width : Width} {offset : BitVec 32}
    (value : BitVec 64) (bigEndian : Bool)
    (hwithin : (WramAccess.store width offset).Within owners t) :
    Shares owners t x y (x.wram.storeWidth width offset value bigEndian)
      (y.wram.storeWidth width offset value bigEndian) := by
  have hframe : ∀ (wram : Wram) (a : Nat), owners a ≠ some t →
      wram.storeWidth width offset value bigEndian a = wram a := by
    intro wram a ha
    cases hbounds : Wram.relInBounds offset width.bytes with
    | false => rw [wram.storeWidth_outside hbounds]
    | true =>
        refine wram.storeWidth_frame width offset value bigEndian fun hi => ha ?_
        have howner := hwithin hbounds (a - offset.toNat) (by omega)
        rwa [Nat.add_sub_cancel' hi.1] at howner
  exact ⟨hframe x.wram, hframe y.wram,
    fun a ha => storeWidth_alike width offset value bigEndian (h.wram a (.inl ha))⟩

theorem Twin.endsAt (h : Alike owners t x y) {effects effects' : List Effect}
    (htwin : Twin owners t x y effects effects') :
    ∃ tasklet keepRunning first second, Shares owners t x y first second ∧
      (applyEffects t (x.startExec t) effects).EndsAt t x first tasklet keepRunning ∧
      (applyEffects t (y.startExec t) effects').EndsAt t y second tasklet keepRunning := by
  cases htwin with
  | own hown =>
      have hfirst := own_endsAt (t := t) hown x
      have hsecond := own_endsAt (t := t) hown y
      rw [h.tasklet] at hsecond
      exact ⟨_, _, _, _, h.shares, hfirst, hsecond⟩
  | store value bigEndian hwithin =>
      have hstart : (y.tasklets t).advanced = (x.tasklets t).advanced := by rw [h.tasklet]
      refine ⟨(x.tasklets t).advanced, true, _, _, h.shares_store value bigEndian hwithin,
        ⟨rfl, rfl, rfl⟩, ?_⟩
      rw [← hstart]
      exact ⟨rfl, rfl, rfl⟩

end

def countsStep (mode : BitVec 8) (isReplayStep : Bool) : Bool :=
  mode = 1 ∨ (mode = 2 ∧ isReplayStep = false)

theorem perfCounterRetireStep_eq (dpu : Dpu) (isReplayStep : Bool) :
    dpu.perfCounterRetireStep isReplayStep = { dpu with
      perfCounterRaw := if countsStep dpu.perfCounterMode isReplayStep then dpu.perfCounterRaw + 1
        else dpu.perfCounterRaw } := by
  unfold Dpu.perfCounterRetireStep countsStep
  by_cases hcounts : dpu.perfCounterMode = 1 ∨ (dpu.perfCounterMode = 2 ∧ isReplayStep = false)
  · rw [if_pos hcounts, if_pos (decide_eq_true hcounts)]
  · rw [if_neg hcounts, if_neg (by simpa using hcounts)]

/-- The rest of a turn, after `execute_once`. -/
def finishTurn (t : Nat) (executed : Dpu × Bool) : Dpu :=
  if executed.2 then executed.1 else executed.1.clearBits t

theorem taskletTurn_eq (decodeRawWord48 : BitVec 64 → RawDecoded48) {dpu : Dpu} {t : Nat}
    (hrunnable : dpu.runnable t = true) :
    taskletTurn decodeRawWord48 dpu t = finishTurn t (executeOnce decodeRawWord48 dpu t) := by
  unfold taskletTurn finishTurn
  rw [if_neg (by simp [hrunnable])]

section
variable {exec : Exec} {t : Nat} {dpu : Dpu} {wram : Wram} {tasklet : Tasklet} {keepRunning : Bool}

theorem Exec.EndsAt.retireHot (h : exec.EndsAt t dpu wram tasklet keepRunning) :
    finishTurn t (retireHot exec t) = dpu.settle t
      ⟨tasklet, !keepRunning, !keepRunning, countsStep dpu.perfCounterMode false⟩ wram := by
  unfold finishTurn Upmem.retireHot Dpu.settle
  dsimp only
  rw [h.commitPc, h.keepRunning, perfCounterRetireStep_eq]
  cases keepRunning with
  | true => rfl
  | false => simp [Dpu.clearBits, Dpu.setTasklet, BitVec.and_assoc]

theorem Exec.EndsAt.retireOpcode (h : exec.EndsAt t dpu wram tasklet keepRunning) :
    finishTurn t (retireOpcode exec t) = dpu.settle t
      ⟨tasklet, !(keepRunning && (iramSlot tasklet.pc).isSome), true,
        countsStep dpu.perfCounterMode (dpu.replayBits.getLsbD t)⟩ wram := by
  unfold finishTurn Upmem.retireOpcode Dpu.settle
  dsimp only
  rw [h.commitPc, h.keepRunning, h.nextPc, perfCounterRetireStep_eq]
  cases keepRunning && (iramSlot tasklet.pc).isSome with
  | true => rfl
  | false => simp [Dpu.clearBits, Dpu.setTasklet, BitVec.and_assoc]

end

section
variable (decodeRawWord48 : BitVec 64 → RawDecoded48) {owners : Owners} {t : Nat} {x y : Dpu}

theorem turnAccess_alike (h : Alike owners t x y) :
    turnAccess decodeRawWord48 y t = turnAccess decodeRawWord48 x t := by
  unfold turnAccess
  rw [h.fetch]
  cases fetch x t with
  | none => rfl
  | some inst48 =>
      dsimp only
      unfold wordAccess
      rw [operands_alike _ h.tasklet, fields_alike inst48 h.tasklet]
      rfl

theorem privateTurn_alike (h : Alike owners t x y) :
    PrivateTurn decodeRawWord48 owners y t ↔ PrivateTurn decodeRawWord48 owners x t := by
  unfold PrivateTurn
  rw [turnAccess_alike decodeRawWord48 h]

theorem turns_alike (h : Alike owners t x y) (hprivate : PrivateTurn decodeRawWord48 owners x t) :
    ∃ ending first second, Shares owners t x y first second ∧
      taskletTurn decodeRawWord48 x t = x.settle t ending first ∧
      taskletTurn decodeRawWord48 y t = y.settle t ending second := by
  have hrunnable : y.runnable t = x.runnable t := by
    unfold Dpu.runnable
    rw [h.runBit, h.sleepBit]
  cases hrun : x.runnable t with
  | false =>
      refine ⟨⟨x.tasklets t, false, false, false⟩, x.wram, y.wram, h.shares, ?_, ?_⟩
      · rw [settle_self, taskletTurn, if_pos (by simp [hrun])]
      · rw [← h.tasklet, settle_self, taskletTurn, if_pos (by simp [hrunnable, hrun])]
  | true =>
      rw [taskletTurn_eq decodeRawWord48 hrun, taskletTurn_eq decodeRawWord48 (hrunnable.trans hrun)]
      unfold PrivateTurn turnAccess at hprivate
      cases hfetch : fetch x t with
      | none =>
          refine ⟨⟨x.tasklets t, true, true, false⟩, x.wram, y.wram, h.shares, ?_, ?_⟩
          · rw [executeOnce_none hfetch]
            exact congrArg (Dpu.clearBits · t) (settle_self x t).symm
          · rw [executeOnce_none (h.fetch.trans hfetch), ← h.tasklet]
            exact congrArg (Dpu.clearBits · t) (settle_self y t).symm
      | some inst48 =>
          rw [hfetch] at hprivate
          dsimp only at hprivate
          unfold wordAccess at hprivate
          cases hhandled : handled decodeRawWord48 inst48 with
          | true =>
              rw [if_pos hhandled] at hprivate
              obtain ⟨tasklet, keepRunning, first, second, hshares, hfirst, hsecond⟩ :=
                (hotEffects_twin h (decodeRawWord48 inst48) hprivate).endsAt h
              have hx := hfirst.retireHot
              have hy := hsecond.retireHot
              rw [← executeOnce_handled hfetch hhandled] at hx
              rw [← executeOnce_handled (h.fetch.trans hfetch) hhandled, h.perfCounterMode] at hy
              exact ⟨_, first, second, hshares, hx, hy⟩
          | false =>
              rw [if_neg (by simp [hhandled])] at hprivate
              obtain ⟨tasklet, keepRunning, first, second, hshares, hfirst, hsecond⟩ :=
                (opcodeEffects_twin h inst48 hprivate).endsAt h
              have hx := hfirst.retireOpcode
              have hy := hsecond.retireOpcode
              rw [← executeOnce_not_handled hfetch hhandled] at hx
              rw [← executeOnce_not_handled (h.fetch.trans hfetch) hhandled, h.perfCounterMode,
                h.replayBit] at hy
              exact ⟨_, first, second, hshares, hx, hy⟩

theorem clearBit_other {u : Nat} (hne : u ≠ t) (clears : Bool) (bits : BitVec 64) :
    (if clears then bits &&& ~~~bit t else bits).getLsbD u = bits.getLsbD u := by
  split
  · rw [BitVec.getLsbD_and, BitVec.getLsbD_not, bit, BitVec.getLsbD_twoPow,
      decide_eq_false hne.symm, Bool.and_false, Bool.not_false, Bool.and_true]
    by_cases hu : u < 64
    · rw [decide_eq_true hu, Bool.and_true]
    · rw [BitVec.getLsbD_of_ge bits u (by omega), Bool.false_and]
  · rfl

theorem clearBits_comm {u : Nat} (clears clears' : Bool) (bits : BitVec 64) :
    (if clears' then (if clears then bits &&& ~~~bit t else bits) &&& ~~~bit u
      else if clears then bits &&& ~~~bit t else bits) =
    (if clears then (if clears' then bits &&& ~~~bit u else bits) &&& ~~~bit t
      else if clears' then bits &&& ~~~bit u else bits) := by
  cases clears <;> cases clears' <;> simp [BitVec.and_assoc, BitVec.and_comm (~~~bit t)]

theorem settle_alike {u : Nat} (hne : u ≠ t) (ending : TurnEnd) {wram : Wram}
    (hframe : ∀ a, owners a ≠ some t → wram a = x.wram a) :
    Alike owners u x (x.settle t ending wram) where
  iram := rfl
  tasklet := if_neg hne
  runBit := clearBit_other hne ending.stops x.runBits
  sleepBit := clearBit_other hne ending.stops x.sleepBits
  replayBit := clearBit_other hne ending.replayed x.replayBits
  perfCounterMode := rfl
  wram := by
    intro a ha
    apply hframe
    cases ha with
    | inl howner =>
        rw [howner]
        exact fun h => hne (Option.some.inj h)
    | inr hnone =>
        rw [hnone]
        exact (Option.some_ne_none t).symm

theorem settle_comm {u : Nat} (hne : u ≠ t) (ending ending' : TurnEnd)
    (wram wram' wram'' : Wram) :
    (x.settle t ending wram).settle u ending' wram'' =
      (x.settle u ending' wram').settle t ending wram'' := by
  unfold Dpu.settle
  dsimp only
  congr 1
  · funext i
    by_cases hi : i = u
    · rw [if_pos hi, if_neg (hi ▸ hne), if_pos hi]
    · rw [if_neg hi, if_neg hi]
  · cases ending.counts <;> cases ending'.counts <;> rfl
  · exact clearBits_comm ending.stops ending'.stops x.runBits
  · exact clearBits_comm ending.stops ending'.stops x.sleepBits
  · exact clearBits_comm ending.replayed ending'.replayed x.replayBits

theorem turn_alike {dpu : Dpu} {u : Nat} (hne : u ≠ t)
    (hprivate : PrivateTurn decodeRawWord48 owners dpu t) :
    Alike owners u dpu (taskletTurn decodeRawWord48 dpu t) := by
  obtain ⟨ending, first, _, hshares, hturn, _⟩ :=
    turns_alike decodeRawWord48 (Alike.refl owners t dpu) hprivate
  rw [hturn]
  exact settle_alike hne ending hshares.first_frame

/-- Private turns of different tasklets commute. -/
theorem turns_commuting (owners : Owners) :
    Schedule.Commuting (taskletTurn decodeRawWord48) (PrivateTurn decodeRawWord48 owners) where
  stable := by
    intro dpu t u hne hprivate
    exact privateTurn_alike decodeRawWord48 (turn_alike decodeRawWord48 hne.symm hprivate)
  comm := by
    intro dpu t u hne ht hu
    obtain ⟨ending, first, second, hshares, hturn, hthen⟩ :=
      turns_alike decodeRawWord48 (turn_alike decodeRawWord48 hne hu) ht
    obtain ⟨ending', first', second', hshares', hturn', hthen'⟩ :=
      turns_alike decodeRawWord48 (turn_alike decodeRawWord48 hne.symm ht) hu
    have hfirst : ∀ a, (taskletTurn decodeRawWord48 dpu t).wram a = first a := by
      intro a
      rw [hturn]
      rfl
    have hfirst' : ∀ a, (taskletTurn decodeRawWord48 dpu u).wram a = first' a := by
      intro a
      rw [hturn']
      rfl
    -- Both orders leave the bytes of each tasklet as its own turn leaves them.
    have hwram : second' = second := by
      funext a
      by_cases htheirs : owners a = some t
      · have hnot : owners a ≠ some u := fun h => hne (Option.some.inj (htheirs.symm.trans h))
        rw [hshares'.second_frame a hnot, hfirst, hshares.own a htheirs]
      · rw [hshares.second_frame a htheirs, hfirst']
        by_cases hours : owners a = some u
        · exact hshares'.own a hours
        · rw [hshares'.second_frame a hours, hfirst, hshares.first_frame a htheirs,
            hshares'.first_frame a hours]
    rw [hthen, hthen', hturn, hturn', hwram]
    exact settle_comm hne.symm ending ending' first first' second

theorem taskletTurn_idle {dpu : Dpu} (hidle : dpu.runBits = 0) (t : Nat) :
    taskletTurn decodeRawWord48 dpu t = dpu := by
  unfold taskletTurn
  exact if_pos (by simp [Dpu.runnable, hidle])

theorem turns_idle {dpu : Dpu} (hidle : dpu.runBits = 0) (order : List Nat) :
    order.foldl (taskletTurn decodeRawWord48) dpu = dpu := by
  induction order with
  | nil => rfl
  | cons t rest ih =>
      rw [List.foldl_cons, taskletTurn_idle decodeRawWord48 hidle]
      exact ih

/-- The turns of the loop of `control`, in its order. -/
def loopOrder (budget : Nat) : List Nat :=
  (List.replicate budget (List.range kNumTasklets)).flatten

theorem rounds_eq_turns (budget : Nat) (dpu : Dpu) :
    rounds decodeRawWord48 budget dpu =
      (loopOrder budget).foldl (taskletTurn decodeRawWord48) dpu := by
  induction budget generalizing dpu with
  | zero => rfl
  | succ budget ih =>
      unfold rounds
      split
      · rename_i hidle
        exact (turns_idle decodeRawWord48 hidle _).symm
      · have horder : loopOrder (budget + 1) = List.range kNumTasklets ++ loopOrder budget := rfl
        rw [ih, horder, List.foldl_append]
        rfl

/-- Where the turns of the loop keep to bytes that each tasklet owns or nobody writes, so do the
same turns in any other order, and the DPU comes to the same end. -/
theorem rounds_any_order {budget : Nat} {dpu : Dpu}
    (hprivate : Schedule.Quiet (taskletTurn decodeRawWord48) (PrivateTurn decodeRawWord48 owners)
      dpu (loopOrder budget)) {order : List Nat} (horder : order.Perm (loopOrder budget)) :
    Schedule.Quiet (taskletTurn decodeRawWord48) (PrivateTurn decodeRawWord48 owners) dpu order ∧
      order.foldl (taskletTurn decodeRawWord48) dpu = rounds decodeRawWord48 budget dpu := by
  obtain ⟨hquiet, hend⟩ := (turns_commuting decodeRawWord48 owners).perm horder.symm hprivate
  exact ⟨hquiet, hend.symm.trans (rounds_eq_turns decodeRawWord48 budget dpu).symm⟩

end

/-- Two tasklets that each store their number to a word of their own, load a word that nobody
writes, and stop. -/
def twoTasklets : Dpu :=
  { programDpu [0x4F00181C0000, 0x470018180040, 0x380000000000] [] with runBits := 3 }

def ownWords : Owners := fun a => if a < 8 then some (a / 4) else none

theorem rounds_any_order_reversed :
    (loopOrder 3).reverse.foldl (taskletTurn fun _ => .empty) twoTasklets =
        rounds (fun _ => .empty) 3 twoTasklets ∧
      (rounds (fun _ => .empty) 3 twoTasklets).wram 4 = 1 := by
  have hprivate : Schedule.Quiet (taskletTurn fun _ => .empty)
      (PrivateTurn (fun _ => .empty) ownWords) twoTasklets (loopOrder 3) := by decide +kernel
  exact ⟨(rounds_any_order (fun _ => .empty) hprivate (List.reverse_perm _)).2, by decide +kernel⟩

end HostPimSim.Upmem
