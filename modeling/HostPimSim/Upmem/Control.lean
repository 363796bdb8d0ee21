import HostPimSim.Upmem.Execute

/-! Thread commands and `UPMEMDPU::control`. -/
namespace HostPimSim.Upmem

inductive ThreadCmdKind where
  | boot
  | resume
  | clearRun
  | readRun
  deriving DecidableEq

/-- Byte `source` of `x`, moved to byte `target`. -/
def moveByte (x : BitVec 64) (source target : Nat) : BitVec 64 :=
  ((x >>> (source * 8)) &&& 0xFF) <<< (target * 8)

def encodeFrameFromX (x : BitVec 64) (tag : BitVec 8) : BitVec 64 :=
  0x3300000000000000 ||| moveByte x 2 0 ||| moveByte x 5 1 ||| moveByte x 4 2 |||
    moveByte x 0 3 ||| moveByte x 1 4 ||| moveByte x 3 5 ||| tag.setWidth 64 <<< 48

def ThreadCmdKind.base : ThreadCmdKind → BitVec 64
  | .boot => 0x7d8320000000
  | .resume => 0x7d0320000000
  | .clearRun => 0x7c8320000000
  | .readRun => 0x7c0330000000

def threadFrameCommand (base : BitVec 64) (threadId : BitVec 8) : BitVec 64 :=
  encodeFrameFromX
    (base ||| (24 &&& 31) <<< 34 ||| (threadId &&& 0xF).setWidth 64 <<< 20 |||
      ((threadId >>> 4) &&& 0xF).setWidth 64 <<< 16) 0x98

def threadCommands : List (ThreadCmdKind × Nat) :=
  [ThreadCmdKind.boot, .resume, .clearRun, .readRun].flatMap fun kind =>
    (List.range kNumTasklets).map fun tid => (kind, tid)

def threadCmdCache (row : ThreadCmdKind × Nat) : BitVec 64 :=
  threadFrameCommand row.1.base (BitVec.ofNat 8 row.2)

def decodeThreadCommand (cmd : BitVec 64) : Option (ThreadCmdKind × Nat) :=
  threadCommands.find? fun row => threadCmdCache row == cmd

def isRunStateReadCommand (ciCmd : BitVec 64) : Bool :=
  byte ciCmd 56 == 0x33 && byte ciCmd 48 == 0x00 && byte ciCmd 0 == 0x84 &&
    byte ciCmd 8 == 0x02

def Dpu.clearLastControlResult (dpu : Dpu) : Dpu :=
  { dpu with lastControlResult := 0xFFFFFFFF }

def Dpu.setLastControlResult (dpu : Dpu) (value : BitVec 32) : Dpu :=
  { dpu with
    lastControlResult := value
    lastControlGeneration := dpu.lastControlGeneration + 1 }

def threadCommand (dpu : Dpu) (kind : ThreadCmdKind) (threadId : Nat) : Dpu :=
  let b := bit threadId
  match kind with
  | .boot =>
      { dpu.setTasklet threadId .reset with
        runBits := dpu.runBits ||| b
        sleepBits := dpu.sleepBits &&& ~~~b
        replayBits := dpu.replayBits &&& ~~~b
        atomicBits := if threadId = 0 then fun _ => 0 else dpu.atomicBits }
  | .resume =>
      { dpu with
        runBits := dpu.runBits ||| b
        sleepBits := dpu.sleepBits &&& ~~~b }
  | .clearRun => dpu.clearBits threadId
  | .readRun => dpu

def kProgressBudget : Nat := 8388608

def control (decodeRawWord48 : BitVec 64 → RawDecoded48) (dpu : Dpu) (ciCmd : BitVec 64) :
    Dpu :=
  if isRunStateReadCommand ciCmd then
    if !dpu.mram.bound then
      { dpu with runBits := 0, sleepBits := 0, replayBits := 0 }.setLastControlResult 0
    else
      let stopped := rounds decodeRawWord48 kProgressBudget dpu
      stopped.setLastControlResult (if stopped.runBits ≠ 0 then 1 else 0)
  else match decodeThreadCommand ciCmd with
    | none => dpu.setLastControlResult 0
    | some (kind, threadId) =>
        (threadCommand dpu kind threadId).setLastControlResult
          (if dpu.runBits.getLsbD threadId then 1 else 0)

section
variable (decodeRawWord48 : BitVec 64 → RawDecoded48)

@[simp] theorem threadCommand_generation (dpu : Dpu) (kind : ThreadCmdKind) (threadId : Nat) :
    (threadCommand dpu kind threadId).lastControlGeneration = dpu.lastControlGeneration := by
  cases kind <;> rfl

theorem apply_generation (t : Nat) (exec : Exec) (effect : Effect) :
    (effect.apply t exec).dpu.lastControlGeneration = exec.dpu.lastControlGeneration := by
  cases effect with
  | branch ccKind target value =>
      simp only [Effect.apply]
      split <;> rfl
  | _ => rfl

theorem applyEffects_generation (t : Nat) (effects : List Effect) (exec : Exec) :
    (applyEffects t exec effects).dpu.lastControlGeneration =
      exec.dpu.lastControlGeneration := by
  induction effects generalizing exec with
  | nil => rfl
  | cons effect rest ih => exact (ih (effect.apply t exec)).trans (apply_generation t exec effect)

@[simp] theorem perfCounterRetireStep_generation (dpu : Dpu) (isReplay : Bool) :
    (dpu.perfCounterRetireStep isReplay).lastControlGeneration = dpu.lastControlGeneration := by
  unfold Dpu.perfCounterRetireStep
  split <;> rfl

theorem executeOnce_generation (dpu : Dpu) (t : Nat) :
    (executeOnce decodeRawWord48 dpu t).1.lastControlGeneration =
      dpu.lastControlGeneration := by
  unfold executeOnce
  cases fetch dpu t with
  | none => rfl
  | some inst48 =>
      dsimp only
      split
      · simp only [retireHot, perfCounterRetireStep_generation]
        split <;> exact applyEffects_generation t _ _
      · simp only [retireOpcode, perfCounterRetireStep_generation]
        exact applyEffects_generation t _ _

theorem taskletTurn_generation (dpu : Dpu) (t : Nat) :
    (taskletTurn decodeRawWord48 dpu t).lastControlGeneration = dpu.lastControlGeneration := by
  unfold taskletTurn
  split
  · rfl
  · dsimp only
    split <;> exact executeOnce_generation decodeRawWord48 dpu t

theorem turns_generation (schedule : List Nat) (dpu : Dpu) :
    (schedule.foldl (taskletTurn decodeRawWord48) dpu).lastControlGeneration =
      dpu.lastControlGeneration := by
  induction schedule generalizing dpu with
  | nil => rfl
  | cons t rest ih => exact (ih _).trans (taskletTurn_generation decodeRawWord48 dpu t)

theorem rounds_generation (budget : Nat) (dpu : Dpu) :
    (rounds decodeRawWord48 budget dpu).lastControlGeneration = dpu.lastControlGeneration := by
  induction budget generalizing dpu with
  | zero => rfl
  | succ budget ih =>
      unfold rounds
      split
      · rfl
      · exact (ih _).trans (turns_generation decodeRawWord48 _ dpu)

theorem control_generation (dpu : Dpu) (ciCmd : BitVec 64) :
    (control decodeRawWord48 dpu ciCmd).lastControlGeneration =
      dpu.lastControlGeneration + 1 := by
  unfold control
  split
  · split
    · rfl
    · simp only [Dpu.setLastControlResult, rounds_generation]
  · cases decodeThreadCommand ciCmd with
    | none => rfl
    | some row => simp only [Dpu.setLastControlResult, threadCommand_generation]

end

end HostPimSim.Upmem
