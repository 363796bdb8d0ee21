import HostPimSim.Upmem.Decode
import HostPimSim.Upmem.Memory

/-! The pipeline of a DPU.  An instruction is executed as the list of its
effects, in the order of the source, on the tasklet that runs it. -/
namespace HostPimSim.Upmem

def kNumTasklets : Nat := 24

structure Tasklet where
  gp : Nat → BitVec 32
  pc : BitVec 64
  zf : BitVec 8
  cf : BitVec 8

def Tasklet.reset : Tasklet := ⟨fun _ => 0, 0, 0, 0⟩

structure Dpu where
  iram : Iram
  wram : Wram
  mram : Mram
  dmaMuxStatus : BitVec 8
  dmaCtrlReg : BitVec 8
  tasklets : Nat → Tasklet
  perfCounterRaw : BitVec 32
  perfCounterMode : BitVec 8
  runBits : BitVec 64
  sleepBits : BitVec 64
  replayBits : BitVec 64
  atomicBits : Nat → BitVec 8
  lastControlResult : BitVec 32
  lastControlGeneration : BitVec 64

def Dpu.powerOn : Dpu where
  iram := fun _ => 0
  wram := fun _ => 0
  mram := ⟨false, 0, fun _ => 0⟩
  dmaMuxStatus := 0
  dmaCtrlReg := 0
  tasklets := fun _ => .reset
  perfCounterRaw := 0
  perfCounterMode := 0
  runBits := 0
  sleepBits := 0
  replayBits := 0
  atomicBits := fun _ => 0
  lastControlResult := 0
  lastControlGeneration := 0

def bit (index : Nat) : BitVec 64 := BitVec.twoPow 64 index

def signExtend24 (value : BitVec 32) : BitVec 32 :=
  (value.setWidth 24).signExtend 32

def rotl32 (value : BitVec 32) (shift : BitVec 32) : BitVec 32 :=
  let s := (shift &&& 31).toNat
  if s = 0 then value else value <<< s ||| value >>> (32 - s)

def rotr32 (value : BitVec 32) (shift : BitVec 32) : BitVec 32 :=
  let s := (shift &&& 31).toNat
  if s = 0 then value else value >>> s ||| value <<< (32 - s)

def countLeadingOnesU32 (value : BitVec 32) : BitVec 32 :=
  if value = 0xFFFFFFFF then 32 else (~~~value).clz

def countLeadingSignU32 (value : BitVec 32) : BitVec 32 :=
  if value = 0 ∨ value = 0xFFFFFFFF then 31
  else
    let leading := if value &&& 0x80000000 ≠ 0 then (~~~value).clz else value.clz
    if leading = 0 then 0 else leading - 1

def saturatingAddS32 (lhs rhs : BitVec 32) : BitVec 32 :=
  let sum := lhs.toInt + rhs.toInt
  if sum < -2 ^ 31 then 0x80000000
  else if sum > 2 ^ 31 - 1 then 0x7FFFFFFF
  else BitVec.ofInt 32 sum

def addWithCarry (lhs rhs : BitVec 32) (carry : Bool) : BitVec 32 × Bool :=
  let sum := lhs.setWidth 64 + rhs.setWidth 64 + (if carry then 1 else 0)
  (sum.setWidth 32, sum >>> 32 ≠ 0)

def shiftLeftOut (value : BitVec 32) (sh : BitVec 32) : BitVec 32 :=
  if sh = 0 then 0 else value >>> (32 - sh.toNat)

def shiftRightOut (value : BitVec 32) (sh : BitVec 32) : BitVec 32 :=
  if sh = 0 then 0 else value <<< (32 - sh.toNat)

def lowByte (value : BitVec 32) : BitVec 8 := value.setWidth 8

def highByte (value : BitVec 32) : BitVec 8 := (value >>> 8).setWidth 8

/-- Register numbers from 24 on stand for constants. -/
def Dpu.readReg (dpu : Dpu) (t idx : Nat) : BitVec 32 :=
  if idx < 24 then (dpu.tasklets t).gp idx
  else match idx with
    | 25 => 1
    | 26 => 0xFFFFFFFF
    | 27 => 0x80000000
    | 28 => BitVec.ofNat 32 t
    | 29 => BitVec.ofNat 32 (t * 2)
    | 30 => BitVec.ofNat 32 (t * 4)
    | 31 => BitVec.ofNat 32 (t * 8)
    | _ => 0

theorem readReg_scalar (dpu : Dpu) (t : Nat) {r : Nat} (hr : r < 24) :
    dpu.readReg t r = (dpu.tasklets t).gp r := by
  unfold Dpu.readReg
  rw [if_pos hr]

theorem readReg_congr {first second : Dpu} {t r : Nat}
    (h : r < 24 → (first.tasklets t).gp r = (second.tasklets t).gp r) :
    first.readReg t r = second.readReg t r := by
  unfold Dpu.readReg
  split
  · rename_i hr
    exact h hr
  · rfl

def Tasklet.writeReg (tasklet : Tasklet) (idx : Nat) (value : BitVec 32) : Tasklet :=
  if idx < 24 then
    { tasklet with gp := fun i => if i = idx then value else tasklet.gp i }
  else tasklet

def dregSlot (regNum : Nat) : Nat := regNum / 2

def Dpu.readDreg (dpu : Dpu) (t idx : Nat) : BitVec 64 :=
  let slot := dregSlot idx
  if slot ≥ 12 then 0
  else (dpu.readReg t (slot * 2)).setWidth 64 <<< 32 |||
    (dpu.readReg t (slot * 2 + 1)).setWidth 64

def Tasklet.writeDreg (tasklet : Tasklet) (idx : Nat) (value : BitVec 64) : Tasklet :=
  let slot := dregSlot idx
  if slot ≥ 12 then tasklet
  else (tasklet.writeReg (slot * 2) ((value >>> 32).setWidth 32)).writeReg (slot * 2 + 1)
    (value.setWidth 32)

def Tasklet.setZf (tasklet : Tasklet) (value : BitVec 32) : Tasklet :=
  { tasklet with zf := if value = 0 then 1 else 0 }

def Tasklet.setCf (tasklet : Tasklet) (value : Bool) : Tasklet :=
  { tasklet with cf := if value then 1 else 0 }

def Dpu.setTasklet (dpu : Dpu) (t : Nat) (tasklet : Tasklet) : Dpu :=
  { dpu with tasklets := fun i => if i = t then tasklet else dpu.tasklets i }

def Dpu.perfCounterRead32 (dpu : Dpu) : BitVec 32 := dpu.perfCounterRaw >>> 4

def Dpu.perfCounterConfig (dpu : Dpu) (configBits : BitVec 32) : Dpu :=
  let packed := configBits &&& 0x7
  let modeBits := ((packed >>> 1) &&& 0x3).setWidth 8
  let mode := if modeBits = 0 then dpu.perfCounterMode else modeBits
  { dpu with
    perfCounterMode := mode
    perfCounterRaw :=
      if packed &&& 0x1 ≠ 0 then (if mode = 3 then 0 else 0xFFFFFFFF)
      else dpu.perfCounterRaw }

def Dpu.perfCounterRetireStep (dpu : Dpu) (isReplayStep : Bool) : Dpu :=
  if dpu.perfCounterMode = 1 ∨ (dpu.perfCounterMode = 2 ∧ isReplayStep = false) then
    { dpu with perfCounterRaw := dpu.perfCounterRaw + 1 }
  else dpu

@[simp] theorem perfCounterRetireStep_tasklets (dpu : Dpu) (isReplay : Bool) :
    (dpu.perfCounterRetireStep isReplay).tasklets = dpu.tasklets := by
  unfold Dpu.perfCounterRetireStep
  split <;> rfl

@[simp] theorem perfCounterRetireStep_runBits (dpu : Dpu) (isReplay : Bool) :
    (dpu.perfCounterRetireStep isReplay).runBits = dpu.runBits := by
  unfold Dpu.perfCounterRetireStep
  split <;> rfl

@[simp] theorem perfCounterRetireStep_atomicBits (dpu : Dpu) (isReplay : Bool) :
    (dpu.perfCounterRetireStep isReplay).atomicBits = dpu.atomicBits := by
  unfold Dpu.perfCounterRetireStep
  split <;> rfl

def evalCcKindSimple (ccKind : CcKind) (zf cf : Bool) (value : BitVec 32) : Bool :=
  match ccKind with
  | .true => true
  | .zero => value = 0
  | .nonZero => value ≠ 0
  | .carry => cf
  | .noCarry => !cf
  | .lessEqualUnsigned => cf || value = 0
  | .greaterUnsigned => !cf && value ≠ 0
  | .lessSigned => value.toInt < 0
  | .lessEqualSigned => value.toInt ≤ 0
  | .greaterSigned => value.toInt > 0
  | .greaterEqualSigned => value.toInt ≥ 0
  | .xZero => zf && value = 0
  | .xNonZero => !(zf && value = 0)
  | .max => value = 32
  | .notMax => value ≠ 32
  | .even => value &&& 1 = 0
  | .odd => value &&& 1 ≠ 0
  | _ => false

def evalAddSubwordNoCarry (bits : Nat) (lhs rhs : BitVec 32) : Bool :=
  if bits < 5 ∨ bits > 31 then false
  else lhs.toNat % 2 ^ bits + rhs.toNat % 2 ^ bits < 2 ^ bits

def evalSubcCcSimple (ccKind : CcKind) (zf cf : Bool) (value : BitVec 32)
    (oldZf overflow : Bool) : Bool :=
  let signedLess := value.toInt < 0 || overflow
  let equal64 := oldZf && value = 0
  match ccKind with
  | .xZero => value = 0 && oldZf
  | .xNonZero => !(value = 0 && oldZf)
  | .xLessEqualUnsigned => cf || oldZf
  | .xGreaterUnsigned => cf && !oldZf
  | .xLessEqualSigned => signedLess || equal64
  | .xGreaterSigned => !signedLess && !equal64
  | _ => evalCcKindSimple ccKind zf cf value

/-- One assignment of `execute_once`.  Registers and flags are those of the
tasklet that executes; of the two ways to boot, one also clears the bits of
sleep and replay. -/
inductive Effect where
  | writeReg (idx : Nat) (value : BitVec 32)
  | writeDreg (idx : Nat) (value : BitVec 64)
  | setZf (value : BitVec 32)
  | setCf (value : Bool)
  | branch (ccKind : CcKind) (target : BitVec 64) (value : BitVec 32)
  | jump (target : BitVec 64)
  | halt
  | setAtomic (index : Nat) (value : BitVec 8)
  | resume (index : Nat)
  | boot (index : Nat) (clears : Bool)
  | loadDma (bytes : Nat) (wramOffset mramOffset : BitVec 32)
  | storeDma (bytes : Nat) (mramOffset wramOffset : BitVec 32)
  | storeWram (wram : Wram)
  | perfConfig (configBits : BitVec 32)

structure Exec where
  dpu : Dpu
  nextPc : BitVec 64
  keepRunning : Bool

def Effect.apply (t : Nat) (exec : Exec) : Effect → Exec
  | .writeReg idx value =>
      { exec with dpu := exec.dpu.setTasklet t ((exec.dpu.tasklets t).writeReg idx value) }
  | .writeDreg idx value =>
      { exec with dpu := exec.dpu.setTasklet t ((exec.dpu.tasklets t).writeDreg idx value) }
  | .setZf value =>
      { exec with dpu := exec.dpu.setTasklet t ((exec.dpu.tasklets t).setZf value) }
  | .setCf value =>
      { exec with dpu := exec.dpu.setTasklet t ((exec.dpu.tasklets t).setCf value) }
  | .branch ccKind target value =>
      let tasklet := exec.dpu.tasklets t
      if evalCcKindSimple ccKind (tasklet.zf ≠ 0) (tasklet.cf ≠ 0) value then
        { exec with nextPc := target }
      else exec
  | .jump target => { exec with nextPc := target }
  | .halt => { exec with keepRunning := false }
  | .setAtomic index value =>
      { exec with dpu := { exec.dpu with
          atomicBits := fun i => if i = index then value else exec.dpu.atomicBits i } }
  | .resume index =>
      { exec with dpu := { exec.dpu with
          sleepBits := exec.dpu.sleepBits &&& ~~~bit index
          runBits := exec.dpu.runBits ||| bit index
          replayBits := exec.dpu.replayBits &&& ~~~bit index } }
  | .boot index clears =>
      let cleared := if clears then bit index else 0
      { exec with dpu := { exec.dpu.setTasklet index .reset with
          runBits := exec.dpu.runBits ||| bit index
          sleepBits := exec.dpu.sleepBits &&& ~~~cleared
          replayBits := exec.dpu.replayBits &&& ~~~cleared } }
  | .loadDma bytes wramOffset mramOffset =>
      { exec with dpu := { exec.dpu with
          wram := dmaToWramFromMram exec.dpu.wram exec.dpu.mram bytes wramOffset
            mramOffset } }
  | .storeDma bytes mramOffset wramOffset =>
      { exec with dpu := { exec.dpu with
          mram := dmaToMramFromWram exec.dpu.mram exec.dpu.wram bytes mramOffset
            wramOffset } }
  | .storeWram wram => { exec with dpu := { exec.dpu with wram := wram } }
  | .perfConfig configBits => { exec with dpu := exec.dpu.perfCounterConfig configBits }

def applyEffects (t : Nat) (exec : Exec) (effects : List Effect) : Exec :=
  effects.foldl (Effect.apply t) exec

theorem applyEffects_append (t : Nat) (exec : Exec) (first second : List Effect) :
    applyEffects t exec (first ++ second) = applyEffects t (applyEffects t exec first) second :=
  List.foldl_append

def threadIndex (addr : BitVec 32) : Nat :=
  (((addr >>> 8) &&& 0xFF) ^^^ (addr &&& 0xFF)).toNat

/-- The tasklet exists and is neither running nor sleeping. -/
def Dpu.bootable (dpu : Dpu) (index : Nat) : Bool :=
  index < kNumTasklets && !dpu.runBits.getLsbD index && !dpu.sleepBits.getLsbD index

def Dpu.resumable (dpu : Dpu) (index : Nat) : Bool :=
  index < kNumTasklets && (dpu.sleepBits.getLsbD index || !dpu.runBits.getLsbD index)

def bootEffects (dpu : Dpu) (index : Nat) (clears : Bool) : List Effect :=
  if dpu.bootable index then [.boot index clears] else []

def resumeEffects (dpu : Dpu) (index : Nat) : List Effect :=
  if dpu.resumable index then [.resume index] else []

/-- `atomic_bits_[index / 8]` after the operation, and whether it failed. -/
def atomicAccess (dpu : Dpu) (addr : BitVec 32) (isRelease : Bool) :
    Nat × BitVec 8 × BitVec 32 :=
  let index := (addr &&& 0xFF).toNat
  let old := dpu.atomicBits (index / 8)
  let mask : BitVec 8 := 1 <<< (index % 8)
  if isRelease then (index / 8, old &&& ~~~mask, if old &&& mask ≠ 0 then 0 else 1)
  else (index / 8, old ||| mask, if old &&& mask = 0 then 0 else 1)

end HostPimSim.Upmem
