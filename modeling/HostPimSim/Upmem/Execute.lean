import HostPimSim.Upmem.Pipeline

/-! `Pipeline::execute_once` and `UPMEMDPU::control`.  The table of
`decode_raw_word_48` is a parameter; everything after it is here. -/
namespace HostPimSim.Upmem

def takeCondBranch (decoded : RawDecoded48) (value : BitVec 32) : List Effect :=
  if decoded.hasCc && decoded.hasPc then
    [.branch decoded.ccKind (decoded.pc.setWidth 64 * 8) value]
  else []

/-- `write_reg(drc, value)` for an instruction with a scalar destination. -/
def writeRc (decoded : RawDecoded48) (value : BitVec 32) : List Effect :=
  if decoded.hasRc then [.writeReg (decoded.rc &&& 0x1F).toNat value] else []

def decodedDc (decoded : RawDecoded48) : Nat :=
  if decoded.hasDc then (decoded.dc &&& 0x1F).toNat else 0

def decodedDb (decoded : RawDecoded48) : Nat :=
  if decoded.hasDb then (decoded.db &&& 0x1F).toNat else 0

def writeExtDreg32 (decoded : RawDecoded48) (value : BitVec 32) : List Effect :=
  if !decoded.hasDc then []
  else match decoded.writebackMode with
    | .dregSign32 => [.writeDreg (decodedDc decoded) (value.signExtend 64)]
    | .dregZero32 => [.writeDreg (decodedDc decoded) (value.setWidth 64)]
    | .none => []

def writeResult (decoded : RawDecoded48) (value : BitVec 32) : List Effect :=
  if decoded.writebackMode ≠ .none then writeExtDreg32 decoded value
  else if !decoded.suppressScalarWrite then writeRc decoded value
  else []

structure Operands where
  dpu : Dpu
  t : Nat
  pc : BitVec 64
  vra : BitVec 32
  vrb : BitVec 32
  vimm : BitVec 32
  voff : BitVec 32
  bigEndian : Bool

def operands (decoded : RawDecoded48) (dpu : Dpu) (t : Nat) : Operands where
  dpu := dpu
  t := t
  pc := (dpu.tasklets t).pc
  vra := dpu.readReg t (if decoded.hasRa then (decoded.ra &&& 0x1F).toNat else 24)
  vrb := dpu.readReg t (if decoded.hasRb then (decoded.rb &&& 0x1F).toNat else 24)
  vimm := decoded.imm
  voff := if decoded.offUsesSignExtend24 then signExtend24 decoded.off else decoded.off
  bigEndian := decoded.hasEndian && decoded.endian ≠ 0

def addEffects (decoded : RawDecoded48) (o : Operands) : List Effect :=
  let rhs :=
    if decoded.immIsSigned8 then (decoded.imm.setWidth 8).signExtend 32
    else if decoded.hasRb then o.vrb else o.vimm
  let (x, carry) := addWithCarry o.vra rhs false
  let addCond := decoded.hasCc && decoded.hasPc && decoded.ccKind = .subwordNoCarry &&
    evalAddSubwordNoCarry decoded.ccSubwordBits o.vra rhs
  writeRc decoded x ++ [.setZf x, .setCf carry] ++
    (if addCond then [.jump (decoded.pc.setWidth 64 * 8)] else takeCondBranch decoded x)

def subEffects (decoded : RawDecoded48) (o : Operands) : List Effect :=
  let lhs := if decoded.subLhsIsImm then o.vimm else o.vra
  let rhs :=
    if decoded.rhsIsReg then o.vrb else if decoded.subLhsIsImm then o.vra else o.vimm
  let x := lhs - rhs
  let cond := evalCcKindSimple decoded.ccKind (x = 0) (lhs < rhs) x
  [.setZf x, .setCf (lhs < rhs)] ++
    writeRc decoded (if decoded.isRrrc then (if cond then 1 else 0) else x) ++
    (if !decoded.isRrrc && !decoded.isZrrc then takeCondBranch decoded x else [])

def subcEffects (decoded : RawDecoded48) (o : Operands) : List Effect :=
  let lhs := if decoded.subcLhsIsImm then o.vimm else o.vra
  let rhsBase :=
    if decoded.rhsIsReg then o.vrb else if decoded.subcLhsIsImm then o.vra else o.vimm
  let tasklet := o.dpu.tasklets o.t
  let rhs := rhsBase + (if tasklet.cf ≠ 0 then 1 else 0)
  let x := lhs - rhs
  let overflow := (lhs.msb && !rhsBase.msb && !x.msb) || (!lhs.msb && rhsBase.msb && x.msb)
  let carry := lhs < rhs || rhs < rhsBase
  let cond := evalSubcCcSimple decoded.ccKind (x = 0) carry x (tasklet.zf ≠ 0) overflow
  [.setZf x, .setCf carry] ++
    writeRc decoded (if decoded.isRrrc then (if cond then 1 else 0) else x) ++
    (if decoded.hasCc && decoded.hasPc && !decoded.isRrrc && !decoded.isZrrc && cond then
      [.jump (decoded.pc.setWidth 64 * 8)] else [])

def mulStepEffects (decoded : RawDecoded48) (o : Operands) : List Effect :=
  let sh := (decoded.shift &&& 31).toNat
  if decoded.hotFmt = .rrrici then
    let dbEvenReg := if decoded.hasDb then decodedDb decoded else decodedDc decoded
    let dcEvenReg := decodedDc decoded
    let dbEven := o.dpu.readReg o.t dbEvenReg
    let dbOdd := o.dpu.readReg o.t (dbEvenReg + 1)
    let newEven := dbEven >>> 1
    let newOdd := if dbEven &&& 1 ≠ 0 then dbOdd + o.vra <<< sh
      else o.dpu.readReg o.t (dcEvenReg + 1)
    [.writeReg dcEvenReg newEven, .writeReg (dcEvenReg + 1) newOdd, .setZf newEven,
      .setCf false] ++ takeCondBranch decoded newEven
  else
    let srcEven := decodedDb decoded / 2 * 2
    let dstEven := decodedDc decoded / 2 * 2
    let dbe := o.dpu.readReg o.t srcEven
    let dbo := o.dpu.readReg o.t (srcEven + 1)
    let x := dbe >>> 1
    let y := if dbe &&& 1 ≠ 0 then dbo + o.vra <<< sh else dbo
    [.writeReg dstEven x, .writeReg (dstEven + 1) y, .setZf x]

def divStepEffects (decoded : RawDecoded48) (o : Operands) : List Effect :=
  let dbEvenReg := if decoded.hasDb then decodedDb decoded else decodedDc decoded
  let dcEvenReg := decodedDc decoded
  let dbEven := o.dpu.readReg o.t dbEvenReg
  let dbOdd := o.dpu.readReg o.t (dbEvenReg + 1)
  let shifted := o.vra <<< (decoded.shift &&& 31).toNat
  let trial := dbOdd - shifted
  let newEven := if dbOdd ≥ shifted then dbEven <<< 1 ||| 1 else dbEven <<< 1
  let newOdd := if dbOdd ≥ shifted then trial else o.dpu.readReg o.t (dcEvenReg + 1)
  [.writeReg dcEvenReg newEven, .writeReg (dcEvenReg + 1) newOdd, .setZf trial,
    .setCf false] ++ takeCondBranch decoded trial

def shiftValue (op : HotOp) (vra sh : BitVec 32) : BitVec 32 :=
  match op with
  | .lsl | .lslS | .lslU => vra <<< sh.toNat
  | .lslx | .lslxS | .lslxU => shiftLeftOut vra sh
  | .lsrx | .lsrxS | .lsrxU => shiftRightOut vra sh
  | _ => vra >>> sh.toNat

def shiftSignExtends : HotOp → Bool
  | .lslS | .lslxS | .lsrS | .lsrxS => true
  | _ => false

def shiftEffects (decoded : RawDecoded48) (o : Operands) : List Effect :=
  let sh := if decoded.hasRb then o.vrb &&& 31 else decoded.shift &&& 31
  let x := shiftValue decoded.hotOp o.vra sh
  let writeBool := decoded.hasCc && !decoded.hasPc && (decoded.hasRc || decoded.hasDc)
  let cond := writeBool &&
    evalCcKindSimple decoded.ccKind (x = 0) ((o.dpu.tasklets o.t).cf ≠ 0) x
  let ext := if shiftSignExtends decoded.hotOp then x.signExtend 64 else x.setWidth 64
  (if decoded.hasDc then
    [.writeDreg (decodedDc decoded) (if writeBool then (if cond then 1 else 0) else ext)]
  else writeRc decoded (if writeBool then (if cond then 1 else 0) else x)) ++
    [.setZf x] ++ takeCondBranch decoded x

def moveEffects (decoded : RawDecoded48) (o : Operands) : List Effect :=
  let rhs := o.dpu.readDreg o.t (decodedDb decoded)
  let ccValue : BitVec 32 := if rhs = 0 then 0 else 1
  [.writeDreg (decodedDc decoded) rhs] ++
    (if decoded.hotOp = .swapd then
      [.writeDreg (decodedDb decoded) (o.dpu.readDreg o.t (decodedDc decoded))] else []) ++
    [.setZf ccValue] ++ takeCondBranch decoded ccValue

def mulBytes (op : HotOp) (a b : BitVec 32) : BitVec 32 :=
  match op with
  | .mulUlUl => (lowByte a).setWidth 32 * (lowByte b).setWidth 32
  | .mulUlUh => (lowByte a).setWidth 32 * (highByte b).setWidth 32
  | .mulUhUl => (highByte a).setWidth 32 * (lowByte b).setWidth 32
  | _ => (highByte a).setWidth 32 * (highByte b).setWidth 32

/-- `shifted` is the shifted operand, which the zero flag is set from. -/
def shiftAddEffects (decoded : RawDecoded48) (o : Operands) : List Effect :=
  let sh := (decoded.shift &&& 31).toNat
  match decoded.hotOp with
  | .lslAdd | .lslAddS | .lslAddU =>
      let x := o.vrb + o.vra <<< sh
      writeResult decoded x ++ [.setZf (o.vra <<< sh)] ++ takeCondBranch decoded x
  | .lslSub | .lslSubS | .lslSubU =>
      let x := o.vrb - o.vra <<< sh
      writeResult decoded x ++ [.setZf (o.vra <<< sh), .setCf (o.vrb < o.vra <<< sh)] ++
        takeCondBranch decoded x
  | _ =>
      let x := o.vrb + o.vra >>> sh
      writeResult decoded x ++ [.setZf (o.vra >>> sh)] ++ takeCondBranch decoded x

def dmaRequest (vra : BitVec 32) (imm : BitVec 32) : Nat :=
  ((1 + ((imm + ((vra >>> 24) &&& 0xFF)) &&& 0xFF)) <<< 3).toNat

/-- The case of `hot_op` in the decoded switch. -/
def hotEffects (decoded : RawDecoded48) (o : Operands) : List Effect :=
  let addr := o.vra + o.voff
  let threadAddr := o.vra + o.vimm
  let wram := o.dpu.wram
  match decoded.hotOp with
  | .or | .orS | .orU =>
      let x := o.vra ||| (if decoded.hasRb then o.vrb else o.vimm)
      writeResult decoded x ++ [.setZf x] ++ takeCondBranch decoded x
  | .add => addEffects decoded o
  | .addc =>
      let (x, carry) := addWithCarry o.vra (if decoded.hasRb then o.vrb else o.vimm)
        ((o.dpu.tasklets o.t).cf ≠ 0)
      writeRc decoded x ++ [.setZf x, .setCf carry] ++ takeCondBranch decoded x
  | .and | .andS | .andU =>
      let x := if decoded.immPassthrough then o.vimm
        else o.vra &&& (if decoded.hasRb then o.vrb else o.vimm)
      (if decoded.writebackMode ≠ .none then writeExtDreg32 decoded x else writeRc decoded x) ++
        [.setZf x] ++ takeCondBranch decoded x
  | .sub => subEffects decoded o
  | .subc => subcEffects decoded o
  | .mulStep => mulStepEffects decoded o
  | .divStep => divStepEffects decoded o
  | .acquire | .release =>
      let (index, value, result) := atomicAccess o.dpu threadAddr (decoded.hotOp = .release)
      [.setAtomic index value] ++ writeRc decoded result ++ [.setZf result] ++
        takeCondBranch decoded result
  | .resume =>
      let index := threadIndex threadAddr
      let result := if o.dpu.resumable index then 0 else 1
      resumeEffects o.dpu index ++ writeRc decoded result ++ [.setZf result] ++
        takeCondBranch decoded result
  | .boot =>
      let index := threadIndex threadAddr
      let result := if o.dpu.bootable index then 0 else 1
      bootEffects o.dpu index true ++ writeRc decoded result ++ [.setZf result] ++
        takeCondBranch decoded result
  | .call =>
      writeRc decoded ((o.pc / 8 + 1).setWidth 32) ++ [.jump (addr.setWidth 64 * 8)]
  | .ldma =>
      [.loadDma (dmaRequest o.vra decoded.immDma) (o.vra &&& 0xFFFFF8) (o.vrb &&& 0xFFFFFFF8)]
  | .sdma =>
      [.storeDma (dmaRequest o.vra decoded.immDma) (o.vrb &&& 0xFFFFFFF8) (o.vra &&& 0xFFFFF8)]
  | .lsl | .lslS | .lslU | .lslx | .lslxS | .lslxU | .lsr | .lsrS | .lsrU | .lsrx | .lsrxS
  | .lsrxU => shiftEffects decoded o
  | .movd | .swapd => moveEffects decoded o
  | .clz | .clo =>
      let src := if decoded.hotOp = .clo then ~~~o.vra else o.vra
      let x := if src = 0 then 32 else src.clz
      writeRc decoded x ++ [.setZf x] ++ takeCondBranch decoded x
  | .mulUlUl | .mulUlUh | .mulUhUl | .mulUhUh =>
      let x := mulBytes decoded.hotOp o.vra o.vrb
      writeRc decoded x ++ [.setZf x]
  | .lslAdd | .lslAddS | .lslAddU | .lslSub | .lslSubS | .lslSubU | .lsrAdd | .lsrAddS
  | .lsrAddU => shiftAddEffects decoded o
  | .lbu =>
      let x := (wram.loadU8 addr).setWidth 32
      writeRc decoded x ++ [.setZf x]
  | .lbs =>
      let x := (wram.loadU8 addr).signExtend 32
      writeRc decoded x ++ [.setZf x]
  | .lw | .lwS =>
      let x := wram.loadU32 addr o.bigEndian
      writeRc decoded x ++ writeExtDreg32 decoded x ++ [.setZf x]
  | .ld =>
      let x := wram.loadU64 addr o.bigEndian
      (if decoded.hasDc then [.writeDreg (decodedDc decoded) x] else []) ++
        [.setZf ((x ||| x >>> 32).setWidth 32)]
  | .sw =>
      [.storeWram (wram.storeU32 addr (if decoded.storesImm32 then o.vimm else o.vrb)
        o.bigEndian)]
  | .sb =>
      [.storeWram (wram.storeU8 addr
        ((if decoded.storesImm32 then o.vimm else o.vrb).setWidth 8))]
  | .sh =>
      [.storeWram (wram.storeU16 addr
        ((if decoded.storesImm32 then o.vimm else o.vrb).setWidth 16) false)]
  | .sd =>
      [.storeWram (wram.storeU64 addr
        (if decoded.storesImm32 then o.vimm.setWidth 64
        else o.dpu.readDreg o.t (decodedDb decoded)) o.bigEndian)]
  | .time => writeRc decoded o.dpu.perfCounterRead32
  | .timeCfg =>
      .perfConfig (if decoded.timeCfgUsesRa then o.vra else o.vrb) ::
        writeRc decoded o.dpu.perfCounterRead32
  | .stop => takeCondBranch decoded 1 ++ [.halt]
  | .fault => [.halt]
  | .nop | .none => []

/-- `dpu_opcode`, in the order of its values. -/
inductive DpuOpcode where
  | acquire | release | add | addc | and | andn | asr | cao | clo | cls | clz | cmpb4
  | divStep | extsb | extsh | extub | extuh | lsl | lslAdd | lslSub | lsl1 | lsl1x | lslx
  | lsr | lsrAdd | lsr1 | lsr1x | lsrx | mulShSh | mulShSl | mulShUh | mulShUl | mulSlSh
  | mulSlSl | mulSlUh | mulSlUl | mulStep | mulUhUh | mulUhUl | mulUlUh | mulUlUl | nand
  | nor | nxor | or | orn | rol | rolAdd | ror | rsub | rsubc | sub | subc | xor | boot
  | resume | stop | call | fault | nop | sats | movd | swapd | hash | time | timeCfg | lbs
  | lbu | ld | lhs | lhu | lw | sb | sbId | sd | sdId | sh | shId | sw | swId | ldma | ldmai
  | sdma
  deriving DecidableEq

def DpuOpcode.all : List DpuOpcode :=
  [.acquire, .release, .add, .addc, .and, .andn, .asr, .cao, .clo, .cls, .clz, .cmpb4,
    .divStep, .extsb, .extsh, .extub, .extuh, .lsl, .lslAdd, .lslSub, .lsl1, .lsl1x, .lslx,
    .lsr, .lsrAdd, .lsr1, .lsr1x, .lsrx, .mulShSh, .mulShSl, .mulShUh, .mulShUl, .mulSlSh,
    .mulSlSl, .mulSlUh, .mulSlUl, .mulStep, .mulUhUh, .mulUhUl, .mulUlUh, .mulUlUl, .nand,
    .nor, .nxor, .or, .orn, .rol, .rolAdd, .ror, .rsub, .rsubc, .sub, .subc, .xor, .boot,
    .resume, .stop, .call, .fault, .nop, .sats, .movd, .swapd, .hash, .time, .timeCfg, .lbs,
    .lbu, .ld, .lhs, .lhu, .lw, .sb, .sbId, .sd, .sdId, .sh, .shId, .sw, .swId, .ldma,
    .ldmai, .sdma]

structure Fields where
  dpu : Dpu
  t : Nat
  opcode : Option DpuOpcode
  rc : Nat
  ra : Nat
  rb : Nat
  imm8 : BitVec 8
  imm16s : BitVec 32
  imm24s : BitVec 32
  raVal : BitVec 32
  rbVal : BitVec 32
  opB : BitVec 32

def byte (value : BitVec 64) (shift : Nat) : BitVec 8 := (value >>> shift).setWidth 8

def fields (inst48 : BitVec 64) (dpu : Dpu) (t : Nat) : Fields :=
  let ra := (byte inst48 24 &&& 0x1F).toNat
  let rb := (byte inst48 16 &&& 0x1F).toNat
  let imm16s := (inst48.setWidth 16).signExtend 32
  { dpu := dpu
    t := t
    opcode := DpuOpcode.all[(byte inst48 40).toNat]?
    rc := (byte inst48 32 &&& 0x1F).toNat
    ra := ra
    rb := rb
    imm8 := byte inst48 8
    imm16s := imm16s
    imm24s := signExtend24 (inst48.setWidth 32)
    raVal := dpu.readReg t ra
    rbVal := dpu.readReg t rb
    opB := if rb = 24 then imm16s else dpu.readReg t rb }

def cmpb4 (lhs rhs : BitVec 32) : BitVec 32 :=
  BitVec.ofNat 32 ((List.range 4).countP fun b =>
    (lhs >>> (8 * b)).setWidth 8 == (rhs >>> (8 * b)).setWidth 8)

/-- The cases that write one result to `rc` and set the zero flag from it, with
the carry flag of those that set it. -/
def aluResult (f : Fields) : Option (BitVec 32 × Option Bool) :=
  let a := f.raVal
  let b := f.opB
  let cf : Bool := (f.dpu.tasklets f.t).cf ≠ 0
  let sh := (f.imm8 &&& 31).toNat
  let shB := (b &&& 31).toNat
  let borrow : BitVec 32 := if cf then 1 else 0
  match f.opcode with
  | some .add => some ((addWithCarry a b false).1, some (addWithCarry a b false).2)
  | some .addc => some ((addWithCarry a b cf).1, some (addWithCarry a b cf).2)
  | some .and => some (a &&& b, none)
  | some .andn => some (a &&& ~~~b, none)
  | some .asr => some (a.sshiftRight shB, none)
  | some .cao => some (a.cpop, none)
  | some .clo => some (countLeadingOnesU32 a, none)
  | some .cls => some (countLeadingSignU32 a, none)
  | some .clz => some (if a = 0 then 32 else a.clz, none)
  | some .cmpb4 => some (cmpb4 a b, none)
  | some .divStep => some (if b = 0 then 0 else a / b, some (b = 0))
  | some .extsb => some ((a.setWidth 8).signExtend 32, none)
  | some .extsh => some ((a.setWidth 16).signExtend 32, none)
  | some .extub => some (a &&& 0xFF, none)
  | some .extuh => some (a &&& 0xFFFF, none)
  | some .lsl => some (a <<< shB, none)
  | some .lslAdd => some (f.rbVal + a <<< sh, none)
  | some .lslSub => some (f.rbVal - a <<< sh, some (f.rbVal < a <<< sh))
  | some .lsl1 => some (a <<< 1, some (a &&& 0x80000000 ≠ 0))
  | some .lsl1x => some (a <<< 1 ||| borrow, some (a &&& 0x80000000 ≠ 0))
  | some .lslx => some (shiftLeftOut a ((f.imm8 &&& 31).setWidth 32), none)
  | some .lsr => some (a >>> shB, none)
  | some .lsrAdd => some (f.rbVal + a >>> sh, none)
  | some .lsr1 => some (a >>> 1, some (a &&& 1 ≠ 0))
  | some .lsr1x => some (a >>> 1 ||| borrow <<< 31, some (a &&& 1 ≠ 0))
  | some .lsrx => some (shiftRightOut a ((f.imm8 &&& 31).setWidth 32), none)
  | some .mulShSh => some ((highByte a).signExtend 32 * (highByte b).signExtend 32, none)
  | some .mulShSl => some ((highByte a).signExtend 32 * (lowByte b).signExtend 32, none)
  | some .mulShUh => some ((highByte a).signExtend 32 * (highByte b).setWidth 32, none)
  | some .mulShUl => some ((highByte a).signExtend 32 * (lowByte b).setWidth 32, none)
  | some .mulSlSh => some ((lowByte a).signExtend 32 * (highByte b).signExtend 32, none)
  | some .mulSlSl => some ((lowByte a).signExtend 32 * (lowByte b).signExtend 32, none)
  | some .mulSlUh => some ((lowByte a).signExtend 32 * (highByte b).setWidth 32, none)
  | some .mulSlUl => some ((lowByte a).signExtend 32 * (lowByte b).setWidth 32, none)
  | some .mulUhUh => some ((highByte a).setWidth 32 * (highByte b).setWidth 32, none)
  | some .mulUhUl => some ((highByte a).setWidth 32 * (lowByte b).setWidth 32, none)
  | some .mulUlUh => some ((lowByte a).setWidth 32 * (highByte b).setWidth 32, none)
  | some .mulUlUl => some ((lowByte a).setWidth 32 * (lowByte b).setWidth 32, none)
  | some .mulStep =>
      let prod := a.setWidth 64 * b.setWidth 64
      some (prod.setWidth 32, some (prod >>> 32 ≠ 0))
  | some .nand => some (~~~(a &&& b), none)
  | some .nor => some (~~~(a ||| b), none)
  | some .nxor => some (~~~(a ^^^ b), none)
  | some .or => some (a ||| b, none)
  | some .orn => some (a ||| ~~~b, none)
  | some .rol => some (rotl32 a (b &&& 31), none)
  | some .rolAdd => some (f.rbVal + rotl32 a ((f.imm8 &&& 31).setWidth 32), none)
  | some .ror => some (rotr32 a (b &&& 31), none)
  | some .rsub => some (b - a, some (b < a))
  | some .rsubc => some (b - (a + borrow), some (b < a + borrow))
  | some .sub => some (a - b, some (a < b))
  | some .subc => some (a - (b + borrow), some (a < b + borrow))
  | some .xor => some (a ^^^ b, none)
  | some .sats => some (saturatingAddS32 a b, none)
  | some .hash => some (a ^^^ (b + 0x9E3779B9 + a <<< 6 + a >>> 2), none)
  | _ => none

/-- Stores with an `_ID` variant are offset by the tasklet. -/
def storeAddr (f : Fields) (size : Nat) (isId : Bool) : BitVec 32 :=
  f.raVal + f.imm16s + (if isId then BitVec.ofNat 32 (f.t * size) else 0)

/-- The target of `OP_CALL`, in slots. -/
def callTarget (f : Fields) : Int :=
  f.raVal.toInt + (if f.rb ≠ 24 then f.rbVal.toInt else f.imm24s.toInt)

/-- The case of `opcode` in the second switch. -/
def opcodeEffects (f : Fields) : List Effect :=
  let addr := f.raVal + f.imm16s
  let wram := f.dpu.wram
  let result (value : BitVec 32) : List Effect := [.writeReg f.rc value, .setZf value]
  match aluResult f with
  | some (value, carry) => result value ++ (carry.map Effect.setCf).toList
  | none =>
      match f.opcode with
      | some .acquire | some .release =>
          let (index, value, failed) := atomicAccess f.dpu addr (f.opcode = some .release)
          .setAtomic index value :: result failed
      | some .boot =>
          let index := threadIndex addr
          bootEffects f.dpu index false ++ result (if f.dpu.bootable index then 0 else 1)
      | some .resume =>
          let tid := f.raVal.toInt + f.imm16s.toInt
          let found := 0 ≤ tid && f.dpu.resumable tid.toNat
          (if found then [.resume tid.toNat] else []) ++ result (if found then 0 else 1)
      | some .stop | some .fault => [.halt]
      | some .call =>
          .writeReg f.rc (((f.dpu.tasklets f.t).pc / 8 + 1).setWidth 32) ::
            (if callTarget f < 0 then [.halt]
            else [.jump ((BitVec.ofInt 32 (callTarget f)).setWidth 64 * 8)])
      | some .movd =>
          let value := f.dpu.readDreg f.t f.ra
          [.writeDreg f.rc value, .setZf (if value = 0 then 0 else 1)]
      | some .swapd =>
          let lhs := f.dpu.readDreg f.t f.rc
          let rhs := f.dpu.readDreg f.t f.ra
          [.writeDreg f.rc rhs, .writeDreg f.ra lhs, .setZf (if rhs = 0 then 0 else 1)]
      | some .time => result f.dpu.perfCounterRead32
      | some .timeCfg => .perfConfig (f.opB &&& 0x7) :: result f.dpu.perfCounterRead32
      | some .lbs => result ((wram.loadU8 addr).signExtend 32)
      | some .lbu => result ((wram.loadU8 addr).setWidth 32)
      | some .ld =>
          let value := wram.loadU64 addr false
          [.writeDreg f.rc value, .setZf (if value = 0 then 0 else 1)]
      | some .lhs => result (((wram.loadU16 addr false).setWidth 16).signExtend 32)
      | some .lhu => result (wram.loadU16 addr false)
      | some .lw => result (wram.loadU32 addr false)
      | some .sb | some .sbId =>
          [.storeWram (wram.storeU8 (storeAddr f 1 (f.opcode = some .sbId))
            (f.opB.setWidth 8))]
      | some .sd | some .sdId =>
          [.storeWram (wram.storeU64 (storeAddr f 8 (f.opcode = some .sdId))
            (if f.rb = 24 then f.imm16s.signExtend 64 else f.dpu.readDreg f.t f.rb) false)]
      | some .sh | some .shId =>
          [.storeWram (wram.storeU16 (storeAddr f 2 (f.opcode = some .shId))
            (f.opB.setWidth 16) false)]
      | some .sw | some .swId =>
          [.storeWram (wram.storeU32 (storeAddr f 4 (f.opcode = some .swId)) f.opB false)]
      | some .ldma | some .ldmai =>
          [.loadDma (dmaRequest f.raVal (f.imm8.setWidth 32)) (f.raVal &&& 0xFFFFF8)
            (f.rbVal &&& 0xFFFFFFF8)]
      | some .sdma =>
          [.storeDma (dmaRequest f.raVal (f.imm8.setWidth 32)) (f.rbVal &&& 0xFFFFFFF8)
            (f.raVal &&& 0xFFFFF8)]
      | _ => []

/-- The slot of a program counter, unless it is outside IRAM. -/
def iramSlot (pc : BitVec 64) : Option (BitVec 16) :=
  let slot := pc.toNat / 8
  if slot > 65535 then none
  else if Iram.slotInBounds (BitVec.ofNat 16 slot) then some (BitVec.ofNat 16 slot) else none

theorem iramSlot_ofNat {slot : Nat} (h : slot < kIRAMSizeBytes / 8) :
    iramSlot (BitVec.ofNat 64 (slot * 8)) = some (BitVec.ofNat 16 slot) := by
  have hslot : slot < 3072 := h
  have hdiv : (BitVec.ofNat 64 (slot * 8)).toNat / 8 = slot := by
    rw [BitVec.toNat_ofNat]
    omega
  have hbounds : Iram.slotInBounds (BitVec.ofNat 16 slot) = true := by
    simp only [Iram.slotInBounds, BitVec.toNat_ofNat, kIRAMSizeBytes, Bool.and_eq_true,
      decide_eq_true_eq]
    omega
  unfold iramSlot
  dsimp only
  rw [hdiv, if_neg (by omega), if_pos hbounds]

def Dpu.runnable (dpu : Dpu) (t : Nat) : Bool :=
  dpu.runBits.getLsbD t && !dpu.sleepBits.getLsbD t

/-- The word `execute_once` will execute, unless it returns before. -/
def fetch (dpu : Dpu) (t : Nat) : Option (BitVec 64) :=
  if t ≥ kNumTasklets then none
  else if !dpu.runnable t then none
  else (iramSlot (dpu.tasklets t).pc).bind fun slot =>
    if dpu.iram.readWord slot = 0 then none else some (dpu.iram.readWord slot)

def Dpu.clearBits (dpu : Dpu) (t : Nat) : Dpu :=
  { dpu with
    runBits := dpu.runBits &&& ~~~bit t
    sleepBits := dpu.sleepBits &&& ~~~bit t
    replayBits := dpu.replayBits &&& ~~~bit t }

def Exec.commitPc (exec : Exec) (t : Nat) : Dpu :=
  exec.dpu.setTasklet t { exec.dpu.tasklets t with pc := exec.nextPc }

def retireHot (exec : Exec) (t : Nat) : Dpu × Bool :=
  let dpu := if exec.keepRunning then exec.commitPc t else (exec.commitPc t).clearBits t
  (dpu.perfCounterRetireStep false, exec.keepRunning)

def retireOpcode (exec : Exec) (t : Nat) : Dpu × Bool :=
  let dpu := exec.commitPc t
  let retired := { dpu with
    replayBits := dpu.replayBits &&& ~~~bit t }.perfCounterRetireStep
      (dpu.replayBits.getLsbD t)
  (retired, exec.keepRunning && (iramSlot exec.nextPc).isSome)

theorem retire_commits {retire : Exec → Nat → Dpu × Bool}
    (hretire : retire = retireHot ∨ retire = retireOpcode) (exec : Exec) (t : Nat) :
    (retire exec t).1.tasklets = (exec.commitPc t).tasklets := by
  rcases hretire with rfl | rfl
  · simp only [retireHot, perfCounterRetireStep_tasklets]
    split <;> rfl
  · simp only [retireOpcode, perfCounterRetireStep_tasklets]

theorem retire_atomicBits {retire : Exec → Nat → Dpu × Bool}
    (hretire : retire = retireHot ∨ retire = retireOpcode) (exec : Exec) (t : Nat) :
    (retire exec t).1.atomicBits = exec.dpu.atomicBits := by
  rcases hretire with rfl | rfl
  · simp only [retireHot, perfCounterRetireStep_atomicBits]
    split <;> rfl
  · simp only [retireOpcode, perfCounterRetireStep_atomicBits]
    rfl

section
variable (decodeRawWord48 : BitVec 64 → RawDecoded48)

def handled (inst48 : BitVec 64) : Bool :=
  (decodeRawWord48 inst48).valid && (decodeRawWord48 inst48).hotSupported

def executeOnce (dpu : Dpu) (t : Nat) : Dpu × Bool :=
  match fetch dpu t with
  | none => (dpu, false)
  | some inst48 =>
      let decoded := decodeRawWord48 inst48
      let start : Exec := ⟨dpu, (dpu.tasklets t).pc + 8, true⟩
      if handled decodeRawWord48 inst48 then
        retireHot (applyEffects t start (hotEffects decoded (operands decoded dpu t))) t
      else retireOpcode (applyEffects t start (opcodeEffects (fields inst48 dpu t))) t

/-- One turn of a tasklet in the loop of `control`. -/
def taskletTurn (dpu : Dpu) (t : Nat) : Dpu :=
  if !dpu.runnable t then dpu
  else
    let (next, keepRunning) := executeOnce decodeRawWord48 dpu t
    if keepRunning then next else next.clearBits t

def round (dpu : Dpu) : Dpu :=
  (List.range kNumTasklets).foldl (taskletTurn decodeRawWord48) dpu

def rounds : Nat → Dpu → Dpu
  | 0, dpu => dpu
  | budget + 1, dpu =>
      if dpu.runBits = 0 then dpu else rounds budget (round decodeRawWord48 dpu)

end

end HostPimSim.Upmem
