import HostPimSim.Core.Register

/-! The decoders of a store that faulted.  They read the instruction and the
registers of the signal context, and tell what the store would have written and
how many bytes to skip. -/
namespace HostPimSim.Core.StoreDecode
open Register (Bytes loadBytes)

structure DecodedWrite where
  writeSize : Nat
  writeValue : BitVec 64
  insnLen : Nat
  deriving DecidableEq

inductive DecodeError where
  | unrecognized
  | unreadable
  deriving DecidableEq

inductive Greg where
  | r8 | r9 | r10 | r11 | r12 | r13 | r14 | r15 | rdi | rsi | rbp | rbx | rdx | rax | rcx | rsp
  | rip
  deriving DecidableEq

abbrev Gregs := Greg → BitVec 64

def kX86RegMap : List Greg :=
  [.rax, .rcx, .rdx, .rbx, .rsp, .rbp, .rsi, .rdi, .r8, .r9, .r10, .r11, .r12, .r13, .r14, .r15]

def readX86RegValue (gregs : Gregs) (reg : BitVec 8) (writeSize : Nat) : BitVec 64 :=
  let val := gregs (kX86RegMap.getD reg.toNat .rax)
  if writeSize = 1 then val &&& 0xFF
  else if writeSize = 2 then val &&& 0xFFFF
  else if writeSize = 4 then val &&& 0xFFFFFFFF
  else val

def x86ModrmLen (modrm : BitVec 8) (rexB : Bool) : Nat :=
  let mod := (modrm >>> 6) &&& 0x03
  let rm := (modrm &&& 0x07) ||| (if rexB then 8 else 0)
  1 + (if mod = 0 ∧ rm &&& 7 = 5 then 4 else if mod = 1 then 1 else if mod = 2 then 4 else 0) +
    (if rm &&& 7 = 4 then 1 else 0)

/-- The locals of the prefix loop; `length` is `p - rip`. -/
structure Prefixes where
  rexW : Bool
  rexR : Bool
  rexB : Bool
  has66 : Bool
  length : Nat
  deriving DecidableEq

def Prefixes.start : Prefixes := ⟨false, false, false, false, 0⟩

def skippedPrefixes : List (BitVec 8) := [0x67, 0xF2, 0xF3, 0x2E, 0x36, 0x3E, 0x26, 0x64, 0x65]

def parsePrefixes (state : Prefixes) : List (BitVec 8) → Prefixes
  | [] => state
  | byte :: rest =>
      if byte = 0x66 then
        parsePrefixes { state with has66 := true, length := state.length + 1 } rest
      else if skippedPrefixes.contains byte then
        parsePrefixes { state with length := state.length + 1 } rest
      else if byte &&& 0xF0 = 0x40 then
        parsePrefixes { state with
          rexW := byte &&& 0x08 ≠ 0
          rexR := byte &&& 0x04 ≠ 0
          rexB := byte &&& 0x01 ≠ 0
          length := state.length + 1 } rest
      else state

def Prefixes.opsize (prefixes : Prefixes) : Nat :=
  if prefixes.rexW then 8 else if prefixes.has66 then 2 else 4

def readByte (rip : List (BitVec 8)) (p : Nat) : Except DecodeError (BitVec 8) :=
  match rip[p]? with
  | some byte => .ok byte
  | none => .error .unreadable

/-- The little-endian number of `size` bytes at `p`. -/
def readNumber (rip : List (BitVec 8)) (p size : Nat) : Except DecodeError (BitVec 64) :=
  if p + size ≤ rip.length then .ok (loadBytes (fun i => rip.getD (p + i) 0) size)
  else .error .unreadable

/-- A store of a register, from its ModRM byte at `p` on. -/
def decodeRegisterStore (rip : List (BitVec 8)) (gregs : Gregs) (prefixes : Prefixes)
    (p writeSize : Nat) : Except DecodeError DecodedWrite := do
  let modrm ← readByte rip p
  let reg := ((modrm >>> 3) &&& 0x07) ||| (if prefixes.rexR then 8 else 0)
  return ⟨writeSize, readX86RegValue gregs reg writeSize,
    p + 1 + x86ModrmLen modrm prefixes.rexB - 1⟩

def decodeImmediateStore (rip : List (BitVec 8)) (prefixes : Prefixes) (p writeSize : Nat) :
    Except DecodeError DecodedWrite := do
  let modrm ← readByte rip p
  if (modrm >>> 3) &&& 0x07 ≠ 0 then throw .unrecognized
  else
    let immSize := min writeSize 4
    let immPtr := p + 1 + x86ModrmLen modrm prefixes.rexB - 1
    let imm ← readNumber rip immPtr immSize
    return ⟨writeSize, if writeSize = 8 then (imm.setWidth 32).signExtend 64 else imm,
      immPtr + immSize⟩

def decodeX86Write (rip : List (BitVec 8)) (gregs : Gregs) :
    Except DecodeError DecodedWrite := do
  let prefixes := parsePrefixes .start rip
  let p := prefixes.length
  let opcode ← readByte rip p
  if opcode = 0x0F then
    let opcode2 ← readByte rip (p + 1)
    if opcode2 = 0xC3 then decodeRegisterStore rip gregs prefixes (p + 2) prefixes.opsize
    else throw .unrecognized
  else if opcode = 0x88 then decodeRegisterStore rip gregs prefixes (p + 1) 1
  else if opcode = 0x89 then decodeRegisterStore rip gregs prefixes (p + 1) prefixes.opsize
  else if opcode = 0xC6 then decodeImmediateStore rip prefixes (p + 1) 1
  else if opcode = 0xC7 then decodeImmediateStore rip prefixes (p + 1) prefixes.opsize
  else throw .unrecognized

/-- The context after the handler has skipped the instruction. -/
def skipInstruction (gregs : Gregs) (insnLen : Nat) : Gregs :=
  fun reg => if reg = .rip then gregs .rip + BitVec.ofNat 64 insnLen else gregs reg

/-- The four cases of `opc`, the same behind both tests. -/
def arm64Write (insn : BitVec 32) (regs : Nat → BitVec 64) : DecodedWrite :=
  let opc := (insn >>> 30) &&& 0x03
  let xreg := regs (insn &&& 0x1F).toNat
  if opc = 0 then ⟨1, xreg &&& 0xFF, 4⟩
  else if opc = 1 then ⟨2, xreg &&& 0xFFFF, 4⟩
  else if opc = 2 then ⟨4, xreg &&& 0xFFFFFFFF, 4⟩
  else ⟨8, xreg, 4⟩

/-- `regs[31]` is what follows the registers in the context. -/
def decodeArm64Write (insn : BitVec 32) (regs : Nat → BitVec 64) : Option DecodedWrite :=
  let op1 := (insn >>> 22) &&& 0x3FF
  if op1 &&& 0x3F9 = 0x1C1 then some (arm64Write insn regs)
  else if op1 &&& 0x3F8 = 0x1C0 ∧ (insn >>> 10) &&& 0x03 = 0 then some (arm64Write insn regs)
  else none

end HostPimSim.Core.StoreDecode
