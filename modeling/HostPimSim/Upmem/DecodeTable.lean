import HostPimSim.Lib.DecisionTree
import HostPimSim.Upmem.Decode

/-! The whole table of `decode_raw_word_48`, as a tree of its statements in their order.  Every
`if` of the source returns on all its paths and has no `else`, so what stands after one is its
other branch. -/
namespace HostPimSim.Upmem.DecodeTable

abbrev Test := BitVec 64 → Bool

/-- The fields of a word an operand is put together from, each with its place. -/
abbrev Parts := List (Nat × BitVec 64 × Nat)

inductive Operand where
  | ra | rb | rc | dc | db | imm | off | pc | shift | immDma | endian | cc
  deriving DecidableEq

/-- The statements of the source; an assignment sets the flag of its operand too. -/
inductive Statement where
  | assign (operand : Operand) (parts : Parts)
  | assignImm11 (parts : Parts)
  | valid
  | hot (op : HotOp) (fmt : HotFormat)

abbrev DecodeTree := DecisionTree.Tree (BitVec 64) Statement Bool

def signExtend11 (value : BitVec 32) : BitVec 32 := (value.setWidth 11).signExtend 32

/-- The flags of `imm`, `off`, `shift` and `immDma` are never read. -/
def assigned (out : RawDecoded48) (value : BitVec 32) : Operand → RawDecoded48
  | .ra => { out with ra := value, hasRa := true }
  | .rb => { out with rb := value, hasRb := true }
  | .rc => { out with rc := value, hasRc := true }
  | .dc => { out with dc := value, hasDc := true }
  | .db => { out with db := value, hasDb := true }
  | .imm => { out with imm := value }
  | .off => { out with off := value }
  | .pc => { out with pc := value, hasPc := true }
  | .shift => { out with shift := value }
  | .immDma => { out with immDma := value }
  | .endian => { out with endian := value, hasEndian := true }
  | .cc => { out with cc := value, hasCc := true }

def Statement.apply (instruction : BitVec 64) (out : RawDecoded48) : Statement → RawDecoded48
  | .assign operand parts => assigned out (gather instruction parts) operand
  | .assignImm11 parts => assigned out (signExtend11 (gather instruction parts)) .imm
  | .valid => { out with valid := true }
  | .hot op fmt => { out with hotOp := op, hotFmt := fmt }

/-- What `out.valid` is after the statement. -/
def Statement.validAfter (valid : Bool) : Statement → Bool
  | .valid => true
  | _ => valid

theorem valid_assigned (out : RawDecoded48) (value : BitVec 32) (operand : Operand) :
    (assigned out value operand).valid = out.valid := by
  cases operand <;> rfl

theorem valid_apply (instruction : BitVec 64) (out : RawDecoded48) (statement : Statement) :
    (statement.apply instruction out).valid = statement.validAfter out.valid := by
  cases statement with
  | assign operand parts => exact valid_assigned out _ operand
  | assignImm11 parts => exact valid_assigned out _ .imm
  | valid => rfl
  | hot op fmt => rfl

def eq (shift : Nat) (mask value : BitVec 64) : Test := fun i => field i shift mask = value

def ne (shift : Nat) (mask value : BitVec 64) : Test := fun i => field i shift mask ≠ value

/-- Of the field, only the bits of `keep` count. -/
def masked (shift : Nat) (mask keep value : BitVec 64) : Test :=
  fun i => field i shift mask &&& keep = value

def immediateSource : Test := eq 32 0x3 0x3

def scalarSource : Test := fun i => field i 32 0x3 ≠ 0x3 ∧ field i 16 0x1 = 0x0

def pairSource : Test := fun i => field i 32 0x3 ≠ 0x3 ∧ field i 16 0x1 = 0x1

/-- The destination is a pair, into which the result is extended with its sign if `last` is
one. -/
def pairTarget (last : BitVec 64) : Test :=
  fun i => field i 42 0x3 ≠ 0x3 ∧ field i 39 0x1 = last

def widePair (last : BitVec 64) : Test :=
  fun i => (field i 42 0x3 ≠ 0x3 ∧ field i 44 0x1 = 0x1) ∧ field i 39 0x1 = last

def wideScalar : Test := fun i => field i 42 0x3 ≠ 0x3 ∧ field i 44 0x1 = 0x0

def wideNone : Test := eq 42 0x3 0x3

def narrowPair (last : BitVec 64) : Test :=
  fun i => (field i 44 0x3 ≠ 0x3 ∧ field i 46 0x1 = 0x1) ∧ field i 39 0x1 = last

def narrowScalar : Test := fun i => field i 44 0x3 ≠ 0x3 ∧ field i 46 0x1 = 0x0

def narrowNone : Test := eq 44 0x3 0x3

/-- The condition code lies outside the codes from `low` to 11. -/
def outside (low : BitVec 64) : Test := fun i => field i 24 0xF < low ∨ field i 24 0xF > 0xB

def outsideNonZero (low : BitVec 64) : Test :=
  fun i => (field i 24 0xF < low ∨ field i 24 0xF > 0xB) ∧ field i 24 0xF ≠ 0x0

def someCondition : Test := fun i => field i 28 0x1 ≠ 0x1 ∨ field i 24 0xF ≠ 0x0

def noCondition : Test := fun i => field i 28 0x1 = 0x1 ∧ field i 24 0xF = 0x0

/-- Where a word has its condition: that it has none, that it writes it and that it branches on
it, and the bits of the code for the last two. -/
structure Condition where
  absent : Test
  writes : Test
  branches : Test
  written : Parts
  branched : Parts

def writesNarrow : Test :=
  fun i => field i 26 0x1 ^^^ field i 27 0x1 = 0x1 ∧ field i 25 0x1 = 0x1

def writesCondition : Test :=
  fun i => field i 26 0x1 ^^^ field i 27 0x1 = 0x1 ∧ field i 25 0x1 = 0x1 ∧ field i 28 0x1 = 0x0

def branchesOnCondition : Test :=
  fun i => (field i 24 0x1F < 0x6 ∨ field i 24 0x1F > 0xB ∨ field i 24 0x1F &&& 0x1E = 0x8) ∧
    field i 24 0x1F ≠ 0x0

def branchCode (i : BitVec 64) : Prop :=
  field i 24 0xF < 0x6 ∨ field i 24 0xF > 0xB ∨ field i 24 0xF &&& 0xE = 0x8

instance : DecidablePred branchCode :=
  fun i => inferInstanceAs (Decidable (_ ∨ _ ∨ field i 24 0xF &&& 0xE = 0x8))

def logical : Condition where
  absent := eq 24 0xF 0x0
  writes := writesNarrow
  branches := fun i => branchCode i ∧ field i 24 0xF ≠ 0x0
  written := [(24, 15, 0)]
  branched := [(24, 15, 0)]

def additive : Condition where
  absent := eq 24 0x1F 0x0
  writes := writesCondition
  branches := branchesOnCondition
  written := [(24, 31, 0)]
  branched := [(24, 31, 0)]

def subtractive : Condition where
  absent := fun i => field i 24 0x1F = 0x0 ∧ field i 30 0x1 = 0x0
  writes := fun i => (field i 30 0x1 = 0x1 ∨ writesCondition i) ∧
    (field i 30 0x1 ≠ 0x1 ∨ field i 24 0x1F ≠ 0x0)
  branches := fun i => (field i 30 0x1 = 0x0 ∧ (field i 24 0x1F < 0x6 ∨ field i 24 0x1F > 0xB ∨
    field i 24 0x1F &&& 0x1E = 0x8)) ∧ (field i 30 0x1 ≠ 0x0 ∨ field i 24 0x1F ≠ 0x0)
  written := [(24, 31, 0), (30, 1, 5)]
  branched := [(24, 31, 0), (30, 1, 5)]

def multiplicative : Condition where
  absent := eq 24 0xF 0x0
  writes := writesNarrow
  branches := fun i => branchCode i ∧ field i 24 0x1F ≠ 0x0
  written := [(24, 15, 0)]
  branched := [(24, 31, 0)]

/-- With bit 29 set, a shift branches on the codes above `high` and on two more. -/
def shifting (high : BitVec 64) : Condition where
  absent := fun i => field i 24 0xF = 0x0 ∧ field i 29 0x1 = 0x0
  writes := writesNarrow
  branches := fun i => ((field i 29 0x1 = 0x0 ∧ branchCode i) ∨
    (field i 29 0x1 = 0x1 ∧ (field i 24 0xF > high ∨ field i 24 0xF &&& 0xE = 0x8))) ∧
    (field i 29 0x1 ≠ 0x0 ∨ field i 24 0xF ≠ 0x0)
  written := [(24, 15, 0)]
  branched := [(24, 15, 0), (29, 1, 4)]

def firstOf : List (Test × DecodeTree) → DecodeTree := DecisionTree.firstOf (.leaf false)

def onlyIf (condition : Test) (body : DecodeTree) : DecodeTree := firstOf [(condition, body)]

/-- Words without an operation of their own do not call `set_hot_metadata`. -/
def accept (op : HotOp) (fmt : HotFormat) : DecodeTree :=
  .exec .valid (if op = .none then .leaf true else .exec (.hot op fmt) (.leaf true))

def set (operand : Operand) (parts : Parts) (next : DecodeTree) : DecodeTree :=
  .exec (.assign operand parts) next

def ra : DecodeTree → DecodeTree := set .ra [(34, 31, 0)]

def source (operand : Operand) : DecodeTree → DecodeTree := set operand [(17, 7, 0), (32, 3, 3)]

def rc : DecodeTree → DecodeTree := set .rc [(39, 31, 0)]

def rcNarrow : DecodeTree → DecodeTree := set .rc [(39, 7, 0), (44, 3, 3)]

def dc : DecodeTree → DecodeTree := set .dc [(39, 31, 0)]

def dcEven : DecodeTree → DecodeTree := set .dc [(40, 15, 1)]

def dcNarrow : DecodeTree → DecodeTree := set .dc [(40, 3, 1), (44, 3, 3)]

def pc : DecodeTree → DecodeTree := set .pc [(0, 65535, 0)]

def shift : DecodeTree → DecodeTree := set .shift [(20, 15, 0), (28, 1, 4)]

def endian : DecodeTree → DecodeTree := set .endian [(27, 1, 0)]

def cc4 : DecodeTree → DecodeTree := set .cc [(24, 15, 0)]

def bits8 : Parts := [(20, 15, 0), (16, 15, 4)]

def bits24 : Parts := bits8 ++ highOffset

def bits32 : Parts := bits8 ++ highImmediate

def bits8To11 : Parts := [(15, 1, 8), (14, 1, 9), (13, 1, 10), (12, 1, 11)]

def signedBits : Parts :=
  bits8 ++ bits8To11 ++ [(0, 31, 12), (5, 1, 16), (6, 1, 16), (7, 1, 16), (8, 1, 16), (9, 1, 16),
    (10, 1, 16), (11, 1, 16)]

structure Formats where
  plain : HotFormat
  writes : HotFormat
  branches : HotFormat

def onRegisters (condition : Condition) (op : HotOp) (fmts : Formats) : DecodeTree :=
  firstOf [
    (condition.absent, accept op fmts.plain),
    (condition.writes, set .cc condition.written <| accept op fmts.writes),
    (condition.branches, set .cc condition.branched <| pc <| accept op fmts.branches)]

def onImmediate (condition : Condition) (op : HotOp) (fmts : Formats) (long : Parts)
    (short : Statement) : DecodeTree :=
  firstOf [
    (condition.writes, set .cc condition.written <| set .imm long <| accept op fmts.writes),
    (condition.branches, set .cc condition.branched <| pc <| .exec short <|
      accept op fmts.branches),
    (condition.absent, set .imm long <| accept op fmts.plain)]

def byCode (place : Nat) (codes : List (BitVec 64 × HotOp)) (body : HotOp → DecodeTree) :
    DecodeTree :=
  firstOf (codes.map fun code => (masked place 0xF 0xF code.1, body code.2))

def threadWord (op : HotOp) : DecodeTree :=
  ra <| onlyIf (outside 0x6) <| cc4 <| pc <| set .imm bits8 <| accept op .rici

def acquireRelease : DecodeTree :=
  ra <| pc <| set .imm (bits8 ++ [(26, 31, 8), (39, 7, 13)]) <| firstOf [
    (ne 24 0x3 0x0, set .cc [(24, 3, 0)] <| accept .acquire .rici),
    (eq 24 0x3 0x0, set .cc [(24, 3, 0)] <| accept .release .rici)]

def threadWords : DecodeTree :=
  firstOf [
    (masked 39 0x1F 0x1B 0x1B, threadWord .boot),
    (masked 39 0x1F 0x1F 0x19, threadWord .none),
    (masked 39 0x1F 0x1F 0x1C, onlyIf (eq 34 0x1F 0x18) <| ra <| onlyIf (eq 24 0xF 0x0) <|
      set .imm bits24 <| accept .fault .i),
    (masked 39 0x1F 0x1F 0x18, onlyIf (masked 28 0xF 0xF 0x3) <| threadWord .none),
    (masked 39 0x1F 0x1B 0x1A, threadWord .resume),
    (masked 39 0x1F 0x1F 0x1D, onlyIf (eq 34 0x1F 0x1C) <| ra <| onlyIf (outside 0x6) <| cc4 <|
      pc <| accept .stop .ci)]

def nopWords : DecodeTree :=
  onlyIf (masked 39 0x1F 0x1F 0x18) <| firstOf [
    (eq 34 0x1F 0x18, ra <| onlyIf (eq 24 0xF 0x0) <| onlyIf (masked 16 0xF 0xF 0x0) <|
      onlyIf (masked 0 0xFFFF 0xFFFF 0x0) <| accept .nop .none),
    (ne 37 0x3 0x3, ra <| onlyIf (eq 24 0xF 0x0) <| set .off bits24 <| accept .none .none)]

/-- The bits of the offset of a store; one of an immediate has no room for the last. -/
def storeOffset : Parts := [(20, 15, 0), (39, 7, 4), (24, 1, 7)] ++ bits8To11

def storeImmediate (byte pair half word : HotOp) (fmt : HotFormat) : DecodeTree :=
  let wide := set .imm [(16, 15, 0), (0, 4095, 4)]
  ra <| set .off storeOffset <| endian <| firstOf [
    (masked 24 0xF 0x6 0x0, set .imm [(16, 15, 0), (0, 15, 4)] <| accept byte fmt),
    (masked 24 0xF 0x6 0x6, wide <| accept pair fmt),
    (masked 24 0xF 0x6 0x2, wide <| accept half fmt),
    (masked 24 0xF 0x6 0x4, wide <| accept word fmt)]

def controlWords : DecodeTree :=
  firstOf [
    (masked 28 0xF 0x8 0x8, acquireRelease),
    (masked 28 0xF 0xE 0x2, threadWords),
    (masked 28 0xF 0xF 0x0, nopWords),
    (masked 28 0xF 0xE 0x4, firstOf [
      (eq 28 0x1 0x0, storeImmediate .sb .sd .sh .sw .erii),
      (eq 28 0x1 0x1, storeImmediate .sb .sd .sh .sw .esii)]),
    (masked 28 0xF 0xE 0x6, storeImmediate .none .none .none .none .none)]

def loadPair (last : BitVec 64) (op : HotOp) : Test × DecodeTree :=
  (fun i => field i 29 0x1 = 0x1 ∧ field i 39 0x1 = last, dcEven <| accept op .erri)

def loadScalar (op : HotOp) (fmt : HotFormat) : Test × DecodeTree :=
  (eq 29 0x1 0x0, rc <| accept op fmt)

def loadBase (body : DecodeTree) : DecodeTree := ra <| set .off bits24 <| endian body

/-- The loads of half a word have no operation, and so have most into a pair. -/
def loadWords : DecodeTree :=
  firstOf [
    (ne 25 0x3 0x3, onlyIf (masked 28 0xF 0xC 0x4) <| firstOf [
      (eq 28 0x1 0x0, loadBase <| firstOf [
        (masked 24 0xF 0x7 0x1, firstOf [loadPair 0x1 .none, loadScalar .lbs .erri]),
        (masked 24 0xF 0x7 0x0, firstOf [loadPair 0x0 .none, loadScalar .lbu .erri]),
        (masked 24 0xF 0x7 0x3, firstOf [loadPair 0x1 .none, loadScalar .none .none]),
        (masked 24 0xF 0x7 0x2, firstOf [loadPair 0x0 .none, loadScalar .none .none]),
        (masked 24 0xF 0x6 0x4,
          firstOf [loadPair 0x1 .lwS, loadPair 0x0 .none, loadScalar .lw .erri])]),
      (eq 28 0x1 0x1, loadBase <| firstOf [
        (masked 24 0xF 0x7 0x1, firstOf [loadScalar .lbs .ersi]),
        (masked 24 0xF 0x7 0x0, firstOf [loadScalar .lbu .ersi]),
        (masked 24 0xF 0x7 0x3, firstOf [loadScalar .none .none]),
        (masked 24 0xF 0x7 0x2, firstOf [loadScalar .none .none]),
        (masked 24 0xF 0x6 0x4, firstOf [loadScalar .lw .ersi])])]),
    (eq 25 0x3 0x3, onlyIf (masked 28 0xF 0xE 0x4) <| firstOf [
      (eq 28 0x1 0x0, loadBase <| onlyIf (masked 24 0xF 0x6 0x6) <| dc <| accept .ld .erri),
      (eq 28 0x1 0x1, loadBase <| onlyIf (masked 24 0xF 0x6 0x6) <| dc <| accept .ld .ersi)])]

def dmaWords : DecodeTree :=
  set .immDma [(24, 255, 0)] <| source .rb <| ra <| firstOf [
    (masked 0 0xFFFF 0xFFFF 0x0, accept .ldma .rri),
    (masked 0 0xFFFF 0xFFFF 0x1, accept .none .none),
    (masked 0 0xFFFF 0xFFFF 0x2, accept .sdma .rri)]

def storeBase (body : DecodeTree) : DecodeTree :=
  set .off (storeOffset ++ [(0, 4095, 12)]) <| endian body

def storeScalar (fmt : HotFormat) : DecodeTree :=
  storeBase <| firstOf [
    (masked 24 0xF 0x6 0x0, accept .sb fmt),
    (masked 24 0xF 0x6 0x2, accept .sh fmt),
    (masked 24 0xF 0x6 0x4, accept .sw fmt)]

def storePair (fmt : HotFormat) : DecodeTree :=
  storeBase <| onlyIf (masked 24 0xF 0x6 0x6) <| accept .sd fmt

def storeWords : DecodeTree :=
  firstOf [
    (eq 16 0x1 0x0, source .rb <| ra <| onlyIf (masked 28 0xF 0xC 0x4) <| firstOf [
      (eq 28 0x1 0x0, storeScalar .erir),
      (eq 28 0x1 0x1, storeScalar .esir)]),
    (eq 16 0x1 0x1, source .db <| ra <| onlyIf (masked 28 0xF 0xC 0x4) <| firstOf [
      (eq 28 0x1 0x0, storePair .erir),
      (eq 28 0x1 0x1, storePair .esir)])]

def memoryWords : DecodeTree :=
  firstOf [
    (immediateSource, firstOf [(eq 42 0x3 0x3, controlWords), (ne 42 0x3 0x3, loadWords)]),
    (ne 32 0x3 0x3, firstOf [(masked 39 0x1F 0x1F 0x0, dmaWords), (eq 42 0x3 0x3, storeWords)])]

def pairImmediate (last : BitVec 64) (op : HotOp) : Test × DecodeTree :=
  (pairTarget last, dcEven <| onlyIf (eq 37 0x3 0x3) <|
    set .imm ([(20, 15, 0), (34, 7, 4), (44, 1, 7)] ++ highImmediate) <| accept op .rri)

def scalarImmediate (code : BitVec 64) (op : HotOp) (fmt : HotFormat) : Test × DecodeTree :=
  (fun i => field i 44 0xF = code ∧ field i 42 0x3 ≠ 0x3, onlyIf (ne 42 0x3 0x3) <| rc <| ra <|
    set .imm bits32 <| accept op fmt)

def additionWords : DecodeTree :=
  firstOf [
    (scalarSource, source .rb <| firstOf [pairImmediate 0x1 .none, pairImmediate 0x0 .none]),
    (immediateSource, firstOf [scalarImmediate 0x0 .add .rri, scalarImmediate 0x1 .addc .rri])]

def zeroImmediate : DecodeTree :=
  set .imm ([(20, 15, 0), (34, 7, 4), (39, 1, 7)] ++ highImmediate) <| firstOf [
    (masked 39 0x1F 0x1E 0x0, accept .add .zri),
    (masked 39 0x1F 0x1E 0x2, accept .addc .zri),
    (masked 39 0x1F 0x1E 0xA, accept .and .zri),
    (masked 39 0x1F 0x1E 0xC, accept .or .zri),
    (masked 39 0x1F 0x1E 0x4, accept .sub .zir),
    (masked 39 0x1F 0x1E 0x6, accept .subc .zir),
    (masked 39 0x1F 0x1E 0x8, accept .none .none)]

def orWords : DecodeTree :=
  firstOf [
    (scalarSource, source .rb <| onlyIf (eq 37 0x3 0x3) zeroImmediate),
    (immediateSource, ra <| set .imm bits32 <| onlyIf (ne 42 0x3 0x3) <| rc <|
      accept .or .rri)]

def andWords : DecodeTree :=
  firstOf [
    (eq 37 0x3 0x3, ra <| firstOf [
      (pairTarget 0x1, dcEven <| set .imm bits32 <| accept .andS .rki),
      (pairTarget 0x0, dcEven <| set .imm bits32 <| accept .andU .rki)]),
    (ne 37 0x3 0x3, ra <| onlyIf (ne 42 0x3 0x3) <| rc <| set .imm bits32 <|
      accept .and .rri)]

def logicalWords : DecodeTree :=
  firstOf [
    (immediateSource, firstOf [
      (fun i => field i 44 0xF = 0x5 ∧ field i 42 0x3 ≠ 0x3, andWords),
      scalarImmediate 0x4 .none .none]),
    (scalarSource, source .rb <| firstOf [pairImmediate 0x1 .orS, pairImmediate 0x0 .orU])]

def subtractionWords : DecodeTree :=
  firstOf [
    (scalarSource, source .rb <| firstOf [pairImmediate 0x1 .andS, pairImmediate 0x0 .andU]),
    (immediateSource, firstOf [scalarImmediate 0x2 .sub .rir, scalarImmediate 0x3 .subc .rir])]

/-- The four operations, the reversed subtractions among them, on one destination; `tail` are
the branches of the words without a condition. -/
def arithmeticImmediate (opAdd opAddc opSub opSubc : HotOp) (fmts reversed : Formats)
    (long short : Parts) (subShort : Statement) (tail : HotOp → List (Test × DecodeTree)) :
    DecodeTree :=
  let addition (op : HotOp) (fmts : Formats) :=
    onImmediate additive op fmts long (.assign .imm short)
  let subtraction (op : HotOp) := onImmediate subtractive op fmts long subShort
  firstOf [
    (masked 28 0xF 0xE 0x0, firstOf ((someCondition, addition opAdd fmts) :: tail opAdd)),
    (masked 28 0xF 0xE 0x2, onlyIf someCondition (addition opAddc fmts)),
    (masked 28 0xF 0xE 0x4, addition opSub reversed),
    (masked 28 0xF 0xA 0x8, firstOf ((someCondition, subtraction opSub) :: tail opSub)),
    (masked 28 0xF 0xE 0x6, addition opSubc reversed),
    (masked 28 0xF 0xA 0xA, onlyIf someCondition (subtraction opSubc))]

def signedImmediate (op : HotOp) : List (Test × DecodeTree) :=
  [(noCondition, set .imm signedBits <| accept op .ssi)]

def arithmeticImmediates : DecodeTree :=
  let unnamed := arithmeticImmediate .none .none .none .none ⟨.none, .none, .none⟩
    ⟨.none, .none, .none⟩ bits24 bits8 (.assign .imm bits8) fun _ => []
  let short := bits8 ++ [(39, 7, 8)]
  firstOf [
    (narrowPair 0x1, dcNarrow <| ra <| unnamed),
    (narrowPair 0x0, dcNarrow <| ra <| unnamed),
    (narrowScalar, rcNarrow <| ra <| arithmeticImmediate .add .addc .sub .subc
      ⟨.rrif, .rric, .rrici⟩ ⟨.rirf, .rirc, .rirci⟩ bits24 bits8 (.assign .imm bits8)
      signedImmediate),
    (narrowNone, ra <| arithmeticImmediate .add .addc .sub .subc
      ⟨.zrif, .zric, .zrici⟩ ⟨.zirf, .zirc, .zirci⟩ (bits24 ++ [(39, 7, 24)]) short
      (.assignImm11 short) fun _ => [])]

/-- The reversed subtractions of two registers have no operation of their own. -/
def arithmeticRegister (opAdd opAddc opSub opSubc : HotOp) (fmts : Formats)
    (tail : HotOp → List (Test × DecodeTree)) : DecodeTree :=
  let registers (condition : Condition) (op : HotOp) :=
    (someCondition, source .rb <| ra <| onRegisters condition op fmts)
  firstOf [
    (masked 28 0xF 0xE 0x0, firstOf (registers additive opAdd :: tail .add)),
    (masked 28 0xF 0xE 0x2, firstOf [registers additive opAddc]),
    (masked 28 0xF 0xE 0x4, firstOf (registers additive .none :: tail .sub)),
    (masked 28 0xF 0xE 0x6, firstOf [registers additive .none]),
    (masked 28 0xF 0xA 0x8, firstOf [registers subtractive opSub]),
    (masked 28 0xF 0xA 0xA, firstOf [registers subtractive opSubc])]

def signedRegister (op : HotOp) : List (Test × DecodeTree) :=
  [(noCondition, onlyIf (ne 37 0x3 0x3) <| set .rb [(34, 31, 0)] <| source .ra <|
    accept op .sss)]

def arithmeticRegisters : DecodeTree :=
  let unnamed := arithmeticRegister .none .none .none .none ⟨.none, .none, .none⟩ fun _ => []
  firstOf [
    (narrowPair 0x1, dcNarrow <| unnamed),
    (narrowPair 0x0, dcNarrow <| unnamed),
    (narrowScalar, rcNarrow <| arithmeticRegister .add .addc .sub .subc ⟨.rrr, .rrrc, .rrrci⟩
      signedRegister),
    (narrowNone, arithmeticRegister .add .addc .sub .subc ⟨.zrr, .zrrc, .zrrci⟩ fun _ => [])]

def product (last : BitVec 64) (op : HotOp) : DecodeTree :=
  source .rb <| ra <| firstOf [
    (narrowPair last, dcNarrow <| onRegisters multiplicative .none ⟨.none, .none, .none⟩),
    (narrowScalar, rcNarrow <| onRegisters multiplicative op ⟨.rrr, .rrrc, .rrrci⟩),
    (narrowNone, onRegisters multiplicative op ⟨.zrr, .zrrc, .zrrci⟩)]

def productWords : DecodeTree :=
  firstOf [
    (masked 20 0xF 0xF 0x7, product 0x1 .none),
    (masked 20 0xF 0xF 0x6, product 0x1 .none),
    (masked 20 0xF 0xF 0xB, product 0x1 .none),
    (masked 20 0xF 0xF 0xA, product 0x1 .none),
    (masked 20 0xF 0xF 0x5, product 0x1 .none),
    (masked 20 0xF 0xF 0x4, product 0x1 .none),
    (masked 20 0xF 0xF 0x9, product 0x1 .none),
    (masked 20 0xF 0xF 0x8, product 0x1 .none),
    (masked 20 0xF 0xF 0x3, product 0x0 .mulUhUh),
    (masked 20 0xF 0xF 0x2, product 0x0 .mulUhUl),
    (masked 20 0xF 0xF 0x1, product 0x0 .mulUlUh),
    (masked 20 0xF 0xF 0x0, product 0x0 .mulUlUl)]

/-- TIME and TIME_CFG: the formats of a word that does not branch and of one that does. -/
def timeWord (op : HotOp) (plain branches : HotFormat) : DecodeTree :=
  firstOf [
    (eq 24 0xF 0x0, accept op plain),
    (outsideNonZero 0x6, cc4 <| pc <| accept op branches)]

def timeWords (op : HotOp) (plain branches zero zeroBranches : HotFormat) : DecodeTree :=
  firstOf [
    (narrowPair 0x1, dcNarrow <| timeWord .none .none .none),
    (narrowPair 0x0, dcNarrow <| timeWord .none .none .none),
    (narrowScalar, rcNarrow <| timeWord op plain branches),
    (narrowNone, timeWord op zero zeroBranches)]

def arithmeticWords : DecodeTree :=
  firstOf [
    (immediateSource, arithmeticImmediates),
    (scalarSource, firstOf [
      (masked 20 0xF 0xC 0xC, arithmeticRegisters),
      (fun i => field i 20 0xF &&& 0xC ≠ 0xC, firstOf [
        (masked 28 0xF 0x2 0x0, productWords),
        (masked 28 0xF 0x3 0x2, onlyIf (masked 20 0xF 0xF 0x8) <| firstOf [
          (eq 34 0x1F 0x18, ra <| timeWords .time .r .rci .z .zci),
          (eq 34 0x1F 0x19, source .rb <| ra <|
            timeWords .timeCfg .rr .rrci .zr .zrci)])])])]

def logicImmediate (opS opU op : HotOp) : DecodeTree :=
  let pair (op : HotOp) := dcEven <| ra <|
    onImmediate logical op ⟨.rrif, .rric, .rrici⟩ bits24 (.assign .imm bits8)
  firstOf [
    (widePair 0x1, pair opS),
    (widePair 0x0, pair opU),
    (wideScalar, rc <| ra <|
      onImmediate logical op ⟨.rrif, .rric, .rrici⟩ bits24 (.assign .imm bits8)),
    (wideNone, ra <| onImmediate logical op ⟨.zrif, .zric, .zrici⟩
      (bits24 ++ [(39, 7, 24), (44, 1, 27)])
      (.assign .imm (bits8 ++ [(39, 7, 8), (44, 1, 11)])))]

/-- The shifts into a pair and into a scalar; those in between have no operation. -/
def pairShifts (left leftOut right rightOut : HotOp) : List (BitVec 64 × HotOp) :=
  [(0x8, .none), (0x4, left), (0x6, .none), (0x7, .none), (0x5, leftOut), (0xC, right),
    (0xE, .none), (0xF, .none), (0xD, rightOut), (0x2, .none), (0xA, .none)]

def scalarShifts : List (BitVec 64 × HotOp) :=
  [(0x8, .none), (0x6, .none), (0x7, .none), (0x4, .lsl), (0x5, .lslx), (0xE, .none),
    (0xF, .none), (0xC, .lsr), (0xD, .lsrx), (0x2, .none), (0xA, .none)]

def shiftTargets (body : List (BitVec 64 × HotOp) → Formats → DecodeTree) (scalar zero : Formats) :
    DecodeTree :=
  firstOf [
    (widePair 0x1, dcEven <| ra <| body (pairShifts .lslS .lslxS .lsrS .lsrxS) scalar),
    (widePair 0x0, dcEven <| ra <| body (pairShifts .lslU .lslxU .lsrU .lsrxU) scalar),
    (wideScalar, rc <| ra <| body scalarShifts scalar),
    (wideNone, ra <| body scalarShifts zero)]

def shiftImmediate (codes : List (BitVec 64 × HotOp)) (fmts : Formats) : DecodeTree :=
  let condition := shifting 0xD
  firstOf [
    (condition.absent, shift <| byCode 16 codes fun op => accept op fmts.plain),
    (condition.writes, set .cc condition.written <| shift <|
      byCode 16 codes fun op => accept op fmts.writes),
    (condition.branches, set .cc condition.branched <| shift <|
      byCode 16 codes fun op => pc <| accept op fmts.branches)]

def shiftRegister (codes : List (BitVec 64 × HotOp)) (fmts : Formats) : DecodeTree :=
  byCode 20 codes fun op => onRegisters (shifting 0xB) op fmts

def callWord (body : HotFormat → DecodeTree) (scalar zero : DecodeTree → DecodeTree)
    (fmt zeroFmt : HotFormat) : DecodeTree :=
  firstOf [
    (wideScalar, rc <| ra <| onlyIf (eq 24 0xF 0x0) <| scalar <| body fmt),
    (wideNone, ra <| onlyIf (eq 24 0xF 0x0) <| zero <| body zeroFmt)]

/-- CLO, CLZ and the words like them; `lasts` are the pairs they may write to. -/
def countWord (lasts : List (BitVec 64)) (op : HotOp) : DecodeTree :=
  let pairs := lasts.map fun last =>
    (widePair last, dcEven <| onRegisters logical .none ⟨.none, .none, .none⟩)
  firstOf (pairs ++ [
    (wideScalar, rc <| onRegisters logical op ⟨.rr, .rrc, .rrci⟩),
    (wideNone, onRegisters logical op ⟨.zr, .zrc, .zrci⟩)])

def countWords : DecodeTree :=
  ra <| firstOf [
    (masked 20 0xF 0x7 0x0, countWord [0x1, 0x0] .none),
    (masked 20 0xF 0x7 0x1, countWord [0x1, 0x0] .clo),
    (masked 20 0xF 0x7 0x2, countWord [0x1, 0x0] .none),
    (masked 20 0xF 0x7 0x3, countWord [0x1, 0x0] .clz),
    (masked 20 0xF 0x7 0x5, countWord [0x1] .none),
    (masked 20 0xF 0x7 0x7, countWord [0x1] .none),
    (masked 20 0xF 0x7 0x4, countWord [0x0] .none),
    (masked 20 0xF 0x7 0x6, countWord [0x0] .none)]

def logicImmediates : DecodeTree :=
  firstOf [
    (masked 28 0xF 0xF 0xA, logicImmediate .andS .andU .and),
    (masked 28 0xF 0xF 0xC, logicImmediate .none .none .none),
    (masked 28 0xF 0xC 0x4,
      shiftTargets shiftImmediate ⟨.rri, .rric, .rrici⟩ ⟨.zri, .zric, .zrici⟩),
    (masked 28 0xF 0xF 0x0, callWord (accept .call) (set .off bits24)
      (set .off (bits24 ++ [(39, 7, 24), (44, 1, 27)])) .rri .zri),
    (masked 28 0xF 0xF 0x3, countWords),
    (masked 28 0xF 0xF 0x1, logicImmediate .none .none .none),
    (masked 28 0xF 0xF 0xF, logicImmediate .none .none .none),
    (masked 28 0xF 0xF 0xE, logicImmediate .none .none .none),
    (masked 28 0xF 0xF 0x9, logicImmediate .none .none .none),
    (masked 28 0xF 0xF 0xB, logicImmediate .orS .orU .or),
    (masked 28 0xF 0xF 0xD, logicImmediate .none .none .none),
    (masked 28 0xF 0xF 0x2, ra <| onlyIf (masked 20 0xF 0xC 0x0) <|
      countWord [0x1, 0x0] .none),
    (masked 28 0xF 0xF 0x8, logicImmediate .none .none .none)]

def logicRegister (opS opU op : HotOp) : DecodeTree :=
  let pair (op : HotOp) := dcEven <| ra <| onRegisters logical op ⟨.rrr, .rrrc, .rrrci⟩
  firstOf [
    (widePair 0x1, pair opS),
    (widePair 0x0, pair opU),
    (wideScalar, rc <| ra <| onRegisters logical op ⟨.rrr, .rrrc, .rrrci⟩),
    (wideNone, ra <| onRegisters logical op ⟨.zrr, .zrrc, .zrrci⟩)]

def shiftAdd (op : HotOp) (plain branches : HotFormat) : DecodeTree :=
  firstOf [
    (eq 24 0xF 0x0, shift <| accept op plain),
    (outsideNonZero 0x2, cc4 <| pc <| shift <| accept op branches)]

def shiftAddWord (opS opU op : HotOp) : DecodeTree :=
  firstOf [
    (widePair 0x1, dcEven <| ra <| shiftAdd opS .rrri .rrrici),
    (widePair 0x0, dcEven <| ra <| shiftAdd opU .rrri .rrrici),
    (wideScalar, rc <| ra <| shiftAdd op .rrri .rrrici),
    (wideNone, ra <| shiftAdd op .zrri .zrrici)]

def logicRegisters : DecodeTree :=
  firstOf [
    (masked 20 0xF 0xF 0xA, logicRegister .andS .andU .and),
    (masked 20 0xF 0xF 0xC, logicRegister .none .none .none),
    (masked 20 0xF 0xF 0x0, callWord (accept .call) id id .rrr .zrr),
    (masked 20 0xF 0xF 0x1, logicRegister .none .none .none),
    (masked 20 0xF 0xF 0xF, logicRegister .none .none .none),
    (masked 20 0xF 0xF 0xE, logicRegister .none .none .none),
    (masked 20 0xF 0xF 0x9, logicRegister .none .none .none),
    (masked 20 0xF 0xF 0xB, source .rb <| logicRegister .orS .orU .or),
    (masked 20 0xF 0xF 0xD, logicRegister .none .none .none),
    (masked 20 0xF 0xF 0x8, logicRegister .none .none .none)]

def registerWords : DecodeTree :=
  source .rb <| firstOf [
    (masked 28 0xF 0xF 0xC, logicRegisters),
    (masked 28 0xF 0xD 0xD,
      shiftTargets shiftRegister ⟨.rrr, .rrrc, .rrrci⟩ ⟨.zrr, .zrrc, .zrrci⟩),
    (masked 28 0xF 0xC 0x8, logicRegister .none .none .none),
    (masked 28 0xF 0xE 0x4, source .rb <| shiftAddWord .lslAddS .lslAddU .lslAdd),
    (masked 28 0xF 0xE 0x6, source .rb <| shiftAddWord .lslSubS .lslSubU .lslSub),
    (masked 28 0xF 0xE 0x2, source .rb <| shiftAddWord .lsrAddS .lsrAddU .lsrAdd),
    (masked 28 0xF 0xE 0x0, shiftAddWord .none .none .none)]

def moveWord (op : HotOp) : DecodeTree :=
  onlyIf (ne 42 0x3 0x3) <| dc <| onlyIf (eq 34 0x1F 0x18) <| ra <| onlyIf (outside 0x6) <|
    cc4 <| pc <| accept op .rrci

def pairWords : DecodeTree :=
  source .db <| firstOf [
    (masked 28 0xF 0xE 0x6, onlyIf (ne 42 0x3 0x3) <| dc <| onlyIf (outside 0x2) <| cc4 <| ra <|
      pc <| shift <| accept .divStep .rrrici),
    (masked 28 0xF 0xF 0x2, moveWord .movd),
    (masked 28 0xF 0xE 0x4, onlyIf (ne 42 0x3 0x3) <| dc <| onlyIf (ne 34 0x1F 0x18) <| ra <|
      onlyIf (outside 0x6) <| cc4 <| pc <| shift <| accept .mulStep .rrrici),
    (masked 28 0xF 0xF 0xA, moveWord .swapd)]

def decodeTable : DecodeTree :=
  firstOf [
    (eq 44 0xF 0x7, memoryWords),
    (fun i => field i 45 0x7 = 0x0 ∧ field i 42 0x3 ≠ 0x3, additionWords),
    (fun i => (field i 47 0x1 = 0x0 ∧ field i 44 0x7 ≠ 0x7) ∧ field i 42 0x3 = 0x3,
      arithmeticWords),
    (fun i => field i 44 0xF = 0x6 ∧ field i 42 0x3 ≠ 0x3, orWords),
    (fun i => field i 45 0x7 = 0x2 ∧ field i 42 0x3 ≠ 0x3, logicalWords),
    (fun i => field i 45 0x7 = 0x1 ∧ field i 42 0x3 ≠ 0x3, subtractionWords),
    (eq 45 0x7 0x4, firstOf [
      (immediateSource, logicImmediates),
      (scalarSource, registerWords),
      (pairSource, pairWords)])]

/-- The record that `decode_raw_word_48` leaves in `out`, and what it returns. -/
def decodeRawWord48 (instruction : BitVec 64) : RawDecoded48 × Bool :=
  DecisionTree.run Statement.apply instruction decodeTable .empty

/-- The record alone, which has what is returned as its `valid`. -/
def rawDecoded (instruction : BitVec 64) : RawDecoded48 := (decodeRawWord48 instruction).1

theorem check_decodeTable :
    DecisionTree.check Statement.validAfter (fun valid flag => flag == valid) decodeTable
      RawDecoded48.empty.valid = true := by
  decide +kernel

theorem decodeRawWord48_valid (instruction : BitVec 64) :
    (decodeRawWord48 instruction).1.valid = (decodeRawWord48 instruction).2 := by
  have hflag := DecisionTree.accepts_run valid_apply check_decodeTable instruction
  exact (eq_of_beq hflag).symm

def pairShape (out : RawDecoded48) : HotOp × Bool × Bool := (out.hotOp, out.hasDc, out.hasDb)

def Statement.shapeAfter (shape : HotOp × Bool × Bool) : Statement → HotOp × Bool × Bool
  | .assign .dc _ => (shape.1, true, shape.2.2)
  | .assign .db _ => (shape.1, shape.2.1, true)
  | .hot op _ => (op, shape.2)
  | _ => shape

theorem pairShape_apply (instruction : BitVec 64) (out : RawDecoded48) (statement : Statement) :
    pairShape (statement.apply instruction out) = statement.shapeAfter (pairShape out) := by
  cases statement with
  | assign operand parts => cases operand <;> rfl
  | _ => rfl

def namesPairs (shape : HotOp × Bool × Bool) : Bool :=
  (shape.1 != .movd || shape.2.1) && (shape.1 != .swapd || shape.2.1 && shape.2.2)

theorem check_namesPairs :
    DecisionTree.check Statement.shapeAfter (fun shape _ => namesPairs shape) decodeTable
      (pairShape .empty) = true := by
  decide +kernel

theorem rawDecoded_namesPairs (instruction : BitVec 64) :
    namesPairs (pairShape (rawDecoded instruction)) = true :=
  DecisionTree.accepts_run pairShape_apply check_namesPairs instruction

def Configures (result : RawDecoded48 × Bool) : Prop :=
  result.1.hotOp = .timeCfg → result.1.hasRa = true ∧ result.1.ra = 25

theorem configures_of_check {tree : DecodeTree} {out : RawDecoded48}
    (h : DecisionTree.check Statement.shapeAfter (fun shape _ => shape.1 != .timeCfg) tree
      (pairShape out) = true) (instruction : BitVec 64) :
    Configures (DecisionTree.run Statement.apply instruction tree out) := by
  intro hop
  have hnot := DecisionTree.accepts_run pairShape_apply h instruction
  exact absurd hop (bne_iff_ne.mp hnot)

section
variable {instruction : BitVec 64} {out : RawDecoded48}

theorem configures_firstOf {branches : List (Test × DecodeTree)} (k : Nat)
    (hothers : DecisionTree.check Statement.shapeAfter (fun shape _ => shape.1 != .timeCfg)
      (firstOf (branches.eraseIdx k)) (pairShape out) = true)
    (hbranch : ∀ branch ∈ branches[k]?, branch.1 instruction = true →
      Configures (DecisionTree.run Statement.apply instruction branch.2 out)) :
    Configures (DecisionTree.run Statement.apply instruction (firstOf branches) out) := by
  induction branches generalizing k with
  | nil => exact configures_of_check hothers instruction
  | cons branch branches ih =>
      have hrun : DecisionTree.run Statement.apply instruction (firstOf (branch :: branches)) out =
          if branch.1 instruction then DecisionTree.run Statement.apply instruction branch.2 out
          else DecisionTree.run Statement.apply instruction (firstOf branches) out := rfl
      rw [hrun]
      cases k with
      | zero =>
          split
          · rename_i htest
            exact hbranch branch rfl htest
          · exact configures_of_check hothers instruction
      | succ k =>
          obtain ⟨hfirst, hrest⟩ := Bool.and_eq_true_iff.mp hothers
          split
          · exact configures_of_check hfirst instruction
          · exact ih k hrest hbranch

theorem configures_timeWord (h : out.hasRa = true ∧ out.ra = 25) (op : HotOp) (plain branches : HotFormat) :
    Configures (DecisionTree.run Statement.apply instruction (timeWord op plain branches) out) := by
  intro _
  unfold timeWord firstOf DecisionTree.firstOf accept
  simp only [List.foldr, DecisionTree.run, cc4, pc, set]
  by_cases hop : op = .none
  · rw [if_pos hop, if_pos hop]
    simp only [DecisionTree.run]
    split_ifs <;> exact h
  · rw [if_neg hop, if_neg hop]
    simp only [DecisionTree.run]
    split_ifs <;> exact h

theorem rawDecoded_timeCfg (instruction : BitVec 64)
    (h : (rawDecoded instruction).hotOp = .timeCfg) :
    (rawDecoded instruction).hasRa = true ∧ (rawDecoded instruction).ra = 25 := by
  revert h
  change Configures (DecisionTree.run Statement.apply instruction decodeTable .empty)
  refine configures_firstOf 2 (by decide +kernel) ?_
  rintro _ ⟨⟩ _
  refine configures_firstOf 1 (by decide +kernel) ?_
  rintro _ ⟨⟩ _
  refine configures_firstOf 1 (by decide +kernel) ?_
  rintro _ ⟨⟩ _
  refine configures_firstOf 1 (by decide +kernel) ?_
  rintro _ ⟨⟩ _
  refine configures_firstOf 0 (by decide +kernel) ?_
  rintro _ ⟨⟩ _
  refine configures_firstOf 1 (by decide +kernel) ?_
  rintro _ ⟨⟩ hra
  have hfield : gather instruction [(34, 31, 0)] = 25 := by
    have hword : field instruction 34 0x1F = 0x19 := of_decide_eq_true hra
    unfold gather
    simp only [List.map, List.foldl]
    rw [show (31 : BitVec 64) = 0x1F from rfl, hword]
    rfl
  change Configures (DecisionTree.run Statement.apply instruction
    (firstOf [_, _, _, _]) (assigned (assigned _ _ .rb) (gather instruction [(34, 31, 0)]) .ra))
  rw [hfield]
  apply DecisionTree.run_firstOf (fun _ => ⟨rfl, rfl⟩)
  simp only [List.forall_mem_cons, List.not_mem_nil, false_implies, implies_true, and_true]
  exact ⟨fun _ => configures_timeWord ⟨rfl, rfl⟩ _ _ _, fun _ => configures_timeWord ⟨rfl, rfl⟩ _ _ _,
    fun _ => configures_timeWord ⟨rfl, rfl⟩ _ _ _, fun _ => configures_timeWord ⟨rfl, rfl⟩ _ _ _⟩

end

end HostPimSim.Upmem.DecodeTable
