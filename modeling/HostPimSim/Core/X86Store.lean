import HostPimSim.Core.StoreDecode

/-! The stores of x86_64 that the decoder knows, as the processor reads them, and
what the decoder makes of their bytes. -/
namespace HostPimSim.Core.StoreDecode
open Register (Bytes loadBytes)

inductive LegacyPrefix where
  | operandSize | addressSize | repne | rep | cs | ss | ds | es | fs | gs
  deriving DecidableEq

def LegacyPrefix.byte : LegacyPrefix → BitVec 8
  | operandSize => 0x66
  | addressSize => 0x67
  | repne => 0xF2
  | rep => 0xF3
  | cs => 0x2E
  | ss => 0x36
  | ds => 0x3E
  | es => 0x26
  | fs => 0x64
  | gs => 0x65

structure Rex where
  w : Bool
  r : Bool
  x : Bool
  b : Bool
  deriving DecidableEq

def Rex.byte (rex : Rex) : BitVec 8 :=
  4#4 ++ BitVec.ofBool rex.w ++ BitVec.ofBool rex.r ++ BitVec.ofBool rex.x ++ BitVec.ofBool rex.b

inductive StoreOp where
  | movByte | mov | movByteImm | movImm | movnti
  deriving DecidableEq

namespace StoreOp

def opcode : StoreOp → List (BitVec 8)
  | movByte => [0x88]
  | mov => [0x89]
  | movByteImm => [0xC6]
  | movImm => [0xC7]
  | movnti => [0x0F, 0xC3]

def isByte : StoreOp → Bool
  | movByte | movByteImm => true
  | _ => false

def hasImm : StoreOp → Bool
  | movByteImm | movImm => true
  | _ => false

end StoreOp

/-- The bytes of displacement behind ModRM and SIB.  Without a base there are four. -/
def dispLength (mod : BitVec 2) (rm : BitVec 3) (sibBase : BitVec 3) : Nat :=
  if mod = 1 then 1
  else if mod = 2 then 4
  else if rm = 5 ∨ (rm = 4 ∧ sibBase = 5) then 4
  else 0

def operandSize (legacy : List LegacyPrefix) (rex : Option Rex) (op : StoreOp) : Nat :=
  if op.isByte then 1
  else if rex.any Rex.w then 8
  else if .operandSize ∈ legacy then 2
  else 4

/-- A store to memory as the processor reads it: legacy prefixes, at most one REX
prefix right before the opcode, ModRM, SIB, displacement and immediate. -/
structure X86Store where
  legacy : List LegacyPrefix
  rex : Option Rex
  op : StoreOp
  mod : BitVec 2
  reg : BitVec 3
  rm : BitVec 3
  sibScale : BitVec 2
  sibIndex : BitVec 3
  sibBase : BitVec 3
  disp : List (BitVec 8)
  imm : List (BitVec 8)
  mod_memory : mod ≠ 3
  reg_imm : op.hasImm = true → reg = 0
  disp_length : disp.length = dispLength mod rm sibBase
  imm_length : imm.length = if op.hasImm then min (operandSize legacy rex op) 4 else 0
  legacy_movnti : op = .movnti → .operandSize ∉ legacy ∧ .repne ∉ legacy ∧ .rep ∉ legacy

namespace X86Store
variable (store : X86Store)

def size : Nat := operandSize store.legacy store.rex store.op

def modrm : BitVec 8 := store.mod ++ store.reg ++ store.rm

/-- The SIB byte is there for one value of `rm` only. -/
def sib : List (BitVec 8) :=
  if store.rm = 4 then [store.sibScale ++ store.sibIndex ++ store.sibBase] else []

def bytes : List (BitVec 8) :=
  store.legacy.map LegacyPrefix.byte ++ store.rex.toList.map Rex.byte ++ store.op.opcode ++
    store.modrm :: (store.sib ++ store.disp ++ store.imm)

/-- The address is an index and a displacement without a base. -/
def noBase : Prop := store.mod = 0 ∧ store.rm = 4 ∧ store.sibBase = 5

instance : Decidable store.noBase := inferInstanceAs (Decidable (_ ∧ _))

end X86Store

/-- The register of a number, as the processor counts them. -/
def x86Register (number : BitVec 4) : Greg :=
  match number.toNat with
  | 0 => .rax
  | 1 => .rcx
  | 2 => .rdx
  | 3 => .rbx
  | 4 => .rsp
  | 5 => .rbp
  | 6 => .rsi
  | 7 => .rdi
  | 8 => .r8
  | 9 => .r9
  | 10 => .r10
  | 11 => .r11
  | 12 => .r12
  | 13 => .r13
  | 14 => .r14
  | _ => .r15

def extendImm (size : Nat) (imm : BitVec 64) : BitVec 64 :=
  if size = 8 then (imm.setWidth 32).signExtend 64 else imm

namespace X86Store
variable (store : X86Store) (gregs : Gregs)

/-- AH, CH, DH or BH: these numbers have another meaning with a REX prefix. -/
def highByte : Prop := store.op = .movByte ∧ store.rex = none ∧ 4 ≤ store.reg

instance : Decidable store.highByte := inferInstanceAs (Decidable (_ ∧ _))

def register : Greg :=
  x86Register (BitVec.ofBool (store.rex.any Rex.r) ++
    (if store.highByte then store.reg - 4 else store.reg))

/-- The value the processor stores, zero above its size. -/
def value : BitVec 64 :=
  if store.op.hasImm then
    extendImm store.size (loadBytes (fun i => store.imm.getD i 0) store.imm.length)
  else if store.highByte then (gregs store.register >>> 8) &&& 0xFF
  else Register.truncate store.size (gregs store.register)

end X86Store

theorem parsePrefixes_legacy (legacy : List LegacyPrefix) (state : Prefixes)
    (rest : List (BitVec 8)) :
    parsePrefixes state (legacy.map LegacyPrefix.byte ++ rest) =
      parsePrefixes { state with
        has66 := state.has66 || decide (.operandSize ∈ legacy)
        length := state.length + legacy.length } rest := by
  induction legacy generalizing state with
  | nil => simp
  | cons first legacy ih =>
      rw [List.map_cons, List.cons_append, parsePrefixes]
      cases first with
      | operandSize =>
          rw [if_pos (by decide), ih]
          simp [Nat.add_assoc, Nat.add_comm 1]
      | _ =>
          rw [if_neg (by decide), if_pos (by decide), ih]
          simp [Nat.add_assoc, Nat.add_comm 1]

theorem parsePrefixes_rex (rex : Rex) (state : Prefixes) (rest : List (BitVec 8)) :
    parsePrefixes state (rex.byte :: rest) =
      parsePrefixes { state with
        rexW := rex.w, rexR := rex.r, rexB := rex.b, length := state.length + 1 } rest := by
  obtain ⟨w, r, x, b⟩ := rex
  rw [parsePrefixes]
  cases w <;> cases r <;> cases x <;> cases b <;>
    rw [if_neg (by decide), if_neg (by decide), if_pos (by decide)] <;> rfl

theorem parsePrefixes_opcode (op : StoreOp) (state : Prefixes) (rest : List (BitVec 8)) :
    parsePrefixes state (op.opcode ++ rest) = state := by
  cases op <;>
    rw [StoreOp.opcode, List.cons_append, parsePrefixes, if_neg (by decide), if_neg (by decide),
      if_neg (by decide)]

def X86Store.prefixes (store : X86Store) : Prefixes where
  rexW := store.rex.any Rex.w
  rexR := store.rex.any Rex.r
  rexB := store.rex.any Rex.b
  has66 := .operandSize ∈ store.legacy
  length := store.legacy.length + store.rex.toList.length

namespace X86Store
variable (store : X86Store)

def front : List (BitVec 8) :=
  store.legacy.map LegacyPrefix.byte ++ store.rex.toList.map Rex.byte

theorem bytes_append (rest : List (BitVec 8)) :
    store.bytes ++ rest = store.front ++ (store.op.opcode ++
      store.modrm :: (store.sib ++ (store.disp ++ (store.imm ++ rest)))) := by
  simp [bytes, front]

theorem front_length : store.front.length = store.prefixes.length := by
  simp [front, prefixes]

theorem parsePrefixes_bytes (rest : List (BitVec 8)) :
    parsePrefixes .start (store.bytes ++ rest) = store.prefixes := by
  rw [bytes_append, front, List.append_assoc, parsePrefixes_legacy]
  cases hrex : store.rex with
  | none =>
      rw [Option.toList_none, List.map_nil, List.nil_append, parsePrefixes_opcode]
      simp [Prefixes.start, prefixes, hrex]
  | some rex =>
      rw [Option.toList_some, List.map_singleton, List.singleton_append, parsePrefixes_rex,
        parsePrefixes_opcode]
      simp [Prefixes.start, prefixes, hrex]

theorem opsize_prefixes (h : store.op.isByte = false) :
    store.prefixes.opsize = store.size := by
  simp [Prefixes.opsize, prefixes, size, operandSize, h]

theorem readByte_append {front rest : List (BitVec 8)} {byte : BitVec 8} {p : Nat}
    (hp : p = front.length) : readByte (front ++ byte :: rest) p = .ok byte := by
  subst hp
  simp [readByte]

theorem readNumber_append {front tail : List (BitVec 8)} {p size : Nat} (hp : p = front.length)
    (hsize : size ≤ tail.length) :
    readNumber (front ++ tail) p size = .ok (loadBytes (fun i => tail.getD i 0) size) := by
  subst hp
  have htail : (fun i => (front ++ tail).getD (front.length + i) 0) = fun i => tail.getD i 0 := by
    funext i
    rw [List.getD_eq_getElem?_getD, List.getD_eq_getElem?_getD,
      List.getElem?_append_right (Nat.le_add_right _ _), Nat.add_sub_cancel_left]
  unfold readNumber
  rw [if_pos (by rw [List.length_append]; omega), htail]

theorem decodeX86Write_bytes (rest : List (BitVec 8)) (gregs : Gregs) :
    decodeX86Write (store.bytes ++ rest) gregs =
      let p := store.prefixes.length + store.op.opcode.length
      if store.op.hasImm then
        decodeImmediateStore (store.bytes ++ rest) store.prefixes p store.size
      else decodeRegisterStore (store.bytes ++ rest) gregs store.prefixes p store.size := by
  have hfirst {byte : BitVec 8} {others : List (BitVec 8)}
      (h : store.op.opcode = byte :: others) :
      readByte (store.bytes ++ rest) store.prefixes.length = .ok byte := by
    rw [bytes_append, h]
    exact readByte_append store.front_length.symm
  unfold decodeX86Write
  rw [parsePrefixes_bytes]
  dsimp only
  cases hop : store.op with
  | movByte =>
      have hsize : store.size = 1 := by simp [size, operandSize, hop, StoreOp.isByte]
      rw [hsize, hfirst (by rw [hop]; rfl)]
      rfl
  | movByteImm =>
      have hsize : store.size = 1 := by simp [size, operandSize, hop, StoreOp.isByte]
      rw [hsize, hfirst (by rw [hop]; rfl)]
      rfl
  | mov =>
      rw [← store.opsize_prefixes (by rw [hop]; rfl), hfirst (by rw [hop]; rfl)]
      rfl
  | movImm =>
      rw [← store.opsize_prefixes (by rw [hop]; rfl), hfirst (by rw [hop]; rfl)]
      rfl
  | movnti =>
      have hsecond : readByte (store.bytes ++ rest) (store.prefixes.length + 1) = .ok 0xC3 := by
        rw [bytes_append, hop, StoreOp.opcode, List.cons_append, ← List.singleton_append,
          ← List.append_assoc]
        refine readByte_append ?_
        rw [List.length_append, front_length, List.length_singleton]
      rw [← store.opsize_prefixes (by rw [hop]; rfl), hfirst (by rw [hop]; rfl)]
      dsimp only [bind, Except.bind]
      rw [if_pos rfl, hsecond]
      rfl

theorem modrm_fields (mod : BitVec 2) (reg rm : BitVec 3) :
    ((mod ++ reg ++ rm : BitVec 8) >>> 6) &&& 0x03 = mod.setWidth 8 ∧
      ((mod ++ reg ++ rm : BitVec 8) >>> 3) &&& 0x07 = reg.setWidth 8 ∧
      (mod ++ reg ++ rm : BitVec 8) &&& 0x07 = rm.setWidth 8 := by
  revert mod reg rm
  decide +kernel

theorem readByte_modrm (rest : List (BitVec 8)) :
    readByte (store.bytes ++ rest) (store.prefixes.length + store.op.opcode.length) =
      .ok store.modrm := by
  rw [bytes_append, ← List.append_assoc]
  refine readByte_append ?_
  rw [List.length_append, front_length]

theorem x86ModrmLen_fields (mod : BitVec 2) (reg rm sibBase : BitVec 3) (rexB : Bool) :
    mod ≠ 3 → x86ModrmLen (mod ++ reg ++ rm) rexB +
        (if mod = 0 ∧ rm = 4 ∧ sibBase = 5 then 4 else 0) =
      1 + (if rm = 4 then 1 else 0) + dispLength mod rm sibBase := by
  revert mod reg rm sibBase rexB
  decide +kernel

def missed : Nat := if store.noBase then 4 else 0

theorem x86ModrmLen_modrm :
    x86ModrmLen store.modrm store.prefixes.rexB + store.missed =
      1 + store.sib.length + store.disp.length := by
  have hlen := x86ModrmLen_fields store.mod store.reg store.rm store.sibBase
    store.prefixes.rexB store.mod_memory
  have hsib : store.sib.length = if store.rm = 4 then 1 else 0 := by
    unfold sib
    split <;> rfl
  rw [hsib, store.disp_length]
  exact hlen

theorem bytes_length :
    store.bytes.length = store.prefixes.length + store.op.opcode.length + 1 +
      store.sib.length + store.disp.length + store.imm.length := by
  have h := congrArg List.length (store.bytes_append [])
  simp only [List.append_nil, List.length_append, List.length_cons, front_length] at h
  omega

theorem register_number (r : Bool) (reg : BitVec 3) :
    kX86RegMap.getD (reg.setWidth 8 ||| if r then 8 else 0 : BitVec 8).toNat .rax =
      x86Register (BitVec.ofBool r ++ reg) := by
  revert r reg
  decide

theorem size_cases : store.size = 1 ∨ store.size = 2 ∨ store.size = 4 ∨ store.size = 8 := by
  unfold size operandSize
  split
  · exact .inl rfl
  · split
    · exact .inr (.inr (.inr rfl))
    · split
      · exact .inr (.inl rfl)
      · exact .inr (.inr (.inl rfl))

theorem readX86RegValue_truncate {writeSize : Nat}
    (h : writeSize = 1 ∨ writeSize = 2 ∨ writeSize = 4 ∨ writeSize = 8) (gregs : Gregs)
    (reg : BitVec 8) :
    readX86RegValue gregs reg writeSize =
      Register.truncate writeSize (gregs (kX86RegMap.getD reg.toNat .rax)) := by
  obtain rfl | rfl | rfl | rfl := h
  · rfl
  · rfl
  · rfl
  · exact BitVec.and_allOnes.symm

def decodedRegister (gregs : Gregs) : BitVec 64 :=
  Register.truncate store.size
    (gregs (x86Register (BitVec.ofBool (store.rex.any Rex.r) ++ store.reg)))

theorem decodeRegisterStore_bytes (rest : List (BitVec 8)) (gregs : Gregs)
    (himm : store.op.hasImm = false) :
    decodeRegisterStore (store.bytes ++ rest) gregs store.prefixes
        (store.prefixes.length + store.op.opcode.length) store.size =
      .ok ⟨store.size, store.decodedRegister gregs, store.bytes.length - store.missed⟩ := by
  have himmLength : store.imm.length = 0 := by
    rw [store.imm_length, if_neg (by simp [himm])]
  have hlength := store.bytes_length
  have hmodrm := store.x86ModrmLen_modrm
  have hreg : (store.modrm >>> 3) &&& 0x07 = store.reg.setWidth 8 :=
    (modrm_fields store.mod store.reg store.rm).2.1
  unfold decodeRegisterStore
  rw [readByte_modrm]
  dsimp only [bind, Except.bind, pure, Except.pure]
  rw [hreg]
  congr 2
  · rw [readX86RegValue_truncate store.size_cases, register_number]
    rfl
  · omega

def decodedImm (rest : List (BitVec 8)) : List (BitVec 8) :=
  (if store.noBase then store.disp else []) ++ (store.imm ++ rest)

def counted : List (BitVec 8) :=
  store.front ++ store.op.opcode ++ store.modrm ::
    (store.sib ++ if store.noBase then [] else store.disp)

theorem bytes_counted (rest : List (BitVec 8)) :
    store.bytes ++ rest = store.counted ++ store.decodedImm rest := by
  rw [bytes_append]
  unfold counted decodedImm
  split <;> simp

theorem counted_length :
    store.counted.length + store.missed + store.imm.length = store.bytes.length := by
  have hdisp : (if store.noBase then [] else store.disp).length + store.missed =
      store.disp.length := by
    unfold missed
    split
    · rename_i hbase
      rw [store.disp_length, hbase.1, hbase.2.1, hbase.2.2]
      rfl
    · rfl
  have hlength := store.bytes_length
  unfold counted
  simp only [List.length_append, List.length_cons, front_length]
  omega

theorem decodeImmediateStore_bytes (rest : List (BitVec 8)) (himm : store.op.hasImm = true) :
    decodeImmediateStore (store.bytes ++ rest) store.prefixes
        (store.prefixes.length + store.op.opcode.length) store.size =
      .ok ⟨store.size, extendImm store.size
          (loadBytes (fun i => (store.decodedImm rest).getD i 0) store.imm.length),
        store.bytes.length - store.missed⟩ := by
  have himmLength : store.imm.length = min store.size 4 := by
    rw [store.imm_length, if_pos himm]
    rfl
  have hlength := store.bytes_length
  have hmodrm := store.x86ModrmLen_modrm
  have hreg : (store.modrm >>> 3) &&& 0x07 = 0 := by
    refine (modrm_fields store.mod store.reg store.rm).2.1.trans ?_
    rw [store.reg_imm himm]
    rfl
  unfold decodeImmediateStore
  rw [readByte_modrm]
  dsimp only [bind, Except.bind, pure, Except.pure]
  have hptr : store.prefixes.length + store.op.opcode.length + 1 +
      x86ModrmLen store.modrm store.prefixes.rexB - 1 = store.counted.length := by
    have hcounted := store.counted_length
    omega
  have hsize : store.imm.length ≤ (store.decodedImm rest).length := by
    unfold decodedImm
    simp only [List.length_append]
    omega
  have hinsn : store.counted.length + store.imm.length = store.bytes.length - store.missed := by
    have hcounted := store.counted_length
    omega
  rw [if_neg (not_not.mpr hreg), ← himmLength, hptr, ← hinsn, bytes_counted,
    readNumber_append rfl hsize]
  rfl

def decodedValue (rest : List (BitVec 8)) (gregs : Gregs) : BitVec 64 :=
  if store.op.hasImm then
    extendImm store.size
      (loadBytes (fun i => (store.decodedImm rest).getD i 0) store.imm.length)
  else store.decodedRegister gregs

theorem decodeX86Write_ok (rest : List (BitVec 8)) (gregs : Gregs) :
    decodeX86Write (store.bytes ++ rest) gregs =
      .ok ⟨store.size, store.decodedValue rest gregs, store.bytes.length - store.missed⟩ := by
  rw [decodeX86Write_bytes]
  unfold decodedValue
  cases himm : store.op.hasImm with
  | true => exact store.decodeImmediateStore_bytes rest himm
  | false => exact store.decodeRegisterStore_bytes rest gregs himm

/-- The instruction is skipped as a whole, unless its address has an index or a
displacement and no base: four bytes of it are then left. -/
theorem x86_length_iff (store : X86Store) (rest : List (BitVec 8)) (gregs : Gregs) :
    (∃ write, decodeX86Write (store.bytes ++ rest) gregs = .ok write ∧
      write.insnLen = store.bytes.length ∧
      skipInstruction gregs write.insnLen .rip =
        gregs .rip + BitVec.ofNat 64 store.bytes.length) ↔ ¬store.noBase := by
  have hlength := store.bytes_length
  rw [decodeX86Write_ok]
  constructor
  · rintro ⟨write, hwrite, hlen, -⟩ hbase
    cases hwrite
    have hmissed : store.missed = 4 := if_pos hbase
    dsimp only at hlen
    omega
  · intro hbase
    have hmissed : store.missed = 0 := if_neg hbase
    refine ⟨_, rfl, ?_, ?_⟩
    · rw [hmissed, Nat.sub_zero]
    · rw [hmissed, Nat.sub_zero]
      rfl

/-- `mov dword ptr [0x1000], 1`, without a base. -/
def absolute : X86Store where
  legacy := []
  rex := none
  op := .movImm
  mod := 0
  reg := 0
  rm := 4
  sibScale := 0
  sibIndex := 4
  sibBase := 5
  disp := [0x00, 0x10, 0x00, 0x00]
  imm := [0x01, 0x00, 0x00, 0x00]
  mod_memory := by decide
  reg_imm := by decide
  disp_length := by decide
  imm_length := by decide
  legacy_movnti := by decide

/-- Seven of eleven bytes are skipped. -/
theorem absolute_length :
    absolute.bytes = [0xC7, 0x04, 0x25, 0x00, 0x10, 0x00, 0x00, 0x01, 0x00, 0x00, 0x00] ∧
      ¬∃ write, decodeX86Write absolute.bytes (fun _ => 0) = .ok write ∧
        write.insnLen = absolute.bytes.length := by
  have hdecode : decodeX86Write absolute.bytes (fun _ => 0) = .ok ⟨4, 0x1000, 7⟩ := by
    decide +kernel
  refine ⟨by decide, ?_⟩
  rintro ⟨write, hwrite, hlength⟩
  rw [hdecode] at hwrite
  cases hwrite
  exact absurd hlength (by decide)

theorem setWidth_loadBytes (bytes : Bytes) :
    ((loadBytes bytes 4).setWidth 32).setWidth 64 = loadBytes bytes 4 := by
  apply BitVec.eq_of_getLsbD_eq
  intro k hk
  rw [BitVec.getLsbD_setWidth, BitVec.getLsbD_setWidth,
    Register.getLsbD_loadBytes _ (by decide) hk]
  by_cases hlow : k < 32
  · simp [hk, hlow]
  · simp [hlow]

theorem extendImm_eq_iff (first second : Bytes) {size : Nat} (hsize : size ≤ 8) :
    extendImm size (loadBytes first (min size 4)) =
        extendImm size (loadBytes second (min size 4)) ↔
      ∀ i < min size 4, first i = second i := by
  rw [← Register.loadBytes_eq_iff (by omega)]
  unfold extendImm
  split
  · rename_i h
    subst h
    constructor
    · intro heq
      have hlow := congrArg BitVec.toInt heq
      rw [BitVec.toInt_signExtend_of_le (by decide), BitVec.toInt_signExtend_of_le (by decide),
        BitVec.toInt_inj] at hlow
      have hwide := congrArg (BitVec.setWidth 64) hlow
      rw [Nat.min_eq_right (by decide), setWidth_loadBytes, setWidth_loadBytes] at hwide
      exact hwide
    · intro heq
      rw [heq]
  · rfl

theorem getD_append_left {first second : List (BitVec 8)} {i : Nat} (h : i < first.length) :
    (first ++ second).getD i 0 = first.getD i 0 := by
  rw [List.getD_eq_getElem?_getD, List.getElem?_append_left h, ← List.getD_eq_getElem?_getD]

theorem take_eq_iff {first second : List (BitVec 8)} (h : second.length ≤ first.length) :
    first.take second.length = second ↔
      ∀ i < second.length, first.getD i 0 = second.getD i 0 := by
  constructor
  · intro heq i hi
    have hbyte := congrArg (fun bytes => bytes.getD i 0) heq
    rw [List.getD_eq_getElem?_getD, List.getElem?_take_of_lt hi,
      ← List.getD_eq_getElem?_getD] at hbyte
    exact hbyte
  · intro heq
    apply List.ext_getElem
    · rw [List.length_take, Nat.min_eq_left h]
    · intro i _ hi
      have hbyte := heq i hi
      rw [List.getD_eq_getElem?_getD, List.getD_eq_getElem?_getD, List.getElem?_eq_getElem hi,
        List.getElem?_eq_getElem (by omega)] at hbyte
      rw [List.getElem_take]
      exact hbyte

theorem decodedImm_iff (rest : List (BitVec 8)) (himm : store.imm.length ≤ 4) :
    (∀ i < store.imm.length, (store.decodedImm rest).getD i 0 = store.imm.getD i 0) ↔
      (store.noBase → store.disp.take store.imm.length = store.imm) := by
  unfold decodedImm
  split
  · rename_i hbase
    have hdisp : store.disp.length = 4 := by
      rw [store.disp_length, hbase.1, hbase.2.1, hbase.2.2]
      rfl
    rw [take_eq_iff (by omega)]
    constructor
    · intro h _ i hi
      rw [← h i hi, getD_append_left (by omega)]
    · intro h i hi
      rw [getD_append_left (by omega)]
      exact h hbase i hi
  · rename_i hbase
    constructor
    · intro _ h
      exact absurd h hbase
    · intro _ i hi
      rw [List.nil_append, getD_append_left hi]

theorem decodedRegister_iff (gregs : Gregs) (himm : store.op.hasImm = false) :
    store.decodedRegister gregs = store.value gregs ↔
      (store.highByte → gregs (x86Register (0#1 ++ store.reg)) &&& 0xFF =
        (gregs (x86Register (0#1 ++ (store.reg - 4))) >>> 8) &&& 0xFF) := by
  unfold decodedRegister value register
  rw [if_neg (by simp [himm])]
  by_cases hhigh : store.highByte
  · have hsize : store.size = 1 := by
      simp [size, operandSize, hhigh.1, StoreOp.isByte]
    rw [if_pos hhigh, if_pos hhigh, hsize, hhigh.2.1]
    constructor
    · intro h _
      exact h
    · intro h
      exact h hhigh
  · rw [if_neg hhigh, if_neg hhigh]
    exact ⟨fun _ h => absurd h hhigh, fun _ => rfl⟩

/-- The size is always right.  The value is, unless it is in AH, CH, DH or BH and
the register of that number holds another byte, or is an immediate behind an address
without a base and the displacement does not start with it. -/
theorem x86_value_iff (store : X86Store) (rest : List (BitVec 8)) (gregs : Gregs) :
    (∃ write, decodeX86Write (store.bytes ++ rest) gregs = .ok write ∧
      write.writeSize = store.size ∧ write.writeValue = store.value gregs) ↔
      (store.highByte → gregs (x86Register (0#1 ++ store.reg)) &&& 0xFF =
          (gregs (x86Register (0#1 ++ (store.reg - 4))) >>> 8) &&& 0xFF) ∧
        (store.op.hasImm = true ∧ store.noBase →
          store.disp.take store.imm.length = store.imm) := by
  have hwrite : (∃ write, decodeX86Write (store.bytes ++ rest) gregs = .ok write ∧
      write.writeSize = store.size ∧ write.writeValue = store.value gregs) ↔
        store.decodedValue rest gregs = store.value gregs := by
    rw [decodeX86Write_ok]
    constructor
    · rintro ⟨write, hwrite, -, hvalue⟩
      cases hwrite
      exact hvalue
    · intro h
      exact ⟨_, rfl, rfl, h⟩
  rw [hwrite]
  cases himm : store.op.hasImm with
  | true =>
      have hlow : ¬store.highByte := fun h => by rw [h.1] at himm; cases himm
      have hlength : store.imm.length = min store.size 4 := by
        rw [store.imm_length, if_pos himm]
        rfl
      have hsize : store.size ≤ 8 := by
        have hcases := store.size_cases
        omega
      have hread := extendImm_eq_iff (fun i => (store.decodedImm rest).getD i 0)
        (fun i => store.imm.getD i 0) hsize
      rw [← hlength, decodedImm_iff _ _ (by omega)] at hread
      unfold decodedValue value
      rw [if_pos himm, if_pos himm, hread]
      constructor
      · intro h
        exact ⟨fun hhigh => absurd hhigh hlow, fun hbase => h hbase.2⟩
      · intro h hbase
        exact h.2 ⟨rfl, hbase⟩
  | false =>
      have hdecoded : store.decodedValue rest gregs = store.decodedRegister gregs := by
        unfold decodedValue
        rw [if_neg (by simp [himm])]
      rw [hdecoded, decodedRegister_iff store gregs himm]
      constructor
      · intro h
        exact ⟨h, fun hbase => absurd hbase.1 (by decide)⟩
      · intro h
        exact h.1

/-- `mov byte ptr [rax], ah`. -/
def storesAh : X86Store where
  legacy := []
  rex := none
  op := .movByte
  mod := 0
  reg := 4
  rm := 0
  sibScale := 0
  sibIndex := 0
  sibBase := 0
  disp := []
  imm := []
  mod_memory := by decide
  reg_imm := by decide
  disp_length := by decide
  imm_length := by decide
  legacy_movnti := by decide

/-- The low byte of RSP is reported in place of AH. -/
theorem storesAh_value :
    let gregs : Gregs := fun reg => if reg = .rax then 0x1200 else 0x7FF0
    storesAh.bytes = [0x88, 0x20] ∧ storesAh.value gregs = 0x12 ∧
      ¬∃ write, decodeX86Write storesAh.bytes gregs = .ok write ∧
        write.writeSize = storesAh.size ∧ write.writeValue = storesAh.value gregs := by
  intro gregs
  have hdecode : decodeX86Write storesAh.bytes gregs = .ok ⟨1, 0xF0, 2⟩ := by decide +kernel
  refine ⟨by decide, by decide, ?_⟩
  rintro ⟨write, hwrite, -, hvalue⟩
  rw [hdecode] at hwrite
  cases hwrite
  exact absurd hvalue (by decide)

end X86Store

end HostPimSim.Core.StoreDecode
