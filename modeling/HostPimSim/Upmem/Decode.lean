import Mathlib.Data.BitVec

/-! Decoded instruction words.  `RawDecoded48` has the fields that
`decode_raw_word_48` fills in; what `populate_hot_metadata_48` adds to them is a
function of each, one definition per field it sets. -/
namespace HostPimSim.Upmem

inductive HotOp where
  | none | acquire | release | or | orS | orU | add | addc | and | andS | andU | sub | subc
  | mulStep | divStep | resume | boot | call | ldma | sdma
  | lsl | lslS | lslU | lslx | lslxS | lslxU | lsr | lsrS | lsrU | lsrx | lsrxS | lsrxU
  | movd | swapd | clz | clo | mulUlUl | mulUlUh | mulUhUl | mulUhUh
  | lslAdd | lslAddS | lslAddU | lslSub | lslSubS | lslSubU | lsrAdd | lsrAddS | lsrAddU
  | lbu | lbs | lw | lwS | ld | sw | sb | sh | sd | time | timeCfg | stop | nop | fault
  deriving DecidableEq

inductive HotFormat where
  | none | ci | erii | erir | erri | ersi | esii | esir | i | r | rci | rici | rir | rirc
  | rirci | rirf | rki | rr | rrc | rrci | rri | rric | rrici | rrif | rrr | rrrc | rrrci
  | rrri | rrrici | ssi | sss | z | zci | zir | zirc | zirci | zirf | zr | zrc | zrci | zri
  | zric | zrici | zrif | zrr | zrrc | zrrci | zrri | zrrici
  deriving DecidableEq

inductive CcKind where
  | none | false | true | zero | nonZero | carry | noCarry | lessEqualUnsigned
  | greaterUnsigned | lessSigned | lessEqualSigned | greaterSigned | greaterEqualSigned
  | xZero | xNonZero | max | notMax | even | odd | xLessEqualUnsigned | xGreaterUnsigned
  | xLessEqualSigned | xGreaterSigned | subwordNoCarry | unknown
  deriving DecidableEq

inductive WritebackMode where
  | none | dregSign32 | dregZero32
  deriving DecidableEq

inductive CcMapKind where
  | none | map0 | map1 | map2 | map3 | map4 | map5 | map6 | map7 | map8 | map9 | map10
  | map11 | map13 | map14 | map15
  deriving DecidableEq

structure RawDecoded48 where
  valid : Bool
  hotOp : HotOp
  hotFmt : HotFormat
  hasRa : Bool
  ra : BitVec 32
  hasRb : Bool
  rb : BitVec 32
  hasRc : Bool
  rc : BitVec 32
  hasDc : Bool
  dc : BitVec 32
  hasDb : Bool
  db : BitVec 32
  imm : BitVec 32
  off : BitVec 32
  hasPc : Bool
  pc : BitVec 32
  shift : BitVec 32
  immDma : BitVec 32
  hasEndian : Bool
  endian : BitVec 32
  hasCc : Bool
  cc : BitVec 32
  deriving DecidableEq

/-- `RawDecoded48{}`. -/
def RawDecoded48.empty : RawDecoded48 :=
  ⟨false, .none, .none, false, 0, false, 0, false, 0, false, 0, false, 0, 0, 0, false, 0, 0, 0,
    false, 0, false, 0⟩

def decodeCcMap0Metadata : Nat → CcKind
  | 1 => .true
  | 2 => .zero
  | 3 => .nonZero
  | _ => .false

def decodeCcMap1Metadata : Nat → CcKind
  | 6 => .zero
  | 7 => .nonZero
  | 10 => .xZero
  | 11 => .xNonZero
  | _ => .false

def decodeCcMap2Metadata : Nat → CcKind
  | 1 => .true
  | 2 | 12 => .zero
  | 3 | 13 => .nonZero
  | 4 => .xZero
  | 5 => .xNonZero
  | 8 | 14 => .greaterEqualSigned
  | 9 | 15 => .lessSigned
  | 18 | 19 => .unknown
  | 20 => .carry
  | 21 => .noCarry
  | 22 | 23 | 24 | 25 | 26 | 27 | 28 | 29 | 30 | 31 => .subwordNoCarry
  | _ => .false

def decodeCcMap4Metadata : Nat → CcKind
  | 1 => .true
  | 2 | 12 => .zero
  | 3 | 13 => .nonZero
  | 4 => .xZero
  | 5 => .xNonZero
  | 8 | 14 => .greaterEqualSigned
  | 9 | 15 => .lessSigned
  | _ => .false

def decodeCcMap5Metadata : Nat → CcKind
  | 24 | 30 => .even
  | 25 | 31 => .odd
  | cc => decodeCcMap4Metadata cc

def decodeCcMap6Metadata : Nat → CcKind
  | 28 | 29 => .unknown
  | cc => decodeCcMap5Metadata cc

def decodeCcMap7Metadata : Nat → CcKind
  | 1 => .true
  | 2 | 12 => .zero
  | 3 | 13 => .nonZero
  | 4 => .xZero
  | 5 => .xNonZero
  | 14 => .greaterEqualSigned
  | 15 => .lessSigned
  | _ => .false

def decodeCcMap8Metadata : Nat → CcKind
  | 8 => .max
  | 9 => .notMax
  | cc => decodeCcMap7Metadata cc

def decodeCcMap9Metadata : Nat → CcKind
  | 1 => .true
  | 12 => .zero
  | 13 => .nonZero
  | 14 => .greaterEqualSigned
  | 15 => .lessSigned
  | _ => .false

def decodeCcMap11Metadata : Nat → CcKind
  | 1 => .true
  | _ => .false

def decodeCcMap13Metadata : Nat → CcKind
  | 18 | 19 => .unknown
  | 20 => .carry
  | 21 => .noCarry
  | 22 => .lessSigned
  | 23 => .greaterEqualSigned
  | 24 => .lessEqualSigned
  | 25 => .greaterSigned
  | 26 => .lessEqualUnsigned
  | 27 => .greaterUnsigned
  | 28 => .xLessEqualSigned
  | 29 => .xGreaterSigned
  | 30 => .xLessEqualUnsigned
  | 31 => .xGreaterUnsigned
  | cc => decodeCcMap4Metadata cc

/-- Above 32 the codes of `decodeCcMap13Metadata`, below it those of
`decodeCcMap1Metadata`. -/
def decodeCcMap15Metadata (cc : Nat) : CcKind :=
  if cc < 32 then decodeCcMap1Metadata cc else decodeCcMap13Metadata (cc - 32)

def selectCcMap48 (op : HotOp) (fmt : HotFormat) : CcMapKind :=
  match op with
  | .acquire => if fmt = .rici then .map0 else .none
  | .release => if fmt = .rici then .map14 else .none
  | .add | .addc =>
      match fmt with
      | .rric | .rrrc | .zric | .zrrc => .map1
      | .rrici | .rrrci | .zrici | .zrrci => .map2
      | .rrif | .zrif => .map3
      | _ => .none
  | .or | .orS | .orU | .and | .andS | .andU =>
      match fmt with
      | .rric | .rrrc | .zric | .zrrc => .map1
      | .rrici | .rrrci | .zrici | .zrrci => .map4
      | .rrif | .zrif => .map3
      | _ => .none
  | .sub | .subc =>
      match fmt with
      | .rirc | .zirc => .map1
      | .rirci | .rrici | .rrrci | .zirci | .zrici | .zrrci => .map13
      | .rirf | .rrif | .zirf | .zrif => .map3
      | .rric | .rrrc | .zric | .zrrc => .map15
      | _ => .none
  | .boot | .resume => if fmt = .rici then .map7 else .none
  | .stop => if fmt = .ci then .map7 else .none
  | .lsl | .lslS | .lslU | .lslx | .lslxS | .lslxU | .lsr | .lsrS | .lsrU | .lsrx | .lsrxS
  | .lsrxU =>
      match fmt with
      | .rric | .rrrc | .zric | .zrrc => .map1
      | .rrici | .zrici => .map5
      | .rrrci | .zrrci => .map6
      | _ => .none
  | .movd | .swapd => if fmt = .rrci then .map11 else .none
  | .clz | .clo =>
      match fmt with
      | .rrc | .zrc => .map1
      | .rrci | .zrci => .map8
      | _ => .none
  | .mulStep => if fmt = .rrrici then .map7 else .none
  | .divStep => if fmt = .rrrici then .map9 else .none
  | .lslAdd | .lslAddS | .lslAddU | .lslSub | .lslSubS | .lslSubU | .lsrAdd | .lsrAddS
  | .lsrAddU => if fmt = .rrrici ∨ fmt = .zrrici then .map10 else .none
  | _ => .none

def decodeCcMetadata48 (map : CcMapKind) (cc : Nat) : CcKind :=
  if cc > 63 then .false
  else match map with
    | .map0 => decodeCcMap0Metadata cc
    | .map1 => decodeCcMap1Metadata cc
    | .map2 => decodeCcMap2Metadata cc
    | .map4 => decodeCcMap4Metadata cc
    | .map5 => decodeCcMap5Metadata cc
    | .map6 => decodeCcMap6Metadata cc
    | .map7 => decodeCcMap7Metadata cc
    | .map8 => decodeCcMap8Metadata cc
    | .map9 | .map10 => decodeCcMap9Metadata cc
    | .map11 => decodeCcMap11Metadata cc
    | .map13 => decodeCcMap13Metadata cc
    | .map14 => if cc = 0 then .nonZero else .false
    | .map15 => decodeCcMap15Metadata cc
    | .map3 | .none => .false

namespace RawDecoded48
variable (decoded : RawDecoded48)

def offUsesSignExtend24 : Bool :=
  decoded.hotFmt ∈ [HotFormat.erri, .erir, .erii, .esii, .esir]

def ccKind : CcKind :=
  if decoded.hasCc then
    decodeCcMetadata48 (selectCcMap48 decoded.hotOp decoded.hotFmt) decoded.cc.toNat
  else .none

/-- Set for `subwordNoCarry`, zero for every other kind. -/
def ccSubwordBits : Nat :=
  if decoded.ccKind = .subwordNoCarry then decoded.cc.toNat - 17 else 0

def hotSupported : Bool :=
  let fmt := decoded.hotFmt
  match decoded.hotOp with
  | .or | .orS | .orU =>
      fmt ∈ [HotFormat.rri, .rrr, .rrif, .rrici, .rrrci, .zrr, .zrrci]
  | .add => fmt ∈ [HotFormat.rri, .rrr, .rrici, .rrrci]
  | .addc => fmt ∈ [HotFormat.rri, .rrr, .zrr]
  | .and => fmt ∈ [HotFormat.rri, .rrr, .rrici]
  | .andS | .andU => fmt = .rki
  | .sub =>
      fmt ∈ [HotFormat.rir, .rrr, .zrr, .rrrc, .zrrc, .rrrci, .zrrci, .rrif, .rrici, .zrici]
  | .subc =>
      fmt ∈ [HotFormat.rir, .rirci, .zirci, .rrr, .zrr, .rrrc, .zrrc, .rrrci, .zrrci, .rric,
        .zric, .rrici, .zrici]
  | .mulStep => fmt ∈ [HotFormat.rrrici, .rrri]
  | .divStep => fmt = .rrrici
  | .acquire | .release | .resume | .boot => fmt = .rici
  | .call => fmt ∈ [HotFormat.rri, .zri]
  | .ldma | .sdma => fmt = .rri
  | .lsl | .lslS | .lslU | .lslx | .lslxS | .lslxU | .lsr | .lsrS | .lsrU | .lsrx | .lsrxS
  | .lsrxU =>
      fmt ∈ [HotFormat.rri, .rric, .rrici, .rrr, .rrrc, .rrrci, .zri, .zric, .zrici, .zrr,
        .zrrc, .zrrci]
  | .movd | .swapd => fmt = .rrci
  | .clz => fmt ∈ [HotFormat.rr, .rrci]
  | .clo => fmt = .zrci
  | .mulUlUl | .mulUlUh | .mulUhUl | .mulUhUh => fmt = .rrr
  | .lslAdd | .lslAddS | .lslAddU | .lslSub | .lslSubS | .lslSubU =>
      fmt ∈ [HotFormat.rrri, .rrrici, .zrri, .zrrici]
  | .lsrAdd | .lsrAddS | .lsrAddU => fmt ∈ [HotFormat.rrri, .rrrici, .zrrici]
  | .lbu | .lbs | .lw | .lwS | .ld => fmt = .erri
  | .sw | .sd => fmt ∈ [HotFormat.erii, .erir]
  | .sb | .sh => fmt ∈ [HotFormat.erii, .esii, .erir, .esir]
  | .time => fmt = .r
  | .timeCfg => fmt ∈ [HotFormat.rr, .zr]
  | .stop => fmt = .ci
  | .nop => fmt = .none
  | .fault => fmt = .i
  | .none => false

def writebackMode : WritebackMode :=
  match decoded.hotOp with
  | .orS | .andS | .lslAddS | .lslSubS | .lsrAddS | .lwS => .dregSign32
  | .orU | .andU | .lslAddU | .lslSubU | .lsrAddU | .lw => .dregZero32
  | _ => .none

def suppressScalarWrite : Bool :=
  match decoded.hotOp with
  | .or => decoded.hotFmt ∈ [HotFormat.zrr, .zrrci]
  | .lslAdd | .lslSub => decoded.hotFmt ∈ [HotFormat.zrri, .zrrici]
  | .lsrAdd => decoded.hotFmt = .zrrici
  | _ => false

def immIsSigned8 : Bool := decoded.hotOp = .add ∧ decoded.hotFmt = .rrici

def immPassthrough : Bool :=
  (decoded.hotOp = .andS ∨ decoded.hotOp = .andU) ∧ decoded.hotFmt = .rki

/-- `store_source_mode == Imm32`. -/
def storesImm32 : Bool :=
  match decoded.hotOp with
  | .sw | .sd => decoded.hotFmt = .erii
  | .sb | .sh => decoded.hotFmt ∈ [HotFormat.erii, .esii]
  | _ => false

def subLhsIsImm : Bool := decoded.hotOp = .sub ∧ decoded.hotFmt = .rir

/-- The formats of `sub_rhs_is_reg` and `subc_rhs_is_reg`. -/
def rhsIsReg : Bool :=
  decoded.hotFmt ∈ [HotFormat.rrr, .zrr, .rrrc, .zrrc, .rrrci, .zrrci]

def subcLhsIsImm : Bool :=
  decoded.hotOp = .subc ∧ decoded.hotFmt ∈ [HotFormat.rir, .rirci, .zirci]

/-- `sub_is_rrrc`, `subc_is_rrrc` and their `zrrc` variants, each of which is
read for its own operation only. -/
def isRrrc : Bool := decoded.hotFmt = .rrrc

def isZrrc : Bool := decoded.hotFmt = .zrrc

def timeCfgUsesRa : Bool := decoded.hotFmt = .zr

end RawDecoded48

def field (instruction : BitVec 64) (shift : Nat) (mask : BitVec 64) : BitVec 64 :=
  (instruction >>> shift) &&& mask

def gather (instruction : BitVec 64) (parts : List (Nat × BitVec 64 × Nat)) : BitVec 32 :=
  let words := parts.map fun part => field instruction part.1 part.2.1 <<< part.2.2
  (words.foldl (fun acc word => acc ||| word) 0).setWidth 32

def highImmediate : List (Nat × BitVec 64 × Nat) :=
  [(15, 1, 8), (14, 1, 9), (13, 1, 10), (12, 1, 11), (0, 4095, 12), (24, 255, 24)]

def highOffset : List (Nat × BitVec 64 × Nat) :=
  [(15, 1, 8), (14, 1, 9), (13, 1, 10), (12, 1, 11), (0, 4095, 12)]

end HostPimSim.Upmem
