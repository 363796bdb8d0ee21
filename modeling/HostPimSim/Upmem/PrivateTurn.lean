import HostPimSim.Upmem.TaskletStep
import HostPimSim.Upmem.WramWidth

/-! Turns of tasklets that share no bytes of WRAM.  An instruction of a tasklet that keeps to
bytes of its own and to bytes that nobody writes has the same effects whatever the others did
before it. -/
namespace HostPimSim.Upmem

/-- Who may use a byte of WRAM: one tasklet, or all of them as long as they only read it. -/
abbrev Owners := Nat → Option Nat

/-- The bytes an instruction reads or writes, or something else that tasklets share: locks, run
and sleep bits, MRAM and the performance counter. -/
inductive WramAccess where
  | none
  | load (width : Width) (offset : BitVec 32)
  | store (width : Width) (offset : BitVec 32)
  | shared

def hotAccess (decoded : RawDecoded48) (o : Operands) : WramAccess :=
  match decoded.hotOp with
  | .acquire | .release | .resume | .boot | .ldma | .sdma | .time | .timeCfg => .shared
  | .lbu | .lbs => .load .byte (o.vra + o.voff)
  | .lw | .lwS => .load .word (o.vra + o.voff)
  | .ld => .load .double (o.vra + o.voff)
  | .sb => .store .byte (o.vra + o.voff)
  | .sh => .store .half (o.vra + o.voff)
  | .sw => .store .word (o.vra + o.voff)
  | .sd => .store .double (o.vra + o.voff)
  | _ => .none

def opcodeAccess (f : Fields) : WramAccess :=
  match f.opcode with
  | some .acquire | some .release | some .resume | some .boot | some .ldma | some .ldmai
  | some .sdma | some .time | some .timeCfg => .shared
  | some .lbs | some .lbu => .load .byte (f.raVal + f.imm16s)
  | some .lhs | some .lhu => .load .half (f.raVal + f.imm16s)
  | some .lw => .load .word (f.raVal + f.imm16s)
  | some .ld => .load .double (f.raVal + f.imm16s)
  | some .sb | some .sbId => .store .byte (storeAddr f 1 (f.opcode = some .sbId))
  | some .sh | some .shId => .store .half (storeAddr f 2 (f.opcode = some .shId))
  | some .sw | some .swId => .store .word (storeAddr f 4 (f.opcode = some .swId))
  | some .sd | some .sdId => .store .double (storeAddr f 8 (f.opcode = some .sdId))
  | _ => .none

/-- The tasklet loads bytes that no other may write, and stores to its own. -/
def WramAccess.Within (owners : Owners) (t : Nat) : WramAccess → Prop
  | .none => True
  | .load width offset => Wram.relInBounds offset width.bytes = true → ∀ i < width.bytes,
      owners (offset.toNat + i) = some t ∨ owners (offset.toNat + i) = Option.none
  | .store width offset => Wram.relInBounds offset width.bytes = true → ∀ i < width.bytes,
      owners (offset.toNat + i) = some t
  | .shared => False

instance decidableWithin (owners : Owners) (t : Nat) :
    ∀ access, Decidable (WramAccess.Within owners t access)
  | .none => isTrue trivial
  | .load width _ => inferInstanceAs (Decidable (_ → ∀ i < width.bytes, _))
  | .store width _ => inferInstanceAs (Decidable (_ → ∀ i < width.bytes, _))
  | .shared => isFalse id

section
variable (decodeRawWord48 : BitVec 64 → RawDecoded48)

def wordAccess (inst48 : BitVec 64) (dpu : Dpu) (t : Nat) : WramAccess :=
  if handled decodeRawWord48 inst48 then
    hotAccess (decodeRawWord48 inst48) (operands (decodeRawWord48 inst48) dpu t)
  else opcodeAccess (fields inst48 dpu t)

def turnAccess (dpu : Dpu) (t : Nat) : WramAccess :=
  match fetch dpu t with
  | some inst48 => wordAccess decodeRawWord48 inst48 dpu t
  | Option.none => .none

def PrivateTurn (owners : Owners) (dpu : Dpu) (t : Nat) : Prop :=
  (turnAccess decodeRawWord48 dpu t).Within owners t

instance (owners : Owners) (dpu : Dpu) (t : Nat) :
    Decidable (PrivateTurn decodeRawWord48 owners dpu t) :=
  inferInstanceAs (Decidable (WramAccess.Within _ _ _))

end

structure Alike (owners : Owners) (t : Nat) (x y : Dpu) : Prop where
  iram : y.iram = x.iram
  tasklet : y.tasklets t = x.tasklets t
  runBit : y.runBits.getLsbD t = x.runBits.getLsbD t
  sleepBit : y.sleepBits.getLsbD t = x.sleepBits.getLsbD t
  replayBit : y.replayBits.getLsbD t = x.replayBits.getLsbD t
  perfCounterMode : y.perfCounterMode = x.perfCounterMode
  wram : ∀ a, owners a = some t ∨ owners a = none → y.wram a = x.wram a

section
variable {owners : Owners} {t : Nat} {x y : Dpu}

theorem Alike.refl (owners : Owners) (t : Nat) (x : Dpu) : Alike owners t x x :=
  ⟨rfl, rfl, rfl, rfl, rfl, rfl, fun _ _ => rfl⟩

theorem Alike.fetch (h : Alike owners t x y) : fetch y t = fetch x t := by
  unfold Upmem.fetch Dpu.runnable
  rw [h.runBit, h.sleepBit, h.tasklet, h.iram]

theorem readReg_alike (h : y.tasklets t = x.tasklets t) (r : Nat) :
    y.readReg t r = x.readReg t r :=
  readReg_congr fun _ => congrArg (fun tasklet => tasklet.gp r) h

theorem readDreg_alike (h : y.tasklets t = x.tasklets t) (r : Nat) :
    y.readDreg t r = x.readDreg t r := by
  unfold Dpu.readDreg
  dsimp only
  rw [readReg_alike h, readReg_alike h]

theorem operands_alike (decoded : RawDecoded48) (h : y.tasklets t = x.tasklets t) :
    operands decoded y t = { operands decoded x t with dpu := y } := by
  unfold operands
  rw [readReg_alike h, readReg_alike h, h]

theorem fields_alike (inst48 : BitVec 64) (h : y.tasklets t = x.tasklets t) :
    fields inst48 y t = { fields inst48 x t with dpu := y } := by
  unfold fields
  dsimp only
  rw [readReg_alike h, readReg_alike h]

/-- Two memories that agree on the bytes of an access in bounds. -/
def Wram.AgreeOn (first second : Wram) (width : Width) (offset : BitVec 32) : Prop :=
  Wram.relInBounds offset width.bytes = true →
    ∀ i < width.bytes, second (offset.toNat + i) = first (offset.toNat + i)

theorem Width.bytes_le (width : Width) : width.bytes ≤ 8 := by
  cases width <;> decide

theorem copyOut_alike {first second : Wram} {width : Width} {offset : BitVec 32}
    (h : first.AgreeOn second width offset) (hbounds : Wram.relInBounds offset width.bytes = true) :
    second.copyOut offset width.bytes = first.copyOut offset width.bytes :=
  (Core.Register.loadBytes_eq_iff width.bytes_le).mpr (h hbounds)

theorem loadU8_alike {first second : Wram} {offset : BitVec 32}
    (h : first.AgreeOn second .byte offset) : second.loadU8 offset = first.loadU8 offset := by
  unfold Wram.loadU8
  split
  · rename_i hbounds
    exact h hbounds 0 Nat.one_pos
  · rfl

theorem loadU16_alike {first second : Wram} {offset : BitVec 32}
    (h : first.AgreeOn second .half offset) (bigEndian : Bool) :
    second.loadU16 offset bigEndian = first.loadU16 offset bigEndian := by
  unfold Wram.loadU16
  split
  · rfl
  · rename_i hbounds
    have hcopy : second.copyOut offset 2 = first.copyOut offset 2 :=
      copyOut_alike h (by simpa [Width.bytes] using hbounds)
    rw [hcopy]

theorem loadU32_alike {first second : Wram} {offset : BitVec 32}
    (h : first.AgreeOn second .word offset) (bigEndian : Bool) :
    second.loadU32 offset bigEndian = first.loadU32 offset bigEndian := by
  unfold Wram.loadU32
  split
  · rfl
  · rename_i hbounds
    have hcopy : second.copyOut offset 4 = first.copyOut offset 4 :=
      copyOut_alike h (by simpa [Width.bytes] using hbounds)
    rw [hcopy]

theorem loadU64_alike {first second : Wram} {offset : BitVec 32}
    (h : first.AgreeOn second .double offset) (bigEndian : Bool) :
    second.loadU64 offset bigEndian = first.loadU64 offset bigEndian := by
  unfold Wram.loadU64
  split
  · rfl
  · rename_i hbounds
    have hcopy : second.copyOut offset 8 = first.copyOut offset 8 :=
      copyOut_alike h (by simpa [Width.bytes] using hbounds)
    rw [hcopy]

theorem storeWidth_alike {first second : Wram} (width : Width) (offset : BitVec 32)
    (value : BitVec 64) (bigEndian : Bool) {a : Nat} (h : second a = first a) :
    second.storeWidth width offset value bigEndian a =
      first.storeWidth width offset value bigEndian a := by
  have hcopy : ∀ size stored, second.copyIn offset size stored a =
      first.copyIn offset size stored a := by
    intro size stored
    unfold Wram.copyIn
    rw [h]
  cases width with
  | byte =>
      unfold Wram.storeWidth Wram.storeU8
      split
      · exact hcopy _ _
      · exact h
  | half =>
      unfold Wram.storeWidth Wram.storeU16
      split
      · exact hcopy _ _
      · exact h
  | word =>
      unfold Wram.storeWidth Wram.storeU32
      split
      · exact hcopy _ _
      · exact h
  | double =>
      unfold Wram.storeWidth Wram.storeU64
      split
      · exact hcopy _ _
      · exact h

theorem Alike.agreeOn (h : Alike owners t x y) {width : Width} {offset : BitVec 32}
    (hwithin : (WramAccess.load width offset).Within owners t) :
    x.wram.AgreeOn y.wram width offset :=
  fun hbounds i hi => h.wram _ (hwithin hbounds i hi)

def Effect.isOwn : Effect → Prop
  | .writeReg _ _ | .writeDreg _ _ | .setZf _ | .setCf _ | .branch _ _ _ | .jump _ | .halt => True
  | _ => False

@[simp] theorem isOwn_takeCondBranch (decoded : RawDecoded48) (value : BitVec 32) :
    Meets Effect.isOwn (takeCondBranch decoded value) := by
  unfold takeCondBranch
  split <;> simp [Effect.isOwn]

@[simp] theorem isOwn_writeRc (decoded : RawDecoded48) (value : BitVec 32) :
    Meets Effect.isOwn (writeRc decoded value) := by
  unfold writeRc
  split <;> simp [Effect.isOwn]

@[simp] theorem isOwn_writeExtDreg32 (decoded : RawDecoded48) (value : BitVec 32) :
    Meets Effect.isOwn (writeExtDreg32 decoded value) := by
  unfold writeExtDreg32
  split
  · simp
  · split <;> simp [Effect.isOwn]

@[simp] theorem isOwn_writeResult (decoded : RawDecoded48) (value : BitVec 32) :
    Meets Effect.isOwn (writeResult decoded value) := by
  unfold writeResult
  split
  · simp
  · split <;> simp

/-- The effects of one instruction in two states that are alike: the same on the tasklet alone,
or the same store. -/
inductive Twin (owners : Owners) (t : Nat) (x y : Dpu) : List Effect → List Effect → Prop where
  | own {effects : List Effect} (h : Meets Effect.isOwn effects) :
      Twin owners t x y effects effects
  | store {width : Width} {offset : BitVec 32} (value : BitVec 64) (bigEndian : Bool)
      (h : (WramAccess.store width offset).Within owners t) :
      Twin owners t x y [.storeWram (x.wram.storeWidth width offset value bigEndian)]
        [.storeWram (y.wram.storeWidth width offset value bigEndian)]

theorem Twin.of_eq {effects effects' : List Effect} (h : effects' = effects)
    (hown : Meets Effect.isOwn effects) : Twin owners t x y effects effects' := by
  rw [h]
  exact .own hown

theorem storeU8_eq (wram : Wram) (offset : BitVec 32) (value : BitVec 8) :
    wram.storeU8 offset value = wram.storeWidth .byte offset (value.setWidth 64) false := by
  simp [Wram.storeWidth]

theorem storeU16_eq (wram : Wram) (offset : BitVec 32) (value : BitVec 16) :
    wram.storeU16 offset value false =
      wram.storeWidth .half offset (value.setWidth 64) false := by
  simp [Wram.storeWidth]

theorem storeU32_eq (wram : Wram) (offset : BitVec 32) (value : BitVec 32) (bigEndian : Bool) :
    wram.storeU32 offset value bigEndian =
      wram.storeWidth .word offset (value.setWidth 64) bigEndian := by
  simp [Wram.storeWidth]

theorem storeU64_eq (wram : Wram) (offset : BitVec 32) (value : BitVec 64) (bigEndian : Bool) :
    wram.storeU64 offset value bigEndian =
      wram.storeWidth .double offset value bigEndian := rfl

theorem isOwn_shiftEffects (decoded : RawDecoded48) (o : Operands) :
    Meets Effect.isOwn (shiftEffects decoded o) := by
  unfold shiftEffects
  by_cases hdc : decoded.hasDc = true <;> simp [Effect.isOwn, hdc]

theorem isOwn_shiftAddEffects (decoded : RawDecoded48) (o : Operands) :
    Meets Effect.isOwn (shiftAddEffects decoded o) := by
  unfold shiftAddEffects
  dsimp only
  split <;> simp [Effect.isOwn]

theorem isOwn_moveEffects (decoded : RawDecoded48) (o : Operands) :
    Meets Effect.isOwn (moveEffects decoded o) := by
  unfold moveEffects
  by_cases hswap : decoded.hotOp = .swapd <;> simp [Effect.isOwn, hswap]

theorem isOwn_stepEffects (decoded : RawDecoded48) (o : Operands) :
    Meets Effect.isOwn (mulStepEffects decoded o) ∧
      Meets Effect.isOwn (divStepEffects decoded o) := by
  constructor
  · unfold mulStepEffects
    by_cases hfmt : decoded.hotFmt = .rrrici <;> simp [Effect.isOwn, hfmt]
  · simp [divStepEffects, Effect.isOwn]

theorem hotEffects_twin (h : Alike owners t x y) (decoded : RawDecoded48)
    (hwithin : (hotAccess decoded (operands decoded x t)).Within owners t) :
    Twin owners t x y (hotEffects decoded (operands decoded x t))
      (hotEffects decoded (operands decoded y t)) := by
  have hreg : ∀ r, y.readReg t r = x.readReg t r := readReg_alike h.tasklet
  have hdreg : ∀ r, y.readDreg t r = x.readDreg t r := readDreg_alike h.tasklet
  have htasklet := h.tasklet
  have ht : (operands decoded x t).t = t := rfl
  have hx : (operands decoded x t).dpu = x := rfl
  rw [operands_alike decoded h.tasklet]
  generalize operands decoded x t = o at hwithin ht hx ⊢
  unfold hotAccess at hwithin
  unfold hotEffects
  dsimp only
  cases hop : decoded.hotOp with
  | acquire | release | resume | boot | ldma | sdma | time | timeCfg =>
      simp only [hop] at hwithin
      exact hwithin.elim
  | lbu | lbs =>
      simp only [hop] at hwithin
      refine .of_eq ?_ (by simp [Effect.isOwn])
      rw [hx, loadU8_alike (h.agreeOn hwithin)]
  | lw | lwS =>
      simp only [hop] at hwithin
      refine .of_eq ?_ (by simp [Effect.isOwn])
      rw [hx, loadU32_alike (h.agreeOn hwithin)]
  | ld =>
      simp only [hop] at hwithin
      refine .of_eq ?_ (by by_cases hdc : decoded.hasDc = true <;> simp [Effect.isOwn, hdc])
      rw [hx, loadU64_alike (h.agreeOn hwithin)]
  | sb =>
      simp only [hop] at hwithin
      rw [hx, storeU8_eq, storeU8_eq]
      exact .store _ _ hwithin
  | sh =>
      simp only [hop] at hwithin
      rw [hx, storeU16_eq, storeU16_eq]
      exact .store _ _ hwithin
  | sw =>
      simp only [hop] at hwithin
      rw [hx, storeU32_eq, storeU32_eq]
      exact .store _ _ hwithin
  | sd =>
      simp only [hop] at hwithin
      rw [hx, ht, hdreg, storeU64_eq, storeU64_eq]
      exact .store _ _ hwithin
  | lsl | lslS | lslU | lslx | lslxS | lslxU | lsr | lsrS | lsrU | lsrx | lsrxS | lsrxU =>
      refine .of_eq ?_ (isOwn_shiftEffects decoded o)
      unfold shiftEffects
      rw [hx, ht, htasklet]
  | lslAdd | lslAddS | lslAddU | lslSub | lslSubS | lslSubU | lsrAdd | lsrAddS | lsrAddU =>
      exact .of_eq rfl (isOwn_shiftAddEffects decoded o)
  | movd | swapd =>
      refine .of_eq ?_ (isOwn_moveEffects decoded o)
      simp only [moveEffects, hx, ht, hdreg]
  | mulStep =>
      refine .of_eq ?_ (isOwn_stepEffects decoded o).1
      simp only [mulStepEffects, hx, ht, hreg]
  | divStep =>
      refine .of_eq ?_ (isOwn_stepEffects decoded o).2
      simp only [divStepEffects, hx, ht, hreg]
  | addc =>
      refine .of_eq ?_ (by simp [Effect.isOwn])
      rw [hx, ht, htasklet]
  | subc =>
      refine .of_eq ?_ (by simp [subcEffects, Effect.isOwn])
      simp only [subcEffects, hx, ht, htasklet]
  | add => exact .of_eq rfl (by simp [addEffects, Effect.isOwn])
  | sub => exact .of_eq rfl (by simp [subEffects, Effect.isOwn])
  | _ => exact .of_eq rfl (by simp [Effect.isOwn])

theorem opcodeEffects_twin (h : Alike owners t x y) (inst48 : BitVec 64)
    (hwithin : (opcodeAccess (fields inst48 x t)).Within owners t) :
    Twin owners t x y (opcodeEffects (fields inst48 x t)) (opcodeEffects (fields inst48 y t)) := by
  have htasklet := h.tasklet
  have hdreg : ∀ r, y.readDreg (fields inst48 x t).t r = x.readDreg (fields inst48 x t).t r :=
    readDreg_alike h.tasklet
  have ht : (fields inst48 x t).t = t := rfl
  have hx : (fields inst48 x t).dpu = x := rfl
  rw [fields_alike inst48 h.tasklet]
  generalize fields inst48 x t = f at hwithin hdreg ht hx ⊢
  have halu : aluResult { f with dpu := y } = aluResult f := by
    unfold aluResult
    rw [hx, ht, htasklet]
  unfold opcodeAccess at hwithin
  unfold opcodeEffects
  dsimp only
  rw [halu]
  cases hresult : aluResult f with
  | some result =>
      refine .of_eq rfl ?_
      cases result with
      | mk value carry => cases carry <;> simp [Effect.isOwn]
  | none =>
      cases hop : f.opcode with
      | none => exact .of_eq rfl meets_nil
      | some op =>
          simp only [hop] at hwithin
          cases op with
          | acquire | release | resume | boot | ldma | ldmai | sdma | time | timeCfg =>
              exact hwithin.elim
          | lbs | lbu =>
              refine .of_eq ?_ (by simp [Effect.isOwn])
              rw [hx, loadU8_alike (h.agreeOn hwithin)]
          | lhs | lhu =>
              refine .of_eq ?_ (by simp [Effect.isOwn])
              rw [hx, loadU16_alike (h.agreeOn hwithin)]
          | lw =>
              refine .of_eq ?_ (by simp [Effect.isOwn])
              rw [hx, loadU32_alike (h.agreeOn hwithin)]
          | ld =>
              refine .of_eq ?_ (by simp [Effect.isOwn])
              rw [hx, loadU64_alike (h.agreeOn hwithin)]
          | sb | sbId =>
              rw [hx, storeU8_eq, storeU8_eq]
              exact .store _ _ hwithin
          | sh | shId =>
              rw [hx, storeU16_eq, storeU16_eq]
              exact .store _ _ hwithin
          | sw | swId =>
              rw [hx, storeU32_eq, storeU32_eq]
              exact .store _ _ hwithin
          | sd | sdId =>
              dsimp only
              rw [hx, hdreg, storeU64_eq, storeU64_eq]
              exact .store _ _ hwithin
          | movd | swapd =>
              refine .of_eq ?_ (by simp [Effect.isOwn])
              simp only [hx, hdreg]
          | call =>
              refine .of_eq ?_ (by by_cases hneg : callTarget f < 0 <;> simp [Effect.isOwn, hneg])
              rw [hx, ht, htasklet]
              rfl
          | _ => exact .of_eq rfl (by simp [Effect.isOwn])

end

end HostPimSim.Upmem
