import HostPimSim.Upmem.Execute

/-! What one instruction can do.  Each switch is described once, by a condition
that all its effects meet; the invariants of a DPU follow from the condition. -/
namespace HostPimSim.Upmem

@[simp] theorem eight_dvd_slot (slot : Nat) : 8 ∣ slot * 8 % 18446744073709551616 :=
  (Nat.dvd_mod_iff (by decide)).mpr (Nat.dvd_mul_left 8 slot)

/-- The first register that MUL_STEP and DIV_STEP write.  Only the format
without a condition aligns it to its pair. -/
def stepDestination (decoded : RawDecoded48) : Nat :=
  if decoded.hotOp = .mulStep ∧ decoded.hotFmt ≠ .rrrici then decodedDc decoded / 2 * 2
  else decodedDc decoded

/-- The assignment to `atomic_bits_` of an ACQUIRE or a RELEASE of `addr`. -/
def Effect.isAtomicAccess (dpu : Dpu) (addr : BitVec 32) (isRelease : Bool) : Effect → Prop
  | .setAtomic index value =>
      index = (atomicAccess dpu addr isRelease).1 ∧ value = (atomicAccess dpu addr isRelease).2.1
  | _ => False

/-- The effects that both switches have under the same condition: targets are
slots, and only tasklets that exist and do not run are started. -/
def Effect.sound (dpu : Dpu) : Effect → Prop
  | .branch _ target _ => 8 ∣ target.toNat
  | .jump target => 8 ∣ target.toNat
  | .resume index => index < kNumTasklets
  | .boot index _ => dpu.bootable index = true
  | _ => True

def Effect.ofDecoded (decoded : RawDecoded48) (o : Operands) : Effect → Prop
  | .writeReg idx _ =>
      (decoded.hasRc = true ∧ idx = (decoded.rc &&& 0x1F).toNat) ∨
        ((decoded.hotOp = .mulStep ∨ decoded.hotOp = .divStep) ∧
          (idx = stepDestination decoded ∨ idx = stepDestination decoded + 1))
  | .writeDreg idx _ =>
      (idx = decodedDc decoded ∧
        (decoded.hasDc = true ∨ decoded.hotOp = .movd ∨ decoded.hotOp = .swapd)) ∨
        (idx = decodedDb decoded ∧ decoded.hotOp = .swapd)
  | .setAtomic index value =>
      (decoded.hotOp = .acquire ∨ decoded.hotOp = .release) ∧
        (Effect.setAtomic index value).isAtomicAccess o.dpu (o.vra + o.vimm)
          (decoded.hotOp = .release)
  | effect => effect.sound o.dpu

def Fields.writes (f : Fields) (r : Nat) : Prop :=
  match f.opcode with
  | some .movd | some .ld => dregSlot r = dregSlot f.rc
  | some .swapd => dregSlot r = dregSlot f.rc ∨ dregSlot r = dregSlot f.ra
  | some .stop | some .fault | some .nop | some .sb | some .sbId | some .sd | some .sdId
  | some .sh | some .shId | some .sw | some .swId | some .ldma | some .ldmai | some .sdma
  | none => False
  | _ => r = f.rc

def Effect.ofFields (f : Fields) : Effect → Prop
  | .writeReg idx _ => f.writes idx
  | .writeDreg idx _ => ∀ r, dregSlot r = dregSlot idx → f.writes r
  | .setAtomic index value =>
      (f.opcode = some .acquire ∨ f.opcode = some .release) ∧
        (Effect.setAtomic index value).isAtomicAccess f.dpu (f.raVal + f.imm16s)
          (f.opcode = some .release)
  | effect => effect.sound f.dpu

def Meets (p : Effect → Prop) (effects : List Effect) : Prop := ∀ effect ∈ effects, p effect

section
variable {p : Effect → Prop}

@[simp] theorem meets_nil : Meets p [] := by simp [Meets]

@[simp] theorem meets_cons (effect : Effect) (effects : List Effect) :
    Meets p (effect :: effects) ↔ p effect ∧ Meets p effects := List.forall_mem_cons

@[simp] theorem meets_append (first second : List Effect) :
    Meets p (first ++ second) ↔ Meets p first ∧ Meets p second := List.forall_mem_append

@[simp] theorem meets_ite (c : Prop) [Decidable c] (first second : List Effect) :
    Meets p (if c then first else second) ↔ if c then Meets p first else Meets p second := by
  split <;> rfl

theorem applyEffects_invariant {t : Nat} (inv : Exec → Prop)
    (happly : ∀ exec effect, inv exec → p effect → inv (effect.apply t exec))
    {effects : List Effect} (hmeets : Meets p effects) {exec : Exec} (hexec : inv exec) :
    inv (applyEffects t exec effects) := by
  induction effects generalizing exec with
  | nil => exact hexec
  | cons effect rest ih =>
      rw [meets_cons] at hmeets
      exact ih hmeets.2 (happly exec effect hexec hmeets.1)

end

theorem resumable_lt {dpu : Dpu} {index : Nat} (h : dpu.resumable index = true) :
    index < kNumTasklets := by
  simp only [Dpu.resumable, Bool.and_eq_true, decide_eq_true_eq] at h
  exact h.1

section
variable (decoded : RawDecoded48) (o : Operands)

@[simp] theorem ofDecoded_takeCondBranch (value : BitVec 32) :
    Meets (Effect.ofDecoded decoded o) (takeCondBranch decoded value) := by
  unfold takeCondBranch
  split
  · simp [Effect.ofDecoded, Effect.sound]
  · exact meets_nil

@[simp] theorem ofDecoded_writeRc (value : BitVec 32) :
    Meets (Effect.ofDecoded decoded o) (writeRc decoded value) := by
  unfold writeRc
  split
  · rename_i hrc
    simp [Effect.ofDecoded, hrc]
  · exact meets_nil

@[simp] theorem ofDecoded_writeExtDreg32 (value : BitVec 32) :
    Meets (Effect.ofDecoded decoded o) (writeExtDreg32 decoded value) := by
  unfold writeExtDreg32
  split
  · exact meets_nil
  · rename_i hdc
    rw [Bool.not_eq_true, Bool.not_eq_false'] at hdc
    split <;> simp [Effect.ofDecoded, hdc]

@[simp] theorem ofDecoded_writeResult (value : BitVec 32) :
    Meets (Effect.ofDecoded decoded o) (writeResult decoded value) := by
  unfold writeResult
  split
  · exact ofDecoded_writeExtDreg32 decoded o value
  · split
    · exact ofDecoded_writeRc decoded o value
    · exact meets_nil

@[simp] theorem ofDecoded_resumeEffects (index : Nat) :
    Meets (Effect.ofDecoded decoded o) (resumeEffects o.dpu index) := by
  unfold resumeEffects
  split
  · rename_i hresumable
    rw [meets_cons]
    exact ⟨resumable_lt hresumable, meets_nil⟩
  · exact meets_nil

@[simp] theorem ofDecoded_bootEffects (index : Nat) (clears : Bool) :
    Meets (Effect.ofDecoded decoded o) (bootEffects o.dpu index clears) := by
  unfold bootEffects
  split
  · rename_i hbootable
    rw [meets_cons]
    exact ⟨hbootable, meets_nil⟩
  · exact meets_nil

theorem ofDecoded_mulStepEffects (hop : decoded.hotOp = .mulStep) :
    Meets (Effect.ofDecoded decoded o) (mulStepEffects decoded o) := by
  unfold mulStepEffects
  by_cases hfmt : decoded.hotFmt = .rrrici
  · simp [Effect.ofDecoded, Effect.sound, stepDestination, hop, hfmt]
  · simp [Effect.ofDecoded, Effect.sound, stepDestination, hop, hfmt]

theorem ofDecoded_divStepEffects (hop : decoded.hotOp = .divStep) :
    Meets (Effect.ofDecoded decoded o) (divStepEffects decoded o) := by
  simp [divStepEffects, Effect.ofDecoded, Effect.sound, stepDestination, hop]

theorem ofDecoded_shiftEffects :
    Meets (Effect.ofDecoded decoded o) (shiftEffects decoded o) := by
  unfold shiftEffects
  by_cases hdc : decoded.hasDc = true
  · simp [Effect.ofDecoded, Effect.sound, hdc]
  · simp [Effect.ofDecoded, Effect.sound, hdc]

theorem ofDecoded_moveEffects (hop : decoded.hotOp = .movd ∨ decoded.hotOp = .swapd) :
    Meets (Effect.ofDecoded decoded o) (moveEffects decoded o) := by
  unfold moveEffects
  rcases hop with hop | hop <;> simp [Effect.ofDecoded, Effect.sound, hop]

theorem ofDecoded_shiftAddEffects :
    Meets (Effect.ofDecoded decoded o) (shiftAddEffects decoded o) := by
  unfold shiftAddEffects
  dsimp only
  split <;> simp [Effect.ofDecoded, Effect.sound]

theorem ofDecoded_hotEffects : Meets (Effect.ofDecoded decoded o) (hotEffects decoded o) := by
  unfold hotEffects
  cases h : decoded.hotOp with
  | lslAdd | lslAddS | lslAddU | lslSub | lslSubS | lslSubU | lsrAdd | lsrAddS | lsrAddU =>
      exact ofDecoded_shiftAddEffects decoded o
  | lsl | lslS | lslU | lslx | lslxS | lslxU | lsr | lsrS | lsrU | lsrx | lsrxS | lsrxU =>
      exact ofDecoded_shiftEffects decoded o
  | mulStep => exact ofDecoded_mulStepEffects decoded o h
  | divStep => exact ofDecoded_divStepEffects decoded o h
  | movd | swapd => exact ofDecoded_moveEffects decoded o (by simp [h])
  | acquire | release => simp [Effect.ofDecoded, Effect.sound, Effect.isAtomicAccess, h]
  | ld => by_cases hdc : decoded.hasDc = true <;> simp [Effect.ofDecoded, Effect.sound, hdc]
  | add => simp [addEffects, Effect.ofDecoded, Effect.sound]
  | sub => simp [subEffects, Effect.ofDecoded, Effect.sound]
  | subc => simp [subcEffects, Effect.ofDecoded, Effect.sound]
  | _ => simp [Effect.ofDecoded, Effect.sound]

end

section
variable (f : Fields)

theorem writes_of_aluResult {result : BitVec 32 × Option Bool}
    (halu : aluResult f = some result) (r : Nat) : f.writes r ↔ r = f.rc := by
  unfold aluResult at halu
  unfold Fields.writes
  cases hop : f.opcode with
  | none => simp [hop] at halu
  | some op => cases op <;> simp_all

theorem ofFields_bootEffects (index : Nat) (clears : Bool) :
    Meets (Effect.ofFields f) (bootEffects f.dpu index clears) := by
  unfold bootEffects
  split
  · rename_i hbootable
    rw [meets_cons]
    exact ⟨hbootable, meets_nil⟩
  · exact meets_nil

theorem ofFields_opcodeEffects : Meets (Effect.ofFields f) (opcodeEffects f) := by
  unfold opcodeEffects
  dsimp only
  split
  · rename_i carry halu
    have hwrites : f.writes f.rc := (writes_of_aluResult f halu f.rc).mpr rfl
    cases carry <;> simp [Effect.ofFields, Effect.sound, hwrites]
  · split
    all_goals rename_i hop
    all_goals simp only [meets_cons, meets_append, meets_ite, meets_nil, ofFields_bootEffects,
      Effect.ofFields, Effect.sound, Effect.isAtomicAccess, Fields.writes, hop]
    all_goals simp
    · exact fun _ => resumable_lt
    · exact ⟨fun _ => .inl, fun _ => .inr⟩

end

theorem sound_hotEffects (decoded : RawDecoded48) (o : Operands) :
    Meets (Effect.sound o.dpu) (hotEffects decoded o) := by
  intro effect heffect
  have h := ofDecoded_hotEffects decoded o effect heffect
  clear heffect
  cases effect <;> first | exact h | trivial

theorem sound_opcodeEffects (f : Fields) : Meets (Effect.sound f.dpu) (opcodeEffects f) := by
  intro effect heffect
  have h := ofFields_opcodeEffects f effect heffect
  clear heffect
  cases effect <;> first | exact h | trivial

/-- The locals of `execute_once` before either switch. -/
def Dpu.startExec (dpu : Dpu) (t : Nat) : Exec := ⟨dpu, (dpu.tasklets t).pc + 8, true⟩

section
variable {decodeRawWord48 : BitVec 64 → RawDecoded48} {dpu : Dpu} {t : Nat} {inst48 : BitVec 64}

theorem executeOnce_handled (hfetch : fetch dpu t = some inst48)
    (hhandled : handled decodeRawWord48 inst48 = true) :
    executeOnce decodeRawWord48 dpu t =
      retireHot (applyEffects t (dpu.startExec t) (hotEffects (decodeRawWord48 inst48)
        (operands (decodeRawWord48 inst48) dpu t))) t := by
  unfold executeOnce
  rw [hfetch]
  dsimp only
  rw [if_pos hhandled]
  rfl

theorem executeOnce_not_handled (hfetch : fetch dpu t = some inst48)
    (hhandled : handled decodeRawWord48 inst48 = false) :
    executeOnce decodeRawWord48 dpu t =
      retireOpcode (applyEffects t (dpu.startExec t) (opcodeEffects (fields inst48 dpu t))) t := by
  unfold executeOnce
  rw [hfetch]
  dsimp only
  rw [if_neg (by simp [hhandled])]
  rfl

theorem executeOnce_none (hfetch : fetch dpu t = none) :
    executeOnce decodeRawWord48 dpu t = (dpu, false) := by
  unfold executeOnce
  rw [hfetch]

theorem executeOnce_sound_effects (decodeRawWord48 : BitVec 64 → RawDecoded48)
    (hfetch : fetch dpu t = some inst48) :
    ∃ effects retire, Meets (Effect.sound dpu) effects ∧
      (retire = retireHot ∨ retire = retireOpcode) ∧
      executeOnce decodeRawWord48 dpu t =
        retire (applyEffects t (dpu.startExec t) effects) t := by
  cases hhandled : handled decodeRawWord48 inst48 with
  | true =>
      have hsound := sound_hotEffects (decodeRawWord48 inst48)
        (operands (decodeRawWord48 inst48) dpu t)
      exact ⟨_, retireHot, hsound, .inl rfl, executeOnce_handled hfetch hhandled⟩
  | false =>
      have hsound := sound_opcodeEffects (fields inst48 dpu t)
      exact ⟨_, retireOpcode, hsound, .inr rfl, executeOnce_not_handled hfetch hhandled⟩

end

end HostPimSim.Upmem
