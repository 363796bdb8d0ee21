import HostPimSim.Upmem.DecodeTable
import HostPimSim.Upmem.Tasklets
import HostPimSim.Upmem.Effects

/-! The registers a decoded word may change.  A word whose decoding carries no
supported operation is executed by the fixed-field switch, which takes its
destination from other bits. -/
namespace HostPimSim.Upmem

/-- The value an effect leaves in a register of the executing tasklet. -/
def Effect.written (r : Nat) : Effect → Option (BitVec 32)
  | .writeReg idx value => if r = idx ∧ r < 24 then some value else none
  | .writeDreg idx value =>
      if dregSlot r = dregSlot idx ∧ r < 24 then
        some (if r % 2 = 0 then (value >>> 32).setWidth 32 else value.setWidth 32)
      else none
  | _ => none

def lastWritten (r : Nat) : List Effect → Option (BitVec 32)
  | [] => none
  | effect :: rest => (lastWritten r rest).or (effect.written r)

theorem writeReg_gp (tasklet : Tasklet) (idx r : Nat) (value : BitVec 32) :
    (tasklet.writeReg idx value).gp r = if r = idx ∧ r < 24 then value else tasklet.gp r := by
  unfold Tasklet.writeReg
  by_cases hidx : idx < 24
  · rw [if_pos hidx]
    by_cases hr : r = idx <;> simp [hr, hidx]
  · rw [if_neg hidx]
    have hnot : ¬(r = idx ∧ r < 24) := by omega
    rw [if_neg hnot]

theorem writeDreg_gp (tasklet : Tasklet) (idx r : Nat) (value : BitVec 64) :
    (tasklet.writeDreg idx value).gp r =
      if dregSlot r = dregSlot idx ∧ r < 24 then
        (if r % 2 = 0 then (value >>> 32).setWidth 32 else value.setWidth 32)
      else tasklet.gp r := by
  unfold Tasklet.writeDreg dregSlot
  dsimp only
  by_cases hslot : idx / 2 ≥ 12
  · have hnot : ¬(r / 2 = idx / 2 ∧ r < 24) := by omega
    rw [if_pos hslot, if_neg hnot]
  · rw [if_neg hslot, writeReg_gp, writeReg_gp]
    by_cases hpair : r / 2 = idx / 2
    · have hlt : r < 24 := by omega
      rcases Nat.mod_two_eq_zero_or_one r with heven | hodd
      · have hfirst : r = idx / 2 * 2 := by omega
        have hsecond : ¬(r = idx / 2 * 2 + 1 ∧ r < 24) := by omega
        rw [if_neg hsecond, if_pos ⟨hfirst, hlt⟩, if_pos ⟨hpair, hlt⟩, if_pos heven]
      · have hsecond : r = idx / 2 * 2 + 1 := by omega
        rw [if_pos ⟨hsecond, hlt⟩, if_pos ⟨hpair, hlt⟩, if_neg (by omega)]
    · rw [if_neg (by omega), if_neg (by omega), if_neg (by omega)]

theorem apply_gp {t : Nat} (exec : Exec) (effect : Effect) (hboots : effect.boots ≠ some t)
    (r : Nat) :
    ((effect.apply t exec).dpu.tasklets t).gp r =
      (effect.written r).getD ((exec.dpu.tasklets t).gp r) := by
  cases effect with
  | writeReg idx value =>
      simp only [Effect.apply, setTasklet_tasklets, if_true, writeReg_gp, Effect.written]
      split <;> rfl
  | writeDreg idx value =>
      simp only [Effect.apply, setTasklet_tasklets, if_true, writeDreg_gp, Effect.written]
      split <;> rfl
  | branch ccKind target value =>
      simp only [Effect.apply]
      split <;> rfl
  | boot index clears =>
      have hne : t ≠ index := fun h => hboots (by rw [h]; rfl)
      simp [Effect.apply, Effect.written, hne]
  | setZf value => simp [Effect.apply, Effect.written, Tasklet.setZf]
  | setCf value => simp [Effect.apply, Effect.written, Tasklet.setCf]
  | _ => rfl

theorem applyEffects_gp {t : Nat} {effects : List Effect}
    (hboots : ∀ effect ∈ effects, effect.boots ≠ some t) (exec : Exec) (r : Nat) :
    ((applyEffects t exec effects).dpu.tasklets t).gp r =
      (lastWritten r effects).getD ((exec.dpu.tasklets t).gp r) := by
  induction effects generalizing exec with
  | nil => rfl
  | cons effect rest ih =>
      have hrest := ih (fun e he => hboots e (List.mem_cons_of_mem effect he))
        (effect.apply t exec)
      rw [apply_gp exec effect (hboots effect List.mem_cons_self)] at hrest
      unfold lastWritten
      cases hlast : lastWritten r rest with
      | none =>
          rw [hlast] at hrest
          exact hrest
      | some value =>
          rw [hlast] at hrest
          exact hrest

theorem lastWritten_none {r : Nat} {effects : List Effect}
    (h : ∀ effect ∈ effects, effect.written r = none) : lastWritten r effects = none := by
  induction effects with
  | nil => rfl
  | cons effect rest ih =>
      unfold lastWritten
      rw [ih fun e he => h e (List.mem_cons_of_mem effect he), h effect List.mem_cons_self]
      rfl

theorem lastWritten_isSome {r : Nat} {effects : List Effect} {effect : Effect}
    (hmem : effect ∈ effects) (h : (effect.written r).isSome) : (lastWritten r effects).isSome := by
  induction effects with
  | nil => exact absurd hmem List.not_mem_nil
  | cons first rest ih =>
      unfold lastWritten
      rw [Option.isSome_or]
      rcases List.mem_cons.mp hmem with rfl | hrest
      · simp [h]
      · simp [ih hrest]

theorem retire_gp {retire : Exec → Nat → Dpu × Bool}
    (hretire : retire = retireHot ∨ retire = retireOpcode) (exec : Exec) (t r : Nat) :
    ((retire exec t).1.tasklets t).gp r = (exec.dpu.tasklets t).gp r := by
  rw [retire_commits hretire]
  simp [Exec.commitPc]

theorem fetch_running {dpu : Dpu} {t : Nat} {inst48 : BitVec 64}
    (hfetch : fetch dpu t = some inst48) : dpu.runBits.getLsbD t = true := by
  unfold fetch at hfetch
  split at hfetch
  · cases hfetch
  · split at hfetch
    · cases hfetch
    · rename_i hrunnable
      simp only [Dpu.runnable, Bool.not_and, Bool.not_not, Bool.or_eq_true, Bool.not_eq_true',
        not_or, Bool.not_eq_false] at hrunnable
      exact hrunnable.1

theorem sound_boots {dpu : Dpu} {t : Nat} {inst48 : BitVec 64} {effects : List Effect}
    (hfetch : fetch dpu t = some inst48) (hsound : Meets (Effect.sound dpu) effects) :
    ∀ effect ∈ effects, effect.boots ≠ some t := by
  intro effect heffect hboots
  have hmeets := hsound effect heffect
  cases effect with
  | boot index clears =>
      cases hboots
      have hstopped := bootable_not_running hmeets
      rw [fetch_running hfetch] at hstopped
      cases hstopped
  | _ => cases hboots

section
variable (decodeRawWord48 : BitVec 64 → RawDecoded48)

def wordEffects (inst48 : BitVec 64) (dpu : Dpu) (t : Nat) : List Effect :=
  if handled decodeRawWord48 inst48 then
    hotEffects (decodeRawWord48 inst48) (operands (decodeRawWord48 inst48) dpu t)
  else opcodeEffects (fields inst48 dpu t)

theorem executeOnce_gp {dpu : Dpu} {t : Nat} {inst48 : BitVec 64}
    (hfetch : fetch dpu t = some inst48) (r : Nat) :
    ((executeOnce decodeRawWord48 dpu t).1.tasklets t).gp r =
      (lastWritten r (wordEffects decodeRawWord48 inst48 dpu t)).getD ((dpu.tasklets t).gp r) := by
  unfold wordEffects
  cases hhandled : handled decodeRawWord48 inst48 with
  | true =>
      have hsound := sound_hotEffects (decodeRawWord48 inst48)
        (operands (decodeRawWord48 inst48) dpu t)
      rw [executeOnce_handled hfetch hhandled, retire_gp (.inl rfl),
        applyEffects_gp (sound_boots hfetch hsound), if_pos rfl]
      rfl
  | false =>
      have hsound := sound_opcodeEffects (fields inst48 dpu t)
      rw [executeOnce_not_handled hfetch hhandled, retire_gp (.inr rfl),
        applyEffects_gp (sound_boots hfetch hsound), if_neg (by simp)]
      rfl

/-- The registers a decoded word names: the scalar, the two of the pair, and for
SWAPD the two of the other pair. -/
def RawDecoded48.destination (decoded : RawDecoded48) (r : Nat) : Prop :=
  (decoded.hasRc = true ∧ r = (decoded.rc &&& 0x1F).toNat) ∨
    (decoded.hasDc = true ∧ dregSlot r = dregSlot (decoded.dc &&& 0x1F).toNat) ∨
    (decoded.hotOp = .swapd ∧ decoded.hasDb = true ∧
      dregSlot r = dregSlot (decoded.db &&& 0x1F).toNat)

/-- Every execution of the word changes only registers its decoding names. -/
def KeepsDestination (inst48 : BitVec 64) : Prop :=
  ∀ (dpu : Dpu) (t : Nat), fetch dpu t = some inst48 →
    ∀ r, ¬(decodeRawWord48 inst48).destination r →
      ((executeOnce decodeRawWord48 dpu t).1.tasklets t).gp r = (dpu.tasklets t).gp r

/-- The registers written beside those that the decoding names in every case:
those of the two step instructions, and those of the fixed-field switch. -/
def wordWrites (inst48 : BitVec 64) (r : Nat) : Prop :=
  let decoded := decodeRawWord48 inst48
  if handled decodeRawWord48 inst48 then
    (decoded.hotOp = .mulStep ∨ decoded.hotOp = .divStep) ∧
      (r = stepDestination decoded ∨ r = stepDestination decoded + 1)
  else (fields inst48 .powerOn 0).writes r

/-- All registers that the word writes are registers it names. -/
def WritesNamed (inst48 : BitVec 64) : Prop :=
  ∀ r < 24, wordWrites decodeRawWord48 inst48 r → (decodeRawWord48 inst48).destination r

structure NamesPairs : Prop where
  hasDc : ∀ inst48, (decodeRawWord48 inst48).hotOp = .movd ∨
    (decodeRawWord48 inst48).hotOp = .swapd → (decodeRawWord48 inst48).hasDc = true
  hasDb : ∀ inst48, (decodeRawWord48 inst48).hotOp = .swapd →
    (decodeRawWord48 inst48).hasDb = true

theorem hotEffects_named (hpairs : NamesPairs decodeRawWord48) {inst48 : BitVec 64}
    (hhandled : handled decodeRawWord48 inst48 = true)
    (hnamed : WritesNamed decodeRawWord48 inst48) (o : Operands) {r : Nat}
    (hr : ¬(decodeRawWord48 inst48).destination r) {effect : Effect}
    (heffect : effect ∈ hotEffects (decodeRawWord48 inst48) o) : effect.written r = none := by
  have hof := ofDecoded_hotEffects (decodeRawWord48 inst48) o effect heffect
  by_contra hwritten
  apply hr
  cases effect with
  | writeReg idx value =>
      simp only [Effect.written, ite_eq_right_iff, reduceCtorEq, not_forall] at hwritten
      obtain ⟨⟨rfl, hlt⟩, _⟩ := hwritten
      rcases hof with hrc | hstep
      · exact .inl hrc
      · exact hnamed r hlt (by unfold wordWrites; rw [if_pos hhandled]; exact hstep)
  | writeDreg idx value =>
      simp only [Effect.written, ite_eq_right_iff, reduceCtorEq, not_forall] at hwritten
      obtain ⟨⟨hslot, hlt⟩, _⟩ := hwritten
      rcases hof with ⟨rfl, hdc⟩ | ⟨rfl, hswapd⟩
      · have hhas : (decodeRawWord48 inst48).hasDc = true :=
          hdc.elim id (hpairs.hasDc inst48)
        rw [decodedDc, if_pos hhas] at hslot
        exact .inr (.inl ⟨hhas, hslot⟩)
      · have hhas := hpairs.hasDb inst48 hswapd
        rw [decodedDb, if_pos hhas] at hslot
        exact .inr (.inr ⟨hswapd, hhas, hslot⟩)
  | _ => exact absurd rfl hwritten

theorem opcodeEffects_named {inst48 : BitVec 64}
    (hhandled : handled decodeRawWord48 inst48 = false)
    (hnamed : WritesNamed decodeRawWord48 inst48) (dpu : Dpu) (t : Nat) {r : Nat}
    (hr : ¬(decodeRawWord48 inst48).destination r) {effect : Effect}
    (heffect : effect ∈ opcodeEffects (fields inst48 dpu t)) : effect.written r = none := by
  have hof := ofFields_opcodeEffects (fields inst48 dpu t) effect heffect
  have hwrites (h : (fields inst48 dpu t).writes r) (hlt : r < 24) :
      (decodeRawWord48 inst48).destination r :=
    hnamed r hlt (by unfold wordWrites; rw [if_neg (by simp [hhandled])]; exact h)
  by_contra hwritten
  apply hr
  cases effect with
  | writeReg idx value =>
      simp only [Effect.written, ite_eq_right_iff, reduceCtorEq, not_forall] at hwritten
      obtain ⟨⟨rfl, hlt⟩, _⟩ := hwritten
      exact hwrites hof hlt
  | writeDreg idx value =>
      simp only [Effect.written, ite_eq_right_iff, reduceCtorEq, not_forall] at hwritten
      obtain ⟨⟨hslot, hlt⟩, _⟩ := hwritten
      exact hwrites (hof r hslot) hlt
  | _ => exact absurd rfl hwritten

theorem keepsDestination_of_writesNamed (hpairs : NamesPairs decodeRawWord48)
    {inst48 : BitVec 64} (hnamed : WritesNamed decodeRawWord48 inst48) :
    KeepsDestination decodeRawWord48 inst48 := by
  intro dpu t hfetch r hr
  rw [executeOnce_gp decodeRawWord48 hfetch, lastWritten_none]
  · rfl
  · intro effect heffect
    unfold wordEffects at heffect
    cases hhandled : handled decodeRawWord48 inst48 with
    | true =>
        rw [if_pos hhandled] at heffect
        exact hotEffects_named decodeRawWord48 hpairs hhandled hnamed _ hr heffect
    | false =>
        rw [if_neg (by simp [hhandled])] at heffect
        exact opcodeEffects_named decodeRawWord48 hhandled hnamed dpu t hr heffect

end

def Fields.reads (f : Fields) (r : Nat) : Prop :=
  r = f.ra ∨ r = f.rb ∨
    match f.opcode with
    | some .movd => dregSlot r = dregSlot f.ra
    | some .swapd => dregSlot r = dregSlot f.rc ∨ dregSlot r = dregSlot f.ra
    | _ => False

theorem opcodeEffects_writes {f : Fields} {r : Nat} (hwrites : f.writes r) (hlt : r < 24) :
    ∃ effect ∈ opcodeEffects f, (effect.written r).isSome := by
  have hscalar (hr : r = f.rc) (value : BitVec 32) :
      ((Effect.writeReg f.rc value).written r).isSome := by
    rw [← hr]
    simp [Effect.written, hlt]
  have hpair {idx : Nat} (hr : dregSlot r = dregSlot idx) (value : BitVec 64) :
      ((Effect.writeDreg idx value).written r).isSome := by
    simp [Effect.written, hr, hlt]
  cases hop : f.opcode with
  | none => simp only [Fields.writes, hop] at hwrites
  | some op =>
      cases op
      all_goals simp only [Fields.writes, hop] at hwrites
      all_goals simp only [opcodeEffects, aluResult, hop]
      all_goals
        first
          | exact ⟨_, List.mem_cons_self, hscalar hwrites _⟩
          | exact ⟨_, List.mem_cons_of_mem _ List.mem_cons_self, hscalar hwrites _⟩
          | exact ⟨_, List.mem_append_left _ List.mem_cons_self, hscalar hwrites _⟩
          | exact ⟨_, List.mem_append_right _ List.mem_cons_self, hscalar hwrites _⟩
          | exact ⟨_, List.mem_cons_self, hpair hwrites _⟩
          | exact hwrites.elim (fun h => ⟨_, List.mem_cons_self, hpair h _⟩)
              fun h => ⟨_, List.mem_cons_of_mem _ List.mem_cons_self, hpair h _⟩

def wordDpu (inst48 : BitVec 64) (gp : Nat → BitVec 32) : Dpu :=
  { Dpu.powerOn with
    iram := fun _ => inst48
    tasklets := fun _ => { Tasklet.reset with gp := gp }
    runBits := 1 }

theorem fetch_wordDpu {inst48 : BitVec 64} (hword : inst48 &&& kIramInst48Mask = inst48)
    (hne : inst48 ≠ 0) (gp : Nat → BitVec 32) : fetch (wordDpu inst48 gp) 0 = some inst48 := by
  have hread : (wordDpu inst48 gp).iram.readWord 0 = inst48 := by
    simpa [Iram.readWord, Iram.slotInBounds, kIRAMSizeBytes, wordDpu] using hword
  have hslot : iramSlot ((wordDpu inst48 gp).tasklets 0).pc = some 0 :=
    (by decide : iramSlot 0 = some 0)
  have hrunnable : (wordDpu inst48 gp).runnable 0 = true :=
    (by decide : (wordDpu 0 fun _ => 0).runnable 0 = true)
  unfold fetch
  rw [if_neg (by decide), hrunnable, if_neg (by decide), hslot]
  dsimp only [Option.bind_some]
  rw [hread, if_neg hne]

def SameBut (r : Nat) (gp gp' : Nat → BitVec 32) : Prop := ∀ i, i ≠ r → gp i = gp' i

section
variable (inst48 : BitVec 64) {r : Nat} {gp gp' : Nat → BitVec 32}

theorem readReg_sameBut (hsame : SameBut r gp gp') {idx : Nat} (hidx : r ≠ idx) :
    (wordDpu inst48 gp).readReg 0 idx = (wordDpu inst48 gp').readReg 0 idx := by
  unfold Dpu.readReg
  split
  · exact hsame idx (Ne.symm hidx)
  · rfl

theorem readDreg_sameBut (hsame : SameBut r gp gp') {idx : Nat}
    (hidx : dregSlot r ≠ dregSlot idx) :
    (wordDpu inst48 gp).readDreg 0 idx = (wordDpu inst48 gp').readDreg 0 idx := by
  unfold dregSlot at hidx
  unfold Dpu.readDreg dregSlot
  dsimp only
  rw [readReg_sameBut inst48 hsame (by omega : r ≠ idx / 2 * 2),
    readReg_sameBut inst48 hsame (by omega : r ≠ idx / 2 * 2 + 1)]

theorem wordDpu_rest (gp gp' : Nat → BitVec 32) :
    (wordDpu inst48 gp).wram = (wordDpu inst48 gp').wram ∧
    ((wordDpu inst48 gp).tasklets 0).cf = ((wordDpu inst48 gp').tasklets 0).cf ∧
    ((wordDpu inst48 gp).tasklets 0).pc = ((wordDpu inst48 gp').tasklets 0).pc ∧
    (wordDpu inst48 gp).perfCounterRead32 = (wordDpu inst48 gp').perfCounterRead32 ∧
    atomicAccess (wordDpu inst48 gp) = atomicAccess (wordDpu inst48 gp') ∧
    (wordDpu inst48 gp).bootable = (wordDpu inst48 gp').bootable ∧
    (wordDpu inst48 gp).resumable = (wordDpu inst48 gp').resumable ∧
    bootEffects (wordDpu inst48 gp) = bootEffects (wordDpu inst48 gp') :=
  ⟨rfl, rfl, rfl, rfl, rfl, rfl, rfl, rfl⟩

theorem opcodeEffects_dpu {f : Fields} (hdpu : f.dpu = wordDpu inst48 gp) (ht : f.t = 0)
    (hsame : SameBut r gp gp') (hwrites : f.writes r) (hreads : ¬f.reads r) :
    opcodeEffects { f with dpu := wordDpu inst48 gp' } = opcodeEffects f := by
  obtain ⟨dpu, t, opcode, rc, ra, rb, imm8, imm16s, imm24s, raVal, rbVal, opB⟩ := f
  dsimp only at hdpu ht
  subst hdpu ht
  obtain ⟨hwram, hcf, hpc, hperf, hatomic, hbootable, hresumable, hboot⟩ :=
    wordDpu_rest inst48 gp' gp
  cases opcode with
  | none => exact hwrites.elim
  | some op =>
      cases op
      case movd =>
        have hpair : dregSlot r ≠ dregSlot ra := fun h => hreads (.inr (.inr h))
        simp only [opcodeEffects, aluResult, readDreg_sameBut inst48 hsame hpair]
      case swapd => exact absurd (Or.inr (Or.inr hwrites)) hreads
      all_goals
        first
          | exact hwrites.elim
          | simp only [opcodeEffects, aluResult, hwram, hcf, hpc, hperf, hatomic, hbootable,
              hresumable, hboot, callTarget]

/-- The case of an instruction that writes `r` does not depend on `r`, unless it
is also an operand. -/
theorem opcodeEffects_sameBut (hsame : SameBut r gp gp')
    (hwrites : (fields inst48 .powerOn 0).writes r)
    (hreads : ¬(fields inst48 .powerOn 0).reads r) :
    opcodeEffects (fields inst48 (wordDpu inst48 gp') 0) =
      opcodeEffects (fields inst48 (wordDpu inst48 gp) 0) := by
  have hraVal := readReg_sameBut inst48 hsame fun h => hreads (.inl h)
  have hrbVal := readReg_sameBut inst48 hsame fun h => hreads (.inr (.inl h))
  have hfields : fields inst48 (wordDpu inst48 gp') 0 =
      { fields inst48 (wordDpu inst48 gp) 0 with dpu := wordDpu inst48 gp' } := by
    unfold fields at hraVal hrbVal ⊢
    dsimp only at hraVal hrbVal ⊢
    rw [hraVal, hrbVal]
  rw [hfields]
  exact opcodeEffects_dpu inst48 rfl rfl hsame hwrites hreads

/-- The register of the first operand of the two step instructions; the second
is the next one. -/
def stepSource (decoded : RawDecoded48) : Nat :=
  if decoded.hotOp = .mulStep ∧ decoded.hotFmt ≠ .rrrici then decodedDb decoded / 2 * 2
  else if decoded.hasDb then decodedDb decoded else decodedDc decoded

def scalarSource (decoded : RawDecoded48) : Nat :=
  if decoded.hasRa then (decoded.ra &&& 0x1F).toNat else 24

section
variable {decoded : RawDecoded48} (hsame : SameBut r gp gp')
  (hreads : r ≠ scalarSource decoded ∧ r ≠ stepSource decoded ∧ r ≠ stepSource decoded + 1)
include hsame hreads

theorem mulStepEffects_sameBut (hop : decoded.hotOp = .mulStep)
    (hodd : (wordDpu inst48 gp).readReg 0 (stepSource decoded) &&& 1 ≠ 0) :
    mulStepEffects decoded (operands decoded (wordDpu inst48 gp) 0) =
      mulStepEffects decoded (operands decoded (wordDpu inst48 gp') 0) := by
  have hvra := readReg_sameBut inst48 hsame hreads.1
  have heven := readReg_sameBut inst48 hsame hreads.2.1
  have hnext := readReg_sameBut inst48 hsame hreads.2.2
  unfold scalarSource at hvra
  unfold stepSource at hodd heven hnext
  unfold mulStepEffects operands
  dsimp only
  by_cases hfmt : decoded.hotFmt = .rrrici
  · rw [if_neg (by simp [hfmt])] at hodd heven hnext
    rw [if_pos hfmt, if_pos hfmt, hvra, ← heven, hnext, if_pos hodd, if_pos hodd]
  · rw [if_pos ⟨hop, hfmt⟩] at hodd heven hnext
    rw [if_neg hfmt, if_neg hfmt, hvra, heven, hnext]

theorem divStepEffects_sameBut (hop : decoded.hotOp = .divStep)
    (hmax : (wordDpu inst48 gp).readReg 0 (stepSource decoded + 1) = 0xFFFFFFFF) :
    divStepEffects decoded (operands decoded (wordDpu inst48 gp) 0) =
      divStepEffects decoded (operands decoded (wordDpu inst48 gp') 0) := by
  have hvra := readReg_sameBut inst48 hsame hreads.1
  have heven := readReg_sameBut inst48 hsame hreads.2.1
  have hnext := readReg_sameBut inst48 hsame hreads.2.2
  have hge (x : BitVec 32) : (0xFFFFFFFF : BitVec 32) ≥ x :=
    BitVec.le_def.mpr (Nat.le_of_lt_succ x.isLt)
  unfold scalarSource at hvra
  unfold stepSource at hmax heven hnext
  rw [if_neg (by simp [hop])] at hmax heven hnext
  unfold divStepEffects operands
  dsimp only
  rw [hvra, heven, ← hnext, hmax, if_pos (hge _), if_pos (hge _), if_pos (hge _)]

end

theorem stepEffects_writes {decoded : RawDecoded48} (o : Operands)
    (hop : decoded.hotOp = .mulStep ∨ decoded.hotOp = .divStep)
    (hr : r = stepDestination decoded ∨ r = stepDestination decoded + 1) (hlt : r < 24) :
    ∃ effect ∈ hotEffects decoded o, (effect.written r).isSome := by
  have hwritten {idx : Nat} (hidx : r = idx) (value : BitVec 32) :
      ((Effect.writeReg idx value).written r).isSome := by
    rw [← hidx]
    simp [Effect.written, hlt]
  have hpair (first second : BitVec 32) (rest : List Effect) :
      ∃ effect ∈ .writeReg (stepDestination decoded) first ::
        .writeReg (stepDestination decoded + 1) second :: rest, (effect.written r).isSome := by
    rcases hr with hr | hr
    · exact ⟨_, List.mem_cons_self, hwritten hr first⟩
    · exact ⟨_, List.mem_cons_of_mem _ List.mem_cons_self, hwritten hr second⟩
  unfold stepDestination at hpair
  rcases hop with hop | hop
  · by_cases hfmt : decoded.hotFmt = .rrrici
    · rw [if_neg (by simp [hfmt])] at hpair
      simp only [hotEffects, hop, mulStepEffects, hfmt, if_true]
      exact hpair _ _ _
    · rw [if_pos ⟨hop, hfmt⟩] at hpair
      simp only [hotEffects, hop, mulStepEffects, hfmt, if_false]
      exact hpair _ _ _
  · rw [if_neg (by simp [hop])] at hpair
    simp only [hotEffects, hop, divStepEffects]
    exact hpair _ _ _

/-- Registers that make both step instructions write all of their result, and
one that they do not read. -/
def stepGp (source r : Nat) (value : BitVec 32) (i : Nat) : BitVec 32 :=
  if i = r then value else if i = source then 1 else if i = source + 1 then 0xFFFFFFFF else 0

theorem stepGp_sameBut (source r : Nat) (value value' : BitVec 32) :
    SameBut r (stepGp source r value) (stepGp source r value') := by
  intro i hi
  simp [stepGp, hi]

theorem hotEffects_sameBut {decoded : RawDecoded48}
    (hop : decoded.hotOp = .mulStep ∨ decoded.hotOp = .divStep)
    (hsource : stepSource decoded + 1 < 24)
    (hreads : r ≠ scalarSource decoded ∧ r ≠ stepSource decoded ∧ r ≠ stepSource decoded + 1)
    (value value' : BitVec 32) :
    hotEffects decoded (operands decoded
        (wordDpu inst48 (stepGp (stepSource decoded) r value)) 0) =
      hotEffects decoded (operands decoded
        (wordDpu inst48 (stepGp (stepSource decoded) r value')) 0) := by
  have hsame := stepGp_sameBut (stepSource decoded) r value value'
  have hlt : stepSource decoded < 24 := by omega
  rcases hop with hop | hop
  · simp only [hotEffects, hop]
    refine mulStepEffects_sameBut inst48 hsame hreads hop ?_
    simp [Dpu.readReg, hlt, wordDpu, stepGp, Ne.symm hreads.2.1]
  · simp only [hotEffects, hop]
    refine divStepEffects_sameBut inst48 hsame hreads hop ?_
    simp [Dpu.readReg, hsource, wordDpu, stepGp, Ne.symm hreads.2.2]

end

section
variable (decodeRawWord48 : BitVec 64 → RawDecoded48)

/-- The operands of the instructions that `wordWrites` is about. -/
def wordReads (inst48 : BitVec 64) (r : Nat) : Prop :=
  let decoded := decodeRawWord48 inst48
  if handled decodeRawWord48 inst48 then
    r = scalarSource decoded ∨ r = stepSource decoded ∨ r = stepSource decoded + 1
  else (fields inst48 .powerOn 0).reads r

/-- The word reads no register it writes, and as a step reads a whole pair. -/
structure Unaliased (inst48 : BitVec 64) : Prop where
  operands : ∀ r, wordWrites decodeRawWord48 inst48 r → ¬wordReads decodeRawWord48 inst48 r
  pair : handled decodeRawWord48 inst48 = true → stepSource (decodeRawWord48 inst48) + 1 < 24

/-- Two states that differ in `r`, in which the word has the same effects: it
cannot leave `r` alone in both if it writes it. -/
theorem destination_of_sameEffects {inst48 : BitVec 64} {r : Nat}
    (gp : BitVec 32 → Nat → BitVec 32)
    (hfetch : ∀ gp, fetch (wordDpu inst48 gp) 0 = some inst48)
    (hkeeps : KeepsDestination decodeRawWord48 inst48) (hgp : ∀ value, gp value r = value)
    (hsame : wordEffects decodeRawWord48 inst48 (wordDpu inst48 (gp 0)) 0 =
      wordEffects decodeRawWord48 inst48 (wordDpu inst48 (gp 1)) 0)
    (hwrites : ∃ effect ∈ wordEffects decodeRawWord48 inst48 (wordDpu inst48 (gp 0)) 0,
      (effect.written r).isSome) : (decodeRawWord48 inst48).destination r := by
  by_contra hr
  obtain ⟨effect, hmem, hsome⟩ := hwrites
  obtain ⟨value, hlast⟩ := Option.isSome_iff_exists.mp (lastWritten_isSome hmem hsome)
  have hzero := hkeeps (wordDpu inst48 (gp 0)) 0 (hfetch _) r hr
  have hone := hkeeps (wordDpu inst48 (gp 1)) 0 (hfetch _) r hr
  rw [executeOnce_gp decodeRawWord48 (hfetch _), hlast] at hzero
  rw [executeOnce_gp decodeRawWord48 (hfetch _), ← hsame, hlast] at hone
  have hvalues : gp 0 r = gp 1 r := hzero.symm.trans hone
  rw [hgp, hgp] at hvalues
  exact absurd hvalues (by decide)

theorem writesNamed_of_keepsDestination {inst48 : BitVec 64}
    (hword : inst48 &&& kIramInst48Mask = inst48) (hne : inst48 ≠ 0)
    (hunaliased : Unaliased decodeRawWord48 inst48)
    (hkeeps : KeepsDestination decodeRawWord48 inst48) : WritesNamed decodeRawWord48 inst48 := by
  intro r hlt hwrites
  have hreads := hunaliased.operands r hwrites
  have hfetch := fetch_wordDpu hword hne
  unfold wordWrites at hwrites
  unfold wordReads at hreads
  cases hhandled : handled decodeRawWord48 inst48 with
  | true =>
      rw [if_pos hhandled] at hwrites hreads
      rw [not_or, not_or] at hreads
      have heffects (dpu : Dpu) : wordEffects decodeRawWord48 inst48 dpu 0 =
          hotEffects (decodeRawWord48 inst48) (operands (decodeRawWord48 inst48) dpu 0) := by
        rw [wordEffects, if_pos hhandled]
      refine destination_of_sameEffects decodeRawWord48
        (stepGp (stepSource (decodeRawWord48 inst48)) r) hfetch hkeeps ?_ ?_ ?_
      · exact fun value => by simp [stepGp]
      · rw [heffects, heffects]
        exact hotEffects_sameBut inst48 hwrites.1 (hunaliased.pair hhandled) hreads 0 1
      · rw [heffects]
        exact stepEffects_writes _ hwrites.1 hwrites.2 hlt
  | false =>
      rw [if_neg (by simp [hhandled])] at hwrites hreads
      have heffects (dpu : Dpu) : wordEffects decodeRawWord48 inst48 dpu 0 =
          opcodeEffects (fields inst48 dpu 0) := by
        rw [wordEffects, if_neg (by simp [hhandled])]
      refine destination_of_sameEffects decodeRawWord48
        (fun value i => if i = r then value else 0) hfetch hkeeps ?_ ?_ ?_
      · exact fun value => if_pos rfl
      · rw [heffects, heffects]
        refine (opcodeEffects_sameBut inst48 (fun i hi => ?_) hwrites hreads).symm
        rw [if_neg hi, if_neg hi]
      · rw [heffects]
        exact opcodeEffects_writes hwrites hlt

end

open DecodeTable (rawDecoded)

theorem namesPairs_table : NamesPairs rawDecoded := by
  have hnames (inst48 : BitVec 64) := DecodeTable.rawDecoded_namesPairs inst48
  unfold DecodeTable.namesPairs DecodeTable.pairShape at hnames
  have hboth (inst48 : BitVec 64) (h : (rawDecoded inst48).hotOp = .swapd) :
      (rawDecoded inst48).hasDc = true ∧ (rawDecoded inst48).hasDb = true := by
    simpa [h] using hnames inst48
  constructor
  · rintro inst48 (h | h)
    · simpa [h] using hnames inst48
    · exact (hboth inst48 h).1
  · exact fun inst48 h => (hboth inst48 h).2

/-- A word keeps to its decoded destination if the switch that executes it writes
no other register.  This is also necessary, unless the word reads a register it
writes: it may then write back what it read. -/
theorem destination_respected (inst48 : BitVec 64)
    (hword : inst48 &&& kIramInst48Mask = inst48) (hne : inst48 ≠ 0) :
    (WritesNamed rawDecoded inst48 → KeepsDestination rawDecoded inst48) ∧
    (Unaliased rawDecoded inst48 →
      (KeepsDestination rawDecoded inst48 ↔ WritesNamed rawDecoded inst48)) :=
  ⟨keepsDestination_of_writesNamed rawDecoded namesPairs_table, fun hunaliased =>
    ⟨writesNamed_of_keepsDestination rawDecoded hword hne hunaliased,
      keepsDestination_of_writesNamed rawDecoded namesPairs_table⟩⟩

/-- A word that the table decodes as an addition into the pair of register 4, and
the fixed-field switch executes as an addition into register 8. -/
def pairWord : BitVec 64 := 0x026818180007

theorem pairWord_not_handled : handled rawDecoded pairWord = false := by decide +kernel

theorem destination_missed :
    ¬∀ inst48, (rawDecoded inst48).valid = true → KeepsDestination rawDecoded inst48 := by
  intro hkeeps
  have hfetch : fetch (wordDpu pairWord fun _ => 0) 0 = some pairWord := by decide
  have hr : ¬(rawDecoded pairWord).destination 8 := by
    unfold RawDecoded48.destination
    decide +kernel
  have hkept := hkeeps pairWord (by decide +kernel) _ 0 hfetch 8 hr
  rw [executeOnce_gp _ hfetch, wordEffects, if_neg (by simp [pairWord_not_handled])] at hkept
  exact absurd hkept (by decide)

def addWord : BitVec 64 := 0x016300000007

theorem destination_respected_addWord :
    KeepsDestination rawDecoded addWord ∧ ¬KeepsDestination rawDecoded pairWord := by
  have hopcode : (fields pairWord .powerOn 0).opcode = some .add := by decide
  have hhandled : ¬handled rawDecoded pairWord = true := by simp [pairWord_not_handled]
  constructor
  · refine (destination_respected addWord (by decide) (by decide)).1 ?_
    intro r _ hwrites
    unfold wordWrites at hwrites
    rw [if_pos (by decide +kernel)] at hwrites
    exact absurd hwrites.1 (by decide +kernel)
  · have hunaliased : Unaliased rawDecoded pairWord := by
      refine ⟨fun r hwrites => ?_, fun h => absurd h hhandled⟩
      unfold wordWrites at hwrites
      unfold wordReads
      rw [if_neg hhandled] at hwrites ⊢
      simp only [Fields.writes, hopcode] at hwrites
      simp only [Fields.reads, hopcode, hwrites]
      decide
    rw [(destination_respected pairWord (by decide) (by decide)).2 hunaliased]
    intro hnamed
    have hdestination := hnamed 8 (by decide) (by
      unfold wordWrites
      rw [if_neg hhandled]
      simp only [Fields.writes, hopcode]
      decide)
    unfold RawDecoded48.destination at hdestination
    revert hdestination
    decide +kernel

end HostPimSim.Upmem
