import HostPimSim.Upmem.Control
import HostPimSim.Upmem.Effects

/-! The invariant of a DPU.  No command puts a tasklet to sleep or asks for a
replay, so the two masks stay empty; program counters stay on slots. -/
namespace HostPimSim.Upmem

structure Tasklet.Sound (tasklet : Tasklet) : Prop where
  pc : 8 ∣ tasklet.pc.toNat
  zf : tasklet.zf = 0 ∨ tasklet.zf = 1
  cf : tasklet.cf = 0 ∨ tasklet.cf = 1

structure Dpu.Sound (dpu : Dpu) : Prop where
  runBits : ∀ i, kNumTasklets ≤ i → dpu.runBits.getLsbD i = false
  sleepBits : dpu.sleepBits = 0
  replayBits : dpu.replayBits = 0
  tasklets : ∀ t, (dpu.tasklets t).Sound

theorem reset_sound : Tasklet.reset.Sound := ⟨Nat.dvd_zero 8, .inl rfl, .inl rfl⟩

theorem powerOn_sound : Dpu.powerOn.Sound :=
  ⟨fun _ _ => BitVec.getLsbD_zero, rfl, rfl, fun _ => reset_sound⟩

theorem writeReg_sound {tasklet : Tasklet} (h : tasklet.Sound) (idx : Nat) (value : BitVec 32) :
    (tasklet.writeReg idx value).Sound := by
  unfold Tasklet.writeReg
  split
  · exact ⟨h.pc, h.zf, h.cf⟩
  · exact h

theorem writeDreg_sound {tasklet : Tasklet} (h : tasklet.Sound) (idx : Nat) (value : BitVec 64) :
    (tasklet.writeDreg idx value).Sound := by
  unfold Tasklet.writeDreg
  dsimp only
  split
  · exact h
  · exact writeReg_sound (writeReg_sound h _ _) _ _

theorem setZf_sound {tasklet : Tasklet} (h : tasklet.Sound) (value : BitVec 32) :
    (tasklet.setZf value).Sound := by
  refine ⟨h.pc, ?_, h.cf⟩
  unfold Tasklet.setZf
  dsimp only
  split
  · exact .inr rfl
  · exact .inl rfl

theorem setCf_sound {tasklet : Tasklet} (h : tasklet.Sound) (value : Bool) :
    (tasklet.setCf value).Sound := by
  refine ⟨h.pc, h.zf, ?_⟩
  cases value <;> simp [Tasklet.setCf]

theorem setTasklet_sound {dpu : Dpu} (h : dpu.Sound) (t : Nat) {tasklet : Tasklet}
    (htasklet : tasklet.Sound) : (dpu.setTasklet t tasklet).Sound := by
  refine ⟨h.runBits, h.sleepBits, h.replayBits, fun j => ?_⟩
  unfold Dpu.setTasklet
  dsimp only
  split
  · exact htasklet
  · exact h.tasklets j

theorem bit_getLsbD {index i : Nat} (hindex : index < kNumTasklets) (hi : kNumTasklets ≤ i) :
    (bit index).getLsbD i = false := by
  have hne : index ≠ i := by omega
  simp [bit, hne]

theorem startBit_sound {runBits : BitVec 64} {index : Nat} (hindex : index < kNumTasklets)
    (h : ∀ i, kNumTasklets ≤ i → runBits.getLsbD i = false) (i : Nat) (hi : kNumTasklets ≤ i) :
    (runBits ||| bit index).getLsbD i = false := by
  rw [BitVec.getLsbD_or, h i hi, bit_getLsbD hindex hi]
  rfl

theorem clearBit_zero {bits : BitVec 64} (h : bits = 0) (mask : BitVec 64) :
    bits &&& mask = 0 := by
  rw [h]
  exact BitVec.zero_and

theorem clearBit_above {bits : BitVec 64} (h : ∀ i, kNumTasklets ≤ i → bits.getLsbD i = false)
    (mask : BitVec 64) (i : Nat) (hi : kNumTasklets ≤ i) : (bits &&& mask).getLsbD i = false := by
  rw [BitVec.getLsbD_and, h i hi]
  rfl

theorem clearBits_sound {dpu : Dpu} (h : dpu.Sound) (t : Nat) : (dpu.clearBits t).Sound :=
  ⟨clearBit_above h.runBits _, clearBit_zero h.sleepBits _, clearBit_zero h.replayBits _,
    h.tasklets⟩

structure Exec.Sound (exec : Exec) : Prop where
  dpu : exec.dpu.Sound
  nextPc : 8 ∣ exec.nextPc.toNat

theorem apply_sound {dpu : Dpu} (t : Nat) (exec : Exec) (effect : Effect) (h : exec.Sound)
    (heffect : effect.sound dpu) : (effect.apply t exec).Sound := by
  have htasklet := h.dpu.tasklets t
  cases effect with
  | writeReg idx value =>
      exact ⟨setTasklet_sound h.dpu t (writeReg_sound htasklet idx value), h.nextPc⟩
  | writeDreg idx value =>
      exact ⟨setTasklet_sound h.dpu t (writeDreg_sound htasklet idx value), h.nextPc⟩
  | setZf value => exact ⟨setTasklet_sound h.dpu t (setZf_sound htasklet value), h.nextPc⟩
  | setCf value => exact ⟨setTasklet_sound h.dpu t (setCf_sound htasklet value), h.nextPc⟩
  | branch ccKind target value =>
      simp only [Effect.apply]
      split
      · exact ⟨h.dpu, heffect⟩
      · exact h
  | jump target => exact ⟨h.dpu, heffect⟩
  | resume index =>
      exact ⟨⟨startBit_sound heffect h.dpu.runBits, clearBit_zero h.dpu.sleepBits _,
        clearBit_zero h.dpu.replayBits _, h.dpu.tasklets⟩, h.nextPc⟩
  | boot index clears =>
      have hindex : index < kNumTasklets := by
        simp only [Effect.sound, Dpu.bootable, Bool.and_eq_true, decide_eq_true_eq] at heffect
        exact heffect.1.1
      exact ⟨⟨startBit_sound hindex h.dpu.runBits, clearBit_zero h.dpu.sleepBits _,
        clearBit_zero h.dpu.replayBits _,
        (setTasklet_sound h.dpu index reset_sound).tasklets⟩, h.nextPc⟩
  | halt => exact ⟨h.dpu, h.nextPc⟩
  | setAtomic | loadDma | storeDma | storeWram | perfConfig =>
      exact ⟨⟨h.dpu.runBits, h.dpu.sleepBits, h.dpu.replayBits, h.dpu.tasklets⟩, h.nextPc⟩

theorem commitPc_sound {exec : Exec} (h : exec.Sound) (t : Nat) : (exec.commitPc t).Sound := by
  have htasklet := h.dpu.tasklets t
  exact setTasklet_sound h.dpu t ⟨h.nextPc, htasklet.zf, htasklet.cf⟩

theorem perfCounterRetireStep_sound {dpu : Dpu} (h : dpu.Sound) (isReplayStep : Bool) :
    (dpu.perfCounterRetireStep isReplayStep).Sound := by
  unfold Dpu.perfCounterRetireStep
  split
  · exact ⟨h.runBits, h.sleepBits, h.replayBits, h.tasklets⟩
  · exact h

theorem retire_sound {retire : Exec → Nat → Dpu × Bool}
    (hretire : retire = retireHot ∨ retire = retireOpcode) {exec : Exec} (h : exec.Sound)
    (t : Nat) : (retire exec t).1.Sound := by
  have hcommit := commitPc_sound h t
  rcases hretire with rfl | rfl
  · refine perfCounterRetireStep_sound ?_ false
    split
    · exact hcommit
    · exact clearBits_sound hcommit t
  · unfold retireOpcode
    refine perfCounterRetireStep_sound ?_ _
    exact ⟨hcommit.runBits, hcommit.sleepBits, clearBit_zero hcommit.replayBits _,
      hcommit.tasklets⟩

theorem nextSlot_dvd {pc : BitVec 64} (h : 8 ∣ pc.toNat) : 8 ∣ (pc + 8).toNat := by
  rw [BitVec.toNat_add]
  exact (Nat.dvd_mod_iff (by decide)).mpr (Nat.dvd_add h (Nat.dvd_refl 8))

section
variable (decodeRawWord48 : BitVec 64 → RawDecoded48)

theorem executeOnce_sound {dpu : Dpu} (h : dpu.Sound) (t : Nat) :
    (executeOnce decodeRawWord48 dpu t).1.Sound := by
  cases hfetch : fetch dpu t with
  | none =>
      rw [executeOnce_none hfetch]
      exact h
  | some inst48 =>
      obtain ⟨effects, retire, hmeets, hretire, hexec⟩ :=
        executeOnce_sound_effects decodeRawWord48 hfetch
      rw [hexec]
      have hstart : (dpu.startExec t).Sound := ⟨h, nextSlot_dvd (h.tasklets t).pc⟩
      exact retire_sound hretire (applyEffects_invariant _ (apply_sound t) hmeets hstart) t

theorem taskletTurn_sound {dpu : Dpu} (h : dpu.Sound) (t : Nat) :
    (taskletTurn decodeRawWord48 dpu t).Sound := by
  have hexec := executeOnce_sound decodeRawWord48 h t
  unfold taskletTurn
  split
  · exact h
  · dsimp only
    split
    · exact hexec
    · exact clearBits_sound hexec t

theorem turns_sound (schedule : List Nat) {dpu : Dpu} (h : dpu.Sound) :
    (schedule.foldl (taskletTurn decodeRawWord48) dpu).Sound := by
  induction schedule generalizing dpu with
  | nil => exact h
  | cons t rest ih => exact ih (taskletTurn_sound decodeRawWord48 h t)

theorem rounds_sound (budget : Nat) {dpu : Dpu} (h : dpu.Sound) :
    (rounds decodeRawWord48 budget dpu).Sound := by
  induction budget generalizing dpu with
  | zero => exact h
  | succ budget ih =>
      unfold rounds
      split
      · exact h
      · exact ih (turns_sound decodeRawWord48 _ h)

theorem decodeThreadCommand_lt {ciCmd : BitVec 64} {kind : ThreadCmdKind} {threadId : Nat}
    (h : decodeThreadCommand ciCmd = some (kind, threadId)) : threadId < kNumTasklets := by
  have hmem := List.mem_of_find?_eq_some h
  simp only [threadCommands, List.mem_flatMap, List.mem_map, List.mem_range, Prod.mk.injEq]
    at hmem
  obtain ⟨_, _, tid, htid, _, rfl⟩ := hmem
  exact htid

theorem threadCommand_sound {dpu : Dpu} (h : dpu.Sound) (kind : ThreadCmdKind) {threadId : Nat}
    (hthread : threadId < kNumTasklets) : (threadCommand dpu kind threadId).Sound := by
  cases kind with
  | boot =>
      exact ⟨startBit_sound hthread h.runBits, clearBit_zero h.sleepBits _,
        clearBit_zero h.replayBits _, (setTasklet_sound h threadId reset_sound).tasklets⟩
  | resume =>
      exact ⟨startBit_sound hthread h.runBits, clearBit_zero h.sleepBits _, h.replayBits,
        h.tasklets⟩
  | clearRun => exact clearBits_sound h threadId
  | readRun => exact h

theorem control_sound {dpu : Dpu} (h : dpu.Sound) (ciCmd : BitVec 64) :
    (control decodeRawWord48 dpu ciCmd).Sound := by
  have hresult {dpu : Dpu} (h : dpu.Sound) (value : BitVec 32) :
      (dpu.setLastControlResult value).Sound :=
    ⟨h.runBits, h.sleepBits, h.replayBits, h.tasklets⟩
  unfold control
  split
  · split
    · exact ⟨fun _ _ => BitVec.getLsbD_zero, rfl, rfl, h.tasklets⟩
    · exact hresult (rounds_sound decodeRawWord48 _ h) _
  · cases hrow : decodeThreadCommand ciCmd with
    | none => exact hresult h _
    | some row => exact hresult (threadCommand_sound h row.1 (decodeThreadCommand_lt hrow)) _

/-- What reaches a DPU from outside: a command, or a transfer that leaves its
memories with any contents. -/
inductive DpuInput where
  | control (ciCmd : BitVec 64)
  | transfer (iram : Iram) (wram : Wram) (mram : Mram)

def Dpu.receive (dpu : Dpu) : DpuInput → Dpu
  | .control ciCmd => Upmem.control decodeRawWord48 dpu ciCmd
  | .transfer iram wram mram => { dpu with iram := iram, wram := wram, mram := mram }

theorem receive_sound {dpu : Dpu} (h : dpu.Sound) (input : DpuInput) :
    (dpu.receive decodeRawWord48 input).Sound := by
  cases input with
  | control ciCmd => exact control_sound decodeRawWord48 h ciCmd
  | transfer iram wram mram => exact ⟨h.runBits, h.sleepBits, h.replayBits, h.tasklets⟩

theorem receives_sound (inputs : List DpuInput) {dpu : Dpu} (h : dpu.Sound) :
    (inputs.foldl (Dpu.receive decodeRawWord48) dpu).Sound := by
  induction inputs generalizing dpu with
  | nil => exact h
  | cons input rest ih => exact ih (receive_sound decodeRawWord48 h input)

/-- From power-on, whatever programs are loaded and whatever commands follow. -/
theorem dpu_state_invariant (inputs : List DpuInput) :
    let dpu := inputs.foldl (Dpu.receive decodeRawWord48) .powerOn
    (∀ i, kNumTasklets ≤ i → dpu.runBits.getLsbD i = false ∧ dpu.sleepBits.getLsbD i = false ∧
      dpu.replayBits.getLsbD i = false) ∧
    dpu.sleepBits = 0 ∧ dpu.replayBits = 0 ∧
    ∀ t, 8 ∣ (dpu.tasklets t).pc.toNat ∧
      ((dpu.tasklets t).zf = 0 ∨ (dpu.tasklets t).zf = 1) ∧
      ((dpu.tasklets t).cf = 0 ∨ (dpu.tasklets t).cf = 1) := by
  intro dpu
  have h : dpu.Sound := receives_sound decodeRawWord48 inputs powerOn_sound
  refine ⟨fun i hi => ⟨h.runBits i hi, ?_, ?_⟩, h.sleepBits, h.replayBits, fun t => ?_⟩
  · rw [h.sleepBits]
    exact BitVec.getLsbD_zero
  · rw [h.replayBits]
    exact BitVec.getLsbD_zero
  · exact ⟨(h.tasklets t).pc, (h.tasklets t).zf, (h.tasklets t).cf⟩

end

end HostPimSim.Upmem
