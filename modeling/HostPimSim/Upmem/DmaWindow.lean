import HostPimSim.Upmem.Control
import HostPimSim.Upmem.MemoryStep

/-! Transfers between WRAM and MRAM.  Both addresses and the length come from the
registers and the immediate of the instruction; what is outside of either memory
is left out. -/
namespace HostPimSim.Upmem

section
variable (decodeRawWord48 : BitVec 64 → RawDecoded48)

/-- What happens to a DPU: its MRAM is allocated, the host changes bytes of its
memories or sends a command, and within a command tasklets take turns. -/
inductive DpuEvent where
  | allocate
  | transfer (iram : Iram) (wram : Wram) (bytes : Nat → BitVec 8)
  | control (ciCmd : BitVec 64)
  | turn (t : Nat)

def Dpu.happens (dpu : Dpu) : DpuEvent → Dpu
  | .allocate => { dpu with mram := dpu.mram.allocate }
  | .transfer iram wram bytes =>
      { dpu with iram := iram, wram := wram, mram := { dpu.mram with bytes := bytes } }
  | .control ciCmd => Upmem.control decodeRawWord48 dpu ciCmd
  | .turn t => if dpu.mram.bound then taskletTurn decodeRawWord48 dpu t else dpu

/-- Only `allocate` gives a DPU its MRAM, all of it. -/
def Mram.WholeOrNone (mram : Mram) : Prop := mram.bound = true → mram.size = kMramSizeBytes

def Mram.SameExtent (first second : Mram) : Prop :=
  first.mapped = second.mapped ∧ first.size = second.size

theorem Mram.SameExtent.trans {first second third : Mram} (h : first.SameExtent second)
    (h' : second.SameExtent third) : first.SameExtent third :=
  ⟨h.1.trans h'.1, h.2.trans h'.2⟩

theorem Mram.SameExtent.wholeOrNone {first second : Mram} (h : first.SameExtent second)
    (hsecond : second.WholeOrNone) : first.WholeOrNone := by
  unfold Mram.WholeOrNone Mram.bound at *
  rw [h.1, h.2]
  exact hsecond

theorem onMemories_sameExtent (effects : List Effect) (memories : Memories) :
    (onMemories memories effects).mram.SameExtent memories.mram := by
  induction effects generalizing memories with
  | nil => exact ⟨rfl, rfl⟩
  | cons effect rest ih =>
      have hone : (effect.onMemories memories).mram.SameExtent memories.mram := by
        cases effect with
        | storeDma bytes mramOffset wramOffset =>
            simp only [Effect.onMemories, dmaToMramFromWram, Mram.copyFromWram]
            split <;> exact ⟨rfl, rfl⟩
        | _ => exact ⟨rfl, rfl⟩
      exact (ih (effect.onMemories memories)).trans hone

theorem executeOnce_sameExtent (dpu : Dpu) (t : Nat) :
    (executeOnce decodeRawWord48 dpu t).1.mram.SameExtent dpu.mram := by
  cases hfetch : fetch dpu t with
  | none =>
      rw [executeOnce_none hfetch]
      exact ⟨rfl, rfl⟩
  | some inst48 =>
      have hextent := onMemories_sameExtent (wordEffects decodeRawWord48 inst48 dpu t) dpu.memories
      rw [← executeOnce_memories hfetch] at hextent
      exact hextent

theorem taskletTurn_sameExtent (dpu : Dpu) (t : Nat) :
    (taskletTurn decodeRawWord48 dpu t).mram.SameExtent dpu.mram := by
  unfold taskletTurn
  split
  · exact ⟨rfl, rfl⟩
  · dsimp only
    split
    · exact executeOnce_sameExtent decodeRawWord48 dpu t
    · exact executeOnce_sameExtent decodeRawWord48 dpu t

theorem turns_sameExtent (schedule : List Nat) (dpu : Dpu) :
    (schedule.foldl (taskletTurn decodeRawWord48) dpu).mram.SameExtent dpu.mram := by
  induction schedule generalizing dpu with
  | nil => exact ⟨rfl, rfl⟩
  | cons t rest ih =>
      exact (ih (taskletTurn decodeRawWord48 dpu t)).trans
        (taskletTurn_sameExtent decodeRawWord48 dpu t)

theorem rounds_sameExtent (budget : Nat) (dpu : Dpu) :
    (rounds decodeRawWord48 budget dpu).mram.SameExtent dpu.mram := by
  induction budget generalizing dpu with
  | zero => exact ⟨rfl, rfl⟩
  | succ budget ih =>
      unfold rounds
      split
      · exact ⟨rfl, rfl⟩
      · exact (ih (round decodeRawWord48 dpu)).trans (turns_sameExtent decodeRawWord48 _ dpu)

theorem control_sameExtent (dpu : Dpu) (ciCmd : BitVec 64) :
    (control decodeRawWord48 dpu ciCmd).mram.SameExtent dpu.mram := by
  unfold control
  split
  · split
    · exact ⟨rfl, rfl⟩
    · exact rounds_sameExtent decodeRawWord48 kProgressBudget dpu
  · split
    · exact ⟨rfl, rfl⟩
    · rename_i kind threadId _
      cases kind <;> exact ⟨rfl, rfl⟩

theorem happens_wholeOrNone {dpu : Dpu} (h : dpu.mram.WholeOrNone) (event : DpuEvent) :
    (dpu.happens decodeRawWord48 event).mram.WholeOrNone := by
  cases event with
  | allocate =>
      change dpu.mram.allocate.WholeOrNone
      unfold Mram.allocate
      split
      · exact h
      · intro _
        rfl
  | transfer iram wram bytes => exact h
  | control ciCmd => exact (control_sameExtent decodeRawWord48 dpu ciCmd).wholeOrNone h
  | turn t =>
      unfold Dpu.happens
      dsimp only
      split
      · exact (taskletTurn_sameExtent decodeRawWord48 dpu t).wholeOrNone h
      · exact h

theorem events_wholeOrNone (events : List DpuEvent) {dpu : Dpu} (h : dpu.mram.WholeOrNone) :
    (events.foldl (Dpu.happens decodeRawWord48) dpu).mram.WholeOrNone := by
  induction events generalizing dpu with
  | nil => exact h
  | cons event rest ih => exact ih (happens_wholeOrNone decodeRawWord48 h event)

theorem powerOn_wholeOrNone : Dpu.powerOn.mram.WholeOrNone := by
  intro h
  cases h

end

structure Window where
  wram : BitVec 32
  mram : BitVec 32
  bytes : Nat
  deriving DecidableEq

def dmaWindow (va vb : BitVec 32) (imm : BitVec 8) : Window :=
  ⟨va &&& 0xFFFFF8, vb &&& 0xFFFFFFF8, 8 * (1 + (imm.toNat + va.toNat / 2 ^ 24) % 256)⟩

/-- The bytes of the window that are in both memories. -/
def Window.count (window : Window) : Nat :=
  if window.wram.toNat < kWRAMSizeBytes ∧ window.mram.toNat < kMramSizeBytes then
    min window.bytes (min (kWRAMSizeBytes - window.wram.toNat)
      (kMramSizeBytes - window.mram.toNat))
  else 0

theorem dmaRequest_eq (va : BitVec 32) (imm : BitVec 8) :
    dmaRequest va (imm.setWidth 32) = 8 * (1 + (imm.toNat + va.toNat / 2 ^ 24) % 256) := by
  have hva := va.isLt
  have himm := imm.isLt
  have hmask (x : BitVec 32) : (x &&& 0xFF).toNat = x.toNat % 256 := by
    rw [BitVec.toNat_and]
    exact Nat.and_two_pow_sub_one_eq_mod x.toNat 8
  have hhigh : ((va >>> 24) &&& 0xFF).toNat = va.toNat / 2 ^ 24 := by
    rw [hmask, BitVec.toNat_ushiftRight, Nat.shiftRight_eq_div_pow]
    omega
  have hsum : (imm.setWidth 32 + ((va >>> 24) &&& 0xFF)).toNat = imm.toNat + va.toNat / 2 ^ 24 := by
    rw [BitVec.toNat_add, hhigh, BitVec.toNat_setWidth]
    omega
  unfold dmaRequest
  rw [BitVec.toNat_shiftLeft, BitVec.toNat_add, hmask, hsum, Nat.shiftLeft_eq]
  have hone : ((1 : Nat) : BitVec 32).toNat = 1 := rfl
  rw [hone]
  omega

section
variable {mram : Mram} (hbound : mram.bound = true)
include hbound

/-- The check against the logical size refuses nothing that is left to copy. -/
theorem copies_count (window : Window) :
    (mram.mapped && Mram.byteInBounds window.mram window.count) = true ∨ window.count = 0 := by
  have hmapped : mram.mapped = true := by
    simp only [Mram.bound, Bool.and_eq_true] at hbound
    exact hbound.1
  by_cases hzero : window.count = 0
  · exact .inr hzero
  · refine .inl ?_
    have hin : window.wram.toNat < kWRAMSizeBytes ∧ window.mram.toNat < kMramSizeBytes := by
      by_contra hout
      exact hzero (if_neg hout)
    have hcount : window.count = min window.bytes (min (kWRAMSizeBytes - window.wram.toNat)
        (kMramSizeBytes - window.mram.toNat)) := if_pos hin
    simp only [hmapped, Mram.byteInBounds, Bool.true_and, Bool.and_eq_true, bne_iff_ne, ne_eq,
      hzero, not_false_eq_true, true_and, decide_eq_true_eq]
    omega

variable (hsize : mram.size = kMramSizeBytes)
include hsize

theorem dmaCopyBytes_count (window : Window) (hbytes : window.bytes ≠ 0) :
    dmaCopyBytes mram window.bytes window.wram window.mram = window.count := by
  unfold dmaCopyBytes Window.count
  rw [hbound, hsize, if_neg (by simp [hbytes])]
  by_cases hin : window.wram.toNat < kWRAMSizeBytes ∧ window.mram.toNat < kMramSizeBytes
  · have hout : ¬(decide (window.mram.toNat ≥ kMramSizeBytes) ||
        decide (window.wram.toNat ≥ kWRAMSizeBytes)) = true := by
      simp only [Bool.or_eq_true, decide_eq_true_eq]
      omega
    rw [if_pos hin, if_neg hout, Nat.min_comm (kMramSizeBytes - _)]
  · have hout : (decide (window.mram.toNat ≥ kMramSizeBytes) ||
        decide (window.wram.toNat ≥ kWRAMSizeBytes)) = true := by
      simp only [Bool.or_eq_true, decide_eq_true_eq]
      omega
    rw [if_neg hin, if_pos hout]

theorem dmaToWramFromMram_window (wram : Wram) (window : Window) (hbytes : window.bytes ≠ 0)
    (i : Nat) :
    dmaToWramFromMram wram mram window.bytes window.wram window.mram i =
      if window.wram.toNat ≤ i ∧ i < window.wram.toNat + window.count then
        mram.bytes (window.mram.toNat + (i - window.wram.toNat))
      else wram i := by
  unfold dmaToWramFromMram Mram.copyToWram
  rw [dmaCopyBytes_count hbound hsize window hbytes]
  obtain hcopies | hzero := copies_count hbound window
  · rw [if_pos hcopies]
  · have hnone : ¬(window.wram.toNat ≤ i ∧ i < window.wram.toNat + window.count) := by omega
    rw [if_neg hnone]
    split
    · exact if_neg hnone
    · rfl

theorem dmaToMramFromWram_window (wram : Wram) (window : Window) (hbytes : window.bytes ≠ 0) :
    (dmaToMramFromWram mram wram window.bytes window.mram window.wram).SameExtent mram ∧
      ∀ i, (dmaToMramFromWram mram wram window.bytes window.mram window.wram).bytes i =
        if window.mram.toNat ≤ i ∧ i < window.mram.toNat + window.count then
          wram (window.wram.toNat + (i - window.mram.toNat))
        else mram.bytes i := by
  unfold dmaToMramFromWram Mram.copyFromWram
  rw [dmaCopyBytes_count hbound hsize window hbytes]
  obtain hcopies | hzero := copies_count hbound window
  · rw [if_pos hcopies]
    exact ⟨⟨rfl, rfl⟩, fun _ => rfl⟩
  · have hnone (i : Nat) :
        ¬(window.mram.toNat ≤ i ∧ i < window.mram.toNat + window.count) := by omega
    split
    · exact ⟨⟨rfl, rfl⟩, fun _ => rfl⟩
    · exact ⟨⟨rfl, rfl⟩, fun i => by rw [if_neg (hnone i)]⟩

end

inductive DmaOp where
  | ldma
  | sdma
  deriving DecidableEq

namespace DmaOp

def hotOp : DmaOp → HotOp
  | ldma => .ldma
  | sdma => .sdma

def opcode : DmaOp → DpuOpcode
  | ldma => .ldma
  | sdma => .sdma

def effect (op : DmaOp) (window : Window) : Effect :=
  match op with
  | ldma => .loadDma window.bytes window.wram window.mram
  | sdma => .storeDma window.bytes window.mram window.wram

end DmaOp

/-- The word is a transfer to the switch that executes it. -/
inductive DmaWord (decodeRawWord48 : BitVec 64 → RawDecoded48) (inst48 : BitVec 64) (op : DmaOp)
    (ra rb : Nat) (imm : BitVec 8) : Prop where
  | decoded (handled : handled decodeRawWord48 inst48 = true)
      (hotOp : (decodeRawWord48 inst48).hotOp = op.hotOp)
      (hasRa : (decodeRawWord48 inst48).hasRa = true)
      (ra : ((decodeRawWord48 inst48).ra &&& 0x1F).toNat = ra)
      (hasRb : (decodeRawWord48 inst48).hasRb = true)
      (rb : ((decodeRawWord48 inst48).rb &&& 0x1F).toNat = rb)
      (imm : (decodeRawWord48 inst48).immDma = imm.setWidth 32)
  | fixed (handled : Upmem.handled decodeRawWord48 inst48 = false)
      (opcode : (fields inst48 .powerOn 0).opcode = some op.opcode)
      (ra : (fields inst48 .powerOn 0).ra = ra)
      (rb : (fields inst48 .powerOn 0).rb = rb)
      (imm : (fields inst48 .powerOn 0).imm8 = imm)

section
variable {decodeRawWord48 : BitVec 64 → RawDecoded48} {dpu : Dpu} {t : Nat} {inst48 : BitVec 64}
  {op : DmaOp} {ra rb : Nat} {imm : BitVec 8}

theorem DmaWord.wordEffects (h : DmaWord decodeRawWord48 inst48 op ra rb imm) (dpu : Dpu)
    (t : Nat) :
    wordEffects decodeRawWord48 inst48 dpu t =
      [op.effect (dmaWindow (dpu.readReg t ra) (dpu.readReg t rb) imm)] := by
  cases h with
  | decoded hhandled hop hasRa hra hasRb hrb himm =>
      have hvra : (operands (decodeRawWord48 inst48) dpu t).vra = dpu.readReg t ra := by
        unfold operands
        rw [if_pos hasRa, hra]
      have hvrb : (operands (decodeRawWord48 inst48) dpu t).vrb = dpu.readReg t rb := by
        unfold operands
        rw [if_pos hasRb, hrb]
      rw [wordEffects_handled hhandled]
      unfold hotEffects
      cases op with
      | ldma =>
          simp only [hop, DmaOp.hotOp, hvra, hvrb, himm, dmaRequest_eq]
          rfl
      | sdma =>
          simp only [hop, DmaOp.hotOp, hvra, hvrb, himm, dmaRequest_eq]
          rfl
  | fixed hhandled hopcode hra hrb himm =>
      have hop : (fields inst48 dpu t).opcode = some op.opcode := hopcode
      have hvra : (fields inst48 dpu t).raVal = dpu.readReg t ra := congrArg (dpu.readReg t) hra
      have hvrb : (fields inst48 dpu t).rbVal = dpu.readReg t rb := congrArg (dpu.readReg t) hrb
      have himm8 : (fields inst48 dpu t).imm8 = imm := himm
      have halu : aluResult (fields inst48 dpu t) = none := by
        unfold aluResult
        rw [hop]
        cases op <;> rfl
      rw [wordEffects_not_handled hhandled]
      unfold opcodeEffects
      cases op with
      | ldma =>
          simp only [halu, hop, DmaOp.opcode, hvra, hvrb, himm8, dmaRequest_eq]
          rfl
      | sdma =>
          simp only [halu, hop, DmaOp.opcode, hvra, hvrb, himm8, dmaRequest_eq]
          rfl

theorem DmaWord.advanced (h : DmaWord decodeRawWord48 inst48 op ra rb imm)
    (hfetch : fetch dpu t = some inst48) :
    dpu.Advanced (executeOnce decodeRawWord48 dpu t).1 t := by
  refine executeOnce_advanced hfetch ?_
  rw [h.wordEffects, meets_cons]
  refine ⟨?_, meets_nil⟩
  cases op <;> trivial

theorem DmaWord.memories (h : DmaWord decodeRawWord48 inst48 op ra rb imm)
    (hfetch : fetch dpu t = some inst48) :
    (executeOnce decodeRawWord48 dpu t).1.memories =
      (op.effect (dmaWindow (dpu.readReg t ra) (dpu.readReg t rb) imm)).onMemories
        dpu.memories := by
  rw [executeOnce_memories hfetch, h.wordEffects]
  rfl

theorem dmaWindow_bytes (va vb : BitVec 32) (imm : BitVec 8) :
    (dmaWindow va vb imm).bytes ≠ 0 := by
  change 8 * (1 + _) ≠ 0
  omega

theorem DmaWord.loads (h : DmaWord decodeRawWord48 inst48 .ldma ra rb imm)
    (hbound : dpu.mram.bound = true) (hsize : dpu.mram.size = kMramSizeBytes)
    (hfetch : fetch dpu t = some inst48) :
    let window := dmaWindow (dpu.readReg t ra) (dpu.readReg t rb) imm
    let after := (executeOnce decodeRawWord48 dpu t).1
    after.mram = dpu.mram ∧ ∀ i, after.wram i =
      if window.wram.toNat ≤ i ∧ i < window.wram.toNat + window.count then
        dpu.mram.bytes (window.mram.toNat + (i - window.wram.toNat))
      else dpu.wram i := by
  intro window after
  have hmemories := h.memories hfetch
  refine ⟨congrArg Memories.mram hmemories, fun i => ?_⟩
  refine (congrFun (congrArg Memories.wram hmemories) i).trans ?_
  exact dmaToWramFromMram_window hbound hsize dpu.wram window (dmaWindow_bytes _ _ _) i

theorem DmaWord.stores (h : DmaWord decodeRawWord48 inst48 .sdma ra rb imm)
    (hbound : dpu.mram.bound = true) (hsize : dpu.mram.size = kMramSizeBytes)
    (hfetch : fetch dpu t = some inst48) :
    let window := dmaWindow (dpu.readReg t ra) (dpu.readReg t rb) imm
    let after := (executeOnce decodeRawWord48 dpu t).1
    after.wram = dpu.wram ∧ after.mram.SameExtent dpu.mram ∧ ∀ i, after.mram.bytes i =
      if window.mram.toNat ≤ i ∧ i < window.mram.toNat + window.count then
        dpu.wram (window.wram.toNat + (i - window.mram.toNat))
      else dpu.mram.bytes i := by
  intro window after
  have hmemories := h.memories hfetch
  have hmram : after.mram = dmaToMramFromWram dpu.mram dpu.wram window.bytes window.mram
      window.wram := congrArg Memories.mram hmemories
  rw [hmram]
  exact ⟨congrArg Memories.wram hmemories,
    dmaToMramFromWram_window hbound hsize dpu.wram window (dmaWindow_bytes _ _ _)⟩

end

/-- Any DPU that executes a transfer, at any time, copies exactly the part of the
window that is in both memories, and goes on at the next slot with everything else
as it was.  LDMA of the window right after SDMA of it restores WRAM. -/
theorem dma_exact_window (decodeRawWord48 : BitVec 64 → RawDecoded48) (events : List DpuEvent)
    (dpu : Dpu) (hdpu : dpu = events.foldl (Dpu.happens decodeRawWord48) .powerOn)
    (hbound : dpu.mram.bound = true) (t : Nat) (inst48 : BitVec 64)
    (hfetch : fetch dpu t = some inst48) (op : DmaOp) (ra rb : Nat) (imm : BitVec 8)
    (hword : DmaWord decodeRawWord48 inst48 op ra rb imm) :
    let window := dmaWindow (dpu.readReg t ra) (dpu.readReg t rb) imm
    let after := (executeOnce decodeRawWord48 dpu t).1
    dpu.Advanced after t ∧
      (op = .ldma → after.mram = dpu.mram ∧ ∀ i, after.wram i =
        if window.wram.toNat ≤ i ∧ i < window.wram.toNat + window.count then
          dpu.mram.bytes (window.mram.toNat + (i - window.wram.toNat))
        else dpu.wram i) ∧
      (op = .sdma → (after.wram = dpu.wram ∧ after.mram.SameExtent dpu.mram ∧
        ∀ i, after.mram.bytes i =
          if window.mram.toNat ≤ i ∧ i < window.mram.toNat + window.count then
            dpu.wram (window.wram.toNat + (i - window.mram.toNat))
          else dpu.mram.bytes i) ∧
        ∀ t' inst48' ra' rb' imm', fetch after t' = some inst48' →
          DmaWord decodeRawWord48 inst48' .ldma ra' rb' imm' →
          dmaWindow (after.readReg t' ra') (after.readReg t' rb') imm' = window →
          (executeOnce decodeRawWord48 after t').1.wram = dpu.wram) := by
  intro window after
  have hsize : dpu.mram.size = kMramSizeBytes := by
    have hwhole := events_wholeOrNone decodeRawWord48 events powerOn_wholeOrNone
    rw [← hdpu] at hwhole
    exact hwhole hbound
  refine ⟨hword.advanced hfetch, ?_, ?_⟩
  · rintro rfl
    exact hword.loads hbound hsize hfetch
  · rintro rfl
    have hstores := hword.stores hbound hsize hfetch
    refine ⟨hstores, fun t' inst48' ra' rb' imm' hfetch' hword' hsame => ?_⟩
    obtain ⟨hwram, hextent, hstored⟩ := hstores
    have hbytes (j : Nat) : after.mram.bytes j =
        if window.mram.toNat ≤ j ∧ j < window.mram.toNat + window.count then
          dpu.wram (window.wram.toNat + (j - window.mram.toNat))
        else dpu.mram.bytes j := hstored j
    have hbound' : after.mram.bound = true := by
      unfold Mram.bound
      rw [hextent.1, hextent.2]
      exact hbound
    obtain ⟨-, hloaded⟩ := hword'.loads hbound' (hextent.2.trans hsize) hfetch'
    funext i
    rw [hloaded i, hsame]
    split
    · rename_i hin
      rw [hbytes, if_pos (by omega)]
      congr 1
      omega
    · rw [hwram]

def dmaProgram : Iram := fun slot => if slot = 0 then 0x700000000002 else 0x700000000000

theorem dma_exact_window_booted :
    let decode := DecodeTable.rawDecoded
    let dpu := [.allocate, .transfer dmaProgram (fun _ => 7) (fun _ => 0),
      .control (threadCmdCache (.boot, 0))].foldl (Dpu.happens decode) .powerOn
    let stored := (executeOnce decode dpu 0).1
    stored.mram.bytes 7 = 7 ∧ stored.mram.bytes 8 = 0 ∧
      (executeOnce decode stored 0).1.wram = dpu.wram := by
  intro decode dpu stored
  have hword : DmaWord decode 0x700000000002 .sdma 0 0 0 :=
    .decoded (by decide) (by decide) (by decide) (by decide) (by decide) (by decide) (by decide)
  have hword' : DmaWord decode 0x700000000000 .ldma 0 0 0 :=
    .decoded (by decide) (by decide) (by decide) (by decide) (by decide) (by decide) (by decide)
  obtain ⟨-, -, hstores⟩ := dma_exact_window decode _ dpu rfl (by decide +kernel) 0
    0x700000000002 (by decide +kernel) .sdma 0 0 0 hword
  obtain ⟨⟨-, -, hbytes⟩, hrestores⟩ := hstores rfl
  refine ⟨?_, ?_, ?_⟩
  · rw [hbytes]
    decide +kernel
  · rw [hbytes]
    decide +kernel
  · exact hrestores 0 0x700000000000 0 0 0 (by decide +kernel) hword' (by decide +kernel)

end HostPimSim.Upmem
