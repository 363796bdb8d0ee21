import HostPimSim.Upmem.WramWords

/-! Loading a program through the control interface.  A structure latches the high
byte of the slots, each frame then carries the low byte and one instruction word;
while the structure is latched every frame is a payload, whatever its bits are. -/
namespace HostPimSim.Upmem

/-- One word on its way to its slot, with the structure that goes before it unless
the slot has the high byte of the last one. -/
structure Delivery where
  structureWord : Option (BitVec 64)
  slot : Nat
  word : BitVec 48

def Delivery.frame (item : Delivery) : BitVec 64 :=
  (0x3300000000000000 : BitVec 64) ||| (BitVec.ofNat 8 item.slot).setWidth 64 <<< 48 |||
    item.word.setWidth 64

def Delivery.high (item : Delivery) : BitVec 16 := BitVec.ofNat 16 (item.slot / 256)

/-- A list of deliveries, from the high byte that is latched. -/
inductive Loads : Option (BitVec 16) → List Delivery → Prop
  | done (latched : Option (BitVec 16)) : Loads latched []
  | latch {latched : Option (BitVec 16)} {item : Delivery} {rest : List Delivery}
      {structureWord : BitVec 64} (hword : item.structureWord = some structureWord)
      (hdecode : decodeIramWriteStructure structureWord = some item.high)
      (hslot : item.slot < kIRAMSizeBytes / 8) (hrest : Loads (some item.high) rest) :
      Loads latched (item :: rest)
  | again {latched : Option (BitVec 16)} {item : Delivery} {rest : List Delivery}
      (hword : item.structureWord = none) (hsame : latched = some item.high)
      (hslot : item.slot < kIRAMSizeBytes / 8) (hrest : Loads (some item.high) rest) :
      Loads latched (item :: rest)

/-- The high byte that the next frame is for, if a structure of an IRAM write is
latched. -/
def CIState.latchedHigh (state : CIState) : Option (BitVec 16) :=
  if state.iramWriteStructureValid then some state.iramWriteAddrHi else none

def lastWord (items : List Delivery) (slot : Nat) : Option (BitVec 48) :=
  (items.reverse.find? fun item => item.slot == slot).map Delivery.word

def loadedIram (iram : Iram) (items : List Delivery) : Iram :=
  items.foldl (fun iram item =>
    iram.writeWord (BitVec.ofNat 16 item.slot) (item.word.setWidth 64)) iram

section
variable (decodeRawWord48 : BitVec 64 → RawDecoded48) (invokes : Nat → Bool)

def deliver (chip : Chip) (item : Delivery) : Chip :=
  let latched := match item.structureWord with
    | some structureWord => propagateCi decodeRawWord48 invokes chip structureWord
    | none => chip
  propagateCi decodeRawWord48 invokes latched item.frame

def loadProgram (chip : Chip) (items : List Delivery) : Chip :=
  items.foldl (deliver decodeRawWord48 invokes) chip

end

theorem kIramInst48Mask_getLsbD {i : Nat} (hi : i < 64) :
    kIramInst48Mask.getLsbD i = decide (i < 48) := by
  have hall : ∀ j, j < 64 → kIramInst48Mask.getLsbD j = decide (j < 48) := by decide
  exact hall i hi

theorem Delivery.frame_getLsbD (item : Delivery) {i : Nat} (hi : i < 64) :
    item.frame.getLsbD i =
      if i < 48 then item.word.getLsbD i
      else if i < 56 then (BitVec.ofNat 8 item.slot).getLsbD (i - 48)
      else (0x3300000000000000 : BitVec 64).getLsbD i := by
  have hlow : ∀ j, j < 56 → (0x3300000000000000 : BitVec 64).getLsbD j = false := by decide
  unfold Delivery.frame
  rw [BitVec.getLsbD_or, BitVec.getLsbD_or, BitVec.getLsbD_shiftLeft, BitVec.getLsbD_setWidth,
    BitVec.getLsbD_setWidth]
  by_cases hword : i < 48
  · rw [hlow i (by omega)]
    simp [hword, hi]
  · have hzero : item.word.getLsbD i = false := BitVec.getLsbD_of_ge _ _ (by omega)
    by_cases htag : i < 56
    · rw [hlow i htag]
      simp [hword, hzero, htag, hi, show i - 48 < 64 by omega]
    · have htag' : (BitVec.ofNat 8 item.slot).getLsbD (i - 48) = false :=
        BitVec.getLsbD_of_ge _ _ (by omega)
      simp [hword, hzero, htag, htag']

theorem Delivery.frame_opcode (item : Delivery) : byte item.frame 56 = 0x33 := by
  have hconst : ∀ i, i < 8 → (0x3300000000000000 : BitVec 64).getLsbD (56 + i) =
      (0x33 : BitVec 8).getLsbD i := by decide
  apply BitVec.eq_of_getLsbD_eq
  intro i hi
  unfold byte
  rw [BitVec.getLsbD_setWidth, BitVec.getLsbD_ushiftRight, item.frame_getLsbD (by omega),
    if_neg (by omega), if_neg (by omega), hconst i hi]
  simp [hi]

theorem Delivery.frame_tag (item : Delivery) : byte item.frame 48 = BitVec.ofNat 8 item.slot := by
  apply BitVec.eq_of_getLsbD_eq
  intro i hi
  unfold byte
  rw [BitVec.getLsbD_setWidth, BitVec.getLsbD_ushiftRight, item.frame_getLsbD (by omega),
    if_neg (by omega), if_pos (by omega)]
  simp [hi]

theorem Delivery.frame_payload (item : Delivery) :
    item.frame &&& kIramInst48Mask = item.word.setWidth 64 := by
  apply BitVec.eq_of_getLsbD_eq
  intro i hi
  rw [BitVec.getLsbD_and, item.frame_getLsbD hi, kIramInst48Mask_getLsbD hi,
    BitVec.getLsbD_setWidth]
  by_cases hword : i < 48
  · simp [hword, hi]
  · have hzero : item.word.getLsbD i = false := BitVec.getLsbD_of_ge _ _ (by omega)
    simp [hword, hzero]

theorem Delivery.frame_slot (item : Delivery) (hslot : item.slot < kIRAMSizeBytes / 8) :
    item.high <<< 8 ||| (byte item.frame 48).setWidth 16 = BitVec.ofNat 16 item.slot := by
  have hlt : item.slot < 3072 := hslot
  have hhigh : item.high.toNat = item.slot / 256 := by
    unfold Delivery.high
    rw [BitVec.toNat_ofNat]
    omega
  rw [item.frame_tag]
  apply BitVec.eq_of_toNat_eq
  rw [BitVec.toNat_or, BitVec.toNat_shiftLeft, BitVec.toNat_setWidth, BitVec.toNat_ofNat,
    BitVec.toNat_ofNat, hhigh]
  have hshift : (item.slot / 256) <<< 8 % 2 ^ 16 = (item.slot / 256) <<< 8 := by
    rw [Nat.shiftLeft_eq]
    omega
  rw [hshift, ← Nat.shiftLeft_add_eq_or_of_lt (by omega), Nat.shiftLeft_eq]
  omega

section
variable (decodeRawWord48 : BitVec 64 → RawDecoded48) (invokes : Nat → Bool)

structure Loading (chip loaded : Chip) (latched : Option (BitVec 16)) (items : List Delivery) :
    Prop where
  populated : loaded.populated = true
  latchedHigh : loaded.state.latchedHigh = latched
  selectedMask : loaded.state.selectedMask = chip.state.selectedMask
  dpus : ∀ i, loaded.dpus i = if chip.state.selectedMask.getLsbD i then
    { chip.dpus i with iram := loadedIram (chip.dpus i).iram items } else chip.dpus i

theorem decodeIramWriteStructure_opcode {word : BitVec 64} {high : BitVec 16}
    (h : decodeIramWriteStructure word = some high) : byte word 56 = 0x11 := by
  unfold decodeIramWriteStructure at h
  split at h
  · rename_i hbytes
    exact hbytes.1
  · cases h

theorem propagateCi_iramStructure {chip : Chip} (hpopulated : chip.populated = true)
    {word : BitVec 64} {high : BitVec 16} (h : decodeIramWriteStructure word = some high) :
    Loading chip (propagateCi decodeRawWord48 invokes chip word) (some high) [] := by
  rw [propagateCi_structure decodeRawWord48 invokes hpopulated
    (decodeIramWriteStructure_opcode h)]
  refine ⟨hpopulated, ?_, rfl, fun i => ?_⟩
  · unfold latchStructure
    rw [h]
    rfl
  · split <;> rfl

theorem propagateCi_iramFrame {chip : Chip} (hpopulated : chip.populated = true)
    {item : Delivery} (hslot : item.slot < kIRAMSizeBytes / 8)
    (hlatched : chip.state.latchedHigh = some item.high) :
    Loading chip (propagateCi decodeRawWord48 invokes chip item.frame) (some item.high)
      [item] := by
  obtain ⟨hvalid, hhigh⟩ : chip.state.iramWriteStructureValid = true ∧
      chip.state.iramWriteAddrHi = item.high := by
    unfold CIState.latchedHigh at hlatched
    split at hlatched
    · rename_i hvalid
      exact ⟨hvalid, Option.some.inj hlatched⟩
    · cases hlatched
  have hframe : propagateFrame decodeRawWord48 invokes (chip.setCommitted item.frame) item.frame =
      writeIramPayload (chip.setCommitted item.frame) item.frame := if_pos hvalid
  rw [propagateCi_payload decodeRawWord48 invokes hpopulated item.frame_opcode, hframe]
  refine ⟨hpopulated, hlatched, rfl, fun i => ?_⟩
  simp only [writeIramPayload, Chip.publish, Chip.mapDpus, Chip.setCommitted, hhigh,
    item.frame_slot hslot, item.frame_payload, loadedIram, List.foldl_cons, List.foldl_nil]

theorem Loading.trans {chip middle loaded : Chip} {first second : Option (BitVec 16)}
    {before after : List Delivery} (hfirst : Loading chip middle first before)
    (hsecond : Loading middle loaded second after) :
    Loading chip loaded second (before ++ after) := by
  refine ⟨hsecond.populated, hsecond.latchedHigh,
    hsecond.selectedMask.trans hfirst.selectedMask, fun i => ?_⟩
  rw [hsecond.dpus i, hfirst.selectedMask, hfirst.dpus i]
  split
  · simp only [loadedIram, List.foldl_append]
  · rfl

theorem loadProgram_loading {latched : Option (BitVec 16)} {items : List Delivery}
    (hitems : Loads latched items) {chip : Chip} (hpopulated : chip.populated = true)
    (hlatched : chip.state.latchedHigh = latched) :
    ∃ last, Loading chip (loadProgram decodeRawWord48 invokes chip items) last items := by
  induction hitems generalizing chip with
  | done latched =>
      refine ⟨_, hpopulated, rfl, rfl, fun i => ?_⟩
      split <;> rfl
  | @latch latched item rest structureWord hword hdecode hslot _ ih =>
      have hstructure := propagateCi_iramStructure decodeRawWord48 invokes hpopulated hdecode
      have hframe := propagateCi_iramFrame decodeRawWord48 invokes hstructure.populated hslot
        hstructure.latchedHigh
      have hone : Loading chip (deliver decodeRawWord48 invokes chip item) (some item.high)
          [item] := by
        unfold deliver
        rw [hword]
        exact hstructure.trans hframe
      obtain ⟨last, hrest⟩ := ih hone.populated hone.latchedHigh
      exact ⟨last, hone.trans hrest⟩
  | @again latched item rest hword hsame hslot _ ih =>
      have hone : Loading chip (deliver decodeRawWord48 invokes chip item) (some item.high)
          [item] := by
        unfold deliver
        rw [hword]
        exact propagateCi_iramFrame decodeRawWord48 invokes hpopulated hslot
          (hlatched.trans hsame)
      obtain ⟨last, hrest⟩ := ih hone.populated hone.latchedHigh
      exact ⟨last, hone.trans hrest⟩

theorem slotInBounds_of_lt {slot : Nat} (h : slot < kIRAMSizeBytes / 8) :
    Iram.slotInBounds (BitVec.ofNat 16 slot) = true ∧ (BitVec.ofNat 16 slot).toNat = slot := by
  have hlt : slot < 3072 := h
  have hslot : (BitVec.ofNat 16 slot).toNat = slot := by
    rw [BitVec.toNat_ofNat]
    omega
  refine ⟨?_, hslot⟩
  simp only [Iram.slotInBounds, hslot, kIRAMSizeBytes, Bool.and_eq_true, decide_eq_true_eq]
  omega

theorem word_and_mask (word : BitVec 48) :
    word.setWidth 64 &&& kIramInst48Mask = word.setWidth 64 := by
  apply BitVec.eq_of_getLsbD_eq
  intro i hi
  rw [BitVec.getLsbD_and, BitVec.getLsbD_setWidth, kIramInst48Mask_getLsbD hi]
  by_cases hword : i < 48
  · simp [hword]
  · have hzero : word.getLsbD i = false := BitVec.getLsbD_of_ge _ _ (by omega)
    simp [hzero]

theorem lastWord_cons (item : Delivery) (rest : List Delivery) (slot : Nat) :
    lastWord (item :: rest) slot =
      (lastWord rest slot).or (if item.slot = slot then some item.word else none) := by
  unfold lastWord
  rw [List.reverse_cons, List.find?_append, Option.map_or]
  congr 1
  by_cases h : item.slot = slot
  · simp [h]
  · simp [h]

theorem loadedIram_eq {items : List Delivery}
    (hslots : ∀ item ∈ items, item.slot < kIRAMSizeBytes / 8) (iram : Iram) (slot : Nat) :
    loadedIram iram items slot =
      ((lastWord items slot).map (·.setWidth 64)).getD (iram slot) := by
  induction items generalizing iram with
  | nil => rfl
  | cons item rest ih =>
      obtain ⟨hbounds, hslot⟩ := slotInBounds_of_lt (hslots item List.mem_cons_self)
      have hrest := ih (fun other hother => hslots other (List.mem_cons_of_mem _ hother))
        (iram.writeWord (BitVec.ofNat 16 item.slot) (item.word.setWidth 64))
      have hwrite : iram.writeWord (BitVec.ofNat 16 item.slot) (item.word.setWidth 64) slot =
          if slot = item.slot then item.word.setWidth 64 else iram slot := by
        simp only [Iram.writeWord, hbounds, if_true, hslot, word_and_mask]
      rw [loadedIram, List.foldl_cons, ← loadedIram, hrest, lastWord_cons, hwrite]
      cases lastWord rest slot with
      | some word => rfl
      | none =>
          by_cases h : item.slot = slot
          · simp [h]
          · simp [h, Ne.symm h]

theorem Loads.slots {latched : Option (BitVec 16)} {items : List Delivery}
    (h : Loads latched items) : ∀ item ∈ items, item.slot < kIRAMSizeBytes / 8 := by
  induction h with
  | done latched =>
      intro item hitem
      cases hitem
  | latch hword hdecode hslot hrest ih => exact List.forall_mem_cons.mpr ⟨hslot, ih⟩
  | again hword hsame hslot hrest ih => exact List.forall_mem_cons.mpr ⟨hslot, ih⟩

theorem fetch_loaded {dpu : Dpu} {slot : Nat} {word : BitVec 48}
    (hslot : slot < kIRAMSizeBytes / 8) (hword : dpu.iram slot = word.setWidth 64) :
    dpu.iram.readWord (BitVec.ofNat 16 slot) = word.setWidth 64 ∧
      ∀ t, t < kNumTasklets → dpu.runnable t = true →
        (dpu.tasklets t).pc = BitVec.ofNat 64 (slot * 8) →
        fetch dpu t = if word.setWidth 64 = (0 : BitVec 64) then none
          else some (word.setWidth 64) := by
  obtain ⟨hbounds, hnat⟩ := slotInBounds_of_lt hslot
  have hread : dpu.iram.readWord (BitVec.ofNat 16 slot) = word.setWidth 64 := by
    unfold Iram.readWord
    rw [if_pos hbounds, hnat, hword, word_and_mask]
  refine ⟨hread, fun t ht hrunnable hpc => ?_⟩
  unfold fetch
  rw [if_neg (Nat.not_le.mpr ht), if_neg (by simp [hrunnable]), hpc, iramSlot_ofNat hslot]
  simp only [Option.bind_some, hread]

/-- Every list of deliveries leaves in the selected DPUs the last word of each slot and
changes nothing else, in every state of a chip that has its regions. -/
theorem program_loaded (chip : Chip) (hpopulated : chip.populated = true)
    (items : List Delivery) (hitems : Loads chip.state.latchedHigh items) :
    let loaded := loadProgram decodeRawWord48 invokes chip items
    (∀ i, chip.state.selectedMask.getLsbD i = true →
      (∀ slot, lastWord items slot = none → (loaded.dpus i).iram slot = (chip.dpus i).iram slot) ∧
      (∀ slot word, lastWord items slot = some word → slot < kIRAMSizeBytes / 8 →
        (loaded.dpus i).iram.readWord (BitVec.ofNat 16 slot) = word.setWidth 64 ∧
          ∀ t, t < kNumTasklets → (loaded.dpus i).runnable t = true →
            ((loaded.dpus i).tasklets t).pc = BitVec.ofNat 64 (slot * 8) →
            fetch (loaded.dpus i) t = if word.setWidth 64 = (0 : BitVec 64) then none
              else some (word.setWidth 64)) ∧
      { loaded.dpus i with iram := (chip.dpus i).iram } = chip.dpus i) ∧
    ∀ i, chip.state.selectedMask.getLsbD i = false → loaded.dpus i = chip.dpus i := by
  obtain ⟨last, hloading⟩ :=
    loadProgram_loading decodeRawWord48 invokes hitems hpopulated rfl
  refine ⟨fun i hi => ?_, fun i hi => ?_⟩
  · have hdpu := hloading.dpus i
    rw [if_pos hi] at hdpu
    have hiram : ∀ slot, ((loadProgram decodeRawWord48 invokes chip items).dpus i).iram slot =
        ((lastWord items slot).map (·.setWidth 64)).getD ((chip.dpus i).iram slot) := by
      intro slot
      rw [hdpu]
      exact loadedIram_eq hitems.slots (chip.dpus i).iram slot
    refine ⟨fun slot hnone => ?_, fun slot word hword hslot => ?_, by rw [hdpu]⟩
    · rw [hiram slot, hnone]
      rfl
    · apply fetch_loaded hslot
      rw [hiram slot, hword]
      rfl
  · rw [hloading.dpus i, hi]
    rfl

end

/-- Two words for slot 513, the second without a structure, and one for slot 2. -/
def threeDeliveries : List Delivery :=
  [⟨some 0x11000002470200FF, 513, 0x08FFFFFFFFFF⟩, ⟨none, 513, 0x840200000000⟩,
    ⟨some 0x11000002470000FF, 2, 1⟩]

theorem program_loaded_threeDeliveries :
    lastWord threeDeliveries 513 = some 0x840200000000 ∧
      ((loadProgram (fun _ => .empty) (fun _ => true) selectingChip threeDeliveries).dpus
        3).iram.readWord 513 = 0x840200000000 ∧
      (loadProgram (fun _ => .empty) (fun _ => true) selectingChip threeDeliveries).dpus 2 =
        selectingChip.dpus 2 := by
  have hthird : Loads (some 2) [⟨some 0x11000002470000FF, 2, 1⟩] :=
    .latch rfl (by decide) (by decide) (.done _)
  have hsecond : Loads (some 2)
      [⟨none, 513, 0x840200000000⟩, ⟨some 0x11000002470000FF, 2, 1⟩] :=
    .again rfl (by decide) (by decide) hthird
  have hitems : Loads selectingChip.state.latchedHigh threeDeliveries :=
    .latch rfl (by decide) (by decide) hsecond
  have hlast : lastWord threeDeliveries 513 = some 0x840200000000 := by decide
  obtain ⟨hselected, hother⟩ := program_loaded (fun _ => .empty) (fun _ => true) selectingChip
    rfl threeDeliveries hitems
  exact ⟨hlast, ((hselected 3 (by decide)).2.1 513 _ hlast (by decide)).1,
    hother 2 (by decide)⟩

end HostPimSim.Upmem
