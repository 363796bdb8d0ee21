import HostPimSim.Upmem.Chip

/-! Words of WRAM through the control interface: a structure and a frame write one,
a frame of its own reads it.  The address is scattered over the two words of a write,
its bits from the fifth on in the structure and the others in the frame. -/
namespace HostPimSim.Upmem
open Core.Register (loadBytes loadBytes_eq_iff getLsbD_loadBytes)

theorem field_getLsbD (v mask : BitVec 64) (w shift : Nat) {i : Nat} (hi : i < 64)
    (hmask : ∀ j, j < 64 → mask.getLsbD j = decide (j < w)) :
    ((v &&& mask) <<< shift).getLsbD i =
      if shift ≤ i ∧ i < shift + w then v.getLsbD (i - shift) else false := by
  rw [BitVec.getLsbD_shiftLeft, BitVec.getLsbD_and, hmask _ (by omega)]
  split
  · rename_i h
    have hbyte : i - shift < w := by omega
    simp [hi, h.1, hbyte]
  · by_cases hlow : i < shift
    · simp [hlow]
    · have hbyte : ¬i - shift < w := by omega
      simp [hbyte]

theorem moveByte_getLsbD (x : BitVec 64) (source target : Nat) {i : Nat} (hi : i < 64) :
    (moveByte x source target).getLsbD i =
      if target * 8 ≤ i ∧ i < target * 8 + 8 then x.getLsbD (source * 8 + (i - target * 8))
      else false := by
  unfold moveByte
  rw [field_getLsbD _ _ 8 _ hi (by decide), BitVec.getLsbD_ushiftRight]

theorem wramLowAddressBits_getLsbD (a2 : BitVec 64) {j : Nat} (hj : j < 64) :
    (wramLowAddressBits a2).getLsbD j =
      if j < 12 then a2.getLsbD (12 + j)
      else if j < 16 then a2.getLsbD (23 - j)
      else if 20 ≤ j ∧ j < 24 then a2.getLsbD (j - 20) else false := by
  unfold wramLowAddressBits
  simp only [BitVec.getLsbD_or, field_getLsbD _ 0xF 4 _ hj (by decide),
    field_getLsbD _ 1 1 _ hj (by decide), BitVec.getLsbD_ushiftRight]
  have hand : ((a2 >>> 12) &&& 0xFFF).getLsbD j = if j < 12 then a2.getLsbD (12 + j) else false := by
    have := field_getLsbD (a2 >>> 12) 0xFFF 12 0 hj (by decide)
    simpa using this
  rw [hand]
  grind

theorem byteAddress_getLsbD (address : BitVec 32) (j : Nat) :
    (address.setWidth 64 <<< 2).getLsbD j =
      if 2 ≤ j then address.getLsbD (j - 2) else false := by
  rw [BitVec.getLsbD_shiftLeft, BitVec.getLsbD_setWidth]
  by_cases hj : j < 64
  · split
    · rename_i h
      have hsub : j - 2 < 64 := by omega
      simp only [hj, hsub, Nat.not_lt.mpr h, decide_true, decide_false, Bool.not_false,
        Bool.true_and]
    · rename_i h
      simp [Nat.not_le.mp h]
  · have hhigh : address.getLsbD (j - 2) = false := BitVec.getLsbD_of_ge _ _ (by omega)
    simp [hhigh]

theorem wramWriteAddrX_getLsbD (address : BitVec 32) {j : Nat} (hj : j < 64) :
    (wramWriteAddrX address).getLsbD j =
      ((0x7C6044000000 : BitVec 64).getLsbD j ||
        if j < 12 then address.getLsbD (10 + j)
        else if j < 16 then address.getLsbD (21 - j)
        else if 22 ≤ j ∧ j < 24 then address.getLsbD (j - 22)
        else if j = 24 then address.getLsbD 5
        else if 39 ≤ j ∧ j < 42 then address.getLsbD (j - 37) else false) := by
  have hconst : (0x7C0044000000 ||| (24 &&& 31) <<< 34 : BitVec 64) = 0x7C6044000000 := by decide
  unfold wramWriteAddrX
  dsimp only
  rw [hconst]
  simp only [BitVec.getLsbD_or, wramLowAddressBits_getLsbD _ hj,
    field_getLsbD _ 0x7 3 _ hj (by decide), field_getLsbD _ 1 1 _ hj (by decide),
    BitVec.getLsbD_ushiftRight]
  rw [Bool.or_assoc, Bool.or_assoc]
  congr 1
  simp only [byteAddress_getLsbD]
  grind

def wramReadAddrX (address : BitVec 32) : BitVec 64 :=
  let a2 := address.setWidth 64 <<< 2
  0x700344000000 ||| (24 &&& 31) <<< 34 ||| wramLowAddressBits a2 ||| ((a2 >>> 4) &&& 0xF) <<< 16

theorem wramReadWordFrameForAddr_eq (address : BitVec 32) :
    wramReadWordFrameForAddr address = encodeFrameFromX (wramReadAddrX address) 0x99 := rfl

theorem wramReadAddrX_getLsbD (address : BitVec 32) {j : Nat} (hj : j < 64) :
    (wramReadAddrX address).getLsbD j =
      ((0x706344000000 : BitVec 64).getLsbD j ||
        if j < 12 then address.getLsbD (10 + j)
        else if j < 16 then address.getLsbD (21 - j)
        else if j < 20 then address.getLsbD (j - 14)
        else if 22 ≤ j ∧ j < 24 then address.getLsbD (j - 22) else false) := by
  have hconst : (0x700344000000 ||| (24 &&& 31) <<< 34 : BitVec 64) = 0x706344000000 := by
    decide
  unfold wramReadAddrX
  dsimp only
  rw [hconst]
  simp only [BitVec.getLsbD_or, wramLowAddressBits_getLsbD _ hj,
    field_getLsbD _ 0xF 4 _ hj (by decide), BitVec.getLsbD_ushiftRight]
  rw [Bool.or_assoc]
  congr 1
  simp only [byteAddress_getLsbD]
  grind

/-- Where the structure has bit `k` of the address, for the high bits. -/
def structureBit (k : Nat) : Nat :=
  if k = 5 then 32 else if k < 10 then 37 - k else k + 6

/-- Where the frame has bit `k` of the address, for the low bits. -/
def frameBit (k : Nat) : Nat :=
  if k < 2 then k + 38 else if k = 2 then 55 else k + 37

/-- Where the read frame has bit `k` of the address. -/
def readBit (k : Nat) : Nat :=
  if k < 2 then k + 6 else if k < 6 then k - 2 else if k < 10 then 45 - k else k + 14

theorem structure_getLsbD (address : BitVec 32) {k : Nat} (hlow : 5 ≤ k) (hk : k < 14) :
    (wramWriteWordStructureForAddr address).getLsbD (structureBit k) = address.getLsbD k := by
  unfold wramWriteWordStructureForAddr structureBit
  interval_cases k <;>
    simp (disch := decide) [BitVec.getLsbD_or, moveByte_getLsbD, wramWriteAddrX_getLsbD,
      -BitVec.getLsbD_eq_getElem]

theorem frame_getLsbD (address : BitVec 32) {k : Nat} (hk : k < 5) :
    (wramWriteWordFrameUpperForAddr address).getLsbD (frameBit k) = address.getLsbD k := by
  unfold wramWriteWordFrameUpperForAddr frameBit
  interval_cases k <;>
    simp (disch := decide) [BitVec.getLsbD_or, moveByte_getLsbD, wramWriteAddrX_getLsbD,
      -BitVec.getLsbD_eq_getElem]

theorem read_getLsbD (address : BitVec 32) {k : Nat} (hk : k < 14) :
    (wramReadWordFrameForAddr address).getLsbD (readBit k) = address.getLsbD k := by
  rw [wramReadWordFrameForAddr_eq]
  unfold encodeFrameFromX readBit
  interval_cases k <;>
    simp (disch := decide) [BitVec.getLsbD_or, moveByte_getLsbD, wramReadAddrX_getLsbD,
      -BitVec.getLsbD_eq_getElem]

theorem low5_getLsbD (address : BitVec 32) {k : Nat} (hk : k < 5) :
    (address &&& 0x1F).getLsbD k = address.getLsbD k := by
  interval_cases k <;> simp

/-- Of the bytes that a write frame carries, only the low five bits of the address
are part. -/
theorem wramWriteAddrX_low (address : BitVec 32) {j : Nat}
    (hj : (16 ≤ j ∧ j < 24) ∨ (32 ≤ j ∧ j < 48)) :
    (wramWriteAddrX (address &&& 0x1F)).getLsbD j = (wramWriteAddrX address).getLsbD j := by
  have hlow : ∀ k, k < 5 → (address &&& 0x1F).getLsbD k = address.getLsbD k :=
    fun k hk => low5_getLsbD address hk
  rw [wramWriteAddrX_getLsbD _ (by omega), wramWriteAddrX_getLsbD _ (by omega)]
  congr 1
  grind

theorem moveByte_wramWriteAddrX (address : BitVec 32) {source : Nat}
    (hsource : source = 2 ∨ source = 4 ∨ source = 5) (target : Nat) :
    moveByte (wramWriteAddrX (address &&& 0x1F)) source target =
      moveByte (wramWriteAddrX address) source target := by
  apply BitVec.eq_of_getLsbD_eq
  intro i hi
  rw [moveByte_getLsbD _ _ _ hi, moveByte_getLsbD _ _ _ hi]
  split
  · exact wramWriteAddrX_low address (by omega)
  · rfl

theorem frame_of_low (address : BitVec 32) :
    wramWriteWordFrameUpperForAddr (address &&& 0x1F) =
      wramWriteWordFrameUpperForAddr address := by
  unfold wramWriteWordFrameUpperForAddr
  dsimp only
  rw [moveByte_wramWriteAddrX address (by omega), moveByte_wramWriteAddrX address (by omega),
    moveByte_wramWriteAddrX address (by omega)]

theorem findAddress_encode (encode : BitVec 32 → BitVec 64) {count : Nat} {cmd : BitVec 64}
    {address : BitVec 32} (hlt : address.toNat < count) (hencode : encode address = cmd) :
    ∃ found, findAddress encode count cmd = some found ∧ encode found = cmd ∧
      found.toNat < count := by
  have hmem : address ∈ (List.range count).map (BitVec.ofNat 32) :=
    List.mem_map.mpr ⟨address.toNat, List.mem_range.mpr hlt, by simp⟩
  unfold findAddress
  cases hfind : ((List.range count).map (BitVec.ofNat 32)).find?
      fun candidate => encode candidate == cmd with
  | none =>
      rw [List.find?_eq_none] at hfind
      exact absurd (beq_iff_eq.mpr hencode) (hfind address hmem)
  | some found =>
      have hmatch : (encode found == cmd) = true :=
        List.find?_some (p := fun candidate => encode candidate == cmd) hfind
      obtain ⟨index, hindex, rfl⟩ := List.mem_map.mp (List.mem_of_find?_eq_some hfind)
      refine ⟨_, rfl, beq_iff_eq.mp hmatch, ?_⟩
      rw [BitVec.toNat_ofNat]
      exact lt_of_le_of_lt (Nat.mod_le _ _) (List.mem_range.mp hindex)

theorem findAddress_none {encode : BitVec 32 → BitVec 64} {count : Nat} {cmd : BitVec 64}
    (h : ∀ address, encode address ≠ cmd) : findAddress encode count cmd = none := by
  unfold findAddress
  rw [List.find?_eq_none]
  intro candidate _
  simpa using h candidate

theorem getLsbD_of_wramAddress {address : BitVec 32} (h : address.toNat < kWramWords) {k : Nat}
    (hk : 14 ≤ k) : address.getLsbD k = false := by
  have hlt : address.toNat < 2 ^ k :=
    lt_of_lt_of_le (show address.toNat < 2 ^ 14 from h) (Nat.pow_le_pow_right (by omega) hk)
  exact Nat.testBit_lt_two_pow hlt

theorem decodeWramWriteWordStructure_encode {address : BitVec 32}
    (h : address.toNat < kWramWords) :
    ∃ found, decodeWramWriteWordStructure (wramWriteWordStructureForAddr address) =
        some (found.setWidth 16) ∧
      ∀ k, 5 ≤ k → (found : BitVec 32).getLsbD k = address.getLsbD k := by
  obtain ⟨found, hfound, hencode, hlt⟩ :=
    findAddress_encode wramWriteWordStructureForAddr h rfl
  refine ⟨found, by rw [decodeWramWriteWordStructure, hfound]; rfl, ?_⟩
  intro k hk
  by_cases hhigh : k < 14
  · rw [← structure_getLsbD found hk hhigh, hencode, structure_getLsbD address hk hhigh]
  · rw [getLsbD_of_wramAddress hlt (by omega), getLsbD_of_wramAddress h (by omega)]

theorem decodeWramReadWordFrame_encode {address : BitVec 32} (h : address.toNat < kWramWords) :
    decodeWramReadWordFrame (wramReadWordFrameForAddr address) = some address := by
  obtain ⟨found, hfound, hencode, hlt⟩ :=
    findAddress_encode wramReadWordFrameForAddr h rfl
  have heq : found = address := by
    apply BitVec.eq_of_getLsbD_eq
    intro k _
    by_cases hk : k < 14
    · rw [← read_getLsbD found hk, hencode, read_getLsbD address hk]
    · rw [getLsbD_of_wramAddress hlt (by omega), getLsbD_of_wramAddress h (by omega)]
  rw [decodeWramReadWordFrame, hfound, heq]

/-- A frame that writes `data`. -/
def wramWriteWordFrame (address data : BitVec 32) : BitVec 64 :=
  wramWriteWordFrameUpperForAddr address ||| data.setWidth 64

theorem frame_getLsbD_data (address : BitVec 32) {i : Nat} (hi : i < 32) :
    (wramWriteWordFrameUpperForAddr address).getLsbD i = false := by
  have hconst : ∀ j, j < 32 → (0x3300000000000000 : BitVec 64).getLsbD j = false := by decide
  have hlow : i < 64 := by omega
  unfold wramWriteWordFrameUpperForAddr
  simp only [BitVec.getLsbD_or, moveByte_getLsbD _ _ _ hlow, hconst i hi]
  rw [if_neg (by omega), if_neg (by omega), if_neg (by omega)]
  rfl

theorem wramWriteWordFrame_key (address data : BitVec 32) :
    wramWriteWordFrame address data &&& 0xFFFFFFFF00000000 =
      wramWriteWordFrameUpperForAddr address := by
  have hmask : ∀ j, j < 64 → (0xFFFFFFFF00000000 : BitVec 64).getLsbD j = decide (32 ≤ j) := by
    decide
  apply BitVec.eq_of_getLsbD_eq
  intro i hi
  unfold wramWriteWordFrame
  rw [BitVec.getLsbD_and, BitVec.getLsbD_or, hmask i hi, BitVec.getLsbD_setWidth]
  by_cases hlow : i < 32
  · simp [hlow, frame_getLsbD_data address hlow]
  · have hdata : data.getLsbD i = false := BitVec.getLsbD_of_ge _ _ (by omega)
    rw [hdata, Bool.and_false, Bool.or_false, decide_eq_true (show 32 ≤ i by omega),
      Bool.and_true]

theorem wramWriteWordFrame_data (address data : BitVec 32) :
    (wramWriteWordFrame address data).setWidth 32 = data := by
  apply BitVec.eq_of_getLsbD_eq
  intro i hi
  unfold wramWriteWordFrame
  rw [BitVec.getLsbD_setWidth, BitVec.getLsbD_or, frame_getLsbD_data address hi,
    BitVec.getLsbD_setWidth, decide_eq_true hi, decide_eq_true (show i < 64 by omega)]
  rfl

/-- The frame gives the low bits of the address. -/
theorem decodeWramWriteWordFrameLow5_encode (address data : BitVec 32) :
    ∃ found, decodeWramWriteWordFrameLow5 (wramWriteWordFrame address data) =
        some (found.setWidth 8) ∧
      ∀ k, (found : BitVec 32).getLsbD k = (decide (k < 5) && address.getLsbD k) := by
  have hlt : (address &&& 0x1F).toNat < 32 := by
    rw [BitVec.toNat_and]
    exact Nat.lt_of_le_of_lt Nat.and_le_right (by decide)
  obtain ⟨found, hfound, hencode, hrange⟩ :=
    findAddress_encode wramWriteWordFrameUpperForAddr hlt (frame_of_low address)
  refine ⟨found, ?_, fun k => ?_⟩
  · rw [decodeWramWriteWordFrameLow5, wramWriteWordFrame_key, hfound]
    rfl
  · by_cases hk : k < 5
    · rw [← frame_getLsbD found hk, hencode, frame_getLsbD address hk]
      simp [hk]
    · have hzero : found.getLsbD k = false := Nat.testBit_lt_two_pow
        (lt_of_lt_of_le (show found.toNat < 2 ^ 5 from hrange)
          (Nat.pow_le_pow_right (by omega) (by omega)))
      simp [hk, hzero]

theorem address_of_parts {address high low : BitVec 32} (h : address.toNat < kWramWords)
    (hhigh : ∀ k, 5 ≤ k → high.getLsbD k = address.getLsbD k)
    (hlow : ∀ k, low.getLsbD k = (decide (k < 5) && address.getLsbD k)) :
    ((high.setWidth 16 &&& ~~~0x1F) ||| (low.setWidth 8).setWidth 16 : BitVec 16).setWidth 32 =
      address := by
  have hmask : ∀ j, j < 16 → (~~~(0x1F : BitVec 16)).getLsbD j = decide (5 ≤ j) := by decide
  apply BitVec.eq_of_getLsbD_eq
  intro k hk
  by_cases hwidth : k < 16
  · simp only [BitVec.getLsbD_setWidth, BitVec.getLsbD_or, BitVec.getLsbD_and, hmask k hwidth,
      hlow, hk, hwidth, decide_true, Bool.true_and]
    by_cases hfive : k < 5
    · simp [hfive, show ¬5 ≤ k by omega, show k < 8 by omega]
    · simp [hfive, hhigh k (by omega), show 5 ≤ k by omega]
  · rw [getLsbD_of_wramAddress h (by omega), BitVec.getLsbD_setWidth]
    exact Bool.and_eq_false_imp.mpr fun _ => BitVec.getLsbD_of_ge _ _ (by omega)

theorem Wram.wordInBounds_of_lt {address : BitVec 32} (h : address.toNat < kWramWords) :
    Wram.wordInBounds address = true ∧ (address * 4).toNat = address.toNat * 4 ∧
      Wram.relInBounds (address * 4) 4 = true := by
  have hlt : address.toNat < 16384 := h
  have hoffset : (address * 4).toNat = address.toNat * 4 := by
    rw [BitVec.toNat_mul]
    exact Nat.mod_eq_of_lt (show address.toNat * 4 < 2 ^ 32 by omega)
  refine ⟨?_, hoffset, ?_⟩
  · exact decide_eq_true (show address.toNat * 4 + 4 ≤ 65536 by omega)
  · simp only [Wram.relInBounds, hoffset, kWRAMSizeBytes, Bool.and_eq_true, decide_eq_true_eq]
    omega

theorem Wram.writeWord_eq (wram : Wram) {address : BitVec 32} (h : address.toNat < kWramWords)
    (data : BitVec 32) (i : Nat) :
    wram.writeWord address data i =
      if address.toNat * 4 ≤ i ∧ i < address.toNat * 4 + 4 then
        (data.setWidth 64 >>> ((i - address.toNat * 4) * 8)).setWidth 8
      else wram i := by
  obtain ⟨hword, hoffset, hrel⟩ := Wram.wordInBounds_of_lt h
  simp only [Wram.writeWord, hword, Wram.storeU32, hrel, if_true, Wram.copyIn, hoffset,
    Bool.false_eq_true, if_false]

theorem Wram.readWord_eq (wram : Wram) {address : BitVec 32} (h : address.toNat < kWramWords) :
    wram.readWord address =
      (loadBytes (fun i => wram (address.toNat * 4 + i)) 4).setWidth 32 := by
  obtain ⟨hword, hoffset, hrel⟩ := Wram.wordInBounds_of_lt h
  simp only [Wram.readWord, hword, Wram.loadU32, hrel, if_true, Wram.copyOut, hoffset,
    Bool.not_true, Bool.false_eq_true, if_false]

theorem Wram.readWord_writeWord (wram : Wram) {address : BitVec 32}
    (h : address.toNat < kWramWords) (data : BitVec 32) :
    (wram.writeWord address data).readWord address = data := by
  rw [Wram.readWord_eq _ h]
  apply BitVec.eq_of_getLsbD_eq
  intro k hk
  rw [BitVec.getLsbD_setWidth, getLsbD_loadBytes _ (by omega) (by omega),
    Wram.writeWord_eq wram h, if_pos (by omega)]
  have hbyte : address.toNat * 4 + k / 8 - address.toNat * 4 = k / 8 := by omega
  have hindex : k / 8 * 8 + k % 8 = k := by omega
  rw [hbyte, BitVec.getLsbD_setWidth, BitVec.getLsbD_ushiftRight, hindex,
    BitVec.getLsbD_setWidth, decide_eq_true hk, decide_eq_true (show k % 8 < 8 by omega),
    decide_eq_true (show k < 64 by omega)]
  rfl

theorem Wram.readWord_writeWord_of_ne (wram : Wram) {address other : BitVec 32}
    (h : address.toNat < kWramWords) (hother : other.toNat < kWramWords) (hne : other ≠ address)
    (data : BitVec 32) :
    (wram.writeWord address data).readWord other = wram.readWord other := by
  have hne' : other.toNat ≠ address.toNat := fun heq => hne (BitVec.eq_of_toNat_eq heq)
  rw [Wram.readWord_eq _ hother, Wram.readWord_eq _ hother]
  congr 1
  rw [loadBytes_eq_iff (by omega)]
  intro i hi
  rw [Wram.writeWord_eq wram h, if_neg (by omega)]

theorem byte_moveByte (x : BitVec 64) (source : Nat) {target shift : Nat} (hshift : shift ≤ 56)
    (hapart : shift + 8 ≤ target * 8 ∨ target * 8 + 8 ≤ shift) :
    byte (moveByte x source target) shift = 0 := by
  apply BitVec.eq_of_getLsbD_eq
  intro i hi
  unfold byte
  rw [BitVec.getLsbD_setWidth, BitVec.getLsbD_ushiftRight, moveByte_getLsbD _ _ _ (by omega),
    if_neg (by omega)]
  simp

theorem byte_data (data : BitVec 32) {shift : Nat} (hshift : 32 ≤ shift) :
    byte (data.setWidth 64) shift = 0 := by
  apply BitVec.eq_of_getLsbD_eq
  intro i hi
  have hzero : data.getLsbD (shift + i) = false := BitVec.getLsbD_of_ge _ _ (by omega)
  unfold byte
  rw [BitVec.getLsbD_setWidth, BitVec.getLsbD_ushiftRight, BitVec.getLsbD_setWidth, hzero]
  simp

theorem structure_bytes (address : BitVec 32) :
    byte (wramWriteWordStructureForAddr address) 56 = 0x11 ∧
      byte (wramWriteWordStructureForAddr address) 8 = 0x03 := by
  unfold wramWriteWordStructureForAddr
  constructor
  · simp (disch := decide) only [byte_or, byte_moveByte]
    decide
  · simp (disch := decide) only [byte_or, byte_moveByte]
    decide

theorem frame_opcode (address data : BitVec 32) :
    byte (wramWriteWordFrame address data) 56 = 0x33 := by
  unfold wramWriteWordFrame wramWriteWordFrameUpperForAddr
  simp (disch := decide) only [byte_or, byte_moveByte, byte_data]
  decide

theorem encodeFrameFromX_bytes (x : BitVec 64) (tag : BitVec 8) :
    byte (encodeFrameFromX x tag) 56 = 0x33 ∧ byte (encodeFrameFromX x tag) 48 = tag := by
  have htag : byte (tag.setWidth 64 <<< 48) 56 = 0 ∧ byte (tag.setWidth 64 <<< 48) 48 = tag := by
    constructor
    · apply BitVec.eq_of_getLsbD_eq
      intro i hi
      have hzero : tag.getLsbD (56 + i - 48) = false := BitVec.getLsbD_of_ge _ _ (by omega)
      unfold byte
      simp [hzero]
    · apply BitVec.eq_of_getLsbD_eq
      intro i hi
      unfold byte
      simp [hi, show i < 64 by omega, show 48 + i < 64 by omega]
  unfold encodeFrameFromX
  constructor
  · simp (disch := decide) only [byte_or, byte_moveByte, htag.1]
    decide
  · have hconst : byte 0x3300000000000000 48 = 0 := by decide
    simp (disch := decide) only [byte_or, byte_moveByte, htag.2]
    exact (congrArg (· ||| 0 ||| 0 ||| 0 ||| 0 ||| 0 ||| 0 ||| tag) hconst).trans (by simp)

theorem read_not_threadCommand (address : BitVec 32) (mask : BitVec 8) :
    isThreadCommandWord (wramReadWordFrameForAddr address) mask = false := by
  have hnone : decodeThreadCommand (wramReadWordFrameForAddr address) = none := by
    unfold decodeThreadCommand
    rw [List.find?_eq_none]
    intro row _ hrow
    have htag := congrArg (byte · 48) (beq_iff_eq.mp hrow)
    simp only [threadCmdCache, threadFrameCommand, wramReadWordFrameForAddr_eq,
      (encodeFrameFromX_bytes _ _).2] at htag
    exact absurd htag (by decide)
  simp [isThreadCommandWord, hnone]

theorem firstSelectedDpu_spec {mask : BitVec 8} (h : mask ≠ 0) :
    firstSelectedDpu mask < kChipNumDpus ∧ mask.getLsbD (firstSelectedDpu mask) = true := by
  obtain ⟨i, hi, hbit⟩ := (mask_ne_zero_iff mask).mp h
  unfold firstSelectedDpu
  cases hfind : (List.range kChipNumDpus).find? fun dpu => mask.getLsbD dpu with
  | none =>
      rw [List.find?_eq_none] at hfind
      exact absurd hbit (hfind i (List.mem_range.mpr hi))
  | some dpu =>
      exact ⟨List.mem_range.mp (List.mem_of_find?_eq_some hfind),
        List.find?_some (p := fun dpu => mask.getLsbD dpu) hfind⟩

section
variable (decodeRawWord48 : BitVec 64 → RawDecoded48) (invokes : Nat → Bool)

theorem propagateFrame_wram (chip : Chip)
    (hiram : chip.state.iramWriteStructureValid = false)
    (hwram : chip.state.wramWriteStructureValid = true) (word : BitVec 64) :
    propagateFrame decodeRawWord48 invokes chip word = writeWramPayload chip word := by
  unfold propagateFrame
  dsimp only
  rw [if_neg (by simp [hiram]), if_pos hwram]

theorem propagateFrame_command (chip : Chip) (hlatched : chip.state.latched = false)
    {word : BitVec 64} (htag : byte word 48 ∉ [0x00, 0xA7, 0xA4, (0xA6 : BitVec 8)]) :
    propagateFrame decodeRawWord48 invokes chip word =
      commandFrame decodeRawWord48 invokes chip word := by
  obtain ⟨hiram, hwram⟩ := Bool.or_eq_false_iff.mp hlatched
  simp only [List.mem_cons, List.not_mem_nil, or_false, not_or] at htag
  obtain ⟨hzero, hdma, hmode⟩ := htag
  unfold propagateFrame
  dsimp only
  rw [if_neg (by simp [hiram]), if_neg (by simp [hwram]), if_neg hzero, if_neg hdma,
    if_neg (not_or.mpr hmode)]

theorem latchStructure_write (chip : Chip) {address : BitVec 32}
    (h : address.toNat < kWramWords) :
    ∃ high, (∀ k, 5 ≤ k → (high : BitVec 32).getLsbD k = address.getLsbD k) ∧
      (latchStructure chip (wramWriteWordStructureForAddr address)).state.iramWriteStructureValid
        = false ∧
      (latchStructure chip (wramWriteWordStructureForAddr address)).state.wramWriteStructureValid
        = true ∧
      (latchStructure chip (wramWriteWordStructureForAddr address)).state.wramWriteAddr =
        high.setWidth 16 := by
  obtain ⟨high, hstructure, hhigh⟩ := decodeWramWriteWordStructure_encode h
  have hiram : decodeIramWriteStructure (wramWriteWordStructureForAddr address) = none := by
    simp [decodeIramWriteStructure, (structure_bytes address).2]
  refine ⟨high, hhigh, ?_⟩
  unfold latchStructure
  rw [hiram, hstructure]
  exact ⟨rfl, rfl, rfl⟩

theorem write_word {chip : Chip} (hpopulated : chip.populated = true) {address : BitVec 32}
    (h : address.toNat < kWramWords) (data : BitVec 32) :
    ∃ written, propagateCi decodeRawWord48 invokes
        (propagateCi decodeRawWord48 invokes chip (wramWriteWordStructureForAddr address))
        (wramWriteWordFrame address data) = written ∧
      written.populated = true ∧ written.state.selectedMask = chip.state.selectedMask ∧
      ∀ i, written.dpus i = if chip.state.selectedMask.getLsbD i then
        { chip.dpus i with wram := (chip.dpus i).wram.writeWord address data }
        else chip.dpus i := by
  obtain ⟨high, hhigh, hiram, hwram, haddr⟩ :=
    latchStructure_write (chip.setCommitted (wramWriteWordStructureForAddr address)) h
  obtain ⟨low, hframe, hlow⟩ := decodeWramWriteWordFrameLow5_encode address data
  refine ⟨_, rfl, ?_⟩
  rw [propagateCi_structure decodeRawWord48 invokes hpopulated (structure_bytes address).1]
  generalize hlatched : latchStructure (chip.setCommitted (wramWriteWordStructureForAddr address))
    (wramWriteWordStructureForAddr address) = latched at hiram hwram haddr ⊢
  have hkept : latched.populated = true ∧
      latched.state.selectedMask = chip.state.selectedMask ∧ latched.dpus = chip.dpus := by
    subst hlatched
    exact ⟨hpopulated, rfl, rfl⟩
  rw [propagateCi_payload decodeRawWord48 invokes hkept.1 (frame_opcode address data)]
  rw [propagateFrame_wram decodeRawWord48 invokes
    (latched.setCommitted (wramWriteWordFrame address data)) hiram hwram]
  refine ⟨hkept.1, hkept.2.1, fun i => ?_⟩
  simp only [writeWramPayload, hframe, haddr, address_of_parts h hhigh hlow, Chip.publish,
    Chip.mapDpus, Chip.setCommitted, hkept.2.1, hkept.2.2, wramWriteWordFrame_data]

theorem latchStructure_other (chip : Chip) {word : BitVec 64}
    (hiram : decodeIramWriteStructure word = none)
    (hwram : decodeWramWriteWordStructure word = none) :
    (latchStructure chip word).state.latched = false := by
  unfold latchStructure
  rw [hiram, hwram]
  rfl

theorem read_word {chip : Chip} (hpopulated : chip.populated = true)
    (hlatched : chip.state.latched = false) (hselected : chip.state.selectedMask ≠ 0)
    {address : BitVec 32} (h : address.toNat < kWramWords) :
    propagateCi decodeRawWord48 invokes chip (wramReadWordFrameForAddr address) =
      (chip.setCommitted (wramReadWordFrameForAddr address)).publish
        ((chip.dpus (firstSelectedDpu chip.state.selectedMask)).wram.readWord address) false := by
  obtain ⟨hopcode, htag⟩ : byte (wramReadWordFrameForAddr address) 56 = 0x33 ∧
      byte (wramReadWordFrameForAddr address) 48 = 0x99 := encodeFrameFromX_bytes _ _
  have hcommand : byte (wramReadWordFrameForAddr address) 48 ∉
      [0x00, 0xA7, 0xA4, (0xA6 : BitVec 8)] := by
    rw [htag]
    decide
  rw [propagateCi_payload decodeRawWord48 invokes hpopulated hopcode,
    propagateFrame_command decodeRawWord48 invokes
      (chip.setCommitted (wramReadWordFrameForAddr address)) hlatched hcommand]
  unfold commandFrame
  dsimp only
  rw [read_not_threadCommand, if_neg Bool.false_ne_true, htag, if_pos rfl,
    decodeWramReadWordFrame_encode h]
  have hfirst : ¬firstSelectedDpu chip.state.selectedMask ≥ kChipNumDpus :=
    Nat.not_le.mpr (firstSelectedDpu_spec hselected).1
  exact congrArg (Chip.publish _ · false) (if_neg hfirst)

/-- A word that is written reads back, in every state of a chip that has its regions;
both callers of `propagate_ci` come through those. -/
theorem wram_round_trip (chip : Chip) (hpopulated : chip.populated = true)
    (address data : BitVec 32) (h : address.toNat < kWramWords) :
    let written := propagateCi decodeRawWord48 invokes
      (propagateCi decodeRawWord48 invokes chip (wramWriteWordStructureForAddr address))
      (wramWriteWordFrameUpperForAddr address ||| data.setWidth 64)
    (∀ i, chip.state.selectedMask.getLsbD i = true →
      (written.dpus i).wram.readWord address = data ∧
        (∀ other, other.toNat < kWramWords → other ≠ address →
          (written.dpus i).wram.readWord other = (chip.dpus i).wram.readWord other) ∧
        { written.dpus i with wram := (chip.dpus i).wram } = chip.dpus i) ∧
    (∀ i, chip.state.selectedMask.getLsbD i = false → written.dpus i = chip.dpus i) ∧
    ∀ word, byte word 56 = 0x11 → decodeIramWriteStructure word = none →
      decodeWramWriteWordStructure word = none → chip.state.selectedMask ≠ 0 →
      (propagateCi decodeRawWord48 invokes (propagateCi decodeRawWord48 invokes written word)
        (wramReadWordFrameForAddr address)).state.dispatchedPayload = data := by
  obtain ⟨written, hwritten, hstill, hmask, hdpus⟩ :=
    write_word decodeRawWord48 invokes hpopulated h data
  have hword : propagateCi decodeRawWord48 invokes
      (propagateCi decodeRawWord48 invokes chip (wramWriteWordStructureForAddr address))
      (wramWriteWordFrameUpperForAddr address ||| data.setWidth 64) = written := hwritten
  rw [hword]
  refine ⟨fun i hi => ?_, fun i hi => ?_, fun word hop hiram hwram hselected => ?_⟩
  · rw [hdpus i, if_pos hi]
    refine ⟨Wram.readWord_writeWord _ h data, fun other hother hne => ?_, rfl⟩
    exact Wram.readWord_writeWord_of_ne _ h hother hne data
  · rw [hdpus i, hi]
    rfl
  · have hfirst := (firstSelectedDpu_spec hselected).2
    rw [propagateCi_structure decodeRawWord48 invokes hstill hop]
    generalize hother : latchStructure (written.setCommitted word) word = latched
    have hkept : latched.populated = true ∧
        latched.state.selectedMask = chip.state.selectedMask ∧ latched.dpus = written.dpus ∧
        latched.state.latched = false := by
      subst hother
      exact ⟨hstill, hmask, rfl, latchStructure_other _ hiram hwram⟩
    rw [read_word decodeRawWord48 invokes hkept.1 hkept.2.2.2 (by rw [hkept.2.1]; exact hselected)
      h, hkept.2.1, hkept.2.2.1, hdpus, if_pos hfirst]
    exact Wram.readWord_writeWord _ h data

end

/-- The words of opcode 0x11 whose second byte is not 0x03 are no structure of a
WRAM write. -/
theorem decodeWramWriteWordStructure_none {word : BitVec 64} (h : byte word 8 ≠ 0x03) :
    decodeWramWriteWordStructure word = none := by
  have hnone : findAddress wramWriteWordStructureForAddr kWramWords word = none := by
    apply findAddress_none
    rintro address rfl
    exact h (structure_bytes address).2
  rw [decodeWramWriteWordStructure, hnone]
  rfl

def selectingChip : Chip where
  state := { CIState.powerOn with selectedMask := 0x0A }
  populated := true
  reply := 0
  dpus := fun _ => .powerOn
  submitted := []

theorem wram_round_trip_selectingChip :
    let written := propagateCi (fun _ => .empty) (fun _ => true)
      (propagateCi (fun _ => .empty) (fun _ => true) selectingChip
        (wramWriteWordStructureForAddr 0x1234))
      (wramWriteWordFrameUpperForAddr 0x1234 ||| (0xCAFEF00D : BitVec 32).setWidth 64)
    (written.dpus 3).wram.readWord 0x1234 = 0xCAFEF00D ∧
      written.dpus 2 = selectingChip.dpus 2 ∧
      (propagateCi (fun _ => .empty) (fun _ => true)
        (propagateCi (fun _ => .empty) (fun _ => true) written 0x1100000000000000)
        (wramReadWordFrameForAddr 0x1234)).state.dispatchedPayload = 0xCAFEF00D := by
  obtain ⟨hselected, hother, hread⟩ := wram_round_trip (fun _ => .empty) (fun _ => true)
    selectingChip rfl 0x1234 0xCAFEF00D (by decide)
  exact ⟨(hselected 3 (by decide)).1, hother 2 (by decide),
    hread 0x1100000000000000 (by decide) (by decide)
      (decodeWramWriteWordStructure_none (by decide)) (by decide)⟩

end HostPimSim.Upmem
