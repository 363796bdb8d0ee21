import HostPimSim.Core.Layout
import HostPimSim.Lib.ByteMemory
import HostPimSim.Lib.Transducer

/-! The memory of a device out of SIGSEGV mode, as its users see it.  Each region is a file of
bytes of its own, from its creation until it is freed, whatever is done to the other regions. -/
namespace HostPimSim.Core.Access
open Register Pool HostPimSim.Core.Topology Transition Spans ByteMemory

def readSizedValue (d : Device) (region : Region) (offset size : Nat) :
    Except PimError (BitVec 64) :=
  if !pimIsSupportedAccessSize size then .error .invalidArg
  else match getTypedRegionPtr region offset size with
    | none => .error .invalidArg
    | some source => .ok (loadBytes (bytesAt d.memory source) size)

def pimRead : Device → Region → Nat → Nat → Except PimError (BitVec 64) := readSizedValue

def pimMemcpyFrom (d : Device) (region : Region) (offset size : Nat) :
    Except PimError (List Byte) :=
  match getRegionBytePtr region offset size with
  | none => .error .invalidArg
  | some source => .ok (readBytes d.memory source size)

inductive Reply where
  | error (error : PimError)
  | value (value : BitVec 64)
  | bytes (bytes : List Byte)
  deriving DecidableEq

def Reply.ofExcept {α : Type} (ok : α → Reply) : Except PimError α → Reply
  | .error e => .error e
  | .ok a => ok a

inductive RegionCall where
  | write (call : RegionWrite)
  | read (offset size : Nat)
  | memcpyFrom (offset size : Nat)

def RegionCall.perform (d : Device) (region : Region) : RegionCall → Device × Reply
  | .write call => ((call.perform d region).2, .error (call.perform d region).1)
  | .read offset size => (d, .ofExcept .value (pimRead d region offset size))
  | .memcpyFrom offset size => (d, .ofExcept .bytes (pimMemcpyFrom d region offset size))

/-- A call on the memory of a region, or any other call on the device. -/
inductive Use where
  | memory (region : Nat) (call : RegionCall)
  | other (call : Call)

/-- The results of the other calls are left out: `Topology` has them.  The device is not put into
SIGSEGV mode, where a store to a write-protected page is not applied. -/
def answer (d : Device) : Use → Option (Device × Reply)
  | .memory region call => (d.topology.region? region).map fun r => call.perform d r
  | .other (.write ..) | .other (.topology (.setSigsegvEnabled _)) => none
  | .other call => (step d call).map fun after => (after, .error .success)

def Use.on (region : Nat) : Use → Option RegionCall
  | .memory r call => if r = region then some call else none
  | .other _ => none

abbrev RegionFile := List Byte

/-- The size is that of an integer type, and the place is one where it may lie. -/
def RegionFile.takes (file : RegionFile) (offset size : Nat) : Bool :=
  pimIsSupportedAccessSize size && offset % size == 0 && offset + size ≤ file.length

def RegionFile.put (file : RegionFile) (offset : Nat) (bytes : List Byte) : RegionFile × Reply :=
  if offset + bytes.length ≤ file.length then (overwrite file offset bytes, .error .success)
  else (file, .error .invalidArg)

def RegionFile.putValue (file : RegionFile) (offset size : Nat) (value : BitVec 64) :
    RegionFile × Reply :=
  if file.takes offset size then file.put offset (leBytes size value.toNat)
  else (file, .error .invalidArg)

def RegionFile.answer (file : RegionFile) : RegionCall → RegionFile × Reply
  | .write (.write offset size value) | .write (.writeRaw offset size value) =>
      file.putValue offset size value
  | .write (.memcpyTo offset data size) => file.put offset ((List.range size).map data)
  | .write (.memset value size) => file.put 0 (List.replicate size (value.setWidth 8))
  | .read offset size =>
      (file, if file.takes offset size then
          .value (BitVec.ofNat 64 (leValue (slice file offset size)))
        else .error .invalidArg)
  | .memcpyFrom offset size =>
      (file, if offset + size ≤ file.length then .bytes (slice file offset size)
        else .error .invalidArg)

def Device.contents (d : Device) (offset size : Nat) : RegionFile :=
  readBytes d.memory offset size

theorem checkBounds_eq (region : Region) (offset size : Nat) :
    checkBounds region offset size = decide (offset + size ≤ region.size) := by
  rw [Bool.eq_iff_iff, checkBounds_iff, decide_eq_true_iff]

theorem getTypedRegionPtr_eq (region : Region) (offset size : Nat)
    (hsize : pimIsSupportedAccessSize size = true) :
    getTypedRegionPtr region offset size =
      if offset % size = 0 ∧ offset + size ≤ region.size then some (region.offset + offset)
      else none := by
  have hpos : size ≠ 0 := by
    intro hzero
    rw [hzero] at hsize
    exact absurd hsize (by decide)
  unfold getTypedRegionPtr isAligned
  rw [checkBounds_eq]
  by_cases haligned : offset % size = 0
  · by_cases hbounds : offset + size ≤ region.size <;> simp [haligned, hbounds]
  · simp [haligned, hpos]

theorem getRegionBytePtr_eq (region : Region) (offset size : Nat) :
    getRegionBytePtr region offset size =
      if offset + size ≤ region.size then some (region.offset + offset) else none := by
  unfold getRegionBytePtr
  rw [checkBounds_eq]
  by_cases hbounds : offset + size ≤ region.size <;> simp [hbounds]

theorem fill_eq (memory : Bytes) (target count : Nat) (data : Bytes) :
    fill memory target count data = writeBytes memory target ((List.range count).map data) := by
  funext address
  unfold fill writeBytes
  by_cases hbelow : target ≤ address
  · rw [if_pos hbelow]
    by_cases habove : address < target + count
    · rw [if_pos ⟨hbelow, habove⟩, List.getElem?_map, List.getElem?_range (by omega)]
      rfl
    · rw [if_neg (by omega), List.getElem?_eq_none (by simp; omega)]
      rfl
  · rw [if_neg (by omega), if_neg hbelow]

theorem map_byteOf (size : Nat) (value : BitVec 64) :
    (List.range size).map (byteOf value) = leBytes size value.toNat := by
  rw [leBytes_eq]
  apply List.map_congr_left
  intro i _
  apply BitVec.eq_of_toNat_eq
  rw [byteOf, BitVec.toNat_setWidth, BitVec.toNat_ushiftRight, BitVec.toNat_ofNat,
    Nat.shiftRight_eq_div_pow, Nat.mul_comm, Nat.pow_mul]

theorem leBytes_truncate {size : Nat} (hsize : pimIsSupportedAccessSize size = true)
    (value : BitVec 64) : leBytes size (truncate size value).toNat = leBytes size value.toNat := by
  rw [← map_byteOf, ← map_byteOf]
  apply List.map_congr_left
  intro i hi
  have hi : i < size := List.mem_range.mp hi
  have hle : size ≤ 8 := supported_le hsize
  apply BitVec.eq_of_getLsbD_eq
  intro k hk
  simp only [byteOf, truncate, BitVec.getLsbD_setWidth, BitVec.getLsbD_ushiftRight,
    BitVec.getLsbD_and]
  rw [getLsbD_pimRegisterValueMask hsize (by omega), decide_eq_true (by omega : i * 8 + k < size * 8),
    Bool.and_true]

theorem toNat_loadBytes (memory : Bytes) (source : Nat) {count : Nat} (hcount : count ≤ 8) :
    (loadBytes (bytesAt memory source) count).toNat = leValue (readBytes memory source count) := by
  induction count with
  | zero => rfl
  | succ count ih =>
      have hlt := leValue_lt (readBytes memory source count)
      have hpow : 256 ^ count = 2 ^ (count * 8) := by rw [Nat.mul_comm, Nat.pow_mul]
      rw [length_read, hpow] at hlt
      have hbyte : (memory (source + count)).toNat < 256 := BitVec.isLt _
      have hone : (memory (source + count)).toNat % 2 ^ 64 = (memory (source + count)).toNat :=
        Nat.mod_eq_of_lt (by omega)
      have hshift : (memory (source + count)).toNat <<< (count * 8) < 2 ^ 64 := by
        rw [Nat.shiftLeft_eq]
        calc (memory (source + count)).toNat * 2 ^ (count * 8)
            < 256 * 2 ^ (count * 8) := Nat.mul_lt_mul_of_pos_right hbyte (by positivity)
          _ = 256 ^ (count + 1) := by rw [← hpow, Nat.pow_succ, Nat.mul_comm]
          _ ≤ 256 ^ 8 := Nat.pow_le_pow_right (by omega) hcount
          _ = 2 ^ 64 := by decide
      rw [read_add, leValue_append, length_read, loadBytes, BitVec.toNat_or, ih (by omega),
        BitVec.toNat_shiftLeft, BitVec.toNat_setWidth, bytesAt, hone, Nat.mod_eq_of_lt hshift,
        Nat.or_comm, ← Nat.shiftLeft_add_eq_or_of_lt hlt, Nat.shiftLeft_eq, hpow, Nat.add_comm,
        Nat.mul_comm]
      rfl

theorem loadBytes_eq (memory : Bytes) (source : Nat) {size : Nat} (hsize : size ≤ 8) :
    loadBytes (bytesAt memory source) size =
      BitVec.ofNat 64 (leValue (readBytes memory source size)) := by
  rw [← toNat_loadBytes memory source hsize, BitVec.ofNat_toNat, BitVec.setWidth_eq]

/-- A call that writes: where it does so the file takes the same bytes, or both refuse it. -/
inductive Wrote (d after : Device) (region : Region) (call : RegionWrite) : PimError → Prop where
  | put {offset : Nat} {bytes : List Byte} (hbounds : offset + bytes.length ≤ region.size)
      (hmemory : after.memory = writeBytes d.memory (region.offset + offset) bytes)
      (hfile : ∀ file : RegionFile, file.length = region.size →
        file.answer (.write call) = (overwrite file offset bytes, .error .success)) :
      Wrote d after region call .success
  | refused (hmemory : after.memory = d.memory)
      (hfile : ∀ file : RegionFile, file.length = region.size →
        file.answer (.write call) = (file, .error .invalidArg)) :
      Wrote d after region call .invalidArg

theorem takes_iff {file : RegionFile} {offset size : Nat} :
    file.takes offset size = true ↔
      pimIsSupportedAccessSize size = true ∧ offset % size = 0 ∧ offset + size ≤ file.length := by
  simp [RegionFile.takes, and_assoc]

theorem putValue_eq {file : RegionFile} {size : Nat} (hsize : file.length = size)
    (offset width : Nat) (value : BitVec 64) :
    file.putValue offset width value =
      if pimIsSupportedAccessSize width = true ∧ offset % width = 0 ∧ offset + width ≤ size then
        (overwrite file offset (leBytes width value.toNat), .error .success)
      else (file, .error .invalidArg) := by
  unfold RegionFile.putValue RegionFile.put
  subst hsize
  by_cases htakes : file.takes offset width = true
  · rw [if_pos htakes, if_pos (takes_iff.mp htakes), length_leBytes,
      if_pos (takes_iff.mp htakes).2.2]
  · rw [if_neg htakes, if_neg fun h => htakes (takes_iff.mpr h)]

theorem pimRead_eq (d : Device) (region : Region) (offset size : Nat) :
    pimRead d region offset size =
      if pimIsSupportedAccessSize size = true ∧ offset % size = 0 ∧
          offset + size ≤ region.size then
        .ok (BitVec.ofNat 64 (leValue (readBytes d.memory (region.offset + offset) size)))
      else .error .invalidArg := by
  unfold pimRead readSizedValue
  by_cases hsize : pimIsSupportedAccessSize size = true
  · rw [if_neg (by simp [hsize]), getTypedRegionPtr_eq region offset size hsize]
    by_cases hplace : offset % size = 0 ∧ offset + size ≤ region.size
    · rw [if_pos hplace, if_pos ⟨hsize, hplace⟩, ← loadBytes_eq d.memory _ (supported_le hsize)]
    · rw [if_neg hplace, if_neg fun h => hplace h.2]
  · rw [if_pos (by simpa using hsize), if_neg fun h => hsize h.1]

theorem writeSizedValue_wrote (rawWrite : Bool) (d : Device) (region : Region)
    (offset size : Nat) (value : BitVec 64) {call : RegionWrite}
    (hcall : ∀ file : RegionFile, file.answer (.write call) = file.putValue offset size value) :
    Wrote d (writeSizedValue rawWrite d region offset size value).2 region call
      (writeSizedValue rawWrite d region offset size value).1 := by
  unfold writeSizedValue
  by_cases hsize : pimIsSupportedAccessSize size = true
  · rw [if_neg (by simp [hsize]), getTypedRegionPtr_eq region offset size hsize]
    by_cases hplace : offset % size = 0 ∧ offset + size ≤ region.size
    · rw [if_pos hplace]
      have hmemory : fill d.memory (region.offset + offset) size (byteOf (truncate size value)) =
          writeBytes d.memory (region.offset + offset) (leBytes size value.toNat) := by
        rw [fill_eq, map_byteOf, leBytes_truncate hsize]
      have hbounds : offset + (leBytes size value.toNat).length ≤ region.size := by
        rw [length_leBytes]
        exact hplace.2
      refine .put hbounds (Eq.trans ?_ hmemory) fun file hfile => ?_
      · cases rawWrite with
        | true => exact (writeRawAtomic_eq d region offset size _ _).1
        | false => exact (writeAndInvokeHandler_eq d region offset size _ _).1
      · rw [hcall, putValue_eq hfile, if_pos ⟨hsize, hplace⟩]
    · rw [if_neg hplace]
      refine .refused rfl fun file hfile => ?_
      rw [hcall, putValue_eq hfile, if_neg fun h => hplace h.2]
  · rw [if_pos (by simpa using hsize)]
    refine .refused rfl fun file hfile => ?_
    rw [hcall, putValue_eq hfile, if_neg fun h => hsize h.1]

theorem perform_wrote (d : Device) (region : Region) (call : RegionWrite) :
    Wrote d (call.perform d region).2 region call (call.perform d region).1 := by
  cases call with
  | write offset size value =>
      exact writeSizedValue_wrote false d region offset size value fun _ => rfl
  | writeRaw offset size value =>
      exact writeSizedValue_wrote true d region offset size value fun _ => rfl
  | memcpyTo offset data size =>
      unfold RegionWrite.perform pimMemcpyTo
      dsimp only
      rw [getRegionBytePtr_eq]
      have hlength : ((List.range size).map data).length = size := by simp
      by_cases hbounds : offset + size ≤ region.size
      · rw [if_pos hbounds]
        rw [← hlength] at hbounds
        refine .put hbounds (fill_eq d.memory (region.offset + offset) size data)
          fun file hfile => if_pos ?_
        rw [hfile]
        exact hbounds
      · rw [if_neg hbounds]
        refine .refused rfl fun file hfile => if_neg ?_
        rw [hfile, hlength]
        exact hbounds
  | memset value size =>
      unfold RegionWrite.perform pimRegionMemset
      dsimp only
      rw [getRegionBytePtr_eq]
      have hbytes : (List.range size).map (fun _ => value.setWidth 8) =
          List.replicate size (value.setWidth 8) := by simp [List.map_const']
      have hlength : (List.replicate size (value.setWidth 8 : Byte)).length = size := by simp
      by_cases hbounds : 0 + size ≤ region.size
      · rw [if_pos hbounds]
        rw [← hlength] at hbounds
        have hmemory := fill_eq d.memory (region.offset + 0) size fun _ => value.setWidth 8
        rw [hbytes] at hmemory
        refine .put hbounds hmemory fun file hfile => if_pos ?_
        rw [hfile]
        exact hbounds
      · rw [if_neg hbounds]
        refine .refused rfl fun file hfile => if_neg ?_
        rw [hfile, hlength]
        exact hbounds

theorem perform_file (d : Device) (region : Region) (call : RegionCall) :
    RegionFile.answer (d.contents region.offset region.size) call =
      ((call.perform d region).1.contents region.offset region.size,
        (call.perform d region).2) := by
  have hlength : (d.contents region.offset region.size).length = region.size := length_read
  cases call with
  | write call =>
      unfold RegionCall.perform Device.contents
      dsimp only
      have hwrote := perform_wrote d region call
      generalize (call.perform d region).1 = error at hwrote ⊢
      cases hwrote with
      | put hbounds hmemory hfile =>
          rw [hmemory, read_write_inside hbounds]
          exact hfile _ hlength
      | refused hmemory hfile =>
          rw [hmemory]
          exact hfile _ hlength
  | read offset size =>
      unfold RegionFile.answer RegionCall.perform
      dsimp only
      rw [pimRead_eq]
      by_cases htakes : (d.contents region.offset region.size).takes offset size = true
      · have hplace := takes_iff.mp htakes
        rw [hlength] at hplace
        rw [if_pos htakes, if_pos hplace, Device.contents, slice_read hplace.2.2]
        rfl
      · rw [if_neg htakes, if_neg fun h => htakes (takes_iff.mpr (hlength.symm ▸ h))]
        rfl
  | memcpyFrom offset size =>
      unfold RegionFile.answer RegionCall.perform pimMemcpyFrom
      dsimp only
      rw [hlength, getRegionBytePtr_eq]
      by_cases hbounds : offset + size ≤ region.size
      · rw [if_pos hbounds, if_pos hbounds, Device.contents, slice_read hbounds]
        rfl
      · rw [if_neg hbounds, if_neg hbounds]
        rfl

theorem perform_contents_apart (d : Device) (region : Region) (call : RegionCall)
    {offset size : Nat}
    (hapart : offset + size ≤ region.offset ∨ region.offset + region.size ≤ offset) :
    (call.perform d region).1.contents offset size = d.contents offset size := by
  cases call with
  | write call =>
      unfold RegionCall.perform Device.contents
      dsimp only
      have hwrote := perform_wrote d region call
      generalize (call.perform d region).1 = error at hwrote ⊢
      cases hwrote with
      | put hbounds hmemory _ =>
          rw [hmemory]
          exact read_write_outside (by omega)
      | refused hmemory _ => rw [hmemory]
  | read offset size | memcpyFrom offset size => rfl

end HostPimSim.Core.Access

namespace HostPimSim.Core.Topology
open Register Pool Spans

def State.place (s : State) (id : Nat) : Option (Nat × Nat) :=
  (s.region? id).map fun r => (r.offset, r.size)

/-- A region stays where it is as long as it is there, and its handle is not used again. -/
structure Keeps (s t : State) : Prop where
  next : s.nextRegion ≤ t.nextRegion
  places : ∀ id < s.nextRegion, t.place id = s.place id ∨ t.place id = none

theorem Keeps.of_regions {s t : State} (hregions : t.regions = s.regions)
    (hnext : t.nextRegion = s.nextRegion) : Keeps s t := by
  refine ⟨Nat.le_of_eq hnext.symm, fun id _ => .inl ?_⟩
  unfold State.place State.region?
  rw [hregions]

theorem region?_eq_some_iff {s : State} (h : Laid s) {id : Nat} {r : Region} :
    s.region? id = some r ↔ r ∈ s.regions ∧ r.id = id := by
  constructor
  · exact region?_some
  · rintro ⟨hmem, hid⟩
    cases hfound : s.region? id with
    | none =>
        unfold State.region? at hfound
        have hnone := List.find?_eq_none.mp hfound r hmem
        exact absurd hid (by simpa using hnone)
    | some found =>
        obtain ⟨hfoundmem, hfoundid⟩ := region?_some hfound
        rw [h.eq_of_id hfoundmem hmem (hfoundid.trans hid.symm)]

theorem Keeps.of_mem {s t : State} (hs : Laid s) (hnext : s.nextRegion ≤ t.nextRegion)
    (hmem : ∀ r ∈ t.regions, r.id < s.nextRegion →
      ∃ old ∈ s.regions, old.id = r.id ∧ old.offset = r.offset ∧ old.size = r.size) :
    Keeps s t := by
  refine ⟨hnext, fun id hid => ?_⟩
  unfold State.place
  cases hfound : t.region? id with
  | none => exact .inr rfl
  | some r =>
      left
      obtain ⟨hr, rfl⟩ := region?_some hfound
      obtain ⟨old, hold, holdid, hoffset, hsize⟩ := hmem r hr hid
      rw [(region?_eq_some_iff hs).mpr ⟨hold, holdid⟩, Option.map_some, Option.map_some, hoffset,
        hsize]

theorem Keeps.setRegion {s : State} (h : Laid s) {region changed : Region}
    (hmem : region ∈ s.regions) (hid : changed.id = region.id)
    (hoffset : changed.offset = region.offset) (hsize : changed.size = region.size) :
    Keeps s (s.setRegion changed) := by
  have hnext : s.nextRegion ≤ (s.setRegion changed).nextRegion := Nat.le_refl _
  apply Keeps.of_mem h hnext
  intro r hr _
  obtain ⟨old, hold, rfl⟩ := List.mem_map.mp hr
  split
  · exact ⟨region, hmem, hid.symm, hoffset.symm, hsize.symm⟩
  · exact ⟨old, hold, rfl, rfl, rfl⟩

theorem Keeps.setTable {s : State} (h : Laid s) {region : Region} (hmem : region ∈ s.regions)
    (depth : BitVec 32) (table : List DpuHandlerEntry) :
    Keeps s (s.setRegion (region.setTable depth table)) := by
  obtain ⟨hid, hoffset, hsize⟩ := setTable_place region depth table
  exact .setRegion h hmem hid hoffset hsize

theorem pimRegionCreate_keeps {s : State} (h : Laid s) (offset size : Nat) (type : RegionType)
    (allocated : Bool) : Keeps s (pimRegionCreate s offset size type allocated).2 := by
  unfold pimRegionCreate
  split_ifs
  case neg =>
    apply Keeps.of_mem h (Nat.le_succ _)
    intro r hr hid
    have hr' : r = ⟨s.nextRegion, offset, size, type, [], []⟩ ∨ r ∈ s.regions := mem_insert.mp hr
    cases hr' with
    | inl hnew =>
        rw [hnew] at hid
        exact absurd hid (Nat.lt_irrefl _)
    | inr hold => exact ⟨r, hold, rfl, rfl, rfl⟩
  all_goals exact .of_regions rfl rfl

theorem pimRegionFree_keeps {s : State} (h : Laid s) (region : Region) :
    Keeps s (pimRegionFree s region).2 := by
  unfold pimRegionFree
  split
  · exact .of_regions rfl rfl
  · split
    · exact .of_regions rfl rfl
    · split
      · exact .of_regions rfl rfl
      · exact .of_mem h (Nat.le_refl _) fun r hr _ =>
          ⟨r, List.eraseP_sublist.subset hr, rfl, rfl, rfl⟩

theorem pimRegisterDpuHandler_keeps {s : State} (h : Laid s) {region : Region}
    (hmem : region ∈ s.regions) (offset : Nat) (depth : BitVec 32)
    (registerSize handler userData : Nat) (bytes : Bytes) (inserted : Bool) :
    Keeps s (pimRegisterDpuHandler s region offset depth registerSize handler userData bytes
      inserted).2 := by
  rcases pimRegisterDpuHandler_cases s region offset depth registerSize handler userData bytes
    inserted with ⟨error, _, heq⟩ | ⟨_, _, _, _, _, heq⟩
  · rw [heq]
    exact .of_regions rfl rfl
  · rw [heq]
    exact .setTable h hmem depth _

theorem step_keeps {s t : State} {action : Action} (h : Laid s)
    (hstep : step s action = some t) : Keeps s t := by
  cases action with
  | regionCreate offset size type allocated =>
      cases hstep
      exact pimRegionCreate_keeps h offset size type allocated
  | regionFree region =>
      obtain ⟨r, _, rfl⟩ := Option.map_eq_some_iff.mp hstep
      exact pimRegionFree_keeps h r
  | registerDpuHandler region offset depth registerSize handler userData bytes inserted =>
      obtain ⟨r, hr, rfl⟩ := Option.map_eq_some_iff.mp hstep
      exact pimRegisterDpuHandler_keeps h (region?_some hr).1 offset depth registerSize handler
        userData bytes inserted
  | unregisterDpuHandler region offset depth =>
      obtain ⟨r, hr, rfl⟩ := Option.map_eq_some_iff.mp hstep
      rcases pimUnregisterDpuHandler_cases s r offset depth with ⟨error, _, heq⟩ | heq
      · rw [heq]
        exact .of_regions rfl rfl
      · rw [heq]
        exact .setTable h (region?_some hr).1 depth _
  | invokeDpuHandler region offset depth value =>
      obtain ⟨r, hr, rfl⟩ := Option.map_eq_some_iff.mp hstep
      unfold pimInvokeDpuHandler
      split
      · exact .of_regions rfl rfl
      · split
        · exact .of_regions rfl rfl
        · have hkeeps := Keeps.setTable h (region?_some hr).1 depth
            ((r.table depth).map fun e => if e.at offset depth then e.resolve value else e)
          exact ⟨hkeeps.next, hkeeps.places⟩
  | setMonitorRunning value | setSigsegvEnabled value
  | setSigsegvTransitionInProgress value =>
      cases hstep
      exact .of_regions rfl rfl
  | pool action =>
      have hmove : (Pool.step s.pool action).map (fun pool => { s with pool := pool }) =
          some t := by
        cases action <;> first | exact hstep | cases hstep
      obtain ⟨pool, _, rfl⟩ := Option.map_eq_some_iff.mp hmove
      exact .of_regions rfl rfl

end HostPimSim.Core.Topology

namespace HostPimSim.Core.Access
open Register Pool HostPimSim.Core.Topology Transition Spans ByteMemory

theorem cached_keeps {d : Device} (h : Laid d.topology) {region : Region}
    (hmem : region ∈ d.topology.regions) (offset : Nat) (value : BitVec 64) :
    Keeps d.topology (cached d region offset value) := by
  unfold cached
  split
  · exact .setRegion h hmem rfl rfl rfl
  · exact .of_regions rfl rfl

theorem perform_keeps {d : Device} (h : Laid d.topology) {region : Region}
    (hmem : region ∈ d.topology.regions) (call : RegionWrite) :
    Keeps d.topology (call.perform d region).2.topology := by
  have hsized : ∀ rawWrite offset size value,
      Keeps d.topology (writeSizedValue rawWrite d region offset size value).2.topology := by
    intro rawWrite offset size value
    unfold writeSizedValue
    split
    · exact .of_regions rfl rfl
    · split
      · exact .of_regions rfl rfl
      · cases rawWrite with
        | true =>
            dsimp only
            rw [if_pos rfl, (writeRawAtomic_eq d region offset size _ _).2]
            exact cached_keeps h hmem offset _
        | false =>
            dsimp only
            rw [if_neg Bool.false_ne_true, (writeAndInvokeHandler_eq d region offset size _ _).2]
            exact cached_keeps h hmem offset _
  cases call with
  | write offset size value => exact hsized false offset size value
  | writeRaw offset size value => exact hsized true offset size value
  | memcpyTo offset data size =>
      dsimp only [RegionWrite.perform, pimMemcpyTo]
      split <;> exact .of_regions rfl rfl
  | memset value size =>
      dsimp only [RegionWrite.perform, pimRegionMemset]
      split <;> exact .of_regions rfl rfl

theorem answer_topology {d d' : Device} {action : Topology.Action} {reply : Reply}
    (h : answer d (.other (.topology action)) = some (d', reply)) :
    ∃ topology, Topology.step d.topology action = some topology ∧
      d' = { d with topology := topology } := by
  have hmap : (step d (.topology action)).map (fun after => (after, Reply.error .success)) =
      some (d', reply) := by
    cases action <;> first | exact h | cases h
  obtain ⟨after, hafter, heq⟩ := Option.map_eq_some_iff.mp hmap
  cases heq
  have hmove : (Topology.step d.topology action).map
      (fun topology => { d with topology := topology }) = some d' := by
    cases action <;> first | exact hafter | cases hafter
  obtain ⟨topology, htopology, heq⟩ := Option.map_eq_some_iff.mp hmove
  exact ⟨topology, htopology, heq.symm⟩

theorem answer_keeps {d d' : Device} {use : Use} {reply : Reply} (h : Laid d.topology)
    (hanswer : answer d use = some (d', reply)) :
    Laid d'.topology ∧ Keeps d.topology d'.topology := by
  cases use with
  | memory region call =>
      obtain ⟨r, hr, heq⟩ := Option.map_eq_some_iff.mp hanswer
      have hmem := (region?_some hr).1
      cases call with
      | write call =>
          cases heq
          exact ⟨perform_laid h hmem call, perform_keeps h hmem call⟩
      | read offset size | memcpyFrom offset size =>
          cases heq
          exact ⟨h, .of_regions rfl rfl⟩
  | other call =>
      cases call with
      | write region call => cases hanswer
      | topology action =>
          obtain ⟨topology, htopology, rfl⟩ := answer_topology hanswer
          exact ⟨Topology.step_laid h htopology, step_keeps h htopology⟩
      | registerDpuHandler region offset depth registerSize handler userData inserted =>
          obtain ⟨after, hafter, heq⟩ := Option.map_eq_some_iff.mp hanswer
          cases heq
          obtain ⟨r, hr, rfl⟩ := Option.map_eq_some_iff.mp hafter
          have hmem := (region?_some hr).1
          exact ⟨pimRegisterDpuHandler_laid h hmem offset depth registerSize handler userData _
            inserted, pimRegisterDpuHandler_keeps h hmem offset depth registerSize handler userData
              _ inserted⟩

theorem place_eq_some {s : Topology.State} {id offset size : Nat}
    (h : s.place id = some (offset, size)) :
    ∃ r, s.region? id = some r ∧ r.offset = offset ∧ r.size = size := by
  obtain ⟨r, hr, heq⟩ := Option.map_eq_some_iff.mp h
  cases heq
  exact ⟨r, hr, rfl, rfl⟩

theorem answer_contents {d d' : Device} {use : Use} {reply : Reply} (h : Laid d.topology)
    (hanswer : answer d use = some (d', reply)) {id offset size : Nat} (hon : use.on id = none)
    (hplace : d.topology.place id = some (offset, size)) :
    d'.contents offset size = d.contents offset size := by
  cases use with
  | memory region call =>
      obtain ⟨r, hr, heq⟩ := Option.map_eq_some_iff.mp hanswer
      obtain ⟨mine, hmine, rfl, rfl⟩ := place_eq_some hplace
      have hne : mine ≠ r := by
        intro hsame
        have hid := (region?_some hmine).2
        rw [hsame, (region?_some hr).2] at hid
        simp [Use.on, hid] at hon
      have hapart := h.regions.disjoint (region?_some hmine).1 (region?_some hr).1 hne
      unfold Region.stop at hapart
      have hcontents := perform_contents_apart d r call (by omega)
      rw [heq] at hcontents
      exact hcontents
  | other call =>
      cases call with
      | write region call => cases hanswer
      | topology action =>
          obtain ⟨topology, _, rfl⟩ := answer_topology hanswer
          rfl
      | registerDpuHandler region offset depth registerSize handler userData inserted =>
          obtain ⟨after, hafter, heq⟩ := Option.map_eq_some_iff.mp hanswer
          cases heq
          obtain ⟨r, _, rfl⟩ := Option.map_eq_some_iff.mp hafter
          rfl

structure Holds (id offset size : Nat) (d : Device) (file : RegionFile) : Prop where
  laid : Laid d.topology
  place : d.topology.place id = some (offset, size)
  bytes : d.contents offset size = file

structure Freed (id : Nat) (d : Device) : Prop where
  laid : Laid d.topology
  place : d.topology.place id = none
  fresh : id < d.topology.nextRegion

theorem Holds.fresh {id offset size : Nat} {d : Device} {file : RegionFile}
    (h : Holds id offset size d file) : id < d.topology.nextRegion := by
  obtain ⟨r, hr, _⟩ := place_eq_some h.place
  obtain ⟨hmem, rfl⟩ := region?_some hr
  exact h.laid.fresh r hmem

theorem region_part (id offset size : Nat) :
    Transducer.Part answer RegionFile.answer (Use.on id) (fun reply => reply)
      (Holds id offset size) (Freed id) where
  mine := by
    intro d d' file use reply call hanswer h hon
    obtain ⟨hlaid, hkeeps⟩ := answer_keeps h.laid hanswer
    obtain ⟨r, call', hr, rfl⟩ : ∃ r call', d.topology.region? id = some r ∧
        use = .memory id call' := by
      obtain ⟨r, hr, _⟩ := place_eq_some h.place
      cases use with
      | other => cases hon
      | memory region call' =>
          dsimp only [Use.on] at hon
          split at hon
          · rename_i hsame
            exact ⟨r, call', hr, by rw [hsame]⟩
          · cases hon
    have hsame : call' = call := Option.some.inj ((if_pos rfl).symm.trans hon)
    subst hsame
    have heq := Option.some.inj ((congrArg (Option.map _) hr).symm.trans hanswer)
    obtain ⟨r', hr', hoffset, hsize⟩ := place_eq_some h.place
    cases hr.symm.trans hr'
    have hfile := perform_file d r call'
    rw [heq, hoffset, hsize, h.bytes] at hfile
    rw [hfile]
    refine ⟨rfl, ?_⟩
    cases hkeeps.places id h.fresh with
    | inl hplace => exact .inl ⟨hlaid, hplace.trans h.place, rfl⟩
    | inr hnone => exact .inr ⟨hlaid, hnone, Nat.lt_of_lt_of_le h.fresh hkeeps.next⟩
  passes := by
    intro d d' file use reply hanswer h hon
    obtain ⟨hlaid, hkeeps⟩ := answer_keeps h.laid hanswer
    cases hkeeps.places id h.fresh with
    | inl hplace =>
        have hcontents := answer_contents h.laid hanswer hon h.place
        exact .inl ⟨hlaid, hplace.trans h.place, hcontents.trans h.bytes⟩
    | inr hnone => exact .inr ⟨hlaid, hnone, Nat.lt_of_lt_of_le h.fresh hkeeps.next⟩
  gone := by
    intro d d' use reply hanswer h
    obtain ⟨hlaid, hkeeps⟩ := answer_keeps h.laid hanswer
    refine ⟨hlaid, ?_, Nat.lt_of_lt_of_le h.fresh hkeeps.next⟩
    cases hkeeps.places id h.fresh with
    | inl hplace => exact hplace.trans h.place
    | inr hnone => exact hnone

theorem answer_laid {d d' : Device} {uses : List Use} {replies : List Reply}
    (h : Laid d.topology) (hrun : Transducer.converse answer d uses = some (d', replies)) :
    Laid d'.topology := by
  induction uses generalizing d replies with
  | nil =>
      cases hrun
      exact h
  | cons use uses ih =>
      obtain ⟨t, reply, rest, hanswer, hrest, _⟩ := Transducer.converse_cons hrun
      exact ih (answer_keeps h hanswer).1 hrest

def ramRegion : Region := ⟨1, 16, 32, .ram, [], []⟩

def ramDevice : Device where
  topology := { Topology.init 64 with
    regions := [⟨0, 0, 16, .ctrlMmio, [], []⟩, ramRegion], nextRegion := 2 }
  memory := fun _ => 0
  invoked := []

def neighbourUses : List Use :=
  [.memory 1 (.write (.write 4 4 0x01020304)), .memory 0 (.write (.memset 0xFF 16)),
    .memory 1 (.read 4 2), .memory 1 (.read 5 2), .other (.topology (.regionFree 0)),
    .memory 1 (.memcpyFrom 4 4)]

end HostPimSim.Core.Access
