import HostPimSim.Core.Layout
import HostPimSim.Core.Monitor

/-! The cached value of a handler against the register in memory.  A typed write takes the
cache from the value it writes, for the handler at its own offset only; the width of the
register and the registers beside it play no part. -/
namespace HostPimSim.Core.RegisterCache
open Register Pool HostPimSim.Core.Topology Access Transition

inductive Call where
  | registerDpuHandler (offset : Nat) (depth : BitVec 32) (registerSize handler
      userData : Nat) (inserted : Bool)
  | unregisterDpuHandler (offset : Nat) (depth : BitVec 32)
  | write (offset size : Nat) (value : BitVec 64)
  | writeRaw (offset size : Nat) (value : BitVec 64)

/-- `missed` has the offsets of the handlers whose register a `pim_write` that triggered
no handler has overlapped since they were registered. -/
structure State where
  device : Device
  missed : List Nat

def perform (d : Device) (region : Region) : Call → PimError × Device
  | .registerDpuHandler offset depth registerSize handler userData inserted =>
      let result := pimRegisterDpuHandler d.topology region offset depth registerSize handler
        userData (bytesAt d.memory (region.offset + offset)) inserted
      (result.1, { d with topology := result.2 })
  | .unregisterDpuHandler offset depth =>
      let result := pimUnregisterDpuHandler d.topology region offset depth
      (result.1, { d with topology := result.2 })
  | .write offset size value => pimWrite d region offset size value
  | .writeRaw offset size value => pimWriteRaw d region offset size value

def overlaps (offset size : Nat) (entry : DpuHandlerEntry) : Bool :=
  offset < entry.stop && entry.offset < offset + size

def missedAfter (region : Region) (missed : List Nat) : Call → List Nat
  | .registerDpuHandler offset depth _ _ _ _ =>
      if depth = 0 then missed.filter fun known => known ≠ offset else missed
  | .write offset size _ =>
      if (findEntry region offset).isSome then missed
      else missed ++ (region.handlers.filter (overlaps offset size)).map DpuHandlerEntry.offset
  | .unregisterDpuHandler _ _ | .writeRaw _ _ _ => missed

def step (id : Nat) (s : State) (call : Call) : Option State :=
  (s.device.topology.region? id).bind fun region =>
    if (perform s.device region call).1 = .success then
      some ⟨(perform s.device region call).2, missedAfter region s.missed call⟩
    else none

def registerValue (memory : Bytes) (region : Region) (entry : DpuHandlerEntry) : BitVec 64 :=
  loadBytes (bytesAt memory (region.offset + entry.offset)) entry.registerSize

/-- `monitor_refresh_entry_snapshot_volatile` when no write is under way: the value to
dispatch, if the register has changed. -/
def monitorRefreshEntrySnapshot (memory : Bytes) (region : Region) (entry : DpuHandlerEntry) :
    Option (BitVec 64) :=
  (pimLoadRegisterU64 (bytesAt memory (region.offset + entry.offset))
    entry.registerSize).bind fun loaded =>
      if entry.lastValue ≠ loaded then some loaded else none

/-- What `monitor_scan` dispatches for a region. -/
def monitorScan (memory : Bytes) (region : Region) : List (Nat × BitVec 64) :=
  region.handlers.filterMap fun entry =>
    (monitorRefreshEntrySnapshot memory region entry).map fun value => (entry.offset, value)

/-- The bytes of a register are sampled one by one. -/
theorem run_sampling (registerSize : Monitor.RegisterSize) (s : Monitor.State)
    (seqBefore : BitVec 32) {count : Nat} (hcount : count ≤ registerSize.val) :
    run (Monitor.step registerSize) { s with monitor := .sampling seqBefore 0 0 }
        (List.replicate count .scan) =
      some { s with monitor := .sampling seqBefore count (loadBytes s.bytes count) } := by
  induction count with
  | zero => rfl
  | succ count ih =>
      rw [List.replicate_succ', run_append, ih (Nat.le_of_succ_le hcount), Option.bind_some,
        run_cons, Monitor.step, Monitor.scanStep]
      dsimp only
      rw [if_pos (Nat.lt_of_succ_le hcount)]
      rfl

theorem refreshEntrySnapshot_eq {memory : Bytes} {region : Region} {entry : DpuHandlerEntry}
    (hsupported : pimIsSupportedRegisterSize entry.registerSize = true) :
    monitorRefreshEntrySnapshot memory region entry =
      if entry.lastValue ≠ registerValue memory region entry then
        some (registerValue memory region entry)
      else none := by
  unfold monitorRefreshEntrySnapshot
  rw [pimLoadRegisterU64, if_pos hsupported, Option.bind_some]
  rfl

/-- Access by access, a scan that no write disturbs comes to the same. -/
theorem run_scan {memory : Bytes} {region : Region} {entry : DpuHandlerEntry}
    (hsupported : pimIsSupportedRegisterSize entry.registerSize = true) {s : Monitor.State}
    (hidle : s.monitor = .idle) (hquiet : Monitor.isOdd s.writeSeq = false)
    (hbytes : s.bytes = bytesAt memory (region.offset + entry.offset))
    (hlast : s.lastValue = entry.lastValue) :
    run (Monitor.step ⟨entry.registerSize, hsupported⟩) s
        (.scan :: List.replicate entry.registerSize .scan ++ [.scan, .scan]) =
      some { s with
        lastValue := registerValue memory region entry
        monitor := (monitorRefreshEntrySnapshot memory region entry).elim .idle .pending } := by
  have hstart : Monitor.step ⟨entry.registerSize, hsupported⟩ s .scan =
      some { s with monitor := .sampling s.writeSeq 0 0 } := by
    rw [Monitor.step, Monitor.scanStep, hidle]
    dsimp only
    rw [hquiet, if_neg Bool.false_ne_true]
  have hvalue : loadBytes s.bytes entry.registerSize = registerValue memory region entry := by
    rw [hbytes]
    rfl
  rw [List.cons_append, run_cons, hstart, Option.bind_some, run_append,
    run_sampling ⟨entry.registerSize, hsupported⟩ s s.writeSeq (Nat.le_refl _),
    Option.bind_some, hvalue, refreshEntrySnapshot_eq hsupported]
  by_cases hsame : entry.lastValue = registerValue memory region entry
  · simp [Monitor.step, Monitor.scanStep, hquiet, hlast, hsame]
  · simp [Monitor.step, Monitor.scanStep, hquiet, hlast, hsame]

def Tracked (id : Nat) (s : State) : Prop :=
  ∀ region ∈ s.device.topology.region? id, ∀ entry ∈ region.handlers,
    entry.offset ∉ s.missed → entry.lastValue = registerValue s.device.memory region entry

def Call.writtenOffset : Call → Option Nat
  | .write offset _ _ | .writeRaw offset _ _ => some offset
  | .registerDpuHandler .. | .unregisterDpuHandler .. => none

/-- A scan dispatches nothing for the handler at the offset the call wrote to. -/
def ScansQuiet (id : Nat) (call : Call) (s : State) : Prop :=
  ∀ region ∈ s.device.topology.region? id, ∀ offset ∈ call.writtenOffset,
    ∀ dispatched ∈ monitorScan s.device.memory region, dispatched.1 ≠ offset

/-- Once the call has returned, the caches are those of the memory. -/
def Follows (id : Nat) (s : State) (call : Call) : Prop :=
  ∀ t ∈ step id s call, Tracked id t ∧ ScansQuiet id call t

/-- The write covers the register at its offset, or the rest of the register is zero. -/
def Covers (memory : Bytes) (region : Region) (size : Nat) (entry : DpuHandlerEntry) : Prop :=
  ∀ i < entry.registerSize, size ≤ i → memory (region.offset + entry.offset + i) = 0

def Rewrites (memory : Bytes) (region : Region) (offset size : Nat) (value : BitVec 64)
    (entry : DpuHandlerEntry) : Prop :=
  ∀ i < size, entry.offset ≤ offset + i → offset + i < entry.stop →
    memory (region.offset + offset + i) = byteOf (truncate size value) i

def Harmless (memory : Bytes) (missed : List Nat) (region : Region) (offset size : Nat)
    (value : BitVec 64) : Prop :=
  ∀ entry ∈ region.handlers,
    (entry.offset = offset → Covers memory region size entry) ∧
      (entry.offset ≠ offset → entry.offset ∉ missed →
        Rewrites memory region offset size value entry)

def KeepsCaches (id : Nat) (s : State) : Call → Prop
  | .write offset size value => ∀ region ∈ s.device.topology.region? id,
      (findEntry region offset).isSome →
        Harmless s.device.memory s.missed region offset size value
  | .writeRaw offset size value => ∀ region ∈ s.device.topology.region? id,
      Harmless s.device.memory s.missed region offset size value
  | .registerDpuHandler .. | .unregisterDpuHandler .. => True

/-- The region is there, the monitor is by polling, and the table is as it was registered. -/
structure Sound (id : Nat) (s : State) (region : Region) : Prop where
  found : s.device.topology.region? id = some region
  mmio : region.type = .ctrlMmio
  sigsegvOff : s.device.topology.sigsegvEnabled = false
  supported : ∀ entry ∈ region.handlers, pimIsSupportedRegisterSize entry.registerSize = true
  top : ∀ entry ∈ region.handlers, entry.depth = 0

variable {id : Nat} {s t : State} {region : Region}

theorem Sound.forall_found (h : Sound id s region) {p : Region → Prop} :
    (∀ other ∈ s.device.topology.region? id, p other) ↔ p region := by
  rw [h.found]
  constructor
  · intro hall
    exact hall region rfl
  · rintro hregion other ⟨⟩
    exact hregion

theorem Sound.tracked_iff (h : Sound id s region) : Tracked id s ↔
    ∀ entry ∈ region.handlers, entry.offset ∉ s.missed →
      entry.lastValue = registerValue s.device.memory region entry :=
  h.forall_found

theorem Sound.step_some (h : Sound id s region) {call : Call} (hstep : step id s call = some t) :
    (perform s.device region call).1 = .success ∧
      t = ⟨(perform s.device region call).2, missedAfter region s.missed call⟩ := by
  unfold step at hstep
  rw [h.found, Option.bind_some] at hstep
  split at hstep
  · rename_i hsuccess
    exact ⟨hsuccess, (Option.some.inj hstep).symm⟩
  · cases hstep

theorem mem_monitorScan {memory : Bytes} {dispatched : Nat × BitVec 64}
    (hsupported : ∀ entry ∈ region.handlers,
      pimIsSupportedRegisterSize entry.registerSize = true) :
    dispatched ∈ monitorScan memory region ↔
      ∃ entry ∈ region.handlers, entry.lastValue ≠ registerValue memory region entry ∧
        dispatched = (entry.offset, registerValue memory region entry) := by
  unfold monitorScan
  rw [List.mem_filterMap]
  apply exists_congr
  intro entry
  apply and_congr_right
  intro hmem
  rw [refreshEntrySnapshot_eq (hsupported entry hmem)]
  split
  · rename_i hne
    simp only [Option.map_some, Option.some.injEq, hne, ne_eq, not_false_eq_true, true_and]
    exact eq_comm
  · rename_i hsame
    simp [hsame]

theorem Sound.scansQuiet_iff (h : Sound id s region) {call : Call} :
    ScansQuiet id call s ↔ ∀ offset ∈ call.writtenOffset, ∀ entry ∈ region.handlers,
      entry.offset = offset → entry.lastValue = registerValue s.device.memory region entry := by
  unfold ScansQuiet
  rw [h.forall_found]
  constructor
  · intro hquiet offset hoffset entry hmem hat
    by_contra hne
    exact hquiet offset hoffset _
      ((mem_monitorScan h.supported).mpr ⟨entry, hmem, hne, rfl⟩) hat
  · intro hentries offset hoffset dispatched hdispatched
    obtain ⟨entry, hmem, hne, rfl⟩ := (mem_monitorScan h.supported).mp hdispatched
    intro hat
    exact hne (hentries offset hoffset entry hmem hat)

theorem findEntry_isSome (h : Sound id s region) (offset : Nat) :
    (findEntry region offset).isSome = true ↔
      ∃ entry ∈ region.handlers, entry.offset = offset := by
  rw [findEntry, if_pos h.mmio, List.find?_isSome]
  apply exists_congr
  intro entry
  apply and_congr_right
  intro hmem
  simp [DpuHandlerEntry.at, h.top entry hmem]

def writtenHandlers (region : Region) (offset : Nat) (value : BitVec 64) :
    List DpuHandlerEntry :=
  region.handlers.map fun entry => if entry.at offset 0 then entry.resolve value else entry

theorem cached_eq (h : Sound id s region) (offset : Nat) (value : BitVec 64) :
    cached s.device region offset value = s.device.topology.setRegion
        { region with handlers := writtenHandlers region offset value } ∨
      (writtenHandlers region offset value = region.handlers ∧
        cached s.device region offset value = s.device.topology) := by
  unfold cached
  by_cases hfind : (findEntry region offset).isSome = true
  · rw [if_pos ⟨hfind, h.sigsegvOff⟩]
    exact .inl rfl
  · rw [if_neg fun hboth => hfind hboth.1]
    refine .inr ⟨?_, rfl⟩
    unfold writtenHandlers
    rw [List.map_congr_left fun entry hmem => if_neg fun hat => hfind ?_, List.map_id']
    rw [findEntry_isSome h]
    simp only [DpuHandlerEntry.at, Bool.and_eq_true, beq_iff_eq] at hat
    exact ⟨entry, hmem, hat.1⟩

theorem truncate_truncate (size : Nat) (value : BitVec 64) :
    truncate size (truncate size value) = truncate size value := by
  unfold truncate
  rw [BitVec.and_assoc, BitVec.and_self]

theorem Sound.written (h : Sound id s region) (rawWrite : Bool) {offset size : Nat}
    {value : BitVec 64} {after : Device}
    (hwrite : writeSizedValue rawWrite s.device region offset size value = (.success, after))
    (missed : List Nat) :
    Sound id ⟨after, missed⟩
      { region with handlers := writtenHandlers region offset (truncate size value) } := by
  obtain ⟨_, _, _, htopology⟩ := writeSizedValue_success hwrite
  have hentry : ∀ entry ∈ writtenHandlers region offset (truncate size value),
      ∃ old ∈ region.handlers, old.SamePlace entry := by
    intro entry hmem
    obtain ⟨old, hold, rfl⟩ := List.mem_map.mp hmem
    exact ⟨old, hold, samePlace_resolve _ _ _ old⟩
  have hplace : after.topology.region? id =
      some { region with handlers := writtenHandlers region offset (truncate size value) } ∧
      after.topology.sigsegvEnabled = false := by
    rw [htopology]
    rcases cached_eq h offset (truncate size value) with hcached | ⟨hsame, hcached⟩
    · rw [hcached]
      exact ⟨region?_setRegion h.found rfl, h.sigsegvOff⟩
    · rw [hcached, hsame]
      exact ⟨h.found, h.sigsegvOff⟩
  refine ⟨hplace.1, h.mmio, hplace.2, ?_, ?_⟩
  · intro entry hmem
    obtain ⟨old, hold, hsame⟩ := hentry entry hmem
    rw [hsame.registerSize]
    exact h.supported old hold
  · intro entry hmem
    obtain ⟨old, hold, hsame⟩ := hentry entry hmem
    rw [hsame.depth]
    exact h.top old hold

theorem cache_at_iff {memory : Bytes} {size : Nat} {value : BitVec 64} {entry : DpuHandlerEntry}
    (hentry : pimIsSupportedRegisterSize entry.registerSize = true)
    (hsize : pimIsSupportedRegisterSize size = true) :
    truncate size value &&& pimRegisterValueMask entry.registerSize =
        registerValue (fill memory (region.offset + entry.offset) size
          (byteOf (truncate size value))) region entry ↔
      Covers memory region size entry := by
  have hstore : loadBytes (store (bytesAt memory (region.offset + entry.offset)) size
      (truncate size value)) entry.registerSize = _ ↔ _ :=
    loadBytes_store_iff hentry hsize (truncate size value)
  rw [truncate_truncate] at hstore
  unfold registerValue
  rw [bytesAt_fill, eq_comm]
  exact hstore

theorem register_elsewhere_iff {memory : Bytes} {offset size : Nat} {value : BitVec 64}
    {entry : DpuHandlerEntry}
    (hentry : pimIsSupportedRegisterSize entry.registerSize = true) :
    registerValue memory region entry = registerValue (fill memory (region.offset + offset) size
        (byteOf (truncate size value))) region entry ↔
      Rewrites memory region offset size value entry := by
  unfold registerValue
  rw [loadBytes_eq_iff (supported_le hentry)]
  unfold Rewrites bytesAt fill DpuHandlerEntry.stop
  constructor
  · intro h i hi hstart hstop
    have hbyte := h (offset + i - entry.offset) (by omega)
    have haddress : region.offset + entry.offset + (offset + i - entry.offset) =
        region.offset + offset + i := by omega
    have hindex : region.offset + offset + i - (region.offset + offset) = i := by omega
    rw [haddress, if_pos (by omega), hindex] at hbyte
    exact hbyte
  · intro h i hi
    split
    · rename_i hin
      have hbyte := h (entry.offset + i - offset) (by omega) (by omega) (by omega)
      have haddress : region.offset + offset + (entry.offset + i - offset) =
          region.offset + entry.offset + i := by omega
      have hindex : region.offset + entry.offset + i - (region.offset + offset) =
          entry.offset + i - offset := by omega
      rw [haddress] at hbyte
      rw [hindex]
      exact hbyte
    · rfl

theorem Sound.write_iff (h : Sound id s region) (htracked : Tracked id s) {rawWrite : Bool}
    {offset size : Nat} {value : BitVec 64} {after : Device}
    (hwrite : writeSizedValue rawWrite s.device region offset size value = (.success, after))
    {missed : List Nat} (hmissed : ∀ known ∈ s.missed, known ∈ missed) (call : Call)
    (hcall : call.writtenOffset = some offset) :
    Tracked id ⟨after, missed⟩ ∧ ScansQuiet id call ⟨after, missed⟩ ↔
      Harmless s.device.memory missed region offset size value := by
  obtain ⟨hsize, _, hmemory, _⟩ := writeSizedValue_success hwrite
  have hsound := h.written rawWrite hwrite missed
  rw [hsound.tracked_iff, hsound.scansQuiet_iff]
  dsimp only
  rw [hmemory, hcall]
  have hat : ∀ entry ∈ region.handlers,
      (entry.at offset 0 = true ↔ entry.offset = offset) := by
    intro entry hmem
    simp [DpuHandlerEntry.at, h.top entry hmem]
  have hold := h.tracked_iff.mp htracked
  constructor
  · rintro ⟨htrackedAfter, hquiet⟩ entry hmem
    have hwritten : (if entry.at offset 0 then entry.resolve (truncate size value) else entry) ∈
        writtenHandlers region offset (truncate size value) := List.mem_map_of_mem hmem
    constructor
    · intro hoffset
      have hvalue := hquiet offset rfl _ hwritten
      rw [if_pos ((hat entry hmem).mpr hoffset)] at hvalue
      subst hoffset
      exact (cache_at_iff (h.supported entry hmem) hsize).mp (hvalue rfl)
    · intro hoffset hnot
      have hvalue := htrackedAfter _ hwritten
      rw [if_neg fun hthere => hoffset ((hat entry hmem).mp hthere)] at hvalue
      have hbefore := hold entry hmem fun hknown => hnot (hmissed _ hknown)
      exact (register_elsewhere_iff (h.supported entry hmem)).mp (hbefore.symm.trans (hvalue hnot))
  · intro hharmless
    have hentry : ∀ entry ∈ writtenHandlers region offset (truncate size value),
        entry.offset ∉ missed ∨ entry.offset = offset → entry.lastValue =
          registerValue (fill s.device.memory (region.offset + offset) size
            (byteOf (truncate size value))) region entry := by
      intro entry hmem hcounts
      obtain ⟨old, holdMem, rfl⟩ := List.mem_map.mp hmem
      by_cases hoffset : old.offset = offset
      · rw [if_pos ((hat old holdMem).mpr hoffset)]
        subst hoffset
        exact (cache_at_iff (h.supported old holdMem) hsize).mpr
          ((hharmless old holdMem).1 rfl)
      · have hother : old.at offset 0 ≠ true := fun hthere => hoffset ((hat old holdMem).mp hthere)
        rw [if_neg hother] at hcounts ⊢
        have hnot := hcounts.resolve_right hoffset
        rw [hold old holdMem fun hknown => hnot (hmissed _ hknown)]
        exact (register_elsewhere_iff (h.supported old holdMem)).mpr
          ((hharmless old holdMem).2 hoffset hnot)
    refine ⟨fun entry hmem hnot => hentry entry hmem (.inl hnot), ?_⟩
    intro written hwritten entry hmem hoffset
    obtain rfl : offset = written := Option.some.inj hwritten
    exact hentry entry hmem (.inr hoffset)

theorem Sound.setTable (h : Sound id s region) (htracked : Tracked id s) (depth : BitVec 32)
    (table : List DpuHandlerEntry) (missed : List Nat)
    (htable : depth = 0 → ∀ entry ∈ table,
      pimIsSupportedRegisterSize entry.registerSize = true ∧ entry.depth = 0 ∧
        (entry.offset ∉ missed →
          entry.lastValue = registerValue s.device.memory region entry))
    (hmissed : depth ≠ 0 → ∀ known ∈ s.missed, known ∈ missed) :
    Sound id ⟨{ s.device with
        topology := s.device.topology.setRegion (region.setTable depth table) }, missed⟩
        (region.setTable depth table) ∧
      Tracked id ⟨{ s.device with
        topology := s.device.topology.setRegion (region.setTable depth table) }, missed⟩ := by
  obtain ⟨hid, hoffset, _⟩ := setTable_place region depth table
  have hfound := region?_setRegion h.found hid
  by_cases hdepth : depth = 0
  · have hentries := htable hdepth
    subst hdepth
    have hsound : Sound id ⟨{ s.device with
        topology := s.device.topology.setRegion (region.setTable 0 table) }, missed⟩
        (region.setTable 0 table) :=
      ⟨hfound, h.mmio, h.sigsegvOff, fun entry hmem => (hentries entry hmem).1,
        fun entry hmem => (hentries entry hmem).2.1⟩
    exact ⟨hsound, hsound.tracked_iff.mpr fun entry hmem => (hentries entry hmem).2.2⟩
  · have hhandlers : (region.setTable depth table).handlers = region.handlers := by
      unfold Region.setTable
      rw [if_neg hdepth]
    have htype : (region.setTable depth table).type = .ctrlMmio := by
      unfold Region.setTable
      rw [if_neg hdepth]
      exact h.mmio
    have hsound : Sound id ⟨{ s.device with
        topology := s.device.topology.setRegion (region.setTable depth table) }, missed⟩
        (region.setTable depth table) :=
      ⟨hfound, htype, h.sigsegvOff, hhandlers.symm ▸ h.supported, hhandlers.symm ▸ h.top⟩
    refine ⟨hsound, hsound.tracked_iff.mpr ?_⟩
    rw [hhandlers]
    intro entry hmem hnot
    unfold registerValue
    rw [hoffset]
    exact h.tracked_iff.mp htracked entry hmem fun hknown => hnot (hmissed hdepth _ hknown)

theorem Sound.register (h : Sound id s region) (htracked : Tracked id s) {offset : Nat}
    {depth : BitVec 32} {registerSize handler userData : Nat} {inserted : Bool}
    (hstep : step id s (.registerDpuHandler offset depth registerSize handler userData
      inserted) = some t) : (∃ changed, Sound id t changed) ∧ Tracked id t := by
  obtain ⟨hsuccess, rfl⟩ := h.step_some hstep
  dsimp only [perform] at hsuccess ⊢
  rcases pimRegisterDpuHandler_cases s.device.topology region offset depth registerSize handler
    userData (bytesAt s.device.memory (region.offset + offset)) inserted with
    ⟨error, herror, heq⟩ | ⟨_, hsupported, _, _, _, heq⟩
  · rw [heq] at hsuccess
    exact absurd hsuccess herror
  · rw [heq]
    have hchanged := h.setTable htracked depth
      (⟨offset, depth, registerSize, handler, userData,
        loadBytes (bytesAt s.device.memory (region.offset + offset)) registerSize⟩ ::
          (region.table depth).filter fun e => !e.at offset depth)
      (missedAfter region s.missed
        (.registerDpuHandler offset depth registerSize handler userData inserted)) ?_ ?_
    · exact ⟨⟨_, hchanged.1⟩, hchanged.2⟩
    · rintro rfl entry hmem
      rcases List.mem_cons.mp hmem with rfl | hkept
      · exact ⟨hsupported, rfl, fun _ => rfl⟩
      · obtain ⟨hold, hother⟩ := List.mem_filter.mp hkept
        have hdepth := h.top entry hold
        refine ⟨h.supported entry hold, hdepth, fun hnot => ?_⟩
        have hne : entry.offset ≠ offset := by
          simpa [DpuHandlerEntry.at, hdepth] using hother
        apply h.tracked_iff.mp htracked entry hold
        intro hknown
        apply hnot
        simp only [missedAfter, if_true]
        exact List.mem_filter.mpr ⟨hknown, by simpa using hne⟩
    · intro hdepth known hknown
      simp only [missedAfter, if_neg hdepth]
      exact hknown

theorem Sound.unregister (h : Sound id s region) (htracked : Tracked id s) {offset : Nat}
    {depth : BitVec 32} (hstep : step id s (.unregisterDpuHandler offset depth) = some t) :
    (∃ changed, Sound id t changed) ∧ Tracked id t := by
  obtain ⟨hsuccess, rfl⟩ := h.step_some hstep
  dsimp only [perform] at hsuccess ⊢
  rcases pimUnregisterDpuHandler_cases s.device.topology region offset depth with
    ⟨error, herror, heq⟩ | heq
  · rw [heq] at hsuccess
    exact absurd hsuccess herror
  · rw [heq]
    have hchanged := h.setTable htracked depth
      ((region.table depth).filter fun e => !e.at offset depth) s.missed ?_
      fun _ _ hknown => hknown
    · exact ⟨⟨_, hchanged.1⟩, hchanged.2⟩
    · rintro rfl entry hmem
      obtain ⟨hold, _⟩ := List.mem_filter.mp hmem
      exact ⟨h.supported entry hold, h.top entry hold, h.tracked_iff.mp htracked entry hold⟩

/-- A write that triggers no handler reaches only registers that it is excused for. -/
theorem harmless_of_untriggered (h : Sound id s region) {offset size : Nat}
    (huntriggered : ¬(findEntry region offset).isSome = true) (value : BitVec 64) :
    Harmless s.device.memory (s.missed ++
        (region.handlers.filter (overlaps offset size)).map DpuHandlerEntry.offset)
      region offset size value := by
  intro entry hmem
  constructor
  · intro hoffset
    exact absurd ((findEntry_isSome h offset).mpr ⟨entry, hmem, hoffset⟩) huntriggered
  · intro _ hnot i hi hstart hstop
    exfalso
    apply hnot
    refine List.mem_append_right _ (List.mem_map.mpr ⟨entry, List.mem_filter.mpr ⟨hmem, ?_⟩, rfl⟩)
    simp only [overlaps, Bool.and_eq_true, decide_eq_true_eq]
    omega

theorem Sound.follows_iff (h : Sound id s region) (htracked : Tracked id s) {call : Call}
    (hstep : step id s call = some t) : Follows id s call ↔ KeepsCaches id s call := by
  have hone : Follows id s call ↔ Tracked id t ∧ ScansQuiet id call t := by
    constructor
    · intro hfollows
      exact hfollows t hstep
    · intro hafter u hu
      obtain rfl : t = u := Option.some.inj (hstep.symm.trans hu)
      exact hafter
  rw [hone]
  cases call with
  | registerDpuHandler offset depth registerSize handler userData inserted =>
      refine ⟨fun _ => trivial, fun _ => ⟨(h.register htracked hstep).2, ?_⟩⟩
      intro _ _ _ hwritten
      cases hwritten
  | unregisterDpuHandler offset depth =>
      refine ⟨fun _ => trivial, fun _ => ⟨(h.unregister htracked hstep).2, ?_⟩⟩
      intro _ _ _ hwritten
      cases hwritten
  | write offset size value =>
      obtain ⟨hsuccess, rfl⟩ := h.step_some hstep
      have hwrite : writeSizedValue false s.device region offset size value = (.success, _) :=
        Prod.ext hsuccess rfl
      dsimp only [KeepsCaches, missedAfter]
      rw [h.forall_found]
      by_cases htriggered : (findEntry region offset).isSome = true
      · rw [if_pos htriggered]
        refine (h.write_iff htracked hwrite (fun _ hknown => hknown)
          (.write offset size value) rfl).trans ?_
        exact ⟨fun hharmless _ => hharmless, fun hkeeps => hkeeps htriggered⟩
      · rw [if_neg htriggered]
        refine (h.write_iff htracked hwrite (fun _ hknown => List.mem_append_left _ hknown)
          (.write offset size value) rfl).trans ?_
        exact ⟨fun _ hfind => absurd hfind htriggered,
          fun _ => harmless_of_untriggered h htriggered value⟩
  | writeRaw offset size value =>
      obtain ⟨hsuccess, rfl⟩ := h.step_some hstep
      have hwrite : writeSizedValue true s.device region offset size value = (.success, _) :=
        Prod.ext hsuccess rfl
      dsimp only [KeepsCaches, missedAfter]
      rw [h.forall_found]
      exact h.write_iff htracked hwrite (fun _ hknown => hknown) (.writeRaw offset size value) rfl

theorem Sound.step (h : Sound id s region) (htracked : Tracked id s) {call : Call}
    (hstep : RegisterCache.step id s call = some t) : ∃ changed, Sound id t changed := by
  cases call with
  | registerDpuHandler => exact (h.register htracked hstep).1
  | unregisterDpuHandler => exact (h.unregister htracked hstep).1
  | write =>
      obtain ⟨hsuccess, rfl⟩ := h.step_some hstep
      exact ⟨_, h.written false (Prod.ext hsuccess rfl) _⟩
  | writeRaw =>
      obtain ⟨hsuccess, rfl⟩ := h.step_some hstep
      exact ⟨_, h.written true (Prod.ext hsuccess rfl) _⟩

/-- From a region without handlers on, the caches follow memory after every call if and
only if every typed write is harmless to the registers it is not excused for. -/
theorem caches_follow_memory {d : Device} (hfound : d.topology.region? id = some region)
    (hmmio : region.type = .ctrlMmio) (hempty : region.handlers = [])
    (hsigsegv : d.topology.sigsegvEnabled = false) {calls : List Call}
    (hrun : run (step id) ⟨d, []⟩ calls = some t) :
    Meets (step id) (Follows id) ⟨d, []⟩ calls ↔
      Meets (step id) (KeepsCaches id) ⟨d, []⟩ calls := by
  have hsound : Sound id ⟨d, []⟩ region := by
    refine ⟨hfound, hmmio, hsigsegv, ?_, ?_⟩
    · simp [hempty]
    · simp [hempty]
  apply meets_iff (fun s => (∃ region, Sound id s region) ∧ Tracked id s) ?_ ?_ ?_ hrun
  · rintro s call t ⟨⟨region, h⟩, htracked⟩ hstep
    exact h.follows_iff htracked hstep
  · rintro s call t ⟨⟨region, h⟩, htracked⟩ hfollows hstep
    exact ⟨h.step htracked hstep, (hfollows t hstep).1⟩
  · exact ⟨⟨region, hsound⟩, hsound.tracked_iff.mpr (by simp [hempty])⟩

instance (memory : Bytes) (region : Region) (size : Nat) (entry : DpuHandlerEntry) :
    Decidable (Covers memory region size entry) :=
  inferInstanceAs (Decidable (∀ i < entry.registerSize, size ≤ i →
    memory (region.offset + entry.offset + i) = 0))

instance (memory : Bytes) (region : Region) (offset size : Nat) (value : BitVec 64)
    (entry : DpuHandlerEntry) : Decidable (Rewrites memory region offset size value entry) :=
  inferInstanceAs (Decidable (∀ i < size, entry.offset ≤ offset + i →
    offset + i < entry.stop →
      memory (region.offset + offset + i) = byteOf (truncate size value) i))

instance (memory : Bytes) (missed : List Nat) (region : Region) (offset size : Nat)
    (value : BitVec 64) : Decidable (Harmless memory missed region offset size value) :=
  inferInstanceAs (Decidable (∀ entry ∈ region.handlers,
    (entry.offset = offset → Covers memory region size entry) ∧
      (entry.offset ≠ offset → entry.offset ∉ missed →
        Rewrites memory region offset size value entry)))

instance (id : Nat) (s : State) : ∀ call, Decidable (KeepsCaches id s call)
  | .write offset size value =>
      inferInstanceAs (Decidable (∀ region ∈ s.device.topology.region? id,
        (findEntry region offset).isSome →
          Harmless s.device.memory s.missed region offset size value))
  | .writeRaw offset size value =>
      inferInstanceAs (Decidable (∀ region ∈ s.device.topology.region? id,
        Harmless s.device.memory s.missed region offset size value))
  | .registerDpuHandler .. | .unregisterDpuHandler .. => isTrue trivial

def blankDevice : Device where
  topology := (pimRegionCreate (Topology.init 64) 0 16 .ctrlMmio true).2
  memory := fun _ => 0
  invoked := []

theorem caches_follow_memory_widths :
    Meets (step 0) (Follows 0) ⟨blankDevice, []⟩
      [.registerDpuHandler 0 0 4 1 0 true, .registerDpuHandler 8 0 8 1 0 true,
        .write 0 4 0x100, .writeRaw 0 4 7, .write 0 1 9, .write 8 8 5, .write 10 2 3,
        .write 8 8 6] := by
  have hrun : ∃ t, run (step 0) ⟨blankDevice, []⟩
      [.registerDpuHandler 0 0 4 1 0 true, .registerDpuHandler 8 0 8 1 0 true,
        .write 0 4 0x100, .writeRaw 0 4 7, .write 0 1 9, .write 8 8 5, .write 10 2 3,
        .write 8 8 6] = some t ∧ t.missed = [8] := exists_run (by decide +kernel)
  obtain ⟨t, hrun, _⟩ := hrun
  exact (caches_follow_memory rfl rfl rfl rfl hrun).mpr (by decide +kernel)

/-- One byte written to a register of four: the cache holds the byte, memory the rest as
well. -/
theorem narrow_write_leaves_cache :
    ¬∀ calls t, run (step 0) ⟨blankDevice, []⟩ calls = some t →
      Meets (step 0) (Follows 0) ⟨blankDevice, []⟩ calls := by
  intro h
  have hrun : ∃ s, run (step 0) ⟨blankDevice, []⟩
      [.registerDpuHandler 0 0 4 1 0 true, .write 0 4 0x100] = some s ∧
      ∃ t ∈ step 0 s (.write 0 1 1), ∃ region ∈ t.device.topology.region? 0,
        ∃ entry ∈ region.handlers, entry.offset ∉ t.missed ∧
          entry.lastValue ≠ registerValue t.device.memory region entry := by
    refine exists_run ?_
    decide +kernel
  obtain ⟨s, hrun, t, hstep, region, hregion, entry, hentry, hknown, hne⟩ := hrun
  have hall : run (step 0) ⟨blankDevice, []⟩
      ([.registerDpuHandler 0 0 4 1 0 true, .write 0 4 0x100] ++ [.write 0 1 1]) = some t := by
    rw [run_append, hrun]
    simpa using hstep
  exact hne (((h _ t hall).after hrun t hstep).1 region hregion entry hentry hknown)

end HostPimSim.Core.RegisterCache
