import HostPimSim.Lib.DirectMapped
import HostPimSim.Upmem.DecodeTable
import HostPimSim.Upmem.Execute

/-! The decode cache of `Pipeline::execute_once`.  A thread has one for all the DPUs it runs, and
keeps it for ever; its lines are shared by the words whose addresses hash to one index.  What a
call does with a decoded word is a parameter, so that the results hold of all of it. -/
namespace HostPimSim.Upmem.DecodeCache

inductive MulBytePairMode where
  | none | ulUl | ulUh | uhUl | uhUh
  deriving DecidableEq

inductive StoreSourceMode where
  | none | imm32 | reg32 | dreg64
  deriving DecidableEq

/-- The fields of a decoded word that `populate_hot_metadata_48` sets. -/
structure HotMetadata48 where
  offUsesSignExtend24 : Bool
  ccKind : CcKind
  ccSubwordBits : Nat
  ccMapKind : CcMapKind
  writebackMode : WritebackMode
  mulBytePairMode : MulBytePairMode
  storeSourceMode : StoreSourceMode
  hotSupported : Bool
  immIsSigned8 : Bool
  immPassthrough : Bool
  suppressScalarWrite : Bool
  acquireIsRelease : Bool
  dmaToMram : Bool
  movdIsSwap : Bool
  clzInvertInput : Bool
  timeCfgUsesRa : Bool
  subLhsIsImm : Bool
  subRhsIsReg : Bool
  subIsRrrc : Bool
  subIsZrrc : Bool
  subcLhsIsImm : Bool
  subcRhsIsReg : Bool
  subcIsRrrc : Bool
  subcIsZrrc : Bool
  deriving DecidableEq

/-- The metadata of `RawDecoded48{}`. -/
def HotMetadata48.empty : HotMetadata48 :=
  ⟨false, .none, 0, .none, .none, .none, .none, false, false, false, false, false, false, false,
    false, false, false, false, false, false, false, false, false, false⟩

def mulBytePairMode : HotOp → MulBytePairMode
  | .mulUlUl => .ulUl
  | .mulUlUh => .ulUh
  | .mulUhUl => .uhUl
  | .mulUhUh => .uhUh
  | _ => .none

def storeSourceMode (decoded : RawDecoded48) : StoreSourceMode :=
  match decoded.hotOp with
  | .sw | .sb | .sh => if decoded.storesImm32 then .imm32 else .reg32
  | .sd => if decoded.storesImm32 then .imm32 else .dreg64
  | _ => .none

def populateHotMetadata48 (decoded : RawDecoded48) : HotMetadata48 :=
  if !decoded.valid ∨ decoded.hotOp = .none then .empty
  else
    { offUsesSignExtend24 := decoded.offUsesSignExtend24
      ccKind := decoded.ccKind
      ccSubwordBits := decoded.ccSubwordBits
      ccMapKind := if decoded.hasCc then selectCcMap48 decoded.hotOp decoded.hotFmt else .none
      writebackMode := decoded.writebackMode
      mulBytePairMode := mulBytePairMode decoded.hotOp
      storeSourceMode := storeSourceMode decoded
      hotSupported := decoded.hotSupported
      immIsSigned8 := decoded.immIsSigned8
      immPassthrough := decoded.immPassthrough
      suppressScalarWrite := decoded.suppressScalarWrite
      acquireIsRelease := decoded.hotOp = .release
      dmaToMram := decoded.hotOp = .sdma
      movdIsSwap := decoded.hotOp = .swapd
      clzInvertInput := decoded.hotOp = .clo
      timeCfgUsesRa := decoded.hotOp = .timeCfg && decoded.timeCfgUsesRa
      subLhsIsImm := decoded.subLhsIsImm
      subRhsIsReg := decoded.hotOp = .sub && decoded.rhsIsReg
      subIsRrrc := decoded.hotOp = .sub && decoded.isRrrc
      subIsZrrc := decoded.hotOp = .sub && decoded.isZrrc
      subcLhsIsImm := decoded.subcLhsIsImm
      subcRhsIsReg := decoded.hotOp = .subc && decoded.rhsIsReg
      subcIsRrrc := decoded.hotOp = .subc && decoded.isRrrc
      subcIsZrrc := decoded.hotOp = .subc && decoded.isZrrc }

structure Decoded48 where
  raw : RawDecoded48
  metadata : HotMetadata48
  deriving DecidableEq

def Decoded48.empty : Decoded48 := ⟨.empty, .empty⟩

/-- The record of a word, decoded and then populated if that succeeds, and whether it does. -/
def decodeFresh (inst48 : BitVec 64) : Decoded48 × Bool :=
  let decoded := DecodeTable.decodeRawWord48 inst48
  (⟨decoded.1, if decoded.2 then populateHotMetadata48 decoded.1 else .empty⟩, decoded.2)

def kDecodedInstCacheLineCount : Nat := 4096

/-- What a line is compared with; `iram` is an address, and zero for `nullptr`. -/
structure CacheKey where
  iram : BitVec 64
  iramSlot : BitVec 16
  inst48 : BitVec 64
  deriving DecidableEq

abbrev DecodedInstCacheEntry := DirectMapped.Line CacheKey Decoded48

abbrev Cache := Fin kDecodedInstCacheLineCount → DecodedInstCacheEntry

def DecodedInstCacheEntry.initial : DecodedInstCacheEntry := ⟨⟨0, 0, 0⟩, .empty⟩

def Cache.initial : Cache := fun _ => DecodedInstCacheEntry.initial

def cacheHash (key : CacheKey) : BitVec 64 :=
  ((key.iram >>> 3) ^^^ key.iramSlot.setWidth 64) &&&
    BitVec.ofNat 64 (kDecodedInstCacheLineCount - 1)

theorem cacheHash_lt (key : CacheKey) :
    (cacheHash key).toNat < kDecodedInstCacheLineCount := by
  unfold cacheHash
  rw [BitVec.toNat_and]
  exact Nat.lt_of_le_of_lt Nat.and_le_right (by decide)

def plan : DirectMapped.Plan CacheKey Decoded48 (Fin kDecodedInstCacheLineCount)
    (Decoded48 × Bool) where
  index := fun key => ⟨(cacheHash key).toNat, cacheHash_lt key⟩
  compute := fun key => decodeFresh key.inst48
  keep := Prod.fst
  readBack := fun decoded => (decoded, decoded.raw.valid)

theorem readBack_keep (key : CacheKey) :
    plan.readBack (plan.keep (plan.compute key)) = plan.compute key :=
  Prod.ext rfl (DecodeTable.decodeRawWord48_valid key.inst48)

/-- The slot and the word that `execute_once` will execute, unless it returns before. -/
def fetchSlot (dpu : Dpu) (t : Nat) : Option (BitVec 16 × BitVec 64) :=
  if t ≥ kNumTasklets then none
  else if !dpu.runnable t then none
  else (iramSlot (dpu.tasklets t).pc).bind fun slot =>
    if dpu.iram.readWord slot = 0 then none else some (slot, dpu.iram.readWord slot)

theorem fetchSlot_word (dpu : Dpu) (t : Nat) :
    (fetchSlot dpu t).map Prod.snd = fetch dpu t := by
  unfold fetchSlot fetch
  split
  · rfl
  · split
    · rfl
    · rw [Option.map_bind]
      congr 1
      funext slot
      simp only [Function.comp]
      split <;> rfl

theorem fetchSlot_ne_zero {dpu : Dpu} {t : Nat} {found : BitVec 16 × BitVec 64}
    (h : fetchSlot dpu t = some found) : found.2 ≠ 0 := by
  unfold fetchSlot at h
  obtain ⟨-, h⟩ := Option.ite_none_left_eq_some.mp h
  obtain ⟨-, h⟩ := Option.ite_none_left_eq_some.mp h
  obtain ⟨slot, -, h⟩ := Option.bind_eq_some_iff.mp h
  obtain ⟨hword, h⟩ := Option.ite_none_left_eq_some.mp h
  cases h
  exact hword

structure CallResult where
  decoded : Option (Decoded48 × Bool)
  dpu : Dpu
  keepRunning : Bool

def CallResult.idle (dpu : Dpu) : CallResult := ⟨none, dpu, false⟩

section
variable (execute : BitVec 64 → Decoded48 × Bool → Dpu → Nat → Dpu × Bool)

def completed (inst48 : BitVec 64) (decoded : Decoded48 × Bool) (dpu : Dpu) (t : Nat) :
    CallResult :=
  let done := execute inst48 decoded dpu t
  ⟨some decoded, done.1, done.2⟩

/-- `execute_once`; `iram` is the address of the memory of the DPU. -/
def executeOnceCached (cache : Cache) (iram : BitVec 64) (dpu : Dpu) (t : Nat) :
    CallResult × Cache :=
  match fetchSlot dpu t with
  | none => (.idle dpu, cache)
  | some found =>
      let decoded := DirectMapped.lookup plan cache ⟨iram, found.1, found.2⟩
      (completed execute found.2 decoded.1 dpu t, decoded.2)

def executeOnceFresh (dpu : Dpu) (t : Nat) : CallResult :=
  match fetchSlot dpu t with
  | none => .idle dpu
  | some found => completed execute found.2 (decodeFresh found.2) dpu t

/-- Each line is as the thread began with it, or keeps the record of its word. -/
def LinesDecoded (cache : Cache) : Prop := DirectMapped.Filled plan Cache.initial cache

theorem executeOnceCached_spec {cache : Cache} (h : LinesDecoded cache) (iram : BitVec 64)
    (dpu : Dpu) (t : Nat) :
    (executeOnceCached execute cache iram dpu t).1 = executeOnceFresh execute dpu t ∧
      LinesDecoded (executeOnceCached execute cache iram dpu t).2 := by
  unfold executeOnceCached executeOnceFresh
  cases hfetch : fetchSlot dpu t with
  | none => exact ⟨rfl, h⟩
  | some found =>
      -- no word fetched is zero, so the line of `nullptr` is never taken for another
      have hkey : (Cache.initial (plan.index ⟨iram, found.1, found.2⟩)).key ≠
          ⟨iram, found.1, found.2⟩ := by
        intro hsame
        exact fetchSlot_ne_zero hfetch (congrArg CacheKey.inst48 hsame).symm
      have hanswer := DirectMapped.lookup_eq_compute readBack_keep h hkey
      constructor
      · dsimp only
        rw [hanswer]
        rfl
      · exact DirectMapped.filled_lookup h _

/-- A call by the thread, or a change by anything else: a load through the CI, a DMA, another
thread. -/
inductive Event (ι : Type) where
  | call (target : ι) (t : Nat)
  | change (target : ι) (change : Dpu → Dpu)

structure Run (ι : Type) where
  dpus : ι → Dpu
  results : List CallResult

variable {ι : Type} [DecidableEq ι]

def Run.start (dpus : ι → Dpu) : Run ι := ⟨dpus, []⟩

def Run.finish (run : Run ι) (target : ι) (result : CallResult) : Run ι :=
  ⟨Function.update run.dpus target result.dpu, run.results ++ [result]⟩

def Run.changed (run : Run ι) (target : ι) (change : Dpu → Dpu) : Run ι :=
  { run with dpus := Function.update run.dpus target (change (run.dpus target)) }

def stepFresh (run : Run ι) : Event ι → Run ι
  | .call target t => run.finish target (executeOnceFresh execute (run.dpus target) t)
  | .change target change => run.changed target change

def stepCached (address : ι → BitVec 64) (state : Run ι × Cache) : Event ι → Run ι × Cache
  | .call target t =>
      let done := executeOnceCached execute state.2 (address target) (state.1.dpus target) t
      (state.1.finish target done.1, done.2)
  | .change target change => (state.1.changed target change, state.2)

/-- The two runs are in one state, and the lines hold what they should. -/
def Follows (state : Run ι × Cache) (run : Run ι) : Prop :=
  state.1 = run ∧ LinesDecoded state.2

theorem follows_step (address : ι → BitVec 64) {state : Run ι × Cache} {run : Run ι}
    (h : Follows state run) (event : Event ι) :
    Follows (stepCached execute address state event) (stepFresh execute run event) := by
  obtain ⟨rfl, hlines⟩ := h
  cases event with
  | call target t =>
      obtain ⟨hresult, hcache⟩ := executeOnceCached_spec execute hlines (address target)
        (state.1.dpus target) t
      constructor
      · exact congrArg (state.1.finish target) hresult
      · exact hcache
  | change target change => exact ⟨rfl, hlines⟩

theorem follows_run (address : ι → BitVec 64) (dpus : ι → Dpu) (events : List (Event ι)) :
    Follows (events.foldl (stepCached execute address) (.start dpus, Cache.initial))
      (events.foldl (stepFresh execute) (.start dpus)) :=
  List.foldl_rel ⟨rfl, DirectMapped.filled_initial⟩
    fun event _ _ _ h => follows_step execute address h event

/-- Whatever changes the DPUs between the calls of a thread and wherever their memories are, each
call has the result it would have without the cache, and every line that was filled keeps the
record of its word, with the flag that the decoder returned. -/
theorem decodeCache_transparent (address : ι → BitVec 64) (dpus : ι → Dpu)
    (events : List (Event ι)) :
    let cached := events.foldl (stepCached execute address) (.start dpus, Cache.initial)
    cached.1 = events.foldl (stepFresh execute) (.start dpus) ∧
      ∀ line, cached.2 line ≠ DecodedInstCacheEntry.initial →
        (cached.2 line).value = (decodeFresh (cached.2 line).key.inst48).1 ∧
          (cached.2 line).value.raw.valid =
            (DecodeTable.decodeRawWord48 (cached.2 line).key.inst48).2 := by
  intro cached
  obtain ⟨hrun, hlines⟩ := follows_run execute address dpus events
  refine ⟨hrun, fun line hfilled => ?_⟩
  have hvalue : (cached.2 line).value = (decodeFresh (cached.2 line).key.inst48).1 :=
    (hlines line).resolve_left hfilled
  refine ⟨hvalue, ?_⟩
  rw [hvalue]
  exact DecodeTable.decodeRawWord48_valid _

end

def executeDecoded (inst48 : BitVec 64) (decoded : Decoded48 × Bool) (dpu : Dpu) (t : Nat) :
    Dpu × Bool :=
  let raw := decoded.1.raw
  let start : Exec := ⟨dpu, (dpu.tasklets t).pc + 8, true⟩
  if decoded.2 && raw.valid && decoded.1.metadata.hotSupported then
    retireHot (applyEffects t start (hotEffects raw (operands raw dpu t))) t
  else retireOpcode (applyEffects t start (opcodeEffects (fields inst48 dpu t))) t

theorem hotSupported_populate {decoded : RawDecoded48} (h : decoded.valid = true) :
    (populateHotMetadata48 decoded).hotSupported = decoded.hotSupported := by
  unfold populateHotMetadata48
  split
  · rename_i hskip
    have hop : decoded.hotOp = .none := by simpa [h] using hskip
    unfold RawDecoded48.hotSupported
    rw [hop]
    rfl
  · rfl

theorem handled_iff (inst48 : BitVec 64) :
    ((decodeFresh inst48).2 && (decodeFresh inst48).1.raw.valid &&
        (decodeFresh inst48).1.metadata.hotSupported) =
      handled (fun word => (DecodeTable.decodeRawWord48 word).1) inst48 := by
  have hvalid := DecodeTable.decodeRawWord48_valid inst48
  unfold decodeFresh handled
  cases hflag : (DecodeTable.decodeRawWord48 inst48).2 with
  | false => simp [hvalid, hflag]
  | true =>
      rw [hflag] at hvalid
      simp [hvalid, hflag, hotSupported_populate hvalid]

/-- So a call is what it is taken for everywhere else, with the decoder of the whole table. -/
theorem executeOnceCached_eq {cache : Cache} (h : LinesDecoded cache) (iram : BitVec 64)
    (dpu : Dpu) (t : Nat) :
    let result := (executeOnceCached executeDecoded cache iram dpu t).1
    (result.dpu, result.keepRunning) =
      executeOnce (fun word => (DecodeTable.decodeRawWord48 word).1) dpu t := by
  intro result
  have hfresh : result = _ := (executeOnceCached_spec executeDecoded h iram dpu t).1
  rw [hfresh]
  unfold executeOnceFresh executeOnce
  rw [← fetchSlot_word]
  cases hfetch : fetchSlot dpu t with
  | none => rfl
  | some found =>
      dsimp only [Option.map]
      rw [← handled_iff]
      rfl

end HostPimSim.Upmem.DecodeCache
