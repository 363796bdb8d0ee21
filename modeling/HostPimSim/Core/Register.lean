import Mathlib.Data.BitVec
import Mathlib.Tactic.IntervalCases

/-! Typed register access over byte-addressed region memory.  Offsets are
relative to the register, so byte `i` of the memory is `region->ptr + offset + i`. -/
namespace HostPimSim.Core.Register

abbrev Bytes := Nat → BitVec 8

def pimIsSupportedRegisterSize (size : Nat) : Bool :=
  size == 1 || size == 2 || size == 4 || size == 8

def pimRegisterValueMask (size : Nat) : BitVec 64 :=
  if !pimIsSupportedRegisterSize size then 0
  else if size == 8 then BitVec.allOnes 64
  else (1 : BitVec 64) <<< (size * 8) - 1

/-- The first `count` rounds of the byte loop shared by
`pim_load_register_u64` and its volatile variant. -/
def loadBytes (bytes : Bytes) : Nat → BitVec 64
  | 0 => 0
  | count + 1 =>
      loadBytes bytes count ||| (bytes count).setWidth 64 <<< (count * 8)

def pimLoadRegisterU64 (bytes : Bytes) (size : Nat) : Option (BitVec 64) :=
  if pimIsSupportedRegisterSize size then some (loadBytes bytes size) else none

/-- `static_cast<T>(value)` for an unsigned `T` of `size` bytes. -/
def truncate (size : Nat) (value : BitVec 64) : BitVec 64 :=
  value &&& pimRegisterValueMask size

/-- `*target = value` for a target of `size` bytes, little endian. -/
def store (bytes : Bytes) (size : Nat) (value : BitVec 64) : Bytes :=
  fun i => if i < size then (value >>> (i * 8)).setWidth 8 else bytes i

theorem supported_cases {size : Nat} (h : pimIsSupportedRegisterSize size = true) :
    size = 1 ∨ size = 2 ∨ size = 4 ∨ size = 8 := by
  simpa [pimIsSupportedRegisterSize, or_assoc] using h

theorem supported_le {size : Nat} (h : pimIsSupportedRegisterSize size = true) :
    size ≤ 8 := by
  have := supported_cases h
  omega

theorem getLsbD_pimRegisterValueMask {size : Nat}
    (h : pimIsSupportedRegisterSize size = true) {k : Nat} (hk : k < 64) :
    (pimRegisterValueMask size).getLsbD k = decide (k < size * 8) := by
  have hall : ∀ i : Fin 64,
      (pimRegisterValueMask size).getLsbD i.val = decide (i.val < size * 8) := by
    rcases supported_cases h with rfl | rfl | rfl | rfl <;> decide
  exact hall ⟨k, hk⟩

theorem getLsbD_loadBytes (bytes : Bytes) {count : Nat} (hcount : count ≤ 8)
    {k : Nat} (hk : k < 64) :
    (loadBytes bytes count).getLsbD k =
      (decide (k < count * 8) && (bytes (k / 8)).getLsbD (k % 8)) := by
  induction count with
  | zero => simp [loadBytes]
  | succ count ih =>
      rw [loadBytes, BitVec.getLsbD_or, ih (by omega)]
      simp only [BitVec.getLsbD_shiftLeft, BitVec.getLsbD_setWidth, hk, decide_true,
        Bool.true_and]
      by_cases hlow : k < count * 8
      · have hnext : k < (count + 1) * 8 := by omega
        simp [hlow, hnext]
      · by_cases hnext : k < (count + 1) * 8
        · have hdiv : k / 8 = count := by omega
          have hmod : k - count * 8 = k % 8 := by omega
          have hwidth : k % 8 < 64 := by omega
          simp [hlow, hnext, hdiv, hmod, hwidth]
        · have hhigh : 8 ≤ k - count * 8 := by omega
          simp [hlow, hnext, BitVec.getLsbD_of_ge _ _ hhigh]

/-- A typed store sets the register to the cached value exactly when it covers
the register, or when the bytes it leaves alone are zero. -/
theorem loadBytes_store {bytes : Bytes} {registerSize size : Nat}
    (hregister : pimIsSupportedRegisterSize registerSize = true)
    (hsize : pimIsSupportedRegisterSize size = true) (value : BitVec 64)
    (hcover : ∀ i, size ≤ i → i < registerSize → bytes i = 0) :
    loadBytes (store bytes size value) registerSize =
      truncate size value &&& pimRegisterValueMask registerSize := by
  apply BitVec.eq_of_getLsbD_eq
  intro k hk
  rw [getLsbD_loadBytes _ (supported_le hregister) hk, truncate]
  simp only [BitVec.getLsbD_and, getLsbD_pimRegisterValueMask hregister hk,
    getLsbD_pimRegisterValueMask hsize hk]
  by_cases hin : k < registerSize * 8
  · have hdecompose : k / 8 * 8 + k % 8 = k := by omega
    by_cases hlow : k / 8 < size
    · have hwritten : k < size * 8 := by omega
      have hbit : k % 8 < 8 := by omega
      simp [store, hlow, hin, hwritten, hbit, hdecompose]
    · have hkept : ¬ k < size * 8 := by omega
      simp [store, hlow, hin, hkept, hcover (k / 8) (by omega) (by omega)]
  · simp [hin]

theorem loadBytes_eq_iff {first second : Bytes} {count : Nat} (hcount : count ≤ 8) :
    loadBytes first count = loadBytes second count ↔ ∀ i < count, first i = second i := by
  constructor
  · intro h i hi
    apply BitVec.eq_of_getLsbD_eq
    intro k hk
    have hbit := congrArg (fun value => value.getLsbD (i * 8 + k)) h
    have hdiv : (i * 8 + k) / 8 = i := by omega
    have hmod : (i * 8 + k) % 8 = k := by omega
    rw [getLsbD_loadBytes _ hcount (by omega), getLsbD_loadBytes _ hcount (by omega), hdiv,
      hmod, decide_eq_true (by omega), Bool.true_and, Bool.true_and] at hbit
    exact hbit
  · intro h
    apply BitVec.eq_of_getLsbD_eq
    intro k hk
    rw [getLsbD_loadBytes _ hcount hk, getLsbD_loadBytes _ hcount hk]
    by_cases hin : k < count * 8
    · rw [h (k / 8) (by omega)]
    · simp [hin]

theorem loadBytes_store_iff {bytes : Bytes} {registerSize size : Nat}
    (hregister : pimIsSupportedRegisterSize registerSize = true)
    (hsize : pimIsSupportedRegisterSize size = true) (value : BitVec 64) :
    loadBytes (store bytes size value) registerSize =
        truncate size value &&& pimRegisterValueMask registerSize ↔
      ∀ i < registerSize, size ≤ i → bytes i = 0 := by
  have hzero : loadBytes (store (fun _ => 0) size value) registerSize =
      truncate size value &&& pimRegisterValueMask registerSize :=
    loadBytes_store hregister hsize value fun _ _ _ => rfl
  rw [← hzero, loadBytes_eq_iff (supported_le hregister)]
  constructor
  · intro h i hi hkept
    have hbyte := h i hi
    unfold store at hbyte
    rw [if_neg (by omega), if_neg (by omega)] at hbyte
    exact hbyte
  · intro h i hi
    unfold store
    split
    · rfl
    · exact h i hi (by omega)

end HostPimSim.Core.Register
