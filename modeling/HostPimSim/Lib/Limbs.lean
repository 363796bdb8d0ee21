import Mathlib.Tactic.Ring

/-! Numbers in limbs of a fixed base, and what a chain of carries through the
limbs adds up to. -/
namespace HostPimSim.Lib.Limbs

/-- The number of the first `n` limbs, the least significant first. -/
def value (base : Nat) (limb : Nat → Nat) : Nat → Nat
  | 0 => 0
  | n + 1 => value base limb n + limb n * base ^ n

variable {base n : Nat}

theorem value_lt {limb : Nat → Nat} (h : ∀ i, i < n → limb i < base) :
    value base limb n < base ^ n := by
  induction n with
  | zero => exact Nat.one_pos
  | succ n ih =>
      have hlow := ih fun i hi => h i (by omega)
      have hhigh : (limb n + 1) * base ^ n ≤ base * base ^ n :=
        Nat.mul_le_mul_right _ (h n (by omega))
      unfold value
      rw [pow_succ']
      rw [Nat.add_mul, Nat.one_mul] at hhigh
      omega

/-- Limbs that add up one by one, each with the carry out of the last, add up as
numbers. -/
theorem carry_chain (total left right carry : Nat → Nat)
    (h : ∀ i, i < n → total i + base * carry (i + 1) = left i + right i + carry i) :
    value base total n + base ^ n * carry n =
      value base left n + value base right n + carry 0 := by
  induction n with
  | zero => simp [value]
  | succ n ih =>
      have hlow := ih fun i hi => h i (by omega)
      have hhigh := h n (by omega)
      unfold value
      calc value base total n + total n * base ^ n + base ^ (n + 1) * carry (n + 1)
          = value base total n + (total n + base * carry (n + 1)) * base ^ n := by ring
        _ = value base total n + (left n + right n + carry n) * base ^ n := by rw [hhigh]
        _ = (value base total n + base ^ n * carry n) +
              (left n + right n) * base ^ n := by ring
        _ = value base left n + left n * base ^ n + (value base right n + right n * base ^ n) +
              carry 0 := by rw [hlow]; ring

/-- A sum within its limbs is the sum modulo their range, with the carry out. -/
theorem sum_of_chain {total left right carry : Nat}
    (hcarry : carry ≤ 1) (htotal : total < base ^ n)
    (h : total + base ^ n * carry = left + right) :
    total = (left + right) % base ^ n ∧ (carry = 1 ↔ base ^ n ≤ left + right) := by
  constructor
  · rw [← h, Nat.add_mul_mod_self_left, Nat.mod_eq_of_lt htotal]
  · obtain hzero | hone : carry = 0 ∨ carry = 1 := by omega
    · subst hzero
      omega
    · subst hone
      omega

/-- A difference within its limbs is the difference modulo their range, with the
borrow out. -/
theorem difference_of_chain {total left right borrow : Nat}
    (hborrow : borrow ≤ 1) (htotal : total < base ^ n) (hright : right < base ^ n)
    (h : left + base ^ n * borrow = total + right) :
    total = (left + base ^ n - right) % base ^ n ∧ (borrow = 1 ↔ left < right) := by
  obtain hzero | hone : borrow = 0 ∨ borrow = 1 := by omega
  · subst hzero
    have hsplit : left + base ^ n - right = total + base ^ n := by omega
    rw [hsplit, Nat.add_mod_right, Nat.mod_eq_of_lt htotal]
    omega
  · subst hone
    have hsplit : left + base ^ n - right = total := by omega
    rw [hsplit, Nat.mod_eq_of_lt htotal]
    omega

end HostPimSim.Lib.Limbs
