import Mathlib.Data.Nat.ModEq
import Mathlib.Tactic.Ring

/-! Multiplication and division one bit at a time: what holds of the two numbers
that such a loop keeps, before, between and after its steps. -/
namespace HostPimSim.Lib.ShiftSteps

/-- After `i` bits of the factor `b`: the bits that are left, and the sum modulo
`modulus` of what the others contribute. -/
structure Adding (modulus a b i rest sum : Nat) : Prop where
  rest : rest = b / 2 ^ i
  sum : sum ≡ a * (b % 2 ^ i) [MOD modulus]

section
variable {modulus a b i rest sum : Nat}

theorem Adding.start (modulus a b : Nat) : Adding modulus a b 0 b 0 := by
  constructor
  · rw [pow_zero, Nat.div_one]
  · rw [pow_zero, Nat.mod_one, Nat.mul_zero]

theorem Adding.step (h : Adding modulus a b i rest sum) {next : Nat}
    (hnext : next ≡ sum + a * 2 ^ i * (rest % 2) [MOD modulus]) :
    Adding modulus a b (i + 1) (rest / 2) next := by
  constructor
  · rw [h.rest, Nat.div_div_eq_div_mul, pow_succ]
  · have hbits : a * (b % 2 ^ (i + 1)) = a * (b % 2 ^ i) + a * 2 ^ i * (rest % 2) := by
      rw [pow_succ, Nat.mod_mul, h.rest]
      ring
    rw [hbits]
    exact hnext.trans (h.sum.add_right _)

end

/-- The quotient of the bits from `s` on, and what is left to divide. -/
structure Dividing (dividend divisor s quotient rest : Nat) : Prop where
  sum : quotient * (divisor * 2 ^ s) + rest = dividend
  rest : rest < divisor * 2 ^ s

section
variable {dividend divisor s quotient rest : Nat}

theorem Dividing.start (h : dividend < divisor * 2 ^ s) : Dividing dividend divisor s 0 dividend :=
  ⟨by rw [Nat.zero_mul, Nat.zero_add], h⟩

theorem Dividing.subtract (h : Dividing dividend divisor (s + 1) quotient rest)
    (hfits : divisor * 2 ^ s ≤ rest) :
    Dividing dividend divisor s (2 * quotient + 1) (rest - divisor * 2 ^ s) := by
  have hdouble : divisor * 2 ^ (s + 1) = 2 * (divisor * 2 ^ s) := by ring
  obtain ⟨hsum, hrest⟩ := h
  rw [hdouble] at hsum hrest
  constructor
  · have hquotient : (2 * quotient + 1) * (divisor * 2 ^ s) =
        quotient * (2 * (divisor * 2 ^ s)) + divisor * 2 ^ s := by ring
    omega
  · omega

theorem Dividing.restore (h : Dividing dividend divisor (s + 1) quotient rest)
    (hsmall : rest < divisor * 2 ^ s) : Dividing dividend divisor s (2 * quotient) rest := by
  constructor
  · rw [← h.sum]
    ring
  · exact hsmall

theorem Dividing.quotient_le (h : Dividing dividend divisor s quotient rest) :
    quotient ≤ dividend := by
  have hpos : 0 < divisor * 2 ^ s := Nat.lt_of_le_of_lt (Nat.zero_le rest) h.rest
  have hle : quotient ≤ quotient * (divisor * 2 ^ s) := Nat.le_mul_of_pos_right quotient hpos
  have hsum := h.sum
  omega

theorem Dividing.finish (h : Dividing dividend divisor 0 quotient rest) :
    quotient = dividend / divisor ∧ rest = dividend % divisor := by
  obtain ⟨hsum, hrest⟩ := h
  rw [pow_zero, Nat.mul_one] at hsum hrest
  have hdivided : rest + divisor * quotient = dividend := by
    rw [← hsum]
    ring
  obtain ⟨hquotient, hremainder⟩ :=
    (Nat.div_mod_unique (Nat.lt_of_le_of_lt (Nat.zero_le rest) hrest)).mpr ⟨hdivided, hrest⟩
  exact ⟨hquotient.symm, hremainder.symm⟩

end

end HostPimSim.Lib.ShiftSteps
