import Mathlib.Logic.Function.Basic

/-! Direct-mapped caches of a function.  A key has one line, which keeps the key it was filled for
and what the function left there; a miss fills the line, whatever it held.  The lines begin with
keys that nobody asks for. -/
namespace DirectMapped

structure Line (K V : Type) where
  key : K
  value : V
  deriving DecidableEq

variable {K V I A : Type}

/-- What is asked of a cache: the line of a key, the answer to compute, the part of it that a
line keeps, and the answer read back from that. -/
structure Plan (K V I A : Type) where
  index : K → I
  compute : K → A
  keep : A → V
  readBack : V → A

section
variable (plan : Plan K V I A)

def lookup [DecidableEq K] [DecidableEq I] (lines : I → Line K V) (key : K) : A × (I → Line K V) :=
  let line := lines (plan.index key)
  if line.key = key then (plan.readBack line.value, lines)
  else
    let answer := plan.compute key
    (answer, Function.update lines (plan.index key) ⟨key, plan.keep answer⟩)

def Filled (initial lines : I → Line K V) : Prop :=
  ∀ i, lines i = initial i ∨ (lines i).value = plan.keep (plan.compute (lines i).key)

end

variable {plan : Plan K V I A} {initial lines : I → Line K V}

theorem filled_initial : Filled plan initial initial := fun _ => Or.inl rfl

variable [DecidableEq K] [DecidableEq I]

theorem filled_lookup (h : Filled plan initial lines) (key : K) :
    Filled plan initial (lookup plan lines key).2 := by
  intro i
  unfold lookup
  dsimp only
  split
  · exact h i
  · by_cases hi : i = plan.index key
    · right
      rw [hi]
      dsimp only
      rw [Function.update_self]
    · dsimp only
      rw [Function.update_of_ne hi]
      exact h i

/-- The answer is the one computed, if it can be read back and the key is not an initial one. -/
theorem lookup_eq_compute (hread : ∀ key, plan.readBack (plan.keep (plan.compute key)) =
    plan.compute key) (h : Filled plan initial lines) {key : K}
    (hkey : (initial (plan.index key)).key ≠ key) :
    (lookup plan lines key).1 = plan.compute key := by
  unfold lookup
  dsimp only
  split
  · rename_i hhit
    rcases h (plan.index key) with hsame | hfilled
    · exact absurd (hsame ▸ hhit) hkey
    · rw [hfilled, hhit, hread]
  · rfl

end DirectMapped
