import Mathlib.Logic.Function.Basic

/-! The search for the first free value: a counter that is stepped on as long as what it stands
at is taken, up to its last value. -/
namespace FirstFree

/-- A counter with a last value.  The rank of a value is how far it is from the first. -/
structure Counter (α : Type) where
  next : α → Option α
  rank : α → Nat
  size : Nat
  rank_lt : ∀ a, rank a < size
  rank_inj : Function.Injective rank
  next_some : ∀ a b, next a = some b → rank b = rank a + 1
  next_none : ∀ a, next a = none → rank a + 1 = size

variable {α : Type} (c : Counter α) (taken : α → Bool)

def search (a : α) : Option α :=
  if taken a then
    match _ : c.next a with
    | none => none
    | some b => search b
  else some a
termination_by c.size - c.rank a
decreasing_by
  have hnext := c.next_some a b (by assumption)
  have hless := c.rank_lt b
  omega

variable {c taken} {a b : α}

theorem search_free (h : taken a = false) : search c taken a = some a := by
  rw [search, if_neg (by rw [h]; exact Bool.false_ne_true)]

theorem search_some (h : search c taken a = some b) :
    taken b = false ∧ c.rank a ≤ c.rank b ∧
      ∀ x, c.rank a ≤ c.rank x → c.rank x < c.rank b → taken x = true := by
  fun_induction search c taken a with
  | case1 a htaken hnone => cases h
  | case2 a htaken next hnext ih =>
      obtain ⟨hfree, hle, hall⟩ := ih h
      have hrank := c.next_some a next hnext
      refine ⟨hfree, by omega, fun x hfrom hto => ?_⟩
      by_cases hx : c.rank x = c.rank a
      · rw [c.rank_inj hx]
        exact htaken
      · exact hall x (by omega) hto
  | case3 a htaken =>
      obtain rfl := Option.some.inj h
      exact ⟨Bool.eq_false_iff.mpr htaken, Nat.le_refl _, fun x hfrom hto => by omega⟩

theorem search_none : search c taken a = none ↔ ∀ x, c.rank a ≤ c.rank x → taken x = true := by
  fun_induction search c taken a with
  | case1 a htaken hnone =>
      refine iff_of_true rfl fun x hfrom => ?_
      have hlast := c.next_none a hnone
      have hless := c.rank_lt x
      rw [c.rank_inj (show c.rank x = c.rank a by omega)]
      exact htaken
  | case2 a htaken next hnext ih =>
      have hrank := c.next_some a next hnext
      rw [ih]
      constructor
      · intro hall x hfrom
        by_cases hx : c.rank x = c.rank a
        · rw [c.rank_inj hx]
          exact htaken
        · exact hall x (by omega)
      · intro hall x hfrom
        exact hall x (by omega)
  | case3 a htaken =>
      refine iff_of_false (by simp) fun hall => ?_
      exact htaken (hall a (Nat.le_refl _))

theorem search_isSome (hfirst : c.rank a = 0) :
    (search c taken a).isSome = true ↔ ∃ x, taken x = false := by
  rw [Option.isSome_iff_ne_none, ne_eq, search_none]
  constructor
  · intro h
    by_contra hnone
    refine h fun x _ => ?_
    by_contra hx
    exact hnone ⟨x, Bool.eq_false_iff.mpr hx⟩
  · rintro ⟨x, hx⟩ hall
    have htaken := hall x (by omega)
    rw [hx] at htaken
    cases htaken

end FirstFree
