import Mathlib.Data.List.Perm.Basic

/-! Turns of parties on a common state.  Where the turns of different parties commute as long
as they are quiet, the order in which the parties get their turns does not matter. -/
namespace Schedule

variable {σ ι : Type} {turn : σ → ι → σ} {quiet : σ → ι → Prop}

/-- Each turn of the list is quiet in the state in which it is taken. -/
def Quiet (turn : σ → ι → σ) (quiet : σ → ι → Prop) : σ → List ι → Prop
  | _, [] => True
  | s, i :: is => quiet s i ∧ Quiet turn quiet (turn s i) is

instance decidableQuiet (turn : σ → ι → σ) (quiet : σ → ι → Prop) [∀ s i, Decidable (quiet s i)] :
    ∀ s is, Decidable (Quiet turn quiet s is)
  | _, [] => isTrue trivial
  | s, i :: is =>
      have := decidableQuiet turn quiet (turn s i) is
      inferInstanceAs (Decidable (quiet s i ∧ Quiet turn quiet (turn s i) is))

structure Commuting (turn : σ → ι → σ) (quiet : σ → ι → Prop) : Prop where
  stable : ∀ s i j, i ≠ j → quiet s i → (quiet (turn s i) j ↔ quiet s j)
  comm : ∀ s i j, i ≠ j → quiet s i → quiet s j → turn (turn s i) j = turn (turn s j) i

theorem Commuting.quiet_swap (h : Commuting turn quiet) {s : σ} {i j : ι} {is : List ι}
    (hquiet : Quiet turn quiet s (i :: j :: is)) : Quiet turn quiet s (j :: i :: is) ∧
      turn (turn s j) i = turn (turn s i) j := by
  by_cases hij : i = j
  · subst hij
    exact ⟨hquiet, rfl⟩
  · obtain ⟨hi, hj', hrest⟩ := hquiet
    have hj : quiet s j := (h.stable s i j hij hi).mp hj'
    have hcomm := h.comm s j i (Ne.symm hij) hj hi
    have hi' : quiet (turn s j) i := (h.stable s j i (Ne.symm hij) hj).mpr hi
    refine ⟨⟨hj, hi', ?_⟩, hcomm⟩
    rw [hcomm]
    exact hrest

/-- All orders of a quiet list of turns are quiet and end in one state. -/
theorem Commuting.perm (h : Commuting turn quiet) {is js : List ι} (hperm : is.Perm js) {s : σ}
    (hquiet : Quiet turn quiet s is) :
    Quiet turn quiet s js ∧ is.foldl turn s = js.foldl turn s := by
  induction hperm generalizing s with
  | nil => exact ⟨hquiet, rfl⟩
  | cons i _ ih =>
      obtain ⟨hrest, hend⟩ := ih hquiet.2
      exact ⟨⟨hquiet.1, hrest⟩, hend⟩
  | swap i j is =>
      obtain ⟨hswapped, hcomm⟩ := h.quiet_swap hquiet
      refine ⟨hswapped, ?_⟩
      rw [List.foldl_cons, List.foldl_cons, List.foldl_cons, List.foldl_cons, hcomm]
  | trans _ _ ih ih' =>
      obtain ⟨hmiddle, hfirst⟩ := ih hquiet
      obtain ⟨hlast, hsecond⟩ := ih' hmiddle
      exact ⟨hlast, hfirst.trans hsecond⟩

end Schedule
