import Mathlib.Data.List.Pairwise

/-! Spans in the order of their starts, each over before the next begins.  A new one
that clears its two neighbours at the lower bound clears all of them. -/
namespace Spans

variable {τ : Type} {start stop : τ → Nat} {spans : List τ}

def Apart (start stop : τ → Nat) (spans : List τ) : Prop :=
  spans.Pairwise fun first second => stop first ≤ start second

/-- The spans that start before the bound, and those from the lower bound on. -/
def before (start : τ → Nat) (bound : Nat) (spans : List τ) : List τ :=
  spans.takeWhile fun span => start span < bound

def lowerBound (start : τ → Nat) (bound : Nat) (spans : List τ) : List τ :=
  spans.dropWhile fun span => start span < bound

theorem before_append_lowerBound (start : τ → Nat) (bound : Nat) (spans : List τ) :
    before start bound spans ++ lowerBound start bound spans = spans :=
  List.takeWhile_append_dropWhile

theorem mem_insert {bound : Nat} {span new : τ} :
    span ∈ before start bound spans ++ new :: lowerBound start bound spans ↔
      span = new ∨ span ∈ spans := by
  rw [List.mem_append, List.mem_cons, or_left_comm, ← List.mem_append,
    before_append_lowerBound]

theorem Apart.insert {new : τ} (h : Apart start stop spans)
    (hspan : ∀ span ∈ spans, start span ≤ stop span)
    (hnext : ∀ next ∈ (lowerBound start (start new) spans).head?, stop new ≤ start next)
    (hprev : ∀ prev ∈ (before start (start new) spans).getLast?, stop prev ≤ start new) :
    Apart start stop
      (before start (start new) spans ++ new :: lowerBound start (start new) spans) := by
  induction spans with
  | nil => exact List.pairwise_singleton _ _
  | cons first rest ih =>
      obtain ⟨hfirst, hrest⟩ := List.pairwise_cons.mp h
      have hspanFirst := hspan first List.mem_cons_self
      have hspanRest : ∀ span ∈ rest, start span ≤ stop span :=
        fun span hmem => hspan span (List.mem_cons_of_mem first hmem)
      by_cases hless : start first < start new
      · have hbefore : before start (start new) (first :: rest) =
            first :: before start (start new) rest := by simp [before, hless]
        have hlower : lowerBound start (start new) (first :: rest) =
            lowerBound start (start new) rest := by simp [lowerBound, hless]
        rw [hlower] at hnext ⊢
        rw [hbefore] at hprev ⊢
        refine List.pairwise_cons.mpr ⟨?_, ih hrest hspanRest hnext ?_⟩
        · intro span hmem
          rcases mem_insert.mp hmem with rfl | hold
          · -- the last one before the bound is over in time, and so is all before it
            cases hlast : (before start (start span) rest).getLast? with
            | none =>
                rw [List.getLast?_eq_none_iff.mp hlast] at hprev
                exact hprev first rfl
            | some prev =>
                have hmemPrev : prev ∈ rest :=
                  (List.takeWhile_sublist _).subset (List.mem_of_getLast? hlast)
                have hover := hprev prev (by simp [List.getLast?_cons, hlast])
                have horder := hfirst prev hmemPrev
                have := hspanRest prev hmemPrev
                omega
          · exact hfirst span hold
        · intro prev hmem
          refine hprev prev ?_
          rw [Option.mem_def] at hmem
          simp [List.getLast?_cons, hmem]
      · have hbefore : before start (start new) (first :: rest) = [] := by
          simp [before, hless]
        have hlower : lowerBound start (start new) (first :: rest) = first :: rest := by
          simp [lowerBound, hless]
        rw [hlower] at hnext ⊢
        rw [hbefore, List.nil_append]
        refine List.pairwise_cons.mpr ⟨?_, h⟩
        intro span hmem
        have hclear := hnext first rfl
        rcases List.mem_cons.mp hmem with rfl | hold
        · exact hclear
        · have := hfirst span hold
          omega

theorem Apart.disjoint (h : Apart start stop spans) {first second : τ} (hfirst : first ∈ spans)
    (hsecond : second ∈ spans) (hne : first ≠ second) :
    stop first ≤ start second ∨ stop second ≤ start first := by
  have hsymm : Std.Symm fun a b : τ => stop a ≤ start b ∨ stop b ≤ start a :=
    ⟨fun _ _ hab => hab.symm⟩
  have heither := h.imp fun {a b} hab => show stop a ≤ start b ∨ stop b ≤ start a from .inl hab
  exact heither.forall hfirst hsecond hne

/-- Spans with starts that grow are apart as soon as each is over before any later start. -/
theorem apart_iff_of_sorted
    (hsorted : spans.Pairwise fun first second => start first < start second) :
    Apart start stop spans ↔
      ∀ first ∈ spans, ∀ second ∈ spans, start first < start second → stop first ≤ start second := by
  constructor
  · intro hapart
    have hsymm : Std.Symm fun a b : τ =>
        (start a < start b → stop a ≤ start b) ∧ (start b < start a → stop b ≤ start a) :=
      ⟨fun _ _ h => h.symm⟩
    have hboth := (hapart.and hsorted).imp fun {a b} h =>
      show (start a < start b → stop a ≤ start b) ∧ (start b < start a → stop b ≤ start a) from
        ⟨fun _ => h.1, fun hlt => absurd h.2 (Nat.lt_asymm hlt)⟩
    have hself : ∀ a ∈ spans,
        (start a < start a → stop a ≤ start a) ∧ (start a < start a → stop a ≤ start a) :=
      fun a _ => ⟨fun h => absurd h (Nat.lt_irrefl _), fun h => absurd h (Nat.lt_irrefl _)⟩
    intro first hfirst second hsecond
    exact (hboth.forall_of_forall hself hfirst hsecond).1
  · intro h
    exact hsorted.imp_of_mem fun hfirst hsecond hlt => h _ hfirst _ hsecond hlt

end Spans
