import Mathlib.Logic.Basic

/-! Decision trees: code without loops, each branch of which returns.  A node executes a statement
or tests the input, and a leaf is what is returned.  A check that follows every path on a part of
the state is sound for all inputs. -/
namespace DecisionTree

inductive Tree (ι S β : Type) where
  | leaf (answer : β)
  | exec (statement : S) (next : Tree ι S β)
  | test (condition : ι → Bool) (yes no : Tree ι S β)

variable {ι S β σ τ : Type} (apply : ι → σ → S → σ) (after : τ → S → τ)

/-- The state in which the tree returns, and what it returns. -/
def run (input : ι) : Tree ι S β → σ → σ × β
  | .leaf answer, s => (s, answer)
  | .exec statement next, s => run input next (apply input s statement)
  | .test condition yes no, s => if condition input then run input yes s else run input no s

def check (accepts : τ → β → Bool) : Tree ι S β → τ → Bool
  | .leaf answer, t => accepts t answer
  | .exec statement next, t => check accepts next (after t statement)
  | .test _ yes no, t => check accepts yes t && check accepts no t

variable {apply after}

/-- The check need only follow a view of the state that each statement changes by itself. -/
theorem accepts_run {view : σ → τ}
    (hview : ∀ input s statement, view (apply input s statement) = after (view s) statement)
    {accepts : τ → β → Bool} {tree : Tree ι S β} {s : σ}
    (h : check after accepts tree (view s) = true) (input : ι) :
    accepts (view (run apply input tree s).1) (run apply input tree s).2 = true := by
  induction tree generalizing s with
  | leaf answer => exact h
  | exec statement next ih =>
      apply ih
      rw [hview]
      exact h
  | test condition yes no ihYes ihNo =>
      obtain ⟨hyes, hno⟩ := Bool.and_eq_true_iff.mp h
      unfold run
      split
      · exact ihYes hyes
      · exact ihNo hno

/-- The branches in turn, and after them `last`. -/
def firstOf (last : Tree ι S β) (branches : List ((ι → Bool) × Tree ι S β)) : Tree ι S β :=
  branches.foldr (fun branch rest => .test branch.1 branch.2 rest) last

/-- What each branch ensures where its test holds, the block ensures. -/
theorem run_firstOf {P : σ × β → Prop} {last : Tree ι S β} {input : ι} {s : σ}
    {branches : List ((ι → Bool) × Tree ι S β)} (hlast : P (run apply input last s))
    (hbranches : ∀ branch ∈ branches, branch.1 input = true → P (run apply input branch.2 s)) :
    P (run apply input (firstOf last branches) s) := by
  induction branches with
  | nil => exact hlast
  | cons branch branches ih =>
      obtain ⟨hfirst, hrest⟩ := List.forall_mem_cons.mp hbranches
      unfold firstOf
      rw [List.foldr_cons, run]
      by_cases htest : branch.1 input = true
      · rw [if_pos htest]
        exact hfirst htest
      · rw [if_neg htest]
        exact ih hrest

end DecisionTree
