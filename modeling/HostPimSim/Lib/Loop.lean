import Mathlib.Logic.Relation
import Mathlib.Order.Defs.Unbundled

/-! Loops.  A turn leaves either the state of the next turn or the answer the loop ends with, so
that a loop may go on for ever and that it ends is something to prove. -/
namespace Loop

variable {σ β : Type} {turn : σ → σ ⊕ β}

/-- The answer, if at most `n` turns lead to it. -/
def within (turn : σ → σ ⊕ β) : Nat → σ ⊕ β → Option β
  | _, .inr b => some b
  | 0, .inl _ => none
  | n + 1, .inl s => within turn n (turn s)

def Returns (turn : σ → σ ⊕ β) (x : σ ⊕ β) (b : β) : Prop :=
  ∃ n, within turn n x = some b

/-- The second state is that of a later turn, or of the same. -/
def Reaches (turn : σ → σ ⊕ β) : σ → σ → Prop :=
  Relation.ReflTransGen fun s t => turn s = .inl t

@[simp] theorem within_inr (n : Nat) (b : β) : within turn n (.inr b) = some b := by
  cases n <;> rfl

@[simp] theorem within_succ (n : Nat) (s : σ) :
    within turn (n + 1) (.inl s) = within turn n (turn s) := rfl

@[simp] theorem returns_inr {b c : β} : Returns turn (.inr b) c ↔ b = c := by
  unfold Returns
  simp

theorem returns_inl {s : σ} {b : β} : Returns turn (.inl s) b ↔ Returns turn (turn s) b := by
  constructor
  · rintro ⟨n, hn⟩
    cases n with
    | zero => cases hn
    | succ n => exact ⟨n, hn⟩
  · rintro ⟨n, hn⟩
    exact ⟨n + 1, hn⟩

theorem Returns.last {s : σ} {b : β} (h : Returns turn (.inl s) b) :
    ∃ t, Reaches turn s t ∧ turn t = .inr b := by
  obtain ⟨n, hn⟩ := h
  induction n generalizing s with
  | zero => cases hn
  | succ n ih =>
      rw [within_succ] at hn
      cases hturn : turn s with
      | inl t =>
          rw [hturn] at hn
          obtain ⟨u, hreach, hu⟩ := ih hn
          exact ⟨u, .head hturn hreach, hu⟩
      | inr c =>
          rw [hturn, within_inr] at hn
          exact ⟨s, .refl, hturn.trans (congrArg Sum.inr (Option.some.inj hn))⟩

/-- A loop ends if some quantity gets smaller from turn to turn, and with an answer that is right
if every turn keeps the invariant. -/
theorem exists_returns (inv : σ → Prop) (post : β → Prop) {less : σ → σ → Prop}
    (hless : WellFounded less)
    (hnext : ∀ s t, inv s → turn s = .inl t → inv t ∧ less t s)
    (hend : ∀ s b, inv s → turn s = .inr b → post b) {s : σ} (hs : inv s) :
    ∃ b, Returns turn (.inl s) b ∧ post b := by
  induction s using hless.induction with
  | _ s ih =>
      cases hturn : turn s with
      | inr b =>
          refine ⟨b, ?_, hend s b hs hturn⟩
          rw [returns_inl, hturn, returns_inr]
      | inl t =>
          obtain ⟨hinv, ht⟩ := hnext s t hs hturn
          obtain ⟨b, hreturns, hpost⟩ := ih t ht hinv
          refine ⟨b, ?_, hpost⟩
          rw [returns_inl, hturn]
          exact hreturns

end Loop
