import Mathlib.Data.List.Forall2
import Mathlib.Data.List.Infix

/-! Patterns with two special letters, one that stands for any sequence and one for any letter.
A piece without the first fits exactly the sequences of its own length that agree with it letter
by letter, which is why a search need go back to the last such letter only. -/
namespace Glob

variable {α : Type} {star one : α} {p q s u : List α}

inductive Matches (star one : α) : List α → List α → Prop
  | nil : Matches star one [] []
  | star {p s : List α} (u : List α) : Matches star one p s → Matches star one (star :: p) (u ++ s)
  | one {p s : List α} (c : α) : Matches star one p s → Matches star one (one :: p) (c :: s)
  | same {p s : List α} {c : α} :
      c ≠ star → c ≠ one → Matches star one p s → Matches star one (c :: p) (c :: s)

/-- One letter of a pattern, other than `star`, and a letter it stands for. -/
def FitsOne (star one c d : α) : Prop :=
  c ≠ star ∧ (c = one ∨ c = d)

/-- A piece of a pattern without `star` and a sequence it stands for. -/
abbrev Fits (star one : α) : List α → List α → Prop :=
  List.Forall₂ (FitsOne star one)

theorem matches_star_iff (hne : star ≠ one) :
    Matches star one (star :: p) s ↔ ∃ u t, s = u ++ t ∧ Matches star one p t := by
  constructor
  · intro h
    generalize hq : star :: p = q at h
    cases h with
    | nil => cases hq
    | star u h =>
        cases hq
        exact ⟨u, _, rfl, h⟩
    | one c h => exact absurd (List.head_eq_of_cons_eq hq) hne
    | same hc hc' h => exact absurd (List.head_eq_of_cons_eq hq).symm hc
  · rintro ⟨u, t, rfl, h⟩
    exact .star u h

theorem Matches.absorb (hne : star ≠ one) (h : Matches star one (star :: p) s) (u : List α) :
    Matches star one (star :: p) (u ++ s) := by
  obtain ⟨v, t, rfl, ht⟩ := (matches_star_iff hne).mp h
  rw [← List.append_assoc]
  exact .star (u ++ v) ht

theorem matches_star_star (hne : star ≠ one) :
    Matches star one (star :: star :: p) s ↔ Matches star one (star :: p) s := by
  constructor
  · intro h
    obtain ⟨u, t, rfl, ht⟩ := (matches_star_iff hne).mp h
    exact ht.absorb hne u
  · intro h
    exact .star [] h

theorem matches_cons_iff {c : α} (hc : c ≠ star) :
    Matches star one (c :: p) s ↔ ∃ d t, s = d :: t ∧ FitsOne star one c d ∧
      Matches star one p t := by
  constructor
  · intro h
    cases h with
    | star u h => exact absurd rfl hc
    | one d h => exact ⟨d, _, rfl, ⟨hc, .inl rfl⟩, h⟩
    | same _ _ h => exact ⟨c, _, rfl, ⟨hc, .inr rfl⟩, h⟩
  · rintro ⟨d, t, rfl, ⟨-, hfit⟩, h⟩
    by_cases hone : c = one
    · rw [hone]
      exact .one d h
    · obtain rfl := hfit.resolve_left hone
      exact .same hc hone h

theorem matches_nil_left : Matches star one [] s ↔ s = [] := by
  constructor
  · intro h
    cases h
    rfl
  · rintro rfl
    exact .nil

theorem matches_append_iff (hq : ∀ c ∈ q, c ≠ star) :
    Matches star one (q ++ p) s ↔
      ∃ u t, s = u ++ t ∧ Fits star one q u ∧ Matches star one p t := by
  induction q generalizing s with
  | nil =>
      constructor
      · intro h
        exact ⟨[], s, rfl, .nil, h⟩
      · rintro ⟨u, t, rfl, hfits, h⟩
        cases hfits
        exact h
  | cons c q ih =>
      have hq' : ∀ d ∈ q, d ≠ star := fun d hd => hq d (List.mem_cons_of_mem c hd)
      rw [List.cons_append, matches_cons_iff (hq c List.mem_cons_self)]
      constructor
      · rintro ⟨d, t, rfl, hfit, h⟩
        obtain ⟨u, v, rfl, hfits, hv⟩ := (ih hq').mp h
        exact ⟨d :: u, v, rfl, .cons hfit hfits, hv⟩
      · rintro ⟨u, t, rfl, hfits, h⟩
        cases hfits with
        | cons hfit hfits => exact ⟨_, _, rfl, hfit, (ih hq').mpr ⟨_, _, rfl, hfits, h⟩⟩

theorem Fits.ne_star (h : Fits star one q u) : ∀ c ∈ q, c ≠ star := by
  induction h with
  | nil => intro c hc; cases hc
  | cons hfit _ ih =>
      intro c hc
      cases hc with
      | head => exact hfit.1
      | tail _ hc => exact ih c hc

theorem Fits.matches_append_iff (h : Fits star one q u) :
    Matches star one (q ++ p) (u ++ s) ↔ Matches star one p s := by
  rw [Glob.matches_append_iff h.ne_star]
  constructor
  · rintro ⟨v, t, heq, hfits, ht⟩
    have hlength : u.length = v.length := h.length_eq.symm.trans hfits.length_eq
    rw [(List.append_inj heq hlength).2]
    exact ht
  · intro hs
    exact ⟨u, s, rfl, h, hs⟩

/-- A later `star` makes up for every earlier one: if the piece between them has been laid on `u`,
the earlier one need not stand for more than it does. -/
theorem Fits.star_append_iff (hne : star ≠ one) (h : Fits star one q u) :
    Matches star one (star :: (q ++ star :: p)) (u ++ s) ↔ Matches star one (star :: p) s := by
  constructor
  · intro hmatch
    obtain ⟨v, t, heq, ht⟩ := (matches_star_iff hne).mp hmatch
    obtain ⟨w, r, rfl, hfits, hr⟩ := (Glob.matches_append_iff h.ne_star).mp ht
    have hlength : u.length = w.length := h.length_eq.symm.trans hfits.length_eq
    -- What is left there is part of what is left here.
    obtain ⟨x, rfl⟩ : ∃ x, s = x ++ r := by
      have hsuffix : r <:+ s := by
        have hwhole : r <:+ u ++ s := by
          rw [heq, ← List.append_assoc]
          exact List.suffix_append _ r
        refine List.suffix_of_suffix_length_le hwhole (List.suffix_append u s) ?_
        have hsum := congrArg List.length heq
        simp only [List.length_append] at hsum
        omega
      obtain ⟨x, hx⟩ := hsuffix
      exact ⟨x, hx.symm⟩
    exact hr.absorb hne x
  · intro hmatch
    exact .star [] (h.matches_append_iff.mpr hmatch)

/-- Where a piece reaches the end of the sequence, no later place is left to lay it on. -/
theorem Fits.star_end_iff (hne : star ≠ one) (h : Fits star one q u) :
    Matches star one (star :: (q ++ p)) u ↔ Matches star one p [] := by
  constructor
  · intro hmatch
    obtain ⟨v, t, heq, ht⟩ := (matches_star_iff hne).mp hmatch
    obtain ⟨w, r, rfl, hfits, hr⟩ := (Glob.matches_append_iff h.ne_star).mp ht
    have hlength : u.length = w.length := h.length_eq.symm.trans hfits.length_eq
    have hsum := congrArg List.length heq
    simp only [List.length_append] at hsum
    obtain rfl : r = [] := List.eq_nil_of_length_eq_zero (by omega)
    exact hr
  · intro hend
    have hmatch := h.matches_append_iff.mpr hend
    rw [List.append_nil] at hmatch
    exact .star [] hmatch

/-- A place at which the pattern after a `star` does not match can be passed over. -/
theorem star_cons_iff (hne : star ≠ one) {c : α} (h : ¬ Matches star one p (c :: s)) :
    Matches star one (star :: p) (c :: s) ↔ Matches star one (star :: p) s := by
  constructor
  · intro hmatch
    obtain ⟨u, t, heq, ht⟩ := (matches_star_iff hne).mp hmatch
    cases u with
    | nil =>
        rw [heq] at h
        exact absurd ht h
    | cons d u =>
        cases heq
        exact .star u ht
  · intro hmatch
    exact hmatch.absorb hne [c]

end Glob
