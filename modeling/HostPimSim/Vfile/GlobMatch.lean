import HostPimSim.Lib.Loop
import HostPimSim.Lib.Glob
import Mathlib.Order.RelClasses

/-! `vdev_glob_match`: one pass over a string and a pattern that goes back to the last `*` when
a letter does not fit. -/
namespace HostPimSim.Vfile

/-- A pointer into a string, as what stands from it to the terminator. -/
abbrev CharPtr := List UInt8

def deref (p : CharPtr) : UInt8 :=
  p.headD 0

/-- The letters `*` and `?`. -/
def globStar : UInt8 := 42
def globOne : UInt8 := 63

/-- The variables of the loop.  `star_pattern` and `star_str` are set together. -/
structure GlobState where
  p : CharPtr
  s : CharPtr
  star : Option (CharPtr × CharPtr)

def skipStars : CharPtr → CharPtr
  | [] => []
  | c :: p => if c = globStar then skipStars p else c :: p

def globTurn (st : GlobState) : GlobState ⊕ Bool :=
  if deref st.s ≠ 0 then
    if deref st.p = globStar then
      if deref (skipStars st.p) = 0 then .inr true
      else .inl { st with p := skipStars st.p, star := some (skipStars st.p, st.s) }
    else if deref st.p = globOne ∨ deref st.p = deref st.s then
      .inl { st with p := st.p.tail, s := st.s.tail }
    else
      match st.star with
      | none => .inr false
      | some (starPattern, starStr) =>
          .inl ⟨starPattern, starStr.tail, some (starPattern, starStr.tail)⟩
  else .inr (deref (skipStars st.p) = 0)

/-- The state before the loop, or what is returned without it. -/
def vdevGlobMatch (pattern str : Option CharPtr) : GlobState ⊕ Bool :=
  match pattern, str with
  | some pattern, some str => .inl ⟨pattern, str, none⟩
  | _, _ => .inr false

abbrev GlobMatches : List UInt8 → List UInt8 → Prop :=
  Glob.Matches globStar globOne

theorem globStar_ne_globOne : globStar ≠ globOne := by decide

theorem deref_eq_zero {p : CharPtr} (h : 0 ∉ p) : deref p = 0 ↔ p = [] := by
  cases p with
  | nil => exact iff_of_true rfl rfl
  | cons c p =>
      have hc : c ≠ 0 := fun hc => h (hc ▸ List.mem_cons_self)
      simp [deref, hc]

theorem zero_notMem_skipStars {p : CharPtr} (h : 0 ∉ p) : 0 ∉ skipStars p := by
  induction p with
  | nil => exact h
  | cons c p ih =>
      unfold skipStars
      split
      · exact ih fun hp => h (List.mem_cons_of_mem c hp)
      · exact h

theorem length_skipStars_lt {p : CharPtr} (h : deref p = globStar) :
    (skipStars p).length < p.length := by
  have hle (q : CharPtr) : (skipStars q).length ≤ q.length := by
    induction q with
    | nil => exact Nat.le_refl 0
    | cons d q ih =>
        unfold skipStars
        split
        · rw [List.length_cons]
          omega
        · exact Nat.le_refl _
  cases p with
  | nil => cases h
  | cons c p =>
      have hc : c = globStar := h
      rw [skipStars, if_pos hc, List.length_cons]
      exact Nat.lt_succ_of_le (hle p)

theorem globMatches_skipStars {p s : List UInt8} :
    GlobMatches (globStar :: skipStars p) s ↔ GlobMatches (globStar :: p) s := by
  induction p with
  | nil => exact Iff.rfl
  | cons c p ih =>
      unfold skipStars
      split
      · rename_i hc
        rw [hc]
        exact ih.trans (Glob.matches_star_star globStar_ne_globOne).symm
      · exact Iff.rfl

theorem globMatches_nil_right {p : List UInt8} :
    GlobMatches p [] ↔ skipStars p = [] := by
  induction p with
  | nil => exact iff_of_true .nil rfl
  | cons c p ih =>
      unfold skipStars
      split
      · rename_i hc
        rw [hc, ← ih]
        constructor
        · intro hmatch
          obtain ⟨u, t, heq, h⟩ := (Glob.matches_star_iff globStar_ne_globOne).mp hmatch
          obtain ⟨-, rfl⟩ := List.append_eq_nil_iff.mp heq.symm
          exact h
        · intro h
          exact .star [] h
      · rename_i hc
        refine iff_of_false ?_ (List.cons_ne_nil c p)
        intro hmatch
        obtain ⟨d, t, heq, -⟩ := (Glob.matches_cons_iff hc).mp hmatch
        cases heq

/-- What the loop keeps.  `whole` is whether the whole pattern matches the whole string; it can be
told from what is left, or after a `*` from what is left at the places the loop goes back to. -/
inductive GlobState.Exact (whole : Prop) : GlobState → Prop
  | plain {p s : CharPtr} :
      0 ∉ p → 0 ∉ s → (whole ↔ GlobMatches p s) → Exact whole ⟨p, s, none⟩
  | starred {q u p s : CharPtr} :
      0 ∉ q ++ p → 0 ∉ u ++ s → Glob.Fits globStar globOne q u →
      (whole ↔ GlobMatches (globStar :: (q ++ p)) (u ++ s)) →
      Exact whole ⟨p, s, some (q ++ p, u ++ s)⟩

/-- How much of the string is left for the last `*` to begin at, and then how much is left to be
compared. -/
def GlobState.left (st : GlobState) : Nat × Nat :=
  (match st.star with
    | none => st.s.length + 1
    | some (_, starStr) => starStr.length,
    st.p.length + st.s.length)

abbrev GlobState.Less (st next : GlobState) : Prop :=
  Prod.Lex (· < ·) (· < ·) st.left next.left

theorem GlobState.wellFounded_less : WellFounded GlobState.Less :=
  InvImage.wf GlobState.left (Nat.lt_wfRel.wf.prod_lex Nat.lt_wfRel.wf)

/-- A `*` that is met takes the place of the one before. -/
theorem GlobState.Exact.newStar {whole : Prop} {st : GlobState} (h : st.Exact whole)
    (hp : deref st.p = globStar) :
    0 ∉ skipStars st.p ∧ 0 ∉ st.s ∧
      (whole ↔ GlobMatches (globStar :: skipStars st.p) st.s) := by
  cases h with
  | plain hp0 hs0 hwhole =>
      rename_i p s
      refine ⟨zero_notMem_skipStars hp0, hs0, hwhole.trans ?_⟩
      cases p with
      | nil => cases hp
      | cons c p =>
          obtain rfl : c = globStar := hp
          rw [skipStars, if_pos rfl]
          exact globMatches_skipStars.symm
  | starred hp0 hs0 hfits hwhole =>
      rename_i q u p s
      have hp0' : 0 ∉ p := fun hmem => hp0 (List.mem_append_right q hmem)
      refine ⟨zero_notMem_skipStars hp0', fun hmem => hs0 (List.mem_append_right u hmem),
        hwhole.trans ?_⟩
      cases p with
      | nil => cases hp
      | cons c p =>
          obtain rfl : c = globStar := hp
          rw [skipStars, if_pos rfl]
          exact (hfits.star_append_iff globStar_ne_globOne).trans globMatches_skipStars.symm

theorem GlobState.Exact.advance {whole : Prop} {st : GlobState} (h : st.Exact whole)
    (hs : deref st.s ≠ 0) (hp : deref st.p ≠ globStar)
    (hfit : deref st.p = globOne ∨ deref st.p = deref st.s) :
    GlobState.Exact whole { st with p := st.p.tail, s := st.s.tail } := by
  obtain ⟨p, s, star⟩ := st
  cases s with
  | nil => exact absurd rfl hs
  | cons d s =>
  cases p with
  | nil =>
      rcases hfit with hone | hsame
      · cases hone
      · exact absurd hsame.symm hs
  | cons c p =>
  have hone : Glob.FitsOne globStar globOne c d := ⟨hp, hfit⟩
  cases h with
  | plain hp0 hs0 hwhole =>
      refine .plain (fun hmem => hp0 (List.mem_cons_of_mem c hmem))
        (fun hmem => hs0 (List.mem_cons_of_mem d hmem)) (hwhole.trans ?_)
      exact Glob.Fits.matches_append_iff (.cons hone .nil)
  | starred hp0 hs0 hfits hwhole =>
      rename_i q u
      have hq : q ++ c :: p = (q ++ [c]) ++ p := by simp
      have hu : u ++ d :: s = (u ++ [d]) ++ s := by simp
      rw [hq] at hp0 hwhole ⊢
      rw [hu] at hs0 hwhole ⊢
      exact .starred hp0 hs0 (List.rel_append hfits (.cons hone .nil)) hwhole

/-- A letter that does not fit is not made up for by what comes after it. -/
theorem GlobState.Exact.mismatch {s p : List UInt8} (hp0 : 0 ∉ p) (hp : deref p ≠ globStar)
    (hs : deref s ≠ 0) (hfit : ¬ (deref p = globOne ∨ deref p = deref s)) :
    ¬ GlobMatches p s := by
  intro hmatch
  cases p with
  | nil =>
      rw [Glob.matches_nil_left.mp hmatch] at hs
      exact hs rfl
  | cons c p =>
      obtain ⟨d, t, rfl, hone, -⟩ := (Glob.matches_cons_iff hp).mp hmatch
      exact hfit hone.2

/-- The loop goes back to the last `*`, which then stands for one letter more. -/
theorem GlobState.Exact.goBack {whole : Prop} {st : GlobState} {x : CharPtr × CharPtr}
    (h : st.Exact whole) (hstar : st.star = some x) (hs : deref st.s ≠ 0)
    (hp : deref st.p ≠ globStar) (hfit : ¬ (deref st.p = globOne ∨ deref st.p = deref st.s)) :
    GlobState.Exact whole ⟨x.1, x.2.tail, some (x.1, x.2.tail)⟩ ∧ x.2 ≠ [] := by
  cases h with
  | plain hp0 hs0 hwhole => cases hstar
  | starred hp0 hs0 hfits hwhole =>
      rename_i q u p s
      obtain rfl := Option.some.inj hstar
      have hnot : ¬ GlobMatches (q ++ p) (u ++ s) := fun hmatch =>
        GlobState.Exact.mismatch (fun hmem => hp0 (List.mem_append_right q hmem)) hp hs hfit
          (hfits.matches_append_iff.mp hmatch)
      cases hleft : u ++ s with
      | nil =>
          rw [(List.append_eq_nil_iff.mp hleft).2] at hs
          exact absurd rfl hs
      | cons c rest =>
          rw [hleft] at hs0 hwhole hnot
          refine ⟨?_, List.cons_ne_nil c rest⟩
          refine .starred (q := []) (u := []) hp0 (fun hmem => hs0 (List.mem_cons_of_mem c hmem))
            .nil (hwhole.trans ?_)
          exact Glob.star_cons_iff globStar_ne_globOne hnot

theorem GlobState.Exact.atEnd {whole : Prop} {st : GlobState} (h : st.Exact whole)
    (hs : st.s = []) : deref (skipStars st.p) = 0 ↔ whole := by
  cases h with
  | plain hp0 hs0 hwhole =>
      subst hs
      rw [hwhole, deref_eq_zero (zero_notMem_skipStars hp0)]
      exact globMatches_nil_right.symm
  | starred hp0 hs0 hfits hwhole =>
      rename_i q u p s
      obtain rfl : s = [] := hs
      have hp0' : 0 ∉ p := fun hmem => hp0 (List.mem_append_right q hmem)
      rw [List.append_nil] at hwhole
      rw [hwhole, deref_eq_zero (zero_notMem_skipStars hp0')]
      exact globMatches_nil_right.symm.trans (hfits.star_end_iff globStar_ne_globOne).symm

theorem GlobState.Exact.s_nul {whole : Prop} {st : GlobState} (h : st.Exact whole) :
    0 ∉ st.s := by
  cases h with
  | plain hp0 hs0 hwhole => exact hs0
  | starred hp0 hs0 hfits hwhole => exact fun hmem => hs0 (List.mem_append_right _ hmem)

theorem GlobState.Exact.length_le {whole : Prop} {st : GlobState} (h : st.Exact whole)
    {x : CharPtr × CharPtr} (hstar : st.star = some x) : st.s.length ≤ x.2.length := by
  cases h with
  | plain hp0 hs0 hwhole => cases hstar
  | starred hp0 hs0 hfits hwhole =>
      obtain rfl := Option.some.inj hstar
      rw [List.length_append]
      exact Nat.le_add_left _ _

theorem globTurn_next {whole : Prop} {st next : GlobState} (h : st.Exact whole)
    (hturn : globTurn st = .inl next) : next.Exact whole ∧ next.Less st := by
  unfold globTurn at hturn
  split at hturn
  · rename_i hs
    split at hturn
    · rename_i hp
      obtain ⟨hp0, hs0, hwhole⟩ := h.newStar hp
      split at hturn
      · cases hturn
      · obtain rfl := Sum.inl.inj hturn
        refine ⟨.starred (q := []) (u := []) hp0 hs0 .nil hwhole, ?_⟩
        have hless := length_skipStars_lt hp
        unfold GlobState.Less GlobState.left
        rw [Prod.lex_def]
        cases hstar : st.star with
        | none => exact .inl (Nat.lt_succ_self _)
        | some x =>
            have hle := h.length_le hstar
            dsimp only
            omega
    · rename_i hp
      split at hturn
      · rename_i hfit
        obtain rfl := Sum.inl.inj hturn
        refine ⟨h.advance hs hp hfit, ?_⟩
        have hpos : 0 < st.s.length := by
          cases hempty : st.s with
          | nil => rw [hempty] at hs; exact absurd rfl hs
          | cons c s => exact Nat.succ_pos _
        unfold GlobState.Less GlobState.left
        rw [Prod.lex_def]
        cases hstar : st.star with
        | none =>
            dsimp only
            rw [List.length_tail]
            omega
        | some x =>
            dsimp only
            rw [List.length_tail, List.length_tail]
            omega
      · rename_i hfit
        split at hturn
        · cases hturn
        · rename_i starPattern starStr hstar
          obtain rfl := Sum.inl.inj hturn
          obtain ⟨hexact, hne⟩ := h.goBack hstar hs hp hfit
          refine ⟨hexact, ?_⟩
          have hpos := List.length_pos_iff.mpr hne
          unfold GlobState.Less GlobState.left
          rw [hstar, Prod.lex_def]
          dsimp only at hpos ⊢
          rw [List.length_tail]
          omega
  · cases hturn

theorem globTurn_answer {whole : Prop} {st : GlobState} {b : Bool} (h : st.Exact whole)
    (hturn : globTurn st = .inr b) : b = true ↔ whole := by
  unfold globTurn at hturn
  split at hturn
  · rename_i hs
    split at hturn
    · rename_i hp
      obtain ⟨hp0, hs0, hwhole⟩ := h.newStar hp
      split at hturn
      · rename_i hend
        obtain rfl := Sum.inr.inj hturn
        rw [(deref_eq_zero hp0).mp hend] at hwhole
        refine iff_of_true rfl (hwhole.mpr ?_)
        have hall := @Glob.Matches.star _ globStar globOne _ _ st.s .nil
        rw [List.append_nil] at hall
        exact hall
      · cases hturn
    · rename_i hp
      split at hturn
      · cases hturn
      · rename_i hfit
        split at hturn
        · rename_i hstar
          obtain rfl := Sum.inr.inj hturn
          refine iff_of_false Bool.false_ne_true ?_
          cases h with
          | plain hp0 hs0 hwhole =>
              exact fun hw => GlobState.Exact.mismatch hp0 hp hs hfit (hwhole.mp hw)
          | starred hp0 hs0 hfits hwhole => cases hstar
        · cases hturn
  · rename_i hs
    obtain rfl := Sum.inr.inj hturn
    rw [decide_eq_true_eq]
    exact h.atEnd ((deref_eq_zero h.s_nul).mp (not_not.mp hs))

/-- The matcher ends on every pattern and string, and it is exact. -/
theorem vdevGlobMatch_returns {pattern str : CharPtr} (hpattern : 0 ∉ pattern) (hstr : 0 ∉ str) :
    ∃ b, Loop.Returns globTurn (vdevGlobMatch (some pattern) (some str)) b ∧
      (b = true ↔ GlobMatches pattern str) :=
  Loop.exists_returns (GlobState.Exact (GlobMatches pattern str))
    (fun b => b = true ↔ GlobMatches pattern str) GlobState.wellFounded_less
    (fun _ _ hexact hturn => globTurn_next hexact hturn)
    (fun _ _ hexact hturn => globTurn_answer hexact hturn)
    (.plain hpattern hstr Iff.rfl)

theorem vdevGlobMatch_returns_rank :
    ∃ b, Loop.Returns globTurn (vdevGlobMatch (some [100, 112, 117, 95, 42, 63, 49])
        (some [100, 112, 117, 95, 114, 97, 110, 107, 49, 49])) b ∧
      (b = true ↔ GlobMatches [100, 112, 117, 95, 42, 63, 49]
        [100, 112, 117, 95, 114, 97, 110, 107, 49, 49]) :=
  vdevGlobMatch_returns (by decide) (by decide)

-- The first place for `?1` does not do, the second does.
example : Loop.within globTurn 20 (vdevGlobMatch (some [42, 63, 49, 48]) (some [49, 49, 49, 48])) =
    some true := by decide

end HostPimSim.Vfile
