import Mathlib.Data.Option.Basic
import Mathlib.Data.List.Basic

/-! Runs of systems given by a partial step function.  An action names who
moves and with which data, so one list of actions is one interleaving and a
system of several threads needs no separate scheduler. -/
namespace Transition

variable {σ α : Type} {step : σ → α → Option σ}

/-- Take the listed actions in order; `none` as soon as one is not enabled. -/
def run (step : σ → α → Option σ) : σ → List α → Option σ
  | s, [] => some s
  | s, a :: as => (step s a).bind fun t => run step t as

/-- Each action of the list is taken in a state that meets `ok`. -/
def Meets (step : σ → α → Option σ) (ok : σ → α → Prop) : σ → List α → Prop
  | _, [] => True
  | s, a :: as => ok s a ∧ ∀ t ∈ step s a, Meets step ok t as

instance decidableMeets (ok : σ → α → Prop) [∀ s a, Decidable (ok s a)] :
    ∀ s as, Decidable (Meets step ok s as)
  | _, [] => isTrue trivial
  | s, a :: as =>
      have := fun t => decidableMeets ok t as
      inferInstanceAs (Decidable (ok s a ∧ ∀ t ∈ step s a, Meets step ok t as))

@[simp] theorem run_nil (s : σ) : run step s [] = some s := rfl

@[simp] theorem run_cons (s : σ) (a : α) (as : List α) :
    run step s (a :: as) = (step s a).bind fun t => run step t as := rfl

theorem run_cons_some {s t : σ} {a : α} {as : List α}
    (h : run step s (a :: as) = some t) :
    ∃ u, step s a = some u ∧ run step u as = some t :=
  Option.bind_eq_some_iff.mp h

theorem run_append (s : σ) (as bs : List α) :
    run step s (as ++ bs) = (run step s as).bind fun t => run step t bs := by
  induction as generalizing s with
  | nil => rfl
  | cons a as ih =>
      rw [List.cons_append, run_cons, run_cons, Option.bind_assoc]
      exact Option.bind_congr fun t _ => ih t

theorem exists_run {s : σ} {as : List α} {p : σ → Prop} [DecidablePred p]
    (h : (run step s as).any (fun t => decide (p t)) = true) :
    ∃ t, run step s as = some t ∧ p t := by
  obtain ⟨t, hrun, hp⟩ := (Option.any_eq_true _ _).mp h
  exact ⟨t, hrun, of_decide_eq_true hp⟩

/-- What every step preserves under `ok` holds at the end of a run all of
whose steps meet `ok`. -/
theorem run_invariant_of_meets {ok : σ → α → Prop} {inv : σ → Prop}
    (hstep : ∀ s a t, inv s → ok s a → step s a = some t → inv t)
    {s t : σ} {as : List α} (hs : inv s) (hok : Meets step ok s as)
    (hrun : run step s as = some t) : inv t := by
  induction as generalizing s with
  | nil =>
      cases hrun
      exact hs
  | cons a as ih =>
      obtain ⟨u, hu, hrest⟩ := run_cons_some hrun
      exact ih (hstep s a u hs hok.1 hu) (hok.2 u hu) hrest

/-- The same, with what is known of each step that keeps the invariant. -/
theorem run_invariant_and_meets {ok q : σ → α → Prop} {inv : σ → Prop}
    (hstep : ∀ s a t, inv s → ok s a → step s a = some t → inv t ∧ q s a)
    {s t : σ} {as : List α} (hs : inv s) (hok : Meets step ok s as)
    (hrun : run step s as = some t) : inv t ∧ Meets step q s as := by
  induction as generalizing s with
  | nil =>
      cases hrun
      exact ⟨hs, trivial⟩
  | cons a as ih =>
      obtain ⟨u, hu, hrest⟩ := run_cons_some hrun
      obtain ⟨hinv, hq⟩ := hstep s a u hs hok.1 hu
      obtain ⟨hlast, hmeets⟩ := ih hinv (hok.2 u hu) hrest
      refine ⟨hlast, hq, fun v hv => ?_⟩
      obtain rfl : u = v := Option.some.inj (hu.symm.trans hv)
      exact hmeets

/-- An invariant that knows how many actions are still to come. -/
theorem run_countdown {ok : σ → α → Prop} (inv : Nat → σ → Prop)
    (hstep : ∀ n s a t, inv (n + 1) s → ok s a → step s a = some t → inv n t)
    {s t : σ} {as : List α} (hs : inv as.length s) (hok : Meets step ok s as)
    (hrun : run step s as = some t) : inv 0 t := by
  induction as generalizing s with
  | nil =>
      cases hrun
      exact hs
  | cons a as ih =>
      obtain ⟨u, hu, hrest⟩ := run_cons_some hrun
      exact ih (hstep as.length s a u hs hok.1 hu) (hok.2 u hu) hrest

/-- Two conditions that agree wherever `inv` holds, one of which keeps it. -/
theorem meets_iff {ok ok' : σ → α → Prop} (inv : σ → Prop)
    (hiff : ∀ s a t, inv s → step s a = some t → (ok s a ↔ ok' s a))
    (hstep : ∀ s a t, inv s → ok s a → step s a = some t → inv t) {s t : σ} {as : List α}
    (hs : inv s) (hrun : run step s as = some t) :
    Meets step ok s as ↔ Meets step ok' s as := by
  induction as generalizing s with
  | nil => exact Iff.rfl
  | cons a as ih =>
      obtain ⟨u, hu, hrest⟩ := run_cons_some hrun
      have hhead := hiff s a u hs hu
      constructor
      · rintro ⟨hok, hmeets⟩
        refine ⟨hhead.mp hok, fun v hv => ?_⟩
        obtain rfl : u = v := Option.some.inj (hu.symm.trans hv)
        exact (ih (hstep s a u hs hok hu) hrest).mp (hmeets u hu)
      · rintro ⟨hok', hmeets⟩
        have hok := hhead.mpr hok'
        refine ⟨hok, fun v hv => ?_⟩
        obtain rfl : u = v := Option.some.inj (hu.symm.trans hv)
        exact (ih (hstep s a u hs hok hu) hrest).mpr (hmeets u hu)

theorem Meets.mono {ok ok' : σ → α → Prop} {s : σ} {as : List α} (h : Meets step ok s as)
    (himp : ∀ s a, ok s a → ok' s a) : Meets step ok' s as := by
  induction as generalizing s with
  | nil => trivial
  | cons a as ih => exact ⟨himp s a h.1, fun t ht => ih (h.2 t ht)⟩

theorem Meets.and {ok ok' : σ → α → Prop} {s : σ} {as : List α} (h : Meets step ok s as)
    (h' : Meets step ok' s as) : Meets step (fun s a => ok s a ∧ ok' s a) s as := by
  induction as generalizing s with
  | nil => trivial
  | cons a as ih => exact ⟨⟨h.1, h'.1⟩, fun t ht => ih (h.2 t ht) (h'.2 t ht)⟩

theorem Meets.after {ok : σ → α → Prop} {s t : σ} {as bs : List α} {a : α}
    (h : Meets step ok s (as ++ a :: bs)) (hrun : run step s as = some t) : ok t a := by
  induction as generalizing s with
  | nil =>
      cases hrun
      exact h.1
  | cons b as ih =>
      obtain ⟨u, hu, hrest⟩ := run_cons_some hrun
      exact ih (h.2 u hu) hrest

theorem meets_of_forall {p : α → Prop} {as : List α} (h : ∀ a ∈ as, p a) (s : σ) :
    Meets step (fun _ a => p a) s as := by
  induction as generalizing s with
  | nil => trivial
  | cons a as ih =>
      exact ⟨h a List.mem_cons_self, fun t _ => ih (fun b hb => h b (List.mem_cons_of_mem a hb)) t⟩

theorem run_invariant {inv : σ → Prop}
    (hstep : ∀ s a t, inv s → step s a = some t → inv t)
    {s t : σ} {as : List α} (hs : inv s) (hrun : run step s as = some t) :
    inv t :=
  run_invariant_of_meets (fun s a t h _ => hstep s a t h) hs
    (meets_of_forall (p := fun _ => True) (fun _ _ => trivial) s) hrun

/-- Actions that are enabled wherever `inv` holds make a run. -/
theorem run_of_enabled (inv : σ → Prop) {as : List α}
    (hstep : ∀ s, inv s → ∀ a ∈ as, ∃ t, step s a = some t ∧ inv t) {s : σ} (hs : inv s) :
    ∃ t, run step s as = some t := by
  induction as generalizing s with
  | nil => exact ⟨s, rfl⟩
  | cons a as ih =>
      obtain ⟨u, hu, hinv⟩ := hstep s hs a List.mem_cons_self
      obtain ⟨t, ht⟩ := ih (fun s hs b hb => hstep s hs b (List.mem_cons_of_mem a hb)) hinv
      refine ⟨t, ?_⟩
      rw [run_cons, hu]
      exact ht

/-- A loop over distinct indices, each turn of which changes its own slot. -/
theorem run_pointwise {ι β : Type} {turn : σ → ι → Option σ} (slot : σ → ι → β)
    (rel : ι → β → β → Prop)
    (hself : ∀ s i t, turn s i = some t → rel i (slot s i) (slot t i))
    (hother : ∀ s i t j, turn s i = some t → j ≠ i → slot t j = slot s j)
    {s t : σ} {indices : List ι} (hnodup : indices.Nodup)
    (hrun : run turn s indices = some t) (j : ι) :
    (j ∈ indices → rel j (slot s j) (slot t j)) ∧
      (j ∉ indices → slot t j = slot s j) := by
  induction indices generalizing s with
  | nil =>
      cases hrun
      exact ⟨fun h => absurd h List.not_mem_nil, fun _ => rfl⟩
  | cons i rest ih =>
      obtain ⟨hi, hrest⟩ := List.nodup_cons.mp hnodup
      obtain ⟨u, hu, hrun⟩ := run_cons_some hrun
      obtain ⟨hmem, hnot⟩ := ih hrest hrun
      by_cases hji : j = i
      · subst hji
        rw [hnot hi]
        exact ⟨fun _ => hself s j u hu, fun h => absurd List.mem_cons_self h⟩
      · rw [← hother s i u j hu hji]
        constructor
        · intro hj
          exact hmem ((List.mem_cons.mp hj).resolve_left hji)
        · intro hj
          exact hnot fun h => hj (List.mem_cons_of_mem i h)

def attempt (turn : σ → α → σ × Bool) : σ → List α → σ × Bool
  | s, [] => (s, true)
  | s, a :: as => if (turn s a).2 then attempt turn (turn s a).1 as else ((turn s a).1, false)

theorem run_eq_attempt {turn : σ → α → σ × Bool} {as : List α}
    (h : ∀ a ∈ as, ∀ s, step s a = if (turn s a).2 then some (turn s a).1 else none) (s : σ) :
    run step s as = if (attempt turn s as).2 then some (attempt turn s as).1 else none := by
  induction as generalizing s with
  | nil => rfl
  | cons a as ih =>
      rw [run_cons, h a List.mem_cons_self, attempt]
      split
      · exact ih (fun b hb => h b (List.mem_cons_of_mem a hb)) _
      · rfl

theorem attempt_invariant (turn : σ → α → σ × Bool) (inv : List α → σ → Prop) (s : σ)
    (as : List α) (hturn : ∀ a as s, inv (a :: as) s → inv as (turn s a).1)
    (hs : inv as s) : ∃ rest, inv rest (attempt turn s as).1 := by
  induction as generalizing s with
  | nil => exact ⟨[], hs⟩
  | cons a as ih =>
      rw [attempt]
      split
      · exact ih _ (hturn a as s hs)
      · exact ⟨as, hturn a as s hs⟩

/-- A quantity that each of the listed actions uses up bounds their number. -/
theorem run_length_le {ok : α → Prop} {inv : σ → Prop} {cost : σ → Nat}
    (hstep : ∀ s a t, inv s → ok a → step s a = some t → inv t ∧ cost t < cost s)
    {s t : σ} {as : List α} (hs : inv s) (hok : ∀ a ∈ as, ok a)
    (hrun : run step s as = some t) : as.length ≤ cost s := by
  induction as generalizing s with
  | nil => exact Nat.zero_le _
  | cons a as ih =>
      obtain ⟨u, hu, hrest⟩ := run_cons_some hrun
      obtain ⟨hinv, hless⟩ := hstep s a u hs (hok a List.mem_cons_self) hu
      have hbound := ih hinv (fun b hb => hok b (List.mem_cons_of_mem a hb)) hrest
      rw [List.length_cons]
      omega

/-- Actions of one kind, each of which uses some of a quantity that the others leave. -/
theorem run_countP_le {ok : σ → α → Prop} {inv : σ → Prop} {cost : σ → Nat}
    (own : α → Bool) (hstep : ∀ s a t, inv s → ok s a → step s a = some t →
      inv t ∧ cost t + (if own a then 1 else 0) ≤ cost s)
    {s t : σ} {as : List α} (hs : inv s) (hok : Meets step ok s as)
    (hrun : run step s as = some t) : inv t ∧ as.countP own + cost t ≤ cost s := by
  induction as generalizing s with
  | nil =>
      cases hrun
      exact ⟨hs, by simp⟩
  | cons a as ih =>
      obtain ⟨u, hu, hrest⟩ := run_cons_some hrun
      obtain ⟨hinv, hless⟩ := hstep s a u hs hok.1 hu
      obtain ⟨hlast, hbound⟩ := ih hinv (hok.2 u hu) hrest
      refine ⟨hlast, ?_⟩
      rw [List.countP_cons]
      omega

theorem foldl_grows {grows : σ → σ → Prop} (hrefl : ∀ s, grows s s)
    (htrans : ∀ s t u, grows s t → grows t u → grows s u) {f : σ → α → σ}
    (hf : ∀ s a, grows s (f s a)) (s : σ) (as : List α) : grows s (as.foldl f s) :=
  List.foldlRecOn as f (hrefl s) fun t ht a _ => htrans s t _ ht (hf t a)

theorem foldl_reaches {grows : σ → σ → Prop} (hrefl : ∀ s, grows s s)
    (htrans : ∀ s t u, grows s t → grows t u → grows s u) {f : σ → α → σ}
    (hf : ∀ s a, grows s (f s a)) (s : σ) {as : List α} {a : α} (h : a ∈ as) :
    ∃ t, grows (f t a) (as.foldl f s) := by
  induction as generalizing s with
  | nil => cases h
  | cons b rest ih =>
      rcases List.mem_cons.mp h with rfl | hrest
      · exact ⟨s, foldl_grows hrefl htrans hf (f s a) rest⟩
      · exact ih (f s b) hrest

end Transition
