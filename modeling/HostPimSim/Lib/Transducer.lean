import Mathlib.Data.List.Basic

/-! Machines that give an output for every input.  A program that keeps more than its purpose
asks for is compared with a smaller machine by the outputs of both, over every list of inputs. -/
namespace Transducer

variable {σ τ α β ι α' β' : Type}

def outputs (step : τ → α → τ × β) : τ → List α → List β
  | _, [] => []
  | t, a :: as => (step t a).2 :: outputs step (step t a).1 as

def after (step : τ → α → τ × β) : τ → List α → τ
  | t, [] => t
  | t, a :: as => after step (step t a).1 as

/-- Each input is one that is meant for the state it finds. -/
def Takes (step : τ → α → τ × β) (ok : τ → α → Prop) : τ → List α → Prop
  | _, [] => True
  | t, a :: as => ok t a ∧ Takes step ok (step t a).1 as

instance decidableTakes (step : τ → α → τ × β) (ok : τ → α → Prop) [∀ t a, Decidable (ok t a)] :
    ∀ t as, Decidable (Takes step ok t as)
  | _, [] => isTrue trivial
  | t, a :: as =>
      have := decidableTakes step ok (step t a).1 as
      inferInstanceAs (Decidable (ok t a ∧ Takes step ok (step t a).1 as))

/-- A program that may fail, with the outputs it has given. -/
def converse (answer : σ → α → Option (σ × β)) : σ → List α → Option (σ × List β)
  | s, [] => some (s, [])
  | s, a :: as => (answer s a).bind fun (t, b) =>
      (converse answer t as).map fun (u, bs) => (u, b :: bs)

/-- A program whose parts each follow a machine of their own, on their own share of each
input and output: it does not fail, and every part has answered as its machine does. -/
theorem converse_follows {answer : σ → α → Option (σ × β)} {step : τ → α' → τ × β'}
    {ok : τ → α' → Prop} (rel : ι → σ → τ → Prop) (input : ι → α → α') (view : ι → β → β')
    (hstep : ∀ s (ts : ι → τ) a, (∀ i, rel i s (ts i) ∧ ok (ts i) (input i a)) →
      ∃ t b, answer s a = some (t, b) ∧ ∀ i,
        rel i t (step (ts i) (input i a)).1 ∧ view i b = (step (ts i) (input i a)).2)
    {s : σ} {ts : ι → τ} (hrel : ∀ i, rel i s (ts i)) (as : List α)
    (htakes : ∀ i, Takes step ok (ts i) (as.map (input i))) :
    ∃ t bs, converse answer s as = some (t, bs) ∧ ∀ i,
      rel i t (after step (ts i) (as.map (input i))) ∧
        bs.map (view i) = outputs step (ts i) (as.map (input i)) := by
  induction as generalizing s ts with
  | nil => exact ⟨s, [], rfl, fun i => ⟨hrel i, rfl⟩⟩
  | cons a as ih =>
      obtain ⟨t, b, hanswer, hparts⟩ := hstep s ts a fun i => ⟨hrel i, (htakes i).1⟩
      obtain ⟨u, bs, hconverse, hrest⟩ :=
        ih (fun i => (hparts i).1) fun i => (htakes i).2
      refine ⟨u, b :: bs, ?_, fun i => ⟨(hrest i).1, ?_⟩⟩
      · simp only [converse, hanswer, Option.bind_some, hconverse, Option.map_some]
      · rw [List.map_cons, (hparts i).2, (hrest i).2]
        rfl

/-- A part of a program that follows a machine on the inputs that are for it, as long as the
part is there; what is not for it passes it by. -/
structure Part (answer : σ → α → Option (σ × β)) (step : τ → α' → τ × β') (share : α → Option α')
    (view : β → β') (rel : σ → τ → Prop) (gone : σ → Prop) : Prop where
  mine : ∀ {s s' t a b a'}, answer s a = some (s', b) → rel s t → share a = some a' →
    view b = (step t a').2 ∧ (rel s' (step t a').1 ∨ gone s')
  passes : ∀ {s s' t a b}, answer s a = some (s', b) → rel s t → share a = none →
    rel s' t ∨ gone s'
  gone : ∀ {s s' a b}, answer s a = some (s', b) → gone s → gone s'

def shared (share : α → Option α') (view : β → β') (as : List α) (bs : List β) : List β' :=
  (as.zip bs).filterMap fun (a, b) => (share a).map fun _ => view b

section
variable {answer : σ → α → Option (σ × β)} {step : τ → α' → τ × β'} {share : α → Option α'}
  {view : β → β'} {rel : σ → τ → Prop} {gone : σ → Prop}

theorem converse_cons {s u : σ} {a : α} {as : List α} {outs : List β}
    (h : converse answer s (a :: as) = some (u, outs)) :
    ∃ t b bs, answer s a = some (t, b) ∧ converse answer t as = some (u, bs) ∧ outs = b :: bs := by
  obtain ⟨⟨t, b⟩, hanswer, h⟩ := Option.bind_eq_some_iff.mp h
  obtain ⟨⟨v, bs⟩, hconverse, h⟩ := Option.map_eq_some_iff.mp h
  cases h
  exact ⟨t, b, bs, hanswer, hconverse, rfl⟩

theorem Part.gone_after (h : Part answer step share view rel gone) {s u : σ} {as : List α}
    {bs : List β} (hs : gone s) (hconverse : converse answer s as = some (u, bs)) : gone u := by
  induction as generalizing s bs with
  | nil =>
      cases hconverse
      exact hs
  | cons a as ih =>
      obtain ⟨t, b, bs', hanswer, hrest, _⟩ := converse_cons hconverse
      exact ih (h.gone hanswer hs) hrest

/-- Where the part is still there in the end, it has answered as its machine does. -/
theorem Part.follows (h : Part answer step share view rel gone) {s u : σ} {t : τ} (hrel : rel s t)
    {as : List α} {bs : List β} (hconverse : converse answer s as = some (u, bs))
    (hthere : ¬gone u) :
    shared share view as bs = outputs step t (as.filterMap share) ∧
      rel u (after step t (as.filterMap share)) := by
  induction as generalizing s t bs with
  | nil =>
      cases hconverse
      exact ⟨rfl, hrel⟩
  | cons a as ih =>
      obtain ⟨s', b, bs', hanswer, hrest, rfl⟩ := converse_cons hconverse
      unfold shared
      cases hshare : share a with
      | none =>
          rw [List.filterMap_cons_none hshare, List.zip_cons_cons,
            List.filterMap_cons_none (by simp [hshare])]
          cases h.passes hanswer hrel hshare with
          | inl hrel' => exact ih hrel' hrest
          | inr hgone => exact absurd (h.gone_after hgone hrest) hthere
      | some a' =>
          obtain ⟨hview, hrel' | hgone⟩ := h.mine hanswer hrel hshare
          · obtain ⟨houtputs, hafter⟩ := ih hrel' hrest
            rw [List.filterMap_cons_some hshare, List.zip_cons_cons,
              List.filterMap_cons_some (b := view b) (by simp [hshare])]
            exact ⟨congrArg₂ _ hview houtputs, hafter⟩
          · exact absurd (h.gone_after hgone hrest) hthere

end

end Transducer
