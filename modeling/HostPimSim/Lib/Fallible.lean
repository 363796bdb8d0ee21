import Mathlib.Data.List.Basic

/-! Programs that change a state until they return or fail, as `EStateM` has
them, and what is known of the state when one has returned. -/
namespace Fallible

variable {ε σ α β : Type}

/-- Run from `s`, the program returns `a` and leaves `t`. -/
def Returns (prog : EStateM ε σ α) (s : σ) (a : α) (t : σ) : Prop := prog.run s = .ok a t

def require (condition : Bool) (error : ε) : EStateM ε σ Unit :=
  if condition then pure () else throw error

@[simp] theorem returns_pure {a b : α} {s t : σ} :
    Returns (pure a : EStateM ε σ α) s b t ↔ a = b ∧ s = t := by
  unfold Returns
  rw [EStateM.run_pure, EStateM.Result.ok.injEq]

@[simp] theorem not_returns_throw {e : ε} {s t : σ} {a : α} :
    ¬Returns (throw e : EStateM ε σ α) s a t := by
  intro h
  cases h

theorem returns_bind {prog : EStateM ε σ α} {rest : α → EStateM ε σ β} {s t : σ} {b : β} :
    Returns (prog >>= rest) s b t ↔ ∃ a u, Returns prog s a u ∧ Returns (rest a) u b t := by
  unfold Returns
  rw [EStateM.run_bind]
  cases prog.run s with
  | ok a u => simp
  | error e u => simp

theorem run_bind_ok {prog : EStateM ε σ α} {rest : α → EStateM ε σ β} {s t : σ} {a : α}
    (h : prog.run s = .ok a t) : (prog >>= rest).run s = (rest a).run t := by
  rw [EStateM.run_bind, h]

theorem run_bind_error {prog : EStateM ε σ α} {rest : α → EStateM ε σ β} {s t : σ} {e : ε}
    (h : prog.run s = .error e t) : (prog >>= rest).run s = .error e t := by
  rw [EStateM.run_bind, h]

@[simp] theorem returns_require {condition : Bool} {e : ε} {s t : σ} :
    Returns (require condition e) s () t ↔ condition = true ∧ s = t := by
  unfold require
  cases condition with
  | false => simp
  | true => simp

@[simp] theorem returns_modifyGet {f : σ → α × σ} {s t : σ} {a : α} :
    Returns (modifyGet f : EStateM ε σ α) s a t ↔ (f s).1 = a ∧ (f s).2 = t := by
  unfold Returns
  rw [EStateM.run_modifyGet, EStateM.Result.ok.injEq]

def returns (prog : EStateM ε σ α) (s : σ) : Bool :=
  match prog.run s with
  | .ok _ _ => true
  | .error _ _ => false

theorem exists_returns {prog : EStateM ε σ α} {s : σ} (h : returns prog s = true) :
    ∃ a t, prog s = .ok a t := by
  unfold returns at h
  split at h
  · exact ⟨_, _, ‹_›⟩
  · cases h

/-- A loop over a list that returns, where each turn adds to what `rel` tells. -/
theorem returns_forM {γ : Type} (rel : List γ → σ → σ → Prop) (item : α → List γ)
    {turn : α → EStateM ε σ PUnit} (hnil : ∀ s, rel [] s s)
    (happend : ∀ xs ys s t u, rel xs s t → rel ys t u → rel (xs ++ ys) s u)
    {as : List α} (hturn : ∀ a ∈ as, ∀ s t, Returns (turn a) s ⟨⟩ t → rel (item a) s t)
    {s t : σ} (h : Returns (as.forM turn) s ⟨⟩ t) :
    rel (as.flatMap item) s t := by
  induction as generalizing s with
  | nil =>
      obtain ⟨-, rfl⟩ := returns_pure.mp h
      exact hnil s
  | cons a as ih =>
      obtain ⟨⟨⟩, u, hfirst, hrest⟩ := returns_bind.mp h
      exact happend _ _ s u t (hturn a List.mem_cons_self s u hfirst)
        (ih (fun b hb => hturn b (List.mem_cons_of_mem a hb)) hrest)

def left (prog : EStateM ε σ α) (s : σ) : σ :=
  match prog.run s with
  | .ok _ t => t
  | .error _ t => t

/-- The program keeps what `inv` says of the state. -/
def Keeps (inv : σ → Prop) (prog : EStateM ε σ α) : Prop := ∀ s, inv s → inv (left prog s)

variable {inv : σ → Prop}

theorem keeps_pure (a : α) : Keeps inv (pure a : EStateM ε σ α) := fun _ h => h

theorem keeps_throw (e : ε) : Keeps inv (throw e : EStateM ε σ α) := fun _ h => h

theorem keeps_require (condition : Bool) (e : ε) :
    Keeps inv (require condition e : EStateM ε σ Unit) := by
  unfold require
  split
  · exact keeps_pure ()
  · exact keeps_throw e

theorem keeps_modifyGet {f : σ → α × σ} (h : ∀ s, inv s → inv (f s).2) :
    Keeps inv (modifyGet f : EStateM ε σ α) := h

theorem keeps_bind {prog : EStateM ε σ α} {rest : α → EStateM ε σ β} (h : Keeps inv prog)
    (hrest : ∀ a, Keeps inv (rest a)) : Keeps inv (prog >>= rest) := by
  intro s hs
  have hfirst := h s hs
  unfold left at hfirst ⊢
  rw [EStateM.run_bind]
  cases hrun : prog.run s with
  | ok a t =>
      rw [hrun] at hfirst
      exact hrest a t hfirst
  | error e t =>
      rw [hrun] at hfirst
      exact hfirst

theorem keeps_forM {turn : α → EStateM ε σ PUnit} (h : ∀ a, Keeps inv (turn a)) (as : List α) :
    Keeps inv (as.forM turn) := by
  induction as with
  | nil => exact keeps_pure PUnit.unit
  | cons a as ih => exact keeps_bind (h a) fun _ => ih

end Fallible
