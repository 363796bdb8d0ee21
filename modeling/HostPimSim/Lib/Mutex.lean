import HostPimSim.Lib.Threads

/-! Who holds a mutex, beside the list of the threads.  The places of a thread at which it
holds the mutex are given as a predicate. -/
namespace Mutex
open Threads

variable {τ : Type} {holds : τ → Bool} {owner : Option Nat} {threads : List τ} {index : Nat}
  {before after : τ}

/-- The mutex is with the one thread that is where threads hold it, if there is one. -/
structure Owned (holds : τ → Bool) (owner : Option Nat) (threads : List τ) : Prop where
  holder : ∀ i thread, threads[i]? = some thread → (holds thread = true ↔ owner = some i)
  bound : ∀ i, owner = some i → i < threads.length

theorem owned_nil : Owned holds none [] where
  holder := by simp
  bound := by simp

theorem Owned.unique (h : Owned holds owner threads) {i j : Nat} {x y : τ}
    (hi : threads[i]? = some x) (hj : threads[j]? = some y) (hx : holds x = true)
    (hy : holds y = true) : i = j := by
  have hi' := (h.holder i x hi).mp hx
  rw [(h.holder j y hj).mp hy] at hi'
  exact (Option.some.inj hi').symm

theorem Owned.none_of_free (h : Owned holds none threads) :
    ∀ thread ∈ threads, holds thread = false := by
  intro thread hmem
  obtain ⟨i, hi⟩ := List.mem_iff_getElem?.mp hmem
  cases hholds : holds thread with
  | false => rfl
  | true => exact absurd ((h.holder i thread hi).mp hholds) (by simp)

theorem Owned.exists_holder (h : Owned holds owner threads) {i : Nat} (howner : owner = some i) :
    ∃ thread, threads[i]? = some thread ∧ holds thread = true := by
  have hlt := h.bound i howner
  exact ⟨threads[i], List.getElem?_eq_getElem hlt,
    (h.holder i _ (List.getElem?_eq_getElem hlt)).mpr howner⟩

theorem Owned.push (h : Owned holds owner threads) (hafter : holds after = false) :
    Owned holds owner (threads ++ [after]) where
  holder := by
    intro i thread hi
    obtain ⟨rfl, rfl⟩ | hold := getElem?_push_some hi
    · have hnone : owner ≠ some threads.length := fun howner =>
        Nat.lt_irrefl _ (h.bound _ howner)
      simp [hafter, hnone]
    · exact h.holder i thread hold
  bound := by
    intro i howner
    have := h.bound i howner
    simp only [List.length_append, List.length_singleton]
    omega

theorem Owned.keep (h : Owned holds owner threads) (hbefore : threads[index]? = some before)
    (hsame : holds after = holds before) : Owned holds owner (threads.set index after) where
  holder := by
    intro i thread hi
    obtain ⟨rfl, rfl⟩ | ⟨-, hold⟩ := getElem?_set_some hi
    · rw [hsame]
      exact h.holder i before hbefore
    · exact h.holder i thread hold
  bound := by
    intro i howner
    rw [List.length_set]
    exact h.bound i howner

theorem Owned.acquire (h : Owned holds none threads) (hbefore : threads[index]? = some before)
    (hafter : holds after = true) : Owned holds (some index) (threads.set index after) where
  holder := by
    intro i thread hi
    obtain ⟨rfl, rfl⟩ | ⟨hne, hold⟩ := getElem?_set_some hi
    · simp [hafter]
    · have hfree := h.none_of_free thread (List.mem_iff_getElem?.mpr ⟨i, hold⟩)
      simp [hfree, Ne.symm hne]
  bound := by
    intro i howner
    rw [List.length_set, ← Option.some.inj howner]
    exact (List.getElem?_eq_some_iff.mp hbefore).1

theorem Owned.release (h : Owned holds owner threads) (hbefore : threads[index]? = some before)
    (hholds : holds before = true) (hafter : holds after = false) :
    Owned holds none (threads.set index after) where
  holder := by
    intro i thread hi
    obtain ⟨rfl, rfl⟩ | ⟨hne, hold⟩ := getElem?_set_some hi
    · simp [hafter]
    · have howner := (h.holder index before hbefore).mp hholds
      have hiff := h.holder i thread hold
      rw [howner] at hiff
      simp only [Option.some.injEq, Ne.symm hne, iff_false, Bool.not_eq_true] at hiff
      simp [hiff]
  bound := by simp

end Mutex
