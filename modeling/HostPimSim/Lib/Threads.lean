import Mathlib.Algebra.GroupWithZero.Nat
import Mathlib.Data.List.Basic

/-! Threads of one kind kept in a list: a new one is appended, and a move
replaces the entry at its index. -/
namespace Threads

variable {τ : Type} {threads : List τ} {index : Nat} {before after : τ}

theorem getElem?_set_some {i : Nat} {thread : τ}
    (h : (threads.set index after)[i]? = some thread) :
    (i = index ∧ thread = after) ∨ (i ≠ index ∧ threads[i]? = some thread) := by
  by_cases hi : i = index
  · subst hi
    rw [List.getElem?_set_self'] at h
    obtain ⟨_, _, rfl⟩ := Option.map_eq_some_iff.mp h
    exact .inl ⟨rfl, rfl⟩
  · rw [List.getElem?_set_ne (Ne.symm hi)] at h
    exact .inr ⟨hi, h⟩

theorem getElem?_push_some {i : Nat} {thread : τ}
    (h : (threads ++ [after])[i]? = some thread) :
    (i = threads.length ∧ thread = after) ∨ threads[i]? = some thread := by
  by_cases hi : i < threads.length
  · rw [List.getElem?_append_left hi] at h
    exact .inr h
  · rw [List.getElem?_append_right (by omega)] at h
    obtain ⟨hlength, hget⟩ := List.getElem?_eq_some_iff.mp h
    simp only [List.length_singleton] at hlength
    exact .inl ⟨by omega, by simpa using hget.symm⟩

theorem getElem?_set_moved (h : threads[index]? = some before) :
    (threads.set index after)[index]? = some after := by
  have hlength := (List.getElem?_eq_some_iff.mp h).1
  simp [hlength]

theorem set_inj (h : threads[index]? = some before) {x y : τ} :
    threads.set index x = threads.set index y ↔ x = y := by
  constructor
  · intro hset
    have hx : (threads.set index x)[index]? = some x := getElem?_set_moved h
    rw [hset, getElem?_set_moved h] at hx
    exact (Option.some.inj hx).symm
  · rintro rfl
    rfl

theorem set_eq_self (h : threads[index]? = some before) {x : τ} :
    threads.set index x = threads ↔ x = before := by
  obtain ⟨hlength, hget⟩ := List.getElem?_eq_some_iff.mp h
  have hsame : threads.set index before = threads := by
    rw [← hget, List.set_getElem_self]
  constructor
  · intro hset
    exact (set_inj h).mp (hset.trans hsame.symm)
  · rintro rfl
    exact hsame

theorem map_modify_of_eq {ρ : Type} (threads : List τ) (index : Nat) (g : τ → ρ) (f : τ → τ)
    (h : ∀ thread, threads[index]? = some thread → g (f thread) = g thread) :
    (threads.modify index f).map g = threads.map g := by
  apply List.ext_getElem?
  intro j
  rw [List.getElem?_map, List.getElem?_map, List.getElem?_modify]
  split
  · rename_i hj
    subst hj
    cases hget : threads[index]? with
    | none => rfl
    | some thread =>
        change some (g (f thread)) = some (g thread)
        rw [h thread hget]
  · rw [id_map']

theorem eq_or_mem_set (after : τ) (h : threads[index]? = some before) {thread : τ}
    (hmem : thread ∈ threads) : thread = before ∨ thread ∈ threads.set index after := by
  obtain ⟨i, hi⟩ := List.mem_iff_getElem?.mp hmem
  by_cases hindex : index = i
  · subst hindex
    rw [h] at hi
    exact .inl (Option.some.inj hi).symm
  · exact .inr (List.mem_iff_getElem?.mpr ⟨i, by rw [List.getElem?_set_ne hindex, hi]⟩)

theorem mem_set_moved (h : threads[index]? = some before) :
    after ∈ threads.set index after :=
  List.mem_iff_getElem?.mpr ⟨index, getElem?_set_moved h⟩

theorem forall_mem_set {P : τ → Prop} (h : ∀ thread ∈ threads, P thread) (hafter : P after) :
    ∀ thread ∈ threads.set index after, P thread := by
  intro thread hmem
  rcases List.mem_or_eq_of_mem_set hmem with hold | rfl
  · exact h thread hold
  · exact hafter

theorem forall_mem_modify {P : τ → Prop} {f : τ → τ} (h : ∀ thread ∈ threads, P thread)
    (hf : ∀ thread ∈ threads, P (f thread)) : ∀ thread ∈ threads.modify index f, P thread := by
  intro thread hmem
  obtain ⟨i, hi⟩ := List.mem_iff_getElem?.mp hmem
  rw [List.getElem?_modify] at hi
  obtain ⟨old, hold, hchange⟩ := Option.map_eq_some_iff.mp hi
  have hmem : old ∈ threads := List.mem_iff_getElem?.mpr ⟨i, hold⟩
  split at hchange
  · rw [← hchange]
    exact hf old hmem
  · have hsame : old = thread := hchange
    rw [← hsame]
    exact h old hmem

theorem forall_mem_push {P : τ → Prop} (h : ∀ thread ∈ threads, P thread)
    (hafter : P after) : ∀ thread ∈ threads ++ [after], P thread := by
  intro thread hmem
  rcases List.mem_append.mp hmem with hold | hnew
  · exact h thread hold
  · rw [List.mem_singleton.mp hnew]
    exact hafter

theorem countP_set_add (p : τ → Bool) (after : τ) (h : threads[index]? = some before) :
    (threads.set index after).countP p + (if p before then 1 else 0) =
      threads.countP p + (if p after then 1 else 0) := by
  obtain ⟨hlength, hget⟩ := List.getElem?_eq_some_iff.mp h
  have hmem : before ∈ threads := List.mem_iff_getElem?.mpr ⟨index, h⟩
  rw [List.countP_set hlength, hget]
  by_cases hbefore : p before = true
  · have hpos : 0 < threads.countP p := List.countP_pos_iff.mpr ⟨before, hmem, hbefore⟩
    simp only [hbefore, if_true]
    omega
  · simp [hbefore]

theorem countP_le_countP_set {p : τ → Bool} (h : threads[index]? = some before)
    (hp : p before = true → p after = true) :
    threads.countP p ≤ (threads.set index after).countP p := by
  have hmoved := countP_set_add p after h
  cases hbefore : p before with
  | false =>
      simp only [hbefore, Bool.false_eq_true, if_false] at hmoved
      omega
  | true =>
      simp only [hbefore, hp hbefore, if_true] at hmoved
      omega

/-- If all of `p` is in `q` and `q` is no larger, all of `q` is in `p`. -/
theorem forall_of_countP_le {p q : τ → Bool} (hsub : ∀ thread ∈ threads, p thread = true →
      q thread = true) (hle : threads.countP q ≤ threads.countP p) :
    ∀ thread ∈ threads, q thread = true → p thread = true := by
  induction threads with
  | nil => simp
  | cons head tail ih =>
      have htail : tail.countP p ≤ tail.countP q :=
        List.countP_mono_left fun thread hmem =>
          hsub thread (List.mem_cons_of_mem head hmem)
      have hhead := hsub head List.mem_cons_self
      rw [List.countP_cons, List.countP_cons] at hle
      intro thread hmem hq
      rcases List.mem_cons.mp hmem with rfl | hrest
      · by_contra hp
        simp only [hq, hp, if_true, if_false] at hle
        omega
      · refine ih (fun other hother => hsub other (List.mem_cons_of_mem head hother)) ?_
          thread hrest hq
        cases hp : p head with
        | false =>
            simp only [hp, Bool.false_eq_true, if_false] at hle
            omega
        | true =>
            simp only [hp, hhead hp, if_true] at hle
            omega

theorem eq_of_countP_le_one {p : τ → Bool} {i j : Nat} {x y : τ}
    (hcount : threads.countP p ≤ 1) (hi : threads[i]? = some x) (hj : threads[j]? = some y)
    (hx : p x = true) (hy : p y = true) : i = j := by
  induction threads generalizing i j with
  | nil => simp at hi
  | cons head tail ih =>
      rw [List.countP_cons] at hcount
      have hnone : p head = true → ∀ {k : Nat} {z : τ}, tail[k]? = some z → p z ≠ true := by
        intro hhead k z hz hpz
        have : 0 < tail.countP p :=
          List.countP_pos_iff.mpr ⟨z, List.mem_iff_getElem?.mpr ⟨k, hz⟩, hpz⟩
        simp only [hhead, if_true] at hcount
        omega
      cases i with
      | zero =>
          cases j with
          | zero => rfl
          | succ j =>
              cases Option.some.inj hi
              exact absurd hy (hnone hx hj)
      | succ i =>
          cases j with
          | zero =>
              cases Option.some.inj hj
              exact absurd hx (hnone hy hi)
          | succ j =>
              rw [ih (by omega) hi hj]

theorem sum_map_set_add (cost : τ → Nat) (after : τ) (h : threads[index]? = some before) :
    ((threads.set index after).map cost).sum + cost before =
      (threads.map cost).sum + cost after := by
  induction threads generalizing index with
  | nil => simp at h
  | cons head tail ih =>
      cases index with
      | zero =>
          cases Option.some.inj h
          simp only [List.set_cons_zero, List.map_cons, List.sum_cons]
          omega
      | succ index =>
          have htail := @ih index (by simpa using h)
          simp only [List.set_cons_succ, List.map_cons, List.sum_cons]
          omega

/-- One if the thread at `i` meets `p`: how often a log of the event that makes
it so should mention `i`. -/
def tally (p : τ → Bool) (threads : List τ) (i : Nat) : Nat :=
  if (threads[i]?).any p then 1 else 0

theorem tally_le_one (p : τ → Bool) (threads : List τ) (i : Nat) :
    tally p threads i ≤ 1 := by
  unfold tally
  split <;> omega

theorem tally_of_getElem? {p : τ → Bool} {i : Nat} {thread : τ}
    (h : threads[i]? = some thread) : tally p threads i = if p thread then 1 else 0 := by
  simp [tally, h]

theorem tally_of_length_le {p : τ → Bool} {i : Nat} (h : threads.length ≤ i) :
    tally p threads i = 0 := by
  simp [tally, List.getElem?_eq_none h]

theorem tally_set {p : τ → Bool} (h : threads[index]? = some before) (i : Nat) :
    tally p (threads.set index after) i =
      if i = index then (if p after then 1 else 0) else tally p threads i := by
  by_cases hi : i = index
  · subst hi
    simp [tally, getElem?_set_moved h]
  · simp [tally, hi, List.getElem?_set_ne (Ne.symm hi)]

theorem tally_set_same {p : τ → Bool} (h : threads[index]? = some before)
    (hp : p after = p before) (i : Nat) :
    tally p (threads.set index after) i = tally p threads i := by
  rw [tally_set h]
  split
  · rename_i hi
    rw [hi, tally_of_getElem? h, hp]
  · rfl

theorem tally_push {p : τ → Bool} (hp : p after = false) (i : Nat) :
    tally p (threads ++ [after]) i = tally p threads i := by
  rcases Nat.lt_trichotomy i threads.length with hi | rfl | hi
  · simp [tally, List.getElem?_append_left hi]
  · simp [tally, hp]
  · rw [tally_of_length_le (by simp; omega), tally_of_length_le (by omega)]

theorem count_push_eq_tally {p : τ → Bool} {log : List Nat}
    (hlog : ∀ i, log.count i = tally p threads i) (h : threads[index]? = some before)
    (hbefore : p before = false) (hafter : p after = true) (i : Nat) :
    (log ++ [index]).count i = tally p (threads.set index after) i := by
  rw [List.count_append, hlog i, tally_set h]
  by_cases hi : i = index
  · subst hi
    simp [tally_of_getElem? h, hbefore, hafter]
  · simp [hi, Ne.symm hi]

end Threads
