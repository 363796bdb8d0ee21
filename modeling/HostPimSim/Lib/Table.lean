import Mathlib.Data.List.Basic
import Mathlib.Data.Option.Basic

/-! Finite maps kept as lists of rows.  Putting a key that is there replaces its row, so the
list of keys only changes when a key is new or taken out. -/
namespace Table

variable {κ β : Type} [DecidableEq κ]

def find (rows : List (κ × β)) (key : κ) : Option β :=
  match rows with
  | [] => none
  | row :: rest => if row.1 = key then some row.2 else find rest key

def put (rows : List (κ × β)) (key : κ) (value : β) : List (κ × β) :=
  match rows with
  | [] => [(key, value)]
  | row :: rest => if row.1 = key then (key, value) :: rest else row :: put rest key value

def remove (rows : List (κ × β)) (key : κ) : List (κ × β) := rows.filter fun row => row.1 ≠ key

def keys (rows : List (κ × β)) : List κ := rows.map Prod.fst

variable {rows : List (κ × β)} {key other : κ} {value : β}

@[simp] theorem find_put_self : find (put rows key value) key = some value := by
  induction rows with
  | nil => simp [put, find]
  | cons row rest ih =>
      unfold put
      split
      · simp [find]
      · rename_i hne
        rw [find, if_neg hne, ih]

theorem find_put_of_ne (h : other ≠ key) : find (put rows key value) other = find rows other := by
  induction rows with
  | nil => simp [put, find, Ne.symm h]
  | cons row rest ih =>
      unfold put
      split
      · rename_i hrow
        rw [find, find, if_neg (Ne.symm h), if_neg (fun hother => h (hother.symm.trans hrow))]
      · rw [find, find, ih]

theorem find_put (rows : List (κ × β)) (key other : κ) (value : β) :
    find (put rows key value) other = if other = key then some value else find rows other := by
  split
  · rename_i h
    rw [h, find_put_self]
  · rename_i h
    exact find_put_of_ne h

@[simp] theorem find_remove_self : find (remove rows key) key = none := by
  induction rows with
  | nil => rfl
  | cons row rest ih =>
      unfold remove at ih ⊢
      by_cases h : row.1 = key
      · simpa [h] using ih
      · simpa [h, find] using ih

theorem find_remove_of_ne (h : other ≠ key) : find (remove rows key) other = find rows other := by
  induction rows with
  | nil => rfl
  | cons row rest ih =>
      unfold remove at ih ⊢
      by_cases hrow : row.1 = key
      · have hother : key ≠ other := Ne.symm h
        simpa [hrow, find, hother] using ih
      · simp only [List.filter_cons, hrow, ne_eq, not_false_eq_true, decide_true, if_true, find]
        rw [← ih]

theorem keys_put_of_find (h : (find rows key).isSome = true) :
    keys (put rows key value) = keys rows := by
  induction rows with
  | nil => cases h
  | cons row rest ih =>
      unfold put
      by_cases hrow : row.1 = key
      · simp [keys, hrow]
      · rw [find, if_neg hrow] at h
        rw [if_neg hrow]
        simpa [keys] using ih h

theorem find_isSome_iff_mem_keys : (find rows key).isSome = true ↔ key ∈ keys rows := by
  induction rows with
  | nil => simp [find, keys]
  | cons row rest ih =>
      unfold find
      split
      · rename_i hrow
        simp [keys, hrow]
      · rename_i hrow
        rw [ih]
        simp [keys, Ne.symm hrow]

theorem mem_keys_put : other ∈ keys (put rows key value) ↔ other = key ∨ other ∈ keys rows := by
  rw [← find_isSome_iff_mem_keys, ← find_isSome_iff_mem_keys, find_put]
  split
  · rename_i h
    simp [h]
  · rename_i h
    simp [h]

theorem forall_keys_put {P : κ → Prop} (h : ∀ other ∈ keys rows, P other) (hkey : P key) :
    ∀ other ∈ keys (put rows key value), P other := by
  intro other hother
  rcases mem_keys_put.mp hother with rfl | hold
  · exact hkey
  · exact h other hold

theorem forall_keys_remove {P : κ → Prop} (h : ∀ other ∈ keys rows, P other) :
    ∀ other ∈ keys (remove rows key), P other := by
  intro other hother
  obtain ⟨row, hrow, rfl⟩ := List.mem_map.mp hother
  exact h row.1 (List.mem_map_of_mem (List.mem_filter.mp hrow).1)

theorem nodup_keys_put (h : (keys rows).Nodup) : (keys (put rows key value)).Nodup := by
  induction rows with
  | nil => simp [put, keys]
  | cons row rest ih =>
      obtain ⟨hrow, hrest⟩ := List.nodup_cons.mp h
      unfold put
      split
      · rename_i hkey
        subst hkey
        exact List.nodup_cons.mpr ⟨hrow, hrest⟩
      · rename_i hkey
        refine List.nodup_cons.mpr ⟨fun hmem => ?_, ih hrest⟩
        rcases mem_keys_put.mp hmem with hsame | hold
        · exact hkey hsame
        · exact hrow hold

theorem mem_of_find (h : find rows key = some value) : (key, value) ∈ rows := by
  induction rows with
  | nil => cases h
  | cons row rest ih =>
      unfold find at h
      split at h
      · rename_i hrow
        cases h
        subst hrow
        exact List.mem_cons_self
      · exact List.mem_cons_of_mem row (ih h)

theorem find_of_mem (hnodup : (keys rows).Nodup) (h : (key, value) ∈ rows) :
    find rows key = some value := by
  induction rows with
  | nil => cases h
  | cons row rest ih =>
      obtain ⟨hrow, hrest⟩ := List.nodup_cons.mp hnodup
      unfold find
      rcases List.mem_cons.mp h with rfl | hmem
      · exact if_pos rfl
      · rw [if_neg]
        · exact ih hrest hmem
        · rintro rfl
          exact hrow (List.mem_map.mpr ⟨_, hmem, rfl⟩)

/-- `std::map::emplace`: a row that is there stays. -/
def emplace (rows : List (κ × β)) (key : κ) (value : β) : List (κ × β) :=
  if (find rows key).isSome then rows else put rows key value

theorem find_emplace (rows : List (κ × β)) (key other : κ) (value : β) :
    find (emplace rows key value) other =
      if other = key ∧ find rows key = none then some value else find rows other := by
  unfold emplace
  by_cases h : find rows key = none
  · rw [if_neg (by simp [h]), find_put]
    simp only [h, and_true]
  · rw [if_pos (Option.isSome_iff_ne_none.mpr h), if_neg fun hnew => h hnew.2]

end Table
