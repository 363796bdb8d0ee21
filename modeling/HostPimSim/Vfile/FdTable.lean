import Mathlib.Data.List.AList
import Mathlib.Data.List.Sort

/-! The table of owned descriptors, `g_fd_table`: which descriptor is an alias of
which `vfile_fd_entry`. -/
namespace HostPimSim.Vfile

abbrev FdTable := AList fun _ : Nat => Nat

/-- `vsyscall_fd_has_alias_locked` -/
def hasAlias (table : FdTable) (entry : Nat) : Bool :=
  table.entries.any fun row => row.2 == entry

/-- `vsyscall_collect_owned_fds_in_range`, sorted as its callers sort it. -/
def collectOwnedFdsInRange (table : FdTable) (first last : Nat) : List Nat :=
  (table.keys.filter fun fd => first ≤ fd && fd ≤ last).insertionSort (· ≤ ·)

variable {table : FdTable} {fd fd' entry other : Nat} {fds : List Nat}

theorem lookup_insert_eq {β : Type} (t : AList fun _ : Nat => β) (b : β) :
    (t.insert fd b).lookup fd' = if fd' = fd then some b else t.lookup fd' := by
  split
  · rename_i heq
    rw [heq, AList.lookup_insert]
  · rename_i hne
    exact AList.lookup_insert_ne hne

theorem lookup_erase_eq {β : Type} (t : AList fun _ : Nat => β) :
    (t.erase fd).lookup fd' = if fd' = fd then none else t.lookup fd' := by
  split
  · rename_i heq
    rw [heq, AList.lookup_erase]
  · rename_i hne
    exact AList.lookup_erase_ne hne

theorem lookup_foldl_erase {β : Type} (t : AList fun _ : Nat => β) :
    (fds.foldl (fun t fd => t.erase fd) t).lookup fd =
      if fd ∈ fds then none else t.lookup fd := by
  induction fds generalizing t with
  | nil => rfl
  | cons head rest ih =>
      rw [List.foldl_cons, ih, lookup_erase_eq]
      by_cases hrest : fd ∈ rest
      · simp [hrest]
      · simp [hrest]

theorem hasAlias_iff : hasAlias table entry = true ↔ ∃ fd, table.lookup fd = some entry := by
  unfold hasAlias
  rw [List.any_eq_true]
  constructor
  · rintro ⟨⟨fd, bound⟩, hmem, hbound⟩
    obtain rfl : bound = entry := by simpa using hbound
    exact ⟨fd, AList.mem_lookup_iff.mpr hmem⟩
  · rintro ⟨fd, hfd⟩
    exact ⟨⟨fd, entry⟩, AList.mem_lookup_iff.mp hfd, by simp⟩

theorem hasAlias_eq_false_iff :
    hasAlias table entry = false ↔ ∀ fd, table.lookup fd ≠ some entry := by
  rw [Bool.eq_false_iff, ne_eq, hasAlias_iff, not_exists]

theorem hasAlias_of_lookup (h : table.lookup fd = some entry) : hasAlias table entry = true :=
  hasAlias_iff.mpr ⟨fd, h⟩

theorem mem_collectOwnedFdsInRange {first last : Nat} :
    fd ∈ collectOwnedFdsInRange table first last ↔ fd ∈ table ∧ first ≤ fd ∧ fd ≤ last := by
  unfold collectOwnedFdsInRange
  rw [List.mem_insertionSort, List.mem_filter, ← AList.mem_keys]
  simp

theorem hasAlias_of_erase (h : hasAlias (table.erase fd) entry = true) :
    hasAlias table entry = true := by
  obtain ⟨i, hi⟩ := hasAlias_iff.mp h
  by_cases heq : i = fd
  · subst heq
    simp at hi
  · exact hasAlias_of_lookup (by rw [← hi, AList.lookup_erase_ne heq])

theorem hasAlias_erase (h : hasAlias table entry = true) (hfd : table.lookup fd ≠ some entry) :
    hasAlias (table.erase fd) entry = true := by
  obtain ⟨i, hi⟩ := hasAlias_iff.mp h
  have hne : i ≠ fd := by
    rintro rfl
    exact hfd hi
  exact hasAlias_of_lookup (by rw [AList.lookup_erase_ne hne, hi])

theorem hasAlias_insert_self : hasAlias (table.insert fd entry) entry = true :=
  hasAlias_of_lookup (AList.lookup_insert table)

theorem hasAlias_of_insert (h : hasAlias (table.insert fd other) entry = true) :
    other = entry ∨ hasAlias table entry = true := by
  obtain ⟨i, hi⟩ := hasAlias_iff.mp h
  by_cases heq : i = fd
  · subst heq
    rw [AList.lookup_insert] at hi
    exact .inl (Option.some.inj hi)
  · exact .inr (hasAlias_of_lookup (by rw [← hi, AList.lookup_insert_ne heq]))

theorem hasAlias_insert (h : hasAlias table entry = true)
    (hfd : table.lookup fd ≠ some entry) : hasAlias (table.insert fd other) entry = true := by
  obtain ⟨i, hi⟩ := hasAlias_iff.mp h
  have hne : i ≠ fd := by
    rintro rfl
    exact hfd hi
  exact hasAlias_of_lookup (by rw [AList.lookup_insert_ne hne, hi])

end HostPimSim.Vfile
