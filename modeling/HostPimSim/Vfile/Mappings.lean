import Mathlib.Algebra.GroupWithZero.Nat
import Mathlib.Data.List.Pairwise

/-! The table of the ranges that device mappings returned, `g_mmap_table`, and what `mmap` and
`munmap` do to it.  Addresses and lengths are words of 64 bits, kept as numbers. -/
namespace HostPimSim.Vfile.Mapping

def addressSpace : Nat := 2 ^ 64

/-- `MAP_FAILED` -/
def mapFailed : Nat := addressSpace - 1

/-- `vsyscall_range_end` -/
def rangeEnd (start length : Nat) : Option Nat :=
  if start + length < addressSpace then some (start + length) else none

/-- The starts with their lengths, in the order of a `std::map`.  Every range that is entered
has a length and ends where an address can be. -/
structure MmapTable where
  rows : List (Nat × Nat)
  sorted : rows.Pairwise fun first second => first.1 < second.1
  positive : ∀ row ∈ rows, 0 < row.2
  bounded : ∀ row ∈ rows, row.1 + row.2 < addressSpace

def MmapTable.empty : MmapTable := ⟨[], List.Pairwise.nil, by simp, by simp⟩

def MmapTable.Tracks (table : MmapTable) (addr : Nat) : Prop :=
  ∃ row ∈ table.rows, row.1 ≤ addr ∧ addr < row.1 + row.2

instance (table : MmapTable) (addr : Nat) : Decidable (table.Tracks addr) :=
  inferInstanceAs (Decidable (∃ row ∈ table.rows, row.1 ≤ addr ∧ addr < row.1 + row.2))

/-- The last row that starts at the address or below it: the one before `upper_bound`. -/
def MmapTable.atOrBelow (table : MmapTable) (addr : Nat) : Option (Nat × Nat) :=
  (table.rows.filter fun row => row.1 ≤ addr).getLast?

def MmapTable.find (table : MmapTable) (start : Nat) : Option Nat :=
  (table.rows.find? fun row => row.1 = start).map Prod.snd

def MmapTable.erase (table : MmapTable) (start : Nat) : MmapTable where
  rows := table.rows.filter fun row => row.1 ≠ start
  sorted := table.sorted.filter _
  positive := fun row h => table.positive row (List.mem_filter.mp h).1
  bounded := fun row h => table.bounded row (List.mem_filter.mp h).1

/-- The rows with one put in its place, instead of the one that has its start. -/
def putRow (rows : List (Nat × Nat)) (row : Nat × Nat) : List (Nat × Nat) :=
  (rows.filter fun other => other.1 < row.1) ++ row :: rows.filter fun other => row.1 < other.1

theorem mem_putRow {rows : List (Nat × Nat)} {row other : Nat × Nat} :
    other ∈ putRow rows row ↔ other = row ∨ other ∈ rows ∧ other.1 ≠ row.1 := by
  unfold putRow
  rw [List.mem_append, List.mem_cons, List.mem_filter, List.mem_filter, decide_eq_true_iff,
    decide_eq_true_iff, Nat.ne_iff_lt_or_gt, and_or_left]
  exact or_left_comm

theorem sorted_putRow {rows : List (Nat × Nat)} (row : Nat × Nat)
    (h : rows.Pairwise fun first second => first.1 < second.1) :
    (putRow rows row).Pairwise fun first second => first.1 < second.1 := by
  unfold putRow
  rw [List.pairwise_append, List.pairwise_cons]
  refine ⟨h.filter _, ⟨?_, h.filter _⟩, ?_⟩
  · intro other hother
    exact of_decide_eq_true (List.mem_filter.mp hother).2
  · intro first hfirst second hsecond
    have hbelow : first.1 < row.1 := of_decide_eq_true (List.mem_filter.mp hfirst).2
    rcases List.mem_cons.mp hsecond with rfl | hrest
    · exact hbelow
    · have habove : row.1 < second.1 := of_decide_eq_true (List.mem_filter.mp hrest).2
      exact Nat.lt_trans hbelow habove

def MmapTable.put (table : MmapTable) (start length : Nat) (hpositive : 0 < length)
    (hbounded : start + length < addressSpace) : MmapTable where
  rows := putRow table.rows (start, length)
  sorted := sorted_putRow _ table.sorted
  positive := by
    intro row h
    rcases mem_putRow.mp h with rfl | ⟨hrow, -⟩
    · exact hpositive
    · exact table.positive row hrow
  bounded := by
    intro row h
    rcases mem_putRow.mp h with rfl | ⟨hrow, -⟩
    · exact hbounded
    · exact table.bounded row hrow

/-- `emplace` keeps a row that is there. -/
def MmapTable.emplace (table : MmapTable) (start length : Nat) (hpositive : 0 < length)
    (hbounded : start + length < addressSpace) : MmapTable :=
  if (table.find start).isSome then table else table.put start length hpositive hbounded

/-- `vsyscall_track_mmap_region` -/
def MmapTable.track (table : MmapTable) (addr length : Nat) : MmapTable :=
  if h : addr ≠ mapFailed ∧ 0 < length ∧ addr + length < addressSpace then
    table.put addr length h.2.1 h.2.2
  else table

/-- `vsyscall_munmap_context`, which is only made of a request inside one range. -/
structure MunmapContext where
  reqStart : Nat
  reqEnd : Nat
  mapStart : Nat
  mapEnd : Nat
  mapLen : Nat
  inside : mapStart ≤ reqStart ∧ reqStart < mapEnd ∧ reqEnd ≤ mapEnd
  bounded : mapEnd < addressSpace

/-- How `vsyscall_prepare_munmap_context` comes out. -/
inductive Prepared where
  | notOurs (table : MmapTable)
  | invalid
  | ready (context : MunmapContext)

def prepareMunmap (table : MmapTable) (addr length : Nat) : Prepared :=
  if addr = mapFailed then .notOurs table
  else
    match table.atOrBelow addr with
    | none => .notOurs table
    | some (mapStart, mapLen) =>
        if hmap : addressSpace ≤ mapStart + mapLen then .notOurs (table.erase mapStart)
        else
          match rangeEnd addr length with
          | none => .invalid
          | some reqEnd =>
              if h : addr < mapStart ∨ mapStart + mapLen ≤ addr ∨ mapStart + mapLen < reqEnd then
                .notOurs table
              else
                .ready ⟨addr, reqEnd, mapStart, mapStart + mapLen, mapLen, by omega, by omega⟩

/-- `vsyscall_update_mmap_table_after_munmap` -/
def updateAfterMunmap (table : MmapTable) (context : MunmapContext) : MmapTable :=
  if table.find context.mapStart = some context.mapLen then
    let erased := table.erase context.mapStart
    let left :=
      if h : context.mapStart < context.reqStart then
        erased.emplace context.mapStart (context.reqStart - context.mapStart) (by omega)
          (by have := context.inside; have := context.bounded; omega)
      else erased
    if h : context.reqEnd < context.mapEnd then
      left.emplace context.reqEnd (context.mapEnd - context.reqEnd) (by omega)
        (by have := context.bounded; omega)
    else left
  else table

variable {table : MmapTable} {addr length : Nat}

theorem atOrBelow_some {row : Nat × Nat} (h : table.atOrBelow addr = some row) :
    row ∈ table.rows ∧ row.1 ≤ addr := by
  have hmem := List.mem_of_getLast? h
  rw [List.mem_filter, decide_eq_true_iff] at hmem
  exact hmem

theorem atOrBelow_none (h : table.atOrBelow addr = none) : ∀ row ∈ table.rows, addr < row.1 := by
  intro row hrow
  have hnil := List.getLast?_eq_none_iff.mp h
  rw [List.filter_eq_nil_iff] at hnil
  have hrow := hnil row hrow
  rw [decide_eq_true_iff] at hrow
  exact Nat.lt_of_not_le hrow

def MmapTable.OverflowsAbove (table : MmapTable) (addr length : Nat) : Prop :=
  addr ≠ mapFailed ∧ addressSpace ≤ addr + length ∧ ∃ row ∈ table.rows, row.1 ≤ addr

instance : Decidable (table.OverflowsAbove addr length) :=
  inferInstanceAs (Decidable (_ ∧ _ ∧ ∃ row ∈ table.rows, row.1 ≤ addr))

theorem prepareMunmap_untracked (h : ¬table.Tracks addr) :
    prepareMunmap table addr length =
      if table.OverflowsAbove addr length then .invalid else .notOurs table := by
  unfold prepareMunmap
  split
  · rename_i hfailed
    rw [if_neg fun hinvalid => hinvalid.1 hfailed]
  · rename_i hfailed
    split
    · rename_i hnone
      rw [if_neg]
      rintro ⟨-, -, row, hrow, hle⟩
      have hlt := atOrBelow_none hnone row hrow
      omega
    · rename_i mapStart mapLen hrow
      obtain ⟨hmem, hle⟩ := atOrBelow_some hrow
      dsimp only at hle
      have hbounded := table.bounded _ hmem
      dsimp only at hbounded
      have houtside : mapStart + mapLen ≤ addr := by
        by_contra hinside
        exact h ⟨_, hmem, hle, Nat.lt_of_not_le hinside⟩
      rw [dif_neg (Nat.not_le_of_lt hbounded)]
      unfold rangeEnd
      by_cases hend : addr + length < addressSpace
      · rw [if_pos hend, if_neg fun hinvalid => absurd hinvalid.2.1 (Nat.not_le_of_lt hend)]
        dsimp only
        rw [dif_pos (.inr (.inl houtside))]
      · rw [if_neg hend, if_pos ⟨hfailed, Nat.le_of_not_lt hend, _, hmem, hle⟩]

end HostPimSim.Vfile.Mapping
