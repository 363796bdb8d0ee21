import HostPimSim.Lib.Spans
import HostPimSim.Lib.Transition
import HostPimSim.Vfile.Dispatch
import Mathlib.Data.Set.BooleanAlgebra
import Mathlib.Order.CompletePartialOrder
import Mathlib.Order.Interval.Set.Basic

/-! Runs of `mmap` and `munmap`: the table of mappings beside the bytes that are mapped.  The
kernel unmaps whole pages, and only what lies inside one range of the table is taken from it. -/
namespace HostPimSim.Vfile.Mapping
open Transition Namespace

variable {table : MmapTable} {addr length : Nat}

def MmapTable.Apart (table : MmapTable) : Prop :=
  Spans.Apart Prod.fst (fun row => row.1 + row.2) table.rows

theorem apart_iff : table.Apart ↔ ∀ first ∈ table.rows, ∀ second ∈ table.rows,
    first.1 < second.1 → first.1 + first.2 ≤ second.1 :=
  Spans.apart_iff_of_sorted table.sorted

/-- The request is the whole or a part of one range. -/
def MmapTable.Inside (table : MmapTable) (addr length : Nat) : Prop :=
  ∃ row ∈ table.rows, row.1 ≤ addr ∧ addr < row.1 + row.2 ∧ addr + length ≤ row.1 + row.2

theorem eq_of_start_eq {row other : Nat × Nat} (hrow : row ∈ table.rows)
    (hother : other ∈ table.rows) (h : row.1 = other.1) : row = other := by
  by_contra hne
  have hsymm : Std.Symm fun first second : Nat × Nat => first.1 ≠ second.1 :=
    ⟨fun _ _ h => h.symm⟩
  exact (table.sorted.imp fun hlt => Nat.ne_of_lt hlt).forall hrow hother hne h

theorem clear_of_ne (hapart : table.Apart) {row other : Nat × Nat} (hrow : row ∈ table.rows)
    (hother : other ∈ table.rows) (hne : other.1 ≠ row.1) :
    other.1 + other.2 ≤ row.1 ∨ row.1 + row.2 ≤ other.1 := by
  rcases Nat.lt_or_gt_of_ne hne with hless | hmore
  · exact .inl (apart_iff.mp hapart other hother row hrow hless)
  · exact .inr (apart_iff.mp hapart row hrow other hother hmore)

theorem find_of_mem {row : Nat × Nat} (hrow : row ∈ table.rows) :
    table.find row.1 = some row.2 := by
  unfold MmapTable.find
  cases hfound : table.rows.find? fun other => other.1 = row.1 with
  | none =>
      have hnone := List.find?_eq_none.mp hfound row hrow
      exact absurd (decide_eq_true rfl) hnone
  | some other =>
      have hother := List.mem_of_find?_eq_some hfound
      have hstart := List.find?_some hfound
      rw [decide_eq_true_iff] at hstart
      rw [eq_of_start_eq hother hrow hstart, Option.map_some]

theorem find_none (h : ∀ row ∈ table.rows, row.1 ≠ addr) : table.find addr = none := by
  unfold MmapTable.find
  rw [Option.map_eq_none_iff, List.find?_eq_none]
  intro row hrow hstart
  exact h row hrow (of_decide_eq_true hstart)

theorem mem_erase {row : Nat × Nat} :
    row ∈ (table.erase addr).rows ↔ row ∈ table.rows ∧ row.1 ≠ addr := by
  unfold MmapTable.erase
  rw [List.mem_filter, decide_eq_true_iff]

theorem mem_emplace {hpositive : 0 < length} {hbounded : addr + length < addressSpace}
    (h : ∀ row ∈ table.rows, row.1 ≠ addr) {row : Nat × Nat} :
    row ∈ (table.emplace addr length hpositive hbounded).rows ↔
      row = (addr, length) ∨ row ∈ table.rows := by
  unfold MmapTable.emplace
  rw [find_none h, if_neg (by simp)]
  refine mem_putRow.trans (or_congr_right ⟨And.left, fun hrow => ⟨hrow, h row hrow⟩⟩)

theorem prepareMunmap_cases (table : MmapTable) (addr length : Nat) :
    prepareMunmap table addr length = .notOurs table ∨
      prepareMunmap table addr length = .invalid ∨
      ∃ context, prepareMunmap table addr length = .ready context ∧
        table.Inside addr length := by
  unfold prepareMunmap
  split
  · exact .inl rfl
  · split
    · exact .inl rfl
    · rename_i mapStart mapLen hrow
      have hmem := (atOrBelow_some hrow).1
      rw [dif_neg (Nat.not_le_of_lt (table.bounded _ hmem))]
      unfold rangeEnd
      split
      · exact .inr (.inl rfl)
      · rename_i reqEnd hend
        split
        · exact .inl rfl
        · rename_i hinside
          have hend : reqEnd = addr + length := by
            split at hend
            · exact (Option.some.inj hend).symm
            · cases hend
          exact .inr (.inr ⟨_, rfl, _, hmem, by dsimp only; omega, by dsimp only; omega,
            by dsimp only; omega⟩)

theorem atOrBelow_last {row : Nat × Nat} (h : table.atOrBelow addr = some row) {other : Nat × Nat}
    (hother : other ∈ table.rows) (hle : other.1 ≤ addr) : other.1 ≤ row.1 := by
  obtain ⟨before, hrows⟩ := List.getLast?_eq_some_iff.mp h
  have hmem : other ∈ table.rows.filter fun row => row.1 ≤ addr :=
    List.mem_filter.mpr ⟨hother, decide_eq_true hle⟩
  have hsorted := table.sorted.filter fun row => row.1 ≤ addr
  rw [hrows] at hmem hsorted
  rcases List.mem_append.mp hmem with hbefore | hlast
  · exact Nat.le_of_lt ((List.pairwise_append.mp hsorted).2.2 other hbefore row
      List.mem_cons_self)
  · rw [List.mem_singleton.mp hlast]

theorem atOrBelow_of_mem (hapart : table.Apart) {row : Nat × Nat} (hrow : row ∈ table.rows)
    (hle : row.1 ≤ addr) (hlt : addr < row.1 + row.2) : table.atOrBelow addr = some row := by
  cases hfound : table.atOrBelow addr with
  | none =>
      have hbelow := atOrBelow_none hfound row hrow
      omega
  | some last =>
      obtain ⟨hlast, hlastLe⟩ := atOrBelow_some hfound
      have horder := atOrBelow_last hfound hrow hle
      by_cases hstart : row.1 = last.1
      · rw [eq_of_start_eq hrow hlast hstart]
      · have hover := apart_iff.mp hapart row hrow last hlast (by omega)
        omega

theorem prepareMunmap_inside (hapart : table.Apart) {mapStart mapLen : Nat}
    (hrow : (mapStart, mapLen) ∈ table.rows) (hle : mapStart ≤ addr)
    (hlt : addr < mapStart + mapLen) (hend : addr + length ≤ mapStart + mapLen) :
    ∃ inside bounded, prepareMunmap table addr length =
      .ready ⟨addr, addr + length, mapStart, mapStart + mapLen, mapLen, inside, bounded⟩ := by
  have hbounded := table.bounded _ hrow
  dsimp only at hbounded
  have hfailed : addr ≠ mapFailed := by
    unfold mapFailed
    omega
  have hinside : ¬(addr < mapStart ∨ mapStart + mapLen ≤ addr ∨
      mapStart + mapLen < addr + length) := by omega
  unfold prepareMunmap
  rw [if_neg hfailed, atOrBelow_of_mem hapart hrow hle hlt]
  dsimp only
  rw [dif_neg (Nat.not_le_of_lt hbounded)]
  unfold rangeEnd
  rw [if_pos (Nat.lt_of_le_of_lt hend hbounded)]
  dsimp only
  rw [dif_neg hinside]
  exact ⟨_, _, rfl⟩

theorem mem_updateAfterMunmap (hapart : table.Apart) {context : MunmapContext}
    (hrow : (context.mapStart, context.mapLen) ∈ table.rows)
    (hend : context.mapEnd = context.mapStart + context.mapLen)
    (hsome : context.reqStart < context.reqEnd) {row : Nat × Nat} :
    row ∈ (updateAfterMunmap table context).rows ↔
      (context.reqEnd < context.mapEnd ∧
        row = (context.reqEnd, context.mapEnd - context.reqEnd)) ∨
      (context.mapStart < context.reqStart ∧
        row = (context.mapStart, context.reqStart - context.mapStart)) ∨
      row ∈ table.rows ∧ row.1 ≠ context.mapStart := by
  have hinside := context.inside
  have hfound := find_of_mem hrow
  dsimp only at hfound
  unfold updateAfterMunmap
  rw [if_pos hfound]
  extract_lets erased left
  have hleft : ∀ row, row ∈ left.rows ↔
      (context.mapStart < context.reqStart ∧
        row = (context.mapStart, context.reqStart - context.mapStart)) ∨
      row ∈ table.rows ∧ row.1 ≠ context.mapStart := by
    intro row
    unfold left
    split
    · rename_i hcut
      rw [mem_emplace fun other hother => (mem_erase.mp hother).2, mem_erase]
      exact or_congr_left (and_iff_right hcut).symm
    · rename_i hcut
      rw [mem_erase]
      exact (or_iff_right fun h => hcut h.1).symm
  split
  · rename_i hcut
    have hfresh : ∀ other ∈ left.rows, other.1 ≠ context.reqEnd := by
      intro other hother heq
      rcases (hleft other).mp hother with ⟨hless, rfl⟩ | ⟨hmem, hne⟩
      · dsimp only at heq
        omega
      · have hover := apart_iff.mp hapart _ hrow other hmem
        dsimp only at hover
        omega
    rw [mem_emplace hfresh, hleft]
    exact or_congr_left (and_iff_right hcut).symm
  · rename_i hcut
    rw [hleft]
    exact (or_iff_right fun h => hcut h.1).symm

section

variable {context : MunmapContext} (hapart : table.Apart)
  (hrow : (context.mapStart, context.mapLen) ∈ table.rows)
  (hend : context.mapEnd = context.mapStart + context.mapLen)
  (hsome : context.reqStart < context.reqEnd)

include hapart hrow hend hsome

theorem updateAfterMunmap_apart : (updateAfterMunmap table context).Apart := by
  have hinside := context.inside
  have hmem := @mem_updateAfterMunmap _ hapart _ hrow hend hsome
  rw [apart_iff]
  intro first hfirst second hsecond hless
  rcases hmem.mp hfirst with ⟨-, rfl⟩ | ⟨-, rfl⟩ | ⟨hfirst, hne⟩
  · rcases hmem.mp hsecond with ⟨-, rfl⟩ | ⟨-, rfl⟩ | ⟨hsecond, hne⟩
    · exact absurd hless (Nat.lt_irrefl _)
    · dsimp only at hless
      omega
    · have hclear := clear_of_ne hapart hrow hsecond hne
      have hpositive := table.positive second hsecond
      dsimp only at hless hclear ⊢
      omega
  · rcases hmem.mp hsecond with ⟨-, rfl⟩ | ⟨-, rfl⟩ | ⟨hsecond, hne⟩
    · dsimp only
      omega
    · exact absurd hless (Nat.lt_irrefl _)
    · have hclear := clear_of_ne hapart hrow hsecond hne
      have hpositive := table.positive second hsecond
      dsimp only at hless hclear ⊢
      omega
  · have hclear := clear_of_ne hapart hrow hfirst hne
    rcases hmem.mp hsecond with ⟨-, rfl⟩ | ⟨-, rfl⟩ | ⟨hsecond, -⟩
    · dsimp only at hless hclear ⊢
      omega
    · dsimp only at hless hclear ⊢
      omega
    · exact apart_iff.mp hapart first hfirst second hsecond hless

theorem updateAfterMunmap_tracks : (updateAfterMunmap table context).Tracks addr ↔
    table.Tracks addr ∧ ¬(context.reqStart ≤ addr ∧ addr < context.reqEnd) := by
  have hinside := context.inside
  have hmem := @mem_updateAfterMunmap _ hapart _ hrow hend hsome
  constructor
  · rintro ⟨row, hleft, hle, hlt⟩
    rcases hmem.mp hleft with ⟨-, rfl⟩ | ⟨-, rfl⟩ | ⟨hold, hne⟩
    · dsimp only at hle hlt
      exact ⟨⟨_, hrow, by dsimp only; omega, by dsimp only; omega⟩, by omega⟩
    · dsimp only at hle hlt
      exact ⟨⟨_, hrow, hle, by dsimp only; omega⟩, by omega⟩
    · have hclear := clear_of_ne hapart hrow hold hne
      dsimp only at hclear
      exact ⟨⟨row, hold, hle, hlt⟩, by omega⟩
  · rintro ⟨⟨row, hold, hle, hlt⟩, hkept⟩
    by_cases hstart : row.1 = context.mapStart
    · rw [eq_of_start_eq hold hrow hstart] at hle hlt
      dsimp only at hle hlt
      by_cases hbefore : addr < context.reqStart
      · exact ⟨_, hmem.mpr (.inr (.inl ⟨by omega, rfl⟩)), hle, by dsimp only; omega⟩
      · exact ⟨_, hmem.mpr (.inl ⟨by omega, rfl⟩), by dsimp only; omega,
          by dsimp only; omega⟩
    · exact ⟨row, hmem.mpr (.inr (.inr ⟨hold, hstart⟩)), hle, hlt⟩

end

section

variable {ret : Nat} (hsome : 0 < length) (hfailed : ret ≠ mapFailed)
  (hbounded : ret + length < addressSpace)

include hsome hfailed hbounded

theorem mem_track {row : Nat × Nat} : row ∈ (table.track ret length).rows ↔
    row = (ret, length) ∨ row ∈ table.rows ∧ row.1 ≠ ret := by
  unfold MmapTable.track
  rw [dif_pos ⟨hfailed, hsome, hbounded⟩]
  exact mem_putRow

variable (hclear : ∀ row ∈ table.rows, row.1 + row.2 ≤ ret ∨ ret + length ≤ row.1)

include hclear

theorem track_apart (hapart : table.Apart) : (table.track ret length).Apart := by
  rw [apart_iff]
  intro first hfirst second hsecond hless
  rcases (mem_track hsome hfailed hbounded).mp hfirst with rfl | ⟨hfirst, -⟩
  · rcases (mem_track hsome hfailed hbounded).mp hsecond with rfl | ⟨hsecond, -⟩
    · exact absurd hless (Nat.lt_irrefl _)
    · have := hclear second hsecond
      have := table.positive second hsecond
      dsimp only at hless ⊢
      omega
  · rcases (mem_track hsome hfailed hbounded).mp hsecond with rfl | ⟨hsecond, -⟩
    · have := hclear first hfirst
      dsimp only at hless ⊢
      omega
    · exact apart_iff.mp hapart first hfirst second hsecond hless

theorem track_tracks : (table.track ret length).Tracks addr ↔
    table.Tracks addr ∨ ret ≤ addr ∧ addr < ret + length := by
  constructor
  · rintro ⟨row, hrow, hin⟩
    rcases (mem_track hsome hfailed hbounded).mp hrow with rfl | ⟨hold, -⟩
    · exact .inr hin
    · exact .inl ⟨row, hold, hin⟩
  · rintro (⟨row, hrow, hin⟩ | hin)
    · refine ⟨row, (mem_track hsome hfailed hbounded).mpr (.inr ⟨hrow, ?_⟩), hin⟩
      have := hclear row hrow
      have := table.positive row hrow
      omega
    · exact ⟨(ret, length), (mem_track hsome hfailed hbounded).mpr (.inl rfl), hin⟩

end

theorem track_nothing {ret : Nat} : table.track ret 0 = table := by
  unfold MmapTable.track
  rw [dif_neg fun h => absurd h.2.1 (Nat.lt_irrefl 0)]

/-- The table beside the bytes that `mmap` returned and that are still mapped. -/
structure Process where
  table : MmapTable
  mapped : Set Nat

def Process.start : Process := ⟨.empty, ∅⟩

/-- The two calls, with what comes back from outside: the pointer of the device's callback, and
whether the kernel carries the request out. -/
inductive MapCall where
  | mmap (ret length : Nat)
  | munmap (addr length : Nat) (unmaps : Bool)

/-- A pointer that is negative as a `long` is an error. -/
def isError (ret : Nat) : Bool := 2 ^ 63 ≤ ret

/-- `dispatch_mmap` -/
def Process.mmap (s : Process) (ret length : Nat) : Process :=
  if isError ret then s
  else ⟨s.table.track ret length, s.mapped ∪ Set.Ico ret (ret + length)⟩

def wholePages (page length : Nat) : Nat := (length + page - 1) / page * page

def unmapPages (page addr length : Nat) (mapped : Set Nat) : Set Nat :=
  mapped \ Set.Ico addr (addr + wholePages page length)

/-- `dispatch_munmap`, and the kernel's own call where the dispatch leaves it the request. -/
def Process.munmap (page : Nat) (s : Process) (addr length : Nat) (unmaps : Bool) : Process :=
  match prepareMunmap s.table addr length with
  | .invalid => s
  | .notOurs table =>
      ⟨table, if unmaps then unmapPages page addr length s.mapped else s.mapped⟩
  | .ready context =>
      if unmaps then
        ⟨updateAfterMunmap s.table context, unmapPages page addr length s.mapped⟩
      else s

/-- The table of an `mmap` on an owned descriptor is the table after the dispatch, where
`vsyscall_wrapper_from_negative` has made an error of a negative pointer. -/
theorem dispatchMmap_table (env : Env) (st : VsyscallState) (args : Args) (forward : Int)
    {ret : Nat} {errno : Attribute.Errno} (mapped : Set Nat)
    (hret : (dispatchOwnedFd env st .sysMmap args forward (asInt args.e)).ret =
      if isError ret then .error errno else .ok ret) :
    (dispatchMmap env st .sysMmap args forward).state.mmapTable =
      (Process.mmap ⟨(dispatchOwnedFd env st .sysMmap args forward (asInt args.e)).state.mmapTable,
        mapped⟩ ret args.b.toNat).table := by
  unfold dispatchMmap Process.mmap
  dsimp only
  rw [hret]
  cases isError ret with
  | true => rfl
  | false =>
      rw [if_neg Bool.false_ne_true, if_neg Bool.false_ne_true]
      dsimp only
      rw [if_pos (Int.natCast_nonneg ret), Int.toNat_natCast]
      rfl

theorem dispatchMunmap_table (page : Nat) (env : Env) (st : VsyscallState) (args : Args)
    (forward : Int) (mapped : Set Nat) {unmaps : Bool}
    (hkernel : (env.munmap args.a.toNat args.b.toNat).toBool = unmaps) :
    (dispatchMunmap env st args forward).state.mmapTable =
      (Process.munmap page ⟨st.mmapTable, mapped⟩ args.a.toNat args.b.toNat unmaps).table := by
  unfold dispatchMunmap Process.munmap
  dsimp only
  subst hkernel
  cases prepareMunmap st.mmapTable args.a.toNat args.b.toNat with
  | notOurs left => rfl
  | invalid => rfl
  | ready context =>
      cases env.munmap args.a.toNat args.b.toNat with
      | error errno => rfl
      | ok done => rfl

def mapStep (page : Nat) (s : Process) : MapCall → Option Process
  | .mmap ret length => some (s.mmap ret length)
  | .munmap addr length unmaps => some (s.munmap page addr length unmaps)

/-- What the callback and the kernel keep to: a new range is whole and where nothing is mapped,
and only pages of the address space are unmapped. -/
def MapCall.Legal (page : Nat) (s : Process) : MapCall → Prop
  | .mmap ret length => isError ret = false →
      page ∣ ret ∧ ret + length < addressSpace ∧ Disjoint (Set.Ico ret (ret + length)) s.mapped
  | .munmap addr length unmaps => unmaps = true →
      page ∣ addr ∧ 0 < length ∧ addr + wholePages page length < addressSpace

/-- A request that unmaps what it asks for of one range and of no other, or nothing that is
tracked. -/
def MapCall.Plain (page : Nat) (s : Process) : MapCall → Prop
  | .mmap _ _ => True
  | .munmap addr length unmaps => unmaps = true →
      (∃ row ∈ s.table.rows, row.1 ≤ addr ∧ addr + length ≤ row.1 + row.2 ∧
        (page ∣ length ∨ addr + length = row.1 + row.2)) ∨
      ∀ row ∈ s.table.rows, row.1 + row.2 ≤ addr ∨ addr + wholePages page length ≤ row.1

/-- The ranges are disjoint, and they are made up of the mapped bytes. -/
structure Process.Exact (s : Process) : Prop where
  apart : s.table.Apart
  tracked : ∀ addr, s.table.Tracks addr ↔ addr ∈ s.mapped

variable {page : Nat}

theorem le_wholePages (hpage : 0 < page) (length : Nat) : length ≤ wholePages page length := by
  unfold wholePages
  have hdiv := Nat.div_add_mod (length + page - 1) page
  have hmod := Nat.mod_lt (length + page - 1) hpage
  rw [Nat.mul_comm]
  omega

theorem wholePages_le (hpage : 0 < page) {n : Nat} (hdvd : page ∣ n) (hle : length ≤ n) :
    wholePages page length ≤ n := by
  obtain ⟨k, rfl⟩ := hdvd
  have hless : (length + page - 1) / page < k + 1 := by
    rw [Nat.div_lt_iff_lt_mul hpage, Nat.succ_mul, Nat.mul_comm k]
    omega
  unfold wholePages
  rw [Nat.mul_comm page k]
  exact Nat.mul_le_mul_right page (Nat.le_of_lt_succ hless)

def MmapTable.Aligned (page : Nat) (table : MmapTable) : Prop := ∀ row ∈ table.rows, page ∣ row.1

variable {s : Process}

theorem mmap_exact {ret : Nat} (h : s.Exact) (haligned : s.table.Aligned page)
    (hlegal : (MapCall.mmap ret length).Legal page s) :
    (s.mmap ret length).Exact ∧ (s.mmap ret length).table.Aligned page := by
  unfold Process.mmap
  cases herror : isError ret with
  | true => exact ⟨h, haligned⟩
  | false =>
      obtain ⟨hdvd, hbounded, hdisjoint⟩ := hlegal herror
      rw [if_neg Bool.false_ne_true]
      cases length with
      | zero =>
          rw [track_nothing, Nat.add_zero, Set.Ico_self, Set.union_empty]
          exact ⟨h, haligned⟩
      | succ less =>
          have hsome := Nat.succ_pos less
          have hfailed : ret ≠ mapFailed := by
            have hless := of_decide_eq_false herror
            unfold mapFailed addressSpace
            omega
          have hclear : ∀ row ∈ s.table.rows, row.1 + row.2 ≤ ret ∨ ret + (less + 1) ≤ row.1 := by
            intro row hrow
            by_contra hover
            have hpositive := s.table.positive row hrow
            have htracks : s.table.Tracks (max ret row.1) := ⟨row, hrow, by omega, by omega⟩
            exact Set.disjoint_left.mp hdisjoint ⟨by omega, by omega⟩ ((h.tracked _).mp htracks)
          refine ⟨⟨track_apart hsome hfailed hbounded hclear h.apart, fun addr => ?_⟩, ?_⟩
          · rw [Set.mem_union, Set.mem_Ico, ← h.tracked]
            exact track_tracks hsome hfailed hbounded hclear
          · intro row hrow
            rcases (mem_track hsome hfailed hbounded).mp hrow with rfl | ⟨hold, -⟩
            · exact hdvd
            · exact haligned row hold

theorem munmap_refused : s.munmap page addr length false = s := by
  unfold Process.munmap
  rcases prepareMunmap_cases s.table addr length with hprepared | hprepared | ⟨_, hprepared, -⟩
  all_goals rw [hprepared]
  all_goals rfl

theorem munmap_outside (h : s.Exact) (hpage : 0 < page) (hsome : 0 < length)
    (hbounded : addr + wholePages page length < addressSpace)
    (hclear : ∀ row ∈ s.table.rows,
      row.1 + row.2 ≤ addr ∨ addr + wholePages page length ≤ row.1) :
    s.munmap page addr length true = s := by
  have hpages := le_wholePages hpage length
  have huntracked : ∀ at' ∈ Set.Ico addr (addr + wholePages page length), ¬s.table.Tracks at' := by
    rintro at' ⟨hle, hlt⟩ ⟨row, hrow, hstart, hend⟩
    have := hclear row hrow
    omega
  have hprepared : prepareMunmap s.table addr length = .notOurs s.table := by
    rw [prepareMunmap_untracked (huntracked addr ⟨Nat.le_refl addr, by omega⟩), if_neg]
    rintro ⟨-, hover, -⟩
    omega
  unfold Process.munmap
  rw [hprepared]
  dsimp only
  rw [if_pos rfl]
  have hmapped : unmapPages page addr length s.mapped = s.mapped := by
    unfold unmapPages
    rw [sdiff_eq_left, Set.disjoint_left]
    intro at' hmapped hpages
    exact huntracked at' hpages ((h.tracked at').mpr hmapped)
  rw [hmapped]

/-- What the kernel unmaps beyond the request, on its last page, is of no range. -/
theorem tail_untracked (h : s.Exact) (haligned : s.table.Aligned page) (hpage : 0 < page)
    {row : Nat × Nat} (hrow : row ∈ s.table.rows) (hle : row.1 ≤ addr) (haddr : page ∣ addr)
    (hplain : page ∣ length ∨ addr + length = row.1 + row.2) {at' : Nat}
    (hfrom : addr + length ≤ at') (hto : at' < addr + wholePages page length) :
    ¬s.table.Tracks at' := by
  rintro ⟨other, hother, hstart, hend⟩
  rcases hplain with hdvd | hlast
  · have := wholePages_le hpage hdvd (Nat.le_refl length)
    omega
  · have hne : other.1 ≠ row.1 := by
      intro heq
      rw [eq_of_start_eq hother hrow heq] at hend
      omega
    have hclear := clear_of_ne h.apart hrow hother hne
    have hpositive := s.table.positive row hrow
    have hdvd : page ∣ other.1 - addr := Nat.dvd_sub (haligned other hother) haddr
    have : wholePages page length ≤ other.1 - addr := wholePages_le hpage hdvd (by omega)
    omega

theorem munmap_inside (h : s.Exact) (haligned : s.table.Aligned page) (hpage : 0 < page)
    {mapStart mapLen : Nat} (hrow : (mapStart, mapLen) ∈ s.table.rows) (hle : mapStart ≤ addr)
    (hend : addr + length ≤ mapStart + mapLen) (haddr : page ∣ addr) (hsome : 0 < length)
    (hplain : page ∣ length ∨ addr + length = mapStart + mapLen) :
    (s.munmap page addr length true).Exact ∧
      (s.munmap page addr length true).table.Aligned page := by
  obtain ⟨inside, bounded, hprepared⟩ := prepareMunmap_inside h.apart hrow hle (by omega) hend
  unfold Process.munmap
  rw [hprepared]
  dsimp only
  rw [if_pos rfl]
  generalize hcontext : MunmapContext.mk addr (addr + length) mapStart (mapStart + mapLen) mapLen
    inside bounded = context
  have hreq : context.reqStart < context.reqEnd := by
    rw [← hcontext]
    dsimp only
    omega
  have hmem : (context.mapStart, context.mapLen) ∈ s.table.rows := hcontext ▸ hrow
  have hmapEnd : context.mapEnd = context.mapStart + context.mapLen := hcontext ▸ rfl
  refine ⟨⟨updateAfterMunmap_apart h.apart hmem hmapEnd hreq, fun at' => ?_⟩, ?_⟩
  · rw [updateAfterMunmap_tracks h.apart hmem hmapEnd hreq, ← hcontext]
    unfold unmapPages
    rw [Set.mem_sdiff, ← h.tracked, Set.mem_Ico]
    have hpages := le_wholePages hpage length
    refine and_congr_right fun htracks => not_congr ⟨fun hin => ⟨hin.1, ?_⟩, fun hin => ?_⟩
    · exact Nat.lt_of_lt_of_le hin.2 (Nat.add_le_add_left hpages addr)
    · refine ⟨hin.1, Nat.lt_of_not_le fun hfrom => ?_⟩
      exact tail_untracked h haligned hpage hrow hle haddr hplain hfrom hin.2 htracks
  · intro row hleft
    rcases (mem_updateAfterMunmap h.apart hmem hmapEnd hreq).mp hleft with
      ⟨hcut, rfl⟩ | ⟨-, rfl⟩ | ⟨hold, -⟩
    · rw [← hcontext] at hcut ⊢
      exact Nat.dvd_add haddr (hplain.resolve_right (Nat.ne_of_lt hcut))
    · exact haligned (context.mapStart, context.mapLen) hmem
    · exact haligned row hold

theorem mapStep_exact {call : MapCall} {t : Process} (hpage : 0 < page)
    (h : s.Exact ∧ s.table.Aligned page) (hok : call.Legal page s ∧ call.Plain page s)
    (hstep : mapStep page s call = some t) : t.Exact ∧ t.table.Aligned page := by
  obtain ⟨hexact, haligned⟩ := h
  obtain ⟨hlegal, hplain⟩ := hok
  cases call with
  | mmap ret length =>
      cases hstep
      exact mmap_exact hexact haligned hlegal
  | munmap addr length unmaps =>
      cases hstep
      cases unmaps with
      | false =>
          rw [munmap_refused]
          exact ⟨hexact, haligned⟩
      | true =>
          obtain ⟨haddr, hsome, hbounded⟩ := hlegal rfl
          rcases hplain rfl with ⟨row, hrow, hle, hend, hcut⟩ | hclear
          · exact munmap_inside hexact haligned hpage hrow hle hend haddr hsome hcut
          · rw [munmap_outside hexact hpage hsome hbounded hclear]
            exact ⟨hexact, haligned⟩

theorem start_exact (page : Nat) : Process.start.Exact ∧ Process.start.table.Aligned page := by
  refine ⟨⟨List.Pairwise.nil, fun addr => ⟨?_, fun h => absurd h (Set.notMem_empty addr)⟩⟩, ?_⟩
  · rintro ⟨row, hrow, -⟩
    exact absurd hrow List.not_mem_nil
  · intro row hrow
    exact absurd hrow List.not_mem_nil

/-- A request that is not inside one range is not the dispatch's to keep a record of. -/
theorem munmap_table_of_not_inside {unmaps : Bool} (h : ¬s.table.Inside addr length) :
    (s.munmap page addr length unmaps).table = s.table := by
  unfold Process.munmap
  rcases prepareMunmap_cases s.table addr length with hprepared | hprepared | ⟨_, hprepared, hin⟩
  · rw [hprepared]
  · rw [hprepared]
  · exact absurd hin h

/-- The table is exact as long as every request that the kernel carries out is a plain one, and
no request but those inside one range changes it. -/
theorem mmap_table_exact (hpage : 0 < page) {calls : List MapCall}
    (hlegal : Meets (mapStep page) (MapCall.Legal page) .start calls)
    (hrun : run (mapStep page) .start calls = some s) :
    (Meets (mapStep page) (MapCall.Plain page) .start calls → s.Exact) ∧
      ∀ addr length unmaps, ¬s.table.Inside addr length →
        (s.munmap page addr length unmaps).table = s.table := by
  refine ⟨fun hplain => ?_, fun addr length unmaps => munmap_table_of_not_inside⟩
  have hmeets := hlegal.and hplain
  exact (run_invariant_of_meets (fun _ _ _ => mapStep_exact hpage) (start_exact page) hmeets
    hrun).1

/-- A page in the middle is unmapped and mapped again, then something else is unmapped. -/
def reused : List MapCall :=
  [.mmap 0x10000 0x3000, .munmap 0x11000 0x1000 true, .mmap 0x11000 0x1000,
    .munmap 0x40000 10 true]

theorem mmap_table_exact_reused :
    ∃ s, run (mapStep 4096) .start reused = some s ∧ s.Exact := by
  refine ⟨_, rfl, (@mmap_table_exact 4096 _ (by decide) reused ?_ rfl).1 ?_⟩
  · refine ⟨fun _ => ⟨by decide, by decide, Set.disjoint_empty _⟩, ?_⟩
    rintro s ⟨⟩
    refine ⟨fun _ => ⟨by decide, by decide, by decide⟩, ?_⟩
    rintro s ⟨⟩
    refine ⟨fun _ => ⟨by decide, by decide, ?_⟩, ?_⟩
    · refine Set.disjoint_left.mpr ?_
      rintro addr ⟨hle, hlt⟩ ⟨-, hkept⟩
      exact hkept ⟨hle, hlt⟩
    rintro s ⟨⟩
    refine ⟨fun _ => ⟨by decide, by decide, by decide⟩, ?_⟩
    rintro s ⟨⟩
    trivial
  · refine ⟨trivial, ?_⟩
    rintro s ⟨⟩
    refine ⟨fun _ => .inl (by decide), ?_⟩
    rintro s ⟨⟩
    refine ⟨trivial, ?_⟩
    rintro s ⟨⟩
    refine ⟨fun _ => .inr (by decide), ?_⟩
    rintro s ⟨⟩
    trivial

def pastTheEnd : List MapCall := [.mmap 0x10000 0x2000, .munmap 0x10000 0x4000 true]

theorem stale_range : ¬∀ calls s, Meets (mapStep 4096) (MapCall.Legal 4096) .start calls →
    run (mapStep 4096) .start calls = some s → s.Exact := by
  intro h
  have hlegal : Meets (mapStep 4096) (MapCall.Legal 4096) .start pastTheEnd := by
    refine ⟨fun _ => ⟨by decide, by decide, Set.disjoint_empty _⟩, ?_⟩
    rintro s ⟨⟩
    refine ⟨fun _ => ⟨by decide, by decide, by decide⟩, ?_⟩
    rintro s ⟨⟩
    trivial
  have hexact := h pastTheEnd _ hlegal rfl
  have htracks : MmapTable.Tracks (MmapTable.empty.track 0x10000 0x2000) 0x10000 := by decide
  have hmapped := (hexact.tracked 0x10000).mp htracks
  exact hmapped.2 ⟨by decide, by decide⟩

end HostPimSim.Vfile.Mapping
