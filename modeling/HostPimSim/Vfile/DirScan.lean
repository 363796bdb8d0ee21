import HostPimSim.Lib.Threads
import HostPimSim.Lib.Transition
import HostPimSim.Vfile.Tree

/-! Reading a virtual directory: the calls of `getdents` on one open directory, section by
section, among changes of the namespace.  The cursor counts rows, and the rows are collected
anew whenever the generation has moved. -/
namespace HostPimSim.Vfile.DirScan
open Threads Transition Attribute Namespace

abbrev Row := String × DType

/-- `vdir_dirent_aligned_reclen`; zero when there is no such length. -/
def direntAlignedReclen (base nameLen suffixLen align : Nat) : Nat :=
  let raw := base + nameLen + suffixLen
  let reclen := (raw + (align - 1)) / align * align
  if align = 0 ∨ align &&& (align - 1) ≠ 0 ∨ raw + (align - 1) > 2 ^ 64 - 1 then 0
  else if reclen > 65535 then 0
  else reclen

/-- `vdir_getdents_reclen` of `vdir_linux_dirent64` and of `vdir_linux_dirent`. -/
def getdents64Reclen (row : Row) : Nat := direntAlignedReclen 19 row.1.length 1 8

def getdentsReclen (row : Row) : Nat := direntAlignedReclen 18 row.1.length 2 8

/-- A `vfile_fd_entry` of type `FD_VDIR`. -/
structure Entry where
  pathOnly : Bool
  readOffset : Nat
  cachedRows : List Row
  cachedGeneration : BitVec 64
  deriving DecidableEq

def makeFdEntry (pathOnly : Bool) : Entry := ⟨pathOnly, 0, [], 0⟩

def Entry.stale (e : Entry) (generation : BitVec 64) : Bool :=
  e.cachedGeneration != generation || e.cachedRows.isEmpty

inductive ScanError where
  | ebadf
  | efault
  | enoent
  | enomem
  | einval
  deriving DecidableEq

/-- How a call returns; `gaveUp` is the zero after two attempts. -/
inductive Result where
  | entries (rows : List Row)
  | eof
  | gaveUp
  | error (e : ScanError)
  deriving DecidableEq

variable (reclen : Row → Nat)

def Result.value : Result → Int
  | .entries rows => (rows.map reclen).sum
  | .eof | .gaveUp => 0
  | .error _ => -1

def fitting (room : Nat) : List Row → List Row
  | [] => []
  | row :: rest =>
      if reclen row = 0 ∨ reclen row > room then [] else row :: fitting (room - reclen row) rest

/-- `vdir_emit_cached_dirents_locked` -/
def emitCachedDirents (e : Entry) (count : Nat) : Entry × Result :=
  if e.cachedRows.length ≤ e.readOffset then (e, .eof)
  else
    let out := fitting reclen count (e.cachedRows.drop e.readOffset)
    if out = [] then (e, .error .einval)
    else ({ e with readOffset := e.readOffset + out.length }, .entries out)

/-- Where a call of `vdir_dispatch_getdents_common` is; `last` is the second attempt. -/
inductive Pc where
  | entered
  | testing (generation : BitVec 64) (last : Bool)
  | collecting (generation : BitVec 64) (last : Bool)
  | assigning (generation : BitVec 64) (last : Bool) (rows : Option (List Row))
  | emitting (generation : BitVec 64) (last : Bool)
  | rereading (generation : BitVec 64)
  | returned (result : Result)
  deriving DecidableEq

structure Call where
  count : Nat
  dirp : Bool
  pc : Pc
  deriving DecidableEq

/-- `snapshot` is what `vfile_build_virtual_fs_snapshot` gives, and `returned` records the
entries that the calls have returned. -/
structure State where
  snapshot : Snapshot
  generation : BitVec 64
  entry : Entry
  calls : List Call
  returned : List Row

inductive Action where
  | change (seeds : Seeds)
  | notify
  | getdents (count : Nat) (dirp : Bool)
  | turn (index : Nat) (ok : Bool)
  deriving DecidableEq

def opened (seeds : Seeds) (generation : BitVec 64) (pathOnly : Bool) : State :=
  ⟨buildSnapshot seeds, generation, makeFdEntry pathOnly, [], []⟩

variable (path : Path)

/-- The next section of a call.  `ok` is whether there is memory for the rows. -/
def dispatchGetdents (s : State) (index : Nat) (ok : Bool) (call : Call) : Option State :=
  let move (pc : Pc) := s.calls.set index { call with pc := pc }
  match call.pc with
  | .entered =>
      if s.entry.pathOnly then some { s with calls := move (.returned (.error .ebadf)) }
      else if !call.dirp then some { s with calls := move (.returned (.error .efault)) }
      else some { s with calls := move (.testing s.generation false) }
  | .testing generation last =>
      some { s with
        calls := move
          (if s.entry.stale generation then .collecting generation last
          else .emitting generation last) }
  | .collecting generation last =>
      let rows := if ok then collectDirents s.snapshot path else none
      some { s with calls := move (.assigning generation last rows) }
  | .assigning _ _ none =>
      some { s with
        entry := { s.entry with cachedRows := [], cachedGeneration := 0 }
        calls := move (.returned (.error .enoent)) }
  | .assigning generation last (some rows) =>
      if s.entry.stale generation = false then
        some { s with calls := move (.emitting generation last) }
      else if !ok then some { s with calls := move (.returned (.error .enomem)) }
      else
        some { s with
          entry := { s.entry with cachedRows := rows, cachedGeneration := generation }
          calls := move (.emitting generation last) }
  | .emitting generation last =>
      if s.entry.stale generation then
        some { s with
          calls := move (if last then .returned .gaveUp else .rereading generation) }
      else
        let emitted := emitCachedDirents reclen s.entry call.count
        some { s with
          entry := emitted.1
          calls := move (.returned emitted.2)
          returned := s.returned ++ match emitted.2 with
            | .entries rows => rows
            | _ => [] }
  | .rereading generation =>
      some { s with
        calls := move
          (if s.generation = generation then .returned .gaveUp
          else .testing s.generation true) }
  | .returned _ => none

/-- A registration or a removal changes what a build gives, and bumps the generation. -/
def step (s : State) : Action → Option State
  | .change seeds => some { s with snapshot := buildSnapshot seeds }
  | .notify => some { s with generation := bumpNonzeroRevision s.generation }
  | .getdents count dirp => some { s with calls := s.calls ++ [⟨count, dirp, .entered⟩] }
  | .turn index ok => (s.calls[index]?).bind (dispatchGetdents reclen path s index ok)

variable {reclen path} {x : String}

def Entry.passed (e : Entry) (x : String) : Nat :=
  ((e.cachedRows.take e.readOffset).map Prod.fst).count x

def Once (x : String) (rows : List Row) : Prop := (rows.map Prod.fst).count x = 1

def State.Lists (path : Path) (x : String) (s : State) : Prop :=
  ∃ rows ∈ collectDirents s.snapshot path, Once x rows

/-- Of the names that a build lists, only the two dots can be there twice. -/
theorem once_of_mem {seeds : Seeds} {rows : List Row}
    (hrows : rows ∈ collectDirents (buildSnapshot seeds) path) (hdot : x ≠ ".")
    (hdots : x ≠ "..") (hmem : x ∈ rows.map Prod.fst) : Once x rows := by
  obtain ⟨children, hfind, rfl⟩ := Option.map_eq_some_iff.mp hrows
  have hnodup : (Table.keys (inNameOrder children)).Nodup :=
    (keys_inNameOrder_perm children).nodup_iff.mpr
      (keysNodup_buildSnapshot seeds path children hfind)
  rw [List.map_cons, List.map_cons, List.mem_cons, List.mem_cons] at hmem
  unfold Once
  rw [List.map_cons, List.map_cons, List.count_cons_of_ne (Ne.symm hdot),
    List.count_cons_of_ne (Ne.symm hdots)]
  exact List.count_eq_one_of_mem hnodup ((hmem.resolve_left hdot).resolve_left hdots)

/-- A refresh leaves the name on its side of the cursor, and no call returns zero for want of
rows of its generation. -/
def Pc.StaysPut (x : String) (s : State) (ok : Bool) : Pc → Prop
  | .collecting _ _ => ok = true
  | .assigning generation _ (some rows) => s.entry.stale generation = true →
      (x ∈ (s.entry.cachedRows.take s.entry.readOffset).map Prod.fst ↔
        x ∈ (rows.take s.entry.readOffset).map Prod.fst)
  | .emitting generation true => s.entry.stale generation = false
  | .rereading generation => s.generation ≠ generation
  | _ => True

def StaysPut (x : String) (s : State) : Action → Prop
  | .turn index ok => ∀ call ∈ s.calls[index]?, call.pc.StaysPut x s ok
  | _ => True

theorem fitting_prefix (reclen : Row → Nat) (room : Nat) (rows : List Row) :
    fitting reclen room rows <+: rows := by
  induction rows generalizing room with
  | nil => exact List.prefix_rfl
  | cons row rest ih =>
      unfold fitting
      split
      · exact List.nil_prefix
      · exact (List.prefix_cons_inj row).mpr (ih _)

theorem sum_fitting_pos {room : Nat} {rows : List Row} (h : fitting reclen room rows ≠ []) :
    0 < ((fitting reclen room rows).map reclen).sum := by
  cases rows with
  | nil => exact absurd rfl h
  | cons row rest =>
      unfold fitting at h ⊢
      split
      · rename_i hnot
        exact absurd (if_pos hnot) h
      · rename_i hfits
        rw [List.map_cons, List.sum_cons]
        omega

theorem take_add_length_of_starts {out rows : List Row} {cursor : Nat} (h : out <+: rows.drop cursor) :
    rows.take (cursor + out.length) = rows.take cursor ++ out := by
  rw [List.take_add, ← List.prefix_iff_eq_take.mp h]

theorem emit_passed (reclen : Row → Nat) (e : Entry) (count : Nat) (x : String) :
    (emitCachedDirents reclen e count).1.passed x = e.passed x +
      (match (emitCachedDirents reclen e count).2 with
        | .entries rows => (rows.map Prod.fst).count x
        | _ => 0) ∧
      (emitCachedDirents reclen e count).1.cachedRows = e.cachedRows := by
  unfold emitCachedDirents
  dsimp only
  split
  · exact ⟨rfl, rfl⟩
  · split
    · exact ⟨rfl, rfl⟩
    · have hprefix := fitting_prefix reclen count (e.cachedRows.drop e.readOffset)
      refine ⟨?_, rfl⟩
      unfold Entry.passed
      dsimp only
      rw [take_add_length_of_starts hprefix, List.map_append, List.count_append]

theorem emit_value_zero {e : Entry} {count : Nat}
    (h : (emitCachedDirents reclen e count).2.value reclen = 0) :
    e.cachedRows.length ≤ e.readOffset := by
  unfold emitCachedDirents at h
  dsimp only at h
  split at h
  · assumption
  · split at h
    · cases h
    · rename_i hsome
      have hpos := sum_fitting_pos hsome
      change ((List.map reclen _).sum : Int) = 0 at h
      omega

def PcFacts (reclen : Row → Nat) (x : String) (e : Entry) : Pc → Prop
  | .assigning _ _ none => False
  | .assigning _ _ (some rows) => Once x rows
  | .returned result => result.value reclen = 0 → e.passed x = 1
  | _ => True

structure Tracks (reclen : Row → Nat) (x : String) (s : State) : Prop where
  returned : (s.returned.map Prod.fst).count x = s.entry.passed x
  rows : s.entry.cachedRows = [] ∨ Once x s.entry.cachedRows
  calls : ∀ call ∈ s.calls, PcFacts reclen x s.entry call.pc

theorem PcFacts.mono {e e' : Entry} {pc : Pc} (h : PcFacts reclen x e pc)
    (hpassed : e.passed x = 1 → e'.passed x = 1) : PcFacts reclen x e' pc := by
  cases pc with
  | assigning generation last rows =>
      cases rows with
      | none => exact h
      | some rows => exact h
  | returned result => exact fun hzero => hpassed (h hzero)
  | _ => trivial

theorem passed_le {e : Entry} (h : e.cachedRows = [] ∨ Once x e.cachedRows) :
    e.passed x ≤ 1 := by
  unfold Entry.passed
  rcases h with hnil | honce
  · simp [hnil]
  · have hsub := ((List.take_sublist e.readOffset e.cachedRows).map Prod.fst).count_le x
    unfold Once at honce
    omega

/-- One side of the cursor is one count before it. -/
theorem passed_eq_of_side {e : Entry} {rows : List Row} (generation : BitVec 64)
    (hold : e.cachedRows = [] ∨ Once x e.cachedRows) (hnew : Once x rows)
    (hside : x ∈ (e.cachedRows.take e.readOffset).map Prod.fst ↔
      x ∈ (rows.take e.readOffset).map Prod.fst) :
    { e with cachedRows := rows, cachedGeneration := generation }.passed x = e.passed x := by
  have hle := passed_le hold
  have hle' := passed_le (x := x)
    (e := { e with cachedRows := rows, cachedGeneration := generation }) (.inr hnew)
  rw [← List.count_pos_iff, ← List.count_pos_iff] at hside
  unfold Entry.passed at hle hle' ⊢
  dsimp only at hle' ⊢
  omega

section
variable {s t : State} {index : Nat} {call : Call} {ok : Bool} (h : Tracks reclen x s)
include h

theorem Tracks.move {pc : Pc} (hpc : PcFacts reclen x s.entry pc) :
    Tracks reclen x { s with calls := s.calls.set index { call with pc := pc } } :=
  ⟨h.returned, h.rows, forall_mem_set h.calls hpc⟩

theorem Tracks.refresh {rows : List Row} {generation : BitVec 64} {last : Bool}
    (honce : Once x rows) (hside : x ∈ (s.entry.cachedRows.take s.entry.readOffset).map Prod.fst ↔
      x ∈ (rows.take s.entry.readOffset).map Prod.fst) :
    Tracks reclen x { s with
      entry := { s.entry with cachedRows := rows, cachedGeneration := generation }
      calls := s.calls.set index { call with pc := .emitting generation last } } := by
  have hpassed := passed_eq_of_side generation h.rows honce hside
  refine ⟨h.returned.trans hpassed.symm, .inr honce, forall_mem_set ?_ trivial⟩
  exact fun other hmem => (h.calls other hmem).mono fun hone => hpassed.trans hone

theorem Tracks.emit {generation : BitVec 64} (hstale : s.entry.stale generation = false) :
    Tracks reclen x { s with
      entry := (emitCachedDirents reclen s.entry call.count).1
      calls := s.calls.set index
        { call with pc := .returned (emitCachedDirents reclen s.entry call.count).2 }
      returned := s.returned ++ match (emitCachedDirents reclen s.entry call.count).2 with
        | .entries rows => rows
        | _ => [] } := by
  obtain ⟨hpassed, hrows⟩ := emit_passed reclen s.entry call.count x
  have honce : Once x s.entry.cachedRows := by
    refine h.rows.resolve_left fun hnil => ?_
    simp [Entry.stale, hnil] at hstale
  have honce' : Once x (emitCachedDirents reclen s.entry call.count).1.cachedRows := by
    rw [hrows]
    exact honce
  have hle := passed_le (.inr honce')
  have hone : s.entry.passed x = 1 →
      (emitCachedDirents reclen s.entry call.count).1.passed x = 1 := by omega
  refine ⟨?_, .inr honce', forall_mem_set ?_ ?_⟩
  · dsimp only
    rw [hpassed, List.map_append, List.count_append, h.returned]
    split <;> rfl
  · exact fun other hmem => (h.calls other hmem).mono hone
  · intro hzero
    apply hone
    unfold Entry.passed
    rw [List.take_of_length_le (emit_value_zero hzero)]
    exact honce

end

theorem tracks_turn {s t : State} {index : Nat} {call : Call} {ok : Bool}
    (h : Tracks reclen x s) (hget : s.calls[index]? = some call) (hlists : s.Lists path x)
    (hok : call.pc.StaysPut x s ok)
    (hstep : dispatchGetdents reclen path s index ok call = some t) : Tracks reclen x t := by
  have hfacts := h.calls call (List.mem_of_getElem? hget)
  unfold dispatchGetdents at hstep
  cases hpc : call.pc with
  | entered =>
      rw [hpc] at hstep
      dsimp only at hstep
      split at hstep
      · cases hstep
        exact h.move fun hzero => by cases hzero
      · split at hstep
        · cases hstep
          exact h.move fun hzero => by cases hzero
        · cases hstep
          exact h.move trivial
  | testing generation last =>
      rw [hpc] at hstep
      cases hstep
      apply h.move
      split <;> trivial
  | collecting generation last =>
      rw [hpc] at hstep hok
      cases hstep
      obtain ⟨rows, hrows, honce⟩ := hlists
      rw [Option.mem_def] at hrows
      have hmemory : ok = true := hok
      apply h.move
      rw [if_pos hmemory, hrows]
      exact honce
  | assigning generation last rows =>
      rw [hpc] at hstep hok hfacts
      cases rows with
      | none => exact hfacts.elim
      | some rows =>
          dsimp only at hstep
          split at hstep
          · cases hstep
            exact h.move trivial
          · rename_i hstale
            split at hstep
            · cases hstep
              exact h.move fun hzero => by cases hzero
            · cases hstep
              exact h.refresh hfacts (hok (by simpa using hstale))
  | emitting generation last =>
      rw [hpc] at hstep hok
      dsimp only at hstep
      split at hstep
      · rename_i hstale
        cases hstep
        cases last with
        | true =>
            have hcurrent : s.entry.stale generation = false := hok
            rw [hstale] at hcurrent
            cases hcurrent
        | false => exact h.move trivial
      · rename_i hstale
        cases hstep
        exact h.emit (by simpa using hstale)
  | rereading generation =>
      rw [hpc] at hstep hok
      cases hstep
      have hmoved : s.generation ≠ generation := hok
      apply h.move
      rw [if_neg hmoved]
      trivial
  | returned result =>
      rw [hpc] at hstep
      cases hstep

theorem tracks_step (s : State) (action : Action) (t : State) (h : Tracks reclen x s)
    (hok : s.Lists path x ∧ StaysPut x s action) (hstep : step reclen path s action = some t) :
    Tracks reclen x t := by
  cases action with
  | change seeds | notify =>
      cases hstep
      exact ⟨h.returned, h.rows, h.calls⟩
  | getdents count dirp =>
      cases hstep
      exact ⟨h.returned, h.rows, forall_mem_push h.calls trivial⟩
  | turn index ok =>
      obtain ⟨call, hget, hmove⟩ := Option.bind_eq_some_iff.mp hstep
      exact tracks_turn h hget hok.1 (hok.2 call hget) hmove

theorem tracks_opened (seeds : Seeds) (generation : BitVec 64) (pathOnly : Bool) :
    Tracks reclen x (opened seeds generation pathOnly) where
  returned := rfl
  rows := .inl rfl
  calls := by simp [opened]

/-- An entry that stays in the directory, and that no refresh moves across the cursor, is
returned exactly once by the time a call returns zero. -/
theorem scan_returns_once {seeds : Seeds} {generation : BitVec 64} {pathOnly : Bool}
    {actions : List Action} {s : State}
    (hrun : run (step reclen path) (opened seeds generation pathOnly) actions = some s)
    (hlists : Meets (step reclen path) (fun s _ => s.Lists path x)
      (opened seeds generation pathOnly) actions)
    (hstays : Meets (step reclen path) (StaysPut x) (opened seeds generation pathOnly) actions)
    (hended : ∃ call ∈ s.calls, ∃ result, call.pc = .returned result ∧
      result.value reclen = 0) : (s.returned.map Prod.fst).count x = 1 := by
  have hinv := run_invariant_of_meets tracks_step (tracks_opened seeds generation pathOnly)
    (hlists.and hstays) hrun
  obtain ⟨call, hmem, result, hpc, hzero⟩ := hended
  have hfacts := hinv.calls call hmem
  rw [hpc] at hfacts
  rw [hinv.returned]
  exact hfacts hzero

instance (x : String) (rows : List Row) : Decidable (Once x rows) :=
  inferInstanceAs (Decidable ((rows.map Prod.fst).count x = 1))

instance (path : Path) (x : String) (s : State) : Decidable (s.Lists path x) :=
  inferInstanceAs (Decidable (∃ rows ∈ collectDirents s.snapshot path, Once x rows))

instance (x : String) (s : State) (ok : Bool) : (pc : Pc) → Decidable (pc.StaysPut x s ok)
  | .collecting _ _ => inferInstanceAs (Decidable (ok = true))
  | .assigning generation _ (some rows) =>
      inferInstanceAs (Decidable (s.entry.stale generation = true →
        (x ∈ (s.entry.cachedRows.take s.entry.readOffset).map Prod.fst ↔
          x ∈ (rows.take s.entry.readOffset).map Prod.fst)))
  | .emitting generation true => inferInstanceAs (Decidable (s.entry.stale generation = false))
  | .rereading generation => inferInstanceAs (Decidable (s.generation ≠ generation))
  | .entered | .testing _ _ | .assigning _ _ none | .emitting _ false | .returned _ =>
      .isTrue trivial

instance (x : String) (s : State) : (action : Action) → Decidable (StaysPut x s action)
  | .turn index ok =>
      inferInstanceAs (Decidable (∀ call ∈ s.calls[index]?, call.pc.StaysPut x s ok))
  | .change _ | .notify | .getdents _ _ => .isTrue trivial

def devices (names : List String) : Seeds :=
  ⟨names.mapIdx fun i name => (i, ["dev", name]), [], []⟩

/-- A call of `getdents64` from its entry to its return, with or without a refresh. -/
def call (index count : Nat) (refreshes : Bool) : List Action :=
  .getdents count true :: List.replicate (if refreshes then 5 else 3) (.turn index true)

def twoDevices : State := opened (devices ["rank1", "rank2"]) 1 false

/-- The first call has room for one device; then the devices are `names`. -/
def changedBetween (names : List String) : List Action :=
  call 0 80 true ++ [.change (devices names), .notify] ++ call 1 200 true ++ call 2 200 false

theorem scan_returns_once_changedBetween :
    ∃ s, run (step getdents64Reclen ["dev"]) twoDevices
        (changedBetween ["rank1", "rank2", "rank3"]) = some s ∧
      s.entry.cachedGeneration = 2 ∧ (s.returned.map Prod.fst).count "rank2" = 1 := by
  have hends : ∃ s, run (step getdents64Reclen ["dev"]) twoDevices
      (changedBetween ["rank1", "rank2", "rank3"]) = some s ∧ s.entry.cachedGeneration = 2 ∧
      ⟨200, true, .returned .eof⟩ ∈ s.calls := exists_run (by decide +kernel)
  obtain ⟨s, hrun, hgeneration, hended⟩ := hends
  exact ⟨s, hrun, hgeneration, scan_returns_once hrun (by decide +kernel) (by decide +kernel)
    ⟨_, hended, .eof, rfl, rfl⟩⟩

/-- A device registered before the cursor makes the one there return twice, and one removed
makes the next not return at all. -/
theorem scan_shifted :
    (¬∀ (actions : List Action) (s : State) (x : String),
      run (step getdents64Reclen ["dev"]) twoDevices actions = some s →
      Meets (step getdents64Reclen ["dev"]) (fun s _ => s.Lists ["dev"] x) twoDevices actions →
      (∃ call ∈ s.calls, ∃ result, call.pc = .returned result ∧
        result.value getdents64Reclen = 0) → (s.returned.map Prod.fst).count x = 1) ∧
    (∃ s, run (step getdents64Reclen ["dev"]) twoDevices
        (changedBetween ["rank0", "rank1", "rank2"]) = some s ∧
      (s.returned.map Prod.fst).count "rank1" = 2 ∧ ⟨200, true, .returned .eof⟩ ∈ s.calls) ∧
    ∃ s, run (step getdents64Reclen ["dev"]) twoDevices (changedBetween ["rank2"]) = some s ∧
      (s.returned.map Prod.fst).count "rank2" = 0 ∧ ⟨200, true, .returned .eof⟩ ∈ s.calls := by
  have htwice : ∃ s, run (step getdents64Reclen ["dev"]) twoDevices
      (changedBetween ["rank0", "rank1", "rank2"]) = some s ∧
      (s.returned.map Prod.fst).count "rank1" = 2 ∧ ⟨200, true, .returned .eof⟩ ∈ s.calls :=
    exists_run (by decide +kernel)
  refine ⟨fun h => ?_, htwice, exists_run (by decide +kernel)⟩
  obtain ⟨s, hrun, hcount, hended⟩ := htwice
  have honce := h _ s "rank1" hrun (by decide +kernel) ⟨_, hended, .eof, rfl, rfl⟩
  omega

end HostPimSim.Vfile.DirScan
