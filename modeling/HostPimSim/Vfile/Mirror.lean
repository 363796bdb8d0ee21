import HostPimSim.Vfile.Descriptors

/-! The owned descriptors and the kernel's: which calls keep `g_fd_table` equal to the
descriptors that are duplicates of virtual opens. -/
namespace HostPimSim.Vfile.Descriptors
open Transition

/-- A descriptor is owned if and only if it is open and a duplicate of a virtual open, and
duplicates of one open share its entry. -/
def Mirrors (s : State) : Prop :=
  (∀ fd, fd ∈ s.table ↔ ∃ entry, s.kernel.lookup fd = some (some entry)) ∧
    ∀ fd fd' entry, s.kernel.lookup fd = some (some entry) →
      s.kernel.lookup fd' = some (some entry) → s.table.lookup fd = s.table.lookup fd'

def Agree (s : State) : Prop :=
  ∀ fd, s.table.lookup fd = (s.kernel.lookup fd).join

def callbackFails (s : State) (failing : List Nat) (entry : Nat) : Bool :=
  (s.entries[entry]?).any (fun e => e.closeFn) && failing.contains entry

/-- Closing `fds` in order stops before the end: the callback of an entry all of whose
aliases are among them fails, and the last of them is no alias of it. -/
def StopsEarly (s : State) (failing fds : List Nat) : Prop :=
  ∃ entry ∈ failing, callbackFails s failing entry = true ∧ hasAlias s.table entry = true ∧
    (∀ row ∈ s.table.entries, row.2 = entry → row.1 ∈ fds) ∧
    ∃ fd ∈ fds.getLast?, s.table.lookup fd ≠ some entry

/-- The calls that keep track of what the kernel does. -/
def Tracked (s : State) : Call → Prop
  | .dup2 oldfd newfd _ succeeds bound _ =>
      succeeds = true → oldfd ≠ newfd → oldfd ∈ s.table → newfd ∉ s.table → bound = true
  | .fcntl fd (.dupfd _) newfd => fd ∈ s.table → ownedPathOnly s fd = false → newfd = none
  | .closeRange first last cloexec succeeds failing =>
      succeeds = true → cloexec = false →
        ¬StopsEarly s failing (collectOwnedFdsInRange s.table first last)
  | _ => True

theorem Agree.mirrors {s : State} (h : Agree s) : Mirrors s := by
  constructor
  · intro fd
    rw [← AList.lookup_isSome, h fd, Option.isSome_iff_exists]
    simp only [Option.join_eq_some_iff]
  · intro fd fd' entry hfd hfd'
    rw [h fd, h fd', hfd, hfd']

theorem agree_init : Agree init := fun _ => rfl

variable {s : State} {fd fd' entry : Nat} {failing fds : List Nat}

theorem Agree.mem_iff (h : Agree s) :
    fd ∈ s.table ↔ ∃ entry, s.kernel.lookup fd = some (some entry) :=
  h.mirrors.1 fd

theorem Agree.notMem (h : Agree s) (hfd : fd ∉ s.kernel) : fd ∉ s.table := by
  rw [← AList.lookup_eq_none, h fd, AList.lookup_eq_none.mpr hfd]
  rfl

theorem lookup_rebindRow {table : FdTable} {target : Nat} {entry : Option Nat} :
    (rebindRow table target entry).lookup fd =
      if fd = target then entry else table.lookup fd := by
  cases entry with
  | none => exact lookup_erase_eq table
  | some entry => exact lookup_insert_eq table entry

theorem Agree.erase (h : Agree s) (fd : Nat) :
    Agree { s with kernel := s.kernel.erase fd, table := s.table.erase fd } := by
  intro i
  simp only [lookup_erase_eq]
  split
  · rfl
  · exact h i

theorem Agree.eraseKernel (h : Agree s) (hfd : fd ∉ s.table) : Agree (kernelClose s fd) := by
  intro i
  simp only [kernelClose, lookup_erase_eq]
  split
  · rename_i heq
    rw [heq, AList.lookup_eq_none.mpr hfd]
    rfl
  · exact h i

theorem closeOwnedFd_erase (hfd : fd ∈ s.table) :
    (closeOwnedFd failing s fd).1 = { s with table := s.table.erase fd } := by
  obtain ⟨entry, hentry⟩ := Option.isSome_iff_exists.mp (AList.lookup_isSome.mpr hfd)
  simp [closeOwnedFd, hentry]

theorem agree_close {succeeds : Bool} (h : Agree s) :
    Agree (dispatchClose s fd succeeds failing).1 := by
  unfold dispatchClose
  by_cases hfd : fd ∈ s.table
  · rw [if_pos hfd]
    dsimp only [kernelClose]
    rw [closeOwnedFd_erase hfd]
    exact h.erase fd
  · rw [if_neg hfd]
    exact h.eraseKernel hfd

theorem Agree.rebind (h : Agree s) (oldfd newfd : Nat) {rebound : FdTable}
    (hrebound : ∀ i, rebound.lookup i =
      if i = newfd then s.table.lookup oldfd else s.table.lookup i) :
    Agree { kernelDup s oldfd newfd with table := rebound } := by
  intro i
  simp only [kernelDup, lookup_insert_eq, hrebound]
  split
  · exact h oldfd
  · exact h i

theorem rebind_fresh {target : Nat} {entry : Option Nat} {close bound : Bool}
    (htarget : target ∉ s.table) :
    (rebindFdAliasAfterDup s target entry close bound failing).1 =
      if entry.isSome ∧ bound = false then (if close then kernelClose s target else s)
      else { s with table := rebindRow s.table target entry } := by
  unfold rebindFdAliasAfterDup
  simp only [AList.lookup_eq_none.mpr htarget, htarget, not_false_eq_true, true_and]
  split <;> rfl

theorem agree_dup {oldfd : Nat} {newfd : Option Nat} {bound : Bool} (h : Agree s)
    (hok : permitted s (.dup oldfd newfd bound failing) = true) :
    Agree (dispatchDup s oldfd newfd bound failing).1 := by
  unfold dispatchDup
  cases newfd with
  | none => exact h
  | some newfd =>
      obtain ⟨_, hfree⟩ : oldfd ∈ s.kernel ∧ newfd ∉ s.kernel := by simpa [permitted] using hok
      have hnew : newfd ∉ s.table := h.notMem hfree
      have hlookup := AList.lookup_eq_none.mpr hnew
      cases hold : s.table.lookup oldfd with
      | none =>
          refine h.rebind oldfd newfd fun i => ?_
          split
          · rename_i heq
            rw [heq, hlookup, hold]
          · rfl
      | some entry =>
          dsimp only
          rw [rebind_fresh (s := kernelDup s oldfd newfd) hnew]
          split
          · intro i
            simp only [if_true, kernelClose, kernelDup, lookup_erase_eq, lookup_insert_eq]
            split
            · rename_i heq
              rw [heq, hlookup]
              rfl
            · exact h i
          · refine h.rebind oldfd newfd fun i => ?_
            rw [lookup_rebindRow, hold]
            rfl

/-- `dup2` leaves the target open whatever the close callback of its old entry returns. -/
theorem rebind_keeping {target : Nat} {entry : Option Nat} {bound : Bool}
    (hbound : ¬(entry.isSome ∧ target ∉ s.table ∧ bound = false)) :
    (rebindFdAliasAfterDup s target entry false bound failing).1 =
      { s with table := rebindRow s.table target entry } := by
  unfold rebindFdAliasAfterDup
  rw [if_neg hbound]
  dsimp only
  split
  · split <;> rfl
  · rfl

theorem agree_dup2 {oldfd newfd : Nat} {isDup3 succeeds bound : Bool} (h : Agree s)
    (hok : Tracked s (.dup2 oldfd newfd isDup3 succeeds bound failing)) :
    Agree (dispatchDup2 s oldfd newfd isDup3 succeeds bound failing).1 := by
  unfold dispatchDup2
  by_cases hsame : oldfd = newfd
  · rw [if_pos hsame]
    exact h
  rw [if_neg hsame]
  cases succeeds with
  | false => exact h
  | true =>
      rw [if_neg (by simp)]
      by_cases howned : oldfd ∈ s.table ∨ newfd ∈ s.table
      · rw [if_pos howned]
        have hbound : ¬((s.table.lookup oldfd).isSome ∧ newfd ∉ (kernelDup s oldfd newfd).table ∧
            bound = false) := by
          rintro ⟨hold, hnew, hfull⟩
          rw [hok rfl hsame (AList.lookup_isSome.mp hold) hnew] at hfull
          cases hfull
        rw [rebind_keeping hbound]
        exact h.rebind oldfd newfd fun i => lookup_rebindRow
      · rw [if_neg howned]
        rw [not_or] at howned
        refine h.rebind oldfd newfd fun i => ?_
        split
        · rename_i heq
          rw [heq, AList.lookup_eq_none.mpr howned.1, AList.lookup_eq_none.mpr howned.2]
        · rfl

theorem agree_openVirtual {vdev : Option Nat} {closeFn pathOnly bound truncated : Bool}
    {opened : Option Nat} (h : Agree s)
    (hok : permitted s (.openVirtual vdev closeFn pathOnly opened bound truncated) = true) :
    Agree (openVirtual s vdev closeFn pathOnly opened bound truncated).1 := by
  unfold openVirtual
  cases opened with
  | none => exact h
  | some fd =>
      have hfree : fd ∉ s.kernel := by simpa [permitted] using hok
      have hnone := AList.lookup_eq_none.mpr (h.notMem hfree)
      dsimp only
      split
      · intro i
        simp only [kernelClose, lookup_erase_eq, lookup_insert_eq]
        split
        · rename_i heq
          rw [heq, hnone]
          rfl
        · exact h i
      · split
        · intro i
          simp only [kernelClose, lookup_erase_eq, lookup_insert_eq]
          split
          · rfl
          · exact h i
        · intro i
          simp only [lookup_insert_eq]
          split
          · rfl
          · exact h i

theorem agree_openForwarded {opened : Option Nat} (h : Agree s)
    (hok : permitted s (.openForwarded opened) = true) :
    Agree (openForwarded s opened).1 := by
  unfold openForwarded
  cases opened with
  | none => exact h
  | some fd =>
      have hfree : fd ∉ s.kernel := by simpa [permitted] using hok
      have hnone := AList.lookup_eq_none.mpr (h.notMem hfree)
      intro i
      simp only [lookup_insert_eq]
      split
      · rename_i heq
        rw [heq, hnone]
        rfl
      · exact h i

/-- A descriptor that `fcntl` duplicates is not bound. -/
theorem agree_fcntl {cmd : FcntlCmd} {newfd : Option Nat} (h : Agree s)
    (hpermitted : permitted s (.fcntl fd cmd newfd) = true)
    (hok : Tracked s (.fcntl fd cmd newfd)) : Agree (dispatchFcntl s fd cmd newfd).1 := by
  unfold dispatchFcntl
  split
  · exact h
  · cases cmd with
    | dupfd minimum =>
        cases newfd with
        | none => exact h
        | some newfd =>
            rename_i hallowed
            have hpath : ownedPathOnly s fd = false := by
              simpa [FcntlCmd.allowedForPathOnly] using hallowed
            have hforeign : fd ∉ s.table := by
              intro hfd
              cases hok hfd hpath
            obtain ⟨_, hfree, _⟩ : fd ∈ s.kernel ∧ newfd ∉ s.kernel ∧ minimum ≤ newfd := by
              simpa [permitted] using hpermitted
            refine h.rebind fd newfd fun i => ?_
            split
            · rename_i heq
              rw [heq, AList.lookup_eq_none.mpr hforeign,
                AList.lookup_eq_none.mpr (h.notMem hfree)]
            · rfl
    | _ => exact h

theorem stopsEarly_iff :
    StopsEarly s failing fds ↔ ∃ entry, callbackFails s failing entry = true ∧
      hasAlias s.table entry = true ∧ (∀ fd, s.table.lookup fd = some entry → fd ∈ fds) ∧
      ∃ fd ∈ fds.getLast?, s.table.lookup fd ≠ some entry := by
  constructor
  · rintro ⟨entry, _, hfails, halias, hall, hlast⟩
    refine ⟨entry, hfails, halias, fun fd hfd => ?_, hlast⟩
    exact hall ⟨fd, entry⟩ (AList.mem_lookup_iff.mp hfd) rfl
  · rintro ⟨entry, hfails, halias, hall, hlast⟩
    have hmem : entry ∈ failing := by
      simp only [callbackFails, Bool.and_eq_true, List.contains_iff_mem] at hfails
      exact hfails.2
    refine ⟨entry, hmem, hfails, halias, ?_, hlast⟩
    rintro ⟨fd, bound⟩ hrow rfl
    exact hall fd (AList.mem_lookup_iff.mpr hrow)

theorem finalizeFails_eq : finalizeFails s failing entry =
    (!hasAlias s.table entry && callbackFails s failing entry) :=
  Bool.and_assoc _ _ _

theorem not_stopsEarly_single (hentry : s.table.lookup fd = some entry) :
    ¬StopsEarly s failing [fd] := by
  rw [stopsEarly_iff]
  rintro ⟨other, _, halias, hall, last, hlast, hne⟩
  obtain ⟨i, hi⟩ := hasAlias_iff.mp halias
  have heq : i = fd := by simpa using hall i hi
  obtain rfl : last = fd := by simpa [eq_comm] using hlast
  exact hne (heq ▸ hi)

theorem stopsEarly_of_fails (hnodup : (fd :: fds).Nodup) (hmore : fds ≠ [])
    (hentry : s.table.lookup fd = some entry)
    (hfails : finalizeFails { s with table := s.table.erase fd } failing entry = true) :
    StopsEarly s failing (fd :: fds) := by
  rw [stopsEarly_iff]
  rw [finalizeFails_eq, Bool.and_eq_true, Bool.not_eq_true'] at hfails
  obtain ⟨hnone, hcallback⟩ := hfails
  have honly : ∀ i, s.table.lookup i = some entry → i = fd := by
    intro i hi
    by_contra hne
    refine hasAlias_eq_false_iff.mp hnone i ?_
    rw [AList.lookup_erase_ne hne, hi]
  refine ⟨entry, hcallback, hasAlias_of_lookup hentry, fun i hi => by simp [honly i hi], ?_⟩
  obtain ⟨last, hlast⟩ : ∃ last, fds.getLast? = some last :=
    ⟨_, List.getLast?_eq_some_getLast hmore⟩
  refine ⟨last, by rw [List.getLast?_cons, hlast]; rfl, fun hsame => ?_⟩
  have hmem : fd ∈ fds := honly last hsame ▸ List.mem_of_getLast? hlast
  exact (List.nodup_cons.mp hnodup).1 hmem

theorem stopsEarly_cons (hnodup : (fd :: fds).Nodup)
    (hentry : s.table.lookup fd = some entry)
    (hok : finalizeFails { s with table := s.table.erase fd } failing entry = false) :
    StopsEarly { s with table := s.table.erase fd } failing fds ↔
      StopsEarly s failing (fd :: fds) := by
  obtain ⟨hfd, _⟩ := List.nodup_cons.mp hnodup
  cases hfds : fds with
  | nil =>
      refine iff_of_false ?_ (not_stopsEarly_single hentry)
      rw [stopsEarly_iff]
      rintro ⟨_, _, _, _, _, hlast, _⟩
      cases hlast
  | cons next rest =>
      rw [← hfds]
      obtain ⟨last, hlast⟩ : ∃ last, fds.getLast? = some last :=
        ⟨_, List.getLast?_eq_some_getLast (by simp [hfds])⟩
      have hconsLast : (fd :: fds).getLast? = some last := by
        rw [List.getLast?_cons, hlast]
        rfl
      have hlastNe : last ≠ fd := by
        rintro rfl
        exact hfd (List.mem_of_getLast? hlast)
      rw [stopsEarly_iff, stopsEarly_iff, hconsLast, hlast]
      constructor
      · rintro ⟨other, hfails, halias, hall, i, hi, hne⟩
        obtain rfl := Option.some.inj hi
        refine ⟨other, hfails, hasAlias_of_erase halias, fun j hj => ?_, last, rfl, ?_⟩
        · by_cases hji : j = fd
          · simp [hji]
          · exact List.mem_cons_of_mem fd (hall j (by rw [AList.lookup_erase_ne hji, hj]))
        · rwa [AList.lookup_erase_ne hlastNe] at hne
      · rintro ⟨other, hfails, halias, hall, i, hi, hne⟩
        obtain rfl := Option.some.inj hi
        refine ⟨other, hfails, ?_, fun j hj => ?_, last, rfl, ?_⟩
        · by_cases hother : s.table.lookup fd = some other
          · obtain rfl : entry = other := Option.some.inj (hentry.symm.trans hother)
            have hsame : callbackFails { s with table := s.table.erase fd } failing entry = true :=
              hfails
            rw [finalizeFails_eq, hsame] at hok
            simpa using hok
          · exact hasAlias_erase halias hother
        · have hji : j ≠ fd := by
            rintro rfl
            simp at hj
          rw [AList.lookup_erase_ne hji] at hj
          exact (List.mem_cons.mp (hall j hj)).resolve_left hji
        · rwa [AList.lookup_erase_ne hlastNe]

theorem attempt_closeOwnedFd_frame (s : State) (failing fds : List Nat) :
    (attempt (closeOwnedFd failing) s fds).1 =
      { s with table := (attempt (closeOwnedFd failing) s fds).1.table } ∧
    ∀ i, i ∉ fds → (attempt (closeOwnedFd failing) s fds).1.table.lookup i =
      s.table.lookup i := by
  induction fds generalizing s with
  | nil => exact ⟨rfl, fun _ _ => rfl⟩
  | cons fd fds ih =>
      have hturn : (closeOwnedFd failing s fd).1 =
          { s with table := (closeOwnedFd failing s fd).1.table } ∧
          ∀ i, i ≠ fd → (closeOwnedFd failing s fd).1.table.lookup i = s.table.lookup i := by
        unfold closeOwnedFd
        split
        · exact ⟨rfl, fun _ _ => rfl⟩
        · exact ⟨rfl, fun i hi => AList.lookup_erase_ne hi⟩
      rw [attempt]
      split
      · obtain ⟨hrest, hlookup⟩ := ih (closeOwnedFd failing s fd).1
        constructor
        · rw [hrest, hturn.1]
        · intro i hi
          rw [List.mem_cons, not_or] at hi
          rw [hlookup i hi.2, hturn.2 i hi.1]
      · refine ⟨hturn.1, fun i hi => hturn.2 i ?_⟩
        rw [List.mem_cons, not_or] at hi
        exact hi.1

theorem attempt_closeOwnedFd (failing : List Nat) {fds : List Nat} (hnodup : fds.Nodup)
    (howned : ∀ fd ∈ fds, fd ∈ s.table) :
    ((attempt (closeOwnedFd failing) s fds).2 = true →
      ∀ i ∈ fds, i ∉ (attempt (closeOwnedFd failing) s fds).1.table) ∧
    ((∃ i ∈ fds, i ∈ (attempt (closeOwnedFd failing) s fds).1.table) ↔
      StopsEarly s failing fds) := by
  induction fds generalizing s with
  | nil =>
      refine ⟨by simp, iff_of_false (by simp) ?_⟩
      rw [stopsEarly_iff]
      rintro ⟨_, _, _, _, _, hlast, _⟩
      cases hlast
  | cons fd fds ih =>
      obtain ⟨hfd, hrest⟩ := List.nodup_cons.mp hnodup
      obtain ⟨entry, hentry⟩ :=
        Option.isSome_iff_exists.mp (AList.lookup_isSome.mpr (howned fd List.mem_cons_self))
      have hturn : closeOwnedFd failing s fd =
          ({ s with table := s.table.erase fd },
            !finalizeFails { s with table := s.table.erase fd } failing entry) := by
        simp [closeOwnedFd, hentry]
      have hstill : ∀ i ∈ fds, i ∈ s.table.erase fd := by
        intro i hi
        refine AList.mem_erase.mpr ⟨?_, howned i (List.mem_cons_of_mem fd hi)⟩
        rintro rfl
        exact hfd hi
      rw [attempt, hturn]
      cases hfails : finalizeFails { s with table := s.table.erase fd } failing entry with
      | true =>
          dsimp only
          rw [Bool.not_true, if_neg (by simp)]
          refine ⟨by simp, ?_⟩
          by_cases hmore : fds = []
          · subst hmore
            refine iff_of_false ?_ (not_stopsEarly_single hentry)
            rintro ⟨i, hi, hmem⟩
            obtain rfl : i = fd := by simpa using hi
            exact (AList.mem_erase.mp hmem).1 rfl
          · refine iff_of_true ?_ (stopsEarly_of_fails hnodup hmore hentry hfails)
            obtain ⟨i, hi⟩ := List.exists_mem_of_ne_nil fds hmore
            exact ⟨i, List.mem_cons_of_mem fd hi, hstill i hi⟩
      | false =>
          dsimp only
          rw [Bool.not_false, if_pos rfl, ← stopsEarly_cons hnodup hentry hfails]
          obtain ⟨hdone, hiff⟩ := ih (s := { s with table := s.table.erase fd }) hrest hstill
          have hgone : fd ∉ (attempt (closeOwnedFd failing)
              { s with table := s.table.erase fd } fds).1.table := by
            rw [← AList.lookup_eq_none, (attempt_closeOwnedFd_frame _ failing fds).2 fd hfd]
            exact AList.lookup_erase fd s.table
          constructor
          · intro hall i hi
            rcases List.mem_cons.mp hi with rfl | hmem
            · exact hgone
            · exact hdone hall i hmem
          · rw [← hiff]
            constructor
            · rintro ⟨i, hi, hmem⟩
              rcases List.mem_cons.mp hi with rfl | hother
              · exact absurd hmem hgone
              · exact ⟨i, hother, hmem⟩
            · rintro ⟨i, hi, hmem⟩
              exact ⟨i, List.mem_cons_of_mem fd hi, hmem⟩

theorem lookup_kernelCloseRange {first last : Nat} :
    (kernelCloseRange s first last).kernel.lookup fd =
      if first ≤ fd ∧ fd ≤ last then none else s.kernel.lookup fd := by
  rw [kernelCloseRange, lookup_foldl_erase]
  by_cases hrange : first ≤ fd ∧ fd ≤ last
  · rw [if_pos hrange]
    split
    · rfl
    · rename_i hkey
      refine AList.lookup_eq_none.mpr fun hmem => hkey ?_
      simp [AList.mem_keys.mp hmem, hrange]
  · rw [if_neg hrange, if_neg]
    simp only [List.mem_filter, Bool.and_eq_true, decide_eq_true_eq]
    exact fun hmem => hrange hmem.2

theorem collectOwnedFdsInRange_nodup (table : FdTable) (first last : Nat) :
    (collectOwnedFdsInRange table first last).Nodup := by
  unfold collectOwnedFdsInRange
  rw [List.Perm.nodup_iff (List.perm_insertionSort _ _)]
  exact table.keys_nodup.filter _

/-- The state a `close_range` leaves: that of the first loop, after which the sweep finds
nothing to do. -/
theorem finalizeCloseRangeAliases_eq {first last : Nat} :
    (finalizeCloseRangeAliases s first last (collectOwnedFdsInRange s.table first last)
      failing).1 =
      (attempt (closeOwnedFd failing) s (collectOwnedFdsInRange s.table first last)).1 := by
  have hclosing := attempt_closeOwnedFd (s := s) failing
    (collectOwnedFdsInRange_nodup s.table first last)
    (fun fd hfd => (mem_collectOwnedFdsInRange.mp hfd).1)
  have hframe := attempt_closeOwnedFd_frame s failing
    (collectOwnedFdsInRange s.table first last)
  unfold finalizeCloseRangeAliases
  dsimp only
  split
  · rename_i hdone
    have hnone : collectOwnedFdsInRange (attempt (closeOwnedFd failing) s
        (collectOwnedFdsInRange s.table first last)).1.table first last = [] := by
      rw [List.eq_nil_iff_forall_not_mem]
      intro fd hfd
      obtain ⟨hmem, hrange⟩ := mem_collectOwnedFdsInRange.mp hfd
      by_cases howned : fd ∈ collectOwnedFdsInRange s.table first last
      · exact hclosing.1 hdone fd howned hmem
      · rw [← AList.lookup_isSome, hframe.2 fd howned, AList.lookup_isSome] at hmem
        exact howned (mem_collectOwnedFdsInRange.mpr ⟨hmem, hrange⟩)
    rw [hnone]
    rfl
  · rfl

theorem agree_closeRange {first last : Nat} (h : Agree s)
    (hok : ¬StopsEarly s failing (collectOwnedFdsInRange s.table first last)) :
    Agree (attempt (closeOwnedFd failing) (kernelCloseRange s first last)
      (collectOwnedFdsInRange s.table first last)).1 := by
  have hclosing := (attempt_closeOwnedFd (s := kernelCloseRange s first last) failing
    (collectOwnedFdsInRange_nodup s.table first last)
    (fun fd hfd => (mem_collectOwnedFdsInRange.mp hfd).1)).2
  obtain ⟨hframe, hlookup⟩ := attempt_closeOwnedFd_frame
    (kernelCloseRange s first last) failing (collectOwnedFdsInRange s.table first last)
  intro fd
  rw [hframe]
  dsimp only
  rw [lookup_kernelCloseRange]
  by_cases howned : fd ∈ collectOwnedFdsInRange s.table first last
  · rw [if_pos (mem_collectOwnedFdsInRange.mp howned).2]
    refine AList.lookup_eq_none.mpr fun hmem => hok ?_
    exact hclosing.mp ⟨fd, howned, hmem⟩
  · rw [hlookup fd howned]
    split
    · rename_i hrange
      exact AList.lookup_eq_none.mpr fun hmem =>
        howned (mem_collectOwnedFdsInRange.mpr ⟨hmem, hrange⟩)
    · exact h fd

theorem not_mirrors_closeRange {first last : Nat}
    (hstops : StopsEarly s failing (collectOwnedFdsInRange s.table first last)) :
    ¬Mirrors (attempt (closeOwnedFd failing) (kernelCloseRange s first last)
      (collectOwnedFdsInRange s.table first last)).1 := by
  have hclosing := (attempt_closeOwnedFd (s := kernelCloseRange s first last) failing
    (collectOwnedFdsInRange_nodup s.table first last)
    (fun fd hfd => (mem_collectOwnedFdsInRange.mp hfd).1)).2
  have hframe := (attempt_closeOwnedFd_frame
    (kernelCloseRange s first last) failing (collectOwnedFdsInRange s.table first last)).1
  obtain ⟨fd, howned, hmem⟩ := hclosing.mpr hstops
  intro hmirrors
  obtain ⟨entry, hentry⟩ := (hmirrors.1 fd).mp hmem
  rw [hframe] at hentry
  dsimp only at hentry
  rw [lookup_kernelCloseRange, if_pos (mem_collectOwnedFdsInRange.mp howned).2] at hentry
  cases hentry

theorem agree_step {t : State} {call : Call} (h : Agree s) (hok : Tracked s call)
    (hstep : step s call = some t) : Agree t := by
  unfold step at hstep
  split at hstep <;> cases hstep
  rename_i hpermitted
  cases call with
  | openVirtual vdev closeFn pathOnly fd bound truncated =>
      exact agree_openVirtual h hpermitted
  | openForwarded fd => exact agree_openForwarded h hpermitted
  | close fd succeeds failing => exact agree_close h
  | dup oldfd newfd bound failing => exact agree_dup h hpermitted
  | dup2 oldfd newfd isDup3 succeeds bound failing => exact agree_dup2 h hok
  | fcntl fd cmd newfd => exact agree_fcntl h hpermitted hok
  | closeRange first last cloexec succeeds failing =>
      dsimp only [dispatch, dispatchCloseRange]
      cases succeeds with
      | false => exact h
      | true =>
          cases cloexec with
          | true => exact h
          | false =>
              have hclosed := agree_closeRange h (hok rfl rfl)
              exact (finalizeCloseRangeAliases_eq (s := kernelCloseRange s first last)) ▸ hclosed

theorem not_mirrors_kernelDup {oldfd newfd : Nat} (h : Agree s) (hold : oldfd ∈ s.table)
    (hnew : newfd ∉ s.table) : ¬Mirrors (kernelDup s oldfd newfd) := by
  intro hmirrors
  obtain ⟨entry, hentry⟩ := h.mem_iff.mp hold
  refine hnew ((hmirrors.1 newfd).mpr ⟨entry, ?_⟩)
  rw [kernelDup, AList.lookup_insert, hentry]
  rfl

/-- A call that loses track leaves a descriptor on one side only. -/
theorem tracked_of_mirrors {t : State} {call : Call} (h : Agree s)
    (hstep : step s call = some t) (hmirrors : Mirrors t) : Tracked s call := by
  unfold step at hstep
  split at hstep <;> cases hstep
  rename_i hpermitted
  cases call with
  | dup2 oldfd newfd isDup3 succeeds bound failing =>
      intro hsucceeds hne hold hnew
      by_contra hfull
      refine not_mirrors_kernelDup h hold hnew ?_
      have hleft : (dispatchDup2 s oldfd newfd isDup3 succeeds bound failing).1 =
          kernelDup s oldfd newfd := by
        rw [hsucceeds, dispatchDup2, if_neg hne, if_neg (by simp), if_pos (.inl hold),
          rebind_fresh (s := kernelDup s oldfd newfd) hnew,
          if_pos ⟨AList.lookup_isSome.mpr hold, by simpa using hfull⟩]
        rfl
      exact hleft ▸ hmirrors
  | fcntl fd cmd newfd =>
      cases cmd with
      | dupfd minimum =>
          intro hfd hpath
          cases newfd with
          | none => rfl
          | some newfd =>
              obtain ⟨_, hfree, _⟩ : fd ∈ s.kernel ∧ newfd ∉ s.kernel ∧ minimum ≤ newfd := by
                simpa [permitted] using hpermitted
              refine absurd ?_ (not_mirrors_kernelDup h hfd (h.notMem hfree))
              simpa [dispatch, dispatchFcntl, hpath] using hmirrors
      | _ => trivial
  | closeRange first last cloexec succeeds failing =>
      intro hsucceeds hcloexec hstops
      subst hsucceeds hcloexec
      refine not_mirrors_closeRange hstops ?_
      exact (finalizeCloseRangeAliases_eq (s := kernelCloseRange s first last)) ▸ hmirrors
  | _ => trivial

/-- In every state a run reaches the tables mirror each other if and only if every call of
the run keeps track. -/
theorem mirrors_iff_tracked {calls : List Call} {t : State}
    (hrun : run step init calls = some t) :
    Meets step (fun s call => ∀ u, step s call = some u → Mirrors u) init calls ↔
      Meets step Tracked init calls := by
  apply meets_iff Agree ?_ ?_ agree_init hrun
  · intro s call u h hstep
    constructor
    · intro hmirrors
      exact tracked_of_mirrors h hstep (hmirrors u hstep)
    · intro hok v hv
      exact (agree_step h hok hv).mirrors
  · intro s call u h hmirrors hstep
    exact agree_step h (tracked_of_mirrors h hstep (hmirrors u hstep)) hstep

instance (s : State) (failing fds : List Nat) : Decidable (StopsEarly s failing fds) :=
  inferInstanceAs (Decidable (∃ entry ∈ failing, callbackFails s failing entry = true ∧
    hasAlias s.table entry = true ∧ (∀ row ∈ s.table.entries, row.2 = entry → row.1 ∈ fds) ∧
    ∃ fd ∈ fds.getLast?, s.table.lookup fd ≠ some entry))

instance (s : State) : ∀ call, Decidable (Tracked s call)
  | .dup2 oldfd newfd _ succeeds bound _ =>
      inferInstanceAs (Decidable (succeeds = true → oldfd ≠ newfd → oldfd ∈ s.table →
        newfd ∉ s.table → bound = true))
  | .fcntl fd (.dupfd _) newfd =>
      inferInstanceAs (Decidable (fd ∈ s.table → ownedPathOnly s fd = false → newfd = none))
  | .closeRange first last cloexec succeeds failing =>
      inferInstanceAs (Decidable (succeeds = true → cloexec = false →
        ¬StopsEarly s failing (collectOwnedFdsInRange s.table first last)))
  | .fcntl _ .getfl _ | .fcntl _ .setfl _ | .fcntl _ .getfd _ | .fcntl _ .setfd _
  | .fcntl _ .other _ | .openVirtual _ _ _ _ _ _ | .openForwarded _ | .close _ _ _
  | .dup _ _ _ _ => isTrue trivial

theorem mirrors_iff_tracked_closeRange :
    Meets step (fun s call => ∀ u, step s call = some u → Mirrors u) init
      [.openVirtual (some 0) true false (some 3) true true, .openForwarded (some 4),
        .dup 3 (some 5) true [], .dup2 3 4 false true true [], .fcntl 4 (.dupfd 0) none,
        .openVirtual (some 0) true false (some 6) true true, .close 3 true [],
        .dup2 6 9 true true true [1], .closeRange 4 9 false true [1]] := by
  have hrun : ∃ t, run step init
      [.openVirtual (some 0) true false (some 3) true true, .openForwarded (some 4),
        .dup 3 (some 5) true [], .dup2 3 4 false true true [], .fcntl 4 (.dupfd 0) none,
        .openVirtual (some 0) true false (some 6) true true, .close 3 true [],
        .dup2 6 9 true true true [1], .closeRange 4 9 false true [1]] = some t ∧
      t.table.entries = [] := exists_run (by decide +kernel)
  obtain ⟨t, hrun, _⟩ := hrun
  exact (mirrors_iff_tracked hrun).mpr (by decide +kernel)

/-- `F_DUPFD` of an owned descriptor. -/
theorem dupfd_not_mirrored :
    ¬∀ calls t, run step init calls = some t → Mirrors t := by
  intro h
  have hrun : ∃ t, run step init [.openVirtual (some 0) true false (some 3) true true,
      .fcntl 3 (.dupfd 0) (some 4)] = some t ∧
      t.kernel.lookup 4 = some (some 0) ∧ 4 ∉ t.table := exists_run (by decide +kernel)
  obtain ⟨t, hrun, hopen, hnot⟩ := hrun
  exact hnot (((h _ t hrun).1 4).mpr ⟨0, hopen⟩)

end HostPimSim.Vfile.Descriptors
