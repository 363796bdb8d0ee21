import HostPimSim.Vfile.SessionOnce

/-! The rows of the table against the kernel's descriptors while sessions are closed, and with
them when a session whose descriptors are all closed has been closed itself. -/
namespace HostPimSim.Vfile.Session
open Threads Transition

/-- The call will still look at the row of the descriptor. -/
def covers (fd : Nat) : Pc → Bool
  | .closeOwnedFd owned rest => owned == fd || rest.covers fd
  | .detached _ _ rest | .aliasTest _ rest | .setClosing _ rest | .waitIdle _ rest
  | .callClose _ rest => rest.covers fd
  | .rebind target _ _ => target == fd
  | .sweepCollect first last => first ≤ fd && fd ≤ last
  | .sweepFd owned fds => owned == fd || fds.contains fd
  | _ => false

def Current (s : State) : Prop :=
  ∀ fd entry, s.table.lookup fd = some entry →
    s.kernel.lookup fd = some (some entry) ∨ ∃ pc ∈ s.calls, covers fd pc = true

theorem covers_next {fd : Nat} {rest : Rest} (h : rest.covers fd = true) :
    covers fd rest.next = true := by
  cases rest with
  | closeList fds first last =>
      cases fds with
      | nil => exact h
      | cons head fds =>
          have hrange : (decide (first ≤ fd) && decide (fd ≤ last)) = true := h
          simp only [Rest.next, covers, Rest.covers, hrange, Bool.or_true]
  | sweep fds =>
      cases fds with
      | nil => cases h
      | cons head fds =>
          rw [Rest.covers, List.contains_cons, Bool.beq_comm] at h
          exact h
  | _ => cases h

theorem lookup_kernelCloseRange {kernel : AList fun _ : Nat => Option Nat} {first last fd : Nat}
    (h : ¬(first ≤ fd ∧ fd ≤ last)) :
    (kernelCloseRange kernel first last).lookup fd = kernel.lookup fd := by
  rw [kernelCloseRange, lookup_foldl_erase, if_neg]
  intro hmem
  simp only [List.mem_filter, Bool.and_eq_true, decide_eq_true_eq] at hmem
  exact h hmem.2

variable {s t : State} {index : Nat} {pc pc' : Pc}

theorem stale_eq_false {fd entry : Nat} (h : stale s fd = false)
    (hrow : s.table.lookup fd = some entry) : s.kernel.lookup fd = some (some entry) := by
  simpa [stale, hrow] using h

theorem stale_of_not_mem {fd : Nat} (h : fd ∉ s.table) : stale s fd = false := by
  simp [stale, AList.lookup_eq_none.mpr h]

theorem mem_of_lookup {β : Type} {rows : AList fun _ : Nat => β} {fd : Nat} {row : β}
    (h : rows.lookup fd = some row) : fd ∈ rows :=
  AList.lookup_isSome.mp (Option.isSome_of_eq_some h)

theorem Current.move (h : Current s) (hpc : s.calls[index]? = some pc)
    (hcalls : t.calls = s.calls.set index pc')
    (hrow : ∀ fd entry, t.table.lookup fd = some entry →
      t.kernel.lookup fd = some (some entry) ∨ covers fd pc' = true ∨
        s.table.lookup fd = some entry ∧ covers fd pc = false ∧
          (s.kernel.lookup fd = some (some entry) → t.kernel.lookup fd = some (some entry))) :
    Current t := by
  intro fd entry hfd
  rw [hcalls]
  rcases hrow fd entry hfd with htrue | hcovers | ⟨hold, hnot, hkernel⟩
  · exact .inl htrue
  · exact .inr ⟨pc', mem_set_moved hpc, hcovers⟩
  · rcases h fd entry hold with htrue | ⟨other, hmem, hother⟩
    · exact .inl (hkernel htrue)
    · rcases eq_or_mem_set pc' hpc hmem with rfl | hstill
      · rw [hnot] at hother
        cases hother
      · exact .inr ⟨other, hstill, hother⟩

theorem Current.turn (h : Current s) (hpc : s.calls[index]? = some pc)
    (hcalls : t.calls = s.calls.set index pc') (htable : t.table = s.table)
    (hkernel : t.kernel = s.kernel)
    (hcovers : ∀ fd, covers fd pc = true → covers fd pc' = true ∨ stale s fd = false) :
    Current t := by
  apply h.move hpc hcalls
  intro fd entry hfd
  rw [htable] at hfd
  rw [hkernel]
  cases hbefore : covers fd pc with
  | false => exact .inr (.inr ⟨hfd, rfl, id⟩)
  | true =>
      rcases hcovers fd hbefore with hafter | hfresh
      · exact .inr (.inl hafter)
      · exact .inl (stale_eq_false hfresh hfd)

theorem Current.close (h : Current s) (hpc : s.calls[index]? = some pc) {closed : Nat}
    (hcalls : t.calls = s.calls.set index pc') (htable : t.table = s.table)
    (hkernel : t.kernel = s.kernel.erase closed) (hclosed : closed ∉ s.table)
    (hcovers : ∀ fd, covers fd pc = true → covers fd pc' = true) : Current t := by
  apply h.move hpc hcalls
  intro fd entry hfd
  rw [htable] at hfd
  have hne : fd ≠ closed := by
    rintro rfl
    exact hclosed (mem_of_lookup hfd)
  rw [hkernel, lookup_erase_eq, if_neg hne]
  cases hbefore : covers fd pc with
  | false => exact .inr (.inr ⟨hfd, rfl, id⟩)
  | true => exact .inr (.inl (hcovers fd hbefore))

theorem Current.duplicate (h : Current s) (hpc : s.calls[index]? = some pc) {target : Nat}
    {file : Option Nat} (hcalls : t.calls = s.calls.set index pc') (htable : t.table = s.table)
    (hkernel : t.kernel = s.kernel.insert target file)
    (htarget : target ∈ s.table → target ∈ s.kernel → covers target pc' = true)
    (hcovers : ∀ fd, covers fd pc = false) : Current t := by
  apply h.move hpc hcalls
  intro fd entry hfd
  rw [htable] at hfd
  by_cases hfresh : fd = target
  · subst hfresh
    by_cases hopen : fd ∈ s.kernel
    · exact .inr (.inl (htarget (mem_of_lookup hfd) hopen))
    · refine .inr (.inr ⟨hfd, hcovers fd, fun htrue => ?_⟩)
      rw [AList.lookup_eq_none.mpr hopen] at htrue
      cases htrue
  · refine .inr (.inr ⟨hfd, hcovers fd, fun htrue => ?_⟩)
    rwa [hkernel, lookup_insert_eq, if_neg hfresh]

theorem current_advance {choice : Nat} {ok : Bool} (h : Current s)
    (hpc : s.calls[index]? = some pc) (hok : ExclusiveTurn s choice ok pc)
    (hstep : advance s index choice ok pc = some t) : Current t := by
  unfold advance at hstep
  cases pc with
  | kernelClose fd =>
      cases hstep
      exact h.close hpc rfl rfl rfl hok (by simp [covers])
  | kernelDup2 oldfd newfd =>
      dsimp only at hstep
      split at hstep
      · rename_i hsucceeds
        obtain ⟨file, _, rfl⟩ := Option.map_eq_some_iff.mp hstep
        exact h.duplicate hpc rfl rfl rfl (fun hrow => absurd hrow (hok hsucceeds)) fun _ => rfl
      · cases hstep
        exact h.turn hpc rfl rfl rfl (by simp [covers])
  | closeOwnedFd fd rest =>
      dsimp only at hstep
      split at hstep <;> cases hstep
      · rename_i hnone
        refine h.turn hpc rfl rfl rfl fun i hcovers => ?_
        rcases (Bool.or_eq_true _ _).mp hcovers with hself | hrest
        · obtain rfl : fd = i := by simpa using hself
          exact .inr (by simp [stale, hnone])
        · exact .inl (covers_next hrest)
      · refine h.move hpc rfl fun i entry hi => ?_
        rw [lookup_erase_eq] at hi
        split at hi
        · cases hi
        · rename_i hne
          cases hrest : rest.covers i with
          | true => exact .inr (.inl hrest)
          | false => exact .inr (.inr ⟨hi, by simp [covers, hrest, Ne.symm hne], id⟩)
  | detached fd entry rest =>
      cases hstep
      by_cases hrest : rest = .nothing
      · exact h.close hpc rfl rfl (by simp [hrest]) (hok hrest) fun _ hcovers => hcovers
      · exact h.turn hpc rfl rfl (by simp [hrest]) fun _ => .inl
  | aliasTest entry rest =>
      cases hstep
      refine h.turn hpc rfl rfl rfl fun fd hcovers => ?_
      split
      · exact .inl (covers_next hcovers)
      · exact .inl hcovers
  | setClosing entry rest =>
      cases hstep
      exact h.turn hpc rfl rfl rfl fun _ => .inl
  | waitIdle entry rest =>
      dsimp only at hstep
      split at hstep <;> cases hstep
      exact h.turn hpc rfl rfl rfl fun _ => .inl
  | callClose entry rest =>
      cases hstep
      refine h.turn hpc rfl rfl rfl fun fd hcovers => ?_
      cases ok with
      | true => exact .inl (covers_next hcovers)
      | false =>
          by_cases hrow : fd ∈ s.table
          · exact .inr (hok rfl fd (AList.mem_keys.mpr hrow) hcovers)
          · exact .inr (stale_of_not_mem hrow)
  | dup oldfd entry =>
      dsimp only at hstep
      split at hstep
      · split at hstep
        · cases hstep
        · obtain ⟨file, _, rfl⟩ := Option.map_eq_some_iff.mp hstep
          exact h.duplicate hpc rfl rfl rfl (fun _ _ => by simp [covers]) fun _ => rfl
      · cases hstep
        exact h.turn hpc rfl rfl rfl (by simp [covers])
  | dup2 oldfd newfd entry =>
      dsimp only at hstep
      split at hstep
      · obtain ⟨file, _, rfl⟩ := Option.map_eq_some_iff.mp hstep
        exact h.duplicate hpc rfl rfl rfl (fun _ _ => by simp [covers]) fun _ => rfl
      · cases hstep
        exact h.turn hpc rfl rfl rfl (by simp [covers])
  | rebind target entry close =>
      cases entry with
      | none =>
          cases hstep
          refine h.move hpc rfl fun fd entry hfd => ?_
          rw [lookup_erase_eq] at hfd
          split at hfd
          · cases hfd
          · rename_i hne
            exact .inr (.inr ⟨hfd, by simpa [covers] using Ne.symm hne, id⟩)
      | some bound =>
          dsimp only at hstep
          split at hstep <;> cases hstep
          · rename_i hbinds
            refine h.move hpc rfl fun fd entry hfd => ?_
            rw [lookup_insert_eq] at hfd
            split at hfd
            · rename_i heq
              cases hfd
              subst heq
              exact .inl (hok hbinds).2
            · rename_i hne
              exact .inr (.inr ⟨hfd, by simpa [covers] using Ne.symm hne, id⟩)
          · rename_i hfails
            refine h.turn hpc rfl rfl rfl fun fd hcovers => ?_
            obtain rfl : target = fd := by simpa [covers] using hcovers
            exact .inr (stale_of_not_mem fun hrow => hfails (.inr hrow))
  | closeRange fds first last cloexec =>
      dsimp only at hstep
      split at hstep <;> cases hstep
      · refine h.move hpc rfl fun fd entry hfd => ?_
        by_cases hrange : first ≤ fd ∧ fd ≤ last
        · exact .inr (.inl (covers_next (by simpa [Rest.covers] using hrange)))
        · refine .inr (.inr ⟨hfd, rfl, fun htrue => ?_⟩)
          rwa [lookup_kernelCloseRange hrange]
      · exact h.turn hpc rfl rfl rfl (by simp [covers])
  | sweepCollect first last =>
      cases hstep
      refine h.turn hpc rfl rfl rfl fun fd hcovers => ?_
      have hrange : first ≤ fd ∧ fd ≤ last := by simpa [covers] using hcovers
      by_cases hrow : fd ∈ s.table
      · apply Or.inl (covers_next _)
        simpa [Rest.covers] using mem_collectOwnedFdsInRange.mpr ⟨hrow, hrange⟩
      · exact .inr (stale_of_not_mem hrow)
  | sweepFd fd fds =>
      cases hstep
      refine h.turn hpc rfl rfl rfl fun i hcovers => ?_
      have hdue : i = fd ∨ fds.contains i = true := by
        rcases (Bool.or_eq_true _ _).mp hcovers with hself | hrest
        · exact .inl (by simpa using Eq.symm (by simpa using hself))
        · exact .inr hrest
      split
      · rename_i hopen
        rcases hdue with rfl | hrest
        · exact .inr (hok hopen)
        · exact .inl (covers_next hrest)
      · rcases hdue with rfl | hrest
        · exact .inl (by simp [covers])
        · refine .inl ((Bool.or_eq_true _ _).mpr (.inr hrest))
  | clear =>
      dsimp only at hstep
      split at hstep <;> cases hstep
      · exact h.turn hpc rfl rfl rfl (by simp [covers])
      · intro fd entry hfd
        cases hfd
  | drain detached finalized =>
      dsimp only at hstep
      split at hstep
      · split at hstep <;> cases hstep
        exact h.turn hpc rfl rfl rfl (by simp [covers])
      · rename_i row hrow
        cases hstep
        exact h.close hpc rfl rfl rfl (hok row hrow) (by simp [covers])
  | acquire entry callback =>
      dsimp only at hstep
      split at hstep <;> cases hstep
      · exact h.turn hpc rfl rfl rfl (by simp [covers])
      · exact h.turn hpc rfl rfl rfl (by simp [covers])
  | acquired entry callback =>
      cases hstep
      exact h.turn hpc rfl rfl rfl (by simp [covers])
  | running entry =>
      cases hstep
      exact h.turn hpc rfl rfl rfl (by simp [covers])
  | release entry =>
      cases hstep
      exact h.turn hpc rfl rfl rfl (by simp [covers])
  | returned => cases hstep

theorem Current.opened (h : Current s) {fd : Nat} (file : Option Nat) (hfree : fd ∉ s.kernel) :
    Current { s with kernel := s.kernel.insert fd file } := by
  intro i entry hi
  refine (h i entry hi).imp_left fun htrue => ?_
  have hne : i ≠ fd := by
    rintro rfl
    exact hfree (mem_of_lookup htrue)
  rwa [lookup_insert_eq, if_neg hne]

theorem current_step {a : Action} (h : Current s) (hok : Exclusive s a)
    (hstep : step s a = some t) : Current t := by
  cases a with
  | openVdev fd closeFn =>
      dsimp only [step] at hstep
      split at hstep
      · cases hstep
      rename_i hfree
      split at hstep <;> cases hstep
      · exact h
      intro i entry hi
      rw [lookup_insert_eq] at hi ⊢
      split at hi
      · rename_i heq
        cases hi
        exact .inl (if_pos heq)
      · rename_i hne
        rw [if_neg hne]
        exact h i entry hi
  | kernelOpen fd =>
      dsimp only [step] at hstep
      split at hstep <;> cases hstep
      rename_i hfree
      exact h.opened none hfree
  | kernelDup oldfd newfd =>
      dsimp only [step] at hstep
      split at hstep
      · cases hstep
      rename_i hfree
      obtain ⟨file, _, rfl⟩ := Option.map_eq_some_iff.mp hstep
      exact h.opened file hfree
  | start call =>
      cases hstep
      intro fd entry hfd
      refine (h fd entry hfd).imp_right ?_
      rintro ⟨pc, hmem, hcovers⟩
      exact ⟨pc, List.mem_append_left _ hmem, hcovers⟩
  | advance index choice ok =>
      obtain ⟨pc, hpc, hstep⟩ := Option.bind_eq_some_iff.mp hstep
      exact current_advance h hpc (hok pc hpc) hstep

/-- What closing a session exactly once means in a state. -/
structure ClosesOnce (s : State) (i : Nat) (e : Entry) : Prop where
  atMostOnce : e.closes ≤ 1
  unshared : ∀ rest, .callClose i rest ∈ s.calls →
    hasAlias s.table i = false ∧ .running i ∉ s.calls
  silent : 0 < e.closes → .running i ∉ s.calls
  complete : (∀ pc ∈ s.calls, pc = .returned) →
    hasAlias s.table i = false ∨ (∀ fd, s.kernel.lookup fd ≠ some (some i)) → e.closes = 1

theorem Current.hasAlias_of_returned (h : Current s) (hreturned : ∀ pc ∈ s.calls, pc = .returned)
    {i : Nat} (hclosed : ∀ fd, s.kernel.lookup fd ≠ some (some i)) :
    hasAlias s.table i = false := by
  rw [hasAlias_eq_false_iff]
  intro fd hfd
  rcases h fd i hfd with htrue | ⟨pc, hmem, hcovers⟩
  · exact hclosed fd htrue
  · rw [hreturned pc hmem] at hcovers
    cases hcovers

theorem Sound.closesOnce {i : Nat} {e : Entry} (h : Sound s i e) (hcurrent : Current s) :
    ClosesOnce s i e := by
  have hidle : e.activeOps = 0 → .running i ∉ s.calls := by
    intro hzero hmem
    have hcount := h.users
    rw [hzero, List.countP_eq_zero] at hcount
    exact hcount _ hmem (by simp [uses])
  refine ⟨?_, ?_, fun hpos => hidle (h.closed hpos).2, ?_⟩
  · have := h.once
    unfold decided at this
    omega
  · intro rest hmem
    refine ⟨h.unaliased ?_, hidle (h.phase _ hmem rfl).2⟩
    by_contra hnone
    obtain ⟨index, hindex⟩ := List.mem_iff_getElem?.mp hmem
    have := finalizes_of_undecided (Nat.eq_zero_of_not_pos hnone) hindex
    simp [finalizes] at this
  · intro hreturned hnone
    have halias : hasAlias s.table i = false :=
      hnone.elim id (hcurrent.hasAlias_of_returned hreturned)
    have hsum : (s.calls.map (finalizes i)).sum = 0 := by
      rw [List.sum_eq_zero_iff_forall_eq_nat]
      intro weight hmem
      obtain ⟨pc, hpc, rfl⟩ := List.mem_map.mp hmem
      rw [hreturned pc hpc]
      rfl
    have honce := h.once
    have howed := h.owed
    unfold decided at honce howed
    by_contra hcloses
    rcases howed (by omega) with hsome | ⟨pc, hmem, htests⟩
    · simp [halias] at hsome
    · rw [hreturned pc hmem] at htests
      cases htests

/-- In every run in which no decision to finalize a session is taken twice or undone by a
`dup`, and no closed descriptor keeps its row, each session with a close callback closes exactly
once. -/
theorem session_closes_once {actions : List Action} {t : State}
    (hrun : run step init actions = some t) (hmeets : Meets step Exclusive init actions)
    {i : Nat} {e : Entry} (hentry : t.entries[i]? = some e) (hclose : e.closeFn = true) :
    ClosesOnce t i e := by
  have hinv : (AllSound t ∧ Bounded t) ∧ Current t := by
    have hstep : ∀ s a u, (AllSound s ∧ Bounded s) ∧ Current s → Exclusive s a →
        step s a = some u → (AllSound u ∧ Bounded u) ∧ Current u := by
      rintro s a u ⟨⟨hsound, hbounded⟩, hcurrent⟩ hok hstep
      exact ⟨⟨allSound_step hsound hbounded hok hstep, bounded_step hbounded hstep⟩,
        current_step hcurrent hok hstep⟩
    refine run_invariant_of_meets hstep ⟨⟨?_, ?_, ?_⟩, ?_⟩ hmeets hrun
    · intro i e he
      simp [init] at he
    · intro i halias
      cases halias
    · simp [init]
    · intro fd entry hfd
      cases hfd
  exact (hinv.1.1 i e hentry hclose).closesOnce hinv.2

instance (s : State) (i : Nat) : Decidable (Undecided s i) :=
  inferInstanceAs (Decidable (∀ e ∈ s.entries[i]?, e.closeFn = true → decided s i e = 0))

instance (s : State) (choice : Nat) (ok : Bool) : ∀ pc, Decidable (ExclusiveTurn s choice ok pc)
  | .aliasTest entry _ =>
      inferInstanceAs (Decidable (hasAlias s.table entry = false → Undecided s entry))
  | .rebind target (some entry) _ =>
      inferInstanceAs (Decidable (ok = true ∨ target ∈ s.table →
        Undecided s entry ∧ s.kernel.lookup target = some (some entry)))
  | .callClose _ rest =>
      inferInstanceAs (Decidable (ok = false → ∀ fd ∈ s.table.keys, rest.covers fd = true →
        stale s fd = false))
  | .sweepFd fd _ => inferInstanceAs (Decidable (fd ∈ s.kernel → stale s fd = false))
  | .kernelClose fd => inferInstanceAs (Decidable (fd ∉ s.table))
  | .kernelDup2 _ newfd => inferInstanceAs (Decidable (ok = true → newfd ∉ s.table))
  | .detached fd _ rest => inferInstanceAs (Decidable (rest = .nothing → fd ∉ s.table))
  | .drain detached _ => inferInstanceAs (Decidable (∀ row ∈ detached[choice]?, row.1 ∉ s.table))
  | .rebind _ none _ | .closeOwnedFd _ _ | .setClosing _ _ | .waitIdle _ _ | .dup _ _
  | .dup2 _ _ _ | .closeRange _ _ _ _ | .sweepCollect _ _ | .clear | .acquire _ _ | .acquired _ _
  | .running _ | .release _ | .returned => isTrue trivial

instance (s : State) : ∀ a, Decidable (Exclusive s a)
  | .advance index choice ok =>
      inferInstanceAs (Decidable (∀ pc ∈ s.calls[index]?, ExclusiveTurn s choice ok pc))
  | .openVdev _ _ | .kernelOpen _ | .kernelDup _ _ | .start _ => isTrue trivial

/-- A `close_range` over two sessions: the close callback of the first one fails, and the second
one is never closed. -/
example : ∃ t, run step init
    [.openVdev 3 true, .openVdev 4 true, .start (.closeRange 3 9 false), .advance 0 0 true,
      .advance 0 0 true, .advance 0 0 true, .advance 0 0 true, .advance 0 0 true,
      .advance 0 0 true, .advance 0 0 false] = some t ∧
    t.calls = [.returned] ∧ t.kernel.keys = [] ∧ t.entries.map Entry.closes = [1, 0] :=
  exists_run (by decide +kernel)

theorem session_closes_once_closeRange :
    ∃ t e, run step init
      [.openVdev 3 true, .start (.operation 3 true), .advance 0 0 true, .advance 0 0 true,
        .start (.dup 3), .advance 1 4 true, .advance 1 0 true, .start (.closeRange 3 9 false),
        .advance 2 0 true, .advance 2 0 true, .advance 2 0 true, .advance 2 0 true,
        .advance 2 0 true, .advance 2 0 true, .advance 2 0 true, .advance 2 0 true,
        .advance 0 0 true, .advance 0 0 true, .advance 2 0 true, .advance 2 0 true,
        .advance 2 0 true] = some t ∧ t.entries[0]? = some e ∧ e.closes = 1 ∧
      ClosesOnce t 0 e := by
  have hrun : ∃ t, run step init
      [.openVdev 3 true, .start (.operation 3 true), .advance 0 0 true, .advance 0 0 true,
        .start (.dup 3), .advance 1 4 true, .advance 1 0 true, .start (.closeRange 3 9 false),
        .advance 2 0 true, .advance 2 0 true, .advance 2 0 true, .advance 2 0 true,
        .advance 2 0 true, .advance 2 0 true, .advance 2 0 true, .advance 2 0 true,
        .advance 0 0 true, .advance 0 0 true, .advance 2 0 true, .advance 2 0 true,
        .advance 2 0 true] = some t ∧ t.entries[0]? = some ⟨true, true, 0, 1⟩ :=
    exists_run (by decide +kernel)
  obtain ⟨t, hrun, hentry⟩ := hrun
  exact ⟨t, _, hrun, hentry, rfl, session_closes_once hrun (by decide +kernel) hentry rfl⟩

/-- Two closes of the last two aliases: both detach, then both find no alias left. -/
theorem session_closed_twice :
    ¬∀ actions t i e, run step init actions = some t → t.entries[i]? = some e →
      e.closeFn = true → ClosesOnce t i e := by
  intro h
  have hrun : ∃ t, run step init
      [.openVdev 3 true, .start (.dup 3), .advance 0 4 true, .advance 0 0 true,
        .start (.close 3), .start (.close 4), .advance 1 0 true, .advance 2 0 true,
        .advance 1 0 true, .advance 2 0 true, .advance 1 0 true, .advance 2 0 true,
        .advance 1 0 true, .advance 1 0 true, .advance 1 0 true, .advance 2 0 true,
        .advance 2 0 true, .advance 2 0 true] = some t ∧
      t.entries[0]? = some ⟨true, true, 0, 2⟩ := exists_run (by decide +kernel)
  obtain ⟨t, hrun, hentry⟩ := hrun
  have honce := (h _ t 0 _ hrun hentry rfl).atMostOnce
  simp at honce

end HostPimSim.Vfile.Session
