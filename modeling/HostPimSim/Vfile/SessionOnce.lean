import HostPimSim.Vfile.Session

/-! When a session closes exactly once: as long as no call decides to finalize a session
that another one already finalizes, no `dup` brings such a session back, and no row of the table
is left behind for a descriptor that the kernel has closed. -/
namespace HostPimSim.Vfile.Session
open Threads Transition

/-- The entries `pim_vfile_clear` has taken out of the table and will finalize. -/
def Rest.pending (i : Nat) : Rest → Nat
  | .drain detached finalized =>
      if i ∈ detached.map (·.2) ∧ i ∉ finalized then 1 else 0
  | _ => 0

/-- How often the call will still call the close callback of entry `i`. -/
def finalizes (i : Nat) : Pc → Nat
  | .setClosing entry rest | .waitIdle entry rest | .callClose entry rest =>
      (if entry = i then 1 else 0) + rest.pending i
  | .closeOwnedFd _ rest | .detached _ _ rest | .aliasTest _ rest => rest.pending i
  | .drain detached finalized => (Rest.drain detached finalized).pending i
  | _ => 0

/-- The call has taken an alias of entry `i` out of the table and has yet to look for others. -/
def tests (i : Nat) : Pc → Bool
  | .detached _ entry _ | .aliasTest entry _ => entry == i
  | _ => false

/-- The call is counted by `active_ops`. -/
def uses (i : Nat) : Pc → Bool
  | .acquired entry _ | .running entry | .release entry => entry == i
  | _ => false

/-- What a call that closes entry `i` has established. -/
def Phase (i : Nat) (e : Entry) : Pc → Prop
  | .waitIdle entry _ => entry = i → e.closing = true
  | .callClose entry _ => entry = i → e.closing = true ∧ e.activeOps = 0
  | _ => True

/-- The close callback of entry `i` has been called, or a call is on its way to it. -/
def decided (s : State) (i : Nat) (e : Entry) : Nat :=
  (s.calls.map (finalizes i)).sum + e.closes

/-- No call has decided to finalize the entry, unless it has no close callback. -/
def Undecided (s : State) (i : Nat) : Prop :=
  ∀ e ∈ s.entries[i]?, e.closeFn = true → decided s i e = 0

/-- The table has a row for the descriptor that is no longer true of the kernel. -/
def stale (s : State) (fd : Nat) : Bool :=
  (s.table.lookup fd).any fun entry => s.kernel.lookup fd != some (some entry)

/-- The `close_range` will still come to the descriptor. -/
def Rest.covers (fd : Nat) : Rest → Bool
  | .closeList _ first last => first ≤ fd && fd ≤ last
  | .sweep fds => fds.contains fd
  | _ => false

/-- What a step must not do to a session: decide to finalize it, or bind it, after another
decision to finalize it; bind a descriptor that is not its own any more; or take a descriptor
from the kernel whose row no call will look at again. -/
def ExclusiveTurn (s : State) (choice : Nat) (ok : Bool) : Pc → Prop
  | .aliasTest entry _ => hasAlias s.table entry = false → Undecided s entry
  | .rebind target (some entry) _ => ok = true ∨ target ∈ s.table →
      Undecided s entry ∧ s.kernel.lookup target = some (some entry)
  | .callClose _ rest => ok = false → ∀ fd ∈ s.table.keys, rest.covers fd = true →
      stale s fd = false
  | .sweepFd fd _ => fd ∈ s.kernel → stale s fd = false
  | .kernelClose fd => fd ∉ s.table
  | .kernelDup2 _ newfd => ok = true → newfd ∉ s.table
  | .detached fd _ rest => rest = .nothing → fd ∉ s.table
  | .drain detached _ => ∀ row ∈ detached[choice]?, row.1 ∉ s.table
  | _ => True

def Exclusive (s : State) : Action → Prop
  | .advance index choice ok => ∀ pc ∈ s.calls[index]?, ExclusiveTurn s choice ok pc
  | _ => True

structure Sound (s : State) (i : Nat) (e : Entry) : Prop where
  once : decided s i e ≤ 1
  unaliased : 0 < decided s i e → hasAlias s.table i = false
  owed : decided s i e = 0 → hasAlias s.table i = true ∨ ∃ pc ∈ s.calls, tests i pc = true
  users : s.calls.countP (uses i) = e.activeOps
  phase : ∀ pc ∈ s.calls, Phase i e pc
  closed : 0 < e.closes → e.closing = true ∧ e.activeOps = 0

@[simp] theorem finalizes_next (i : Nat) (rest : Rest) :
    finalizes i rest.next = rest.pending i := by
  cases rest with
  | closeList fds first last => cases fds <;> rfl
  | sweep fds => cases fds <;> rfl
  | _ => rfl

@[simp] theorem finalizes_failed (i : Nat) (rest : Rest) :
    finalizes i rest.failed = rest.pending i := by
  cases rest <;> rfl

@[simp] theorem pending_targetRest (i target : Nat) (close : Bool) :
    (targetRest target close).pending i = 0 := by
  cases close <;> rfl

@[simp] theorem uses_next (i : Nat) (rest : Rest) : uses i rest.next = false := by
  cases rest with
  | closeList fds first last => cases fds <;> rfl
  | sweep fds => cases fds <;> rfl
  | _ => rfl

@[simp] theorem uses_failed (i : Nat) (rest : Rest) : uses i rest.failed = false := by
  cases rest <;> rfl

theorem phase_next (i : Nat) (e : Entry) (rest : Rest) : Phase i e rest.next := by
  cases rest with
  | closeList fds first last => cases fds <;> trivial
  | sweep fds => cases fds <;> trivial
  | _ => trivial

theorem phase_failed (i : Nat) (e : Entry) (rest : Rest) : Phase i e rest.failed := by
  cases rest <;> trivial

theorem Phase.mono {i : Nat} {e e' : Entry} {pc : Pc} (h : Phase i e pc)
    (hclosing : e.closing = true → e'.closing = true)
    (hidle : e.closing = true → e.activeOps = 0 → e'.activeOps = 0) : Phase i e' pc := by
  cases pc with
  | waitIdle entry rest => exact fun hentry => hclosing (h hentry)
  | callClose entry rest =>
      intro hentry
      obtain ⟨hset, hzero⟩ := h hentry
      exact ⟨hclosing hset, hidle hset hzero⟩
  | _ => trivial

variable {s t : State} {i index : Nat} {e e' : Entry} {pc pc' : Pc}

theorem decided_move (hpc : s.calls[index]? = some pc) (hcalls : t.calls = s.calls.set index pc') :
    decided t i e' + finalizes i pc + e.closes =
      decided s i e + finalizes i pc' + e'.closes := by
  have hsum := sum_map_set_add (finalizes i) pc' hpc
  unfold decided
  rw [hcalls]
  omega

theorem finalizes_of_undecided (hnone : decided s i e = 0) (hpc : s.calls[index]? = some pc) :
    finalizes i pc = 0 := by
  have hsum : (s.calls.map (finalizes i)).sum = 0 := by
    unfold decided at hnone
    omega
  exact List.sum_eq_zero_iff_forall_eq_nat.mp hsum _
    (List.mem_map_of_mem (List.mem_iff_getElem?.mpr ⟨index, hpc⟩))

theorem Sound.keep (h : Sound s i e) (hpc : s.calls[index]? = some pc)
    (hcalls : t.calls = s.calls.set index pc')
    (huses : e'.activeOps + (if uses i pc then 1 else 0) =
      e.activeOps + (if uses i pc' then 1 else 0))
    (hclosing : e.closing = true → e'.closing = true)
    (hidle : e.closing = true → e.activeOps = 0 → e'.activeOps = 0)
    (hphase : Phase i e' pc') :
    t.calls.countP (uses i) = e'.activeOps ∧ ∀ pc ∈ t.calls, Phase i e' pc := by
  rw [hcalls]
  constructor
  · have hcount := countP_set_add (uses i) pc' hpc
    have husers := h.users
    omega
  · exact forall_mem_set (fun pc hmem => (h.phase pc hmem).mono hclosing hidle) hphase

theorem Sound.move (h : Sound s i e) (hpc : s.calls[index]? = some pc)
    (hcalls : t.calls = s.calls.set index pc')
    (hweight : finalizes i pc' + e'.closes = finalizes i pc + e.closes)
    (hgained : hasAlias t.table i = true → hasAlias s.table i = true ∨ decided s i e = 0)
    (howed : hasAlias s.table i = true ∨ tests i pc = true →
      hasAlias t.table i = true ∨ tests i pc' = true)
    (huses : e'.activeOps + (if uses i pc then 1 else 0) =
      e.activeOps + (if uses i pc' then 1 else 0))
    (hclosing : e.closing = true → e'.closing = true)
    (hidle : e.closing = true → e.activeOps = 0 → e'.activeOps = 0)
    (hphase : Phase i e' pc')
    (hclosed : 0 < e'.closes → 0 < e.closes ∨ e'.closing = true ∧ e'.activeOps = 0) :
    Sound t i e' := by
  obtain ⟨husers, hphases⟩ := h.keep hpc hcalls huses hclosing hidle hphase
  have hdecided : decided t i e' = decided s i e := by
    have hmove : decided t i e' + finalizes i pc + e.closes =
        decided s i e + finalizes i pc' + e'.closes := decided_move hpc hcalls
    omega
  refine ⟨?_, ?_, ?_, husers, hphases, ?_⟩
  · rw [hdecided]
    exact h.once
  · intro hpos
    rw [hdecided] at hpos
    by_contra halias
    rcases hgained (by simpa using halias) with hold | hzero
    · simp [h.unaliased hpos] at hold
    · omega
  · intro hzero
    rw [hdecided] at hzero
    have hsome : hasAlias s.table i = true ∨ tests i pc = true →
        hasAlias t.table i = true ∨ ∃ pc ∈ t.calls, tests i pc = true := by
      intro hold
      rcases howed hold with halias | htests
      · exact .inl halias
      · rw [hcalls]
        exact .inr ⟨pc', mem_set_moved hpc, htests⟩
    rcases h.owed hzero with halias | ⟨other, hmem, htests⟩
    · exact hsome (.inl halias)
    · rcases eq_or_mem_set pc' hpc hmem with rfl | hstill
      · exact hsome (.inr htests)
      · rw [hcalls]
        exact .inr ⟨other, hstill, htests⟩
  · intro hpos
    rcases hclosed hpos with hold | hnew
    · obtain ⟨hset, hzero⟩ := h.closed hold
      exact ⟨hclosing hset, hidle hset hzero⟩
    · exact hnew

theorem Sound.decide (h : Sound s i e) (hpc : s.calls[index]? = some pc)
    (hcalls : t.calls = s.calls.set index pc') (hnone : decided s i e = 0)
    (hweight : finalizes i pc' = 1) (halias : hasAlias t.table i = false)
    (huses : uses i pc = uses i pc') (hphase : Phase i e pc') : Sound t i e := by
  obtain ⟨husers, hphases⟩ := h.keep hpc hcalls (by rw [huses]) (fun hset => hset)
    (fun _ hzero => hzero) hphase
  have hdecided : decided t i e = 1 := by
    have hmove : decided t i e + finalizes i pc + e.closes =
        decided s i e + finalizes i pc' + e.closes := decided_move hpc hcalls
    have hbefore := finalizes_of_undecided hnone hpc
    omega
  refine ⟨by omega, fun _ => halias, by omega, husers, hphases, h.closed⟩

theorem Sound.turn (h : Sound s i e) {kernel : AList fun _ : Nat => Option Nat}
    (hpc : s.calls[index]? = some pc)
    (hweight : finalizes i pc' = finalizes i pc)
    (htests : tests i pc = true → hasAlias s.table i = true ∨ tests i pc' = true)
    (huses : uses i pc' = uses i pc) (hphase : Phase i e pc') :
    Sound { s with kernel := kernel, calls := s.calls.set index pc' } i e := by
  refine h.move hpc rfl (by rw [hweight]) .inl ?_ (by rw [huses]) (fun hset => hset)
    (fun _ hzero => hzero) hphase .inl
  rintro (halias | hbefore)
  · exact .inl halias
  · exact htests hbefore

theorem Sound.of_kernel (h : Sound s i e) (kernel : AList fun _ : Nat => Option Nat) :
    Sound { s with kernel := kernel } i e :=
  ⟨h.once, h.unaliased, h.owed, h.users, h.phase, h.closed⟩

theorem getElem?_modify_some {entries : List Entry} {j : Nat} {f : Entry → Entry}
    (h : (entries.modify j f)[i]? = some e') :
    ∃ e, entries[i]? = some e ∧ e' = if j = i then f e else e := by
  rw [List.getElem?_modify] at h
  obtain ⟨e, he, rfl⟩ := Option.map_eq_some_iff.mp h
  exact ⟨e, he, rfl⟩

def AllSound (s : State) : Prop :=
  ∀ i e, s.entries[i]? = some e → e.closeFn = true → Sound s i e

theorem allSound_turn (h : AllSound s) {kernel : AList fun _ : Nat => Option Nat}
    (hpc : s.calls[index]? = some pc)
    (hweight : ∀ i, finalizes i pc' = finalizes i pc)
    (htests : ∀ i, tests i pc = true → hasAlias s.table i = true ∨ tests i pc' = true)
    (huses : ∀ i, uses i pc' = uses i pc) (hphase : ∀ i e, Phase i e pc') :
    AllSound { s with kernel := kernel, calls := s.calls.set index pc' } := by
  intro i e he hclose
  exact (h i e he hclose).turn hpc (hweight i) (htests i) (huses i) (hphase i e)

theorem allSound_detach (h : AllSound s) {fd entry : Nat} {rest : Rest}
    (hpc : s.calls[index]? = some (.closeOwnedFd fd rest))
    (hfd : s.table.lookup fd = some entry) :
    AllSound { s with
      table := s.table.erase fd, calls := s.calls.set index (.detached fd entry rest) } := by
  intro i e he hclose
  refine (h i e he hclose).move hpc rfl rfl ?_ ?_ rfl (fun hset => hset)
    (fun _ hzero => hzero) trivial .inl
  · exact fun halias => .inl (hasAlias_of_erase halias)
  · rintro (halias | htests)
    · by_cases hi : entry = i
      · exact .inr (by simp [tests, hi])
      · exact .inl (hasAlias_erase halias (by rw [hfd]; simpa using hi))
    · cases htests

theorem allSound_aliasTest (h : AllSound s) {entry : Nat} {rest : Rest}
    (hpc : s.calls[index]? = some (.aliasTest entry rest))
    (hok : hasAlias s.table entry = false → Undecided s entry) :
    AllSound { s with
      calls := s.calls.set index
        (if hasAlias s.table entry then rest.next else .setClosing entry rest) } := by
  cases halias : hasAlias s.table entry with
  | true =>
      refine allSound_turn h hpc (fun i => finalizes_next i rest) ?_ (fun i => uses_next i rest)
        (fun i e => phase_next i e rest)
      intro i htests
      obtain rfl : entry = i := by simpa [tests] using htests
      exact .inl halias
  | false =>
      intro i e he hclose
      have hsound := h i e he hclose
      by_cases hi : entry = i
      · subst hi
        have hnone := hok halias e he hclose
        have hpending : rest.pending entry = 0 := finalizes_of_undecided hnone hpc
        refine hsound.decide hpc rfl hnone ?_ halias rfl trivial
        simp [finalizes, hpending]
      · refine hsound.turn hpc ?_ ?_ rfl trivial
        · simp [finalizes, hi]
        · intro htests
          exact absurd (by simpa [tests] using htests) hi

theorem allSound_rebind (h : AllSound s) {target entry : Nat} {close : Bool}
    (hpc : s.calls[index]? = some (.rebind target (some entry) close))
    (hok : Undecided s entry) :
    AllSound { s with
      table := s.table.insert target entry
      calls := s.calls.set index
        (replacedPc (s.table.lookup target) (some entry) (targetRest target close)) } := by
  intro i e he hclose
  have hsound := h i e he hclose
  generalize hreplaced : s.table.lookup target = replaced
  generalize hrest : targetRest target close = rest
  have hplain : finalizes i (replacedPc replaced (some entry) rest) = 0 ∧
      uses i (replacedPc replaced (some entry) rest) = false ∧
      Phase i e (replacedPc replaced (some entry) rest) := by
    unfold replacedPc
    cases replaced with
    | none => exact ⟨rfl, rfl, trivial⟩
    | some old =>
        dsimp only
        split
        · exact ⟨rfl, rfl, trivial⟩
        · exact ⟨hrest ▸ pending_targetRest i target close, rfl, trivial⟩
  obtain ⟨hweight, huses, hphase⟩ := hplain
  refine hsound.move hpc rfl (by rw [hweight]; rfl) ?_ ?_ (by rw [huses]; rfl)
    (fun hset => hset) (fun _ hzero => hzero) hphase .inl
  · intro halias
    rcases hasAlias_of_insert halias with rfl | hold
    · exact .inr (hok e he hclose)
    · exact .inl hold
  · rintro (halias | htests)
    · by_cases hi : entry = i
      · subst hi
        exact .inl hasAlias_insert_self
      · by_cases hold : replaced = some i
        · right
          subst hold
          simp [replacedPc, hi, tests]
        · exact .inl (hasAlias_insert halias (by rw [hreplaced]; exact hold))
    · cases htests

theorem allSound_unbind (h : AllSound s) {target : Nat} {close : Bool}
    (hpc : s.calls[index]? = some (.rebind target none close)) :
    AllSound { s with
      table := s.table.erase target
      calls := s.calls.set index
        (replacedPc (s.table.lookup target) none (targetRest target close)) } := by
  intro i e he hclose
  have hsound := h i e he hclose
  cases hreplaced : s.table.lookup target with
  | none =>
      refine hsound.move hpc rfl rfl ?_ ?_ rfl (fun hset => hset) (fun _ hzero => hzero)
        trivial .inl
      · exact fun halias => .inl (hasAlias_of_erase halias)
      · rintro (halias | htests)
        · exact .inl (hasAlias_erase halias (by simp [hreplaced]))
        · cases htests
  | some old =>
      refine hsound.move hpc rfl ?_ ?_ ?_ rfl (fun hset => hset) (fun _ hzero => hzero)
        trivial .inl
      · simp [replacedPc, finalizes]
      · exact fun halias => .inl (hasAlias_of_erase halias)
      · rintro (halias | htests)
        · by_cases hi : old = i
          · exact .inr (by simp [replacedPc, tests, hi])
          · exact .inl (hasAlias_erase halias (by rw [hreplaced]; simpa using hi))
        · cases htests

/-- The swap of `vsyscall_close_all_owned_fds_best_effort` decides for every session in the
table. -/
theorem allSound_clear (h : AllSound s) (hpc : s.calls[index]? = some .clear) :
    AllSound { s with
      table := ∅, calls := s.calls.set index (.drain s.table.entries []) } := by
  intro i e he hclose
  have hsound := h i e he hclose
  have hpending : (Rest.drain s.table.entries []).pending i =
      if hasAlias s.table i = true then 1 else 0 := by
    refine if_congr ?_ rfl rfl
    unfold hasAlias
    rw [List.any_eq_true, List.mem_map]
    constructor
    · rintro ⟨⟨row, hmem, hrow⟩, _⟩
      exact ⟨row, hmem, beq_iff_eq.mpr hrow⟩
    · rintro ⟨row, hmem, hrow⟩
      exact ⟨⟨row, hmem, beq_iff_eq.mp hrow⟩, List.not_mem_nil⟩
  cases halias : hasAlias s.table i with
  | true =>
      have hnone : decided s i e = 0 := by
        by_contra hsome
        simp [hsound.unaliased (Nat.pos_of_ne_zero hsome)] at halias
      exact hsound.decide hpc rfl hnone (by simp [finalizes, hpending, halias]) rfl rfl trivial
  | false =>
      refine hsound.move hpc rfl ?_ ?_ ?_ rfl (fun hset => hset) (fun _ hzero => hzero)
        trivial .inl
      · simp [finalizes, hpending, halias]
      · intro hgained
        cases hgained
      · rw [halias]
        rintro (hlost | htests)
        · cases hlost
        · cases htests

/-- Each row that `vsyscall_drain_owned_fd_batch_best_effort` comes to is finalized once for
its entry. -/
theorem pending_eraseIdx {detached : List (Σ _ : Nat, Nat)} {finalized : List Nat}
    {choice : Nat} {row : Σ _ : Nat, Nat} (hrow : detached[choice]? = some row) (i : Nat) :
    (Rest.drain detached finalized).pending i =
      if row.2 ∈ finalized then (Rest.drain (detached.eraseIdx choice) finalized).pending i
      else (if row.2 = i then 1 else 0) +
        (Rest.drain (detached.eraseIdx choice) (row.2 :: finalized)).pending i := by
  have hmem : i ∈ detached.map (·.2) ↔ row.2 = i ∨ i ∈ (detached.eraseIdx choice).map (·.2) := by
    obtain ⟨hlt, hget⟩ := List.getElem?_eq_some_iff.mp hrow
    have hsplit : detached = detached.take choice ++ row :: detached.drop (choice + 1) := by
      rw [← hget, List.getElem_cons_drop, List.take_append_drop]
    conv_lhs => rw [hsplit]
    rw [List.eraseIdx_eq_take_drop_succ]
    simp only [List.map_append, List.map_cons, List.mem_append, List.mem_cons]
    rw [or_left_comm, eq_comm]
  simp only [Rest.pending, hmem, List.mem_cons]
  obtain ⟨fd, owner⟩ := row
  dsimp only
  by_cases howner : owner = i
  · subst howner
    by_cases hfinal : owner ∈ finalized <;> simp [hfinal]
  · by_cases hfinal : owner ∈ finalized
    · rw [if_pos hfinal]
      exact if_congr (by simp [howner]) rfl rfl
    · rw [if_neg hfinal, if_neg howner, Nat.zero_add]
      exact if_congr (by simp [howner, Ne.symm howner]) rfl rfl

theorem allSound_modify (h : AllSound s) (hpc : s.calls[index]? = some pc) {entry : Nat}
    {f : Entry → Entry} (hf : ∀ e, (f e).closeFn = e.closeFn)
    (hweight : ∀ i, i ≠ entry → finalizes i pc' = finalizes i pc)
    (htests : ∀ i, i ≠ entry → tests i pc = false)
    (huses : ∀ i, i ≠ entry → uses i pc' = uses i pc)
    (hphase : ∀ i e, i ≠ entry → Phase i e pc')
    (hself : ∀ e, s.entries[entry]? = some e → e.closeFn = true → Sound s entry e →
      Sound ⟨s.kernel, s.table, s.entries.modify entry f, s.calls.set index pc'⟩ entry (f e)) :
    AllSound ⟨s.kernel, s.table, s.entries.modify entry f, s.calls.set index pc'⟩ := by
  intro i e' he' hclose
  obtain ⟨e, he, rfl⟩ := getElem?_modify_some he'
  by_cases hi : entry = i
  · subst hi
    rw [if_pos rfl] at hclose ⊢
    have hcloseFn : e.closeFn = true := by rw [← hf]; exact hclose
    exact hself e he hcloseFn (h entry e he hcloseFn)
  · rw [if_neg hi] at hclose ⊢
    have hne : i ≠ entry := fun heq => hi heq.symm
    refine (h i e he hclose).move hpc rfl (by rw [hweight i hne]) .inl ?_
      (by rw [huses i hne]) (fun hset => hset) (fun _ hzero => hzero) (hphase i e hne) .inl
    rintro (halias | hbefore)
    · exact .inl halias
    · rw [htests i hne] at hbefore
      cases hbefore

theorem allSound_advance {choice : Nat} {ok : Bool} (h : AllSound s)
    (hpc : s.calls[index]? = some pc) (hok : ExclusiveTurn s choice ok pc)
    (hstep : advance s index choice ok pc = some t) : AllSound t := by
  unfold advance at hstep
  cases pc with
  | kernelClose fd =>
      cases hstep
      exact allSound_turn h hpc (fun _ => rfl) (by simp [tests]) (fun _ => rfl)
        (fun _ _ => trivial)
  | kernelDup2 oldfd newfd =>
      dsimp only at hstep
      split at hstep
      · obtain ⟨file, _, rfl⟩ := Option.map_eq_some_iff.mp hstep
        exact allSound_turn h hpc (fun _ => rfl) (by simp [tests]) (fun _ => rfl)
          (fun _ _ => trivial)
      · cases hstep
        exact allSound_turn h hpc (fun _ => rfl) (by simp [tests]) (fun _ => rfl)
          (fun _ _ => trivial)
  | closeOwnedFd fd rest =>
      dsimp only at hstep
      split at hstep <;> cases hstep
      · exact allSound_turn h hpc (fun i => finalizes_next i rest) (by simp [tests])
          (fun i => uses_next i rest) (fun i e => phase_next i e rest)
      · rename_i hfd
        exact allSound_detach h hpc hfd
  | detached fd entry rest =>
      cases hstep
      exact allSound_turn h hpc (fun _ => rfl) (fun _ => .inr) (fun _ => rfl)
        (fun _ _ => trivial)
  | aliasTest entry rest =>
      cases hstep
      exact allSound_aliasTest h hpc hok
  | setClosing entry rest =>
      cases hstep
      refine allSound_modify h hpc (fun _ => rfl) (fun _ _ => rfl) (fun _ _ => rfl)
        (fun _ _ => rfl) (fun i e hne hentry => absurd hentry.symm hne) ?_
      intro e _ _ hsound
      exact hsound.move hpc rfl rfl .inl (by simp [tests]) rfl (fun _ => rfl)
        (fun _ hzero => hzero) (fun _ => rfl) .inl
  | waitIdle entry rest =>
      dsimp only at hstep
      split at hstep <;> cases hstep
      rename_i hidle
      intro i e he hclose
      have hsound := h i e he hclose
      refine hsound.turn hpc rfl (by simp [tests]) rfl ?_
      intro hentry
      subst hentry
      have hmem := List.mem_iff_getElem?.mpr ⟨index, hpc⟩
      refine ⟨hsound.phase _ hmem rfl, ?_⟩
      rw [show s.entries[entry]? = some e from he] at hidle
      simpa using hidle
  | callClose entry rest =>
      cases hstep
      generalize hnext : (if ok then rest.next else rest.failed) = next
      have hplain : (∀ i, finalizes i next = rest.pending i) ∧
          (∀ i, uses i next = false) ∧ ∀ i e, Phase i e next := by
        subst hnext
        cases ok
        · exact ⟨fun i => finalizes_failed i rest, fun i => uses_failed i rest,
            fun i e => phase_failed i e rest⟩
        · exact ⟨fun i => finalizes_next i rest, fun i => uses_next i rest,
            fun i e => phase_next i e rest⟩
      obtain ⟨hweight, huses, hphase⟩ := hplain
      refine allSound_modify h hpc (fun _ => rfl) ?_ (fun _ _ => rfl) (fun i _ => huses i)
        (fun i e _ => hphase i e) ?_
      · intro i hne
        rw [hweight]
        simp [finalizes, Ne.symm hne]
      · intro e he hcloseFn hsound
        have hready := hsound.phase _ (List.mem_iff_getElem?.mpr ⟨index, hpc⟩) rfl
        refine hsound.move hpc rfl ?_ .inl ?_ (by rw [huses]; rfl) (fun hset => hset)
          (fun _ hzero => hzero) (hphase entry _) (fun _ => .inr hready)
        · rw [hweight]
          simp only [finalizes, hcloseFn, if_true]
          omega
        · rintro (halias | htests)
          · exact .inl halias
          · cases htests
  | dup oldfd entry =>
      dsimp only at hstep
      split at hstep
      · split at hstep
        · cases hstep
        · obtain ⟨file, _, rfl⟩ := Option.map_eq_some_iff.mp hstep
          exact allSound_turn h hpc (fun _ => rfl) (by simp [tests]) (fun _ => rfl)
            (fun _ _ => trivial)
      · cases hstep
        exact allSound_turn h hpc (fun _ => rfl) (by simp [tests]) (fun _ => rfl)
          (fun _ _ => trivial)
  | dup2 oldfd newfd entry =>
      dsimp only at hstep
      split at hstep
      · obtain ⟨file, _, rfl⟩ := Option.map_eq_some_iff.mp hstep
        exact allSound_turn h hpc (fun _ => rfl) (by simp [tests]) (fun _ => rfl)
          (fun _ _ => trivial)
      · cases hstep
        exact allSound_turn h hpc (fun _ => rfl) (by simp [tests]) (fun _ => rfl)
          (fun _ _ => trivial)
  | rebind target entry close =>
      cases entry with
      | none =>
          cases hstep
          exact allSound_unbind h hpc
      | some entry =>
          dsimp only at hstep
          split at hstep <;> cases hstep
          · rename_i hsucceeds
            exact allSound_rebind h hpc (hok hsucceeds).1
          · refine allSound_turn h hpc (fun i => ?_) (by simp [tests]) (fun i => uses_failed i _)
              (fun i e => phase_failed i e _)
            rw [finalizes_failed, pending_targetRest]
            rfl
  | closeRange fds first last cloexec =>
      dsimp only at hstep
      split at hstep <;> cases hstep
      · exact allSound_turn h hpc (fun i => finalizes_next i _) (by simp [tests])
          (fun i => uses_next i _) (fun i e => phase_next i e _)
      · exact allSound_turn h hpc (fun _ => rfl) (by simp [tests]) (fun _ => rfl)
          (fun _ _ => trivial)
  | sweepCollect first last =>
      cases hstep
      exact allSound_turn h hpc (fun i => finalizes_next i _) (by simp [tests])
        (fun i => uses_next i _) (fun i e => phase_next i e _)
  | sweepFd fd fds =>
      cases hstep
      split
      · exact allSound_turn h hpc (fun i => finalizes_next i _) (by simp [tests])
          (fun i => uses_next i _) (fun i e => phase_next i e _)
      · exact allSound_turn h hpc (fun _ => rfl) (by simp [tests]) (fun _ => rfl)
          (fun _ _ => trivial)
  | clear =>
      dsimp only at hstep
      split at hstep <;> cases hstep
      · exact allSound_turn h hpc (fun _ => rfl) (by simp [tests]) (fun _ => rfl)
          (fun _ _ => trivial)
      · exact allSound_clear h hpc
  | drain detached finalized =>
      dsimp only at hstep
      split at hstep
      · split at hstep <;> cases hstep
        rename_i hempty
        subst hempty
        exact allSound_turn h hpc (fun _ => rfl) (by simp [tests]) (fun _ => rfl)
          (fun _ _ => trivial)
      · rename_i row hrow
        cases hstep
        split <;> rename_i hdone
        · refine allSound_turn h hpc ?_ (by simp [tests]) (fun _ => rfl) (fun _ _ => trivial)
          intro i
          simp only [finalizes]
          rw [pending_eraseIdx hrow i, if_pos hdone]
        · refine allSound_turn h hpc ?_ (by simp [tests]) (fun _ => rfl) (fun _ _ => trivial)
          intro i
          simp only [finalizes]
          rw [pending_eraseIdx hrow i, if_neg hdone]
  | acquire entry callback =>
      dsimp only at hstep
      split at hstep <;> cases hstep
      · exact allSound_turn h hpc (fun _ => rfl) (by simp [tests]) (fun _ => rfl)
          (fun _ _ => trivial)
      · rename_i hopen
        refine allSound_modify h hpc (fun _ => rfl) (fun _ _ => rfl) (fun _ _ => rfl) ?_
          (fun _ _ _ => trivial) ?_
        · intro i hne
          simp [uses, Ne.symm hne]
        · intro e he _ hsound
          have hfree : e.closing ≠ true := by simpa [he] using hopen
          refine hsound.move hpc rfl rfl .inl (by simp [tests]) (by simp [uses])
            (fun hset => hset) (fun hset => absurd hset hfree) trivial .inl
  | acquired entry callback =>
      cases hstep
      cases callback <;> exact allSound_turn h hpc (fun _ => rfl) (by simp [tests])
        (fun _ => rfl) (fun _ _ => trivial)
  | running entry =>
      cases hstep
      exact allSound_turn h hpc (fun _ => rfl) (by simp [tests]) (fun _ => rfl)
        (fun _ _ => trivial)
  | release entry =>
      cases hstep
      refine allSound_modify h hpc (fun _ => rfl) (fun _ _ => rfl) (fun _ _ => rfl) ?_
        (fun _ _ _ => trivial) ?_
      · intro i hne
        simp [uses, Ne.symm hne]
      · intro e he _ hsound
        have hmem := List.mem_iff_getElem?.mpr ⟨index, hpc⟩
        have hpos : 0 < e.activeOps := by
          rw [← hsound.users]
          exact List.countP_pos_iff.mpr ⟨_, hmem, by simp [uses]⟩
        refine hsound.move hpc rfl rfl .inl (by simp [tests]) ?_ (fun hset => hset) ?_
          trivial .inl
        · simp only [uses, beq_self_eq_true, if_true, Bool.false_eq_true, if_false]
          omega
        · intro _ hzero
          omega
  | returned => cases hstep

def Rest.mentions (i : Nat) : Rest → Bool
  | .drain detached _ => detached.any fun row => row.2 == i
  | _ => false

/-- The call holds entry `i`. -/
def mentions (i : Nat) : Pc → Bool
  | .closeOwnedFd _ rest => rest.mentions i
  | .detached _ entry rest | .aliasTest entry rest | .setClosing entry rest
  | .waitIdle entry rest | .callClose entry rest => entry == i || rest.mentions i
  | .dup _ entry | .acquire entry _ | .acquired entry _ | .running entry | .release entry =>
      entry == i
  | .dup2 _ _ entry | .rebind _ entry _ => entry == some i
  | .drain detached finalized => (Rest.drain detached finalized).mentions i
  | _ => false

structure Bounded (s : State) : Prop where
  aliased : ∀ i, hasAlias s.table i = true → i < s.entries.length
  held : ∀ pc ∈ s.calls, ∀ i, mentions i pc = true → i < s.entries.length

theorem pending_of_not_mentions {rest : Rest} (h : rest.mentions i = false) :
    rest.pending i = 0 := by
  cases rest with
  | drain detached finalized =>
      refine if_neg ?_
      rintro ⟨hmem, _⟩
      obtain ⟨row, hrow, rfl⟩ := List.mem_map.mp hmem
      have hfound : detached.any (fun other => other.2 == row.2) = true :=
        List.any_eq_true.mpr ⟨row, hrow, beq_self_eq_true _⟩
      rw [Rest.mentions, hfound] at h
      cases h
  | _ => rfl

theorem not_mentions (h : mentions i pc = false) :
    finalizes i pc = 0 ∧ tests i pc = false ∧ uses i pc = false ∧ ∀ e, Phase i e pc := by
  cases pc <;> simp only [mentions, Bool.or_eq_false_iff, beq_eq_false_iff_ne, ne_eq] at h <;>
    simp_all [finalizes, tests, uses, Phase, pending_of_not_mentions]

@[simp] theorem mentions_next (rest : Rest) : mentions i rest.next = rest.mentions i := by
  cases rest with
  | closeList fds first last => cases fds <;> rfl
  | sweep fds => cases fds <;> rfl
  | _ => rfl

@[simp] theorem mentions_failed (rest : Rest) : mentions i rest.failed = rest.mentions i := by
  cases rest <;> rfl

theorem any_of_eraseIdx {detached : List (Σ _ : Nat, Nat)} {choice : Nat}
    (h : (detached.eraseIdx choice).any (fun row => row.2 == i) = true) :
    detached.any (fun row => row.2 == i) = true := by
  obtain ⟨row, hmem, hrow⟩ := List.any_eq_true.mp h
  exact List.any_eq_true.mpr ⟨row, List.mem_of_mem_eraseIdx hmem, hrow⟩

theorem mentions_enter {call : Call} (h : mentions i (call.enter s.table) = true) :
    hasAlias s.table i = true := by
  unfold Call.enter at h
  cases call with
  | close fd =>
      dsimp only at h
      split at h <;> cases h
  | dup oldfd =>
      dsimp only at h
      split at h
      · rename_i entry hfd
        exact hasAlias_of_lookup (by rw [hfd]; simpa [mentions] using h)
      · cases h
  | dup2 oldfd newfd =>
      dsimp only at h
      split at h
      · cases h
      · split at h
        · cases h
        · exact hasAlias_of_lookup (by simpa [mentions] using h)
  | closeRange first last cloexec | clear => cases h
  | operation fd callback =>
      dsimp only at h
      split at h
      · rename_i entry hfd
        exact hasAlias_of_lookup (by rw [hfd]; simpa [mentions] using h)
      · cases h

@[simp] theorem mentions_targetRest (target : Nat) (close : Bool) :
    (targetRest target close).mentions i = false := by
  cases close <;> rfl

theorem mentions_replacedPc {replaced entry : Option Nat} {target : Nat} {close : Bool}
    (h : mentions i (replacedPc replaced entry (targetRest target close)) = true) :
    replaced = some i := by
  unfold replacedPc at h
  split at h
  · split at h
    · cases h
    · simpa [mentions] using h
  · cases h

theorem advance_mentions {choice : Nat} {ok : Bool}
    (hstep : advance s index choice ok pc = some t) :
    ∃ pc', t.calls = s.calls.set index pc' ∧ t.entries.length = s.entries.length ∧
      ∀ i, mentions i pc' = true ∨ hasAlias t.table i = true →
        mentions i pc = true ∨ hasAlias s.table i = true := by
  unfold advance at hstep
  cases pc with
  | kernelClose fd =>
      cases hstep
      refine ⟨_, rfl, rfl, fun i h => h.imp_left fun hheld => ?_⟩
      cases hheld
  | kernelDup2 oldfd newfd =>
      dsimp only at hstep
      split at hstep
      · obtain ⟨file, _, rfl⟩ := Option.map_eq_some_iff.mp hstep
        refine ⟨_, rfl, rfl, fun i h => h.imp_left fun hheld => ?_⟩
        cases hheld
      · cases hstep
        refine ⟨_, rfl, rfl, fun i h => h.imp_left fun hheld => ?_⟩
        cases hheld
  | closeOwnedFd fd rest =>
      dsimp only at hstep
      split at hstep <;> cases hstep
      · refine ⟨_, rfl, rfl, fun i h => ?_⟩
        rwa [mentions_next] at h
      · rename_i entry hfd
        refine ⟨_, rfl, rfl, ?_⟩
        rintro i (hheld | halias)
        · rcases (Bool.or_eq_true _ _).mp hheld with hentry | hrest
          · exact .inr (hasAlias_of_lookup (by rw [hfd]; simpa using hentry))
          · exact .inl hrest
        · exact .inr (hasAlias_of_erase halias)
  | detached fd entry rest | setClosing entry rest =>
      cases hstep
      exact ⟨_, rfl, by simp, fun i h => h⟩
  | aliasTest entry rest =>
      cases hstep
      refine ⟨_, rfl, rfl, fun i h => ?_⟩
      split at h
      · rw [mentions_next] at h
        exact h.imp_left fun hrest => by simp [mentions, hrest]
      · exact h
  | waitIdle entry rest =>
      dsimp only at hstep
      split at hstep <;> cases hstep
      exact ⟨_, rfl, rfl, fun i h => h⟩
  | callClose entry rest =>
      cases hstep
      refine ⟨_, rfl, by simp, fun i h => h.imp_left fun hheld => ?_⟩
      cases ok <;> simp at hheld <;> simp [mentions, hheld]
  | dup oldfd entry =>
      dsimp only at hstep
      split at hstep
      · split at hstep
        · cases hstep
        · obtain ⟨file, _, rfl⟩ := Option.map_eq_some_iff.mp hstep
          refine ⟨_, rfl, rfl, fun i h => h.imp_left fun hheld => ?_⟩
          simpa [mentions] using hheld
      · cases hstep
        refine ⟨_, rfl, rfl, fun i h => h.imp_left fun hheld => ?_⟩
        cases hheld
  | dup2 oldfd newfd entry =>
      dsimp only at hstep
      split at hstep
      · obtain ⟨file, _, rfl⟩ := Option.map_eq_some_iff.mp hstep
        exact ⟨_, rfl, rfl, fun i h => h⟩
      · cases hstep
        refine ⟨_, rfl, rfl, fun i h => h.imp_left fun hheld => ?_⟩
        cases hheld
  | rebind target entry close =>
      cases entry with
      | none =>
          cases hstep
          refine ⟨_, rfl, rfl, fun i h => .inr ?_⟩
          rcases h with hheld | halias
          · exact hasAlias_of_lookup (mentions_replacedPc hheld)
          · exact hasAlias_of_erase halias
      | some entry =>
          dsimp only at hstep
          split at hstep <;> cases hstep
          · refine ⟨_, rfl, rfl, fun i h => ?_⟩
            rcases h with hheld | halias
            · exact .inr (hasAlias_of_lookup (mentions_replacedPc hheld))
            · exact (hasAlias_of_insert halias).imp_left fun heq => by simp [mentions, heq]
          · refine ⟨_, rfl, rfl, fun i h => h.imp_left fun hheld => ?_⟩
            rw [mentions_failed, mentions_targetRest] at hheld
            cases hheld
  | closeRange fds first last cloexec =>
      dsimp only at hstep
      split at hstep <;> cases hstep
      · refine ⟨_, rfl, rfl, fun i h => h.imp_left fun hheld => ?_⟩
        rwa [mentions_next] at hheld
      · refine ⟨_, rfl, rfl, fun i h => h.imp_left fun hheld => ?_⟩
        cases hheld
  | sweepCollect first last =>
      cases hstep
      refine ⟨_, rfl, rfl, fun i h => h.imp_left fun hheld => ?_⟩
      rwa [mentions_next] at hheld
  | sweepFd fd fds =>
      cases hstep
      refine ⟨_, rfl, rfl, fun i h => h.imp_left fun hheld => ?_⟩
      split at hheld
      · rwa [mentions_next] at hheld
      · cases hheld
  | clear =>
      dsimp only at hstep
      split at hstep <;> cases hstep
      · refine ⟨_, rfl, rfl, fun i h => h.imp_left fun hheld => ?_⟩
        cases hheld
      · refine ⟨_, rfl, rfl, fun i h => .inr ?_⟩
        rcases h with hheld | halias
        · exact hheld
        · cases halias
  | drain detached finalized =>
      dsimp only at hstep
      split at hstep
      · split at hstep <;> cases hstep
        refine ⟨_, rfl, rfl, fun i h => h.imp_left fun hheld => ?_⟩
        cases hheld
      · rename_i row hrow
        cases hstep
        refine ⟨_, rfl, rfl, fun i h => h.imp_left fun hheld => ?_⟩
        split at hheld
        · exact any_of_eraseIdx hheld
        · rcases (Bool.or_eq_true _ _).mp hheld with hentry | hrest
          · exact List.any_eq_true.mpr ⟨row, List.mem_iff_getElem?.mpr ⟨choice, hrow⟩, hentry⟩
          · exact any_of_eraseIdx hrest
  | acquire entry callback =>
      dsimp only at hstep
      split at hstep <;> cases hstep
      · refine ⟨_, rfl, rfl, fun i h => h.imp_left fun hheld => ?_⟩
        cases hheld
      · exact ⟨_, rfl, by simp, fun i h => h⟩
  | acquired entry callback =>
      cases hstep
      refine ⟨_, rfl, rfl, fun i h => h.imp_left fun hheld => ?_⟩
      cases callback <;> exact hheld
  | running entry =>
      cases hstep
      exact ⟨_, rfl, rfl, fun i h => h⟩
  | release entry =>
      cases hstep
      refine ⟨_, rfl, by simp, fun i h => h.imp_left fun hheld => ?_⟩
      cases hheld
  | returned => cases hstep

theorem Bounded.mentions_lt (h : Bounded s) (hpc : s.calls[index]? = some pc)
    (hi : mentions i pc = true ∨ hasAlias s.table i = true) : i < s.entries.length := by
  rcases hi with hheld | halias
  · exact h.held pc (List.mem_iff_getElem?.mpr ⟨index, hpc⟩) i hheld
  · exact h.aliased i halias

theorem bounded_step {a : Action} (h : Bounded s) (hstep : step s a = some t) : Bounded t := by
  cases a with
  | openVdev fd closeFn =>
      dsimp only [step] at hstep
      split at hstep
      · cases hstep
      split at hstep <;> cases hstep
      · exact h
      constructor
      · intro i halias
        simp only [List.length_append, List.length_singleton]
        rcases hasAlias_of_insert halias with rfl | hold
        · omega
        · have := h.aliased i hold
          omega
      · intro pc hmem i hheld
        have := h.held pc hmem i hheld
        simp only [List.length_append, List.length_singleton]
        omega
  | kernelOpen fd =>
      dsimp only [step] at hstep
      split at hstep <;> cases hstep
      exact ⟨h.aliased, h.held⟩
  | kernelDup oldfd newfd =>
      dsimp only [step] at hstep
      split at hstep
      · cases hstep
      obtain ⟨file, _, rfl⟩ := Option.map_eq_some_iff.mp hstep
      exact ⟨h.aliased, h.held⟩
  | start call =>
      cases hstep
      refine ⟨h.aliased, forall_mem_push h.held ?_⟩
      exact fun i hheld => h.aliased i (mentions_enter hheld)
  | advance index choice ok =>
      obtain ⟨pc, hpc, hstep⟩ := Option.bind_eq_some_iff.mp hstep
      obtain ⟨pc', hcalls, hlength, hfrom⟩ := advance_mentions hstep
      constructor
      · intro i halias
        rw [hlength]
        exact h.mentions_lt hpc (hfrom i (.inr halias))
      · rw [hcalls, hlength]
        refine forall_mem_set h.held ?_
        exact fun i hheld => h.mentions_lt hpc (hfrom i (.inl hheld))

theorem sound_start (h : Sound s i e) (call : Call) :
    Sound { s with calls := s.calls ++ [call.enter s.table] } i e := by
  have hfresh : finalizes i (call.enter s.table) = 0 ∧ uses i (call.enter s.table) = false ∧
      Phase i e (call.enter s.table) := by
    unfold Call.enter
    cases call <;> dsimp only <;> (repeat' split) <;> exact ⟨rfl, rfl, trivial⟩
  obtain ⟨hweight, huses, hphase⟩ := hfresh
  have hdecided : decided { s with calls := s.calls ++ [call.enter s.table] } i e =
      decided s i e := by
    simp [decided, hweight]
  refine ⟨?_, ?_, ?_, ?_, forall_mem_push h.phase hphase, h.closed⟩
  · rw [hdecided]
    exact h.once
  · rw [hdecided]
    exact h.unaliased
  · rw [hdecided]
    intro hzero
    rcases h.owed hzero with halias | ⟨pc, hmem, htests⟩
    · exact .inl halias
    · exact .inr ⟨pc, List.mem_append_left _ hmem, htests⟩
  · simp [huses, h.users]

theorem sound_opened (h : Bounded s) {fd : Nat} {closeFn : Bool} :
    Sound ⟨s.kernel.insert fd (some s.entries.length), s.table.insert fd s.entries.length,
        s.entries ++ [⟨closeFn, false, 0, 0⟩], s.calls⟩
      s.entries.length ⟨closeFn, false, 0, 0⟩ := by
  have hnew : ∀ pc ∈ s.calls, mentions s.entries.length pc = false := by
    intro pc hmem
    by_contra hheld
    have := h.held pc hmem s.entries.length (by simpa using hheld)
    omega
  have hsum : (s.calls.map (finalizes s.entries.length)).sum = 0 := by
    rw [List.sum_eq_zero_iff_forall_eq_nat]
    intro weight hmem
    obtain ⟨pc, hpc, rfl⟩ := List.mem_map.mp hmem
    exact (not_mentions (hnew pc hpc)).1
  refine ⟨?_, ?_, fun _ => .inl hasAlias_insert_self, ?_, ?_, ?_⟩
  · simp [decided, hsum]
  · simp [decided, hsum]
  · rw [List.countP_eq_zero]
    intro pc hpc
    simp [(not_mentions (hnew pc hpc)).2.2.1]
  · exact fun pc hpc => (not_mentions (hnew pc hpc)).2.2.2 _
  · simp

theorem allSound_step {a : Action} (h : AllSound s) (hbounded : Bounded s)
    (hok : Exclusive s a) (hstep : step s a = some t) : AllSound t := by
  cases a with
  | openVdev fd closeFn =>
      dsimp only [step] at hstep
      split at hstep
      · cases hstep
      split at hstep <;> cases hstep
      · exact h
      rename_i hfree
      intro i e he hclose
      rcases getElem?_push_some he with ⟨rfl, rfl⟩ | hold
      · exact sound_opened hbounded
      · have hsound := h i e hold hclose
        have hlt := (List.getElem?_eq_some_iff.mp hold).1
        have hlookup : s.table.lookup fd ≠ some i := by
          rw [AList.lookup_eq_none.mpr hfree]
          simp
        refine ⟨hsound.once, ?_, ?_, hsound.users, hsound.phase, hsound.closed⟩
        · intro hpos
          by_contra halias
          rcases hasAlias_of_insert (by simpa using halias) with hnew | hbefore
          · omega
          · simp [hsound.unaliased hpos] at hbefore
        · intro hzero
          exact (hsound.owed hzero).imp_left fun halias => hasAlias_insert halias hlookup
  | kernelOpen fd =>
      dsimp only [step] at hstep
      split at hstep <;> cases hstep
      exact fun i e he hclose => (h i e he hclose).of_kernel _
  | kernelDup oldfd newfd =>
      dsimp only [step] at hstep
      split at hstep
      · cases hstep
      obtain ⟨file, _, rfl⟩ := Option.map_eq_some_iff.mp hstep
      exact fun i e he hclose => (h i e he hclose).of_kernel _
  | start call =>
      cases hstep
      intro i e he hclose
      exact sound_start (h i e he hclose) call
  | advance index choice ok =>
      obtain ⟨pc, hpc, hstep⟩ := Option.bind_eq_some_iff.mp hstep
      exact allSound_advance h hpc (hok pc hpc) hstep

end HostPimSim.Vfile.Session
