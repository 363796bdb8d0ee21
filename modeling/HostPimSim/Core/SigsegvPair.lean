import HostPimSim.Core.Sigsegv

/-! The pair that the callback thread hands to the handler, against the stores
that were intercepted. -/
namespace HostPimSim.Core.Sigsegv
open Threads Transition

def State.intercepted (s : State) : List Intercept := s.handlers.map (·.intercept)

def CallbackPc.betweenLoads : CallbackPc → Bool
  | .offsetLoaded _ => true
  | _ => false

/-- When an access to the payload cannot mix two stores.  An offset store that
changes the word needs every other publication complete and the callback not
between its two loads; the callback starts to load only once the value has
followed the offset. -/
def Separated (s : State) : Action → Prop
  | .handler index => ∀ handler ∈ s.handlers[index]?, handler.pc = .admitted →
      s.offset = handler.intercept.offset ∨
        ((∀ other ∈ s.handlers, other.pc ≠ .offsetStored) ∧
          s.callback.betweenLoads = false)
  | .callback => s.callback = .hasWork → s.whole = true
  | .fault _ | .disable => True

instance (s : State) : ∀ action, Decidable (Separated s action)
  | .handler index =>
      inferInstanceAs (Decidable (∀ handler ∈ s.handlers[index]?, handler.pc = .admitted →
        s.offset = handler.intercept.offset ∨
          ((∀ other ∈ s.handlers, other.pc ≠ .offsetStored) ∧
            s.callback.betweenLoads = false)))
  | .callback => inferInstanceAs (Decidable (s.callback = .hasWork → s.whole = true))
  | .fault _ | .disable => isTrue trivial

def LoadFacts (s : State) : Prop :=
  match s.callback with
  | .offsetLoaded offset => s.whole = true ∧ offset = s.offset
  | .pairLoaded pair | .reset pair => pair ∈ s.intercepted
  | .waiting | .blocking | .asleep | .signalled | .hasWork | .exited => True

structure Paired (s : State) : Prop where
  open_ : ∀ handler ∈ s.handlers, handler.pc = .offsetStored →
    handler.intercept.offset = s.offset
  mailbox : s.whole = true → ⟨s.offset, s.value⟩ ∈ s.intercepted
  loads : LoadFacts s
  calls : ∀ pair, .dispatched pair ∈ s.log → pair ∈ s.intercepted

theorem map_intercept_set {handlers : List Handler} {index : Nat} {handler : Handler}
    (h : handlers[index]? = some handler) (pc : HandlerPc) :
    (handlers.set index { handler with pc := pc }).map (·.intercept) =
      handlers.map (·.intercept) := by
  obtain ⟨hlength, hget⟩ := List.getElem?_eq_some_iff.mp h
  rw [List.map_set]
  apply List.ext_getElem (by simp)
  intro i hi hi'
  by_cases hindex : index = i
  · subst hindex
    simp [hget]
  · simp [hindex]

theorem paired_init : Paired init where
  open_ := by simp [init]
  mailbox := by simp [init]
  loads := trivial
  calls := by simp [init]

theorem loadFacts_wake {s t : State} (h : LoadFacts s)
    (hcallback : t.callback = s.callback.wake) (hwhole : t.whole = s.whole)
    (hoffset : t.offset = s.offset) (hintercepted : t.intercepted = s.intercepted) :
    LoadFacts t := by
  unfold LoadFacts at h ⊢
  rw [hcallback, hwhole, hoffset, hintercepted]
  cases hpc : s.callback <;> rw [hpc] at h <;> exact h

theorem Paired.of_move {s t : State} {index : Nat} {handler : Handler} {pc : HandlerPc}
    (h : Paired s) (hhandler : s.handlers[index]? = some handler)
    (hpc : pc ≠ .offsetStored)
    (hhandlers : t.handlers = s.handlers.set index { handler with pc := pc })
    (hpayload : t.offset = s.offset ∧ t.value = s.value ∧ t.whole = s.whole)
    (hcallback : t.callback = s.callback ∨ t.callback = s.callback.wake)
    (hlog : ∀ pair, .dispatched pair ∈ t.log → .dispatched pair ∈ s.log) : Paired t := by
  obtain ⟨hoffset, hvalue, hwhole⟩ := hpayload
  have hintercepted : t.intercepted = s.intercepted := by
    rw [State.intercepted, hhandlers, map_intercept_set hhandler]
    rfl
  refine ⟨?_, ?_, ?_, ?_⟩
  · rw [hhandlers, hoffset]
    exact forall_mem_set h.open_ fun hopen => absurd hopen hpc
  · rw [hwhole, hoffset, hvalue, hintercepted]
    exact h.mailbox
  · rcases hcallback with hkept | hwoken
    · have hloads := h.loads
      unfold LoadFacts at hloads ⊢
      rwa [hkept, hwhole, hoffset, hintercepted]
    · exact loadFacts_wake h.loads hwoken hwhole hoffset hintercepted
  · intro pair hpair
    rw [hintercepted]
    exact h.calls pair (hlog pair hpair)

theorem paired_offset_store {s : State} {index : Nat} {handler : Handler} (h : Paired s)
    (hhandler : s.handlers[index]? = some handler)
    (hok : s.offset = handler.intercept.offset ∨
      ((∀ other ∈ s.handlers, other.pc ≠ .offsetStored) ∧
        s.callback.betweenLoads = false)) :
    Paired { s with
      offset := handler.intercept.offset
      whole := s.whole && s.offset == handler.intercept.offset
      handlers := s.handlers.set index { handler with pc := .offsetStored } } := by
  have hintercepted := map_intercept_set hhandler .offsetStored
  refine ⟨?_, ?_, ?_, ?_⟩
  · refine forall_mem_set ?_ fun _ => rfl
    intro other hother hopen
    rcases hok with hsame | ⟨hnone, _⟩
    · rw [h.open_ other hother hopen, hsame]
    · exact absurd hopen (hnone other hother)
  · intro hwhole
    simp only [Bool.and_eq_true, beq_iff_eq] at hwhole
    simp only [State.intercepted, hintercepted, ← hwhole.2]
    exact h.mailbox hwhole.1
  · have hloads := h.loads
    unfold LoadFacts at hloads ⊢
    cases hpc : s.callback with
    | offsetLoaded offset =>
        simp only [hpc] at hloads
        rcases hok with hsame | ⟨_, hbetween⟩
        · simpa [hsame] using hloads
        · simp [hpc, CallbackPc.betweenLoads] at hbetween
    | pairLoaded pair | reset pair =>
        simp only [hpc, State.intercepted, hintercepted] at hloads ⊢
        exact hloads
    | _ => trivial
  · simpa only [State.intercepted, hintercepted] using h.calls

theorem paired_value_store {s : State} {index : Nat} {handler : Handler} (h : Paired s)
    (hhandler : s.handlers[index]? = some handler) (hpc : handler.pc = .offsetStored) :
    Paired { s with
      value := handler.intercept.value
      whole := true
      handlers := s.handlers.set index { handler with pc := .valueStored } } := by
  have hintercepted := map_intercept_set hhandler .valueStored
  have hmem : handler ∈ s.handlers := List.mem_iff_getElem?.mpr ⟨index, hhandler⟩
  refine ⟨?_, ?_, ?_, ?_⟩
  · exact forall_mem_set h.open_ fun hopen => by cases hopen
  · intro _
    simp only [State.intercepted, hintercepted, ← h.open_ handler hmem hpc]
    exact List.mem_map_of_mem hmem
  · have hloads := h.loads
    unfold LoadFacts at hloads ⊢
    cases hcallback : s.callback with
    | offsetLoaded offset =>
        simp only [hcallback] at hloads
        exact ⟨rfl, hloads.2⟩
    | pairLoaded pair | reset pair =>
        simp only [hcallback, State.intercepted, hintercepted] at hloads ⊢
        exact hloads
    | _ => trivial
  · simpa only [State.intercepted, hintercepted] using h.calls

theorem paired_handler {s t : State} {index : Nat} {handler : Handler} (h : Paired s)
    (hhandler : s.handlers[index]? = some handler)
    (hok : Separated s (.handler index)) (hstep : handlerStep s index handler = some t) :
    Paired t := by
  have hok := hok handler hhandler
  unfold handlerStep at hstep
  cases hpc : handler.pc with
  | admitted =>
      simp only [hpc, Option.some.injEq] at hstep
      subst hstep
      exact paired_offset_store h hhandler (hok hpc)
  | offsetStored =>
      simp only [hpc, Option.some.injEq] at hstep
      subst hstep
      exact paired_value_store h hhandler hpc
  | snapshot | refused | woken =>
      simp only [hpc, Option.some.injEq] at hstep
      subst hstep
      exact h.of_move hhandler (by decide) rfl ⟨rfl, rfl, rfl⟩ (.inl rfl) fun _ => id
  | guarded =>
      simp only [hpc] at hstep
      split at hstep <;> cases hstep <;>
        exact h.of_move hhandler (by decide) rfl ⟨rfl, rfl, rfl⟩ (.inl rfl) fun _ => id
  | valueStored =>
      simp only [hpc, Option.some.injEq] at hstep
      subst hstep
      exact h.of_move hhandler (by decide) rfl ⟨rfl, rfl, rfl⟩ (.inl rfl) (by simp)
  | workStored =>
      simp only [hpc, Option.some.injEq] at hstep
      subst hstep
      exact h.of_move hhandler (by decide) rfl ⟨rfl, rfl, rfl⟩ (.inr rfl) fun _ => id
  | released => simp [hpc] at hstep

theorem paired_callback {s t : State} (h : Paired s) (hok : Separated s .callback)
    (hstep : callbackStep s = some t) : Paired t := by
  have hloads := h.loads
  unfold LoadFacts at hloads
  unfold callbackStep at hstep
  cases hpc : s.callback with
  | waiting | blocking | signalled =>
      simp only [hpc, Option.some.injEq] at hstep
      subst hstep
      refine ⟨h.open_, h.mailbox, ?_, h.calls⟩
      unfold LoadFacts
      cases hword : s.futexWord <;> exact True.intro
  | hasWork =>
      simp only [hpc, Option.some.injEq] at hstep
      subst hstep
      exact ⟨h.open_, h.mailbox, ⟨hok hpc, rfl⟩, h.calls⟩
  | offsetLoaded offset =>
      simp only [hpc, Option.some.injEq] at hstep hloads
      subst hstep
      refine ⟨h.open_, h.mailbox, ?_, h.calls⟩
      rw [hloads.2]
      exact h.mailbox hloads.1
  | pairLoaded pair =>
      simp only [hpc, Option.some.injEq] at hstep hloads
      subst hstep
      exact ⟨h.open_, h.mailbox, hloads, h.calls⟩
  | reset pair =>
      simp only [hpc, Option.some.injEq] at hstep hloads
      subst hstep
      refine ⟨h.open_, h.mailbox, trivial, ?_⟩
      intro called hcalled
      rcases List.mem_append.mp hcalled with hearlier | hnow
      · exact h.calls called hearlier
      · cases List.mem_singleton.mp hnow
        exact hloads
  | asleep | exited => simp [hpc] at hstep

theorem paired_step (s : State) (action : Action) (t : State) (h : Paired s)
    (hok : Separated s action) (hstep : step s action = some t) : Paired t := by
  cases action with
  | fault intercept =>
      simp only [step] at hstep
      split at hstep <;> cases hstep
      have hgrow : ∀ pair, pair ∈ s.intercepted →
          pair ∈ (s.handlers ++ [(⟨intercept, .snapshot⟩ : Handler)]).map Handler.intercept := by
        intro pair hpair
        rw [List.map_append]
        exact List.mem_append_left _ hpair
      refine ⟨?_, fun hwhole => hgrow _ (h.mailbox hwhole), ?_,
        fun pair hpair => hgrow pair (h.calls pair hpair)⟩
      · refine forall_mem_push h.open_ ?_
        intro hopen
        cases hopen
      have hloads := h.loads
      unfold LoadFacts at hloads ⊢
      cases hpc : s.callback with
      | offsetLoaded offset =>
          simp only [hpc] at hloads
          exact hloads
      | pairLoaded pair | reset pair =>
          simp only [hpc] at hloads
          exact hgrow pair hloads
      | _ => trivial
  | handler index =>
      obtain ⟨handler, hhandler, hmove⟩ := Option.bind_eq_some_iff.mp hstep
      exact paired_handler h hhandler hok hmove
  | callback => exact paired_callback h hok hstep
  | disable =>
      simp only [step, disableStep] at hstep
      cases hpc : s.disable with
      | idle | disarmed | quiescent =>
          simp only [hpc, Option.some.injEq] at hstep
          subst hstep
          exact ⟨h.open_, h.mailbox, h.loads, h.calls⟩
      | exitStored =>
          simp only [hpc, Option.some.injEq] at hstep
          subst hstep
          exact ⟨h.open_, h.mailbox, loadFacts_wake h.loads rfl rfl rfl rfl, h.calls⟩
      | tombstoned | joining =>
          simp only [hpc] at hstep
          split at hstep <;> cases hstep
          exact ⟨h.open_, h.mailbox, h.loads, h.calls⟩
      | joined => simp [hpc] at hstep

/-- Every pair the callback thread passes on is that of one intercepted store,
in every run that keeps publications apart. -/
theorem dispatched_pair_intercepted (actions : List Action) (t : State)
    (hok : Meets step Separated init actions) (hrun : run step init actions = some t) :
    ∀ pair, .dispatched pair ∈ t.log → pair ∈ t.intercepted :=
  (run_invariant_of_meets paired_step paired_init hok hrun).calls

/-- Two stores to one register whose publications overlap, and a third to
another register once the callback thread has its pair. -/
def overlappedPublications : List Action :=
  [.fault ⟨8, 1⟩, .fault ⟨8, 2⟩, .handler 0, .handler 1, .handler 0, .handler 1,
    .handler 0, .handler 1, .handler 1, .handler 0, .handler 1, .callback, .callback,
    .callback, .callback, .fault ⟨16, 3⟩, .handler 2, .handler 2, .handler 2, .callback,
    .callback]

theorem dispatched_pair_intercepted_overlapped :
    ∃ t, run step init overlappedPublications = some t ∧
      Event.dispatched ⟨8, 1⟩ ∈ t.log ∧
      ∀ pair, .dispatched pair ∈ t.log → pair ∈ t.intercepted := by
  obtain ⟨t, hrun, hlogged⟩ : ∃ t, run step init overlappedPublications = some t ∧
      Event.dispatched ⟨8, 1⟩ ∈ t.log := exists_run (by decide +kernel)
  exact ⟨t, hrun, hlogged,
    dispatched_pair_intercepted overlappedPublications t (by decide +kernel) hrun⟩

/-- Stores to offsets 0 and 8 overlap; the handler gets the offset of one with
the value of the other. -/
theorem dispatched_pair_mixed :
    ¬ ∀ (actions : List Action) (t : State), run step init actions = some t →
      ∀ pair, .dispatched pair ∈ t.log → pair ∈ t.intercepted := by
  intro h
  obtain ⟨t, hrun, hlogged, hmixed⟩ : ∃ t, run step init
      [.fault ⟨0, 1⟩, .fault ⟨8, 2⟩, .handler 0, .handler 0, .handler 0, .handler 1,
        .handler 1, .handler 1, .handler 1, .handler 0, .handler 0, .callback, .callback,
        .callback, .callback, .callback, .callback] = some t ∧
      Event.dispatched ⟨8, 1⟩ ∈ t.log ∧ (⟨8, 1⟩ : Intercept) ∉ t.intercepted :=
    exists_run (by decide +kernel)
  exact hmixed (h _ t hrun ⟨8, 1⟩ hlogged)

end HostPimSim.Core.Sigsegv
