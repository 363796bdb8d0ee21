import HostPimSim.Core.Sigsegv

/-! The signals of the mailbox: `EXIT` reaches the callback thread, and the last
`WORK` is dispatched. -/
namespace HostPimSim.Core.Sigsegv
open Threads Transition

def HandlerPc.holdsNode : HandlerPc → Bool
  | .snapshot | .released => false
  | _ => true

/-- Between the second check of `node->dev` and the wake. -/
def HandlerPc.publishing : HandlerPc → Bool
  | .admitted | .offsetStored | .valueStored | .workStored => true
  | _ => false

def DisablePc.tombstone : DisablePc → Bool
  | .idle | .disarmed => false
  | _ => true

/-- `sigsegv_wait_node_quiescent` has returned. -/
def DisablePc.closed : DisablePc → Bool
  | .idle | .disarmed | .tombstoned => false
  | _ => true

def DisablePc.exitPublished : DisablePc → Bool
  | .exitStored | .joining | .joined => true
  | _ => false

/-- No faulting thread publishes once disabling has found the node quiescent. -/
structure Guarded (s : State) : Prop where
  count : s.activeWithDev = s.handlers.countP (·.pc.holdsNode)
  dead : s.disable.tombstone = true → s.nodeDev = false
  closed : s.disable.closed = true → ∀ handler ∈ s.handlers, handler.pc.publishing = false

theorem HandlerPc.holdsNode_of_publishing {pc : HandlerPc} (h : pc.publishing = true) :
    pc.holdsNode = true := by
  cases pc <;> simp_all [HandlerPc.publishing, HandlerPc.holdsNode]

theorem DisablePc.tombstone_of_closed {pc : DisablePc} (h : pc.closed = true) :
    pc.tombstone = true := by
  cases pc <;> simp_all [DisablePc.closed, DisablePc.tombstone]

theorem DisablePc.closed_of_exitPublished {pc : DisablePc} (h : pc.exitPublished = true) :
    pc.closed = true := by
  cases pc <;> simp_all [DisablePc.closed, DisablePc.exitPublished]

theorem guarded_init : Guarded init where
  count := rfl
  dead := by simp [init, DisablePc.tombstone]
  closed := by simp [init]

theorem Guarded.of_move {s t : State} {index : Nat} {handler : Handler} {pc : HandlerPc}
    (h : Guarded s) (hhandler : s.handlers[index]? = some handler)
    (hhandlers : t.handlers = s.handlers.set index { handler with pc := pc })
    (hnode : t.nodeDev = s.nodeDev ∧ t.disable = s.disable)
    (hactive : t.activeWithDev + (if handler.pc.holdsNode then 1 else 0) =
      s.activeWithDev + if pc.holdsNode then 1 else 0)
    (hpublishing : pc.publishing = true →
      handler.pc.publishing = true ∨ s.nodeDev = true) : Guarded t := by
  refine ⟨?_, ?_, ?_⟩
  · have hcount := countP_set_add (fun other => other.pc.holdsNode)
      { handler with pc := pc } hhandler
    rw [hhandlers]
    have := h.count
    dsimp only at hcount
    omega
  · rw [hnode.1, hnode.2]
    exact h.dead
  · rw [hhandlers, hnode.2]
    intro hclosed
    refine forall_mem_set (h.closed hclosed) ?_
    have hmem : handler ∈ s.handlers := List.mem_iff_getElem?.mpr ⟨index, hhandler⟩
    have hbefore := h.closed hclosed handler hmem
    have hdead := h.dead (DisablePc.tombstone_of_closed hclosed)
    by_contra hafter
    rcases hpublishing (by simpa using hafter) with hopen | hlive
    · simp [hopen] at hbefore
    · simp [hlive] at hdead

theorem Guarded.activeWithDev_pos {s : State} {index : Nat} {handler : Handler}
    (h : Guarded s) (hhandler : s.handlers[index]? = some handler)
    (hholds : handler.pc.holdsNode = true) : 0 < s.activeWithDev := by
  rw [h.count]
  exact List.countP_pos_iff.mpr
    ⟨handler, List.mem_iff_getElem?.mpr ⟨index, hhandler⟩, hholds⟩

theorem guarded_handler {s t : State} {index : Nat} {handler : Handler} (h : Guarded s)
    (hhandler : s.handlers[index]? = some handler)
    (hstep : handlerStep s index handler = some t) : Guarded t := by
  unfold handlerStep at hstep
  cases hpc : handler.pc with
  | guarded =>
      simp only [hpc] at hstep
      split at hstep <;> cases hstep
      · rename_i hlive
        simp only [Bool.and_eq_true] at hlive
        exact h.of_move hhandler rfl ⟨rfl, rfl⟩ (by simp [hpc, HandlerPc.holdsNode])
          fun _ => .inr hlive.1
      · exact h.of_move hhandler rfl ⟨rfl, rfl⟩ (by simp [hpc, HandlerPc.holdsNode])
          (by simp [HandlerPc.publishing])
  | refused | woken =>
      have hpos := h.activeWithDev_pos hhandler (by simp [hpc, HandlerPc.holdsNode])
      simp only [hpc, Option.some.injEq] at hstep
      subst hstep
      refine h.of_move hhandler rfl ⟨rfl, rfl⟩ ?_ (by simp [HandlerPc.publishing])
      simp only [hpc, HandlerPc.holdsNode, if_true, Bool.false_eq_true, if_false]
      omega
  | released => simp [hpc] at hstep
  | _ =>
      simp only [hpc, Option.some.injEq] at hstep
      subst hstep
      exact h.of_move hhandler rfl ⟨rfl, rfl⟩ (by simp [hpc, HandlerPc.holdsNode])
        (by simp [hpc, HandlerPc.publishing])

theorem guarded_disable {s t : State} (h : Guarded s) (hstep : disableStep s = some t) :
    Guarded t := by
  unfold disableStep at hstep
  cases hpc : s.disable with
  | tombstoned =>
      simp only [hpc] at hstep
      split at hstep <;> cases hstep
      rename_i hzero
      refine ⟨h.count, fun _ => h.dead (by simp [hpc, DisablePc.tombstone]), ?_⟩
      intro _ handler hmem
      have hcount := h.count
      rw [hzero] at hcount
      have hfree := List.countP_eq_zero.mp hcount.symm handler hmem
      by_contra hopen
      exact hfree (HandlerPc.holdsNode_of_publishing (by simpa using hopen))
  | idle =>
      simp only [hpc, Option.some.injEq] at hstep
      subst hstep
      exact ⟨h.count, by simp [DisablePc.tombstone], by simp [DisablePc.closed]⟩
  | disarmed =>
      simp only [hpc, Option.some.injEq] at hstep
      subst hstep
      exact ⟨h.count, fun _ => rfl, by simp [DisablePc.closed]⟩
  | quiescent | exitStored =>
      have hdead := h.dead (by simp [hpc, DisablePc.tombstone])
      have hclosed := h.closed (by simp [hpc, DisablePc.closed])
      simp only [hpc, Option.some.injEq] at hstep
      subst hstep
      exact ⟨h.count, fun _ => hdead, fun _ => hclosed⟩
  | joining =>
      have hdead := h.dead (by simp [hpc, DisablePc.tombstone])
      have hclosed := h.closed (by simp [hpc, DisablePc.closed])
      simp only [hpc] at hstep
      split at hstep <;> cases hstep
      exact ⟨h.count, fun _ => hdead, fun _ => hclosed⟩
  | joined => simp [hpc] at hstep

theorem callbackStep_frame {s t : State} (hstep : callbackStep s = some t) :
    t.handlers = s.handlers ∧ t.activeWithDev = s.activeWithDev ∧
      t.nodeDev = s.nodeDev ∧ t.disable = s.disable ∧ t.offset = s.offset ∧
      t.value = s.value := by
  unfold callbackStep at hstep
  split at hstep <;> cases hstep <;> simp

theorem guarded_callback {s t : State} (h : Guarded s) (hstep : callbackStep s = some t) :
    Guarded t := by
  obtain ⟨hhandlers, hactive, hnode, hdisable, _, _⟩ := callbackStep_frame hstep
  exact ⟨by rw [hactive, hhandlers]; exact h.count,
    by rw [hnode, hdisable]; exact h.dead,
    by rw [hdisable, hhandlers]; exact h.closed⟩

theorem guarded_fault {s t : State} {intercept : Intercept} (h : Guarded s)
    (hstep : step s (.fault intercept) = some t) : Guarded t := by
  simp only [step] at hstep
  split at hstep <;> cases hstep
  refine ⟨?_, h.dead, fun hclosed => forall_mem_push (h.closed hclosed) rfl⟩
  simpa [List.countP_append, HandlerPc.holdsNode] using h.count

def Event.account (open_ : Option Intercept) : Event → Option Intercept
  | .published pair => some pair
  | .dispatched pair => if open_ = some pair then none else open_

/-- The write of the last `WORK` store, unless its pair has been dispatched since. -/
def undelivered (log : List Event) : Option Intercept := log.foldl Event.account none

/-- What the callback has loaded is what `pair` would have it load. -/
def CallbackPc.agrees (pair : Intercept) : CallbackPc → Bool
  | .offsetLoaded offset => offset == pair.offset
  | .pairLoaded loaded => loaded == pair
  | _ => true

/-- When a signal is not lost: `WORK` is stored while the mailbox holds the pair
of that handler and the callback has loaded nothing else, `EXIT` while the word
is `WAIT`. -/
def Uncontended (s : State) : Action → Prop
  | .handler index => ∀ handler ∈ s.handlers[index]?, handler.pc = .valueStored →
      handler.intercept = ⟨s.offset, s.value⟩ ∧
        s.callback.agrees handler.intercept = true
  | .disable => s.disable = .quiescent → s.futexWord = .wait
  | .fault _ | .callback => True

instance (s : State) : ∀ action, Decidable (Uncontended s action)
  | .handler index =>
      inferInstanceAs (Decidable (∀ handler ∈ s.handlers[index]?, handler.pc = .valueStored →
        handler.intercept = ⟨s.offset, s.value⟩ ∧
          s.callback.agrees handler.intercept = true))
  | .disable => inferInstanceAs (Decidable (s.disable = .quiescent → s.futexWord = .wait))
  | .fault _ | .callback => isTrue trivial

/-- Every faulting thread has returned, the callback thread sleeps or is gone,
and disabling has not started or is over. -/
def Quiescent (s : State) : Prop :=
  (∀ handler ∈ s.handlers, handler.pc = .released) ∧
    (s.callback = .asleep ∨ s.callback = .exited) ∧
    (s.disable = .idle ∨ s.disable = .joined)

instance (s : State) : Decidable (Quiescent s) :=
  inferInstanceAs (Decidable ((∀ handler ∈ s.handlers, handler.pc = .released) ∧
    (s.callback = .asleep ∨ s.callback = .exited) ∧
    (s.disable = .idle ∨ s.disable = .joined)))

/-- Between the first store of the payload and the `WORK` store. -/
def HandlerPc.storing : HandlerPc → Bool
  | .offsetStored | .valueStored => true
  | _ => false

/-- Where the pair of an undelivered `WORK` is on its way to the handler. -/
def OnItsWay (s : State) (pair : Intercept) : Prop :=
  match s.callback with
  | .waiting | .blocking | .asleep | .signalled | .hasWork => s.futexWord = .work
  | .offsetLoaded offset => offset = pair.offset
  | .pairLoaded loaded => loaded = pair
  | .reset loaded => loaded = pair ∨ s.futexWord = .work
  | .exited => False

def WordFacts (s : State) : Prop :=
  match s.callback with
  | .waiting | .blocking | .reset _ => True
  | .asleep => s.futexWord = .wait ∨
      (∃ handler ∈ s.handlers, handler.pc = .workStored) ∨ s.disable = .exitStored
  | .signalled => s.futexWord ≠ .wait
  | .hasWork | .offsetLoaded _ | .pairLoaded _ => s.futexWord = .work
  | .exited => s.futexWord = .exit

structure Delivering (s : State) : Prop where
  guarded : Guarded s
  exit : s.futexWord = .exit ↔ s.disable.exitPublished = true
  word : WordFacts s
  delivery : (∀ handler ∈ s.handlers, handler.pc.storing = false) →
    ∀ pair, undelivered s.log = some pair → pair = ⟨s.offset, s.value⟩ ∧ OnItsWay s pair

@[simp] theorem undelivered_published (log : List Event) (pair : Intercept) :
    undelivered (log ++ [.published pair]) = some pair := by
  simp [undelivered, Event.account]

theorem undelivered_dispatched {log : List Event} {pair loaded : Intercept}
    (h : undelivered (log ++ [.dispatched loaded]) = some pair) :
    undelivered log = some pair ∧ loaded ≠ pair := by
  simp only [undelivered, List.foldl_append, List.foldl_cons, List.foldl_nil,
    Event.account] at h
  split at h
  · cases h
  · rename_i hother
    refine ⟨h, ?_⟩
    rintro rfl
    exact hother h

theorem delivering_init : Delivering init where
  guarded := guarded_init
  exit := by simp [init, DisablePc.exitPublished]
  word := trivial
  delivery := by simp [init, undelivered]

theorem onItsWay_wake {s t : State} {pair : Intercept} (h : OnItsWay s pair)
    (hcallback : t.callback = s.callback.wake) (hword : t.futexWord = s.futexWord) :
    OnItsWay t pair := by
  unfold OnItsWay at h ⊢
  rw [hcallback, hword]
  cases hpc : s.callback <;> rw [hpc] at h <;> exact h

theorem delivering_callback {s t : State} (h : Delivering s)
    (hstep : callbackStep s = some t) : Delivering t := by
  have hguarded := guarded_callback h.guarded hstep
  obtain ⟨_, hexit, hword, hdelivery⟩ := h
  unfold OnItsWay at hdelivery
  unfold WordFacts at hword
  unfold callbackStep at hstep
  cases hpc : s.callback with
  | waiting =>
      simp only [hpc, Option.some.injEq] at hstep hdelivery
      subst hstep
      refine ⟨hguarded, hexit, ?_, ?_⟩
      · unfold WordFacts
        cases hvalue : s.futexWord <;> simp
      · unfold OnItsWay
        cases hvalue : s.futexWord <;> simpa [hvalue] using hdelivery
  | blocking =>
      simp only [hpc, Option.some.injEq] at hstep hdelivery
      subst hstep
      refine ⟨hguarded, hexit, ?_, ?_⟩
      · unfold WordFacts
        cases hvalue : s.futexWord <;> simp
      · unfold OnItsWay
        cases hvalue : s.futexWord <;> simpa [hvalue] using hdelivery
  | signalled =>
      simp only [hpc, Option.some.injEq] at hstep hdelivery hword
      subst hstep
      refine ⟨hguarded, hexit, ?_, ?_⟩
      · unfold WordFacts
        cases hvalue : s.futexWord <;> simp_all
      · unfold OnItsWay
        cases hvalue : s.futexWord <;> simpa [hvalue] using hdelivery
  | hasWork =>
      simp only [hpc, Option.some.injEq] at hstep hdelivery hword
      subst hstep
      refine ⟨hguarded, hexit, hword, ?_⟩
      intro hstoring pair hpair
      obtain ⟨hmailbox, _⟩ := hdelivery hstoring pair hpair
      exact ⟨hmailbox, by rw [OnItsWay, hmailbox]⟩
  | offsetLoaded offset =>
      simp only [hpc, Option.some.injEq] at hstep hdelivery hword
      subst hstep
      refine ⟨hguarded, hexit, hword, ?_⟩
      intro hstoring pair hpair
      obtain ⟨hmailbox, hoffset⟩ := hdelivery hstoring pair hpair
      exact ⟨hmailbox, by rw [OnItsWay, hoffset, hmailbox]⟩
  | pairLoaded loaded =>
      simp only [hpc, Option.some.injEq] at hstep hdelivery hword
      subst hstep
      refine ⟨hguarded, ?_, trivial, ?_⟩
      · simpa [hword] using hexit
      · intro hstoring pair hpair
        obtain ⟨hmailbox, hloaded⟩ := hdelivery hstoring pair hpair
        exact ⟨hmailbox, .inl hloaded⟩
  | reset loaded =>
      simp only [hpc, Option.some.injEq] at hstep hdelivery
      subst hstep
      refine ⟨hguarded, hexit, trivial, ?_⟩
      intro hstoring pair hpair
      obtain ⟨hearlier, hother⟩ := undelivered_dispatched hpair
      obtain ⟨hmailbox, hway⟩ := hdelivery hstoring pair hearlier
      exact ⟨hmailbox, hway.resolve_left hother⟩
  | asleep | exited => simp [hpc] at hstep

theorem wordFacts_move {s t : State} {index : Nat} {handler moved : Handler}
    (h : WordFacts s) (hhandler : s.handlers[index]? = some handler)
    (hpc : handler.pc ≠ .workStored) (hhandlers : t.handlers = s.handlers.set index moved)
    (hcallback : t.callback = s.callback) (hword : t.futexWord = s.futexWord)
    (hdisable : t.disable = s.disable) : WordFacts t := by
  unfold WordFacts at h ⊢
  rw [hcallback, hword, hdisable, hhandlers]
  cases hasleep : s.callback with
  | asleep =>
      simp only [hasleep] at h ⊢
      rcases h with hwait | ⟨other, hother, hworked⟩ | hexit
      · exact .inl hwait
      · rcases eq_or_mem_set moved hhandler hother with rfl | hkept
        · exact absurd hworked hpc
        · exact .inr (.inl ⟨other, hkept, hworked⟩)
      · exact .inr (.inr hexit)
  | _ =>
      rw [hasleep] at h
      exact h

theorem Delivering.of_move {s t : State} {index : Nat} {handler : Handler} {pc : HandlerPc}
    (h : Delivering s) (hguarded : Guarded t)
    (hhandler : s.handlers[index]? = some handler)
    (hbefore : handler.pc.storing = false) (hpc : handler.pc ≠ .workStored)
    (ht : t = { s with
      activeWithDev := t.activeWithDev
      handlers := s.handlers.set index { handler with pc := pc } }) : Delivering t := by
  obtain ⟨_, hexit, hword, hdelivery⟩ := h
  rw [ht] at hguarded ⊢
  refine ⟨hguarded, hexit, wordFacts_move hword hhandler hpc rfl rfl rfl rfl, ?_⟩
  intro hafter
  apply hdelivery
  intro other hother
  rcases eq_or_mem_set _ hhandler hother with rfl | hkept
  · exact hbefore
  · exact hafter other hkept

theorem Delivering.of_store {s t : State} {index : Nat} {handler : Handler} {pc : HandlerPc}
    (h : Delivering s) (hguarded : Guarded t)
    (hhandler : s.handlers[index]? = some handler)
    (hpc : handler.pc ≠ .workStored) (hafter : pc.storing = true)
    (ht : t = { s with
      offset := t.offset
      value := t.value
      whole := t.whole
      handlers := s.handlers.set index { handler with pc := pc } }) : Delivering t := by
  obtain ⟨_, hexit, hword, _⟩ := h
  rw [ht] at hguarded ⊢
  refine ⟨hguarded, hexit, wordFacts_move hword hhandler hpc rfl rfl rfl rfl, ?_⟩
  intro hstoring
  have := hstoring _ (mem_set_moved hhandler)
  simp [hafter] at this

theorem delivering_work {s : State} {index : Nat} {handler : Handler} (h : Delivering s)
    (hhandler : s.handlers[index]? = some handler) (hpc : handler.pc = .valueStored)
    (hmailbox : handler.intercept = ⟨s.offset, s.value⟩)
    (hagrees : s.callback.agrees handler.intercept = true)
    (hguarded : Guarded { s with
      futexWord := .work
      handlers := s.handlers.set index { handler with pc := .workStored }
      log := s.log ++ [.published handler.intercept] }) :
    Delivering { s with
      futexWord := .work
      handlers := s.handlers.set index { handler with pc := .workStored }
      log := s.log ++ [.published handler.intercept] } := by
  have hmem : handler ∈ s.handlers := List.mem_iff_getElem?.mpr ⟨index, hhandler⟩
  have hopen : s.disable.closed ≠ true := by
    intro hclosed
    have := h.guarded.closed hclosed handler hmem
    simp [hpc, HandlerPc.publishing] at this
  have hrunning : s.disable.exitPublished ≠ true :=
    fun hpublished => hopen (DisablePc.closed_of_exitPublished hpublished)
  have hword := h.word
  refine ⟨hguarded, by simpa using hrunning, ?_, ?_⟩
  · unfold WordFacts at hword ⊢
    cases hcallback : s.callback with
    | asleep => exact .inr (.inl ⟨_, mem_set_moved hhandler, rfl⟩)
    | exited =>
        simp only [hcallback] at hword
        exact absurd (h.exit.mp hword) hrunning
    | signalled => simp
    | _ => trivial
  · intro _ pair hpair
    simp only [undelivered_published, Option.some.injEq] at hpair
    subst hpair
    refine ⟨hmailbox, ?_⟩
    unfold OnItsWay
    unfold WordFacts at hword
    cases hcallback : s.callback with
    | offsetLoaded offset => simpa [hcallback, CallbackPc.agrees] using hagrees
    | pairLoaded loaded => simpa [hcallback, CallbackPc.agrees] using hagrees
    | reset loaded => exact .inr rfl
    | exited =>
        simp only [hcallback] at hword
        exact absurd (h.exit.mp hword) hrunning
    | _ => rfl

theorem delivering_wake {s t : State} (h : Delivering s) (hguarded : Guarded t)
    (hcallback : t.callback = s.callback.wake) (hword : t.futexWord = s.futexWord)
    (hexit : t.disable.exitPublished = s.disable.exitPublished)
    (hpayload : t.offset = s.offset ∧ t.value = s.value ∧ t.log = s.log)
    (hstoring : (∀ handler ∈ t.handlers, handler.pc.storing = false) →
      ∀ handler ∈ s.handlers, handler.pc.storing = false) : Delivering t := by
  obtain ⟨hoffset, hvalue, hlog⟩ := hpayload
  refine ⟨hguarded, by rw [hword, hexit]; exact h.exit, ?_, ?_⟩
  · have hfacts := h.word
    unfold WordFacts at hfacts ⊢
    rw [hcallback, hword]
    cases hpc : s.callback with
    | asleep => trivial
    | _ =>
        rw [hpc] at hfacts
        exact hfacts
  · intro hafter pair hpair
    rw [hlog] at hpair
    obtain ⟨hmailbox, hway⟩ := h.delivery (hstoring hafter) pair hpair
    exact ⟨by rw [hmailbox, hoffset, hvalue], onItsWay_wake hway hcallback hword⟩

theorem delivering_handler {s t : State} {index : Nat} {handler : Handler}
    (h : Delivering s) (hhandler : s.handlers[index]? = some handler)
    (hok : Uncontended s (.handler index))
    (hstep : handlerStep s index handler = some t) : Delivering t := by
  have hguarded := guarded_handler h.guarded hhandler hstep
  unfold handlerStep at hstep
  cases hpc : handler.pc with
  | snapshot | refused | woken =>
      simp only [hpc, Option.some.injEq] at hstep
      subst hstep
      exact h.of_move hguarded hhandler (by simp [hpc, HandlerPc.storing])
        (by simp [hpc]) rfl
  | guarded =>
      simp only [hpc] at hstep
      split at hstep <;> cases hstep <;>
        exact h.of_move hguarded hhandler (by simp [hpc, HandlerPc.storing])
          (by simp [hpc]) rfl
  | admitted | offsetStored =>
      simp only [hpc, Option.some.injEq] at hstep
      subst hstep
      exact h.of_store hguarded hhandler (by simp [hpc]) rfl rfl
  | valueStored =>
      obtain ⟨hmailbox, hagrees⟩ := hok handler hhandler hpc
      simp only [hpc, Option.some.injEq] at hstep
      subst hstep
      exact delivering_work h hhandler hpc hmailbox hagrees hguarded
  | workStored =>
      simp only [hpc, Option.some.injEq] at hstep
      subst hstep
      refine delivering_wake h hguarded rfl rfl rfl ⟨rfl, rfl, rfl⟩ ?_
      intro hafter other hother
      rcases eq_or_mem_set _ hhandler hother with rfl | hkept
      · simp [hpc, HandlerPc.storing]
      · exact hafter other hkept
  | released => simp [hpc] at hstep

theorem delivering_disable {s t : State} (h : Delivering s)
    (hok : Uncontended s .disable) (hstep : disableStep s = some t) : Delivering t := by
  have hguarded := guarded_disable h.guarded hstep
  have hexit := h.exit
  have hword := h.word
  unfold disableStep at hstep
  cases hpc : s.disable with
  | idle | disarmed =>
      simp only [hpc, Option.some.injEq] at hstep
      subst hstep
      refine ⟨hguarded, by simpa [hpc, DisablePc.exitPublished] using hexit, ?_, h.delivery⟩
      unfold WordFacts at hword ⊢
      simpa [hpc] using hword
  | tombstoned =>
      simp only [hpc] at hstep
      split at hstep <;> cases hstep
      refine ⟨hguarded, by simpa [hpc, DisablePc.exitPublished] using hexit, ?_, h.delivery⟩
      unfold WordFacts at hword ⊢
      simpa [hpc] using hword
  | quiescent =>
      have hwait := hok hpc
      simp only [hpc, Option.some.injEq] at hstep
      subst hstep
      refine ⟨hguarded, by simp [DisablePc.exitPublished], ?_, ?_⟩
      · unfold WordFacts at hword ⊢
        cases hcallback : s.callback with
        | asleep => exact .inr (.inr rfl)
        | signalled => simp
        | hasWork | offsetLoaded offset | pairLoaded loaded =>
            simp [hcallback, hwait] at hword
        | _ => trivial
      · -- an unread `WORK` would still be in the word
        intro hstoring pair hpair
        obtain ⟨hmailbox, hway⟩ := h.delivery hstoring pair hpair
        refine ⟨hmailbox, ?_⟩
        unfold OnItsWay at hway ⊢
        cases hcallback : s.callback with
        | reset loaded =>
            simp only [hcallback, hwait] at hway
            exact .inl (hway.resolve_right (by simp))
        | offsetLoaded offset | pairLoaded loaded =>
            simp only [hcallback] at hway
            exact hway
        | _ => simp [hcallback, hwait] at hway
  | exitStored =>
      simp only [hpc, Option.some.injEq] at hstep
      subst hstep
      exact delivering_wake h hguarded rfl rfl (by simp [hpc, DisablePc.exitPublished])
        ⟨rfl, rfl, rfl⟩ id
  | joining =>
      simp only [hpc] at hstep
      split at hstep <;> cases hstep
      rename_i hexited
      refine ⟨hguarded, by simpa [hpc, DisablePc.exitPublished] using hexit, ?_, h.delivery⟩
      unfold WordFacts at hword ⊢
      simpa [hexited] using hword
  | joined => simp [hpc] at hstep

theorem delivering_step (s : State) (action : Action) (t : State) (h : Delivering s)
    (hok : Uncontended s action) (hstep : step s action = some t) : Delivering t := by
  cases action with
  | fault intercept =>
      have hguarded := guarded_fault h.guarded hstep
      simp only [step] at hstep
      split at hstep <;> cases hstep
      refine ⟨hguarded, h.exit, ?_, ?_⟩
      · have hword := h.word
        unfold WordFacts at hword ⊢
        cases hcallback : s.callback with
        | asleep =>
            simp only [hcallback] at hword
            rcases hword with hwait | ⟨handler, hmem, hworked⟩ | hexit
            · exact .inl hwait
            · exact .inr (.inl ⟨handler, List.mem_append_left _ hmem, hworked⟩)
            · exact .inr (.inr hexit)
        | _ =>
            rw [hcallback] at hword
            exact hword
      · intro hstoring
        exact h.delivery fun handler hmem => hstoring handler (List.mem_append_left _ hmem)
  | handler index =>
      obtain ⟨handler, hhandler, hmove⟩ := Option.bind_eq_some_iff.mp hstep
      exact delivering_handler h hhandler hok hmove
  | callback => exact delivering_callback h hstep
  | disable => exact delivering_disable h hok hstep

theorem Delivering.callback_exits {s : State} (h : Delivering s)
    (hjoining : s.disable = .joining) :
    ∃ count t, run step s (List.replicate count .callback) = some t ∧
      t.callback = .exited ∧ (step t .disable).isSome = true := by
  have hexit : s.futexWord = .exit := h.exit.mpr (by simp [hjoining, DisablePc.exitPublished])
  have hclosed := h.guarded.closed (by simp [hjoining, DisablePc.closed])
  have hword := h.word
  unfold WordFacts at hword
  cases hpc : s.callback with
  | waiting =>
      refine ⟨2, { s with callback := .exited }, ?_⟩
      simp [List.replicate, step, callbackStep, disableStep, hpc, hexit, hjoining]
  | blocking =>
      refine ⟨3, { s with callback := .exited }, ?_⟩
      simp [List.replicate, step, callbackStep, disableStep, hpc, hexit, hjoining]
  | signalled =>
      refine ⟨1, { s with callback := .exited }, ?_⟩
      simp [List.replicate, step, callbackStep, disableStep, hpc, hexit, hjoining]
  | reset pair =>
      refine ⟨3, { s with callback := .exited, log := s.log ++ [.dispatched pair] }, ?_⟩
      simp [List.replicate, step, callbackStep, disableStep, hpc, hexit, hjoining]
  | exited =>
      refine ⟨0, s, ?_⟩
      simp [step, disableStep, hpc, hjoining]
  | asleep =>
      simp only [hpc, hexit, hjoining] at hword
      obtain hwait | ⟨handler, hmem, hworked⟩ | hstored := hword
      · cases hwait
      · have := hclosed handler hmem
        simp [hworked, HandlerPc.publishing] at this
      · cases hstored
  | hasWork | offsetLoaded offset | pairLoaded loaded => simp [hpc, hexit] at hword

theorem Delivering.nothing_undelivered {s : State} (h : Delivering s)
    (hquiescent : Quiescent s) : undelivered s.log = none := by
  obtain ⟨hreleased, hcallback, hdisable⟩ := hquiescent
  have hstoring : ∀ handler ∈ s.handlers, handler.pc.storing = false := by
    intro handler hmem
    simp [hreleased handler hmem, HandlerPc.storing]
  by_contra hsome
  obtain ⟨pair, hpair⟩ := Option.ne_none_iff_exists'.mp hsome
  have hway := (h.delivery hstoring pair hpair).2
  have hword := h.word
  unfold OnItsWay at hway
  unfold WordFacts at hword
  rcases hcallback with hasleep | hexited
  · simp only [hasleep] at hway hword
    rw [hway] at hword
    rcases hword with hwait | ⟨handler, hmem, hworked⟩ | hstored
    · cases hwait
    · rw [hreleased handler hmem] at hworked
      cases hworked
    · rw [hstored] at hdisable
      simp at hdisable
  · simp [hexited] at hway

/-- No signal is lost in an uncontended run: `EXIT` stays, the callback thread
and the join finish after it, and at rest the last `WORK` has been dispatched. -/
theorem mailbox_signals_delivered (actions : List Action) (t : State)
    (hok : Meets step Uncontended init actions) (hrun : run step init actions = some t) :
    (t.disable.exitPublished = true → t.futexWord = .exit) ∧
      (t.disable = .joining →
        ∃ count u, run step t (List.replicate count .callback) = some u ∧
          u.callback = .exited ∧ (step u .disable).isSome = true) ∧
      (Quiescent t → undelivered t.log = none) := by
  have h := run_invariant_of_meets delivering_step delivering_init hok hrun
  exact ⟨h.exit.mpr, h.callback_exits, h.nothing_undelivered⟩

/-- Two faults, the second while the handler runs for the first, then disabling
while the callback thread is asleep. -/
def twoFaultsThenDisable : List Action :=
  List.flatten [[.fault ⟨8, 1⟩], List.replicate 7 (.handler 0), List.replicate 5 .callback,
    [.fault ⟨16, 2⟩], List.replicate 7 (.handler 1), List.replicate 9 .callback,
    List.replicate 5 .disable, List.replicate 2 .callback, [.disable]]

theorem mailbox_signals_delivered_twoFaults :
    ∃ t, run step init twoFaultsThenDisable = some t ∧ Quiescent t ∧
      Event.published ⟨16, 2⟩ ∈ t.log ∧
      (t.disable.exitPublished = true → t.futexWord = .exit) ∧
      (t.disable = .joining →
        ∃ count u, run step t (List.replicate count .callback) = some u ∧
          u.callback = .exited ∧ (step u .disable).isSome = true) ∧
      (Quiescent t → undelivered t.log = none) := by
  obtain ⟨t, hrun, hquiescent, hlogged⟩ : ∃ t, run step init twoFaultsThenDisable = some t ∧
      Quiescent t ∧ Event.published ⟨16, 2⟩ ∈ t.log := exists_run (by decide +kernel)
  exact ⟨t, hrun, hquiescent, hlogged,
    mailbox_signals_delivered twoFaultsThenDisable t (by decide +kernel) hrun⟩

/-- `EXIT` is stored after the callback thread has loaded its pair; the reset
then puts `WAIT` over it. -/
theorem exit_overwritten :
    ¬ ∀ (actions : List Action) (t : State), run step init actions = some t →
      (t.disable.exitPublished = true → t.futexWord = .exit) ∧
        (t.disable = .joining →
          ∃ count u, run step t (List.replicate count .callback) = some u ∧
            u.callback = .exited ∧ (step u .disable).isSome = true) ∧
        (Quiescent t → undelivered t.log = none) := by
  intro h
  obtain ⟨t, hrun, hexit, hword⟩ : ∃ t, run step init
      (List.flatten [[.fault ⟨8, 1⟩], List.replicate 7 (.handler 0),
        List.replicate 4 .callback, List.replicate 5 .disable, [.callback]]) = some t ∧
      t.disable.exitPublished = true ∧ t.futexWord ≠ .exit := exists_run (by decide +kernel)
  exact hword ((h _ t hrun).1 hexit)

end HostPimSim.Core.Sigsegv
