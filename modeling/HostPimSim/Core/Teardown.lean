import HostPimSim.Core.Services

/-! A device that is torn down while any of its threads and any others start, stop and resize
its services.  The flag that a teardown sets and the two control mutexes together keep a new
thread from coming up behind it. -/
namespace HostPimSim.Core.Services
open Threads Transition Mutex Pool

/-- The call holds the control mutex of the service. -/
def Pc.holds (service : Service) : Pc → Bool
  | .locked v | .spawning v _ | .joining v _ | .unlocking v _ => v == service
  | .expanding _ _ => .pool == service
  | _ => false

def Pc.creates (service : Service) : Pc → Bool
  | .spawning v _ => v == service
  | .expanding _ _ => .pool == service
  | _ => false

def Pc.inspected (service : Service) : Pc → Bool
  | .beginning | .inspecting .monitor => false
  | .inspecting .pool => service == .monitor
  | .returned result => result == .success
  | _ => true

def Pc.past (service : Service) : Pc → Bool
  | .unlocking v _ => v == service || v == .pool
  | .waiting v | .locked v | .joining v _ => v == .pool && service == .monitor
  | .disabling | .deleting | .returned _ => true
  | _ => false

def Pc.flagged : Pc → Bool
  | .beginning => false
  | .returned result => result == .success
  | _ => true

def Call.finalizing (call : Call) : Bool := call.op == .finalize && call.pc.flagged

def Op.uses (service : Service) : Op → Bool
  | .startMonitor _ _ | .stopMonitor => service == .monitor
  | .poolStart _ _ | .poolStop | .setMaxActiveDpus _ => service == .pool
  | .finalize => true

def AfterJoin.fits (service : Service) (op : Op) : AfterJoin → Bool
  | .stopped => true
  | .startFailed => op != .finalize
  | .restart _ => op != .finalize && service == .pool

def Call.shaped (call : Call) : Bool :=
  match call.pc with
  | .beginning | .inspecting _ | .inspectingCallbacks | .disabling | .deleting =>
      call.op == .finalize
  | .waiting v | .locked v | .unlocking v _ => call.op.uses v
  | .spawning v _ => call.op.uses v && call.op != .finalize
  | .expanding _ _ => call.op.uses .pool && call.op != .finalize
  | .joining v after => call.op.uses v && AfterJoin.fits v call.op after
  | .returned _ => true

theorem Pc.holds_eq {pc : Pc} {v : Service} (h : pc.holds v = true) (w : Service) :
    pc.holds w = (v == w) := by
  cases pc <;> simp_all [Pc.holds]

theorem Pc.holds_of_creates {pc : Pc} {v : Service} (h : pc.creates v = true) :
    pc.holds v = true := by
  cases pc <;> simp_all [Pc.holds, Pc.creates]

theorem Pc.flagged_of_holds {pc : Pc} {v : Service} (h : pc.holds v = true) :
    pc.flagged = true := by
  cases pc <;> simp_all [Pc.holds, Pc.flagged]

theorem Pc.unfinished_of_holds {pc : Pc} {v : Service} (h : pc.holds v = true) :
    pc.returns = false := by
  cases pc <;> simp_all [Pc.holds, Pc.returns]

theorem Pc.inspected_of_holds {pc : Pc} {v : Service} (h : pc.holds v = true) (w : Service) :
    pc.inspected w = true := by
  cases pc <;> simp_all [Pc.holds, Pc.inspected]

theorem Pc.not_creates_of_past {pc : Pc} {v : Service} (h : pc.past v = true) (w : Service) :
    pc.creates w = false := by
  cases pc <;> simp_all [Pc.past, Pc.creates]

/-- The other service of a mutex that a teardown holds: it is over with the monitors when it
comes to the pool. -/
theorem Pc.past_other {pc : Pc} {v w : Service} (hholds : pc.holds v = true)
    (hcreates : pc.creates v = false) (hw : w ≠ v) : pc.past w = (v == .pool) := by
  cases v <;> cases w <;> cases pc <;> simp_all [Pc.holds, Pc.past, Pc.creates]

inductive Move (s : State) (i : Nat) (c : Call) : State → Pc → Prop where
  | refused (hpc : c.pc = .beginning) : Move s i c s (.returned .busy)
  | begun (hpc : c.pc = .beginning) (hflag : s.teardownInProgress = false) :
      Move s i c { s with teardownInProgress := true } (.inspecting .monitor)
  | gaveUp (result : PimError)
      (hpc : c.pc = .disabling ∨ c.pc = .inspectingCallbacks ∨ ∃ v, c.pc = .inspecting v)
      (hresult : result ≠ .success) :
      Move s i c { s with teardownInProgress := false } (.returned result)
  | inspectedMonitor (hpc : c.pc = .inspecting .monitor)
      (hnot : c.currentThreadIn (s.crews .monitor).threads = false) :
      Move s i c s (.inspecting .pool)
  | inspectedPool (hpc : c.pc = .inspecting .pool)
      (hnot : c.currentThreadIn (s.crews .pool).threads = false) :
      Move s i c s .inspectingCallbacks
  | inspectedCallbacks (hpc : c.pc = .inspectingCallbacks) : Move s i c s (.waiting .monitor)
  | locked (v : Service) (hpc : c.pc = .waiting v) (hfree : (s.crews v).ctlMutex = none) :
      Move s i c (s.setCrew v fun crew => { crew with ctlMutex := some i }) (.locked v)
  | worked (v : Service) (f : Crew → Crew) (pc : Pc) (hbefore : c.pc.holds v = true)
      (hafter : pc.holds v = true) (hmutex : ∀ crew, (f crew).ctlMutex = crew.ctlMutex)
      (hthreads : (f (s.crews v)).threads = (s.crews v).threads ∨
        (f (s.crews v)).threads = [] ∧ ∀ t ∈ (s.crews v).threads, t ∉ s.alive)
      (hcreates : pc.creates v = true → s.teardownInProgress = false)
      (hshaped : Call.shaped { c with pc := pc } = true)
      (hpast : c.op = .finalize → pc.past v = true →
        (f (s.crews v)).threads = [] ∨ c.currentThreadIn (s.crews v).threads = true) :
      Move s i c (s.setCrew v f) pc
  | created (v : Service) (pc : Pc) (hbefore : c.pc.creates v = true)
      (hafter : pc.creates v = true) (hshaped : Call.shaped { c with pc := pc } = true) :
      Move s i c (s.spawn v) pc
  | left (v : Service) (result : PimError) (hpc : c.pc = .unlocking v result) :
      Move s i c (s.setCrew v fun crew => { crew with ctlMutex := none }) (c.leave v result)
  | disabled (hpc : c.pc = .disabling) : Move s i c s .deleting
  | deleted (hpc : c.pc = .deleting) :
      Move s i c { s with deleted := true } (.returned .success)

@[simp] theorem State.setCrew_self (s : State) (v : Service) (f : Crew → Crew) :
    (s.setCrew v f).crews v = f (s.crews v) := by
  simp [State.setCrew]

theorem State.setCrew_other (s : State) {v w : Service} (f : Crew → Crew) (h : w ≠ v) :
    (s.setCrew v f).crews w = s.crews w := by
  simp [State.setCrew, h]

theorem State.setCrew_setCrew (s : State) (v : Service) (f g : Crew → Crew) :
    (s.setCrew v g).setCrew v f = s.setCrew v fun crew => f (g crew) := by
  unfold State.setCrew
  congr 1
  funext w
  by_cases h : w = v
  · simp [h]
  · simp [h]

theorem State.setCrew_id (s : State) (v : Service) : s.setCrew v (fun crew => crew) = s := by
  unfold State.setCrew
  congr 1
  funext w
  split <;> rfl

def Keeps (f : Crew → Crew) : Prop :=
  ∀ crew, (f crew).ctlMutex = crew.ctlMutex ∧ (f crew).threads = crew.threads

/-- Where the code under a control mutex ends that neither creates nor joins threads. -/
inductive Next (s : State) (c : Call) (v : Service) : State × Pc → Prop where
  | unlocking (f : Crew → Crew) (result : PimError) (hf : Keeps f)
      (hpast : c.op = .finalize →
        (s.crews v).threads = [] ∨ c.currentThreadIn (s.crews v).threads = true) :
      Next s c v (s.setCrew v f, .unlocking v result)
  | creating (f : Crew → Crew) (pc : Pc) (hf : Keeps f) (hcreates : pc.creates v = true)
      (hflag : s.teardownInProgress = false) (hop : c.op ≠ .finalize) :
      Next s c v (s.setCrew v f, pc)
  | joining (f : Crew → Crew) (after : AfterJoin) (hf : Keeps f)
      (hfits : AfterJoin.fits v c.op after = true) :
      Next s c v (s.setCrew v f, .joining v after)

section
variable {s : State} {c : Call} {v : Service}

theorem next_same (result : PimError) (hpast : c.op = .finalize →
    (s.crews v).threads = [] ∨ c.currentThreadIn (s.crews v).threads = true) :
    Next s c v (s, .unlocking v result) := by
  have h := Next.unlocking (fun crew => crew) result (fun _ => ⟨rfl, rfl⟩) hpast
  rwa [State.setCrew_id] at h

theorem next_poolStartLocked (count : Nat) (hop : c.op ≠ .finalize) :
    Next s c .pool (poolStartLocked s count) := by
  unfold poolStartLocked
  split
  · exact next_same _ fun hfinalize => absurd hfinalize hop
  · rename_i hflag
    split
    · exact next_same _ fun hfinalize => absurd hfinalize hop
    · exact .creating _ _ (fun _ => ⟨rfl, rfl⟩) rfl (Bool.not_eq_true _ ▸ hflag) hop

theorem next_startMonitorLocked (numMonitors : BitVec 32) (total : Nat)
    (hop : c.op ≠ .finalize) :
    Next s c .monitor (startMonitorLocked s numMonitors total) := by
  unfold startMonitorLocked
  split
  · exact next_same _ fun hfinalize => absurd hfinalize hop
  · rename_i hbusy
    simp only [Bool.or_eq_true, not_or, Bool.not_eq_true] at hbusy
    split
    · exact next_same _ fun hfinalize => absurd hfinalize hop
    · exact .creating _ _ (fun _ => ⟨rfl, rfl⟩) rfl hbusy.1 hop

theorem next_joined {after : AfterJoin} (hempty : (s.crews v).threads = [])
    (hfits : AfterJoin.fits v c.op after = true) : Next s c v (joined s v after) := by
  cases after with
  | stopped => exact next_same _ fun _ => .inl hempty
  | startFailed => exact next_same _ fun _ => .inl hempty
  | restart count =>
      simp only [AfterJoin.fits, Bool.and_eq_true, bne_iff_ne, ne_eq, beq_iff_eq] at hfits
      obtain ⟨hop, rfl⟩ := hfits
      change Next s c .pool
        (if count > 0 then poolStartLocked s count else (s, .unlocking .pool .success))
      split
      · exact next_poolStartLocked count hop
      · exact next_same _ fun _ => .inl hempty

theorem Next.after {g : Crew → Crew} (hg : Keeps g) {next : State × Pc}
    (h : Next (s.setCrew v g) c v next) : Next s c v next := by
  have hcompose : ∀ f, Keeps f → Keeps fun crew => f (g crew) := fun f hf crew =>
    ⟨(hf _).1.trans (hg crew).1, (hf _).2.trans (hg crew).2⟩
  cases h with
  | unlocking f result hf hpast =>
      rw [State.setCrew_setCrew]
      rw [State.setCrew_self, (hg _).2] at hpast
      exact .unlocking _ result (hcompose f hf) hpast
  | creating f pc hf hcreates hflag hop =>
      rw [State.setCrew_setCrew]
      exact .creating _ pc (hcompose f hf) hcreates hflag hop
  | joining f after hf hfits =>
      rw [State.setCrew_setCrew]
      exact .joining _ after (hcompose f hf) hfits

theorem next_stopLocked {after : AfterJoin} (hfits : AfterJoin.fits v c.op after = true) :
    Next s c v (stopLocked s v after) := by
  unfold stopLocked
  dsimp only
  split
  · rename_i hnothing
    rw [Bool.and_eq_true, List.isEmpty_iff] at hnothing
    have hempty : (s.crews v).threads = [] := hnothing.2
    apply Next.after (g := fun crew => { crew with size := 0 }) fun _ => ⟨rfl, rfl⟩
    exact next_joined (by rwa [State.setCrew_self]) hfits
  · exact .joining _ after (fun _ => ⟨rfl, rfl⟩) hfits

theorem next_setMaxActiveDpusLocked (concurrency : Nat) (hop : c.op ≠ .finalize) :
    Next s c .pool (setMaxActiveDpusLocked s concurrency) := by
  have hnot : ∀ {P : Prop}, c.op = .finalize → P := fun hfinalize => absurd hfinalize hop
  unfold setMaxActiveDpusLocked
  dsimp only
  split
  · exact next_same _ hnot
  · rename_i hflag
    split
    · exact .unlocking _ _ (fun _ => ⟨rfl, rfl⟩) hnot
    · split
      · exact .unlocking _ _ (fun _ => ⟨rfl, rfl⟩) hnot
      · split
        · have h := Next.creating (v := .pool) (fun crew => crew)
            (.expanding (concurrency - (s.crews .pool).threads.length) concurrency)
            (fun _ => ⟨rfl, rfl⟩) rfl (Bool.not_eq_true _ ▸ hflag) hop
          rwa [State.setCrew_id] at h
        · exact next_stopLocked (by simpa [AfterJoin.fits] using hop)

theorem next_lockedStep (huses : c.op.uses v = true) : Next s c v (lockedStep s c v) := by
  have hstop : ∀ w, v = w → Next s c v
      (if c.currentThreadIn (s.crews w).threads then (s, .unlocking w .busy)
        else stopLocked s w .stopped) := by
    rintro w rfl
    split
    · rename_i hcurrent
      exact next_same _ fun _ => .inr hcurrent
    · exact next_stopLocked rfl
  unfold lockedStep
  cases hop : c.op with
  | startMonitor numMonitors total =>
      rw [hop] at huses
      obtain rfl : v = .monitor := by simpa [Op.uses] using huses
      exact next_startMonitorLocked numMonitors total (by simp [hop])
  | poolStart limit hw =>
      rw [hop] at huses
      obtain rfl : v = .pool := by simpa [Op.uses] using huses
      exact next_poolStartLocked _ (by simp [hop])
  | stopMonitor => exact hstop v rfl
  | poolStop => exact hstop v rfl
  | finalize => exact hstop v rfl
  | setMaxActiveDpus concurrency =>
      rw [hop] at huses
      obtain rfl : v = .pool := by simpa [Op.uses] using huses
      dsimp only
      split
      · exact next_same _ fun hfinalize => by simp [hop] at hfinalize
      · exact next_setMaxActiveDpusLocked concurrency (by simp [hop])

theorem Next.move {i : Nat} {g : Crew → Crew} {next : State × Pc}
    (h : Next (s.setCrew v g) c v next) (hholds : c.pc.holds v = true)
    (huses : c.op.uses v = true) (hmutex : ∀ crew, (g crew).ctlMutex = crew.ctlMutex)
    (hthreads : (g (s.crews v)).threads = (s.crews v).threads ∨
      (g (s.crews v)).threads = [] ∧ ∀ t ∈ (s.crews v).threads, t ∉ s.alive) :
    Move s i c next.1 next.2 := by
  have hkept : ∀ f, Keeps f → (f (g (s.crews v))).threads = (s.crews v).threads ∨
      (f (g (s.crews v))).threads = [] ∧ ∀ t ∈ (s.crews v).threads, t ∉ s.alive := by
    intro f hf
    rwa [(hf _).2]
  have hheld : ∀ f, Keeps f → ∀ crew, (f (g crew)).ctlMutex = crew.ctlMutex :=
    fun f hf crew => (hf _).1.trans (hmutex crew)
  cases h with
  | unlocking f result hf hpast =>
      rw [State.setCrew_setCrew]
      rw [State.setCrew_self] at hpast
      refine .worked v _ _ hholds (by simp [Pc.holds]) (hheld f hf) (hkept f hf)
        (by simp [Pc.creates]) huses fun hop _ => ?_
      rw [(hf _).2]
      obtain hsame | ⟨hempty, -⟩ := hthreads
      · rw [hsame] at hpast ⊢
        exact hpast hop
      · exact .inl hempty
  | creating f pc hf hcreates hflag hop =>
      rw [State.setCrew_setCrew]
      refine .worked v _ _ hholds (Pc.holds_of_creates hcreates) (hheld f hf) (hkept f hf)
        (fun _ => hflag) ?_ fun hfinalize => absurd hfinalize hop
      cases pc <;> simp_all [Pc.creates, Call.shaped]
  | joining f after hf hfits =>
      rw [State.setCrew_setCrew]
      refine .worked v _ _ hholds (by simp [Pc.holds]) (hheld f hf) (hkept f hf)
        (by simp [Pc.creates]) (by simp [Call.shaped, huses, hfits]) fun _ hpast => ?_
      cases v <;> simp [Pc.past] at hpast

theorem callNext_move {next : State × Pc} {i : Nat} {outcome : PimError}
    (hshaped : c.shaped = true) (h : callNext s i c outcome = some next) :
    Move s i c next.1 next.2 := by
  have hworked : ∀ {v : Service} {next : State × Pc}, c.pc.holds v = true →
      c.op.uses v = true → Next s c v next → Move s i c next.1 next.2 := by
    intro v next hholds huses hnext
    apply Next.move (g := fun crew => crew) _ hholds huses (fun _ => rfl) (.inl rfl)
    rwa [State.setCrew_id]
  unfold callNext at h
  cases hpc : c.pc with
  | beginning =>
      simp only [hpc] at h
      split at h
      · cases h
        exact .refused hpc
      · rename_i hflag
        cases h
        exact .begun hpc (Bool.not_eq_true _ ▸ hflag)
  | inspecting v =>
      simp only [hpc] at h
      split at h
      · cases h
      · split at h
        · cases h
          exact .gaveUp .busy (.inr (.inr ⟨v, hpc⟩)) (by decide)
        · rename_i hnot
          rw [Bool.not_eq_true] at hnot
          cases v with
          | monitor =>
              cases h
              exact .inspectedMonitor hpc hnot
          | pool =>
              cases h
              exact .inspectedPool hpc hnot
  | inspectingCallbacks =>
      simp only [hpc] at h
      split at h <;> cases h
      · exact .inspectedCallbacks hpc
      · exact .gaveUp .busy (.inr (.inl hpc)) (by decide)
  | waiting v =>
      simp only [hpc] at h
      split at h
      · cases h
      · rename_i hfree
        cases h
        exact .locked v hpc (by simpa using hfree)
  | locked v =>
      simp only [hpc, Option.some.injEq] at h
      simp only [Call.shaped, hpc] at hshaped
      rw [← h]
      exact hworked (by simp [hpc, Pc.holds]) hshaped (next_lockedStep hshaped)
  | spawning v left =>
      simp only [Call.shaped, hpc, Bool.and_eq_true, bne_iff_ne, ne_eq] at hshaped
      have hholds : c.pc.holds v = true := by simp [hpc, Pc.holds]
      cases left with
      | zero =>
          simp only [hpc] at h
          cases h
          exact hworked hholds hshaped.1 (next_same _ fun hop => absurd hop hshaped.2)
      | succ left =>
          simp only [hpc] at h
          split at h <;> cases h
          · exact .created v _ (by simp [hpc, Pc.creates]) (by simp [Pc.creates])
              (by simp [Call.shaped, hshaped])
          · exact hworked hholds hshaped.1 (.joining _ _ (fun _ => ⟨rfl, rfl⟩)
              (by simp [AfterJoin.fits, hshaped.2]))
  | expanding left target =>
      simp only [Call.shaped, hpc, Bool.and_eq_true, bne_iff_ne, ne_eq] at hshaped
      have hholds : c.pc.holds .pool = true := by simp [hpc, Pc.holds]
      cases left with
      | zero =>
          simp only [hpc] at h
          cases h
          exact hworked hholds hshaped.1
            (.unlocking _ _ (fun _ => ⟨rfl, rfl⟩) fun hop => absurd hop hshaped.2)
      | succ left =>
          simp only [hpc] at h
          split at h <;> cases h
          · exact .created .pool _ (by simp [hpc, Pc.creates]) (by simp [Pc.creates])
              (by simp [Call.shaped, hshaped])
          · exact hworked hholds hshaped.1
              (.unlocking _ _ (fun _ => ⟨rfl, rfl⟩) fun hop => absurd hop hshaped.2)
  | joining v after =>
      simp only [hpc] at h
      simp only [Call.shaped, hpc, Bool.and_eq_true] at hshaped
      split at h
      · cases h
      · rename_i hjoined
        cases h
        refine Next.move (g := fun crew => { crew with threads := [], size := 0 })
          (next_joined (by rw [State.setCrew_self]) hshaped.2) (by simp [hpc, Pc.holds])
          hshaped.1 (fun _ => rfl) (.inr ⟨rfl, fun t ht halive => hjoined ?_⟩)
        exact List.any_eq_true.mpr ⟨t, ht, by simpa using halive⟩
  | unlocking v result =>
      simp only [hpc] at h
      cases h
      exact .left v result hpc
  | disabling =>
      simp only [hpc] at h
      split at h
      · cases h
        exact .disabled hpc
      · rename_i hfails
        cases h
        exact .gaveUp outcome (.inl hpc) hfails
  | deleting =>
      simp only [hpc] at h
      cases h
      exact .deleted hpc
  | returned result =>
      simp only [hpc] at h
      cases h

end

/-- The service has no threads, and no call is about to create one. -/
def State.Quiet (s : State) (v : Service) : Prop :=
  (s.crews v).threads = [] ∧ ∀ c ∈ s.calls, c.pc.creates v = false

structure Inv (s : State) : Prop where
  mutex : ∀ v, Owned (fun c : Call => c.pc.holds v) (s.crews v).ctlMutex s.calls
  flag : ∃ owner, Owned Call.finalizing owner s.calls ∧ s.teardownInProgress = owner.isSome
  shaped : ∀ c ∈ s.calls, c.shaped = true
  kept : ∀ x ∈ s.alive, x ∈ (s.crews x.service).threads
  own : ∀ v, ∀ x ∈ (s.crews v).threads, x.service = v
  calling : ∀ c ∈ s.calls, ∀ x, c.caller = some x → c.pc.returns = false → x ∈ s.alive
  foreign : ∀ c ∈ s.calls, c.op = .finalize → ∀ v, c.pc.inspected v = true →
    ∀ x, c.caller = some x → x.service ≠ v
  past : ∀ c ∈ s.calls, c.finalizing = true → ∀ v, c.pc.past v = true → s.Quiet v
  deleted : s.deleted = true → ∃ c ∈ s.calls, c.finalizing = true ∧ c.pc.returns = true

theorem inv_init : Inv init := by
  refine ⟨fun _ => owned_nil, ⟨none, owned_nil, rfl⟩, ?_, ?_, ?_, ?_, ?_, ?_, ?_⟩ <;> simp [init]

section
variable {s u : State} {i : Nat} {c : Call} {pc : Pc}

theorem Inv.flagged (h : Inv s) (hmem : c ∈ s.calls) (hfinalizing : c.finalizing = true) :
    s.teardownInProgress = true := by
  obtain ⟨owner, howned, hflag⟩ := h.flag
  obtain ⟨j, hj⟩ := List.mem_iff_getElem?.mp hmem
  rw [hflag, (howned.holder j c hj).mp hfinalizing]
  rfl

theorem Call.leave_holds (v w : Service) (result : PimError) :
    (c.leave v result).holds w = false := by
  unfold Call.leave
  split <;> rfl

theorem Move.calls (h : Move s i c u pc) : u.calls = s.calls := by
  cases h <;> rfl

theorem Move.unfinished (h : Move s i c u pc) : c.pc.returns = false := by
  cases h with
  | refused hpc | begun hpc | inspectedMonitor hpc | inspectedPool hpc | inspectedCallbacks hpc
  | locked _ hpc | left _ _ hpc | disabled hpc | deleted hpc => rw [hpc]; rfl
  | gaveUp _ hpc => rcases hpc with hpc | hpc | ⟨w, hpc⟩ <;> rw [hpc] <;> rfl
  | worked v _ _ hbefore => exact Pc.unfinished_of_holds hbefore
  | created v _ hbefore => exact Pc.unfinished_of_holds (Pc.holds_of_creates hbefore)

theorem Call.op_of_shaped (hshaped : c.shaped = true)
    (hpc : c.pc = .beginning ∨ c.pc = .inspectingCallbacks ∨ c.pc = .disabling ∨
      c.pc = .deleting ∨ ∃ v, c.pc = .inspecting v) : c.op = .finalize := by
  unfold Call.shaped at hshaped
  rcases hpc with hpc | hpc | hpc | hpc | ⟨v, hpc⟩ <;> simpa [hpc] using hshaped

theorem Call.not_finalize_of_creates {v : Service} (hshaped : c.shaped = true)
    (hcreates : c.pc.creates v = true) : c.op ≠ .finalize := by
  unfold Call.shaped at hshaped
  cases hpc : c.pc <;> simp_all [Pc.creates]

theorem Move.mutex (h : Move s i c u pc) (hi : s.calls[i]? = some c) (v : Service)
    (hmutex : Owned (fun c : Call => c.pc.holds v) (s.crews v).ctlMutex s.calls) :
    Owned (fun c : Call => c.pc.holds v) (u.crews v).ctlMutex
      (s.calls.set i { c with pc := pc }) := by
  have hquiet : c.pc.holds v = false → pc.holds v = false →
      Owned (fun c : Call => c.pc.holds v) (s.crews v).ctlMutex
        (s.calls.set i { c with pc := pc }) := fun hbefore hafter =>
    hmutex.keep hi (hafter.trans hbefore.symm)
  cases h with
  | refused hpc => exact hquiet (by simp [hpc, Pc.holds]) rfl
  | begun hpc => exact hquiet (by simp [hpc, Pc.holds]) rfl
  | gaveUp result hpc =>
      apply hquiet _ rfl
      rcases hpc with hpc | hpc | ⟨w, hpc⟩ <;> simp [hpc, Pc.holds]
  | inspectedMonitor hpc => exact hquiet (by simp [hpc, Pc.holds]) rfl
  | inspectedPool hpc => exact hquiet (by simp [hpc, Pc.holds]) rfl
  | inspectedCallbacks hpc => exact hquiet (by simp [hpc, Pc.holds]) rfl
  | locked w hpc hfree =>
      by_cases hw : v = w
      · subst hw
        rw [State.setCrew_self]
        rw [hfree] at hmutex
        exact hmutex.acquire hi (by simp [Pc.holds])
      · rw [State.setCrew_other _ _ hw]
        exact hquiet (by simp [hpc, Pc.holds]) (by simpa [Pc.holds] using Ne.symm hw)
  | worked w f pc hbefore hafter hheld =>
      have hsame : ((s.setCrew w f).crews v).ctlMutex = (s.crews v).ctlMutex := by
        by_cases hw : v = w
        · rw [hw, State.setCrew_self, hheld]
        · rw [State.setCrew_other _ _ hw]
      rw [hsame]
      exact hmutex.keep hi ((Pc.holds_eq hafter v).trans (Pc.holds_eq hbefore v).symm)
  | created w pc hbefore hafter =>
      have hsame : ((s.spawn w).crews v).ctlMutex = (s.crews v).ctlMutex := by
        by_cases hw : v = w
        · simp [State.spawn, State.setCrew, hw]
        · simp [State.spawn, State.setCrew, hw]
      rw [hsame]
      exact hmutex.keep hi ((Pc.holds_eq (Pc.holds_of_creates hafter) v).trans
        (Pc.holds_eq (Pc.holds_of_creates hbefore) v).symm)
  | left w result hpc =>
      by_cases hw : v = w
      · subst hw
        rw [State.setCrew_self]
        exact hmutex.release hi (by simp [hpc, Pc.holds]) (Call.leave_holds _ _ _)
      · rw [State.setCrew_other _ _ hw]
        exact hquiet (by simpa [hpc, Pc.holds] using Ne.symm hw) (Call.leave_holds _ _ _)
  | disabled hpc => exact hquiet (by simp [hpc, Pc.holds]) rfl
  | deleted hpc => exact hquiet (by simp [hpc, Pc.holds]) rfl

theorem Call.finalizing_keep (hbefore : c.pc.flagged = true) (hafter : pc.flagged = true) :
    Call.finalizing { c with pc := pc } = c.finalizing := by
  unfold Call.finalizing
  rw [hbefore, hafter]

theorem Call.finalizing_leave {v : Service} {result : PimError}
    (hpc : c.pc = .unlocking v result) :
    Call.finalizing { c with pc := c.leave v result } = c.finalizing := by
  unfold Call.finalizing Call.leave
  cases c.op <;> cases v <;> simp [hpc, Pc.flagged]

theorem Move.flag (h : Move s i c u pc) (hi : s.calls[i]? = some c) (hshaped : c.shaped = true)
    (hflag : ∃ owner, Owned Call.finalizing owner s.calls ∧
      s.teardownInProgress = owner.isSome) :
    ∃ owner, Owned Call.finalizing owner (s.calls.set i { c with pc := pc }) ∧
      u.teardownInProgress = owner.isSome := by
  obtain ⟨owner, howned, hset⟩ := hflag
  have hquiet : u.teardownInProgress = s.teardownInProgress →
      Call.finalizing { c with pc := pc } = c.finalizing →
      ∃ owner, Owned Call.finalizing owner (s.calls.set i { c with pc := pc }) ∧
        u.teardownInProgress = owner.isSome := fun hsame hfinalizing =>
    ⟨owner, howned.keep hi hfinalizing, hsame.trans hset⟩
  cases h with
  | refused hpc => exact hquiet rfl (by simp [Call.finalizing, hpc, Pc.flagged])
  | begun hpc hfree =>
      have hnone : owner = none := by
        rw [hset] at hfree
        exact Option.not_isSome_iff_eq_none.mp (Bool.not_eq_true _ ▸ hfree)
      subst hnone
      refine ⟨some i, howned.acquire hi ?_, rfl⟩
      simp [Call.finalizing, Call.op_of_shaped hshaped (.inl hpc), Pc.flagged]
  | gaveUp result hpc hresult =>
      refine ⟨none, howned.release hi ?_ ?_, rfl⟩
      · have hop : c.op = .finalize := Call.op_of_shaped hshaped (by tauto)
        rcases hpc with hpc | hpc | ⟨w, hpc⟩ <;> simp [Call.finalizing, hop, hpc, Pc.flagged]
      · simp [Call.finalizing, Pc.flagged, hresult]
  | inspectedMonitor hpc | inspectedPool hpc | inspectedCallbacks hpc | locked _ hpc
  | disabled hpc | deleted hpc =>
      exact hquiet rfl (Call.finalizing_keep (by rw [hpc]; rfl) rfl)
  | worked v f pc hbefore hafter =>
      exact hquiet rfl (Call.finalizing_keep (Pc.flagged_of_holds hbefore)
        (Pc.flagged_of_holds hafter))
  | created v pc hbefore hafter =>
      exact hquiet rfl (Call.finalizing_keep (Pc.flagged_of_holds (Pc.holds_of_creates hbefore))
        (Pc.flagged_of_holds (Pc.holds_of_creates hafter)))
  | left v result hpc => exact hquiet rfl (Call.finalizing_leave hpc)

theorem Move.shaped (h : Move s i c u pc) (hshaped : c.shaped = true) :
    Call.shaped { c with pc := pc } = true := by
  cases h with
  | refused _ | gaveUp _ _ _ | deleted _ => rfl
  | begun hpc _ => simp [Call.shaped, Call.op_of_shaped hshaped (.inl hpc)]
  | inspectedMonitor hpc _ | inspectedPool hpc _ =>
      simp [Call.shaped, Call.op_of_shaped hshaped (.inr (.inr (.inr (.inr ⟨_, hpc⟩))))]
  | inspectedCallbacks hpc =>
      simp [Call.shaped, Op.uses, Call.op_of_shaped hshaped (.inr (.inl hpc))]
  | locked v hpc => simpa [Call.shaped, hpc] using hshaped
  | worked _ _ _ _ _ _ _ _ hafter _ => exact hafter
  | created _ _ _ _ hafter => exact hafter
  | left v result hpc =>
      unfold Call.leave
      cases c.op <;> cases v <;> simp [Call.shaped, Op.uses]
  | disabled hpc => simp [Call.shaped, Call.op_of_shaped hshaped (.inr (.inr (.inl hpc)))]

theorem State.setCrew_threads (s : State) (v w : Service) (f : Crew → Crew)
    (h : (f (s.crews v)).threads = (s.crews v).threads) :
    ((s.setCrew v f).crews w).threads = (s.crews w).threads := by
  by_cases hw : w = v
  · rw [hw, State.setCrew_self, h]
  · rw [State.setCrew_other _ _ hw]

theorem State.spawn_threads (s : State) (v w : Service) :
    ((s.spawn v).crews w).threads =
      if w = v then (s.crews w).threads ++ [⟨v, s.created⟩] else (s.crews w).threads := by
  by_cases hw : w = v <;> simp [State.spawn, State.setCrew, hw]

theorem Move.threads (h : Move s i c u pc) (w : Service) :
    (u.crews w).threads = (s.crews w).threads ∨
      ((u.crews w).threads = [] ∧ ∀ x ∈ (s.crews w).threads, x ∉ u.alive) ∨
      (c.pc.creates w = true ∧ (u.crews w).threads = (s.crews w).threads ++ [⟨w, s.created⟩]) := by
  cases h with
  | refused | begun | gaveUp | inspectedMonitor | inspectedPool | inspectedCallbacks | disabled
  | deleted => exact .inl rfl
  | locked v | left v => exact .inl (State.setCrew_threads s v w _ rfl)
  | worked v f _ _ _ _ hthreads =>
      rcases hthreads with hsame | ⟨hempty, hjoined⟩
      · exact .inl (State.setCrew_threads s v w f hsame)
      · by_cases hw : w = v
        · subst hw
          exact .inr (.inl ⟨by rw [State.setCrew_self, hempty], hjoined⟩)
        · exact .inl (by rw [State.setCrew_other _ _ hw])
  | created v _ hbefore =>
      rw [State.spawn_threads]
      by_cases hw : w = v
      · subst hw
        exact .inr (.inr ⟨hbefore, if_pos rfl⟩)
      · exact .inl (if_neg hw)

theorem Move.alive (h : Move s i c u pc) : u.alive = s.alive ∨
    ∃ v, u.alive = s.alive ++ [⟨v, s.created⟩] ∧
      (u.crews v).threads = (s.crews v).threads ++ [⟨v, s.created⟩] := by
  cases h with
  | created v => exact .inr ⟨v, rfl, by rw [State.spawn_threads, if_pos rfl]⟩
  | _ => exact .inl rfl

theorem Move.mem_alive (h : Move s i c u pc) {x : Thread} (hx : x ∈ s.alive) : x ∈ u.alive := by
  rcases h.alive with hsame | ⟨v, hgrown, -⟩
  · rwa [hsame]
  · rw [hgrown]
    exact List.mem_append_left _ hx

theorem Move.kept (h : Move s i c u pc)
    (hkept : ∀ x ∈ s.alive, x ∈ (s.crews x.service).threads) :
    ∀ x ∈ u.alive, x ∈ (u.crews x.service).threads := by
  intro x hx
  have hold : x ∈ s.alive → x ∈ (u.crews x.service).threads := by
    intro hmem
    rcases h.threads x.service with hsame | ⟨-, hjoined⟩ | ⟨-, hgrown⟩
    · rw [hsame]
      exact hkept x hmem
    · exact absurd hx (hjoined x (hkept x hmem))
    · rw [hgrown]
      exact List.mem_append_left _ (hkept x hmem)
  rcases h.alive with hsame | ⟨v, hgrown, hthreads⟩
  · exact hold (hsame ▸ hx)
  · rw [hgrown] at hx
    rcases List.mem_append.mp hx with hmem | hnew
    · exact hold hmem
    · obtain rfl := List.mem_singleton.mp hnew
      rw [hthreads]
      exact List.mem_append_right _ hnew

theorem Move.own (h : Move s i c u pc)
    (hown : ∀ v, ∀ x ∈ (s.crews v).threads, x.service = v) :
    ∀ v, ∀ x ∈ (u.crews v).threads, x.service = v := by
  intro v x hx
  rcases h.threads v with hsame | ⟨hempty, -⟩ | ⟨-, hgrown⟩
  · exact hown v x (hsame ▸ hx)
  · rw [hempty] at hx
    cases hx
  · rw [hgrown] at hx
    rcases List.mem_append.mp hx with hold | hnew
    · exact hown v x hold
    · rw [List.mem_singleton.mp hnew]

theorem Inv.current (h : Inv s) (hmem : c ∈ s.calls) (hreturns : c.pc.returns = false)
    {x : Thread} (hx : c.caller = some x) :
    c.currentThreadIn (s.crews x.service).threads = true := by
  have hthread := h.kept x (h.calling c hmem x hx hreturns)
  simp [Call.currentThreadIn, hx, hthread]

theorem Inv.not_current (h : Inv s) (hmem : c ∈ s.calls) (hop : c.op = .finalize) {v : Service}
    (hinspected : c.pc.inspected v = true) :
    c.currentThreadIn (s.crews v).threads = false := by
  rw [Bool.eq_false_iff]
  intro hcurrent
  obtain ⟨x, hx, hthread⟩ := (Option.any_eq_true _ _).mp hcurrent
  have hv := h.own v x (by simpa using hthread)
  exact h.foreign c hmem hop v hinspected x hx hv

theorem Move.foreign (h : Move s i c u pc) (hinv : Inv s) (hmem : c ∈ s.calls)
    (hop : c.op = .finalize) {v : Service} (hinspected : pc.inspected v = true) {x : Thread}
    (hx : c.caller = some x) : x.service ≠ v := by
  have hbefore : c.pc.inspected v = true → x.service ≠ v :=
    fun hv => hinv.foreign c hmem hop v hv x hx
  have hthread : c.currentThreadIn (s.crews v).threads = false → x.service ≠ v := by
    rintro hnot rfl
    rw [hinv.current hmem h.unfinished hx] at hnot
    cases hnot
  cases h with
  | refused => cases hinspected
  | begun => cases hinspected
  | gaveUp result hpc hresult => exact absurd (by simpa [Pc.inspected] using hinspected) hresult
  | inspectedMonitor hpc hnot =>
      obtain rfl : v = .monitor := by simpa [Pc.inspected] using hinspected
      exact hthread hnot
  | inspectedPool hpc hnot =>
      cases v with
      | monitor => exact hbefore (by rw [hpc]; rfl)
      | pool => exact hthread hnot
  | inspectedCallbacks hpc | locked _ hpc | left _ _ hpc | disabled hpc | deleted hpc =>
      exact hbefore (by rw [hpc]; rfl)
  | worked _ _ _ hholds => exact hbefore (Pc.inspected_of_holds hholds v)
  | created _ _ hcreates =>
      exact hbefore (Pc.inspected_of_holds (Pc.holds_of_creates hcreates) v)

/-- A call starts to create threads only while there is no teardown. -/
theorem Move.creates (h : Move s i c u pc) {v : Service} (hpc : pc.creates v = true) :
    c.pc.creates v = true ∨ s.teardownInProgress = false := by
  cases h with
  | worked w f pc hbefore hafter _ _ hcreates =>
      have hw : w = v := by simpa [Pc.holds_eq hafter] using Pc.holds_of_creates hpc
      exact .inr (hcreates (hw ▸ hpc))
  | created w pc hbefore hafter =>
      have hw : w = v := by
        simpa [Pc.holds_eq (Pc.holds_of_creates hafter)] using Pc.holds_of_creates hpc
      exact .inl (hw ▸ hbefore)
  | left w result =>
      unfold Call.leave at hpc
      split at hpc <;> cases hpc
  | _ => cases hpc

theorem Move.quiet (h : Move s i c u pc) (hmem : c ∈ s.calls) {v : Service} (hquiet : s.Quiet v)
    (hflag : s.teardownInProgress = true) :
    State.Quiet { u with calls := s.calls.set i { c with pc := pc } } v := by
  obtain ⟨hthreads, hcreates⟩ := hquiet
  have hnot := hcreates c hmem
  refine ⟨?_, forall_mem_set hcreates ?_⟩
  · rcases h.threads v with hsame | ⟨hempty, -⟩ | ⟨hgrows, -⟩
    · exact hsame.trans hthreads
    · exact hempty
    · rw [hnot] at hgrows
      cases hgrows
  · rw [Bool.eq_false_iff]
    intro hpc
    rcases h.creates hpc with hgrows | hfree
    · rw [hnot] at hgrows
      cases hgrows
    · rw [hflag] at hfree
      cases hfree

theorem Inv.not_creates (h : Inv s) (hi : s.calls[i]? = some c) (hop : c.op = .finalize)
    {v : Service} (hholds : c.pc.holds v = true) : ∀ d ∈ s.calls, d.pc.creates v = false := by
  intro d hd
  rw [Bool.eq_false_iff]
  intro hcreates
  obtain ⟨j, hj⟩ := List.mem_iff_getElem?.mp hd
  obtain rfl := (h.mutex v).unique hi hj hholds (Pc.holds_of_creates hcreates)
  obtain rfl := Option.some.inj (hi.symm.trans hj)
  exact Call.not_finalize_of_creates (h.shaped c hd) hcreates hop

theorem Call.past_of_leave {v w : Service} {result : PimError} (hop : c.op = .finalize)
    (h : (c.leave v result).past w = true) : (Pc.unlocking v result).past w = true := by
  unfold Call.leave at h
  rw [hop] at h
  cases v <;> cases w <;> simp_all [Pc.past]

theorem Move.past (h : Move s i c u pc) (hinv : Inv s) (hi : s.calls[i]? = some c)
    (hfinalizing : Call.finalizing { c with pc := pc } = true) {v : Service}
    (hpast : pc.past v = true) :
    State.Quiet { u with calls := s.calls.set i { c with pc := pc } } v := by
  have hmem : c ∈ s.calls := List.mem_of_getElem? hi
  rw [Call.finalizing, Bool.and_eq_true, beq_iff_eq] at hfinalizing
  obtain ⟨hop, hflagged⟩ := hfinalizing
  change c.op = .finalize at hop
  have hkeep : c.pc.flagged = true → c.pc.past v = true →
      State.Quiet { u with calls := s.calls.set i { c with pc := pc } } v := by
    intro hbegun hbefore
    have hself : c.finalizing = true := by simp [Call.finalizing, hop, hbegun]
    exact h.quiet hmem (hinv.past c hmem hself v hbefore) (hinv.flagged hmem hself)
  cases h with
  | refused => cases hflagged
  | begun => cases hpast
  | gaveUp result hpc hresult => exact absurd (by simpa [Pc.flagged] using hflagged) hresult
  | inspectedMonitor => cases hpast
  | inspectedPool => cases hpast
  | inspectedCallbacks => cases hpast
  | locked w hpc => exact hkeep (by rw [hpc]; rfl) (by rw [hpc]; exact hpast)
  | left w result hpc =>
      exact hkeep (by rw [hpc]; rfl) (by rw [hpc]; exact Call.past_of_leave hop hpast)
  | disabled hpc | deleted hpc => exact hkeep (by rw [hpc]; rfl) (by rw [hpc]; rfl)
  | created w pc hbefore =>
      exact absurd hop (Call.not_finalize_of_creates (hinv.shaped c hmem) hbefore)
  | worked w f pc hbefore hafter _ _ _ _ hover =>
      by_cases hw : v = w
      · subst hw
        refine ⟨?_, forall_mem_set (hinv.not_creates hi hop hbefore)
          (Pc.not_creates_of_past hpast v)⟩
        rcases hover hop hpast with hempty | hcurrent
        · simpa using hempty
        · rw [hinv.not_current hmem hop (Pc.inspected_of_holds hbefore v)] at hcurrent
          cases hcurrent
      · apply hkeep (Pc.flagged_of_holds hbefore)
        rw [Pc.past_other hbefore (hinv.not_creates hi hop hbefore c hmem) hw]
        rwa [Pc.past_other hafter (Pc.not_creates_of_past hpast w) hw] at hpast

theorem Move.from_deleting (h : Move s i c u pc) (hlive : s.deleted = false)
    (hdeleted : u.deleted = true) : c.pc = .deleting ∧ pc = .returned .success := by
  cases h with
  | deleted hpc => exact ⟨hpc, rfl⟩
  | _ =>
      exfalso
      exact Bool.false_ne_true (hlive.symm.trans hdeleted)

theorem Inv.move (hinv : Inv s) (hlive : s.deleted = false) (hi : s.calls[i]? = some c)
    (h : Move s i c u pc) : Inv { u with calls := s.calls.set i { c with pc := pc } } := by
  have hmem : c ∈ s.calls := List.mem_of_getElem? hi
  have hshaped := hinv.shaped c hmem
  refine ⟨?_, ?_, ?_, ?_, ?_, ?_, ?_, ?_, ?_⟩
  · exact fun v => h.mutex hi v (hinv.mutex v)
  · exact h.flag hi hshaped hinv.flag
  · exact forall_mem_set hinv.shaped (h.shaped hshaped)
  · exact h.kept hinv.kept
  · exact h.own hinv.own
  · apply forall_mem_set
    · exact fun d hd x hx hreturns => h.mem_alive (hinv.calling d hd x hx hreturns)
    · exact fun x hx _ => h.mem_alive (hinv.calling c hmem x hx h.unfinished)
  · apply forall_mem_set hinv.foreign
    exact fun hop v hinspected x hx => h.foreign hinv hmem hop hinspected hx
  · apply forall_mem_set
    · intro d hd hfinalizing v hpast
      exact h.quiet hmem (hinv.past d hd hfinalizing v hpast) (hinv.flagged hd hfinalizing)
    · exact fun hfinalizing v hpast => h.past hinv hi hfinalizing hpast
  · intro hdeleted
    obtain ⟨hpc, rfl⟩ := h.from_deleting hlive hdeleted
    refine ⟨_, mem_set_moved hi, ?_, rfl⟩
    have hop := Call.op_of_shaped hshaped (.inr (.inr (.inr (.inl hpc))))
    simp [Call.finalizing, hop, Pc.flagged]

theorem Inv.callStep (hinv : Inv s) (hlive : s.deleted = false) (hi : s.calls[i]? = some c)
    {outcome : PimError} {t : State} (h : callStep s i c outcome = some t) : Inv t := by
  obtain ⟨next, hnext, rfl⟩ := Option.map_eq_some_iff.mp h
  have hmove := callNext_move (hinv.shaped c (List.mem_of_getElem? hi)) hnext
  rw [hmove.calls]
  exact hinv.move hlive hi hmove

/-- A thread that has no unfinished call, or none of the device, makes a call. -/
theorem Inv.call (hinv : Inv s) {caller : Option Thread} (op : Op)
    (hidle : caller.all s.idle = true) :
    Inv { s with calls := s.calls ++ [⟨caller, op, op.start⟩] } := by
  have hfinalizing : Call.finalizing ⟨caller, op, op.start⟩ = false := by cases op <;> rfl
  have hcreates : ∀ v, op.start.creates v = false := fun v => by cases op <;> rfl
  have hquiet : ∀ v, s.Quiet v →
      State.Quiet { s with calls := s.calls ++ [⟨caller, op, op.start⟩] } v := fun v hv =>
    ⟨hv.1, forall_mem_push hv.2 (hcreates v)⟩
  refine ⟨?_, ?_, ?_, hinv.kept, hinv.own, ?_, ?_, ?_, ?_⟩
  · exact fun v => (hinv.mutex v).push (by cases op <;> rfl)
  · obtain ⟨owner, howned, hflag⟩ := hinv.flag
    exact ⟨owner, howned.push hfinalizing, hflag⟩
  · exact forall_mem_push hinv.shaped (by cases op <;> rfl)
  · apply forall_mem_push hinv.calling
    rintro x hx -
    obtain rfl : caller = some x := hx
    rw [Option.all_some, State.idle, Bool.and_eq_true] at hidle
    simpa using hidle.1
  · apply forall_mem_push hinv.foreign
    rintro rfl v hinspected
    cases hinspected
  · apply forall_mem_push
    · exact fun d hd hd' v hpast => hquiet v (hinv.past d hd hd' v hpast)
    · intro hnever
      rw [hfinalizing] at hnever
      cases hnever
  · intro hdeleted
    obtain ⟨d, hd, hd'⟩ := hinv.deleted hdeleted
    exact ⟨d, List.mem_append_left _ hd, hd'⟩

theorem Inv.end (hinv : Inv s) {x : Thread} (hidle : s.idle x = true) : Inv (s.end x) := by
  refine ⟨hinv.mutex, hinv.flag, hinv.shaped, ?_, hinv.own, ?_, hinv.foreign, hinv.past,
    hinv.deleted⟩
  · exact fun y hy => hinv.kept y (List.mem_of_mem_filter hy)
  · intro c hc y hy hreturns
    refine List.mem_filter.mpr ⟨hinv.calling c hc y hy hreturns, ?_⟩
    rw [State.idle, Bool.and_eq_true, List.all_eq_true] at hidle
    have hc' := hidle.2 c hc
    rw [hreturns, Bool.or_false, bne_iff_ne, hy] at hc'
    simpa using hc'

theorem Inv.stop (hinv : Inv s) (v : Service) :
    Inv (s.setCrew v fun crew => { crew with running := false }) := by
  have hcrew (w : Service) : ((s.setCrew v fun crew => { crew with running := false }).crews
      w).threads = (s.crews w).threads := State.setCrew_threads s v w _ rfl
  refine ⟨?_, hinv.flag, hinv.shaped, ?_, ?_, hinv.calling, hinv.foreign, ?_, hinv.deleted⟩
  · intro w
    have hmutex : ((s.setCrew v fun crew => { crew with running := false }).crews w).ctlMutex =
        (s.crews w).ctlMutex := by
      by_cases hw : w = v <;> simp [State.setCrew, hw]
    rw [hmutex]
    exact hinv.mutex w
  · intro x hx
    rw [hcrew]
    exact hinv.kept x hx
  · intro w x hx
    rw [hcrew] at hx
    exact hinv.own w x hx
  · intro c hc hfinalizing w hpast
    exact ⟨(hcrew w).trans (hinv.past c hc hfinalizing w hpast).1,
      (hinv.past c hc hfinalizing w hpast).2⟩

theorem inv_step (s : State) (action : Action) (t : State) (hinv : Inv s)
    (h : step s action = some t) : Inv t := by
  unfold step at h
  split at h
  · cases h
  · rename_i hlive
    rw [Bool.not_eq_true] at hlive
    cases action with
    | call caller op =>
        obtain ⟨hidle, h⟩ := Option.ite_none_right_eq_some.mp h
        cases h
        exact hinv.call op hidle
    | advance index outcome =>
        obtain ⟨c, hi, hstep⟩ := Option.bind_eq_some_iff.mp h
        exact hinv.callStep hlive hi hstep
    | throw x =>
        obtain ⟨hidle, h⟩ := Option.ite_none_right_eq_some.mp h
        cases h
        rw [Bool.and_eq_true] at hidle
        exact (hinv.stop .monitor).end hidle.1
    | exit x =>
        obtain ⟨hidle, h⟩ := Option.ite_none_right_eq_some.mp h
        cases h
        rw [Bool.and_eq_true] at hidle
        exact hinv.end hidle.1
    | setSigsegvTransition value =>
        cases h
        exact ⟨hinv.mutex, hinv.flag, hinv.shaped, hinv.kept, hinv.own, hinv.calling,
          hinv.foreign, hinv.past, hinv.deleted⟩

/-- No thread of the device runs or will, and none is in the middle of a call. -/
structure State.Still (s : State) : Prop where
  alive : s.alive = []
  quiet : ∀ v, s.Quiet v
  calls : ∀ c ∈ s.calls, c.caller.isSome = true → c.pc.returns = true

theorem Inv.still (h : Inv s) (hquiet : ∀ v, s.Quiet v) : s.Still := by
  have halive : s.alive = [] := by
    rw [List.eq_nil_iff_forall_not_mem]
    intro x hx
    have hlisted := h.kept x hx
    rw [(hquiet x.service).1] at hlisted
    cases hlisted
  refine ⟨halive, hquiet, fun c hc hcaller => ?_⟩
  obtain ⟨x, hx⟩ := Option.isSome_iff_exists.mp hcaller
  by_contra hreturns
  have hthread := h.calling c hc x hx (Bool.not_eq_true _ ▸ hreturns)
  rw [halive] at hthread
  cases hthread

theorem Inv.refused (h : Inv s) (hmem : c ∈ s.calls) (hop : c.op = .finalize) {x : Thread}
    (hx : c.caller = some x) : c.pc = .beginning ∨ (∃ v, c.pc = .inspecting v) ∨
      ∃ result, c.pc = .returned result ∧ result ≠ .success := by
  have hnot : ¬c.pc.inspected x.service = true := fun hinspected =>
    h.foreign c hmem hop x.service hinspected x hx rfl
  cases hpc : c.pc with
  | beginning => exact .inl rfl
  | inspecting v => exact .inr (.inl ⟨v, rfl⟩)
  | returned result =>
      refine .inr (.inr ⟨result, rfl, ?_⟩)
      rintro rfl
      exact hnot (by rw [hpc]; rfl)
  | _ => exact absurd (by rw [hpc]; rfl) hnot

theorem Inv.flag_iff (h : Inv s) :
    s.teardownInProgress = true ↔ ∃ c ∈ s.calls, c.finalizing = true := by
  constructor
  · intro hset
    obtain ⟨owner, howned, hflag⟩ := h.flag
    rw [hflag] at hset
    obtain ⟨j, hj⟩ := Option.isSome_iff_exists.mp hset
    obtain ⟨c, hc, hfinalizing⟩ := howned.exists_holder hj
    exact ⟨c, List.mem_of_getElem? hc, hfinalizing⟩
  · rintro ⟨c, hc, hfinalizing⟩
    exact h.flagged hc hfinalizing

theorem Inv.finalizing_unique (h : Inv s) {j : Nat} {d : Call} (hi : s.calls[i]? = some c)
    (hj : s.calls[j]? = some d) (hc : c.finalizing = true) (hd : d.finalizing = true) : i = j := by
  obtain ⟨owner, howned, -⟩ := h.flag
  exact howned.unique hi hj hc hd

end

theorem device_still_when_torn_down {actions : List Action} {s : State}
    (hrun : run step init actions = some s) :
    (∀ x ∈ s.alive, x ∈ (s.crews x.service).threads) ∧
      (s.teardownInProgress = true ↔ ∃ c ∈ s.calls, c.finalizing = true) ∧
      (∀ (i j : Nat) (c d : Call), s.calls[i]? = some c → s.calls[j]? = some d →
        c.finalizing = true → d.finalizing = true → i = j) ∧
      (∀ c ∈ s.calls, c.op = .finalize → ∀ x, c.caller = some x →
        c.pc = .beginning ∨ (∃ v, c.pc = .inspecting v) ∨
          ∃ result, c.pc = .returned result ∧ result ≠ .success) ∧
      (∀ c ∈ s.calls, c.pc = .disabling ∨ c.pc = .deleting → s.Still) ∧
      (s.deleted = true → s.Still) := by
  have hinv : Inv s := run_invariant inv_step inv_init hrun
  refine ⟨hinv.kept, hinv.flag_iff, fun i j c d hi hj hc hd => hinv.finalizing_unique hi hj hc hd,
    fun c hc hop x hx => hinv.refused hc hop hx, fun c hc hpc => ?_, fun hdeleted => ?_⟩
  · have hop : c.op = .finalize := Call.op_of_shaped (hinv.shaped c hc) (by tauto)
    refine hinv.still fun v => hinv.past c hc ?_ v ?_
    · rcases hpc with hpc | hpc <;> simp [Call.finalizing, hop, hpc, Pc.flagged]
    · rcases hpc with hpc | hpc <;> rw [hpc] <;> rfl
  · obtain ⟨c, hc, hfinalizing, hreturns⟩ := hinv.deleted hdeleted
    refine hinv.still fun v => hinv.past c hc hfinalizing v ?_
    cases hpc : c.pc with
    | returned result => rfl
    | _ =>
        rw [hpc] at hreturns
        cases hreturns

def advances (index n : Nat) : List Action := List.replicate n (.advance index .success)

/-- A worker of the pool tries to tear the device down, and then another thread does. -/
def teardownActions : List Action :=
  .call none (.poolStart 1 1) :: (advances 0 5 ++
    .call (some ⟨.pool, 0⟩) .finalize :: (advances 1 3 ++
      .call none .finalize :: (advances 2 10 ++ .exit ⟨.pool, 0⟩ :: advances 2 4)))

theorem device_still_when_torn_down_by_other :
    ∃ t, run step init teardownActions = some t ∧ t.deleted = true ∧ t.Still := by
  obtain ⟨t, hrun, hdeleted⟩ : ∃ t, run step init teardownActions = some t ∧ t.deleted = true :=
    exists_run (by decide +kernel)
  exact ⟨t, hrun, hdeleted, (device_still_when_torn_down hrun).2.2.2.2.2 hdeleted⟩

end HostPimSim.Core.Services
