import HostPimSim.Core.Monitor

/-! Values the scan hands out, against the contents the register has had under
stores by another process. -/
namespace HostPimSim.Core.Monitor
open Register Transition

/-- A step of the scan thread or a store by another process. -/
def Action.outOfProcess : Action → Bool
  | .scan | .externalWrite _ => true
  | .pimWrite _ _ | .resume _ => false

/-- When an external write leaves a running sample whole: the bytes still to be
loaded do not change, or the loaded ones are those of the new content too. -/
def WholeSample (registerSize : RegisterSize) (s : State) : Action → Prop
  | .scan => True
  | .externalWrite value =>
      match s.monitor with
      | .sampling _ index loaded =>
          (∀ i < registerSize.val, index ≤ i →
            store s.bytes registerSize.val value i = s.bytes i) ∨
          loadBytes (store s.bytes registerSize.val value) index = loaded
      | .idle | .rechecked _ | .pending _ => True
  | .pimWrite _ _ | .resume _ => False

instance (registerSize : RegisterSize) (s : State) :
    ∀ action, Decidable (WholeSample registerSize s action)
  | .scan => isTrue trivial
  | .externalWrite value =>
      match hmonitor : s.monitor with
      | .sampling _ index loaded =>
          decidable_of_iff
            ((∀ i < registerSize.val, index ≤ i →
              store s.bytes registerSize.val value i = s.bytes i) ∨
            loadBytes (store s.bytes registerSize.val value) index = loaded)
            (by simp [WholeSample, hmonitor])
      | .idle | .rechecked _ | .pending _ => isTrue (by simp [WholeSample, hmonitor])
  | .pimWrite _ _ | .resume _ => isFalse id

def SampleFacts (registerSize : RegisterSize) (s : State) : Prop :=
  match s.monitor with
  | .idle => True
  | .sampling _ index loaded =>
      index ≤ registerSize.val ∧ ∃ content ∈ s.held, loaded = loadBytes content index ∧
        ∀ i < registerSize.val, index ≤ i → s.bytes i = content i
  | .rechecked value | .pending value =>
      ∃ content ∈ s.held, value = loadBytes content registerSize.val

structure Untorn (registerSize : RegisterSize) (s : State) : Prop where
  current : s.bytes ∈ s.held
  sample : SampleFacts registerSize s
  dispatched : ∀ value ∈ s.invocations,
    ∃ content ∈ s.held, value = loadBytes content registerSize.val

theorem untorn_scan {registerSize : RegisterSize} {s : State}
    (h : Untorn registerSize s) : Untorn registerSize (scanStep registerSize s) := by
  obtain ⟨hcurrent, hsample, hdispatched⟩ := h
  unfold scanStep
  unfold SampleFacts at hsample
  cases hmonitor : s.monitor with
  | idle =>
      dsimp only
      split
      · exact ⟨hcurrent, by simp [SampleFacts, hmonitor], hdispatched⟩
      · exact ⟨hcurrent, ⟨Nat.zero_le _, s.bytes, hcurrent, rfl, fun _ _ _ => rfl⟩,
          hdispatched⟩
  | sampling seqBefore index loaded =>
      simp only [hmonitor] at hsample
      obtain ⟨hindex, content, hheld, hloaded, hrest⟩ := hsample
      by_cases hmore : index < registerSize.val
      · simp only [hmore, if_true]
        refine ⟨hcurrent, ⟨hmore, content, hheld, ?_, ?_⟩, hdispatched⟩
        · rw [loadBytes, hloaded, hrest index hmore le_rfl]
        · exact fun i hi hnext => hrest i hi (by omega)
      · have hend : index = registerSize.val := by omega
        simp only [hmore, if_false]
        split
        · exact ⟨hcurrent, trivial, hdispatched⟩
        · exact ⟨hcurrent, ⟨content, hheld, hend ▸ hloaded⟩, hdispatched⟩
  | rechecked loaded =>
      simp only [hmonitor] at hsample
      by_cases hchanged : (s.lastValue != loaded) = true
      · simp only [hchanged, if_true]
        exact ⟨hcurrent, hsample, hdispatched⟩
      · simp only [hchanged]
        exact ⟨hcurrent, trivial, hdispatched⟩
  | pending value =>
      simp only [hmonitor] at hsample
      refine ⟨hcurrent, trivial, ?_⟩
      intro called hcalled
      rcases List.mem_append.mp hcalled with hearlier | hnow
      · exact hdispatched called hearlier
      · rw [List.mem_singleton.mp hnow]
        exact hsample

theorem untorn_externalWrite {registerSize : RegisterSize} {s t : State}
    {value : BitVec 64} (h : Untorn registerSize s)
    (hok : WholeSample registerSize s (.externalWrite value))
    (hstep : step registerSize s (.externalWrite value) = some t) :
    Untorn registerSize t := by
  obtain ⟨hcurrent, hsample, hdispatched⟩ := h
  have hkept : ∀ content, content ∈ s.held →
      content ∈ s.held ++ [store s.bytes registerSize.val value] :=
    fun content hheld => List.mem_append_left _ hheld
  have hnew : store s.bytes registerSize.val value ∈
      s.held ++ [store s.bytes registerSize.val value] := by simp
  cases hstep
  refine ⟨hnew, ?_, ?_⟩
  · dsimp only [WholeSample] at hok
    unfold SampleFacts at hsample ⊢
    cases hmonitor : s.monitor with
    | idle => trivial
    | sampling seqBefore index loaded =>
        simp only [hmonitor] at hok hsample ⊢
        obtain ⟨hindex, content, hheld, hloaded, hrest⟩ := hsample
        refine ⟨hindex, ?_⟩
        rcases hok with hsame | hpre
        · refine ⟨content, hkept content hheld, hloaded, ?_⟩
          exact fun i hi hle => (hsame i hi hle).trans (hrest i hi hle)
        · exact ⟨_, hnew, hpre.symm, fun _ _ _ => rfl⟩
    | rechecked loaded =>
        simp only [hmonitor] at hsample ⊢
        obtain ⟨content, hheld, hvalue⟩ := hsample
        exact ⟨content, hkept content hheld, hvalue⟩
    | pending pendingValue =>
        simp only [hmonitor] at hsample ⊢
        obtain ⟨content, hheld, hvalue⟩ := hsample
        exact ⟨content, hkept content hheld, hvalue⟩
  · intro called hcalled
    obtain ⟨content, hheld, hvalue⟩ := hdispatched called hcalled
    exact ⟨content, hkept content hheld, hvalue⟩

theorem untorn_step {registerSize : RegisterSize} (s : State) (action : Action) (t : State)
    (h : Untorn registerSize s) (hok : WholeSample registerSize s action)
    (hstep : step registerSize s action = some t) : Untorn registerSize t := by
  cases action with
  | scan =>
      cases hstep
      exact untorn_scan h
  | externalWrite value => exact untorn_externalWrite h hok hstep
  | pimWrite size value => exact hok.elim
  | resume index => exact hok.elim

/-- With no write that tears a running sample, every value the scan hands to
the handler is the register's whole content at some moment. -/
theorem dispatched_value_was_held (registerSize : RegisterSize) (bytes : Bytes)
    (actions : List Action) (t : State)
    (hok : Meets (step registerSize) (WholeSample registerSize)
      (init registerSize bytes) actions)
    (hrun : run (step registerSize) (init registerSize bytes) actions = some t) :
    ∀ value ∈ t.invocations,
      ∃ content ∈ t.held, value = loadBytes content registerSize.val := by
  have hinit : Untorn registerSize (init registerSize bytes) :=
    ⟨by simp [init], trivial, by simp [init]⟩
  exact (run_invariant_of_meets untorn_step hinit hok hrun).dispatched

/-- One write before the first byte load, one to the byte already loaded. -/
def overlappedWrites : List Action :=
  [.scan, .externalWrite 0x0101, .scan, .externalWrite 0x0107, .scan, .scan, .scan, .scan]

theorem dispatched_value_was_held_overlappedWrites :
    ∃ t, run (step ⟨2, rfl⟩) (init ⟨2, rfl⟩ fun _ => 0) overlappedWrites = some t ∧
      t.invocations = [0x0101] ∧
      ∀ value ∈ t.invocations, ∃ content ∈ t.held, value = loadBytes content 2 := by
  obtain ⟨t, hrun, hinvoked⟩ : ∃ t, run (step ⟨2, rfl⟩) (init ⟨2, rfl⟩ fun _ => 0)
      overlappedWrites = some t ∧ t.invocations = [0x0101] := exists_run (by decide +kernel)
  exact ⟨t, hrun, hinvoked, dispatched_value_was_held ⟨2, rfl⟩ (fun _ => 0) overlappedWrites t
    (by decide +kernel) hrun⟩

/-- `0x0101` is written between the two byte loads; the handler is called with
`0x0100`. -/
theorem dispatched_value_torn :
    ¬ ∀ (registerSize : RegisterSize) (bytes : Bytes) (actions : List Action) (t : State),
      actions.all Action.outOfProcess = true →
      run (step registerSize) (init registerSize bytes) actions = some t →
      ∀ value ∈ t.invocations,
        ∃ content ∈ t.held, value = loadBytes content registerSize.val := by
  intro h
  obtain ⟨t, hrun, hinvoked, htorn⟩ : ∃ t, run (step ⟨2, rfl⟩) (init ⟨2, rfl⟩ fun _ => 0)
      [.scan, .scan, .externalWrite 0x0101, .scan, .scan, .scan, .scan] = some t ∧
      0x0100 ∈ t.invocations ∧ ∀ content ∈ t.held, 0x0100 ≠ loadBytes content 2 :=
    exists_run (by decide +kernel)
  obtain ⟨content, hheld, hvalue⟩ := h ⟨2, rfl⟩ (fun _ => 0) _ t rfl hrun 0x0100 hinvoked
  exact htorn content hheld hvalue

end HostPimSim.Core.Monitor
