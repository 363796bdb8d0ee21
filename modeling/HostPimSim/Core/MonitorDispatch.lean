import HostPimSim.Core.Monitor

/-! Handler calls against the writes made in this process. -/
namespace HostPimSim.Core.Monitor
open Register Threads Transition

def State.writesMade (s : State) : Nat := s.writes.countP fun call => call.pc != .begun

/-- A step of the scan thread or of a `pim_write` in this process. -/
def Action.inProcess : Action → Bool
  | .externalWrite _ => false
  | _ => true

/-- A `pim_write` may begin now: the scan is not between its second load of
`write_seq` and the exchange, and the sequence has not come round to the value
a sample started from. -/
def MonitorPc.admitsWrite (writeSeq : BitVec 32) : MonitorPc → Bool
  | .sampling seqBefore _ _ => writeSeq + 2 != seqBefore
  | .rechecked _ => false
  | .idle | .pending _ => true

/-- When a `pim_write` begins undisturbed: alone, outside the window of the
scan, and with no register bytes above its width that keep other contents than
the cached value has there. -/
def Undisturbed (registerSize : RegisterSize) (s : State) : Action → Prop
  | .scan | .resume _ => True
  | .pimWrite size _ =>
      (∀ call ∈ s.writes, call.inProgress = false) ∧
        s.monitor.admitsWrite s.writeSeq = true ∧
        ∀ i < registerSize.val, size.val ≤ i → s.bytes i = 0
  | .externalWrite _ => False

instance (registerSize : RegisterSize) (s : State) :
    ∀ action, Decidable (Undisturbed registerSize s action)
  | .scan | .resume _ => isTrue trivial
  | .pimWrite size _ =>
      inferInstanceAs (Decidable ((∀ call ∈ s.writes, call.inProgress = false) ∧
        s.monitor.admitsWrite s.writeSeq = true ∧
        ∀ i < registerSize.val, size.val ≤ i → s.bytes i = 0))
  | .externalWrite _ => isFalse id

def Quiet (writes : List WriteCall) : Prop :=
  ∀ (i : Nat) (call : WriteCall), writes[i]? = some call → call.inProgress = false

/-- The call at `index` is the only one between its two marks. -/
structure Active (writes : List WriteCall) (index : Nat) (call : WriteCall) : Prop where
  here : writes[index]? = some call
  inProgress : call.inProgress = true
  alone : ∀ i other, writes[i]? = some other → other.inProgress = true → i = index

/-- What the open call has done to the register and to `last_value` so far. -/
def WriteFacts (registerSize : RegisterSize) (s : State) (call : WriteCall) : Prop :=
  match call.pc with
  | .begun => ∀ i, call.size.val ≤ i → i < registerSize.val → s.bytes i = 0
  | .stored =>
      loadBytes s.bytes registerSize.val =
        call.typed &&& pimRegisterValueMask registerSize.val
  | .cached => s.lastValue = loadBytes s.bytes registerSize.val
  | .ended | .returned => True

def ScanFacts (registerSize : RegisterSize) (s : State) : Prop :=
  match s.monitor with
  | .idle => True
  | .sampling seqBefore index loaded =>
      isOdd seqBefore = false ∧ index ≤ registerSize.val ∧
        (s.writeSeq = seqBefore → loaded = loadBytes s.bytes index) ∧
        (isOdd s.writeSeq = true → s.writeSeq + 1 ≠ seqBefore)
  | .rechecked loaded => Quiet s.writes ∧ loaded = loadBytes s.bytes registerSize.val
  | .pending _ => False

/-- The cached value is the register's whenever no call is open, which the
parity of `write_seq` tells; so the scan never has a change to report. -/
structure Coherent (registerSize : RegisterSize) (s : State) : Prop where
  writer :
    (Quiet s.writes ∧ isOdd s.writeSeq = false ∧
      s.lastValue = loadBytes s.bytes registerSize.val) ∨
    ∃ index call, Active s.writes index call ∧ isOdd s.writeSeq = true ∧
      WriteFacts registerSize s call
  scan : ScanFacts registerSize s
  count : s.invocations.length = s.writes.countP fun call => call.pc == .returned

theorem quiet_iff_forall_mem (writes : List WriteCall) :
    Quiet writes ↔ ∀ call ∈ writes, call.inProgress = false := by
  constructor
  · intro h call hmem
    obtain ⟨i, hi⟩ := List.mem_iff_getElem?.mp hmem
    exact h i call hi
  · intro h i call hi
    exact h call (List.mem_iff_getElem?.mpr ⟨i, hi⟩)

theorem Active.not_quiet {writes : List WriteCall} {index : Nat} {call : WriteCall}
    (h : Active writes index call) : ¬ Quiet writes := by
  intro hquiet
  have := hquiet index call h.here
  simp [h.inProgress] at this

theorem active_append {writes : List WriteCall} (h : Quiet writes) {call : WriteCall}
    (hcall : call.inProgress = true) :
    Active (writes ++ [call]) writes.length call where
  here := by simp
  inProgress := hcall
  alone := by
    intro i other hother hprogress
    rcases getElem?_push_some hother with ⟨hi, _⟩ | hold
    · exact hi
    · simp [h i other hold] at hprogress

theorem Active.set {writes : List WriteCall} {index : Nat} {call moved : WriteCall}
    (h : Active writes index call) (hmoved : moved.inProgress = true) :
    Active (writes.set index moved) index moved where
  here := getElem?_set_moved h.here
  inProgress := hmoved
  alone := by
    intro i other hother hprogress
    rcases getElem?_set_some hother with ⟨hi, _⟩ | ⟨_, hkept⟩
    · exact hi
    · exact h.alone i other hkept hprogress

theorem Active.quiet_set {writes : List WriteCall} {index : Nat} {call moved : WriteCall}
    (h : Active writes index call) (hmoved : moved.inProgress = false) :
    Quiet (writes.set index moved) := by
  intro i other hother
  rcases getElem?_set_some hother with ⟨_, rfl⟩ | ⟨hi, hkept⟩
  · exact hmoved
  · by_contra hprogress
    exact hi (h.alone i other hkept (by simpa using hprogress))

theorem quiet_set_of_closed {writes : List WriteCall} (h : Quiet writes) {index : Nat}
    {moved : WriteCall} (hmoved : moved.inProgress = false) :
    Quiet (writes.set index moved) := by
  intro i other hother
  rcases getElem?_set_some hother with ⟨_, rfl⟩ | ⟨_, hkept⟩
  · exact hmoved
  · exact h i other hkept

theorem Active.set_of_closed {writes : List WriteCall} {index closed : Nat}
    {call before moved : WriteCall} (h : Active writes index call)
    (hbefore : writes[closed]? = some before) (hclosed : before.inProgress = false)
    (hmoved : moved.inProgress = false) :
    Active (writes.set closed moved) index call where
  here := by
    have hne : closed ≠ index := by
      rintro rfl
      rw [h.here] at hbefore
      cases hbefore
      simp [h.inProgress] at hclosed
    rw [List.getElem?_set_ne hne, h.here]
  inProgress := h.inProgress
  alone := by
    intro i other hother hprogress
    rcases getElem?_set_some hother with ⟨_, rfl⟩ | ⟨_, hkept⟩
    · simp [hmoved] at hprogress
    · exact h.alone i other hkept hprogress

theorem coherent_init (registerSize : RegisterSize) (bytes : Bytes) :
    Coherent registerSize (init registerSize bytes) where
  writer := .inl ⟨fun i call h => by simp [init] at h, by simp [init, isOdd], rfl⟩
  scan := trivial
  count := rfl

theorem coherent_scan {registerSize : RegisterSize} {s : State}
    (h : Coherent registerSize s) : Coherent registerSize (scanStep registerSize s) := by
  obtain ⟨hwriter, hscan, hcount⟩ := h
  unfold scanStep
  unfold ScanFacts at hscan
  cases hmonitor : s.monitor with
  | idle =>
      by_cases hodd : isOdd s.writeSeq = true
      · simp only [hodd, if_true]
        exact ⟨hwriter, by simp [ScanFacts, hmonitor], hcount⟩
      · simp only [hodd]
        refine ⟨hwriter, ?_, hcount⟩
        exact ⟨by simpa using hodd, Nat.zero_le _, fun _ => rfl, fun h => absurd h hodd⟩
  | sampling seqBefore index loaded =>
      simp only [hmonitor] at hscan
      obtain ⟨heven, hindex, hloaded, hwrap⟩ := hscan
      by_cases hmore : index < registerSize.val
      · simp only [hmore, if_true]
        refine ⟨hwriter, ⟨heven, hmore, ?_, hwrap⟩, hcount⟩
        intro hseq
        rw [hloaded hseq]
        rfl
      · have hend : index = registerSize.val := by omega
        simp only [hmore, if_false]
        split
        · exact ⟨hwriter, trivial, hcount⟩
        · rename_i hsame
          simp only [bne_iff_ne, ne_eq, Bool.or_eq_true, not_or, not_not] at hsame
          refine ⟨hwriter, ⟨?_, ?_⟩, hcount⟩
          · rcases hwriter with ⟨hquiet, _⟩ | ⟨_, _, _, hodd, _⟩
            · exact hquiet
            · exact absurd hodd hsame.2
          · rw [hloaded hsame.1.symm, hend]
  | rechecked loaded =>
      simp only [hmonitor] at hscan
      obtain ⟨hquiet, hloaded⟩ := hscan
      rcases hwriter with ⟨_, heven, hlast⟩ | ⟨_, _, hactive, _⟩
      · have hsame : s.lastValue = loaded := by rw [hlast, hloaded]
        simp only [hsame, bne_self_eq_false, Bool.false_eq_true, if_false]
        exact ⟨.inl ⟨hquiet, heven, hloaded⟩, trivial, hcount⟩
      · exact absurd hquiet hactive.not_quiet
  | pending value =>
      simp only [hmonitor] at hscan

theorem coherent_pimWrite {registerSize : RegisterSize} {s t : State} {size : RegisterSize}
    {value : BitVec 64} (h : Coherent registerSize s)
    (hok : Undisturbed registerSize s (.pimWrite size value))
    (hstep : step registerSize s (.pimWrite size value) = some t) :
    Coherent registerSize t := by
  obtain ⟨hclosed, hadmits, hcover⟩ := hok
  have hquiet : Quiet s.writes := (quiet_iff_forall_mem _).mpr hclosed
  have heven : isOdd s.writeSeq = false := by
    rcases h.writer with ⟨_, heven, _⟩ | ⟨_, _, hactive, _⟩
    · exact heven
    · exact absurd hquiet hactive.not_quiet
  cases hstep
  refine ⟨.inr ⟨_, _, active_append hquiet rfl, by simp [heven], ?_⟩, ?_, ?_⟩
  · intro i hsize hi
    exact hcover i hi hsize
  · have hscan := h.scan
    unfold ScanFacts at hscan ⊢
    cases hmonitor : s.monitor with
    | idle => trivial
    | sampling seqBefore index loaded =>
        simp only [hmonitor] at hscan ⊢
        obtain ⟨hbefore, hindex, _, _⟩ := hscan
        refine ⟨hbefore, hindex, ?_, ?_⟩
        · rintro rfl
          simp [heven] at hbefore
        · intro _ hwrap
          simp only [hmonitor, MonitorPc.admitsWrite, bne_iff_ne, ne_eq] at hadmits
          exact hadmits (by rw [← hwrap, BitVec.add_assoc]; rfl)
    | rechecked loaded => simp [hmonitor, MonitorPc.admitsWrite] at hadmits
    | pending value => simp [hmonitor] at hscan
  · simpa [List.countP_append, List.countP_singleton] using h.count

/-- A scan that is not idle keeps its facts while an open call moves on: the
odd sequence already dooms its sample. -/
theorem scanFacts_of_active {registerSize : RegisterSize} {s : State} {index : Nat}
    {call : WriteCall} (hscan : ScanFacts registerSize s)
    (hactive : Active s.writes index call) (hodd : isOdd s.writeSeq = true)
    {t : State} (hmonitor : t.monitor = s.monitor)
    (hseq : t.writeSeq = s.writeSeq ∨ t.writeSeq = s.writeSeq + 1) :
    ScanFacts registerSize t := by
  unfold ScanFacts at hscan ⊢
  rw [hmonitor]
  cases hpc : s.monitor with
  | idle => trivial
  | sampling seqBefore index loaded =>
      simp only [hpc] at hscan ⊢
      obtain ⟨hbefore, hindex, _, hwrap⟩ := hscan
      refine ⟨hbefore, hindex, ?_, ?_⟩
      · intro hsame
        rcases hseq with hkept | hnext
        · rw [← hsame, hkept, hodd] at hbefore
          cases hbefore
        · exact absurd (hnext.symm.trans hsame) (hwrap hodd)
      · intro hstill
        rcases hseq with hkept | hnext
        · rw [hkept]
          exact hwrap hodd
        · simp [hnext, hodd] at hstill
  | rechecked loaded =>
      simp only [hpc] at hscan
      exact absurd hscan.1 hactive.not_quiet
  | pending value => simp [hpc] at hscan

theorem countP_returned_set {writes : List WriteCall} {index : Nat}
    {call moved : WriteCall} (hcall : writes[index]? = some call)
    (hbefore : call.pc ≠ .returned) :
    (writes.set index moved).countP (fun call => call.pc == .returned) =
      writes.countP (fun call => call.pc == .returned) +
        if moved.pc = .returned then 1 else 0 := by
  have hmoved := countP_set_add (fun call => call.pc == .returned) moved hcall
  simpa [hbefore] using hmoved

theorem Coherent.active {registerSize : RegisterSize} {s : State} {index : Nat}
    {call : WriteCall} (h : Coherent registerSize s)
    (hcall : s.writes[index]? = some call) (hprogress : call.inProgress = true) :
    Active s.writes index call ∧ isOdd s.writeSeq = true ∧
      WriteFacts registerSize s call := by
  rcases h.writer with ⟨hquiet, _⟩ | ⟨other, open_, hactive, hodd, hfacts⟩
  · simp [hquiet index call hcall] at hprogress
  · obtain rfl := hactive.alone index call hcall hprogress
    obtain rfl := Option.some.inj (hactive.here.symm.trans hcall)
    exact ⟨hactive, hodd, hfacts⟩

theorem coherent_write {registerSize : RegisterSize} {s t : State} {index : Nat}
    {call : WriteCall} (h : Coherent registerSize s)
    (hcall : s.writes[index]? = some call)
    (hstep : writeStep registerSize s index call = some t) : Coherent registerSize t := by
  have hcount := h.count
  unfold writeStep at hstep
  cases hpc : call.pc with
  | begun =>
      obtain ⟨hactive, hodd, hfacts⟩ := h.active hcall (by simp [WriteCall.inProgress, hpc])
      simp only [hpc, Option.some.injEq] at hstep
      subst hstep
      refine ⟨.inr ⟨_, _, hactive.set rfl, hodd, ?_⟩,
        scanFacts_of_active h.scan hactive hodd rfl (.inl rfl), ?_⟩
      · simp only [WriteFacts, hpc] at hfacts ⊢
        rw [loadBytes_store registerSize.property call.size.property _ hfacts]
        simp [WriteCall.typed, truncate, BitVec.and_assoc]
      · rw [countP_returned_set hcall (by simp [hpc])]
        simpa using hcount
  | stored =>
      obtain ⟨hactive, hodd, hfacts⟩ := h.active hcall (by simp [WriteCall.inProgress, hpc])
      simp only [hpc, Option.some.injEq] at hstep
      subst hstep
      refine ⟨.inr ⟨_, _, hactive.set rfl, hodd, ?_⟩,
        scanFacts_of_active h.scan hactive hodd rfl (.inl rfl), ?_⟩
      · simp only [WriteFacts, hpc] at hfacts ⊢
        exact hfacts.symm
      · rw [countP_returned_set hcall (by simp [hpc])]
        simpa using hcount
  | cached =>
      obtain ⟨hactive, hodd, hfacts⟩ := h.active hcall (by simp [WriteCall.inProgress, hpc])
      simp only [hpc, Option.some.injEq] at hstep
      subst hstep
      refine ⟨.inl ⟨hactive.quiet_set rfl, by simp [hodd], ?_⟩,
        scanFacts_of_active h.scan hactive hodd rfl (.inr rfl), ?_⟩
      · simpa only [WriteFacts, hpc] using hfacts
      · rw [countP_returned_set hcall (by simp [hpc])]
        simpa using hcount
  | ended =>
      have hclosed : call.inProgress = false := by simp [WriteCall.inProgress, hpc]
      simp only [hpc, Option.some.injEq] at hstep
      subst hstep
      refine ⟨?_, ?_, ?_⟩
      · rcases h.writer with ⟨hquiet, hrest⟩ | ⟨other, open_, hactive, hrest⟩
        · exact .inl ⟨quiet_set_of_closed hquiet rfl, hrest⟩
        · exact .inr ⟨other, open_, hactive.set_of_closed hcall hclosed rfl, hrest⟩
      · have hscan := h.scan
        unfold ScanFacts at hscan ⊢
        cases hmonitor : s.monitor with
        | rechecked loaded =>
            simp only [hmonitor] at hscan ⊢
            exact ⟨quiet_set_of_closed hscan.1 rfl, hscan.2⟩
        | idle => trivial
        | sampling seqBefore sampled loaded => simpa only [hmonitor] using hscan
        | pending value => simp [hmonitor] at hscan
      · rw [countP_returned_set hcall (by simp [hpc])]
        simpa using hcount
  | returned => simp [hpc] at hstep

theorem coherent_step {registerSize : RegisterSize} (s : State) (action : Action) (t : State)
    (h : Coherent registerSize s) (hok : Undisturbed registerSize s action)
    (hstep : step registerSize s action = some t) : Coherent registerSize t := by
  cases action with
  | scan =>
      cases hstep
      exact coherent_scan h
  | pimWrite size value => exact coherent_pimWrite h hok hstep
  | resume index =>
      obtain ⟨call, hcall, hwrite⟩ := Option.bind_eq_some_iff.mp hstep
      exact coherent_write h hcall hwrite
  | externalWrite value => exact hok.elim

/-- Every undisturbed run calls the handler at most once for each write. -/
theorem invocations_le_writesMade_of_undisturbed (registerSize : RegisterSize)
    (bytes : Bytes) (actions : List Action) (t : State)
    (hok : Meets (step registerSize) (Undisturbed registerSize)
      (init registerSize bytes) actions)
    (hrun : run (step registerSize) (init registerSize bytes) actions = some t) :
    t.invocations.length ≤ t.writesMade := by
  have h := run_invariant_of_meets coherent_step (coherent_init registerSize bytes) hok hrun
  rw [h.count]
  apply List.countP_mono_left
  intro call _ hreturned
  simp only [beq_iff_eq] at hreturned
  simp [hreturned]

/-- A scan that overlaps the start and the end of a two byte `pim_write`
refuses its sample; the next one finds nothing new. -/
def overlappedScan : List Action :=
  [.scan, .scan, .pimWrite ⟨2, rfl⟩ 0x0105, .resume 0, .scan, .resume 0, .resume 0,
    .resume 0, .scan, .scan, .scan, .scan, .scan, .scan]

theorem invocations_le_writesMade_overlappedScan :
    ∃ t, run (step ⟨2, rfl⟩) (init ⟨2, rfl⟩ fun _ => 0) overlappedScan = some t ∧
      t.invocations = [0x0105] ∧ t.invocations.length ≤ t.writesMade := by
  obtain ⟨t, hrun, hinvoked⟩ : ∃ t, run (step ⟨2, rfl⟩) (init ⟨2, rfl⟩ fun _ => 0)
      overlappedScan = some t ∧ t.invocations = [0x0105] := exists_run (by decide +kernel)
  exact ⟨t, hrun, hinvoked, invocations_le_writesMade_of_undisturbed ⟨2, rfl⟩ (fun _ => 0)
    overlappedScan t (by decide +kernel) hrun⟩

/-- The whole write falls between the second load of `write_seq` and the
exchange: the handler is called by the write and once more, with the old value,
by the scan. -/
theorem invocations_exceed_writesMade :
    ¬ ∀ (registerSize : RegisterSize) (bytes : Bytes) (actions : List Action) (t : State),
      actions.all Action.inProcess = true →
      run (step registerSize) (init registerSize bytes) actions = some t →
      t.invocations.length ≤ t.writesMade := by
  intro h
  obtain ⟨t, hrun, hexceed⟩ : ∃ t, run (step ⟨1, rfl⟩) (init ⟨1, rfl⟩ fun _ => 0)
      [.scan, .scan, .scan, .pimWrite ⟨1, rfl⟩ 5, .resume 0, .resume 0, .resume 0,
        .resume 0, .scan, .scan] = some t ∧ ¬ t.invocations.length ≤ t.writesMade :=
    exists_run (by decide +kernel)
  exact hexceed (h ⟨1, rfl⟩ (fun _ => 0) _ t rfl hrun)

end HostPimSim.Core.Monitor
