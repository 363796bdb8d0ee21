import Mathlib.Data.List.Chain
import HostPimSim.Core.MonitorSample

/-! What the monitor is for: stores by another process reach the handler.  A value may be
skipped and a sample may mix two contents, but once the stores end the handler is given the
register as it is left, and no value twice in a row. -/
namespace HostPimSim.Core.Monitor
open Register Transition

def MonitorPc.queued : MonitorPc → List (BitVec 64)
  | .pending value => [value]
  | _ => []

def State.handed (s : State) : List (BitVec 64) := s.invocations ++ s.monitor.queued

/-- The cached value is the last one handed on, or the baseline, and each differs from the one
before it. -/
structure Handed (baseline : BitVec 64) (s : State) : Prop where
  chain : (baseline :: s.handed).IsChain (· ≠ ·)
  last : (baseline :: s.handed).getLast? = some s.lastValue
  even : s.writeSeq = 0

theorem handed_init (registerSize : RegisterSize) (bytes : Bytes) :
    Handed (loadBytes bytes registerSize.val) (init registerSize bytes) :=
  ⟨List.isChain_singleton _, rfl, rfl⟩

theorem Handed.of_same {baseline : BitVec 64} {s t : State} (h : Handed baseline s)
    (hhanded : t.handed = s.handed) (hlast : t.lastValue = s.lastValue)
    (hseq : t.writeSeq = s.writeSeq) : Handed baseline t := by
  refine ⟨?_, ?_, hseq.trans h.even⟩
  · rw [hhanded]
    exact h.chain
  · rw [hhanded, hlast]
    exact h.last

theorem handed_scan {baseline : BitVec 64} {registerSize : RegisterSize} {s : State}
    (h : Handed baseline s) : Handed baseline (scanStep registerSize s) := by
  unfold scanStep
  cases hmonitor : s.monitor with
  | idle =>
      dsimp only
      split
      · exact h
      · exact h.of_same (by simp [State.handed, hmonitor, MonitorPc.queued]) rfl rfl
  | sampling seqBefore index loaded =>
      dsimp only
      split
      · exact h.of_same (by simp [State.handed, hmonitor, MonitorPc.queued]) rfl rfl
      · split
        · exact h.of_same (by simp [State.handed, hmonitor, MonitorPc.queued]) rfl rfl
        · exact h.of_same (by simp [State.handed, hmonitor, MonitorPc.queued]) rfl rfl
  | rechecked loaded =>
      have hhanded : s.handed = s.invocations := by simp [State.handed, hmonitor, MonitorPc.queued]
      have hchain := h.chain
      have hlast := h.last
      rw [hhanded] at hchain hlast
      dsimp only
      by_cases hsame : s.lastValue = loaded
      · rw [if_neg (by simp [hsame])]
        exact h.of_same (by simp [State.handed, hmonitor, MonitorPc.queued]) hsame.symm rfl
      · rw [if_pos (by simp [hsame])]
        have happend : (baseline :: s.invocations ++ [loaded]).IsChain (· ≠ ·) := by
          apply hchain.append (List.isChain_singleton _)
          intro value hvalue next hnext
          cases hnext
          rw [hlast] at hvalue
          cases hvalue
          exact hsame
        have hend : (baseline :: s.invocations ++ [loaded]).getLast? = some loaded :=
          List.getLast?_concat
        exact ⟨happend, hend, h.even⟩
  | pending value =>
      exact h.of_same (by simp [State.handed, hmonitor, MonitorPc.queued]) rfl rfl

theorem handed_step {baseline : BitVec 64} {registerSize : RegisterSize} (s : State)
    (action : Action) (t : State) (h : Handed baseline s) (hout : action.outOfProcess = true)
    (hstep : step registerSize s action = some t) : Handed baseline t := by
  cases action with
  | scan =>
      cases hstep
      exact handed_scan h
  | externalWrite value =>
      cases hstep
      exact h.of_same rfl rfl rfl
  | pimWrite size value => cases hout
  | resume index => cases hout

def MonitorPc.left (size : Nat) : MonitorPc → Nat
  | .idle => 0
  | .sampling _ index _ => size - index + 3
  | .rechecked _ => 2
  | .pending _ => 1

def Fresh (registerSize : RegisterSize) (s : State) : Prop :=
  match s.monitor with
  | .idle => True
  | .sampling seqBefore index loaded =>
      seqBefore = s.writeSeq ∧ index ≤ registerSize.val ∧ loaded = loadBytes s.bytes index
  | .rechecked value => value = loadBytes s.bytes registerSize.val
  | .pending value =>
      value = loadBytes s.bytes registerSize.val ∧ s.lastValue = value

def Settled (registerSize : RegisterSize) (s : State) : Prop :=
  s.lastValue = loadBytes s.bytes registerSize.val ∧ s.monitor.queued = []

/-- At most so many accesses are to come before the scan has settled: it is in a sample begun
since the register changed last, or in an earlier one, after which a whole one fits. -/
structure Settling (registerSize : RegisterSize) (bytes : Bytes) (n : Nat) (s : State) : Prop where
  bytes : s.bytes = bytes
  even : isOdd s.writeSeq = false
  room : (Fresh registerSize s ∧
      (Settled registerSize s ∨ s.monitor ≠ .idle ∧ s.monitor.left registerSize.val ≤ n)) ∨
    s.monitor.left registerSize.val + registerSize.val + 4 ≤ n

theorem settling_scan {registerSize : RegisterSize} {bytes : Bytes} {n : Nat} {s : State}
    (h : Settling registerSize bytes (n + 1) s) :
    Settling registerSize bytes n (scanStep registerSize s) := by
  have heven := h.even
  have hbytes := h.bytes
  have hroom := h.room
  unfold Fresh Settled at hroom
  unfold scanStep
  cases hmonitor : s.monitor with
  | idle =>
      rw [hmonitor] at hroom
      simp only [heven, Bool.false_eq_true, if_false]
      refine ⟨hbytes, heven, .inl ⟨⟨rfl, Nat.zero_le _, rfl⟩, ?_⟩⟩
      simp only [Settled, MonitorPc.queued, MonitorPc.left] at hroom ⊢
      rcases hroom with ⟨_, hsettled | hlate⟩ | hroom
      · exact .inl hsettled
      · exact absurd rfl hlate.1
      · exact .inr ⟨MonitorPc.noConfusion, by omega⟩
  | sampling seqBefore index loaded =>
      rw [hmonitor] at hroom
      simp only [MonitorPc.queued, MonitorPc.left] at hroom
      dsimp only
      by_cases hmore : index < registerSize.val
      · rw [if_pos hmore]
        refine ⟨hbytes, heven, ?_⟩
        simp only [Fresh, Settled, MonitorPc.queued, MonitorPc.left]
        rcases hroom with ⟨⟨hseq, hindex, hloaded⟩, hdone⟩ | hroom
        · refine .inl ⟨⟨hseq, hmore, by rw [hloaded, loadBytes]⟩, ?_⟩
          cases hdone with
          | inl hsettled => exact .inl hsettled
          | inr hlate => exact .inr ⟨MonitorPc.noConfusion, by omega⟩
        · exact .inr (by omega)
      · rw [if_neg hmore]
        by_cases hsame : seqBefore = s.writeSeq
        · rw [if_neg (by simp [hsame, heven])]
          refine ⟨hbytes, heven, ?_⟩
          simp only [Fresh, Settled, MonitorPc.queued, MonitorPc.left]
          rcases hroom with ⟨⟨_, hindex, hloaded⟩, hdone⟩ | hroom
          · have hend : index = registerSize.val := by omega
            refine .inl ⟨by rw [hloaded, hend], ?_⟩
            cases hdone with
            | inl hsettled => exact .inl hsettled
            | inr hlate => exact .inr ⟨MonitorPc.noConfusion, by omega⟩
          · exact .inr (by omega)
        · rw [if_pos (by simp [hsame])]
          refine ⟨hbytes, heven, ?_⟩
          simp only [Fresh, Settled, MonitorPc.queued, MonitorPc.left]
          rcases hroom with ⟨⟨hseq, _⟩, _⟩ | hroom
          · exact absurd hseq hsame
          · exact .inr (by omega)
  | rechecked loaded =>
      rw [hmonitor] at hroom
      simp only [MonitorPc.queued, MonitorPc.left] at hroom
      dsimp only
      by_cases hsame : s.lastValue = loaded
      · rw [if_neg (by simp [hsame])]
        refine ⟨hbytes, heven, ?_⟩
        simp only [Fresh, Settled, MonitorPc.queued, MonitorPc.left]
        rcases hroom with ⟨hloaded, _⟩ | hroom
        · exact .inl ⟨trivial, .inl ⟨hloaded, trivial⟩⟩
        · exact .inr (by omega)
      · rw [if_pos (by simp [hsame])]
        refine ⟨hbytes, heven, ?_⟩
        simp only [Fresh, Settled, MonitorPc.queued, MonitorPc.left]
        rcases hroom with ⟨hloaded, hsettled | hlate⟩ | hroom
        · exact absurd (hsettled.1.trans hloaded.symm) hsame
        · exact .inl ⟨⟨hloaded, trivial⟩, .inr ⟨MonitorPc.noConfusion, by omega⟩⟩
        · exact .inr (by omega)
  | pending value =>
      rw [hmonitor] at hroom
      simp only [MonitorPc.left] at hroom
      refine ⟨hbytes, heven, ?_⟩
      simp only [Fresh, Settled, MonitorPc.queued, MonitorPc.left]
      rcases hroom with ⟨⟨hvalue, hlast⟩, _⟩ | hroom
      · exact .inl ⟨trivial, .inl ⟨hlast.trans hvalue, trivial⟩⟩
      · exact .inr (by omega)

theorem settling_start (registerSize : RegisterSize) {s : State} (heven : isOdd s.writeSeq = false)
    {n : Nat} (hn : 2 * (registerSize.val + 4) ≤ n) : Settling registerSize s.bytes n s := by
  refine ⟨rfl, heven, .inr ?_⟩
  cases s.monitor <;> simp only [MonitorPc.left] <;> omega

theorem Settling.settled {registerSize : RegisterSize} {bytes : Bytes} {s : State}
    (h : Settling registerSize bytes 0 s) : Settled registerSize s := by
  have hroom := h.room
  rcases hroom with ⟨_, hsettled | hlate⟩ | hroom
  · exact hsettled
  · cases hmonitor : s.monitor with
    | idle => exact absurd hmonitor hlate.1
    | sampling seqBefore index loaded | rechecked loaded | pending value =>
        rw [hmonitor] at hlate
        simp only [MonitorPc.left] at hlate
        omega
  · omega

theorem scans_settle (registerSize : RegisterSize) {s : State} (heven : isOdd s.writeSeq = false)
    {n : Nat} (hn : 2 * (registerSize.val + 4) ≤ n) :
    ∃ t, run (step registerSize) s (List.replicate n .scan) = some t ∧ t.bytes = s.bytes ∧
      Settled registerSize t := by
  have hscans : ∀ a ∈ List.replicate n Action.scan, a = .scan := fun a => List.eq_of_mem_replicate
  obtain ⟨t, hrun⟩ : ∃ t, run (step registerSize) s (List.replicate n .scan) = some t := by
    apply run_of_enabled (fun _ => True) (fun u _ a ha => ?_) trivial
    rw [hscans a ha]
    exact ⟨_, rfl, trivial⟩
  have hstart : Settling registerSize s.bytes (List.replicate n Action.scan).length s := by
    rw [List.length_replicate]
    exact settling_start registerSize heven hn
  have hend : Settling registerSize s.bytes 0 t := by
    refine run_countdown (Settling registerSize s.bytes) ?_ hstart
      (meets_of_forall (p := (· = .scan)) hscans s) hrun
    rintro k u action v hu rfl hstep
    cases hstep
    exact settling_scan hu
  exact ⟨t, hrun, hend.bytes, hend.settled⟩

/-- Whatever other processes store and however the scan is overtaken: the values handed to the
handler differ each from the one before, and once the stores end the handler has been given the
register as it is left. -/
theorem stores_are_delivered (registerSize : RegisterSize) (bytes : Bytes) (actions : List Action)
    (hout : ∀ action ∈ actions, action.outOfProcess = true) {n : Nat}
    (hn : 2 * (registerSize.val + 4) ≤ n) :
    ∃ s t, run (step registerSize) (init registerSize bytes) actions = some s ∧
      run (step registerSize) s (List.replicate n .scan) = some t ∧ t.bytes = s.bytes ∧
      (loadBytes bytes registerSize.val :: t.invocations).IsChain (· ≠ ·) ∧
      (loadBytes bytes registerSize.val :: t.invocations).getLast? =
        some (loadBytes s.bytes registerSize.val) := by
  obtain ⟨s, hrun⟩ : ∃ s, run (step registerSize) (init registerSize bytes) actions = some s := by
    apply run_of_enabled (fun _ => True) (fun u _ a ha => ?_) trivial
    have houtside := hout a ha
    cases a with
    | scan | externalWrite value => exact ⟨_, rfl, trivial⟩
    | pimWrite size value | resume index => cases houtside
  have hhanded : Handed (loadBytes bytes registerSize.val) s :=
    run_invariant_of_meets handed_step (handed_init registerSize bytes)
      (meets_of_forall (p := fun (a : Action) => a.outOfProcess = true) hout _) hrun
  have heven : isOdd s.writeSeq = false := by
    rw [hhanded.even]
    rfl
  obtain ⟨t, hscans, hbytes, hlast, hqueued⟩ := scans_settle registerSize heven hn
  have hhanded' : Handed (loadBytes bytes registerSize.val) t := by
    refine run_invariant_of_meets handed_step hhanded
      (meets_of_forall (p := fun (a : Action) => a.outOfProcess = true) (fun a ha => ?_) s) hscans
    rw [List.eq_of_mem_replicate ha]
    rfl
  have hall : t.handed = t.invocations := by rw [State.handed, hqueued, List.append_nil]
  have hchain := hhanded'.chain
  have hend := hhanded'.last
  rw [hall] at hchain hend
  rw [hlast, hbytes] at hend
  exact ⟨s, t, hrun, hscans, hbytes, hchain, hend⟩

/-- Both bytes are written between the loads of the two. -/
def tornStore : List Action :=
  [.scan, .scan, .externalWrite 0x0101, .scan, .scan, .scan, .scan]

theorem stores_are_delivered_tornStore :
    ∃ s t, run (step ⟨2, rfl⟩) (init ⟨2, rfl⟩ fun _ => 0) tornStore = some s ∧
      run (step ⟨2, rfl⟩) s (List.replicate 12 .scan) = some t ∧ s.invocations = [0x0100] ∧
      (0 :: t.invocations).getLast? = some 0x0101 := by
  obtain ⟨u, hu, hinvoked, hbytes⟩ : ∃ u,
      run (step ⟨2, rfl⟩) (init ⟨2, rfl⟩ fun _ => 0) tornStore = some u ∧
        u.invocations = [0x0100] ∧ loadBytes u.bytes 2 = 0x0101 := exists_run (by decide +kernel)
  obtain ⟨s, t, hrun, hscans, _, _, hlast⟩ :=
    stores_are_delivered ⟨2, rfl⟩ (fun _ => 0) tornStore (by decide) (Nat.le_refl 12)
  cases hu.symm.trans hrun
  rw [hbytes] at hlast
  exact ⟨u, t, hrun, hscans, hinvoked, hlast⟩

end HostPimSim.Core.Monitor
