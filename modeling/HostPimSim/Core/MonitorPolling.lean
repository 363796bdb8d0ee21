import HostPimSim.Lib.Transition
import Mathlib.Data.BitVec
import Mathlib.Data.Option.Basic

/-! The polling budget of a monitor thread.  One action is one scan, one pause, one sleep or one
access to a setting; the setters may be called between any two of them. -/
namespace HostPimSim.Core.MonitorPolling
open Transition

/-- The settings of a device that its monitor threads read as they run. -/
structure PollSettings where
  deviceSleepDurationUs : BitVec 32
  activePollCntLimit : BitVec 32
  wakeupSpinDivisor : BitVec 32
  deriving DecidableEq

def kDefaultSleepDurationUs : BitVec 32 := 100
def kDefaultPollLimit : BitVec 32 := 20000
def kDefaultWakeupSpinDivisor : BitVec 32 := 4

def orDefault (value default : BitVec 32) : BitVec 32 :=
  if value > 0 then value else default

def pimSetSleepDurationUs (dev : PollSettings) (sleepUs : BitVec 32) : PollSettings :=
  { dev with deviceSleepDurationUs := orDefault sleepUs kDefaultSleepDurationUs }

def pimSetPollLimit (dev : PollSettings) (pollLimit : BitVec 32) : PollSettings :=
  { dev with activePollCntLimit := orDefault pollLimit kDefaultPollLimit }

def pimSetWakeupSpinDivisor (dev : PollSettings) (divisor : BitVec 32) : PollSettings :=
  { dev with wakeupSpinDivisor := orDefault divisor kDefaultWakeupSpinDivisor }

/-- Where the thread is: before it reads the limit, before a scan, after one that found nothing,
after a sleep, before the division, out of the loop, or past a division by zero. -/
inductive PollPc where
  | entering
  | scanning
  | deciding
  | reloading
  | dividing
  | exited
  | crashed
  deriving DecidableEq

/-- A device with one monitor thread and the variables of that thread. -/
structure State where
  dev : PollSettings
  monitorRunning : Bool
  spinLimit : BitVec 32
  currentSpinLimit : BitVec 32
  spinCounter : Int
  pc : PollPc
  deriving DecidableEq

/-- As `pim_start_monitor` leaves the device, whatever its settings were before. -/
def pimStartMonitor (dev : PollSettings) (sleepUs pollLimit divisor : BitVec 32) : State where
  dev :=
    pimSetWakeupSpinDivisor (pimSetPollLimit (pimSetSleepDurationUs dev sleepUs) pollLimit) divisor
  monitorRunning := true
  spinLimit := 0
  currentSpinLimit := 0
  spinCounter := 0
  pc := .entering

inductive Scan where
  | work
  | idle
  | threw
  deriving DecidableEq

inductive Action where
  | enter
  | scan (result : Scan)
  | leave
  | pause
  | sleep (sleepUs : BitVec 32)
  | reload
  | divide
  | stopMonitor
  | setSleepDurationUs (sleepUs : BitVec 32)
  | setPollLimit (pollLimit : BitVec 32)
  | setWakeupSpinDivisor (divisor : BitVec 32)
  deriving DecidableEq

def State.resetBudget (s : State) : State :=
  { s with
    spinLimit := s.dev.activePollCntLimit
    currentSpinLimit := s.dev.activePollCntLimit
    spinCounter := s.dev.activePollCntLimit.toInt
    pc := .scanning }

def State.scanned (s : State) : Scan → State
  | .work => s.resetBudget
  | .idle => { s with pc := .deciding }
  | .threw => { s with monitorRunning := false, pc := .exited }

def State.reload (s : State) : State :=
  { s with
    spinLimit := s.dev.activePollCntLimit
    currentSpinLimit :=
      if s.currentSpinLimit > s.dev.activePollCntLimit then s.dev.activePollCntLimit
      else s.currentSpinLimit
    pc := .dividing }

def State.divide (s : State) : State :=
  if s.dev.wakeupSpinDivisor = 0 then { s with pc := .crashed }
  else
    { s with
      currentSpinLimit := s.currentSpinLimit / s.dev.wakeupSpinDivisor
      spinCounter := (s.currentSpinLimit / s.dev.wakeupSpinDivisor).toInt
      pc := .scanning }

/-- `monitor_thread_func`, and what other threads may do to the device meanwhile. -/
def step (s : State) : Action → Option State
  | .enter => if s.pc = .entering then some s.resetBudget else none
  | .scan result =>
      if s.pc = .scanning ∧ s.monitorRunning = true then some (s.scanned result) else none
  | .leave =>
      if s.pc = .scanning ∧ s.monitorRunning = false then some { s with pc := .exited } else none
  | .pause =>
      if s.pc = .deciding ∧ s.spinCounter > 0 then
        some { s with spinCounter := s.spinCounter - 1, pc := .scanning }
      else none
  | .sleep sleepUs =>
      if s.pc = .deciding ∧ ¬ s.spinCounter > 0 ∧ sleepUs = s.dev.deviceSleepDurationUs then
        some { s with pc := .reloading }
      else none
  | .reload => if s.pc = .reloading then some s.reload else none
  | .divide => if s.pc = .dividing then some s.divide else none
  | .stopMonitor => some { s with monitorRunning := false }
  | .setSleepDurationUs sleepUs => some { s with dev := pimSetSleepDurationUs s.dev sleepUs }
  | .setPollLimit pollLimit => some { s with dev := pimSetPollLimit s.dev pollLimit }
  | .setWakeupSpinDivisor divisor =>
      some { s with dev := pimSetWakeupSpinDivisor s.dev divisor }

/-- What has happened since the thread last found work, or since it was started. -/
structure IdlePhase where
  sleeps : Nat
  scans : Nat
  pauses : Nat
  deriving DecidableEq

/-- `scans` and `pauses` are counted from the last sleep on. -/
def IdlePhase.after (i : IdlePhase) : Action → IdlePhase
  | .scan .work => ⟨0, 0, 0⟩
  | .scan .idle => { i with scans := i.scans + 1 }
  | .pause => { i with pauses := i.pauses + 1 }
  | .sleep _ => ⟨i.sleeps + 1, 0, 0⟩
  | _ => i

def idlePhase (as : List Action) : IdlePhase :=
  as.foldl IdlePhase.after ⟨0, 0, 0⟩

/-- The limit and the divisor are left as they are. -/
def Action.KeepsBudget : Action → Prop
  | .setPollLimit _ => False
  | .setWakeupSpinDivisor _ => False
  | _ => True

theorem orDefault_ne_zero {value default : BitVec 32} (h : default ≠ 0) :
    orDefault value default ≠ 0 := by
  unfold orDefault
  split
  · rename_i hpos
    intro hzero
    rw [hzero] at hpos
    exact absurd hpos (by decide)
  · exact h

theorem divisor_ne_zero_start (dev : PollSettings) (sleepUs pollLimit divisor : BitVec 32) :
    (pimStartMonitor dev sleepUs pollLimit divisor).dev.wakeupSpinDivisor ≠ 0 :=
  orDefault_ne_zero (by decide)

inductive Steps (s : State) : Action → State → Prop where
  | enter : s.pc = .entering → Steps s .enter s.resetBudget
  | work : s.pc = .scanning → Steps s (.scan .work) s.resetBudget
  | idle : s.pc = .scanning → Steps s (.scan .idle) { s with pc := .deciding }
  | threw : s.pc = .scanning →
      Steps s (.scan .threw) { s with monitorRunning := false, pc := .exited }
  | leave : s.pc = .scanning → Steps s .leave { s with pc := .exited }
  | pause : s.pc = .deciding → 0 < s.spinCounter →
      Steps s .pause { s with spinCounter := s.spinCounter - 1, pc := .scanning }
  | sleep : s.pc = .deciding → s.spinCounter ≤ 0 →
      Steps s (.sleep s.dev.deviceSleepDurationUs) { s with pc := .reloading }
  | reload : s.pc = .reloading → Steps s .reload s.reload
  | divide : s.pc = .dividing → Steps s .divide s.divide
  | stopMonitor : Steps s .stopMonitor { s with monitorRunning := false }
  | setSleepDurationUs (sleepUs : BitVec 32) : Steps s (.setSleepDurationUs sleepUs)
      { s with dev := pimSetSleepDurationUs s.dev sleepUs }
  | setPollLimit (pollLimit : BitVec 32) : Steps s (.setPollLimit pollLimit)
      { s with dev := pimSetPollLimit s.dev pollLimit }
  | setWakeupSpinDivisor (divisor : BitVec 32) : Steps s (.setWakeupSpinDivisor divisor)
      { s with dev := pimSetWakeupSpinDivisor s.dev divisor }

theorem steps_of_step {s t : State} {a : Action} (h : step s a = some t) : Steps s a t := by
  cases a with
  | scan result =>
      obtain ⟨⟨hpc, -⟩, hst⟩ := Option.ite_none_right_eq_some.mp h
      cases hst
      cases result with
      | work => exact .work hpc
      | idle => exact .idle hpc
      | threw => exact .threw hpc
  | enter =>
      obtain ⟨hpc, hst⟩ := Option.ite_none_right_eq_some.mp h
      cases hst
      exact .enter hpc
  | leave =>
      obtain ⟨⟨hpc, -⟩, hst⟩ := Option.ite_none_right_eq_some.mp h
      cases hst
      exact .leave hpc
  | pause =>
      obtain ⟨⟨hpc, hcounter⟩, hst⟩ := Option.ite_none_right_eq_some.mp h
      cases hst
      exact .pause hpc hcounter
  | sleep sleepUs =>
      obtain ⟨⟨hpc, hcounter, hsleep⟩, hst⟩ := Option.ite_none_right_eq_some.mp h
      cases hst
      rw [hsleep]
      exact .sleep hpc (Int.not_lt.mp hcounter)
  | reload =>
      obtain ⟨hpc, hst⟩ := Option.ite_none_right_eq_some.mp h
      cases hst
      exact .reload hpc
  | divide =>
      obtain ⟨hpc, hst⟩ := Option.ite_none_right_eq_some.mp h
      cases hst
      exact .divide hpc
  | stopMonitor => cases h; exact .stopMonitor
  | setSleepDurationUs sleepUs => cases h; exact .setSleepDurationUs sleepUs
  | setPollLimit pollLimit => cases h; exact .setPollLimit pollLimit
  | setWakeupSpinDivisor divisor => cases h; exact .setWakeupSpinDivisor divisor

/-- No step stores 0 as divisor, so none divides by it. -/
theorem step_divisor {s t : State} {a : Action}
    (h : s.dev.wakeupSpinDivisor ≠ 0 ∧ s.pc ≠ .crashed) (hstep : step s a = some t) :
    t.dev.wakeupSpinDivisor ≠ 0 ∧ t.pc ≠ .crashed := by
  obtain ⟨hdivisor, hpc⟩ := h
  cases steps_of_step hstep with
  | enter hat => exact ⟨hdivisor, by simp [State.resetBudget]⟩
  | work hat => exact ⟨hdivisor, by simp [State.resetBudget]⟩
  | idle hat => exact ⟨hdivisor, by simp⟩
  | threw hat => exact ⟨hdivisor, by simp⟩
  | leave hat => exact ⟨hdivisor, by simp⟩
  | pause hat hcounter => exact ⟨hdivisor, by simp⟩
  | sleep hat hcounter => exact ⟨hdivisor, by simp⟩
  | reload hat => exact ⟨hdivisor, by simp [State.reload]⟩
  | divide hat =>
      unfold State.divide
      rw [if_neg hdivisor]
      exact ⟨hdivisor, by simp⟩
  | stopMonitor => exact ⟨hdivisor, hpc⟩
  | setSleepDurationUs sleepUs => exact ⟨hdivisor, hpc⟩
  | setPollLimit pollLimit => exact ⟨hdivisor, hpc⟩
  | setWakeupSpinDivisor divisor => exact ⟨orDefault_ne_zero (by decide), hpc⟩

def budget (limit divisor : BitVec 32) : Nat → BitVec 32
  | 0 => limit
  | k + 1 => budget limit divisor k / divisor

/-- How many scans in a row are followed by a pause: the budget as the `int` it is converted to. -/
def spins (limit divisor : BitVec 32) (k : Nat) : Nat :=
  (budget limit divisor k).toInt.toNat

theorem toNat_budget (limit divisor : BitVec 32) (k : Nat) :
    (budget limit divisor k).toNat = limit.toNat / divisor.toNat ^ k := by
  induction k with
  | zero => rw [budget, pow_zero, Nat.div_one]
  | succ k ih => rw [budget, BitVec.toNat_udiv, ih, Nat.div_div_eq_div_mul, pow_succ]

theorem budget_le (limit divisor : BitVec 32) (k : Nat) :
    (budget limit divisor k).toNat ≤ limit.toNat := by
  rw [toNat_budget]
  exact Nat.div_le_self _ _

theorem spins_of_lt {limit : BitVec 32} (h : limit.toNat < 2 ^ 31) (divisor : BitVec 32)
    (k : Nat) : spins limit divisor k = limit.toNat / divisor.toNat ^ k := by
  have hle := budget_le limit divisor k
  unfold spins
  rw [BitVec.toInt_eq_toNat_of_lt (by omega), Int.toNat_natCast, toNat_budget]

/-- A larger one is negative as an `int`, and the thread does not spin at all before it sleeps. -/
theorem spins_zero_of_le {limit : BitVec 32} (h : 2 ^ 31 ≤ limit.toNat) (divisor : BitVec 32) :
    spins limit divisor 0 = 0 := by
  have hlimit := limit.isLt
  unfold spins budget
  rw [BitVec.toInt_eq_toNat_cond, if_neg (by omega)]
  omega

structure Budgeted (limit divisor : BitVec 32) (i : IdlePhase) (s : State) : Prop where
  limit_eq : s.dev.activePollCntLimit = limit
  divisor_eq : s.dev.wakeupSpinDivisor = divisor
  pauses_le : i.pauses ≤ spins limit divisor i.sleeps
  entering : s.pc = .entering → i = ⟨0, 0, 0⟩
  counting : s.pc = .scanning ∨ s.pc = .deciding →
    s.currentSpinLimit = budget limit divisor i.sleeps ∧
      s.spinCounter = (budget limit divisor i.sleeps).toInt - i.pauses
  scans_eq : s.pc ≠ .deciding → i.scans = i.pauses
  scans_succ : s.pc = .deciding → i.scans = i.pauses + 1
  waking : s.pc = .reloading ∨ s.pc = .dividing → i.pauses = 0 ∧
    ∃ k, i.sleeps = k + 1 ∧ s.currentSpinLimit = budget limit divisor k

theorem budgeted_start (dev : PollSettings) (sleepUs pollLimit divisor : BitVec 32) :
    Budgeted (orDefault pollLimit kDefaultPollLimit)
      (orDefault divisor kDefaultWakeupSpinDivisor) ⟨0, 0, 0⟩
      (pimStartMonitor dev sleepUs pollLimit divisor) where
  limit_eq := rfl
  divisor_eq := rfl
  pauses_le := Nat.zero_le _
  entering := fun _ => rfl
  counting := by simp [pimStartMonitor]
  scans_eq := fun _ => rfl
  scans_succ := by simp [pimStartMonitor]
  waking := by simp [pimStartMonitor]

theorem Budgeted.resetBudget {limit divisor : BitVec 32} {i : IdlePhase} {s : State}
    (h : Budgeted limit divisor i s) : Budgeted limit divisor ⟨0, 0, 0⟩ s.resetBudget where
  limit_eq := h.limit_eq
  divisor_eq := h.divisor_eq
  pauses_le := Nat.zero_le _
  entering := fun _ => rfl
  counting := by
    intro _
    unfold State.resetBudget budget
    rw [h.limit_eq]
    simp
  scans_eq := fun _ => rfl
  scans_succ := by simp [State.resetBudget]
  waking := by simp [State.resetBudget]

theorem Budgeted.pause {limit divisor : BitVec 32} {i : IdlePhase} {s : State}
    (h : Budgeted limit divisor i s) (hpc : s.pc = .deciding) (hcounter : 0 < s.spinCounter) :
    Budgeted limit divisor { i with pauses := i.pauses + 1 }
      { s with spinCounter := s.spinCounter - 1, pc := .scanning } where
  limit_eq := h.limit_eq
  divisor_eq := h.divisor_eq
  pauses_le := by
    rw [(h.counting (.inr hpc)).2] at hcounter
    unfold spins
    dsimp only
    omega
  entering := by simp
  counting := by
    intro _
    obtain ⟨hcurrent, hleft⟩ := h.counting (.inr hpc)
    refine ⟨hcurrent, ?_⟩
    dsimp only
    push_cast
    omega
  scans_eq := fun _ => h.scans_succ hpc
  scans_succ := by simp
  waking := by simp

theorem Budgeted.sleep {limit divisor : BitVec 32} {i : IdlePhase} {s : State}
    (h : Budgeted limit divisor i s) (hpc : s.pc = .deciding) :
    Budgeted limit divisor ⟨i.sleeps + 1, 0, 0⟩ { s with pc := .reloading } where
  limit_eq := h.limit_eq
  divisor_eq := h.divisor_eq
  pauses_le := Nat.zero_le _
  entering := by simp
  counting := by simp
  scans_eq := fun _ => rfl
  scans_succ := by simp
  waking := fun _ => ⟨rfl, i.sleeps, rfl, (h.counting (.inr hpc)).1⟩

/-- The limit the thread goes by is never above the setting, so that it is not cut down to it. -/
theorem Budgeted.reload {limit divisor : BitVec 32} {i : IdlePhase} {s : State}
    (h : Budgeted limit divisor i s) (hpc : s.pc = .reloading) :
    Budgeted limit divisor i s.reload where
  limit_eq := h.limit_eq
  divisor_eq := h.divisor_eq
  pauses_le := h.pauses_le
  entering := by simp [State.reload]
  counting := by simp [State.reload]
  scans_eq := fun _ => h.scans_eq (by rw [hpc]; decide)
  scans_succ := by simp [State.reload]
  waking := by
    intro _
    obtain ⟨hpauses, k, hk, hcurrent⟩ := h.waking (.inl hpc)
    refine ⟨hpauses, k, hk, ?_⟩
    have hle := budget_le limit divisor k
    unfold State.reload
    rw [hcurrent, h.limit_eq]
    exact if_neg (BitVec.not_lt.mpr (BitVec.le_def.mpr hle))

theorem Budgeted.divide {limit divisor : BitVec 32} {i : IdlePhase} {s : State}
    (h : Budgeted limit divisor i s) (hpc : s.pc = .dividing) (hdivisor : divisor ≠ 0) :
    Budgeted limit divisor i s.divide := by
  obtain ⟨hpauses, k, hk, hcurrent⟩ := h.waking (.inr hpc)
  have hscans := h.scans_eq (by rw [hpc]; decide)
  have hbudget : budget limit divisor k / divisor = budget limit divisor i.sleeps := by
    rw [hk, budget]
  unfold State.divide
  rw [h.divisor_eq, if_neg hdivisor, hcurrent, hbudget]
  exact
    { limit_eq := h.limit_eq
      divisor_eq := h.divisor_eq
      pauses_le := h.pauses_le
      entering := by simp
      counting := fun _ => ⟨rfl, by rw [hpauses]; simp⟩
      scans_eq := fun _ => hscans
      scans_succ := by simp
      waking := by simp }

theorem step_budgeted {limit divisor : BitVec 32} (hdivisor : divisor ≠ 0) {i : IdlePhase}
    {s t : State} {a : Action} (h : Budgeted limit divisor i s) (ha : a.KeepsBudget)
    (hstep : step s a = some t) : Budgeted limit divisor (i.after a) t := by
  cases steps_of_step hstep with
  | enter hpc =>
      obtain rfl := h.entering hpc
      exact h.resetBudget
  | work hpc => exact h.resetBudget
  | idle hpc =>
      have hscans := h.scans_eq (by rw [hpc]; decide)
      exact
        { limit_eq := h.limit_eq
          divisor_eq := h.divisor_eq
          pauses_le := h.pauses_le
          entering := by simp
          counting := fun _ => h.counting (.inl hpc)
          scans_eq := by simp
          scans_succ := fun _ => congrArg (· + 1) hscans
          waking := by simp }
  | threw hpc =>
      exact
        { limit_eq := h.limit_eq
          divisor_eq := h.divisor_eq
          pauses_le := h.pauses_le
          entering := by simp
          counting := by simp
          scans_eq := fun _ => h.scans_eq (by rw [hpc]; decide)
          scans_succ := by simp
          waking := by simp }
  | leave hpc =>
      exact
        { limit_eq := h.limit_eq
          divisor_eq := h.divisor_eq
          pauses_le := h.pauses_le
          entering := by simp
          counting := by simp
          scans_eq := fun _ => h.scans_eq (by rw [hpc]; decide)
          scans_succ := by simp
          waking := by simp }
  | pause hpc hcounter => exact h.pause hpc hcounter
  | sleep hpc hcounter => exact h.sleep hpc
  | reload hpc => exact h.reload hpc
  | divide hpc => exact h.divide hpc hdivisor
  | stopMonitor => exact { h with }
  | setSleepDurationUs sleepUs => exact { h with }
  | setPollLimit pollLimit => exact absurd ha id
  | setWakeupSpinDivisor divisor => exact absurd ha id

theorem run_budgeted {limit divisor : BitVec 32} (hdivisor : divisor ≠ 0) {i : IdlePhase}
    {s t : State} {as : List Action} (h : Budgeted limit divisor i s)
    (hkeeps : ∀ a ∈ as, a.KeepsBudget) (hrun : run step s as = some t) :
    Budgeted limit divisor (as.foldl IdlePhase.after i) t := by
  induction as generalizing s i with
  | nil =>
      cases hrun
      exact h
  | cons a as ih =>
      obtain ⟨u, hu, hrest⟩ := run_cons_some hrun
      have hnext := step_budgeted hdivisor h (hkeeps a List.mem_cons_self) hu
      exact ih hnext (fun b hb => hkeeps b (List.mem_cons_of_mem a hb)) hrest

def State.SleepsNext (s : State) : Prop :=
  ∃ t, step s (.sleep s.dev.deviceSleepDurationUs) = some t

theorem sleepsNext_iff {s : State} :
    s.SleepsNext ↔ s.pc = .deciding ∧ s.spinCounter ≤ 0 := by
  unfold State.SleepsNext step
  constructor
  · rintro ⟨t, ht⟩
    obtain ⟨⟨hpc, hcounter, -⟩, -⟩ := Option.ite_none_right_eq_some.mp ht
    exact ⟨hpc, Int.not_lt.mp hcounter⟩
  · rintro ⟨hpc, hcounter⟩
    exact ⟨_, if_pos ⟨hpc, Int.not_lt.mpr hcounter, rfl⟩⟩

theorem Budgeted.sleepsNext_iff {limit divisor : BitVec 32} {i : IdlePhase} {s : State}
    (h : Budgeted limit divisor i s) :
    s.SleepsNext ↔ i.scans = spins limit divisor i.sleeps + 1 := by
  have hpauses := h.pauses_le
  rw [MonitorPolling.sleepsNext_iff]
  by_cases hpc : s.pc = .deciding
  · have hscans := h.scans_succ hpc
    have hcounter := (h.counting (.inr hpc)).2
    unfold spins at hpauses ⊢
    constructor
    · rintro ⟨-, hleft⟩
      omega
    · intro hall
      exact ⟨hpc, by omega⟩
  · have hscans := h.scans_eq hpc
    refine iff_of_false (fun hsleep => hpc hsleep.1) ?_
    omega

theorem Budgeted.scans_le {limit divisor : BitVec 32} {i : IdlePhase} {s : State}
    (h : Budgeted limit divisor i s) : i.scans ≤ i.pauses + 1 := by
  by_cases hpc : s.pc = .deciding
  · exact (h.scans_succ hpc).le
  · have hscans := h.scans_eq hpc
    omega

abbrev startLimit (pollLimit : BitVec 32) : BitVec 32 :=
  orDefault pollLimit kDefaultPollLimit

abbrev startDivisor (divisor : BitVec 32) : BitVec 32 :=
  orDefault divisor kDefaultWakeupSpinDivisor

/-- Whatever is stored while the thread runs, it does not divide by zero.  As long as the limit
and the divisor stay as they are and the limit is below `2 ^ 31`, every idle phase is as long as
the budget divided once for each sleep since the last work: so many scans with a pause after
them, and one more that the thread goes to sleep after. -/
theorem monitorThread_budget (dev : PollSettings) (sleepUs pollLimit divisor : BitVec 32)
    (as : List Action) (t : State)
    (hrun : run step (pimStartMonitor dev sleepUs pollLimit divisor) as = some t) :
    (t.dev.wakeupSpinDivisor ≠ 0 ∧ t.pc ≠ .crashed) ∧
      ((startLimit pollLimit).toNat < 2 ^ 31 → (∀ a ∈ as, a.KeepsBudget) →
        (idlePhase as).pauses ≤
          (startLimit pollLimit).toNat / (startDivisor divisor).toNat ^ (idlePhase as).sleeps ∧
        (idlePhase as).scans ≤ (idlePhase as).pauses + 1 ∧
        (t.SleepsNext ↔ (idlePhase as).scans =
          (startLimit pollLimit).toNat / (startDivisor divisor).toNat ^ (idlePhase as).sleeps +
            1)) := by
  constructor
  · exact run_invariant (fun _ _ _ h hstep => step_divisor h hstep)
      ⟨divisor_ne_zero_start dev sleepUs pollLimit divisor, by simp [pimStartMonitor]⟩ hrun
  · intro hlimit hkeeps
    have hend := run_budgeted (orDefault_ne_zero (by decide))
      (budgeted_start dev sleepUs pollLimit divisor) hkeeps hrun
    have hpauses := hend.pauses_le
    have hsleeps := hend.sleepsNext_iff
    rw [spins_of_lt hlimit] at hpauses hsleeps
    exact ⟨hpauses, hend.scans_le, hsleeps⟩

theorem monitorThread_budget_one :
    ∃ t, run step (pimStartMonitor ⟨0, 0, 0⟩ 100 1 4)
        [.enter, .scan .idle, .pause, .scan .idle] = some t ∧
      (t.dev.wakeupSpinDivisor ≠ 0 ∧ t.pc ≠ .crashed) ∧
      (t.SleepsNext ↔ 2 = (startLimit 1).toNat / (startDivisor 4).toNat ^ 0 + 1) := by
  obtain ⟨t, hrun, -⟩ := @exists_run _ _ step (pimStartMonitor ⟨0, 0, 0⟩ 100 1 4)
    [.enter, .scan .idle, .pause, .scan .idle] (fun _ => True) _ (by decide)
  have hbudget := monitorThread_budget ⟨0, 0, 0⟩ 100 1 4 _ t hrun
  exact ⟨t, hrun, hbudget.1, (hbudget.2 (by decide) (by simp [Action.KeepsBudget])).2.2⟩

/-- It is not the scans without work that the limit counts: with limit 1 there are two of them
before the first sleep. -/
theorem scans_ne_limit :
    ¬ ∀ (dev : PollSettings) (sleepUs pollLimit divisor : BitVec 32) (as : List Action) (t : State),
      run step (pimStartMonitor dev sleepUs pollLimit divisor) as = some t →
      (∀ a ∈ as, a.KeepsBudget) → t.SleepsNext →
      (idlePhase as).scans =
        (startLimit pollLimit).toNat / (startDivisor divisor).toNat ^ (idlePhase as).sleeps := by
  intro hall
  obtain ⟨t, hrun, hsleep⟩ := @exists_run _ _ step (pimStartMonitor ⟨0, 0, 0⟩ 100 1 4)
    [.enter, .scan .idle, .pause, .scan .idle]
    (fun t => t.pc = .deciding ∧ t.spinCounter ≤ 0) _ (by decide)
  have hcount := hall ⟨0, 0, 0⟩ 100 1 4 _ t hrun (by simp [Action.KeepsBudget])
    (sleepsNext_iff.mpr hsleep)
  exact absurd hcount (by decide)

end HostPimSim.Core.MonitorPolling
