import HostPimSim.Core.SigsegvList

/-! Calls that take devices into SIGSEGV mode and out of it, change their regions and destroy
them.  Each leaves its device in the mode or out of it altogether, and no two are past their
checks on one device. -/
namespace HostPimSim.Core.SigsegvList
open Threads Transition

structure Phase where
  sigsegvEnabled : Bool
  transitionInProgress : Bool
  armed : Bool
  callbacks : Bool
  listed : Bool
  deriving DecidableEq

def Phase.off : Phase := ⟨false, false, false, false, false⟩

def Phase.on : Phase := ⟨true, false, true, true, true⟩

def ControlPc.phase : ControlPc → Option Phase
  | .listing | .undoWait _ | .undoClear => some ⟨false, false, false, true, false⟩
  | .arming | .undoing => some ⟨false, false, false, true, true⟩
  | .publishing => some ⟨false, false, true, true, true⟩
  | .disarming => some ⟨true, true, true, true, true⟩
  | .withdrawing => some ⟨true, true, false, true, true⟩
  | .tombstoning => some ⟨false, true, false, true, true⟩
  | .waiting _ | .signalling | .joining => some ⟨false, true, false, true, false⟩
  | .freeing | .mutating => some .off
  | .enableLock | .disableLock | .begun | .mutateLock | .returned => none

/-- The call holds `g_sigsegv_mutex`. -/
def ControlPc.locked : ControlPc → Bool
  | .joining | .freeing | .enableLock | .disableLock | .begun | .mutateLock | .returned => false
  | _ => true

def Control.finalizing (control : Control) : Bool :=
  control.finalizes && control.pc != .begun && control.pc != .returned

def Device.phase (dev : Device) (listed : Bool) : Phase where
  sigsegvEnabled := dev.sigsegvEnabled
  transitionInProgress := dev.transitionInProgress
  armed := dev.armed
  callbacks := dev.callbacks
  listed := listed

def State.phase (s : State) (d : Nat) : Phase := (s.devices d).phase (lists s.nodes d)

def Others (s : State) (index d : Nat) : Prop :=
  ∀ (j : Nat) (control : Control), s.controls[j]? = some control → control.dev = d → j ≠ index →
    control.pc.phase = none

structure Inv (s : State) : Prop where
  mutex : ∀ (i : Nat) (c : Control), s.controls[i]? = some c → (c.pc.locked = true ↔ s.lock = some i)
  holder : ∀ i, s.lock = some i → i < s.controls.length
  tended : ∀ (i : Nat) (c : Control) p, s.controls[i]? = some c → c.pc.phase = some p →
    s.phase c.dev = p ∧ (s.devices c.dev).allocated = true ∧ Others s i c.dev
  untended : ∀ d, (∀ (i : Nat) (c : Control), s.controls[i]? = some c → c.dev = d → c.pc.phase = none) →
    s.phase d = .off ∨ s.phase d = .on
  teardown : ∀ (i : Nat) (c : Control), s.controls[i]? = some c → c.finalizing = true →
    (s.devices c.dev).teardownInProgress = true ∧ (s.devices c.dev).allocated = true ∧
      ∀ (j : Nat) (c' : Control), s.controls[j]? = some c' → c'.dev = c.dev → c'.finalizing = true → j = i
  freeing : ∀ (i : Nat) (c : Control), s.controls[i]? = some c → c.pc = .freeing → c.finalizes = true
  allocated : ∀ d, (s.devices d).allocated = false → s.phase d = .off
  single : ∀ k k' d, devAt s.nodes k = some d → devAt s.nodes k' = some d → k = k'

theorem inv_init : Inv init := by
  refine ⟨?_, ?_, ?_, fun _ _ => .inl rfl, ?_, ?_, fun _ _ => rfl, ?_⟩
  · simp [init]
  · simp [init]
  · simp [init]
  · simp [init]
  · simp [init]
  · simp [init, devAt]

structure Turn (s t : State) (i : Nat) (c : Control) (pc : ControlPc) : Prop where
  control : s.controls[i]? = some c
  controls : t.controls = s.controls.set i { c with pc := pc }
  lock : t.lock = if pc.locked then some i else if c.pc.locked then none else s.lock
  free : pc.locked = true → c.pc.locked = true ∨ s.lock = none
  devices : ∀ d, d ≠ c.dev → t.devices d = s.devices d
  listed : ∀ k d, d ≠ c.dev → (devAt t.nodes k = some d ↔ devAt s.nodes k = some d)
  single : ∀ k k', devAt t.nodes k = some c.dev → devAt t.nodes k' = some c.dev → k = k'
  phase : ∀ p, pc.phase = some p →
    t.phase c.dev = p ∧ (t.devices c.dev).allocated = true ∧ Others s i c.dev
  quiet : pc.phase = none →
    ((t.phase c.dev = .off ∨ t.phase c.dev = .on) ∧ Others s i c.dev) ∨
      (c.pc.phase = none ∧ t.phase c.dev = s.phase c.dev ∧
        (t.devices c.dev).allocated = (s.devices c.dev).allocated)
  allocated : (t.devices c.dev).allocated = false → t.phase c.dev = .off
  teardown : (c.finalizing = true ∧ Control.finalizing { c with pc := pc } = false) ∨
    ((t.devices c.dev).allocated = (s.devices c.dev).allocated ∧
      ((t.devices c.dev).teardownInProgress = (s.devices c.dev).teardownInProgress ∧
          (Control.finalizing { c with pc := pc } = true → c.finalizing = true) ∨
        (s.devices c.dev).teardownInProgress = false ∧
          (t.devices c.dev).teardownInProgress = true ∧ (t.devices c.dev).allocated = true))
  freeing : pc = .freeing → c.finalizes = true

section
variable {s t : State} {i : Nat} {c : Control} {pc : ControlPc}

theorem Turn.phase_other (turn : Turn s t i c pc) {d : Nat} (hd : d ≠ c.dev) :
    t.phase d = s.phase d := by
  unfold State.phase
  rw [turn.devices d hd, lists_congr fun k => turn.listed k d hd]

theorem Turn.cases (turn : Turn s t i c pc) {j : Nat} {c' : Control}
    (h : t.controls[j]? = some c') :
    (j = i ∧ c' = { c with pc := pc }) ∨ (j ≠ i ∧ s.controls[j]? = some c') := by
  rw [turn.controls] at h
  exact getElem?_set_some h

theorem Turn.moved (turn : Turn s t i c pc) : t.controls[i]? = some { c with pc := pc } := by
  rw [turn.controls]
  exact getElem?_set_moved turn.control

theorem Turn.kept (turn : Turn s t i c pc) {j : Nat} (hj : j ≠ i) :
    t.controls[j]? = s.controls[j]? := by
  rw [turn.controls, List.getElem?_set_ne (Ne.symm hj)]

theorem Turn.others (turn : Turn s t i c pc) {j d : Nat} (hd : d = c.dev → j ≠ i → pc.phase = none)
    (h : Others s j d) : Others t j d := by
  intro j' c' hc' hdev hne
  rcases turn.cases hc' with ⟨rfl, rfl⟩ | ⟨hi, hold⟩
  · exact hd hdev.symm hne.symm
  · exact h j' c' hold hdev hne

theorem Turn.inv_mutex (turn : Turn s t i c pc) (h : Inv s) (j : Nat) (c' : Control)
    (hc' : t.controls[j]? = some c') : c'.pc.locked = true ↔ t.lock = some j := by
  have hself := h.mutex i c turn.control
  rcases turn.cases hc' with ⟨rfl, rfl⟩ | ⟨hj, hold⟩
  · rw [turn.lock]
    dsimp only
    cases hlocked : pc.locked with
    | true => simp
    | false =>
        cases hbefore : c.pc.locked with
        | true => simp
        | false => simpa [hbefore] using hself
  · rw [turn.lock, h.mutex j c' hold]
    cases hlocked : pc.locked with
    | true =>
        rcases turn.free hlocked with hbefore | hnone
        · simp [hself.mp hbefore, Ne.symm hj]
        · simp [hnone, Ne.symm hj]
    | false =>
        cases hbefore : c.pc.locked with
        | true => simp [hself.mp hbefore, Ne.symm hj]
        | false => simp

theorem Turn.inv_tended (turn : Turn s t i c pc) (h : Inv s) (j : Nat) (c' : Control) (p : Phase)
    (hc' : t.controls[j]? = some c') (hp : c'.pc.phase = some p) :
    t.phase c'.dev = p ∧ (t.devices c'.dev).allocated = true ∧ Others t j c'.dev := by
  rcases turn.cases hc' with ⟨rfl, rfl⟩ | ⟨hj, hold⟩
  · obtain ⟨hphase, hallocated, hothers⟩ := turn.phase p hp
    exact ⟨hphase, hallocated, turn.others (fun _ hne => absurd rfl hne) hothers⟩
  · obtain ⟨hphase, hallocated, hothers⟩ := h.tended j c' p hold hp
    by_cases hd : c'.dev = c.dev
    · have hinside : ¬ Others s i c.dev := fun hothers =>
        Option.some_ne_none p (hp.symm.trans (hothers j c' hold hd hj))
      have hquiet : pc.phase = none := by
        cases hpc : pc.phase with
        | none => rfl
        | some q => exact absurd (turn.phase q hpc).2.2 hinside
      obtain ⟨-, hothers'⟩ | ⟨-, hsame, halloc⟩ := turn.quiet hquiet
      · exact absurd hothers' hinside
      · rw [hd, hsame, halloc, ← hd]
        exact ⟨hphase, hallocated, turn.others (fun _ _ => hquiet) hothers⟩
    · rw [turn.phase_other hd, turn.devices _ hd]
      exact ⟨hphase, hallocated, turn.others (fun hsame => absurd hsame hd) hothers⟩

theorem Turn.inv_untended (turn : Turn s t i c pc) (h : Inv s) (d : Nat)
    (hnone : ∀ (j : Nat) (c' : Control), t.controls[j]? = some c' → c'.dev = d → c'.pc.phase = none) :
    t.phase d = .off ∨ t.phase d = .on := by
  have hold : ∀ (j : Nat) (c' : Control), j ≠ i → s.controls[j]? = some c' → c'.dev = d → c'.pc.phase = none :=
    fun j c' hj hc' hdev => hnone j c' ((turn.kept hj).trans hc') hdev
  by_cases hd : d = c.dev
  · subst hd
    have hquiet : pc.phase = none := hnone i _ turn.moved rfl
    obtain ⟨hphase, -⟩ | ⟨hbefore, hsame, -⟩ := turn.quiet hquiet
    · exact hphase
    · rw [hsame]
      apply h.untended
      intro j c' hc' hdev
      by_cases hj : j = i
      · rw [hj, turn.control] at hc'
        rw [← Option.some.inj hc']
        exact hbefore
      · exact hold j c' hj hc' hdev
  · rw [turn.phase_other hd]
    apply h.untended
    intro j c' hc' hdev
    by_cases hj : j = i
    · rw [hj, turn.control] at hc'
      exact absurd (hdev.symm.trans (congrArg Control.dev (Option.some.inj hc')).symm) hd
    · exact hold j c' hj hc' hdev

theorem Turn.inv_teardown (turn : Turn s t i c pc) (h : Inv s) (j : Nat) (c' : Control)
    (hc' : t.controls[j]? = some c') (hfinalizing : c'.finalizing = true) :
    (t.devices c'.dev).teardownInProgress = true ∧ (t.devices c'.dev).allocated = true ∧
      ∀ (j' : Nat) (c'' : Control), t.controls[j']? = some c'' → c''.dev = c'.dev → c''.finalizing = true →
        j' = j := by
  have hunique : ∀ (j₁ j₂ : Nat) (c₁ c₂ : Control), s.controls[j₁]? = some c₁ → s.controls[j₂]? = some c₂ →
      c₁.dev = c₂.dev → c₁.finalizing = true → c₂.finalizing = true → j₁ = j₂ :=
    fun j₁ j₂ c₁ c₂ h₁ h₂ hdev hf₁ hf₂ => (h.teardown j₂ c₂ h₂ hf₂).2.2 j₁ c₁ h₁ hdev hf₁
  by_cases hd : c'.dev = c.dev
  · obtain ⟨hf, hover⟩ | ⟨halloc, hrest⟩ := turn.teardown
    · -- the teardown that was on its way is over, and it was the only one
      rcases turn.cases hc' with ⟨rfl, rfl⟩ | ⟨hj, hold⟩
      · rw [hover] at hfinalizing
        cases hfinalizing
      · exact absurd (hunique j i c' c hold turn.control hd hfinalizing hf) hj
    · obtain ⟨hsame, hkeeps⟩ | ⟨hfalse, htrue, hallocated⟩ := hrest
      · have hbefore : ∀ (j : Nat) (c' : Control), t.controls[j]? = some c' → c'.finalizing = true →
            ∃ c₀, s.controls[j]? = some c₀ ∧ c₀.dev = c'.dev ∧ c₀.finalizing = true := by
          intro j c' hc' hf
          rcases turn.cases hc' with ⟨rfl, rfl⟩ | ⟨-, hold⟩
          · exact ⟨c, turn.control, rfl, hkeeps hf⟩
          · exact ⟨c', hold, rfl, hf⟩
        obtain ⟨c₀, hc₀, hdev₀, hf₀⟩ := hbefore j c' hc' hfinalizing
        obtain ⟨hteardown, hallocated, -⟩ := h.teardown j c₀ hc₀ hf₀
        rw [hdev₀, hd] at hteardown hallocated
        refine ⟨?_, ?_, fun j' c'' hc'' hdev hf => ?_⟩
        · rw [hd, hsame]
          exact hteardown
        · rw [hd, halloc]
          exact hallocated
        · obtain ⟨c₁, hc₁, hdev₁, hf₁⟩ := hbefore j' c'' hc'' hf
          exact hunique j' j c₁ c₀ hc₁ hc₀ ((hdev₁.trans hdev).trans hdev₀.symm) hf₁ hf₀
      · have hmoved : ∀ (j' : Nat) (c'' : Control), t.controls[j']? = some c'' → c''.dev = c.dev →
            c''.finalizing = true → j' = i := by
          intro j' c'' hc'' hdev hf
          rcases turn.cases hc'' with ⟨rfl, -⟩ | ⟨-, hold⟩
          · rfl
          · have hteardown := (h.teardown j' c'' hold hf).1
            rw [hdev, hfalse] at hteardown
            cases hteardown
        have hj := hmoved j c' hc' hd hfinalizing
        rw [hd, hj]
        exact ⟨htrue, hallocated, hmoved⟩
  · have hdev : ∀ (j : Nat) (c'' : Control), t.controls[j]? = some c'' → c''.dev = c'.dev →
        s.controls[j]? = some c'' := by
      intro j c'' hc'' hdev
      rcases turn.cases hc'' with ⟨rfl, rfl⟩ | ⟨-, hold⟩
      · exact absurd hdev.symm hd
      · exact hold
    rw [turn.devices _ hd]
    obtain ⟨hteardown, hallocated, hone⟩ := h.teardown j c' (hdev j c' hc' rfl) hfinalizing
    exact ⟨hteardown, hallocated, fun j' c'' hc'' hsame hf =>
      hone j' c'' (hdev j' c'' hc'' hsame) hsame hf⟩

theorem Turn.inv (turn : Turn s t i c pc) (h : Inv s) : Inv t := by
  refine ⟨turn.inv_mutex h, ?_, turn.inv_tended h, turn.inv_untended h, turn.inv_teardown h, ?_, ?_,
    ?_⟩
  · intro j hj
    rw [turn.controls, List.length_set]
    rw [turn.lock] at hj
    have hlength : i < s.controls.length := (List.getElem?_eq_some_iff.mp turn.control).1
    split at hj
    · cases hj
      exact hlength
    · split at hj
      · cases hj
      · exact h.holder j hj
  · intro j c' hc' hfreeing
    rcases turn.cases hc' with ⟨rfl, rfl⟩ | ⟨-, hold⟩
    · exact turn.freeing hfreeing
    · exact h.freeing j c' hold hfreeing
  · intro d hnot
    by_cases hd : d = c.dev
    · subst hd
      exact turn.allocated hnot
    · rw [turn.devices d hd] at hnot
      rw [turn.phase_other hd]
      exact h.allocated d hnot
  · intro k k' d hk hk'
    by_cases hd : d = c.dev
    · subst hd
      exact turn.single k k' hk hk'
    · exact h.single k k' d ((turn.listed k d hd).mp hk) ((turn.listed k' d hd).mp hk')

structure Relisted (nodes nodes' : List Node) (d : Nat) : Prop where
  listed : ∀ k e, e ≠ d → (devAt nodes' k = some e ↔ devAt nodes k = some e)
  single : (∀ k k', devAt nodes k = some d → devAt nodes k' = some d → k = k') →
    ∀ k k', devAt nodes' k = some d → devAt nodes' k' = some d → k = k'

theorem relisted_refl (nodes : List Node) (d : Nat) : Relisted nodes nodes d :=
  ⟨fun _ _ _ => Iff.rfl, id⟩

theorem relisted_list {nodes : List Node} {d : Nat} (hnot : lists nodes d = false) :
    Relisted nodes (listDevice nodes d) d := by
  obtain ⟨k, hfree, hdev, -, -⟩ := listDevice_spec nodes d
  have hnone : ∀ j, devAt nodes j ≠ some d := fun j hj => by
    rw [lists_iff.mpr ⟨j, hj⟩] at hnot
    cases hnot
  refine ⟨fun j e he => ?_, fun _ j j' hj hj' => ?_⟩
  · rw [hdev]
    split
    · rename_i hjk
      rw [hjk, hfree]
      simp [Ne.symm he]
    · rfl
  · rw [hdev] at hj hj'
    split at hj
    · split at hj'
      · rename_i h h'
        rw [h, h']
      · exact absurd hj' (hnone j')
    · exact absurd hj (hnone j)

theorem relisted_tombstone (nodes : List Node) (d : Nat) :
    Relisted nodes (tombstoneNode nodes (findDevice nodes d)) d := by
  cases hfind : findDevice nodes d with
  | none => exact relisted_refl nodes d
  | some k =>
      obtain ⟨hk, hdev, -, -⟩ := findDevice_some hfind
      refine ⟨fun j e he => ?_, fun hsingle j j' hj hj' => ?_⟩
      · rw [hdev]
        split
        · rename_i hjk
          rw [hjk, hk]
          simp [Ne.symm he]
        · rfl
      · rw [hdev] at hj hj'
        split at hj
        · cases hj
        · split at hj'
          · cases hj'
          · exact hsingle j j' hj hj'

theorem lists_listDevice (nodes : List Node) (d : Nat) : lists (listDevice nodes d) d = true := by
  obtain ⟨k, -, hdev, -, -⟩ := listDevice_spec nodes d
  exact lists_iff.mpr ⟨k, by rw [hdev, if_pos rfl]⟩

theorem lists_tombstone {nodes : List Node} {d : Nat}
    (hsingle : ∀ k k', devAt nodes k = some d → devAt nodes k' = some d → k = k') :
    lists (tombstoneNode nodes (findDevice nodes d)) d = false := by
  rw [← Bool.not_eq_true, lists_iff]
  rintro ⟨j, hj⟩
  cases hfind : findDevice nodes d with
  | none =>
      rw [hfind] at hj
      exact findDevice_none hfind j hj
  | some k =>
      obtain ⟨hk, hdev, -, -⟩ := findDevice_some hfind
      rw [hfind, hdev] at hj
      split at hj
      · cases hj
      · rename_i hjk
        exact hjk (hsingle j k hj hk)

theorem ne_of_phase {pc : ControlPc} {p : Phase} (hp : pc.phase = some p) :
    (pc != .begun && pc != .returned) = true := by
  cases pc <;> first | rfl | cases hp

theorem turn_inside (h : Inv s) (hc : s.controls[i]? = some c) {p₀ p : Phase}
    (hp₀ : c.pc.phase = some p₀) (hp : pc.phase = some p)
    (hcontrols : t.controls = s.controls.set i { c with pc := pc })
    (hnodes : Relisted s.nodes t.nodes c.dev)
    (hlock : t.lock = if pc.locked then some i else if c.pc.locked then none else s.lock)
    (hfree : pc.locked = true → c.pc.locked = true)
    (hdevices : ∀ d, d ≠ c.dev → t.devices d = s.devices d)
    (hphase : s.phase c.dev = p₀ → t.phase c.dev = p)
    (hkept : (t.devices c.dev).allocated = (s.devices c.dev).allocated ∧
      (t.devices c.dev).teardownInProgress = (s.devices c.dev).teardownInProgress)
    (hfreeing : pc = .freeing → c.finalizes = true) : Turn s t i c pc := by
  obtain ⟨hbefore, hallocated, hothers⟩ := h.tended i c p₀ hc hp₀
  have hafter : (t.devices c.dev).allocated = true := hkept.1.trans hallocated
  refine ⟨hc, hcontrols, hlock, fun hl => .inl (hfree hl), hdevices, hnodes.listed,
    hnodes.single fun k k' => h.single k k' c.dev, ?_, ?_, ?_, ?_, hfreeing⟩
  · intro q hq
    rw [hp] at hq
    cases hq
    exact ⟨hphase hbefore, hafter, hothers⟩
  · intro hnone
    rw [hp] at hnone
    cases hnone
  · intro hnot
    rw [hafter] at hnot
    cases hnot
  · refine .inr ⟨hkept.1, .inl ⟨hkept.2, fun hf => ?_⟩⟩
    have hne := ne_of_phase hp₀
    unfold Control.finalizing at hf ⊢
    rw [Bool.and_eq_true, Bool.and_eq_true] at hf
    rw [Bool.and_assoc, hf.1.1, hne]
    rfl

theorem turn_enter (h : Inv s) (hc : s.controls[i]? = some c) {p : Phase}
    (hp : pc.phase = some p) (hbegun : c.pc ≠ .begun ∧ c.pc ≠ .returned)
    (hallocated : (s.devices c.dev).allocated = true)
    (hcontrols : t.controls = s.controls.set i { c with pc := pc }) (hnodes : t.nodes = s.nodes)
    (hlock : t.lock = if pc.locked then some i else if c.pc.locked then none else s.lock)
    (hfree : s.lock = none)
    (hdevices : ∀ d, d ≠ c.dev → t.devices d = s.devices d)
    (hothers : Others s i c.dev) (hphase : t.phase c.dev = p)
    (hkept : (t.devices c.dev).allocated = (s.devices c.dev).allocated ∧
      (t.devices c.dev).teardownInProgress = (s.devices c.dev).teardownInProgress)
    (hfreeing : pc = .freeing → c.finalizes = true) : Turn s t i c pc := by
  have hafter : (t.devices c.dev).allocated = true := hkept.1.trans hallocated
  refine ⟨hc, hcontrols, hlock, fun _ => .inr hfree, hdevices, fun k d _ => by rw [hnodes],
    fun k k' => by rw [hnodes]; exact h.single k k' c.dev, ?_, ?_, ?_, ?_, hfreeing⟩
  · intro q hq
    rw [hp] at hq
    cases hq
    exact ⟨hphase, hafter, hothers⟩
  · intro hnone
    rw [hp] at hnone
    cases hnone
  · intro hnot
    rw [hafter] at hnot
    cases hnot
  · refine .inr ⟨hkept.1, .inl ⟨hkept.2, fun hf => ?_⟩⟩
    unfold Control.finalizing at hf ⊢
    rw [Bool.and_eq_true, Bool.and_eq_true] at hf
    have hfinalizes : c.finalizes = true := hf.1.1
    simp [hfinalizes, hbegun.1, hbegun.2]

theorem turn_leave (h : Inv s) (hc : s.controls[i]? = some c) {p₀ : Phase}
    (hp₀ : c.pc.phase = some p₀)
    (hcontrols : t.controls = s.controls.set i { c with pc := .returned })
    (hnodes : t.nodes = s.nodes)
    (hlock : t.lock = if c.pc.locked then none else s.lock)
    (hdevices : ∀ d, d ≠ c.dev → t.devices d = s.devices d)
    (hphase : s.phase c.dev = p₀ → t.phase c.dev = .off ∨ t.phase c.dev = .on)
    (hallocated : s.phase c.dev = p₀ → (t.devices c.dev).allocated = false →
      t.phase c.dev = .off)
    (hkept : c.finalizes = true ∨ (t.devices c.dev).allocated = (s.devices c.dev).allocated ∧
      (t.devices c.dev).teardownInProgress = (s.devices c.dev).teardownInProgress) :
    Turn s t i c .returned := by
  obtain ⟨hbefore, -, hothers⟩ := h.tended i c p₀ hc hp₀
  have hover : Control.finalizing { c with pc := .returned } = false := by
    simp [Control.finalizing]
  refine ⟨hc, hcontrols, hlock, (fun hl => nomatch hl), hdevices, fun k d _ => by rw [hnodes],
    fun k k' => by rw [hnodes]; exact h.single k k' c.dev, (fun _ hq => nomatch hq),
    fun _ => .inl ⟨hphase hbefore, hothers⟩, hallocated hbefore, ?_, (fun hf => nomatch hf)⟩
  rcases hkept with hfinalizes | hkept
  · refine .inl ⟨?_, hover⟩
    unfold Control.finalizing
    rw [Bool.and_assoc, hfinalizes, ne_of_phase hp₀]
    rfl
  · exact .inr ⟨hkept.1, .inl ⟨hkept.2, fun hf => by rw [hover] at hf; cases hf⟩⟩

theorem turn_outside (h : Inv s) (hc : s.controls[i]? = some c)
    (hp₀ : c.pc.phase = none) (hp : pc.phase = none)
    (hunlocked : c.pc.locked = false ∧ pc.locked = false)
    (hcontrols : t.controls = s.controls.set i { c with pc := pc }) (hnodes : t.nodes = s.nodes)
    (hlock : t.lock = s.lock) (hdevices : ∀ d, d ≠ c.dev → t.devices d = s.devices d)
    (hphase : t.phase c.dev = s.phase c.dev)
    (hallocated : (t.devices c.dev).allocated = (s.devices c.dev).allocated)
    (hteardown : (c.finalizing = true ∧ Control.finalizing { c with pc := pc } = false) ∨
      (t.devices c.dev).teardownInProgress = (s.devices c.dev).teardownInProgress ∧
        (Control.finalizing { c with pc := pc } = true → c.finalizing = true) ∨
      (s.devices c.dev).teardownInProgress = false ∧
        (t.devices c.dev).teardownInProgress = true ∧ (t.devices c.dev).allocated = true) :
    Turn s t i c pc := by
  refine ⟨hc, hcontrols, ?_, fun hl => ?_, hdevices, fun k d _ => by rw [hnodes],
    fun k k' => by rw [hnodes]; exact h.single k k' c.dev, fun p hq => ?_,
    fun _ => .inr ⟨hp₀, hphase, hallocated⟩, fun hnot => ?_, hteardown.imp_right fun hrest =>
      ⟨hallocated, hrest⟩, fun hfreeing => ?_⟩
  · rw [hunlocked.1, hunlocked.2]
    exact hlock
  · rw [hunlocked.2] at hl
    cases hl
  · rw [hp] at hq
    cases hq
  · rw [hphase]
    exact h.allocated _ (hallocated.symm.trans hnot)
  · rw [hfreeing] at hp
    cases hp

theorem State.phase_eq_iff {d : Nat} {p : Phase} : s.phase d = p ↔
    (s.devices d).sigsegvEnabled = p.sigsegvEnabled ∧
      (s.devices d).transitionInProgress = p.transitionInProgress ∧
      (s.devices d).armed = p.armed ∧ (s.devices d).callbacks = p.callbacks ∧
      lists s.nodes d = p.listed := by
  constructor
  · rintro rfl
    exact ⟨rfl, rfl, rfl, rfl, rfl⟩
  · rintro ⟨h₁, h₂, h₃, h₄, h₅⟩
    unfold State.phase Device.phase
    rw [h₁, h₂, h₃, h₄, h₅]

theorem Inv.others (h : Inv s) {d : Nat} (hlock : s.lock = none)
    (htransition : (s.devices d).transitionInProgress = false)
    (hfreeing : ∀ (j : Nat) (c' : Control), s.controls[j]? = some c' → c'.dev = d → j ≠ i →
      c'.pc ≠ .freeing) : Others s i d := by
  intro j c' hc' hdev hj
  have hunlocked : c'.pc.locked = false := by
    rw [← Bool.not_eq_true, h.mutex j c' hc', hlock]
    simp
  cases hpc : c'.pc with
  | joining =>
      have hphase := (h.tended j c' _ hc' (by rw [hpc]; rfl)).1
      rw [State.phase_eq_iff, hdev, htransition] at hphase
      cases hphase.2.1
  | freeing => exact absurd hpc (hfreeing j c' hc' hdev hj)
  | enableLock | disableLock | begun | mutateLock | returned => rfl
  | _ =>
      rw [hpc] at hunlocked
      cases hunlocked

theorem finalizing_of_freeing (h : Inv s) {j : Nat} {c' : Control}
    (hc' : s.controls[j]? = some c') (hpc : c'.pc = .freeing) : c'.finalizing = true := by
  unfold Control.finalizing
  rw [hpc, h.freeing j c' hc' hpc]
  rfl

theorem Inv.others_of_refused (h : Inv s) {d : Nat} (hlock : s.lock = none)
    (htransition : (s.devices d).transitionInProgress = false)
    (hteardown : (s.devices d).teardownInProgress = false) : Others s i d := by
  apply h.others hlock htransition
  intro j c' hc' hdev _ hpc
  have htorn := (h.teardown j c' hc' (finalizing_of_freeing h hc' hpc)).1
  rw [hdev, hteardown] at htorn
  cases htorn

theorem Inv.others_of_enabled (h : Inv s) {d : Nat} (hlock : s.lock = none)
    (htransition : (s.devices d).transitionInProgress = false)
    (henabled : (s.devices d).sigsegvEnabled = true) : Others s i d := by
  apply h.others hlock htransition
  intro j c' hc' hdev _ hpc
  have hphase := (h.tended j c' .off hc' (by rw [hpc]; rfl)).1
  rw [State.phase_eq_iff, hdev, henabled] at hphase
  cases hphase.1

theorem Inv.others_of_finalizing (h : Inv s) (hc : s.controls[i]? = some c)
    (hf : c.finalizing = true) (hlock : s.lock = none)
    (htransition : (s.devices c.dev).transitionInProgress = false) : Others s i c.dev := by
  apply h.others hlock htransition
  intro j c' hc' hdev hj hpc
  exact hj ((h.teardown i c hc hf).2.2 j c' hc' hdev (finalizing_of_freeing h hc' hpc))

theorem Inv.settled (h : Inv s) (hc : s.controls[i]? = some c) (hp : c.pc.phase = none)
    (hothers : Others s i c.dev) :
    s.phase c.dev = if (s.devices c.dev).sigsegvEnabled then .on else .off := by
  have hphase : s.phase c.dev = .off ∨ s.phase c.dev = .on := by
    apply h.untended
    intro j c' hc' hdev
    by_cases hj : j = i
    · rw [hj, hc] at hc'
      cases hc'
      exact hp
    · exact hothers j c' hc' hdev hj
  rcases hphase with hoff | hon
  · rw [hoff, (State.phase_eq_iff.mp hoff).1]
    rfl
  · rw [hon, (State.phase_eq_iff.mp hon).1]
    rfl

theorem setDevice_same (s : State) (d : Nat) (f : Device → Device) :
    (s.setDevice d f).devices d = f (s.devices d) := if_pos rfl

theorem setDevice_other (s : State) {d e : Nat} (f : Device → Device) (h : e ≠ d) :
    (s.setDevice d f).devices e = s.devices e := if_neg h

theorem turn_relisting (h : Inv s) (hc : s.controls[i]? = some c) {p₀ p : Phase}
    (hp₀ : c.pc.phase = some p₀) (hp : pc.phase = some p)
    (hlocked : c.pc.locked = true ∧ pc.locked = true) {nodes : List Node}
    (hnodes : Relisted s.nodes nodes c.dev)
    (hlisted : lists s.nodes c.dev = p₀.listed → lists nodes c.dev = p.listed)
    (hrest : { p₀ with listed := p.listed } = p) :
    Turn s (State.setControl { s with nodes := nodes } i c pc) i c pc := by
  have hlock : s.lock = some i := (h.mutex i c hc).mp hlocked.1
  refine turn_inside h hc hp₀ hp rfl hnodes ?_ (fun _ => hlocked.1) (fun _ _ => rfl) (fun hphase => ?_)
    ⟨rfl, rfl⟩ (fun hfreeing => ?_)
  · rw [hlocked.2]
    exact hlock
  · rw [State.phase_eq_iff] at hphase ⊢
    obtain ⟨h₁, h₂, h₃, h₄, h₅⟩ := hphase
    rw [← hrest]
    refine ⟨h₁, h₂, h₃, h₄, ?_⟩
    rw [hrest]
    exact hlisted h₅
  · rw [hfreeing] at hlocked
    cases hlocked.2

theorem turn_device (h : Inv s) (hc : s.controls[i]? = some c) {p₀ p : Phase}
    (hp₀ : c.pc.phase = some p₀) (hp : pc.phase = some p) {lock : Option Nat}
    (hlock : lock = if pc.locked then some i else if c.pc.locked then none else s.lock)
    (hlocked : pc.locked = true → c.pc.locked = true) {f : Device → Device}
    (hf : ∀ listed, (s.devices c.dev).phase listed = p₀ → (f (s.devices c.dev)).phase listed = p)
    (hkept : (f (s.devices c.dev)).allocated = (s.devices c.dev).allocated ∧
      (f (s.devices c.dev)).teardownInProgress = (s.devices c.dev).teardownInProgress)
    (hfreeing : pc = .freeing → c.finalizes = true) :
    Turn s ((State.setDevice { s with lock := lock } c.dev f).setControl i c pc) i c pc := by
  refine turn_inside h hc hp₀ hp rfl (relisted_refl _ _) hlock hlocked
    (fun d hd => setDevice_other { s with lock := lock } f hd) (fun hphase => ?_) ?_ hfreeing
  · change ((State.setDevice { s with lock := lock } c.dev f).devices c.dev).phase _ = p
    rw [setDevice_same]
    exact hf _ hphase
  · change ((State.setDevice { s with lock := lock } c.dev f).devices c.dev).allocated = _ ∧
      ((State.setDevice { s with lock := lock } c.dev f).devices c.dev).teardownInProgress = _
    rw [setDevice_same]
    exact hkept

theorem setDevice_setDevice (s : State) (d : Nat) (f g : Device → Device) :
    (s.setDevice d f).setDevice d g = s.setDevice d fun dev => g (f dev) := by
  unfold State.setDevice
  congr 1
  funext e
  by_cases he : e = d
  · simp [he]
  · simp [he]

theorem turn_return (h : Inv s) (hc : s.controls[i]? = some c) {p₀ : Phase}
    (hp₀ : c.pc.phase = some p₀) {lock : Option Nat}
    (hlock : lock = if c.pc.locked then none else s.lock) {f : Device → Device}
    (hf : ∀ listed, (s.devices c.dev).phase listed = p₀ →
      (f (s.devices c.dev)).phase listed = .off ∨ (f (s.devices c.dev)).phase listed = .on)
    (hallocated : ∀ listed, (s.devices c.dev).phase listed = p₀ →
      (f (s.devices c.dev)).allocated = false → (f (s.devices c.dev)).phase listed = .off)
    (hkept : c.finalizes = true ∨
      (f (s.devices c.dev)).allocated = (s.devices c.dev).allocated ∧
        (f (s.devices c.dev)).teardownInProgress = (s.devices c.dev).teardownInProgress) :
    Turn s ((State.setDevice { s with lock := lock } c.dev f).setControl i c .returned) i c
      .returned := by
  have hsame := setDevice_same { s with lock := lock } c.dev f
  refine turn_leave h hc hp₀ rfl rfl hlock
    (fun d hd => setDevice_other { s with lock := lock } f hd) (fun hphase => ?_) (fun hphase => ?_) ?_
  · change ((State.setDevice { s with lock := lock } c.dev f).devices c.dev).phase _ = _ ∨
      ((State.setDevice { s with lock := lock } c.dev f).devices c.dev).phase _ = _
    rw [hsame]
    exact hf _ hphase
  · change ((State.setDevice { s with lock := lock } c.dev f).devices c.dev).allocated = _ →
      ((State.setDevice { s with lock := lock } c.dev f).devices c.dev).phase _ = _
    rw [hsame]
    exact hallocated _ hphase
  · change _ ∨ ((State.setDevice { s with lock := lock } c.dev f).devices c.dev).allocated = _ ∧
      ((State.setDevice { s with lock := lock } c.dev f).devices c.dev).teardownInProgress = _
    rw [hsame]
    exact hkept

theorem turn_refused (h : Inv s) (hc : s.controls[i]? = some c) (hp₀ : c.pc.phase = none)
    (hunlocked : c.pc.locked = false) :
    Turn s (s.setControl i c .returned) i c .returned := by
  have hover : Control.finalizing { c with pc := .returned } = false := by
    simp [Control.finalizing]
  exact turn_outside h hc hp₀ rfl ⟨hunlocked, rfl⟩ rfl rfl rfl (fun _ _ => rfl) rfl rfl
    (.inr (.inl ⟨rfl, fun hf => by rw [hover] at hf; cases hf⟩))

theorem turn_admitted (h : Inv s) (hc : s.controls[i]? = some c) {p : Phase}
    (hp₀ : c.pc.phase = none) (hp : pc.phase = some p) (hbegun : c.pc ≠ .begun ∧ c.pc ≠ .returned)
    (hallocated : (s.devices c.dev).allocated = true) {lock : Option Nat}
    (hlock : lock = if pc.locked then some i else if c.pc.locked then none else s.lock)
    (hfree : s.lock = none) {f : Device → Device}
    (hothers : Others s i c.dev)
    (hf : ∀ listed, (s.devices c.dev).phase listed =
      (if (s.devices c.dev).sigsegvEnabled then .on else .off) →
        (f (s.devices c.dev)).phase listed = p)
    (hkept : (f (s.devices c.dev)).allocated = (s.devices c.dev).allocated ∧
      (f (s.devices c.dev)).teardownInProgress = (s.devices c.dev).teardownInProgress)
    (hfreeing : pc = .freeing → c.finalizes = true) :
    Turn s ((State.setDevice { s with lock := lock } c.dev f).setControl i c pc) i c pc := by
  have hsame := setDevice_same { s with lock := lock } c.dev f
  refine turn_enter h hc hp hbegun hallocated rfl rfl hlock hfree
    (fun d hd => setDevice_other { s with lock := lock } f hd) hothers ?_ ?_ hfreeing
  · change ((State.setDevice { s with lock := lock } c.dev f).devices c.dev).phase _ = p
    rw [hsame]
    exact hf _ (h.settled hc hp₀ hothers)
  · change ((State.setDevice { s with lock := lock } c.dev f).devices c.dev).allocated = _ ∧
      ((State.setDevice { s with lock := lock } c.dev f).devices c.dev).teardownInProgress = _
    rw [hsame]
    exact hkept

@[simp] theorem Device.phase_mk (dev : Device) (listed e t a c l : Bool) :
    dev.phase listed = ⟨e, t, a, c, l⟩ ↔ dev.sigsegvEnabled = e ∧ dev.transitionInProgress = t ∧
      dev.armed = a ∧ dev.callbacks = c ∧ listed = l := by
  unfold Device.phase
  rw [Phase.mk.injEq]

theorem turn_flag (h : Inv s) (hc : s.controls[i]? = some c) (hp₀ : c.pc.phase = none)
    (hp : pc.phase = none) (hunlocked : c.pc.locked = false ∧ pc.locked = false)
    {f : Device → Device}
    (hf : ∀ listed, (f (s.devices c.dev)).phase listed = (s.devices c.dev).phase listed)
    (hallocated : (f (s.devices c.dev)).allocated = (s.devices c.dev).allocated)
    (hteardown : (c.finalizing = true ∧ Control.finalizing { c with pc := pc } = false) ∨
      (s.devices c.dev).teardownInProgress = false ∧
        (f (s.devices c.dev)).teardownInProgress = true ∧
        (f (s.devices c.dev)).allocated = true) :
    Turn s ((s.setDevice c.dev f).setControl i c pc) i c pc := by
  have hsame := setDevice_same s c.dev f
  refine turn_outside h hc hp₀ hp hunlocked rfl rfl rfl (fun d hd => setDevice_other s f hd) ?_ ?_
    (hteardown.imp_right fun hset => .inr ?_)
  · change ((s.setDevice c.dev f).devices c.dev).phase _ = _
    rw [hsame]
    exact hf _
  · change ((s.setDevice c.dev f).devices c.dev).allocated = _
    rw [hsame]
    exact hallocated
  · change _ ∧ ((s.setDevice c.dev f).devices c.dev).teardownInProgress = true ∧
      ((s.setDevice c.dev f).devices c.dev).allocated = true
    rw [hsame]
    exact hset

theorem turn_disable_refused (h : Inv s) (hc : s.controls[i]? = some c) (hpc : c.pc = .disableLock)
    (ht : disabled s i c false = t) : Turn s t i c .returned := by
  have hp₀ : c.pc.phase = none := by rw [hpc]; rfl
  have hunlocked : c.pc.locked = false := by rw [hpc]; rfl
  cases hfinalizes : c.finalizes with
  | false =>
      simp only [disabled, hfinalizes, Bool.not_false, if_true] at ht
      rw [← ht]
      exact turn_refused h hc hp₀ hunlocked
  | true =>
      simp only [disabled, hfinalizes, Bool.not_true, Bool.false_eq_true, if_false] at ht
      have hfinalizing : c.finalizing = true := by
        simp [Control.finalizing, hfinalizes, hpc]
      rw [← ht]
      exact turn_flag h hc hp₀ rfl ⟨hunlocked, rfl⟩ (fun _ => rfl) rfl
        (.inl ⟨hfinalizing, by simp [Control.finalizing]⟩)

theorem turn_disable_done (h : Inv s) (hc : s.controls[i]? = some c) (hpc : c.pc = .disableLock)
    (hallocated : (s.devices c.dev).allocated = true) (hlock : s.lock = none)
    (htransition : (s.devices c.dev).transitionInProgress = false)
    (henabled : (s.devices c.dev).sigsegvEnabled = false)
    (ht : disabled s i c true = t) : ∃ pc, Turn s t i c pc := by
  have hp₀ : c.pc.phase = none := by rw [hpc]; rfl
  have hunlocked : c.pc.locked = false := by rw [hpc]; rfl
  cases hfinalizes : c.finalizes with
  | false =>
      simp only [disabled, hfinalizes, Bool.not_false, if_true] at ht
      rw [← ht]
      exact ⟨.returned, turn_refused h hc hp₀ hunlocked⟩
  | true =>
      simp only [disabled, hfinalizes, Bool.not_true, Bool.false_eq_true, if_false, if_true] at ht
      have hfinalizing : c.finalizing = true := by
        simp [Control.finalizing, hfinalizes, hpc]
      have hothers := h.others_of_finalizing hc hfinalizing hlock htransition
      have hoff := h.settled hc hp₀ hothers
      rw [henabled] at hoff
      rw [← ht]
      exact ⟨.freeing, turn_enter h hc rfl (by rw [hpc]; exact ⟨nofun, nofun⟩) hallocated rfl rfl
        (by rw [hunlocked]; rfl) hlock (fun _ _ => rfl) hothers hoff ⟨rfl, rfl⟩ fun _ => hfinalizes⟩

theorem turn_disarm_failed (h : Inv s) (hc : s.controls[i]? = some c) (hpc : c.pc = .disarming)
    (ht : disabled (State.setDevice { s with lock := none } c.dev fun dev =>
      { dev with transitionInProgress := false }) i c false = t) : Turn s t i c .returned := by
  have hp₀ : c.pc.phase = some ⟨true, true, true, true, true⟩ := by rw [hpc]; rfl
  have hallocated := (h.tended i c _ hc hp₀).2.1
  cases hfinalizes : c.finalizes with
  | false =>
      simp only [disabled, hfinalizes, Bool.not_false, if_true] at ht
      rw [← ht]
      refine turn_return h hc hp₀ (by rw [hpc]; rfl) (fun listed hphase => .inr ?_)
        (fun _ _ hnot => ?_) (.inr ⟨rfl, rfl⟩)
      · simp only [Phase.on, Device.phase_mk] at hphase ⊢
        simp [hphase]
      · rw [hallocated] at hnot
        cases hnot
  | true =>
      simp only [disabled, hfinalizes, Bool.not_true, Bool.false_eq_true, if_false,
        setDevice_setDevice] at ht
      rw [← ht]
      refine turn_return h hc hp₀ (by rw [hpc]; rfl) (fun listed hphase => .inr ?_)
        (fun _ _ hnot => ?_) (.inl hfinalizes)
      · simp only [Phase.on, Device.phase_mk] at hphase ⊢
        simp [hphase]
      · rw [hallocated] at hnot
        cases hnot

theorem turn_joined (h : Inv s) (hc : s.controls[i]? = some c) (hpc : c.pc = .joining)
    (ht : disabled (s.setDevice c.dev fun dev =>
      { dev with callbacks := false, transitionInProgress := false }) i c true = t) :
    ∃ pc, Turn s t i c pc := by
  have hp₀ : c.pc.phase = some ⟨false, true, false, true, false⟩ := by rw [hpc]; rfl
  have hallocated := (h.tended i c _ hc hp₀).2.1
  cases hfinalizes : c.finalizes with
  | false =>
      simp only [disabled, hfinalizes, Bool.not_false, if_true] at ht
      rw [← ht]
      refine ⟨.returned, turn_return h hc hp₀ (by rw [hpc]; rfl) (fun listed hphase => .inl ?_)
        (fun _ _ hnot => ?_) (.inr ⟨rfl, rfl⟩)⟩
      · simp only [Phase.off, Device.phase_mk] at hphase ⊢
        simp [hphase]
      · rw [hallocated] at hnot
        cases hnot
  | true =>
      simp only [disabled, hfinalizes, Bool.not_true, Bool.false_eq_true, if_false, if_true] at ht
      rw [← ht]
      refine ⟨.freeing, turn_device h hc hp₀ (p := .off) rfl (by rw [hpc]; rfl)
        (by intro hl; cases hl) (fun listed hphase => ?_) ⟨rfl, rfl⟩ fun _ => hfinalizes⟩
      simp only [Phase.off, Device.phase_mk] at hphase ⊢
      simp [hphase]

theorem controlStep_turn (h : Inv s) (hc : s.controls[i]? = some c)
    (hallocated : (s.devices c.dev).allocated = true) {ok : Bool}
    (hstep : controlStep s i c ok = some t) : ∃ pc, Turn s t i c pc := by
  have hself : c.pc.locked = true → s.lock = some i := (h.mutex i c hc).mp
  unfold controlStep at hstep
  cases hpc : c.pc with
  | begun =>
      simp only [hpc] at hstep
      split at hstep
      · cases hstep
        exact ⟨_, turn_refused h hc (by rw [hpc]; rfl) (by rw [hpc]; rfl)⟩
      · rename_i hteardown
        cases hstep
        exact ⟨.disableLock, turn_flag h hc (by rw [hpc]; rfl) rfl ⟨by rw [hpc]; rfl, rfl⟩
          (fun _ => rfl) rfl (.inr ⟨by simpa using hteardown, rfl, hallocated⟩)⟩
  | enableLock =>
      simp only [hpc] at hstep
      split at hstep
      · cases hstep
      · rename_i hlock
        split at hstep
        · cases hstep
          exact ⟨_, turn_refused h hc (by rw [hpc]; rfl) (by rw [hpc]; rfl)⟩
        · rename_i hchecks
          cases hstep
          have hfree : s.lock = none := by simpa using hlock
          simp only [Bool.or_eq_true, not_or, Bool.not_eq_true] at hchecks
          obtain ⟨⟨⟨htransition, hteardown⟩, henabled⟩, -⟩ := hchecks
          refine ⟨.listing, turn_admitted h hc (by rw [hpc]; rfl) rfl
            (by rw [hpc]; exact ⟨nofun, nofun⟩) hallocated (by rfl) hfree
            (h.others_of_refused hfree htransition hteardown) (fun listed hphase => ?_)
            ⟨rfl, rfl⟩ nofun⟩
          rw [henabled] at hphase
          simp only [Bool.false_eq_true, if_false, Phase.off, Device.phase_mk] at hphase ⊢
          simp [hphase]
  | listing =>
      simp only [hpc] at hstep
      split at hstep
      · cases hstep
        exact ⟨.arming, turn_relisting h hc (by rw [hpc]; rfl) rfl ⟨by rw [hpc]; rfl, rfl⟩
          (relisted_list (State.phase_eq_iff.mp (h.tended i c _ hc (by rw [hpc]; rfl)).1).2.2.2.2)
          (fun _ => lists_listDevice _ _) rfl⟩
      · cases hstep
        exact ⟨.undoClear, turn_relisting h hc (by rw [hpc]; rfl) rfl ⟨by rw [hpc]; rfl, rfl⟩
          (relisted_refl _ _) id rfl⟩
  | arming =>
      simp only [hpc] at hstep
      split at hstep
      · cases hstep
        refine ⟨.publishing, turn_device h hc (by rw [hpc]; rfl) rfl (hself (by rw [hpc]; rfl))
          (fun _ => by rw [hpc]; rfl) (fun listed hphase => ?_) ⟨rfl, rfl⟩ nofun⟩
        simp only [Device.phase_mk] at hphase ⊢
        simp [hphase]
      · cases hstep
        exact ⟨.undoing, turn_relisting h hc (by rw [hpc]; rfl) rfl ⟨by rw [hpc]; rfl, rfl⟩
          (relisted_refl _ _) id rfl⟩
  | publishing =>
      simp only [hpc] at hstep
      cases hstep
      have hp₀ : c.pc.phase = some ⟨false, false, true, true, true⟩ := by rw [hpc]; rfl
      refine ⟨.returned, turn_return h hc hp₀ (by rw [hpc]; rfl) (fun listed hphase => .inr ?_)
        (fun _ _ hnot => ?_) (.inr ⟨rfl, rfl⟩)⟩
      · simp only [Phase.on, Device.phase_mk] at hphase ⊢
        simp [hphase]
      · rw [show (s.devices c.dev).allocated = true from hallocated] at hnot
        cases hnot
  | undoing =>
      simp only [hpc] at hstep
      cases hstep
      exact ⟨.undoWait _, turn_relisting h hc (by rw [hpc]; rfl) rfl ⟨by rw [hpc]; rfl, rfl⟩
        (relisted_tombstone _ _) (fun _ => lists_tombstone fun k k' => h.single k k' c.dev) rfl⟩
  | undoWait node =>
      simp only [hpc] at hstep
      split at hstep
      · cases hstep
        exact ⟨.undoClear, turn_relisting h hc (by rw [hpc]; rfl) rfl ⟨by rw [hpc]; rfl, rfl⟩
          (relisted_refl _ _) id rfl⟩
      · cases hstep
  | undoClear =>
      simp only [hpc] at hstep
      cases hstep
      have hp₀ : c.pc.phase = some ⟨false, false, false, true, false⟩ := by rw [hpc]; rfl
      refine ⟨.returned, turn_return h hc hp₀ (by rw [hpc]; rfl) (fun listed hphase => .inl ?_)
        (fun _ _ hnot => ?_) (.inr ⟨rfl, rfl⟩)⟩
      · simp only [Phase.off, Device.phase_mk] at hphase ⊢
        simp [hphase]
      · rw [show (s.devices c.dev).allocated = true from hallocated] at hnot
        cases hnot
  | disableLock =>
      simp only [hpc] at hstep
      split at hstep
      · cases hstep
      · rename_i hlock
        have hfree : s.lock = none := by simpa using hlock
        split at hstep
        · exact ⟨_, turn_disable_refused h hc hpc (Option.some.inj hstep)⟩
        · rename_i hchecks
          simp only [Bool.or_eq_true, not_or, Bool.not_eq_true] at hchecks
          split at hstep
          · rename_i henabled
            exact turn_disable_done h hc hpc hallocated hfree hchecks.1 (by simpa using henabled)
              (Option.some.inj hstep)
          · rename_i hdisabled
            cases hstep
            have henabled : (s.devices c.dev).sigsegvEnabled = true := by simpa using hdisabled
            refine ⟨.disarming, turn_admitted h hc (by rw [hpc]; rfl) rfl
              (by rw [hpc]; exact ⟨nofun, nofun⟩) hallocated (by rfl) hfree
              (h.others_of_enabled hfree hchecks.1 henabled) (fun listed hphase => ?_)
              ⟨rfl, rfl⟩ nofun⟩
            rw [henabled] at hphase
            simp only [if_true, Phase.on, Device.phase_mk] at hphase ⊢
            simp [hphase]
  | disarming =>
      simp only [hpc] at hstep
      split at hstep
      · cases hstep
        refine ⟨.withdrawing, turn_device h hc (by rw [hpc]; rfl) rfl (hself (by rw [hpc]; rfl))
          (fun _ => by rw [hpc]; rfl) (fun listed hphase => ?_) ⟨rfl, rfl⟩ nofun⟩
        simp only [Device.phase_mk] at hphase ⊢
        simp [hphase]
      · exact ⟨_, turn_disarm_failed h hc hpc (Option.some.inj hstep)⟩
  | withdrawing =>
      simp only [hpc] at hstep
      cases hstep
      refine ⟨.tombstoning, turn_device h hc (by rw [hpc]; rfl) rfl (hself (by rw [hpc]; rfl))
        (fun _ => by rw [hpc]; rfl) (fun listed hphase => ?_) ⟨rfl, rfl⟩ nofun⟩
      simp only [Device.phase_mk] at hphase ⊢
      simp [hphase]
  | tombstoning =>
      simp only [hpc] at hstep
      cases hstep
      exact ⟨.waiting _, turn_relisting h hc (by rw [hpc]; rfl) rfl ⟨by rw [hpc]; rfl, rfl⟩
        (relisted_tombstone _ _) (fun _ => lists_tombstone fun k k' => h.single k k' c.dev) rfl⟩
  | waiting node =>
      simp only [hpc] at hstep
      split at hstep
      · cases hstep
        exact ⟨.signalling, turn_relisting h hc (by rw [hpc]; rfl) rfl ⟨by rw [hpc]; rfl, rfl⟩
          (relisted_refl _ _) id rfl⟩
      · cases hstep
  | signalling =>
      simp only [hpc] at hstep
      cases hstep
      exact ⟨.joining, turn_inside h hc (by rw [hpc]; rfl) rfl rfl (relisted_refl _ _)
        (by rw [hpc]; rfl) nofun (fun _ _ => rfl) id ⟨rfl, rfl⟩ nofun⟩
  | joining =>
      simp only [hpc] at hstep
      split at hstep
      · cases hstep
      · exact turn_joined h hc hpc (Option.some.inj hstep)
  | freeing =>
      simp only [hpc] at hstep
      cases hstep
      refine ⟨.returned, turn_return h hc (by rw [hpc]; rfl) (by rw [hpc]; rfl)
        (fun listed hphase => .inl hphase) (fun listed hphase _ => hphase)
        (.inl (h.freeing i c hc hpc))⟩
  | mutateLock =>
      simp only [hpc] at hstep
      split at hstep
      · cases hstep
      · rename_i hlock
        split at hstep
        · cases hstep
          exact ⟨_, turn_refused h hc (by rw [hpc]; rfl) (by rw [hpc]; rfl)⟩
        · rename_i hchecks
          cases hstep
          have hfree : s.lock = none := by simpa using hlock
          simp only [Bool.or_eq_true, not_or, Bool.not_eq_true] at hchecks
          obtain ⟨⟨⟨htransition, hteardown⟩, henabled⟩, -⟩ := hchecks
          have hothers : Others s i c.dev := h.others_of_refused hfree htransition hteardown
          have hoff := h.settled hc (by rw [hpc]; rfl) hothers
          rw [henabled] at hoff
          exact ⟨.mutating, turn_enter h hc rfl (by rw [hpc]; exact ⟨nofun, nofun⟩) hallocated rfl
            rfl rfl hfree (fun _ _ => rfl) hothers hoff ⟨rfl, rfl⟩ nofun⟩
  | mutating =>
      simp only [hpc] at hstep
      cases hstep
      exact ⟨.returned, turn_return h hc (by rw [hpc]; rfl) (by rw [hpc]; rfl)
        (fun listed hphase => .inl hphase) (fun listed hphase _ => hphase) (.inr ⟨rfl, rfl⟩)⟩
  | returned =>
      simp only [hpc] at hstep
      cases hstep

/-- Faulting threads only count themselves in and out of nodes. -/
theorem Inv.congr (h : Inv s) (hnodes : ∀ k, devAt t.nodes k = devAt s.nodes k)
    (hdevices : t.devices = s.devices) (hlock : t.lock = s.lock)
    (hcontrols : t.controls = s.controls) : Inv t := by
  have hphase : ∀ d, t.phase d = s.phase d := by
    intro d
    have hlists : lists t.nodes d = lists s.nodes d := lists_congr fun k => by rw [hnodes]
    unfold State.phase
    rw [hdevices, hlists]
  obtain ⟨hmutex, hholder, htended, huntended, hteardown, hfreeing, hallocated, hsingle⟩ := h
  refine ⟨?_, ?_, ?_, ?_, ?_, ?_, ?_, ?_⟩
  · rwa [hcontrols, hlock]
  · rwa [hcontrols, hlock]
  · unfold Others
    simp only [hcontrols, hphase, hdevices]
    exact htended
  · simp only [hcontrols, hphase]
    exact huntended
  · rwa [hcontrols, hdevices]
  · rwa [hcontrols]
  · simp only [hdevices, hphase]
    exact hallocated
  · simp only [hnodes]
    exact hsingle

theorem devAt_modify_of_dev (nodes : List Node) (k : Nat) {f : Node → Node}
    (hf : ∀ node, (f node).dev = node.dev) (j : Nat) :
    devAt (nodes.modify k f) j = devAt nodes j := by
  unfold devAt
  rw [List.getElem?_modify]
  cases nodes[j]? with
  | none => rfl
  | some node =>
      by_cases hj : k = j
      · simp [hj, hf]
      · simp [hj]

theorem handlerStep_frame {handler : Handler} (h : handlerStep s i handler = some t) :
    (∀ k, devAt t.nodes k = devAt s.nodes k) ∧ t.devices = s.devices ∧ t.lock = s.lock ∧
      t.controls = s.controls := by
  have hmodify := fun k f hf => devAt_modify_of_dev s.nodes k (f := f) hf
  unfold handlerStep at h
  cases hpc : handler.pc with
  | visiting rest =>
      cases rest with
      | zero =>
          simp only [hpc] at h
          cases h
          exact ⟨fun _ => rfl, rfl, rfl, rfl⟩
      | succ k =>
          simp only [hpc] at h
          split at h <;> cases h <;> exact ⟨fun _ => rfl, rfl, rfl, rfl⟩
  | loaded k dev =>
      simp only [hpc] at h
      cases h
      exact ⟨hmodify k _ fun _ => rfl, rfl, rfl, rfl⟩
  | guarded k dev =>
      simp only [hpc] at h
      split at h <;> cases h <;> exact ⟨fun _ => rfl, rfl, rfl, rfl⟩
  | stable k dev =>
      simp only [hpc] at h
      split at h <;> cases h <;> exact ⟨fun _ => rfl, rfl, rfl, rfl⟩
  | searching k dev =>
      simp only [hpc] at h
      split at h <;> cases h <;> exact ⟨fun _ => rfl, rfl, rfl, rfl⟩
  | found k dev region =>
      simp only [hpc] at h
      cases h
      exact ⟨hmodify k _ fun _ => rfl, rfl, rfl, rfl⟩
  | leaving k =>
      simp only [hpc] at h
      cases h
      exact ⟨hmodify k _ fun _ => rfl, rfl, rfl, rfl⟩
  | released =>
      simp only [hpc] at h
      cases h
  | forwarded =>
      simp only [hpc] at h
      cases h

theorem Inv.create (h : Inv s) {dev ptr : Nat} (hnot : (s.devices dev).allocated = false) :
    Inv (s.setDevice dev fun _ => .fresh ptr) := by
  have hoff := State.phase_eq_iff.mp (h.allocated dev hnot)
  have hsame := setDevice_same s dev fun _ => .fresh ptr
  have hphase : ∀ d, (s.setDevice dev fun _ => .fresh ptr).phase d = s.phase d := by
    intro d
    by_cases hd : d = dev
    · subst hd
      rw [h.allocated d hnot, State.phase_eq_iff, hsame]
      exact ⟨rfl, rfl, rfl, rfl, hoff.2.2.2.2⟩
    · unfold State.phase
      rw [setDevice_other s _ hd]
      rfl
  refine ⟨h.mutex, h.holder, fun j c' p hc' hp => ?_, fun d hnone => ?_, fun j c' hc' hf => ?_,
    h.freeing, fun d hd => ?_, h.single⟩
  · obtain ⟨hp', hallocated, hothers⟩ := h.tended j c' p hc' hp
    have hd : c'.dev ≠ dev := fun hd => by
      rw [hd, hnot] at hallocated
      cases hallocated
    rw [hphase, setDevice_other s _ hd]
    exact ⟨hp', hallocated, hothers⟩
  · rw [hphase]
    exact h.untended d hnone
  · have hteardown := h.teardown j c' hc' hf
    have hd : c'.dev ≠ dev := fun hd => by
      rw [hd, hnot] at hteardown
      cases hteardown.2.1
    rw [setDevice_other s _ hd]
    exact hteardown
  · rw [hphase]
    by_cases hdev : d = dev
    · rw [hdev]
      exact h.allocated dev hnot
    · rw [setDevice_other s _ hdev] at hd
      exact h.allocated d hd

theorem starts_outside {finalizes : Bool} {pc : ControlPc} (h : pc.starts finalizes = true) :
    pc.phase = none ∧ pc.locked = false ∧ pc ≠ .freeing ∧ (finalizes = true → pc = .begun) := by
  unfold ControlPc.starts at h
  cases finalizes with
  | true =>
      have hpc : pc = .begun := by simpa using h
      rw [hpc]
      exact ⟨rfl, rfl, nofun, fun _ => rfl⟩
  | false =>
      simp only [Bool.false_eq_true, if_false, Bool.or_eq_true, beq_iff_eq] at h
      rcases h with (rfl | rfl) | rfl <;> exact ⟨rfl, rfl, nofun, nofun⟩

theorem Inv.call (h : Inv s) {c : Control} (hstarts : c.pc.starts c.finalizes = true) :
    Inv { s with controls := s.controls ++ [c] } := by
  obtain ⟨hnone, hunlocked, hnot, hbegun⟩ := starts_outside hstarts
  have hidle : c.finalizing = false := by
    unfold Control.finalizing
    cases hf : c.finalizes with
    | false => rfl
    | true =>
        rw [hbegun hf]
        rfl
  have hkept : ∀ (j : Nat) (c' : Control), s.controls[j]? = some c' →
      (s.controls ++ [c])[j]? = some c' := by
    intro j c' hc'
    rw [List.getElem?_append_left (List.getElem?_eq_some_iff.mp hc').1]
    exact hc'
  refine ⟨fun j c' hc' => ?_, fun j hj => ?_, fun j c' p hc' hp => ?_, fun d hnone' => ?_,
    fun j c' hc' hf => ?_, fun j c' hc' hpc => ?_, h.allocated, h.single⟩
  · rcases getElem?_push_some hc' with ⟨rfl, rfl⟩ | hold
    · rw [hunlocked]
      refine ⟨nofun, fun hj => ?_⟩
      exact absurd (h.holder _ hj) (Nat.lt_irrefl _)
    · exact h.mutex j c' hold
  · have := h.holder j hj
    simp
    omega
  · rcases getElem?_push_some hc' with ⟨-, rfl⟩ | hold
    · rw [hnone] at hp
      cases hp
    · obtain ⟨hphase, hallocated, hothers⟩ := h.tended j c' p hold hp
      refine ⟨hphase, hallocated, fun j' c'' hc'' hdev hne => ?_⟩
      rcases getElem?_push_some hc'' with ⟨-, rfl⟩ | hold'
      · exact hnone
      · exact hothers j' c'' hold' hdev hne
  · exact h.untended d fun j c' hc' hdev => hnone' j c' (hkept j c' hc') hdev
  · rcases getElem?_push_some hc' with ⟨-, rfl⟩ | hold
    · rw [hidle] at hf
      cases hf
    · obtain ⟨hteardown, hallocated, hone⟩ := h.teardown j c' hold hf
      refine ⟨hteardown, hallocated, fun j' c'' hc'' hdev hf' => ?_⟩
      rcases getElem?_push_some hc'' with ⟨-, rfl⟩ | hold'
      · rw [hidle] at hf'
        cases hf'
      · exact hone j' c'' hold' hdev hf'
  · rcases getElem?_push_some hc' with ⟨-, rfl⟩ | hold
    · exact absurd hpc hnot
    · exact h.freeing j c' hold hpc

theorem inv_step (s : State) (action : Action) (t : State) (h : Inv s)
    (hstep : step s action = some t) : Inv t := by
  unfold step at hstep
  cases action with
  | create dev ptr =>
      simp only at hstep
      split at hstep
      · cases hstep
      · rename_i hnot
        cases hstep
        exact h.create (by simpa using hnot)
  | call dev finalizes regions pc =>
      simp only at hstep
      split at hstep
      · rename_i hstarts
        cases hstep
        exact h.call (Bool.and_eq_true_iff.mp hstarts).2
      · cases hstep
  | fault faultAddr =>
      cases hstep
      exact h.congr (fun _ => rfl) rfl rfl rfl
  | control index ok =>
      obtain ⟨control, hcontrol, hrest⟩ := Option.bind_eq_some_iff.mp hstep
      split at hrest
      · rename_i hallocated
        obtain ⟨_, turn⟩ := controlStep_turn h hcontrol hallocated hrest
        exact turn.inv h
      · cases hrest
  | handler index =>
      obtain ⟨handler, -, hrest⟩ := Option.bind_eq_some_iff.mp hstep
      obtain ⟨hnodes, hdevices, hlock, hcontrols⟩ := handlerStep_frame hrest
      exact h.congr hnodes hdevices hlock hcontrols

theorem inv_of_run {actions : List Action} (hrun : run step init actions = some s) : Inv s :=
  run_invariant inv_step inv_init hrun

theorem phase_of_armed {p : Phase} (hp : pc.phase = some p) (harmed : p.armed = true) :
    p.listed = true := by
  cases pc <;> cases hp <;> first | rfl | cases harmed

theorem phase_of_listed {p : Phase} (hp : pc.phase = some p) (hlisted : p.listed = true) :
    p.callbacks = true ∧ pc ≠ .freeing ∧ pc ≠ .mutating := by
  cases pc <;> cases hp <;> first | exact ⟨rfl, nofun, nofun⟩ | cases hlisted

theorem Inv.phase_cases (h : Inv s) (d : Nat) : (s.phase d = .off ∨ s.phase d = .on) ∨
    ∃ (i : Nat) (c : Control), s.controls[i]? = some c ∧ c.dev = d ∧ c.pc.phase = some (s.phase d) ∧
      (s.devices d).allocated = true := by
  by_cases hnone : ∀ (i : Nat) (c : Control), s.controls[i]? = some c → c.dev = d → c.pc.phase = none
  · exact .inl (h.untended d hnone)
  · simp only [not_forall] at hnone
    obtain ⟨i, c, hc, hdev, hp⟩ := hnone
    cases hphase : c.pc.phase with
    | none => exact absurd hphase hp
    | some p =>
        obtain ⟨hsame, hallocated, -⟩ := h.tended i c p hc hphase
        rw [hdev] at hsame hallocated
        exact .inr ⟨i, c, hc, hdev, by rw [hphase, hsame], hallocated⟩

theorem Inv.of_listed (h : Inv s) {k d : Nat} (hk : devAt s.nodes k = some d) :
    (s.devices d).callbacks = true ∧ (s.devices d).allocated = true ∧
      ∀ c ∈ s.controls, c.dev = d → c.pc ≠ .freeing ∧ c.pc ≠ .mutating := by
  have hlisted : (s.phase d).listed = true := lists_iff.mpr ⟨k, hk⟩
  have hallocated : (s.devices d).allocated = true := by
    rw [← Bool.not_eq_false]
    intro hnot
    rw [h.allocated d hnot] at hlisted
    cases hlisted
  refine ⟨?_, hallocated, fun c hc hdev => ?_⟩
  · rcases h.phase_cases d with (hoff | hon) | ⟨i, c, hc, hdev, hp, -⟩
    · rw [hoff] at hlisted
      cases hlisted
    · exact (State.phase_eq_iff.mp hon).2.2.2.1
    · exact (phase_of_listed hp hlisted).1
  · obtain ⟨i, hi⟩ := List.mem_iff_getElem?.mp hc
    cases hphase : c.pc.phase with
    | none =>
        constructor
        · intro hpc
          rw [hpc] at hphase
          cases hphase
        · intro hpc
          rw [hpc] at hphase
          cases hphase
    | some p =>
        have hsame := (h.tended i c p hi hphase).1
        rw [hdev] at hsame
        exact (phase_of_listed hphase (hsame ▸ hlisted)).2

/-- In every reachable state the arming of a device stands only while a store to its pages finds
the device in the list and its callback threads, one call at most is past its checks on the
device, and where there is none the device is in the mode or out of it altogether. -/
theorem calls_settle {actions : List Action} (hrun : run step init actions = some s) (d : Nat) :
    ((s.devices d).armed = true → (∃ k, devAt s.nodes k = some d) ∧
      (s.devices d).callbacks = true ∧ (s.devices d).allocated = true) ∧
    (∀ (i j : Nat) (c c' : Control), s.controls[i]? = some c → s.controls[j]? = some c' →
      c.dev = d → c'.dev = d → c.pc.phase.isSome = true → c'.pc.phase.isSome = true → i = j) ∧
    ((∀ c ∈ s.controls, c.dev = d → c.pc.phase = none) → s.phase d = .off ∨ s.phase d = .on) := by
  have h := inv_of_run hrun
  refine ⟨fun harmed => ?_, fun i j c c' hc hc' hdev hdev' hp hp' => ?_, fun hnone => ?_⟩
  · have hlisted : (s.phase d).listed = true := by
      have harmed' : (s.phase d).armed = true := harmed
      rcases h.phase_cases d with (hoff | hon) | ⟨i, c, -, -, hp, -⟩
      · rw [hoff] at harmed'
        cases harmed'
      · rw [hon]
        rfl
      · exact phase_of_armed hp harmed'
    obtain ⟨k, hk⟩ := lists_iff.mp hlisted
    obtain ⟨hcallbacks, hallocated, -⟩ := h.of_listed hk
    exact ⟨⟨k, hk⟩, hcallbacks, hallocated⟩
  · obtain ⟨p, hp⟩ := Option.isSome_iff_exists.mp hp
    by_contra hne
    have hothers := (h.tended i c p hc hp).2.2
    rw [hothers j c' hc' (hdev'.trans hdev.symm) (Ne.symm hne)] at hp'
    cases hp'
  · exact h.untended d fun i c hc => hnone c (List.mem_iff_getElem?.mpr ⟨i, hc⟩)

/-- A call that could not arm its device, one that armed another, and one that takes this one
out of the mode while the first is called again. -/
def contendedCalls : List Action :=
  [.create 0 4096, .create 1 8192, .call 0 false [] .enableLock, .call 1 false [] .enableLock,
    .control 0 true, .control 0 true, .control 0 false, .control 0 true, .control 0 true,
    .control 0 true, .control 1 true, .control 1 true, .control 1 true, .control 1 true,
    .call 1 false [] .disableLock, .call 0 false [] .enableLock, .control 2 true, .control 2 true,
    .control 2 true, .control 2 true, .control 2 true, .control 2 true, .control 3 true]

end

theorem calls_settle_contended : ∃ s, run step init contendedCalls = some s ∧
    ((s.devices 1).armed = false ∧ (s.devices 1).callbacks = true ∧
      (s.devices 0).callbacks = true) ∧
    ((s.devices 0).armed = true → (∃ k, devAt s.nodes k = some 0) ∧
      (s.devices 0).callbacks = true ∧ (s.devices 0).allocated = true) := by
  obtain ⟨s, hrun, hstate⟩ := exists_run (p := fun s => (s.devices 1).armed = false ∧
    (s.devices 1).callbacks = true ∧ (s.devices 0).callbacks = true)
    (show (run step init contendedCalls).any _ = true by decide)
  exact ⟨s, hrun, hstate, (calls_settle hrun 0).1⟩

end HostPimSim.Core.SigsegvList
