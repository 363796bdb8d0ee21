import HostPimSim.Core.SigsegvControl

/-! Walks of faulting threads over the list of devices.  A device that a thread looks into is
not freed, and its regions and callback threads stay until the thread has left the node; a
device that stays in the mode is found. -/
namespace HostPimSim.Core.SigsegvList
open Threads Transition HostPimSim.Core.Topology

def HandlerPc.holds : HandlerPc → Option Nat
  | .guarded k _ | .stable k _ | .searching k _ | .found k _ _ | .leaving k => some k
  | .visiting _ | .loaded _ _ | .released | .forwarded => none

/-- The node, and the device there that the thread relies on. -/
def HandlerPc.inside : HandlerPc → Option (Nat × Nat)
  | .stable k d | .searching k d | .found k d _ => some (k, d)
  | .visiting _ | .loaded _ _ | .guarded _ _ | .leaving _ | .released | .forwarded => none

def ControlPc.waits : ControlPc → Option (Option Nat)
  | .undoWait node | .waiting node => some node
  | _ => none

inductive Walk (s : State) (faultAddr : Nat) : HandlerPc → HandlerPc → Prop where
  | missed : Walk s faultAddr (.visiting 0) .forwarded
  | skip {k : Nat} (h : devAt s.nodes k = none) :
      Walk s faultAddr (.visiting (k + 1)) (.visiting k)
  | load {k d : Nat} (h : devAt s.nodes k = some d) :
      Walk s faultAddr (.visiting (k + 1)) (.loaded k d)
  | enter {k d : Nat} : Walk s faultAddr (.loaded k d) (.guarded k d)
  | same {k d : Nat} (h : devAt s.nodes k = some d) :
      Walk s faultAddr (.guarded k d) (.stable k d)
  | changed {k d : Nat} (h : devAt s.nodes k ≠ some d) :
      Walk s faultAddr (.guarded k d) (.leaving k)
  | enabled {k d : Nat} (h : (s.devices d).sigsegvEnabled = true) :
      Walk s faultAddr (.stable k d) (.searching k d)
  | disabled {k d : Nat} (h : (s.devices d).sigsegvEnabled = false) :
      Walk s faultAddr (.stable k d) (.leaving k)
  | hit {k d : Nat} {region : Region} (h : (s.devices d).target faultAddr = some region) :
      Walk s faultAddr (.searching k d) (.found k d region)
  | miss {k d : Nat} (h : (s.devices d).target faultAddr = none) :
      Walk s faultAddr (.searching k d) (.leaving k)
  | release {k d : Nat} {region : Region} : Walk s faultAddr (.found k d region) .released
  | leave {k : Nat} : Walk s faultAddr (.leaving k) (.visiting k)

section
variable {s t : State} {i : Nat} {c : Control} {handler : Handler}

theorem activeAt_enter {nodes : List Node} {k : Nat} (hk : k < nodes.length) (j : Nat) :
    activeAt (nodes.modify k fun node => { node with activeWithDev := node.activeWithDev + 1 }) j =
      activeAt nodes j + if k = j then 1 else 0 := by
  unfold activeAt
  rw [List.getElem?_modify]
  by_cases hj : k = j
  · subst hj
    simp [hk]
  · simp [hj]

theorem activeAt_leave {nodes : List Node} {k : Nat} (hpos : 0 < activeAt nodes k) (j : Nat) :
    activeAt (nodes.modify k fun node => { node with activeWithDev := node.activeWithDev - 1 }) j +
      (if k = j then 1 else 0) = activeAt nodes j := by
  unfold activeAt at *
  rw [List.getElem?_modify]
  by_cases hj : k = j
  · subst hj
    cases hnode : nodes[k]? with
    | none => simp [hnode] at hpos
    | some node =>
        have hpos' : 0 < node.activeWithDev := by simpa [hnode] using hpos
        simp
        omega
  · simp [hj]

theorem handlerStep_walk (h : handlerStep s i handler = some t)
    (hbound : ∀ k d, handler.pc = .loaded k d → k < s.nodes.length)
    (hactive : ∀ k, handler.pc.holds = some k → 0 < activeAt s.nodes k) :
    ∃ pc, t.handlers = s.handlers.set i { handler with pc := pc } ∧
      Walk s handler.faultAddr handler.pc pc ∧ t.nodes.length = s.nodes.length ∧
      ∀ j, activeAt t.nodes j + (if handler.pc.holds == some j then 1 else 0) =
        activeAt s.nodes j + if pc.holds == some j then 1 else 0 := by
  unfold handlerStep at h
  cases hpc : handler.pc with
  | visiting rest =>
      cases rest with
      | zero =>
          simp only [hpc] at h
          cases h
          exact ⟨_, rfl, .missed, rfl, fun _ => rfl⟩
      | succ k =>
          simp only [hpc] at h
          split at h
          · rename_i hnone
            cases h
            exact ⟨_, rfl, .skip hnone, rfl, fun _ => rfl⟩
          · rename_i hdev
            cases h
            exact ⟨_, rfl, .load hdev, rfl, fun _ => rfl⟩
  | loaded k dev =>
      simp only [hpc] at h
      cases h
      refine ⟨_, rfl, .enter, List.length_modify _ _ _, fun j => ?_⟩
      simpa [HandlerPc.holds, State.setNode] using activeAt_enter (hbound k dev hpc) j
  | guarded k dev =>
      simp only [hpc] at h
      split at h
      · rename_i hsame
        cases h
        exact ⟨_, rfl, .same hsame, rfl, fun _ => rfl⟩
      · rename_i hchanged
        cases h
        exact ⟨_, rfl, .changed hchanged, rfl, fun _ => rfl⟩
  | stable k dev =>
      simp only [hpc] at h
      split at h
      · rename_i henabled
        cases h
        exact ⟨_, rfl, .enabled henabled, rfl, fun _ => rfl⟩
      · rename_i hdisabled
        cases h
        exact ⟨_, rfl, .disabled (by simpa using hdisabled), rfl, fun _ => rfl⟩
  | searching k dev =>
      simp only [hpc] at h
      split at h
      · rename_i hhit
        cases h
        exact ⟨_, rfl, .hit hhit, rfl, fun _ => rfl⟩
      · rename_i hmiss
        cases h
        exact ⟨_, rfl, .miss hmiss, rfl, fun _ => rfl⟩
  | found k dev region =>
      simp only [hpc] at h
      cases h
      refine ⟨_, rfl, .release, List.length_modify _ _ _, fun j => ?_⟩
      have hleave := activeAt_leave (hactive k (by rw [hpc]; rfl)) j
      simpa [HandlerPc.holds, State.setNode] using hleave
  | leaving k =>
      simp only [hpc] at h
      cases h
      refine ⟨_, rfl, .leave, List.length_modify _ _ _, fun j => ?_⟩
      have hleave := activeAt_leave (hactive k (by rw [hpc]; rfl)) j
      simpa [HandlerPc.holds, State.setNode] using hleave
  | released =>
      simp only [hpc] at h
      cases h
  | forwarded =>
      simp only [hpc] at h
      cases h

def ControlPc.removes (pc : ControlPc) : Bool := pc == .undoing || pc == .tombstoning

/-- What a step of a call leaves as it is: the guards, the regions but for a call that changes
them, and every device in its node but for a call that takes its own out and then waits. -/
structure Settles (s t : State) (i : Nat) (c : Control) (pc : ControlPc) : Prop where
  controls : t.controls = s.controls.set i { c with pc := pc }
  handlers : t.handlers = s.handlers
  active : ∀ k, activeAt t.nodes k = activeAt s.nodes k
  length : s.nodes.length ≤ t.nodes.length
  kept : ∀ k d, devAt s.nodes k = some d → devAt t.nodes k = some d ∨
    (c.pc.removes = true ∧ d = c.dev ∧ pc.waits = some (some k))
  quiet : ∀ node, c.pc.waits = some node → quiescent s.nodes node = true
  target : c.pc ≠ .mutating → ∀ d, (t.devices d).ptr = (s.devices d).ptr ∧
    (t.devices d).regions = (s.devices d).regions
  elsewhere : ∀ d, d ≠ c.dev → t.devices d = s.devices d

theorem setDevice_layout (s : State) (d : Nat) {f : Device → Device}
    (hf : ∀ dev, (f dev).ptr = dev.ptr ∧ (f dev).regions = dev.regions) (e : Nat) :
    ((s.setDevice d f).devices e).ptr = (s.devices e).ptr ∧
      ((s.setDevice d f).devices e).regions = (s.devices e).regions := by
  by_cases he : e = d
  · subst he
    rw [setDevice_same]
    exact hf _
  · rw [setDevice_other s f he]
    exact ⟨rfl, rfl⟩

theorem settles_device {pc : ControlPc} {lock : Option Nat} {f : Device → Device}
    (hquiet : ∀ node, c.pc.waits = some node → quiescent s.nodes node = true)
    (hf : c.pc ≠ .mutating → ∀ dev, (f dev).ptr = dev.ptr ∧ (f dev).regions = dev.regions) :
    Settles s ((State.setDevice { s with lock := lock } c.dev f).setControl i c pc) i c pc where
  controls := rfl
  handlers := rfl
  active _ := rfl
  length := Nat.le_refl _
  kept _ _ h := .inl h
  quiet := hquiet
  target hpc := setDevice_layout { s with lock := lock } c.dev (hf hpc)
  elsewhere _ hd := setDevice_other { s with lock := lock } f hd

theorem settles_nodes {pc : ControlPc} {nodes : List Node} (hnot : c.pc.waits = none)
    (hactive : ∀ k, activeAt nodes k = activeAt s.nodes k)
    (hlength : s.nodes.length ≤ nodes.length)
    (hkept : ∀ k d, devAt s.nodes k = some d → devAt nodes k = some d ∨
      (c.pc.removes = true ∧ d = c.dev ∧ pc.waits = some (some k))) :
    Settles s (State.setControl { s with nodes := nodes } i c pc) i c pc where
  controls := rfl
  handlers := rfl
  active := hactive
  length := hlength
  kept := hkept
  quiet node h := by rw [hnot] at h; cases h
  target _ _ := ⟨rfl, rfl⟩
  elsewhere _ _ := rfl

theorem settles_list {pc : ControlPc} (hnot : c.pc.waits = none) :
    Settles s (State.setControl { s with nodes := listDevice s.nodes c.dev } i c pc) i c pc := by
  obtain ⟨k, hfree, hdev, hactive, hlength⟩ := listDevice_spec s.nodes c.dev
  refine settles_nodes hnot hactive hlength fun j d hd => .inl ?_
  have hj : j ≠ k := fun hj => by
    rw [hj, hfree] at hd
    cases hd
  rw [hdev, if_neg hj]
  exact hd

theorem settles_tombstone {pc : ControlPc} (hremoves : c.pc.removes = true)
    (hwaits : pc.waits = some (findDevice s.nodes c.dev)) :
    Settles s (State.setControl
      { s with nodes := tombstoneNode s.nodes (findDevice s.nodes c.dev) } i c pc) i c pc := by
  have hnot : c.pc.waits = none := by
    unfold ControlPc.removes at hremoves
    cases hpc : c.pc <;> rw [hpc] at hremoves <;> first | rfl | cases hremoves
  cases hfind : findDevice s.nodes c.dev with
  | none => exact settles_nodes hnot (fun _ => rfl) (Nat.le_refl _) fun _ _ hd => .inl hd
  | some k =>
      obtain ⟨hk, hdev, hactive, hlength⟩ := findDevice_some hfind
      refine settles_nodes hnot hactive (Nat.le_of_eq hlength.symm) fun j d hd => ?_
      by_cases hj : j = k
      · rw [hj, hk] at hd
        rw [hj]
        exact .inr ⟨hremoves, (Option.some.inj hd).symm, by rw [hwaits, hfind]⟩
      · rw [hdev, if_neg hj]
        exact .inl hd

theorem settles_stay {pc : ControlPc} {lock : Option Nat}
    (hquiet : ∀ node, c.pc.waits = some node → quiescent s.nodes node = true) :
    Settles s (State.setControl { s with lock := lock } i c pc) i c pc where
  controls := rfl
  handlers := rfl
  active _ := rfl
  length := Nat.le_refl _
  kept _ _ h := .inl h
  quiet := hquiet
  target _ _ := ⟨rfl, rfl⟩
  elsewhere _ _ := rfl

theorem settles_disabled {success : Bool} (hnot : c.pc.waits = none) :
    ∃ pc, Settles s (disabled s i c success) i c pc := by
  have hquiet : ∀ node, c.pc.waits = some node → quiescent s.nodes node = true := by
    intro node h
    rw [hnot] at h
    cases h
  unfold disabled
  split
  · exact ⟨_, settles_stay hquiet⟩
  · split
    · exact ⟨_, settles_stay hquiet⟩
    · exact ⟨_, settles_device hquiet fun _ _ => ⟨rfl, rfl⟩⟩

theorem settles_device_disabled {success : Bool} {lock : Option Nat} {f : Device → Device}
    (hnot : c.pc.waits = none)
    (hf : ∀ dev, (f dev).ptr = dev.ptr ∧ (f dev).regions = dev.regions) :
    ∃ pc, Settles s (disabled (State.setDevice { s with lock := lock } c.dev f) i c success) i c
      pc := by
  have hquiet : ∀ node, c.pc.waits = some node → quiescent s.nodes node = true := by
    intro node h
    rw [hnot] at h
    cases h
  unfold disabled
  split
  · exact ⟨_, settles_device hquiet fun _ => hf⟩
  · split
    · exact ⟨_, settles_device hquiet fun _ => hf⟩
    · rw [setDevice_setDevice]
      exact ⟨_, settles_device hquiet fun _ => hf⟩

theorem controlStep_settles {ok : Bool} (h : controlStep s i c ok = some t) :
    ∃ pc, Settles s t i c pc := by
  have hmoving : c.pc.waits = none → ∀ node, c.pc.waits = some node →
      quiescent s.nodes node = true := fun hnot node hw => by
    rw [hnot] at hw
    cases hw
  unfold controlStep at h
  cases hpc : c.pc with
  | begun =>
      simp only [hpc] at h
      split at h
      · cases h
        exact ⟨_, settles_stay (hmoving (by rw [hpc]; rfl))⟩
      · cases h
        exact ⟨_, settles_device (hmoving (by rw [hpc]; rfl)) fun _ _ => ⟨rfl, rfl⟩⟩
  | enableLock =>
      simp only [hpc] at h
      split at h
      · cases h
      · split at h
        · cases h
          exact ⟨_, settles_stay (hmoving (by rw [hpc]; rfl))⟩
        · cases h
          exact ⟨_, settles_device (hmoving (by rw [hpc]; rfl)) fun _ _ => ⟨rfl, rfl⟩⟩
  | listing =>
      simp only [hpc] at h
      split at h
      · cases h
        exact ⟨_, settles_list (by rw [hpc]; rfl)⟩
      · cases h
        exact ⟨_, settles_stay (hmoving (by rw [hpc]; rfl))⟩
  | arming =>
      simp only [hpc] at h
      split at h
      · cases h
        exact ⟨_, settles_device (hmoving (by rw [hpc]; rfl)) fun _ _ => ⟨rfl, rfl⟩⟩
      · cases h
        exact ⟨_, settles_stay (hmoving (by rw [hpc]; rfl))⟩
  | publishing | undoClear | withdrawing =>
      simp only [hpc] at h
      cases h
      exact ⟨_, settles_device (hmoving (by rw [hpc]; rfl)) fun _ _ => ⟨rfl, rfl⟩⟩
  | undoing =>
      simp only [hpc] at h
      cases h
      exact ⟨.undoWait _, settles_tombstone (by rw [hpc]; rfl) rfl⟩
  | tombstoning =>
      simp only [hpc] at h
      cases h
      exact ⟨.waiting _, settles_tombstone (by rw [hpc]; rfl) rfl⟩
  | undoWait node | waiting node =>
      simp only [hpc] at h
      split at h
      · rename_i hquiescent
        cases h
        refine ⟨_, settles_stay fun node' hw => ?_⟩
        rw [hpc] at hw
        cases hw
        exact hquiescent
      · cases h
  | disableLock =>
      simp only [hpc] at h
      split at h
      · cases h
      · split at h
        · cases h
          exact settles_disabled (by rw [hpc]; rfl)
        · split at h
          · cases h
            exact settles_disabled (by rw [hpc]; rfl)
          · cases h
            exact ⟨_, settles_device (hmoving (by rw [hpc]; rfl)) fun _ _ => ⟨rfl, rfl⟩⟩
  | disarming =>
      simp only [hpc] at h
      split at h
      · cases h
        exact ⟨_, settles_device (hmoving (by rw [hpc]; rfl)) fun _ _ => ⟨rfl, rfl⟩⟩
      · cases h
        exact settles_device_disabled (by rw [hpc]; rfl) fun _ => ⟨rfl, rfl⟩
  | joining =>
      simp only [hpc] at h
      split at h
      · cases h
      · cases h
        exact settles_device_disabled (by rw [hpc]; rfl) fun _ => ⟨rfl, rfl⟩
  | signalling =>
      simp only [hpc] at h
      cases h
      exact ⟨_, settles_stay (hmoving (by rw [hpc]; rfl))⟩
  | freeing =>
      simp only [hpc] at h
      cases h
      exact ⟨_, settles_device (hmoving (by rw [hpc]; rfl)) fun _ _ => ⟨rfl, rfl⟩⟩
  | mutateLock =>
      simp only [hpc] at h
      split at h
      · cases h
      · split at h
        · cases h
          exact ⟨_, settles_stay (hmoving (by rw [hpc]; rfl))⟩
        · cases h
          exact ⟨_, settles_stay (hmoving (by rw [hpc]; rfl))⟩
  | mutating =>
      simp only [hpc] at h
      cases h
      exact ⟨_, settles_device (hmoving (by rw [hpc]; rfl)) fun hnot => absurd hpc hnot⟩
  | returned =>
      simp only [hpc] at h
      cases h

/-- The device is still in the node, or the call that took it out waits for the guard. -/
def Pinned (s : State) (k d : Nat) : Prop :=
  devAt s.nodes k = some d ∨ ∃ c ∈ s.controls, c.dev = d ∧ c.pc.waits = some (some k)

structure Walks (s : State) : Prop where
  counted : ∀ k, activeAt s.nodes k =
    s.handlers.countP fun handler => handler.pc.holds == some k
  bounded : ∀ handler ∈ s.handlers, ∀ k d, handler.pc = .loaded k d → k < s.nodes.length
  kept : ∀ handler ∈ s.handlers, ∀ k d, handler.pc.inside = some (k, d) → Pinned s k d
  region : ∀ handler ∈ s.handlers, ∀ k d region, handler.pc = .found k d region →
    region ∈ (s.devices d).regions

theorem walks_init : Walks init := by
  refine ⟨fun _ => rfl, ?_, ?_, ?_⟩
  · simp [init]
  · simp [init]
  · simp [init]

theorem phase_of_waits {pc : ControlPc} {node : Option Nat} (h : pc.waits = some node) :
    ∃ p, pc.phase = some p ∧ p.callbacks = true ∧ pc ≠ .freeing ∧ pc ≠ .mutating := by
  cases pc <;> cases h <;> exact ⟨_, rfl, rfl, nofun, nofun⟩

theorem Inv.of_pinned (h : Inv s) {k d : Nat} (hpinned : Pinned s k d) :
    (s.devices d).callbacks = true ∧ (s.devices d).allocated = true ∧
      ∀ c ∈ s.controls, c.dev = d → c.pc ≠ .freeing ∧ c.pc ≠ .mutating := by
  rcases hpinned with hk | ⟨c, hc, hdev, hwaits⟩
  · exact h.of_listed hk
  · obtain ⟨i, hi⟩ := List.mem_iff_getElem?.mp hc
    obtain ⟨p, hp, hcallbacks, hnot⟩ := phase_of_waits hwaits
    obtain ⟨hphase, hallocated, hothers⟩ := h.tended i c p hi hp
    rw [hdev] at hphase hallocated hothers
    refine ⟨?_, hallocated, fun c' hc' hdev' => ?_⟩
    · rw [← hphase] at hcallbacks
      exact hcallbacks
    · obtain ⟨j, hj⟩ := List.mem_iff_getElem?.mp hc'
      by_cases hji : j = i
      · rw [hji, hi] at hj
        cases hj
        exact hnot
      · have hnone := hothers j c' hj hdev' hji
        constructor
        · intro hpc
          rw [hpc] at hnone
          cases hnone
        · intro hpc
          rw [hpc] at hnone
          cases hnone

theorem holds_of_inside {pc : HandlerPc} {k d : Nat} (h : pc.inside = some (k, d)) :
    pc.holds = some k := by
  cases pc <;> cases h <;> rfl

theorem findCtrlRegionForFault_mem {ptr faultAddr : Nat} {regions : List Region}
    {ctrlRwMatch : Option Region} {region : Region}
    (h : findCtrlRegionForFault ptr faultAddr regions ctrlRwMatch = some region) :
    region ∈ regions ∨ ctrlRwMatch = some region := by
  induction regions generalizing ctrlRwMatch with
  | nil => exact .inr h
  | cons head rest ih =>
      simp only [findCtrlRegionForFault] at h
      split at h
      · exact (ih h).imp_left (List.mem_cons_of_mem head)
      · split at h
        · cases h
          exact .inl List.mem_cons_self
        · split at h
          · rcases ih h with hrest | hhead
            · exact .inl (List.mem_cons_of_mem head hrest)
            · cases hhead
              exact .inl List.mem_cons_self
          · exact (ih h).imp_left (List.mem_cons_of_mem head)

theorem Walk.loads {faultAddr k d : Nat} {before : HandlerPc}
    (h : Walk s faultAddr before (.loaded k d)) : k < s.nodes.length := by
  cases h with
  | load hdev =>
      by_contra hout
      unfold devAt at hdev
      rw [List.getElem?_eq_none (Nat.le_of_not_lt hout)] at hdev
      cases hdev

theorem Walk.finds {faultAddr k d : Nat} {before : HandlerPc} {region : Region}
    (h : Walk s faultAddr before (.found k d region)) : region ∈ (s.devices d).regions := by
  cases h with
  | hit htarget =>
      rcases findCtrlRegionForFault_mem htarget with hregion | hnone
      · exact hregion
      · cases hnone

theorem Walk.stays {faultAddr k d : Nat} {before after : HandlerPc}
    (h : Walk s faultAddr before after) (hin : after.inside = some (k, d)) :
    devAt s.nodes k = some d ∨ before.inside = some (k, d) := by
  cases h with
  | same hdev =>
      cases hin
      exact .inl hdev
  | enabled => exact .inr hin
  | hit => exact .inr hin
  | _ => cases hin

theorem Walks.called (h : Walks s) (hinv : Inv s) {pc : ControlPc}
    (hc : s.controls[i]? = some c) (settles : Settles s t i c pc) : Walks t := by
  have hpinned : ∀ handler ∈ s.handlers, ∀ k d, handler.pc.inside = some (k, d) → Pinned t k d := by
    intro handler hmem k d hinside
    rcases h.kept handler hmem k d hinside with hk | ⟨c', hc', hdev, hwaits⟩
    · rcases settles.kept k d hk with hkept | ⟨-, hd, hwaits⟩
      · exact .inl hkept
      · refine .inr ⟨{ c with pc := pc }, ?_, hd.symm, hwaits⟩
        rw [settles.controls]
        exact mem_set_moved hc
    · rcases eq_or_mem_set { c with pc := pc } hc hc' with rfl | hkept
      · -- the node that the call waits for has been left, so this thread is not in it
        have hactive : activeAt s.nodes k = 0 := by
          simpa [quiescent] using settles.quiet _ hwaits
        have hpos : 0 < s.handlers.countP fun handler => handler.pc.holds == some k :=
          List.countP_pos_iff.mpr ⟨handler, hmem, by rw [holds_of_inside hinside]; simp⟩
        rw [← h.counted k, hactive] at hpos
        exact absurd hpos (Nat.lt_irrefl 0)
      · rw [← settles.controls] at hkept
        exact .inr ⟨c', hkept, hdev, hwaits⟩
  refine ⟨fun k => ?_, fun handler hmem k d hpc => ?_, fun handler hmem => ?_,
    fun handler hmem k d region hpc => ?_⟩
  · rw [settles.active, settles.handlers]
    exact h.counted k
  · rw [settles.handlers] at hmem
    exact Nat.lt_of_lt_of_le (h.bounded handler hmem k d hpc) settles.length
  · rw [settles.handlers] at hmem
    exact hpinned handler hmem
  · rw [settles.handlers] at hmem
    have hregion := h.region handler hmem k d region hpc
    have hpin := h.kept handler hmem k d (by rw [hpc]; rfl)
    by_cases hd : d = c.dev
    · have hnot := (hinv.of_pinned hpin).2.2 c (List.mem_iff_getElem?.mpr ⟨i, hc⟩) hd.symm
      rw [(settles.target hnot.2 d).2]
      exact hregion
    · rw [settles.elsewhere d hd]
      exact hregion

theorem Walks.walked (h : Walks s) (hget : s.handlers[i]? = some handler)
    (hstep : handlerStep s i handler = some t) : Walks t := by
  have hmem := List.mem_iff_getElem?.mpr ⟨i, hget⟩
  obtain ⟨hnodes, hdevices, -, hcontrols⟩ := handlerStep_frame hstep
  obtain ⟨pc, hhandlers, hwalk, hlength, hactive⟩ := handlerStep_walk hstep (h.bounded handler hmem)
    fun k hk => by
      rw [h.counted k]
      exact List.countP_pos_iff.mpr ⟨handler, hmem, by rw [hk]; simp⟩
  have hpinned : ∀ k d, Pinned s k d → Pinned t k d := by
    intro k d
    unfold Pinned
    rw [hnodes, hcontrols]
    exact id
  refine ⟨fun k => ?_, ?_, ?_, ?_⟩
  · have hcount := countP_set_add (fun handler => handler.pc.holds == some k)
      { handler with pc := pc } hget
    have hk := hactive k
    rw [h.counted k] at hk
    rw [hhandlers]
    dsimp only at hcount
    omega
  · rw [hhandlers, hlength]
    refine forall_mem_set h.bounded fun k d hpc => ?_
    dsimp only at hpc
    rw [hpc] at hwalk
    exact hwalk.loads
  · rw [hhandlers]
    refine forall_mem_set (fun other hother k d hin => hpinned k d (h.kept other hother k d hin))
      fun k d hin => hpinned k d ?_
    rcases hwalk.stays hin with hk | hbefore
    · exact .inl hk
    · exact h.kept handler hmem k d hbefore
  · rw [hhandlers, hdevices]
    refine forall_mem_set h.region fun k d region hpc => ?_
    dsimp only at hpc
    rw [hpc] at hwalk
    exact hwalk.finds

theorem walks_step (s : State) (action : Action) (t : State) (h : Inv s ∧ Walks s)
    (hstep : step s action = some t) : Inv t ∧ Walks t := by
  refine ⟨inv_step s action t h.1 hstep, ?_⟩
  obtain ⟨hinv, hcounted, hbounded, hkept, hregion⟩ := h
  unfold step at hstep
  cases action with
  | create dev ptr =>
      simp only at hstep
      split at hstep
      · cases hstep
      · rename_i hnot
        cases hstep
        refine ⟨hcounted, hbounded, hkept, fun handler hmem k d region hpc => ?_⟩
        have hallocated := (hinv.of_pinned (hkept handler hmem k d (by rw [hpc]; rfl))).2.1
        have hd : d ≠ dev := fun hd => hnot (hd ▸ hallocated)
        rw [setDevice_other s _ hd]
        exact hregion handler hmem k d region hpc
  | call dev finalizes regions pc =>
      simp only at hstep
      split at hstep
      · cases hstep
        refine ⟨hcounted, hbounded, fun handler hmem k d hin => ?_, hregion⟩
        rcases hkept handler hmem k d hin with hk | ⟨c, hc, hwaits⟩
        · exact .inl hk
        · exact .inr ⟨c, List.mem_append_left _ hc, hwaits⟩
      · cases hstep
  | fault faultAddr =>
      cases hstep
      refine ⟨fun k => ?_, forall_mem_push hbounded nofun, forall_mem_push hkept nofun,
        forall_mem_push hregion nofun⟩
      rw [List.countP_append, ← hcounted k]
      rfl
  | control index ok =>
      obtain ⟨control, hcontrol, hrest⟩ := Option.bind_eq_some_iff.mp hstep
      split at hrest
      · obtain ⟨_, settles⟩ := controlStep_settles hrest
        exact Walks.called ⟨hcounted, hbounded, hkept, hregion⟩ hinv hcontrol settles
      · cases hrest
  | handler index =>
      obtain ⟨handler, hhandler, hrest⟩ := Option.bind_eq_some_iff.mp hstep
      exact Walks.walked ⟨hcounted, hbounded, hkept, hregion⟩ hhandler hrest

/-- In every reachable state the guard count of a node is the number of threads that hold it, and
a device that a faulting thread relies on is not freed and has its callback threads, no call
changes its regions or frees them, and a region that was found is still one of them. -/
theorem walks_guarded {actions : List Action} (hrun : run step init actions = some s) :
    (∀ k, activeAt s.nodes k = s.handlers.countP fun handler => handler.pc.holds == some k) ∧
    ∀ handler ∈ s.handlers, ∀ k d, handler.pc.inside = some (k, d) →
      (s.devices d).allocated = true ∧ (s.devices d).callbacks = true ∧
        (∀ c ∈ s.controls, c.dev = d → c.pc ≠ .freeing ∧ c.pc ≠ .mutating) ∧
        ∀ region, handler.pc = .found k d region → region ∈ (s.devices d).regions := by
  obtain ⟨hinv, hwalks⟩ := run_invariant walks_step ⟨inv_init, walks_init⟩ hrun
  refine ⟨hwalks.counted, fun handler hmem k d hinside => ?_⟩
  obtain ⟨hcallbacks, hallocated, hnot⟩ := hinv.of_pinned (hwalks.kept handler hmem k d hinside)
  exact ⟨hallocated, hcallbacks, hnot, fun region hpc => hwalks.region handler hmem k d region hpc⟩

/-- The node of the device is still to come, or the thread is looking into it. -/
def HandlerPc.Ahead (k d : Nat) : HandlerPc → Prop
  | .visiting rest => k < rest
  | .loaded j d' | .guarded j d' | .stable j d' | .searching j d' => k < j ∨ (k = j ∧ d = d')
  | .leaving j => k < j
  | .found _ _ _ | .released => True
  | .forwarded => False

/-- The steps that the thread has still to take, at most. -/
def HandlerPc.cost : HandlerPc → Nat
  | .visiting rest => 6 * rest + 1
  | .loaded k _ => 6 * k + 6
  | .guarded k _ => 6 * k + 5
  | .stable k _ => 6 * k + 4
  | .searching k _ => 6 * k + 3
  | .leaving k => 6 * k + 2
  | .found _ _ _ => 1
  | .released | .forwarded => 0

theorem Walk.cost_lt {faultAddr : Nat} {before after : HandlerPc}
    (h : Walk s faultAddr before after) : after.cost + 1 ≤ before.cost := by
  cases h <;> simp only [HandlerPc.cost] <;> omega

theorem Walk.ahead {faultAddr k d : Nat} {before after : HandlerPc}
    (h : Walk s faultAddr before after) (hahead : before.Ahead k d)
    (hk : devAt s.nodes k = some d) (henabled : (s.devices d).sigsegvEnabled = true)
    (htarget : ((s.devices d).target faultAddr).isSome = true) : after.Ahead k d := by
  cases h with
  | missed => exact absurd hahead (Nat.not_lt_zero k)
  | @skip j hnone =>
      have hj : k < j + 1 := hahead
      have hne : k ≠ j := fun hkj => by
        rw [hkj, hnone] at hk
        cases hk
      exact Nat.lt_of_le_of_ne (Nat.le_of_lt_succ hj) hne
  | @load j d' hdev =>
      have hj : k < j + 1 := hahead
      rcases Nat.lt_succ_iff_lt_or_eq.mp hj with hlt | rfl
      · exact .inl hlt
      · exact .inr ⟨rfl, Option.some.inj (hk.symm.trans hdev)⟩
  | enter => exact hahead
  | same => exact hahead
  | changed hchanged =>
      rcases hahead with hlt | ⟨rfl, rfl⟩
      · exact hlt
      · exact absurd hk hchanged
  | enabled => exact hahead
  | disabled hdisabled =>
      rcases hahead with hlt | ⟨rfl, rfl⟩
      · exact hlt
      · rw [henabled] at hdisabled
        cases hdisabled
  | hit => trivial
  | miss hmiss =>
      rcases hahead with hlt | ⟨rfl, rfl⟩
      · exact hlt
      · rw [hmiss] at htarget
        cases htarget
  | release => trivial
  | leave => exact hahead

/-- The walk at the index has still to find the device, or is over having found one. -/
structure Seeking (index faultAddr d : Nat) (s : State) : Prop where
  inv : Inv s
  walks : Walks s
  target : ((s.devices d).target faultAddr).isSome = true
  ahead : ∃ handler k, s.handlers[index]? = some handler ∧ handler.faultAddr = faultAddr ∧
    devAt s.nodes k = some d ∧ handler.pc.Ahead k d

def costAt (index : Nat) (s : State) : Nat :=
  (s.handlers[index]?).elim 0 fun handler => handler.pc.cost

def Action.moves (index : Nat) : Action → Bool
  | .handler j => j == index
  | _ => false

theorem Inv.disabled_of_control (h : Inv s) (hc : s.controls[i]? = some c)
    (hpc : c.pc = .mutating ∨ c.pc.removes = true) :
    (s.devices c.dev).sigsegvEnabled = false := by
  have hphase : ∃ p, c.pc.phase = some p ∧ p.sigsegvEnabled = false := by
    rcases hpc with hpc | hpc
    · rw [hpc]
      exact ⟨_, rfl, rfl⟩
    · unfold ControlPc.removes at hpc
      simp only [Bool.or_eq_true, beq_iff_eq] at hpc
      rcases hpc with hpc | hpc <;> rw [hpc] <;> exact ⟨_, rfl, rfl⟩
  obtain ⟨p, hp, hdisabled⟩ := hphase
  rw [← hdisabled]
  exact (State.phase_eq_iff.mp (h.tended i c p hc hp).1).1

theorem Inv.allocated_of_enabled (h : Inv s) {d : Nat}
    (henabled : (s.devices d).sigsegvEnabled = true) : (s.devices d).allocated = true := by
  rw [← Bool.not_eq_false]
  intro hnot
  have hoff := (State.phase_eq_iff.mp (h.allocated d hnot)).1
  rw [henabled] at hoff
  cases hoff

theorem target_congr {dev dev' : Device} (h : dev'.ptr = dev.ptr ∧ dev'.regions = dev.regions)
    (faultAddr : Nat) : dev'.target faultAddr = dev.target faultAddr := by
  unfold Device.target
  rw [h.1, h.2]

theorem seeking_step {index faultAddr d : Nat} (s : State) (action : Action) (t : State)
    (h : Seeking index faultAddr d s) (henabled : (s.devices d).sigsegvEnabled = true)
    (hstep : step s action = some t) : Seeking index faultAddr d t ∧
      costAt index t + (if action.moves index then 1 else 0) ≤ costAt index s := by
  obtain ⟨hinv, hwalks, htarget, handler, k, hget, haddr, hk, hahead⟩ := h
  obtain ⟨hinv', hwalks'⟩ := walks_step s action t ⟨hinv, hwalks⟩ hstep
  have hkeep : ((t.devices d).target faultAddr).isSome = true → devAt t.nodes k = some d →
      t.handlers[index]? = s.handlers[index]? → action.moves index = false →
      Seeking index faultAddr d t ∧
        costAt index t + (if action.moves index then 1 else 0) ≤ costAt index s := by
    intro htarget' hk' hsame hmoves
    refine ⟨⟨hinv', hwalks', htarget', handler, k, hsame.trans hget, haddr, hk', hahead⟩, ?_⟩
    unfold costAt
    rw [hsame, hmoves]
    simp
  unfold step at hstep
  cases action with
  | create dev ptr =>
      simp only at hstep
      split at hstep
      · cases hstep
      · rename_i hnot
        cases hstep
        have hd : d ≠ dev := fun hd => hnot (hd ▸ hinv.allocated_of_enabled henabled)
        refine hkeep ?_ hk rfl rfl
        rw [setDevice_other s _ hd]
        exact htarget
  | call dev finalizes regions pc =>
      simp only at hstep
      split at hstep
      · cases hstep
        exact hkeep htarget hk rfl rfl
      · cases hstep
  | fault other =>
      cases hstep
      refine hkeep htarget hk ?_ rfl
      exact List.getElem?_append_left (List.getElem?_eq_some_iff.mp hget).1
  | control j ok =>
      obtain ⟨c, hc, hrest⟩ := Option.bind_eq_some_iff.mp hstep
      split at hrest
      · obtain ⟨pc, settles⟩ := controlStep_settles hrest
        have hnot : d = c.dev → ¬ (c.pc = .mutating ∨ c.pc.removes = true) := fun hd hpc => by
          rw [hd, hinv.disabled_of_control hc hpc] at henabled
          cases henabled
        refine hkeep ?_ ?_ (by rw [settles.handlers]) rfl
        · by_cases hd : d = c.dev
          · rw [target_congr (settles.target (fun hpc => hnot hd (.inl hpc)) d)]
            exact htarget
          · rw [settles.elsewhere d hd]
            exact htarget
        · rcases settles.kept k d hk with hk' | ⟨hremoves, hd, -⟩
          · exact hk'
          · exact absurd (.inr hremoves) (hnot hd)
      · cases hrest
  | handler j =>
      obtain ⟨mover, hmover, hrest⟩ := Option.bind_eq_some_iff.mp hstep
      have hmem := List.mem_iff_getElem?.mpr ⟨j, hmover⟩
      obtain ⟨hnodes, hdevices, -, -⟩ := handlerStep_frame hrest
      obtain ⟨pc, hhandlers, hwalk, -, -⟩ := handlerStep_walk hrest (hwalks.bounded mover hmem)
        fun k hk => by
          rw [hwalks.counted k]
          exact List.countP_pos_iff.mpr ⟨mover, hmem, by rw [hk]; simp⟩
      by_cases hj : j = index
      · subst hj
        rw [hget] at hmover
        cases hmover
        have hmoved : t.handlers[j]? = some { handler with pc := pc } := by
          rw [hhandlers]
          exact getElem?_set_moved hget
        rw [haddr] at hwalk
        refine ⟨⟨hinv', hwalks', by rw [hdevices]; exact htarget, _, k, hmoved, haddr,
          by rw [hnodes]; exact hk, hwalk.ahead hahead hk henabled htarget⟩, ?_⟩
        unfold costAt Action.moves
        rw [hmoved, hget]
        simpa using hwalk.cost_lt
      · refine hkeep (by rw [hdevices]; exact htarget) (by rw [hnodes]; exact hk) ?_ ?_
        · rw [hhandlers, List.getElem?_set_ne hj]
        · simpa [Action.moves] using hj

theorem phase_of_enabled {pc : ControlPc} {p : Phase} (hp : pc.phase = some p)
    (henabled : p.sigsegvEnabled = true) : p.listed = true := by
  cases pc <;> cases hp <;> first | rfl | cases henabled

theorem Inv.listed_of_enabled (h : Inv s) {d : Nat}
    (henabled : (s.devices d).sigsegvEnabled = true) : ∃ k, devAt s.nodes k = some d := by
  have henabled' : (s.phase d).sigsegvEnabled = true := henabled
  have hlisted : (s.phase d).listed = true := by
    rcases h.phase_cases d with (hoff | hon) | ⟨i, c, -, -, hp, -⟩
    · rw [hoff] at henabled'
      cases henabled'
    · rw [hon]
      rfl
    · exact phase_of_enabled hp henabled'
  exact lists_iff.mp hlisted

theorem handlerStep_isSome (hreleased : handler.pc ≠ .released)
    (hforwarded : handler.pc ≠ .forwarded) : (handlerStep s i handler).isSome = true := by
  unfold handlerStep
  cases hpc : handler.pc with
  | visiting rest =>
      cases rest with
      | zero => rfl
      | succ k =>
          dsimp only
          split <;> rfl
  | guarded | stable | searching =>
      dsimp only
      split <;> rfl
  | loaded | found | leaving => rfl
  | released => exact absurd hpc hreleased
  | forwarded => exact absurd hpc hforwarded

theorem seeking_fault (hinv : Inv s) (hwalks : Walks s) {u : State} {faultAddr d : Nat}
    (hfault : step s (.fault faultAddr) = some u)
    (htarget : ((s.devices d).target faultAddr).isSome = true)
    (henabled : (s.devices d).sigsegvEnabled = true) :
    Seeking s.handlers.length faultAddr d u ∧
      costAt s.handlers.length u = 6 * s.nodes.length + 1 := by
  obtain ⟨hinv', hwalks'⟩ := walks_step s _ u ⟨hinv, hwalks⟩ hfault
  obtain ⟨k, hk⟩ := hinv.listed_of_enabled henabled
  have hlength : k < s.nodes.length := by
    by_contra hout
    unfold devAt at hk
    rw [List.getElem?_eq_none (Nat.le_of_not_lt hout)] at hk
    cases hk
  cases hfault
  have hnew : (s.handlers ++ [Handler.mk faultAddr (.visiting s.nodes.length)])[s.handlers.length]? =
      some ⟨faultAddr, .visiting s.nodes.length⟩ := by
    simp
  refine ⟨⟨hinv', hwalks', htarget, _, k, hnew, rfl, hk, hlength⟩, ?_⟩
  unfold costAt
  rw [hnew]
  rfl

/-- A device that has a region at the address and stays in the mode from the fault on is found
if no other is: the fault is not forwarded, and the walk, which never has to wait, is over
within a number of its own steps that the nodes at the fault give. -/
theorem walk_finds {before after : List Action} {u : State} {faultAddr d : Nat}
    (hbefore : run step init before = some s) (hfault : step s (.fault faultAddr) = some u)
    (hafter : run step u after = some t)
    (htarget : ((s.devices d).target faultAddr).isSome = true)
    (hlisted : (s.devices d).sigsegvEnabled = true)
    (henabled : Meets step (fun v _ => (v.devices d).sigsegvEnabled = true) u after) :
    ∃ handler, t.handlers[s.handlers.length]? = some handler ∧ handler.pc ≠ .forwarded ∧
      after.countP (Action.moves s.handlers.length) + handler.pc.cost ≤ 6 * s.nodes.length + 1 ∧
      (handler.pc ≠ .released → (step t (.handler s.handlers.length)).isSome = true) := by
  obtain ⟨hinv, hwalks⟩ := run_invariant walks_step ⟨inv_init, walks_init⟩ hbefore
  obtain ⟨hstart, hcost⟩ := seeking_fault hinv hwalks hfault htarget hlisted
  obtain ⟨hend, hbound⟩ := run_countP_le (Action.moves s.handlers.length)
    (seeking_step (d := d)) hstart henabled hafter
  obtain ⟨-, -, -, handler, k, hget, -, -, hahead⟩ := hend
  have hnot : handler.pc ≠ .forwarded := fun hpc => by
    rw [hpc] at hahead
    exact hahead
  refine ⟨handler, hget, hnot, ?_, fun hreleased => ?_⟩
  · rw [hcost] at hbound
    unfold costAt at hbound
    rw [hget] at hbound
    exact hbound
  · change ((t.handlers[s.handlers.length]?).bind (handlerStep t s.handlers.length)).isSome = true
    rw [hget]
    exact handlerStep_isSome hreleased hnot

end

def mmioRegion : Region := ⟨0, 64, 64, .ctrlMmio, [], []⟩

/-- Device 0 gets a region and goes into the mode, and device 1 before it in the list. -/
def twoEnabled : List Action :=
  [.create 0 4096, .create 1 8192, .call 0 false [mmioRegion] .mutateLock, .control 0 true,
    .control 0 true, .call 0 false [] .enableLock, .control 1 true, .control 1 true,
    .control 1 true, .control 1 true, .call 1 false [] .enableLock, .control 2 true,
    .control 2 true, .control 2 true, .control 2 true]

/-- The thread finds the region of device 0, which a call then takes out of the mode to destroy
it, and waits. -/
def destroyedUnderWalk : List Action :=
  twoEnabled ++ .fault 4170 :: List.replicate 11 (.handler 0) ++
    .call 0 true [] .begun :: List.replicate 5 (.control 3 true)

theorem walks_guarded_destroyed : ∃ s, run step init destroyedUnderWalk = some s ∧
    (⟨0, true, [], .waiting (some 0)⟩ : Control) ∈ s.controls ∧ 0 < activeAt s.nodes 0 ∧
    (s.devices 0).allocated = true ∧ mmioRegion ∈ (s.devices 0).regions := by
  obtain ⟨s, hrun, hwaits, hmem⟩ := exists_run (p := fun s =>
    (⟨0, true, [], .waiting (some 0)⟩ : Control) ∈ s.controls ∧
      (⟨4170, .found 0 0 mmioRegion⟩ : Handler) ∈ s.handlers)
    (show (run step init destroyedUnderWalk).any _ = true by decide)
  obtain ⟨hcounted, hinside⟩ := walks_guarded hrun
  obtain ⟨hallocated, -, -, hregion⟩ := hinside _ hmem 0 0 rfl
  refine ⟨s, hrun, hwaits, ?_, hallocated, hregion mmioRegion rfl⟩
  rw [hcounted 0]
  exact List.countP_pos_iff.mpr ⟨_, hmem, rfl⟩

/-- Device 1 leaves the mode while the thread is about to look into it. -/
def withdrawnUnderWalk : List Action :=
  .handler 0 :: .call 1 false [] .disableLock :: List.replicate 4 (.control 3 true) ++
    List.replicate 9 (.handler 0)

theorem walk_finds_withdrawn : ∃ s u t, run step init twoEnabled = some s ∧
    step s (.fault 4170) = some u ∧ run step u withdrawnUnderWalk = some t ∧
    (t.devices 1).sigsegvEnabled = false ∧
    ∃ handler, t.handlers[s.handlers.length]? = some handler ∧ handler.pc ≠ .forwarded := by
  obtain ⟨s, hrun, htarget, henabled, hrest⟩ := exists_run (p := fun s =>
    ((s.devices 0).target 4170).isSome = true ∧ (s.devices 0).sigsegvEnabled = true ∧
      (step s (.fault 4170)).any (fun u =>
        decide (Meets step (fun v _ => (v.devices 0).sigsegvEnabled = true) u withdrawnUnderWalk) &&
          (run step u withdrawnUnderWalk).any fun t => !(t.devices 1).sigsegvEnabled) = true)
    (show (run step init twoEnabled).any _ = true by decide)
  obtain ⟨u, hfault, hu⟩ := (Option.any_eq_true _ _).mp hrest
  obtain ⟨hmeets, hlast⟩ := Bool.and_eq_true_iff.mp hu
  obtain ⟨t, hafter, hdisabled⟩ := (Option.any_eq_true _ _).mp hlast
  obtain ⟨handler, hget, hnot, -, -⟩ :=
    walk_finds hrun hfault hafter htarget henabled (of_decide_eq_true hmeets)
  exact ⟨s, u, t, hrun, hfault, hafter, by simpa using hdisabled, handler, hget, hnot⟩

end HostPimSim.Core.SigsegvList
