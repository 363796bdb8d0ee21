import HostPimSim.Core.Topology
import HostPimSim.Lib.Threads

/-! The list of devices in SIGSEGV mode.  Faulting threads walk it without a lock while other
threads enable and disable devices, change their regions and destroy them; the guard of a
node is all that keeps a device from being taken away under a walk. -/
namespace HostPimSim.Core.SigsegvList
open Threads Transition HostPimSim.Core.Topology

/-- `SigsegvNode`.  A node is put before all others and never freed, so it is named by the
number of nodes behind it, and `next` leads to the one before in this count. -/
structure Node where
  dev : Option Nat
  activeWithDev : Nat

/-- `armed` tells whether an arming of the MMIO pages stands: it has succeeded, and no disarming
has since.  The protection of the single pages is left out, which a failed arming may not give
back, and which a replayed store to a CTRL_RW region sets whatever the mode is.  `callbacks` tells
whether there are callback threads. -/
structure Device where
  allocated : Bool
  ptr : Nat
  regions : List Region
  teardownInProgress : Bool
  sigsegvEnabled : Bool
  transitionInProgress : Bool
  armed : Bool
  callbacks : Bool

/-- Where a faulting thread is in `_pim_sigsegv_handler_func`.  `visiting` counts the nodes
still to come; from `guarded` to `found` and in `leaving` it holds the node. -/
inductive HandlerPc where
  | visiting (rest : Nat)
  | loaded (node dev : Nat)
  | guarded (node dev : Nat)
  | stable (node dev : Nat)
  | searching (node dev : Nat)
  | found (node dev : Nat) (region : Region)
  | leaving (node : Nat)
  | released
  | forwarded
  deriving DecidableEq

structure Handler where
  faultAddr : Nat
  pc : HandlerPc
  deriving DecidableEq

/-- Where a call is: `pim_device_enable_sigsegv` up to `undoClear`, `pim_device_disable_sigsegv`
up to `joining`, the rest of `pim_device_finalize`, and calls that change regions or handlers. -/
inductive ControlPc where
  | enableLock
  | listing
  | arming
  | publishing
  | undoing
  | undoWait (node : Option Nat)
  | undoClear
  | disableLock
  | disarming
  | withdrawing
  | tombstoning
  | waiting (node : Option Nat)
  | signalling
  | joining
  | begun
  | freeing
  | mutateLock
  | mutating
  | returned
  deriving DecidableEq

/-- A call that changes the regions or their handlers makes `regions` of them. -/
structure Control where
  dev : Nat
  finalizes : Bool
  regions : List Region
  pc : ControlPc
  deriving DecidableEq

/-- `lock` is the call that holds `g_sigsegv_mutex`. -/
structure State where
  nodes : List Node
  devices : Nat → Device
  lock : Option Nat
  controls : List Control
  handlers : List Handler

/-- The entry points, and the thread that goes on.  `ok` tells whether the library and
system calls of a step succeed. -/
inductive Action where
  | create (dev ptr : Nat)
  | call (dev : Nat) (finalizes : Bool) (regions : List Region) (pc : ControlPc)
  | fault (faultAddr : Nat)
  | control (index : Nat) (ok : Bool)
  | handler (index : Nat)
  deriving DecidableEq

def Device.fresh (ptr : Nat) : Device where
  allocated := true
  ptr := ptr
  regions := []
  teardownInProgress := false
  sigsegvEnabled := false
  transitionInProgress := false
  armed := false
  callbacks := false

def init : State where
  nodes := []
  devices := fun _ => { Device.fresh 0 with allocated := false }
  lock := none
  controls := []
  handlers := []

def devAt (nodes : List Node) (k : Nat) : Option Nat := (nodes[k]?).bind Node.dev

def activeAt (nodes : List Node) (k : Nat) : Nat := (nodes[k]?).elim 0 Node.activeWithDev

/-- The first node from the head that meets `p`, among the last `count`. -/
def scan (p : Node → Bool) (nodes : List Node) : Nat → Option Nat
  | 0 => none
  | count + 1 => if (nodes[count]?).any p then some count else scan p nodes count

def Node.setDev (dev : Option Nat) (node : Node) : Node := { node with dev := dev }

def listDevice (nodes : List Node) (dev : Nat) : List Node :=
  match scan (·.dev.isNone) nodes nodes.length with
  | some k => nodes.modify k (Node.setDev (some dev))
  | none => nodes ++ [⟨some dev, 0⟩]

def findDevice (nodes : List Node) (dev : Nat) : Option Nat :=
  scan (·.dev == some dev) nodes nodes.length

/-- `sigsegv_tombstone_device_node`, of the node that it finds. -/
def tombstoneNode (nodes : List Node) : Option Nat → List Node
  | some k => nodes.modify k (Node.setDev none)
  | none => nodes

/-- `sigsegv_wait_node_quiescent` passes. -/
def quiescent (nodes : List Node) (node : Option Nat) : Bool :=
  node.all fun k => activeAt nodes k == 0

/-- The pass of `find_ctrl_region_for_fault` over the regions still to come. -/
def findCtrlRegionForFault (ptr faultAddr : Nat) : List Region → Option Region → Option Region
  | [], ctrlRwMatch => ctrlRwMatch
  | region :: rest, ctrlRwMatch =>
      let regionStart := ptr + region.offset
      let regionEnd := regionStart + region.size
      if faultAddr < regionStart || faultAddr ≥ regionEnd then
        findCtrlRegionForFault ptr faultAddr rest ctrlRwMatch
      else if region.type = .ctrlMmio then some region
      else if region.type = .ctrlRw && ctrlRwMatch.isNone then
        findCtrlRegionForFault ptr faultAddr rest (some region)
      else findCtrlRegionForFault ptr faultAddr rest ctrlRwMatch

def Device.target (dev : Device) (faultAddr : Nat) : Option Region :=
  findCtrlRegionForFault dev.ptr faultAddr dev.regions none

def State.setDevice (s : State) (dev : Nat) (f : Device → Device) : State :=
  { s with devices := fun d => if d = dev then f (s.devices d) else s.devices d }

def State.setControl (s : State) (index : Nat) (control : Control) (pc : ControlPc) : State :=
  { s with controls := s.controls.set index { control with pc := pc } }

def State.setNode (s : State) (k : Nat) (f : Node → Node) : State :=
  { s with nodes := s.nodes.modify k f }

/-- A step of the walk alone.  What is done with the region that was found is left out: the store
may not be decoded, or its pages not be unprotected, and the fault then still be forwarded. -/
def handlerStep (s : State) (index : Nat) (handler : Handler) : Option State :=
  let move (pc : HandlerPc) : State :=
    { s with handlers := s.handlers.set index { handler with pc := pc } }
  let enter (node : Node) : Node := { node with activeWithDev := node.activeWithDev + 1 }
  let leave (node : Node) : Node := { node with activeWithDev := node.activeWithDev - 1 }
  match handler.pc with
  | .visiting 0 => some (move .forwarded)
  | .visiting (k + 1) =>
      match devAt s.nodes k with
      | none => some (move (.visiting k))
      | some dev => some (move (.loaded k dev))
  | .loaded k dev => some ((move (.guarded k dev)).setNode k enter)
  | .guarded k dev =>
      if devAt s.nodes k = some dev then some (move (.stable k dev))
      else some (move (.leaving k))
  | .stable k dev =>
      if (s.devices dev).sigsegvEnabled then some (move (.searching k dev))
      else some (move (.leaving k))
  | .searching k dev =>
      match (s.devices dev).target handler.faultAddr with
      | some region => some (move (.found k dev region))
      | none => some (move (.leaving k))
  | .found k _ _ => some ((move .released).setNode k leave)
  | .leaving k => some ((move (.visiting k)).setNode k leave)
  | .released | .forwarded => none

/-- What a call does when its `pim_device_disable_sigsegv` is over. -/
def disabled (s : State) (index : Nat) (control : Control) (success : Bool) : State :=
  if !control.finalizes then s.setControl index control .returned
  else if success then s.setControl index control .freeing
  else (s.setDevice control.dev fun dev => { dev with teardownInProgress := false }).setControl
    index control .returned

def controlStep (s : State) (index : Nat) (control : Control) (ok : Bool) : Option State :=
  let d := control.dev
  let dev := s.devices d
  let goes (t : State) (pc : ControlPc) : Option State := some (t.setControl index control pc)
  let locked : State := { s with lock := some index }
  let unlocked : State := { s with lock := none }
  match control.pc with
  | .begun =>
      if dev.teardownInProgress then goes s .returned
      else goes (s.setDevice d fun dev => { dev with teardownInProgress := true }) .disableLock
  | .enableLock =>
      if s.lock.isSome then none
      else if dev.transitionInProgress || dev.teardownInProgress || dev.sigsegvEnabled || !ok then
        goes s .returned
      else goes (locked.setDevice d fun dev => { dev with callbacks := true }) .listing
  | .listing =>
      -- without a tombstone the call needs memory for a new node
      if ok || (scan (·.dev.isNone) s.nodes s.nodes.length).isSome then
        goes { s with nodes := listDevice s.nodes d } .arming
      else goes s .undoClear
  | .arming =>
      if ok then goes (s.setDevice d fun dev => { dev with armed := true }) .publishing
      else goes s .undoing
  | .publishing =>
      goes (unlocked.setDevice d fun dev => { dev with sigsegvEnabled := true }) .returned
  | .undoing =>
      let node := findDevice s.nodes d
      goes { s with nodes := tombstoneNode s.nodes node } (.undoWait node)
  | .undoWait node => if quiescent s.nodes node then goes s .undoClear else none
  | .undoClear => goes (unlocked.setDevice d fun dev => { dev with callbacks := false }) .returned
  | .disableLock =>
      if s.lock.isSome then none
      else if dev.transitionInProgress || !ok then some (disabled s index control false)
      else if !dev.sigsegvEnabled then some (disabled s index control true)
      else goes (locked.setDevice d fun dev => { dev with transitionInProgress := true }) .disarming
  | .disarming =>
      if ok then goes (s.setDevice d fun dev => { dev with armed := false }) .withdrawing
      else some (disabled (unlocked.setDevice d fun dev =>
        { dev with transitionInProgress := false }) index control false)
  | .withdrawing =>
      goes (s.setDevice d fun dev => { dev with sigsegvEnabled := false }) .tombstoning
  | .tombstoning =>
      let node := findDevice s.nodes d
      goes { s with nodes := tombstoneNode s.nodes node } (.waiting node)
  | .waiting node => if quiescent s.nodes node then goes s .signalling else none
  | .signalling => goes unlocked .joining
  | .joining =>
      if s.lock.isSome then none
      else some (disabled (s.setDevice d fun dev =>
        { dev with callbacks := false, transitionInProgress := false }) index control true)
  | .freeing => goes (s.setDevice d fun dev => { dev with allocated := false }) .returned
  | .mutateLock =>
      if s.lock.isSome then none
      else if dev.transitionInProgress || dev.teardownInProgress || dev.sigsegvEnabled || !ok then
        goes s .returned
      else goes locked .mutating
  | .mutating =>
      goes (unlocked.setDevice d fun dev => { dev with regions := control.regions }) .returned
  | .returned => none

def ControlPc.starts (finalizes : Bool) (pc : ControlPc) : Bool :=
  if finalizes then pc == .begun
  else pc == .enableLock || pc == .disableLock || pc == .mutateLock

def step (s : State) : Action → Option State
  | .create dev ptr =>
      if (s.devices dev).allocated then none
      else some (s.setDevice dev fun _ => .fresh ptr)
  | .call dev finalizes regions pc =>
      if (s.devices dev).allocated && pc.starts finalizes then
        some { s with controls := s.controls ++ [⟨dev, finalizes, regions, pc⟩] }
      else none
  | .fault faultAddr =>
      some { s with handlers := s.handlers ++ [⟨faultAddr, .visiting s.nodes.length⟩] }
  | .control index ok => (s.controls[index]?).bind fun control =>
      if (s.devices control.dev).allocated then controlStep s index control ok else none
  | .handler index => (s.handlers[index]?).bind (handlerStep s index)

theorem scan_some {p : Node → Bool} {nodes : List Node} {count k : Nat}
    (h : scan p nodes count = some k) : ∃ node, nodes[k]? = some node ∧ p node = true := by
  induction count with
  | zero => cases h
  | succ count ih =>
      unfold scan at h
      split at h
      · rename_i hfound
        cases h
        obtain ⟨node, hnode, hp⟩ := (Option.any_eq_true _ _).mp hfound
        exact ⟨node, hnode, hp⟩
      · exact ih h

theorem scan_none {p : Node → Bool} {nodes : List Node} {count k : Nat} {node : Node}
    (h : scan p nodes count = none) (hk : k < count) (hnode : nodes[k]? = some node) :
    p node = false := by
  induction count with
  | zero => omega
  | succ count ih =>
      unfold scan at h
      split at h
      · cases h
      · rename_i hmiss
        rcases Nat.lt_succ_iff_lt_or_eq.mp hk with hlt | rfl
        · exact ih h hlt
        · simpa [hnode] using hmiss

theorem devAt_modify (nodes : List Node) (k : Nat) (dev : Option Nat) {node : Node}
    (hnode : nodes[k]? = some node) (j : Nat) :
    devAt (nodes.modify k (Node.setDev dev)) j = if j = k then dev else devAt nodes j := by
  unfold devAt
  rw [List.getElem?_modify]
  by_cases hj : j = k
  · subst hj
    simp [hnode, Node.setDev]
  · simp [hj, Ne.symm hj]

theorem activeAt_modify_dev (nodes : List Node) (k : Nat) (dev : Option Nat) (j : Nat) :
    activeAt (nodes.modify k (Node.setDev dev)) j = activeAt nodes j := by
  unfold activeAt
  rw [List.getElem?_modify]
  cases nodes[j]? with
  | none => rfl
  | some node =>
      by_cases hj : k = j
      · simp [hj, Node.setDev]
      · simp [hj]

theorem listDevice_spec (nodes : List Node) (d : Nat) :
    ∃ k, devAt nodes k = none ∧
      (∀ j, devAt (listDevice nodes d) j = if j = k then some d else devAt nodes j) ∧
      (∀ j, activeAt (listDevice nodes d) j = activeAt nodes j) ∧
      nodes.length ≤ (listDevice nodes d).length := by
  unfold listDevice
  cases hscan : scan (·.dev.isNone) nodes nodes.length with
  | some k =>
      obtain ⟨node, hnode, hnone⟩ := scan_some hscan
      have hdev : devAt nodes k = none := by
        unfold devAt
        rw [hnode]
        exact Option.isNone_iff_eq_none.mp hnone
      exact ⟨k, hdev, devAt_modify nodes k (some d) hnode, activeAt_modify_dev nodes k (some d),
        by simp⟩
  | none =>
      have hend : nodes[nodes.length]? = none := List.getElem?_eq_none (Nat.le_refl _)
      refine ⟨nodes.length, by simp [devAt], fun j => ?_, fun j => ?_, by simp⟩
      · unfold devAt
        by_cases hj : j = nodes.length
        · subst hj
          simp
        · rw [if_neg hj]
          rcases Nat.lt_or_gt_of_ne hj with hlt | hgt
          · rw [List.getElem?_append_left hlt]
          · rw [List.getElem?_eq_none (by simp; omega), List.getElem?_eq_none (by omega)]
      · unfold activeAt
        by_cases hj : j = nodes.length
        · subst hj
          simp
        · rcases Nat.lt_or_gt_of_ne hj with hlt | hgt
          · rw [List.getElem?_append_left hlt]
          · rw [List.getElem?_eq_none (by simp; omega), List.getElem?_eq_none (by omega)]

theorem findDevice_some {nodes : List Node} {d k : Nat} (h : findDevice nodes d = some k) :
    devAt nodes k = some d ∧
      (∀ j, devAt (tombstoneNode nodes (some k)) j = if j = k then none else devAt nodes j) ∧
      (∀ j, activeAt (tombstoneNode nodes (some k)) j = activeAt nodes j) ∧
      (tombstoneNode nodes (some k)).length = nodes.length := by
  obtain ⟨node, hnode, hdev⟩ := scan_some h
  refine ⟨?_, devAt_modify nodes k none hnode, activeAt_modify_dev nodes k none, ?_⟩
  · unfold devAt
    rw [hnode]
    simpa using hdev
  · exact List.length_modify _ _ _

theorem findDevice_none {nodes : List Node} {d : Nat} (h : findDevice nodes d = none) (k : Nat) :
    devAt nodes k ≠ some d := by
  intro hdev
  unfold devAt at hdev
  obtain ⟨node, hnode, hd⟩ := Option.bind_eq_some_iff.mp hdev
  have hk := (List.getElem?_eq_some_iff.mp hnode).1
  have hmiss := scan_none h hk hnode
  simp [hd] at hmiss

def lists (nodes : List Node) (d : Nat) : Bool := (findDevice nodes d).isSome

theorem lists_iff {nodes : List Node} {d : Nat} :
    lists nodes d = true ↔ ∃ k, devAt nodes k = some d := by
  unfold lists
  constructor
  · intro h
    obtain ⟨k, hk⟩ := Option.isSome_iff_exists.mp h
    exact ⟨k, (findDevice_some hk).1⟩
  · rintro ⟨k, hk⟩
    cases hfind : findDevice nodes d with
    | some _ => rfl
    | none => exact absurd hk (findDevice_none hfind k)

theorem lists_congr {nodes nodes' : List Node} {d : Nat}
    (h : ∀ k, devAt nodes' k = some d ↔ devAt nodes k = some d) :
    lists nodes' d = lists nodes d := by
  rw [Bool.eq_iff_iff, lists_iff, lists_iff]
  exact exists_congr h

end HostPimSim.Core.SigsegvList
