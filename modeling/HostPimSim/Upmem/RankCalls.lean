import HostPimSim.Lib.Transition
import Mathlib.Logic.Function.Basic

/-! The callbacks of a rank node called one after the other, where whatever an open needs may
fail: the user data, the devices by descriptor and the open descriptors. -/
namespace HostPimSim.Upmem.RankCalls
open Transition

inductive Errno where
  | einval
  | enomem
  | ebusy
  | enodev
  | emfile
  deriving DecidableEq

inductive Reply where
  | fd (fd : Nat)
  | failed (e : Errno)
  | used (rank : Nat)
  | done
  deriving DecidableEq

/-- Ranks are numbered in the order of `upmem_create_rank`; a device is named by its rank. -/
structure State where
  opened : Bool
  rank : Option Nat
  deviceByFd : Nat → Option Nat
  openFds : Nat → Bool
  created : Nat
  destroyed : List Nat

def init : State := ⟨false, none, fun _ => none, fun _ => false, 0, []⟩

/-- The calls, with what `pim_vfile_open`, `upmem_create_rank` and
`pim_vdev_register_device` do in an open; descriptors also come and go elsewhere. -/
inductive Call where
  | openCb (vfileOpen : Except Errno Nat) (createRank registerDevice : Bool)
  | ioctlCb (fd : Nat)
  | closeCb (fd : Nat)
  | kernelOpen (fd : Nat)
  | kernelClose (fd : Nat)

def State.withFd (s : State) (fd : Nat) (isOpen : Bool) : State :=
  { s with openFds := Function.update s.openFds fd isOpen }

def upmemDestroyRank (s : State) (rank : Nat) : State :=
  { s with destroyed := rank :: s.destroyed }

def vdevOpenCb (s : State) (vfileOpen : Except Errno Nat) (createRank registerDevice : Bool) :
    State × Reply :=
  if s.opened then (s, .failed .einval)
  else match vfileOpen with
    | .error e => (s, .failed e)
    | .ok fd =>
        let s := s.withFd fd true
        if !createRank then (s.withFd fd false, .failed .enomem)
        else
          let rank := s.created
          let s := { s with created := rank + 1, rank := some rank }
          if !registerDevice then ((upmemDestroyRank s rank).withFd fd false, .failed .ebusy)
          else
            ({ s with deviceByFd := Function.update s.deviceByFd fd (some rank), opened := true },
              .fd fd)

def rankIoctlCb (s : State) : State × Reply :=
  match s.rank with
  | none => (s, .failed .enodev)
  | some rank => (s, .used rank)

def vdevCloseCb (s : State) (fd : Nat) : State × Reply :=
  let closed :=
    if (s.deviceByFd fd).isSome then
      let s := match s.rank with
        | some rank => { upmemDestroyRank s rank with rank := none }
        | none => s
      { s with deviceByFd := Function.update s.deviceByFd fd none }
    else s
  ({ closed with opened := false }, .done)

def call (s : State) : Call → State × Reply
  | .openCb vfileOpen createRank registerDevice =>
      vdevOpenCb s vfileOpen createRank registerDevice
  | .ioctlCb _ => rankIoctlCb s
  | .closeCb fd => vdevCloseCb s fd
  | .kernelOpen fd => (s.withFd fd true, .done)
  | .kernelClose fd => (s.withFd fd false, .done)

def allowed (s : State) : Call → Bool
  | .openCb (.ok fd) _ _ | .kernelOpen fd => !s.openFds fd
  | _ => true

def step (s : State) (c : Call) : Option State :=
  if allowed s c then some (call s c).1 else none

/-- What there is to see of the user data, the devices and the open descriptors. -/
structure Same (s t : State) : Prop where
  opened : t.opened = s.opened
  rank : t.rank = s.rank
  deviceByFd : t.deviceByFd = s.deviceByFd
  openFds : t.openFds = s.openFds

/-- There is a rank if and only if the node is open, and it has not been destroyed. -/
structure Sound (s : State) : Prop where
  opened : s.rank.isSome = s.opened
  alive : ∀ rank, s.rank = some rank → rank ∉ s.destroyed

def isOpen : Call → Bool
  | .openCb _ _ _ => true
  | _ => false

/-- A failed open leaves no trace, and after the call the user data are sound. -/
structure LeavesNoTrace (s : State) (c : Call) : Prop where
  failed : isOpen c = true → ∀ e, (call s c).2 = .failed e → Same s (call s c).1
  sound : Sound (call s c).1

/-- An open that gets as far as the registration registers its rank, and a node that is open
is closed by the descriptor it is registered under. -/
def Spares (s : State) : Call → Prop
  | .openCb (.ok _) true false => s.opened = true
  | .closeCb fd => s.opened = true → (s.deviceByFd fd).isSome = true
  | _ => True

def Known (s : State) : Prop :=
  ∀ rank, s.rank = some rank ∨ rank ∈ s.destroyed → rank < s.created

structure Inv (s : State) : Prop extends Sound s where
  known : Known s

variable {s t : State}

theorem inv_init : Inv init := by
  refine ⟨⟨rfl, fun rank h => nomatch h⟩, ?_⟩
  rintro rank (h | h)
  · cases h
  · cases h

theorem Same.refl (s : State) : Same s s := ⟨rfl, rfl, rfl, rfl⟩

theorem update_back {openFds : Nat → Bool} {fd : Nat} (h : openFds fd = false) :
    Function.update (Function.update openFds fd true) fd false = openFds := by
  rw [Function.update_idem, ← h, Function.update_eq_self]

theorem openCb_opened (h : s.opened = true) (vfileOpen : Except Errno Nat)
    (createRank registerDevice : Bool) :
    call s (.openCb vfileOpen createRank registerDevice) = (s, .failed .einval) :=
  if_pos h

section
variable {fd : Nat} (h : s.opened = false)
include h

theorem openCb_vfileFails (e : Errno) (createRank registerDevice : Bool) :
    call s (.openCb (.error e) createRank registerDevice) = (s, .failed e) :=
  if_neg (by simp [h])

theorem openCb_createFails (hfd : s.openFds fd = false) (registerDevice : Bool) :
    call s (.openCb (.ok fd) false registerDevice) = (s, .failed .enomem) := by
  have hcall : call s (.openCb (.ok fd) false registerDevice) =
      ((s.withFd fd true).withFd fd false, .failed .enomem) := if_neg (by simp [h])
  rw [hcall]
  unfold State.withFd
  rw [update_back hfd]

theorem openCb_registerFails (hfd : s.openFds fd = false) :
    call s (.openCb (.ok fd) true false) =
      ({ s with
        rank := some s.created, created := s.created + 1, destroyed := s.created :: s.destroyed },
        .failed .ebusy) := by
  have hcall : call s (.openCb (.ok fd) true false) =
      ((upmemDestroyRank { s.withFd fd true with created := s.created + 1, rank := some s.created }
        s.created).withFd fd false, .failed .ebusy) := if_neg (by simp [h])
  rw [hcall]
  unfold upmemDestroyRank State.withFd
  rw [update_back hfd]

theorem openCb_succeeds :
    call s (.openCb (.ok fd) true true) =
      ({ s.withFd fd true with
        rank := some s.created, created := s.created + 1, opened := true,
        deviceByFd := Function.update s.deviceByFd fd (some s.created) }, .fd fd) :=
  if_neg (by simp [h])

end

theorem leavesNoTrace_of_same {c : Call} {r : Reply} (h : Inv s) (hcall : call s c = (s, r)) :
    LeavesNoTrace s c := by
  constructor
  · intro _ _ _
    rw [hcall]
    exact .refl s
  · rw [hcall]
    exact h.toSound

theorem openCb_spares_iff (h : Inv s) {vfileOpen : Except Errno Nat}
    {createRank registerDevice : Bool}
    (hallowed : allowed s (.openCb vfileOpen createRank registerDevice) = true) :
    LeavesNoTrace s (.openCb vfileOpen createRank registerDevice) ↔
      Spares s (.openCb vfileOpen createRank registerDevice) := by
  cases hopened : s.opened with
  | true =>
      refine ⟨fun _ => ?_, fun _ => leavesNoTrace_of_same h (openCb_opened hopened ..)⟩
      unfold Spares
      split
      · exact hopened
      · trivial
      · trivial
  | false =>
      cases vfileOpen with
      | error e =>
          exact ⟨fun _ => trivial,
            fun _ => leavesNoTrace_of_same h (openCb_vfileFails hopened ..)⟩
      | ok fd =>
          have hfd : s.openFds fd = false := by simpa [allowed] using hallowed
          cases createRank with
          | false =>
              exact ⟨fun _ => trivial,
                fun _ => leavesNoTrace_of_same h (openCb_createFails hopened hfd _)⟩
          | true =>
              cases registerDevice with
              | false =>
                  have hcall := openCb_registerFails hopened hfd
                  constructor
                  · intro hnone
                    have halive := hnone.sound.alive s.created (by rw [hcall])
                    rw [hcall] at halive
                    exact absurd List.mem_cons_self halive
                  · intro hspares
                    cases hopened.symm.trans hspares
              | true =>
                  have hcall := @openCb_succeeds s fd hopened
                  refine ⟨fun _ => trivial, fun _ => ⟨fun _ e hfailed => ?_, ?_⟩⟩
                  · rw [hcall] at hfailed
                    cases hfailed
                  · rw [hcall]
                    refine ⟨rfl, ?_⟩
                    rintro rank ⟨⟩ hdestroyed
                    exact absurd (h.known _ (.inr hdestroyed)) (Nat.lt_irrefl _)

theorem closeCb_registered {fd : Nat} (h : (s.deviceByFd fd).isSome = true) :
    call s (.closeCb fd) =
      ({ s with
        opened := false, rank := none, destroyed := s.rank.toList ++ s.destroyed,
        deviceByFd := Function.update s.deviceByFd fd none }, .done) := by
  unfold call vdevCloseCb
  dsimp only
  rw [if_pos h]
  cases hrank : s.rank with
  | none =>
      dsimp only
      rw [hrank]
      rfl
  | some rank => rfl

theorem closeCb_unregistered {fd : Nat} (h : (s.deviceByFd fd).isSome = false) :
    call s (.closeCb fd) = ({ s with opened := false }, .done) := by
  unfold call vdevCloseCb
  dsimp only
  rw [if_neg (by simp [h])]

theorem closeCb_spares_iff (h : Inv s) (fd : Nat) :
    LeavesNoTrace s (.closeCb fd) ↔ Spares s (.closeCb fd) := by
  cases hdevice : (s.deviceByFd fd).isSome with
  | true =>
      refine ⟨fun _ _ => hdevice, fun _ => ⟨fun hopen => absurd hopen Bool.false_ne_true, ?_⟩⟩
      rw [closeCb_registered hdevice]
      exact ⟨rfl, fun rank hrank => nomatch hrank⟩
  | false =>
      have hcall := closeCb_unregistered hdevice
      constructor
      · intro hnone hopened
        have hsome := hnone.sound.opened
        rw [hcall] at hsome
        have hrank : s.rank.isSome = true := h.opened.trans hopened
        cases hrank.symm.trans hsome
      · intro hspares
        refine ⟨fun hopen => absurd hopen Bool.false_ne_true, ?_⟩
        have hclosed : s.opened = false := by
          cases hopened : s.opened with
          | false => rfl
          | true => exact absurd (hspares hopened) (by simp [hdevice])
        rw [hcall]
        exact ⟨h.opened.trans hclosed, h.alive⟩

theorem spares_iff (h : Inv s) {c : Call} (hallowed : allowed s c = true) :
    LeavesNoTrace s c ↔ Spares s c := by
  cases c with
  | openCb vfileOpen createRank registerDevice => exact openCb_spares_iff h hallowed
  | closeCb fd => exact closeCb_spares_iff h fd
  | ioctlCb fd =>
      refine ⟨fun _ => trivial, fun _ => ?_⟩
      cases hrank : s.rank with
      | none =>
          refine leavesNoTrace_of_same (r := .failed .enodev) h ?_
          unfold call rankIoctlCb
          rw [hrank]
      | some rank =>
          refine leavesNoTrace_of_same (r := .used rank) h ?_
          unfold call rankIoctlCb
          rw [hrank]
  | kernelOpen fd => exact ⟨fun _ => trivial, fun _ =>
      ⟨fun hopen => absurd hopen Bool.false_ne_true, h.opened, h.alive⟩⟩
  | kernelClose fd => exact ⟨fun _ => trivial, fun _ =>
      ⟨fun hopen => absurd hopen Bool.false_ne_true, h.opened, h.alive⟩⟩

theorem openCb_known (h : Known s) {vfileOpen : Except Errno Nat} {createRank registerDevice : Bool}
    (hallowed : allowed s (.openCb vfileOpen createRank registerDevice) = true) :
    Known (call s (.openCb vfileOpen createRank registerDevice)).1 := by
  cases hopened : s.opened with
  | true =>
      rw [openCb_opened hopened]
      exact h
  | false =>
      cases vfileOpen with
      | error e =>
          rw [openCb_vfileFails hopened]
          exact h
      | ok fd =>
          have hfd : s.openFds fd = false := by simpa [allowed] using hallowed
          cases createRank with
          | false =>
              rw [openCb_createFails hopened hfd]
              exact h
          | true =>
              have hold : ∀ rank ∈ s.destroyed, rank < s.created + 1 :=
                fun rank hrank => Nat.lt_succ_of_lt (h rank (.inr hrank))
              cases registerDevice with
              | false =>
                  rw [openCb_registerFails hopened hfd]
                  rintro rank (hrank | hdestroyed)
                  · obtain rfl := Option.some.inj hrank
                    exact Nat.lt_succ_self _
                  · rcases List.mem_cons.mp hdestroyed with rfl | hdestroyed
                    · exact Nat.lt_succ_self _
                    · exact hold rank hdestroyed
              | true =>
                  rw [openCb_succeeds hopened]
                  rintro rank (hrank | hdestroyed)
                  · obtain rfl := Option.some.inj hrank
                    exact Nat.lt_succ_self _
                  · exact hold rank hdestroyed

theorem closeCb_known (h : Known s) (fd : Nat) : Known (call s (.closeCb fd)).1 := by
  cases hdevice : (s.deviceByFd fd).isSome with
  | true =>
      rw [closeCb_registered hdevice]
      rintro rank (hrank | hdestroyed)
      · cases hrank
      · rcases List.mem_append.mp hdestroyed with hrank | hdestroyed
        · exact h rank (.inl (Option.mem_toList.mp hrank))
        · exact h rank (.inr hdestroyed)
  | false =>
      rw [closeCb_unregistered hdevice]
      exact h

theorem call_known (h : Known s) {c : Call} (hallowed : allowed s c = true) :
    Known (call s c).1 := by
  cases c with
  | openCb vfileOpen createRank registerDevice => exact openCb_known h hallowed
  | closeCb fd => exact closeCb_known h fd
  | ioctlCb fd =>
      unfold call rankIoctlCb
      dsimp only
      split <;> exact h
  | kernelOpen fd => exact h
  | kernelClose fd => exact h

theorem step_some {c : Call} (h : step s c = some t) : allowed s c = true ∧ (call s c).1 = t := by
  unfold step at h
  split at h
  · rename_i hallowed
    exact ⟨hallowed, Option.some.inj h⟩
  · cases h

theorem step_inv {c : Call} (h : Inv s) (hspares : Spares s c) (hstep : step s c = some t) :
    Inv t := by
  obtain ⟨hallowed, rfl⟩ := step_some hstep
  exact ⟨((spares_iff h hallowed).mpr hspares).sound, call_known h.known hallowed⟩

/-- Over a run, failed opens leave no trace and the user data stay sound if and only if no
registration fails in an open and no node that is open is closed by another descriptor. -/
theorem failed_open_leaves_no_trace_iff (calls : List Call) (s : State)
    (hrun : run step init calls = some s) :
    Transition.Meets step LeavesNoTrace init calls ↔ Transition.Meets step Spares init calls := by
  refine (meets_iff Inv ?_ ?_ inv_init hrun).symm
  · intro u c v h hstep
    exact (spares_iff h (step_some hstep).1).symm
  · intro u c v h hspares hstep
    exact step_inv h hspares hstep

instance (s : State) : (c : Call) → Decidable (Spares s c)
  | .openCb (.ok _) true false => inferInstanceAs (Decidable (s.opened = true))
  | .closeCb fd => inferInstanceAs (Decidable (s.opened = true → (s.deviceByFd fd).isSome = true))
  | .openCb (.error _) _ _ | .openCb (.ok _) false _ | .openCb (.ok _) true true | .ioctlCb _
  | .kernelOpen _ | .kernelClose _ => .isTrue trivial

/-- Two sessions, with an open that is refused and two that fail in between. -/
def twoSessions : List Call :=
  [.openCb (.ok 3) true true, .openCb (.ok 4) true true, .ioctlCb 3, .kernelClose 3, .closeCb 3,
    .openCb (.error .emfile) true true, .openCb (.ok 3) false true, .openCb (.ok 3) true true,
    .ioctlCb 3]

theorem failed_open_leaves_no_trace_twoSessions :
    Transition.Meets step LeavesNoTrace init twoSessions := by
  have hruns : ∃ s, run step init twoSessions = some s :=
    Option.isSome_iff_exists.mp (by decide +kernel)
  obtain ⟨s, hrun⟩ := hruns
  exact (failed_open_leaves_no_trace_iff twoSessions s hrun).mpr (by decide +kernel)

/-- The rank of an open that fails at the registration is destroyed, its pointer is not
reset, and the next ioctl uses it. -/
theorem failed_open_leaves_rank :
    ∃ s, run step init [.openCb (.ok 3) true false] = some s ∧ s.opened = false ∧
      s.rank = some 0 ∧ s.destroyed = [0] ∧ (call s (.ioctlCb 3)).2 = .used 0 ∧
      ¬LeavesNoTrace init (.openCb (.ok 3) true false) := by
  refine ⟨_, rfl, rfl, rfl, rfl, rfl, fun h => ?_⟩
  cases (h.failed rfl .ebusy rfl).rank

end HostPimSim.Upmem.RankCalls
