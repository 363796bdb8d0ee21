import HostPimSim.Lib.Threads
import HostPimSim.Lib.Transition
import Mathlib.Algebra.GroupWithZero.Nat

/-! The callbacks of a vdev, `vdev_open_cb`, `rank_ioctl_cb` and `vdev_close_cb`, on the
user data they share.  Every read and every write of it is a step: `pim_vdev_lock` counts
references and keeps nobody out.  A rank is named by the session whose open made it. -/
namespace HostPimSim.Upmem.RankDevice
open Threads Transition

/-- `upmem_vdev_user_data::fd_type` -/
inductive FdType where
  | rank
  | dax
  deriving DecidableEq

/-- Where `vdev_close_cb` is. -/
inductive ClosePc where
  | entered
  | locked
  | found
  | ranked
  | destroying (rank : Option Nat)
  | destroyed
  | cleared
  | latching
  | unlocking
  | returned
  deriving DecidableEq

/-- Where a session is, from the call of `vdev_open_cb` to the return of `vdev_close_cb`. -/
inductive Pc where
  | entered
  | locked
  | checked
  | fdOpened (fd : Nat)
  | created (fd : Nat)
  | stored (fd : Nat)
  | refused (fd : Nat)
  | latching (fd : Nat)
  | unlocking (fd : Nat)
  | opened (fd : Nat)
  | closing (fd : Nat) (pc : ClosePc)
  | unwinding (fd : Nat)
  | failing
  | failed
  deriving DecidableEq

/-- Where `rank_ioctl_cb` is; `inUse` is the call of one of the `upmem_ioctl` functions. -/
inductive IoctlPc where
  | entered
  | locked
  | checked
  | inUse (rank : Option Nat)
  | unlocking
  | returned
  deriving DecidableEq

structure Ioctl where
  session : Nat
  pc : IoctlPc
  deriving DecidableEq

/-- A call of `upmem_destroy_rank`, with the session whose callback makes it. -/
structure Destroy where
  rank : Nat
  session : Nat
  deriving DecidableEq

/-- `refcount` is that of `g_vdev_acquire_map`, and `destroys` only records. -/
structure State where
  opened : Bool
  rank : Option Nat
  deviceByFd : Nat → Option Nat
  refcount : Nat
  sessions : List Pc
  ioctls : List Ioctl
  destroys : List Destroy

def init : State := ⟨false, none, fun _ => none, 0, [], [], []⟩

def pimVdevLock (refcount : Nat) : Nat :=
  if refcount = 2 ^ 64 - 1 then refcount else refcount + 1

def pimVdevUnlock (refcount : Nat) : Nat := refcount - 1

/-- The descriptor that the session holds in the kernel; `close` gives it back before the
callback. -/
def Pc.fd : Pc → Option Nat
  | .fdOpened fd | .created fd | .stored fd | .refused fd | .latching fd | .unlocking fd
  | .opened fd | .unwinding fd => some fd
  | _ => none

/-- `device_by_fd[fd]` of the vdev -/
def State.setDevice (s : State) (fd : Nat) (device : Option Nat) : Nat → Option Nat :=
  fun k => if k = fd then device else s.deviceByFd k

def vdevCloseCb (s : State) (index fd : Nat) (pc : ClosePc) : Option State :=
  let move (pc : ClosePc) := s.sessions.set index (.closing fd pc)
  match pc with
  | .entered => some { s with refcount := pimVdevLock s.refcount, sessions := move .locked }
  | .locked =>
      some { s with sessions := move (if (s.deviceByFd fd).isSome then .found else .latching) }
  | .found => some { s with sessions := move (if s.rank.isSome then .ranked else .cleared) }
  | .ranked => some { s with sessions := move (.destroying s.rank) }
  | .destroying rank =>
      some { s with
        destroys := s.destroys ++ (rank.map fun r => ⟨r, index⟩).toList
        sessions := move .destroyed }
  | .destroyed => some { s with rank := none, sessions := move .cleared }
  | .cleared =>
      some { s with deviceByFd := s.setDevice fd none, sessions := move .latching }
  | .latching => some { s with opened := false, sessions := move .unlocking }
  | .unlocking =>
      some { s with refcount := pimVdevUnlock s.refcount, sessions := move .returned }
  | .returned => none

/-- The next step of the session.  `ok` is whether `pim_vfile_open`, `upmem_create_rank` or
`pim_vdev_register_device` succeeds, `fresh` the descriptor that the first of them finds. -/
def vdevOpenCb (type : FdType) (s : State) (index : Nat) (ok : Bool) (fresh : Nat)
    (pc : Pc) : Option State :=
  let move (pc : Pc) := s.sessions.set index pc
  match pc with
  | .entered => some { s with refcount := pimVdevLock s.refcount, sessions := move .locked }
  | .locked => some { s with sessions := move (if s.opened then .failing else .checked) }
  | .checked =>
      if !ok then some { s with sessions := move .failing }
      else if some fresh ∈ s.sessions.map Pc.fd then none
      else some { s with sessions := move (.fdOpened fresh) }
  | .fdOpened fd =>
      match type with
      | .dax => some { s with sessions := move (.latching fd) }
      | .rank => some { s with sessions := move (if ok then .created fd else .unwinding fd) }
  | .created fd => some { s with rank := some index, sessions := move (.stored fd) }
  | .stored fd =>
      if ok then
        some { s with
          deviceByFd := s.setDevice fd (some index)
          sessions := move (.latching fd) }
      else some { s with sessions := move (.refused fd) }
  | .refused fd =>
      some { s with
        destroys := s.destroys ++ [⟨index, index⟩]
        sessions := move (.unwinding fd) }
  | .latching fd => some { s with opened := true, sessions := move (.unlocking fd) }
  | .unlocking fd =>
      some { s with refcount := pimVdevUnlock s.refcount, sessions := move (.opened fd) }
  | .unwinding _ => some { s with sessions := move .failing }
  | .failing =>
      some { s with refcount := pimVdevUnlock s.refcount, sessions := move .failed }
  | .closing fd pc => vdevCloseCb s index fd pc
  | .opened _ | .failed => none

def rankIoctlCb (s : State) (index : Nat) (call : Ioctl) : Option State :=
  let move (pc : IoctlPc) := s.ioctls.set index { call with pc := pc }
  match call.pc with
  | .entered => some { s with refcount := pimVdevLock s.refcount, ioctls := move .locked }
  | .locked => some { s with ioctls := move (if s.rank.isSome then .checked else .unlocking) }
  | .checked => some { s with ioctls := move (.inUse s.rank) }
  | .inUse _ => some { s with ioctls := move .unlocking }
  | .unlocking =>
      some { s with refcount := pimVdevUnlock s.refcount, ioctls := move .returned }
  | .returned => none

inductive Action where
  | openCb
  | ioctlCb (session : Nat)
  | closeCb (session : Nat)
  | session (index : Nat) (ok : Bool) (fresh : Nat)
  | ioctl (index : Nat)
  deriving DecidableEq

/-- A descriptor is used and closed after its open has returned it, and closed once, with no
`ioctl` on it under way or to come. -/
def step (type : FdType) (s : State) : Action → Option State
  | .openCb => some { s with sessions := s.sessions ++ [.entered] }
  | .ioctlCb session =>
      match s.sessions[session]? with
      | some (.opened _) => some { s with ioctls := s.ioctls ++ [⟨session, .entered⟩] }
      | _ => none
  | .closeCb session =>
      match s.sessions[session]? with
      | some (.opened fd) =>
          if ∀ call ∈ s.ioctls, call.session = session → call.pc = .returned then
            some { s with sessions := s.sessions.set session (.closing fd .entered) }
          else none
      | _ => none
  | .session index ok fresh =>
      (s.sessions[index]?).bind (vdevOpenCb type s index ok fresh)
  | .ioctl index => (s.ioctls[index]?).bind (rankIoctlCb s index)

/-- From the store of `opened` to the store that takes it back. -/
def inSession : Pc → Bool
  | .unlocking _ | .opened _ => true
  | .closing _ .unlocking | .closing _ .returned => false
  | .closing _ _ => true
  | _ => false

def State.destroysOf (s : State) (rank : Nat) : List Destroy :=
  s.destroys.filter fun destroy => destroy.rank = rank

/-- One session at a time; its rank is there until its own close destroys it, which it does
once; and no ioctl uses a rank that is not there. -/
structure OpensOnce (s : State) : Prop where
  one : ∀ (i j : Nat) p q, s.sessions[i]? = some p → s.sessions[j]? = some q →
    inSession p = true → inSession q = true → i = j
  kept : ∀ (i : Nat) fd, s.sessions[i]? = some (.opened fd) → s.destroysOf i = []
  destroyed : ∀ (i : Nat) fd, s.sessions[i]? = some (.closing fd .returned) →
    s.destroysOf i = [⟨i, i⟩]
  used : ∀ call ∈ s.ioctls, ∀ rank, call.pc = .inUse rank →
    ∃ r, rank = some r ∧ s.destroysOf r = []

/-- An open has stored its rank and has not stored `opened`, nor destroyed the rank again. -/
def midway : Pc → Bool
  | .stored _ | .refused _ | .latching _ => true
  | _ => false

/-- An open stores its rank with nobody else's in place. -/
def StoresAlone (s : State) : Action → Prop
  | .session index _ _ =>
      match s.sessions[index]? with
      | some (.created _) => s.opened = false ∧ ∀ pc ∈ s.sessions, midway pc = false
      | _ => True
  | _ => True

def occupies (pc : Pc) : Bool := midway pc || inSession pc

def SessionFacts (s : State) (i : Nat) : Pc → Prop
  | .entered | .locked | .checked | .fdOpened _ | .created _ => s.destroysOf i = []
  | .stored _ | .refused _ => s.rank = some i ∧ s.opened = false ∧ s.destroysOf i = []
  | .latching fd =>
      s.rank = some i ∧ s.opened = false ∧ s.destroysOf i = [] ∧ s.deviceByFd fd = some i
  | .unlocking fd | .opened fd | .closing fd .entered | .closing fd .locked | .closing fd .found
  | .closing fd .ranked =>
      s.rank = some i ∧ s.opened = true ∧ s.destroysOf i = [] ∧ s.deviceByFd fd = some i
  | .closing _ (.destroying rank) => rank = some i ∧ s.opened = true ∧ s.destroysOf i = []
  | .closing _ .destroyed | .closing _ .cleared | .closing _ .latching =>
      s.opened = true ∧ s.destroysOf i = [⟨i, i⟩]
  | .closing _ .unlocking | .closing _ .returned => s.destroysOf i = [⟨i, i⟩]
  | .unwinding _ | .failing | .failed => True

structure Exclusive (s : State) : Prop where
  sessions : ∀ (i : Nat) pc, s.sessions[i]? = some pc → SessionFacts s i pc
  one : ∀ (i j : Nat) p q, s.sessions[i]? = some p → s.sessions[j]? = some q →
    occupies p = true → occupies q = true → i = j
  ioctls : ∀ call ∈ s.ioctls, call.pc ≠ .returned →
    (∃ fd, s.sessions[call.session]? = some (.opened fd)) ∧
      ∀ rank, call.pc = .inUse rank → rank = some call.session
  known : ∀ destroy ∈ s.destroys, destroy.rank < s.sessions.length

theorem exclusive_init : Exclusive init where
  sessions := by simp [init]
  one := by simp [init]
  ioctls := by simp [init]
  known := by simp [init]

theorem SessionFacts.of_same {s t : State} {i : Nat} {pc : Pc} (h : SessionFacts s i pc)
    (hopened : t.opened = s.opened) (hrank : t.rank = s.rank)
    (hdevice : t.deviceByFd = s.deviceByFd) (hdestroys : t.destroysOf i = s.destroysOf i) :
    SessionFacts t i pc := by
  unfold SessionFacts at h ⊢
  rw [hopened, hrank, hdevice, hdestroys]
  exact h

theorem SessionFacts.of_idle {s t : State} {i : Nat} {pc : Pc} (h : SessionFacts s i pc)
    (hidle : occupies pc = false) (hdestroys : t.destroysOf i = s.destroysOf i) :
    SessionFacts t i pc := by
  cases pc with
  | stored fd | refused fd | latching fd | unlocking fd | opened fd => cases hidle
  | closing fd pc =>
      cases pc with
      | unlocking | returned =>
          unfold SessionFacts at h ⊢
          rw [hdestroys]
          exact h
      | _ => cases hidle
  | _ =>
      unfold SessionFacts at h ⊢
      try rw [hdestroys]
      exact h

theorem OpensOnce.of_exclusive {s : State} (h : Exclusive s) : OpensOnce s where
  one := fun i j p q hp hq hinp hinq => h.one i j p q hp hq
    (by simp [occupies, hinp]) (by simp [occupies, hinq])
  kept := fun i fd hget => (h.sessions i _ hget).2.2.1
  destroyed := fun i fd hget => h.sessions i _ hget
  used := by
    intro call hmem rank hpc
    obtain ⟨⟨fd, hget⟩, hrank⟩ := h.ioctls call hmem (by rw [hpc]; simp)
    exact ⟨call.session, hrank rank hpc, (h.sessions _ _ hget).2.2.1⟩

theorem Exclusive.alone {s : State} {index : Nat} {pc : Pc} (h : Exclusive s)
    (hget : s.sessions[index]? = some pc) (hoccupies : occupies pc = true) :
    ∀ (j : Nat) q, j ≠ index → s.sessions[j]? = some q → occupies q = false := by
  intro j q hne hq
  by_contra hin
  exact hne (h.one j index q pc hq hget (by simpa using hin) hoccupies)

section
variable {s t : State} {index : Nat} {pc moved : Pc} (h : Exclusive s)
  (hget : s.sessions[index]? = some pc) (hsessions : t.sessions = s.sessions.set index moved)
include h hget hsessions

theorem Exclusive.of_move (hshut : ∀ fd, pc = .opened fd →
      ∀ call ∈ s.ioctls, call.session = index → call.pc = .returned)
    (hioctls : t.ioctls = s.ioctls) (hfacts : SessionFacts t index moved)
    (hothers : ∀ (j : Nat) q, j ≠ index → s.sessions[j]? = some q → SessionFacts t j q)
    (halone : occupies moved = true → ∀ (j : Nat) q, j ≠ index → s.sessions[j]? = some q →
      occupies q = false)
    (hknown : ∀ destroy ∈ t.destroys, destroy.rank < s.sessions.length) : Exclusive t := by
  have hsplit (j : Nat) (q : Pc) (hq : t.sessions[j]? = some q) :
      (j = index ∧ q = moved) ∨ (j ≠ index ∧ s.sessions[j]? = some q) := by
    rw [hsessions] at hq
    exact getElem?_set_some hq
  refine ⟨?_, ?_, ?_, ?_⟩
  · intro j q hq
    rcases hsplit j q hq with ⟨rfl, rfl⟩ | ⟨hne, hold⟩
    · exact hfacts
    · exact hothers j q hne hold
  · intro i j p q hp hq hinp hinq
    rcases hsplit i p hp with ⟨rfl, rfl⟩ | ⟨hi, hpold⟩
    · rcases hsplit j q hq with ⟨rfl, -⟩ | ⟨hj, hqold⟩
      · rfl
      · rw [halone hinp j q hj hqold] at hinq
        cases hinq
    · rcases hsplit j q hq with ⟨rfl, rfl⟩ | ⟨hj, hqold⟩
      · rw [halone hinq i p hi hpold] at hinp
        cases hinp
      · exact h.one i j p q hpold hqold hinp hinq
  · rw [hioctls]
    intro call hmem hpc
    obtain ⟨⟨fd, hopen⟩, hrank⟩ := h.ioctls call hmem hpc
    refine ⟨⟨fd, ?_⟩, hrank⟩
    have hne : call.session ≠ index := by
      intro heq
      rw [heq, hget] at hopen
      exact hpc (hshut fd (Option.some.inj hopen) call hmem heq)
    rw [hsessions, List.getElem?_set_ne (Ne.symm hne)]
    exact hopen
  · rw [hsessions, List.length_set]
    exact hknown

theorem exclusive_quiet (hnot : ∀ fd, pc ≠ .opened fd)
    (hsame : t.opened = s.opened ∧ t.rank = s.rank ∧ t.deviceByFd = s.deviceByFd ∧
      t.destroys = s.destroys ∧ t.ioctls = s.ioctls)
    (hoccupies : occupies moved = true → occupies pc = true)
    (hfacts : SessionFacts s index moved) : Exclusive t := by
  obtain ⟨hopened, hrank, hdevice, hdestroys, hioctls⟩ := hsame
  have hdestroysOf (j : Nat) : t.destroysOf j = s.destroysOf j := by
    rw [State.destroysOf, hdestroys]
    rfl
  refine h.of_move hget hsessions (fun fd hopen => absurd hopen (hnot fd)) hioctls
    (hfacts.of_same hopened hrank hdevice (hdestroysOf _)) ?_ ?_ (hdestroys ▸ h.known)
  · intro j q _ hq
    exact (h.sessions j q hq).of_same hopened hrank hdevice (hdestroysOf j)
  · intro hmoved
    exact h.alone hget (hoccupies hmoved)

theorem exclusive_owner (hnot : ∀ fd, pc ≠ .opened fd) (hioctls : t.ioctls = s.ioctls)
    (halone : ∀ (j : Nat) q, j ≠ index → s.sessions[j]? = some q → occupies q = false)
    (hdestroys : t.destroys = s.destroys ∨ t.destroys = s.destroys ++ [⟨index, index⟩])
    (hfacts : SessionFacts t index moved) : Exclusive t := by
  have hdestroysOf (j : Nat) (hne : j ≠ index) : t.destroysOf j = s.destroysOf j := by
    unfold State.destroysOf
    rcases hdestroys with hsame | hmore
    · rw [hsame]
    · rw [hmore, List.filter_append]
      simp [Ne.symm hne]
  refine h.of_move hget hsessions (fun fd hopen => absurd hopen (hnot fd)) hioctls hfacts ?_
    (fun _ => halone) ?_
  · intro j q hne hq
    exact (h.sessions j q hq).of_idle (halone j q hne hq) (hdestroysOf j hne)
  · rcases hdestroys with hsame | hmore
    · rw [hsame]
      exact h.known
    · rw [hmore]
      intro destroy hmem
      rcases List.mem_append.mp hmem with hold | hnew
      · exact h.known destroy hold
      · rw [List.mem_singleton.mp hnew]
        exact (List.getElem?_eq_some_iff.mp hget).1

end

theorem destroysOf_append {s : State} {index : Nat} (hnone : s.destroysOf index = []) :
    { s with destroys := s.destroys ++ [(⟨index, index⟩ : Destroy)] }.destroysOf index =
      [⟨index, index⟩] := by
  unfold State.destroysOf at hnone ⊢
  rw [List.filter_append, hnone]
  simp

theorem exclusive_close {s t : State} {index fd : Nat} {pc : ClosePc} (h : Exclusive s)
    (hget : s.sessions[index]? = some (.closing fd pc))
    (hstep : vdevCloseCb s index fd pc = some t) : Exclusive t := by
  have hfacts := h.sessions index _ hget
  have hnot : ∀ k, Pc.closing fd pc ≠ .opened k := fun _ => Pc.noConfusion
  cases pc with
  | entered =>
      cases hstep
      exact exclusive_quiet h hget rfl hnot ⟨rfl, rfl, rfl, rfl, rfl⟩ (fun _ => rfl) hfacts
  | locked =>
      cases hstep
      have hdevice : (s.deviceByFd fd).isSome = true := by rw [hfacts.2.2.2]; rfl
      simp only [hdevice, if_true]
      exact exclusive_quiet h hget rfl hnot ⟨rfl, rfl, rfl, rfl, rfl⟩ (fun _ => rfl) hfacts
  | found =>
      cases hstep
      have hrank : s.rank.isSome = true := by rw [hfacts.1]; rfl
      simp only [hrank, if_true]
      exact exclusive_quiet h hget rfl hnot ⟨rfl, rfl, rfl, rfl, rfl⟩ (fun _ => rfl) hfacts
  | ranked =>
      cases hstep
      exact exclusive_quiet h hget rfl hnot ⟨rfl, rfl, rfl, rfl, rfl⟩ (fun _ => rfl)
        ⟨hfacts.1, hfacts.2.1, hfacts.2.2.1⟩
  | destroying rank =>
      cases hstep
      obtain ⟨rfl, hopened, hnone⟩ := hfacts
      exact exclusive_owner h hget rfl hnot rfl (h.alone hget rfl) (.inr rfl)
        ⟨hopened, destroysOf_append hnone⟩
  | destroyed =>
      cases hstep
      exact exclusive_owner h hget rfl hnot rfl (h.alone hget rfl) (.inl rfl) hfacts
  | cleared =>
      cases hstep
      exact exclusive_owner h hget rfl hnot rfl (h.alone hget rfl) (.inl rfl) hfacts
  | latching =>
      cases hstep
      exact exclusive_owner h hget rfl hnot rfl (h.alone hget rfl) (.inl rfl) hfacts.2
  | unlocking =>
      cases hstep
      exact exclusive_quiet h hget rfl hnot ⟨rfl, rfl, rfl, rfl, rfl⟩ (fun hin => hin) hfacts
  | returned => cases hstep

theorem Exclusive.idle_of_alone {s : State} (h : Exclusive s) (hopened : s.opened = false)
    (hmidway : ∀ pc ∈ s.sessions, midway pc = false) {j : Nat} {q : Pc}
    (hq : s.sessions[j]? = some q) : occupies q = false := by
  have hmid := hmidway q (List.mem_of_getElem? hq)
  have hfacts := h.sessions j q hq
  cases q with
  | stored fd | refused fd | latching fd => cases hmid
  | unlocking fd | opened fd =>
      have hset := hfacts.2.1
      rw [hopened] at hset
      cases hset
  | closing fd pc =>
      cases pc with
      | unlocking | returned => rfl
      | destroyed | cleared | latching =>
          have hset := hfacts.1
          rw [hopened] at hset
          cases hset
      | _ =>
          have hset := hfacts.2.1
          rw [hopened] at hset
          cases hset
  | _ => rfl

theorem exclusive_session {s t : State} {index fresh : Nat} {ok : Bool} {pc : Pc}
    (h : Exclusive s) (hget : s.sessions[index]? = some pc)
    (halone : ∀ fd, s.sessions[index]? = some (.created fd) →
      s.opened = false ∧ ∀ pc ∈ s.sessions, midway pc = false)
    (hstep : vdevOpenCb .rank s index ok fresh pc = some t) : Exclusive t := by
  have hfacts := h.sessions index _ hget
  cases pc with
  | entered =>
      cases hstep
      exact exclusive_quiet h hget rfl (fun _ => Pc.noConfusion) ⟨rfl, rfl, rfl, rfl, rfl⟩
        (fun hin => hin) hfacts
  | locked =>
      cases hstep
      refine exclusive_quiet h hget rfl (fun _ => Pc.noConfusion) ⟨rfl, rfl, rfl, rfl, rfl⟩ ?_ ?_
      · intro hin
        split at hin <;> cases hin
      · split
        · trivial
        · exact hfacts
  | checked =>
      dsimp only [vdevOpenCb] at hstep
      split at hstep
      · cases hstep
        exact exclusive_quiet h hget rfl (fun _ => Pc.noConfusion) ⟨rfl, rfl, rfl, rfl, rfl⟩
          (fun hin => hin) trivial
      · split at hstep <;> cases hstep
        exact exclusive_quiet h hget rfl (fun _ => Pc.noConfusion) ⟨rfl, rfl, rfl, rfl, rfl⟩
          (fun hin => hin) hfacts
  | fdOpened fd =>
      cases hstep
      refine exclusive_quiet h hget rfl (fun _ => Pc.noConfusion) ⟨rfl, rfl, rfl, rfl, rfl⟩ ?_ ?_
      · intro hin
        cases ok <;> cases hin
      · cases ok
        · trivial
        · exact hfacts
  | created fd =>
      cases hstep
      obtain ⟨hopened, hmidway⟩ := halone fd hget
      exact exclusive_owner h hget rfl (fun _ => Pc.noConfusion) rfl
        (fun j q _ hq => h.idle_of_alone hopened hmidway hq) (.inl rfl) ⟨rfl, hopened, hfacts⟩
  | stored fd =>
      obtain ⟨hrank, hopened, hnone⟩ := hfacts
      dsimp only [vdevOpenCb] at hstep
      split at hstep <;> cases hstep
      · exact exclusive_owner h hget rfl (fun _ => Pc.noConfusion) rfl (h.alone hget rfl)
          (.inl rfl) ⟨hrank, hopened, hnone, if_pos rfl⟩
      · exact exclusive_quiet h hget rfl (fun _ => Pc.noConfusion) ⟨rfl, rfl, rfl, rfl, rfl⟩
          (fun _ => rfl) ⟨hrank, hopened, hnone⟩
  | refused fd =>
      cases hstep
      exact exclusive_owner h hget rfl (fun _ => Pc.noConfusion) rfl (h.alone hget rfl) (.inr rfl)
        trivial
  | latching fd =>
      cases hstep
      exact exclusive_owner h hget rfl (fun _ => Pc.noConfusion) rfl (h.alone hget rfl) (.inl rfl)
        ⟨hfacts.1, rfl, hfacts.2.2⟩
  | unlocking fd =>
      cases hstep
      exact exclusive_quiet h hget rfl (fun _ => Pc.noConfusion) ⟨rfl, rfl, rfl, rfl, rfl⟩
        (fun _ => rfl) hfacts
  | unwinding fd | failing =>
      cases hstep
      exact exclusive_quiet h hget rfl (fun _ => Pc.noConfusion) ⟨rfl, rfl, rfl, rfl, rfl⟩
        (fun hin => hin) trivial
  | closing fd pc => exact exclusive_close h hget hstep
  | opened fd | failed => cases hstep

theorem Exclusive.of_ioctls {s t : State} (h : Exclusive s)
    (hsame : t.opened = s.opened ∧ t.rank = s.rank ∧ t.deviceByFd = s.deviceByFd ∧
      t.destroys = s.destroys ∧ t.sessions = s.sessions)
    (hioctls : ∀ call ∈ t.ioctls, call.pc ≠ .returned →
      (∃ fd, s.sessions[call.session]? = some (.opened fd)) ∧
        ∀ rank, call.pc = .inUse rank → rank = some call.session) : Exclusive t := by
  obtain ⟨hopened, hrank, hdevice, hdestroys, hsessions⟩ := hsame
  refine ⟨?_, ?_, ?_, ?_⟩
  · intro i pc hget
    rw [hsessions] at hget
    refine (h.sessions i pc hget).of_same hopened hrank hdevice ?_
    rw [State.destroysOf, hdestroys]
    rfl
  · rw [hsessions]
    exact h.one
  · rw [hsessions]
    exact hioctls
  · rw [hdestroys, hsessions]
    exact h.known

theorem exclusive_ioctl {s t : State} {index : Nat} {call : Ioctl} (h : Exclusive s)
    (hget : s.ioctls[index]? = some call) (hstep : rankIoctlCb s index call = some t) :
    Exclusive t := by
  have hmove {pc : IoctlPc} (hpc : call.pc ≠ .returned)
      (hrank : ∀ rank, pc = .inUse rank → rank = s.rank) :
      ∀ other ∈ s.ioctls.set index { call with pc := pc }, other.pc ≠ .returned →
        (∃ fd, s.sessions[other.session]? = some (.opened fd)) ∧
          ∀ rank, other.pc = .inUse rank → rank = some other.session := by
    obtain ⟨⟨fd, hopen⟩, -⟩ := h.ioctls call (List.mem_of_getElem? hget) hpc
    refine forall_mem_set h.ioctls fun _ => ⟨⟨fd, hopen⟩, fun rank husing => ?_⟩
    rw [hrank rank husing]
    exact (h.sessions _ _ hopen).1
  unfold rankIoctlCb at hstep
  cases hpc : call.pc with
  | entered =>
      rw [hpc] at hstep
      cases hstep
      exact h.of_ioctls ⟨rfl, rfl, rfl, rfl, rfl⟩ (hmove (by simp [hpc]) (by simp))
  | locked =>
      rw [hpc] at hstep
      cases hstep
      refine h.of_ioctls ⟨rfl, rfl, rfl, rfl, rfl⟩ (hmove (by simp [hpc]) ?_)
      intro rank husing
      split at husing <;> cases husing
  | checked =>
      rw [hpc] at hstep
      cases hstep
      refine h.of_ioctls ⟨rfl, rfl, rfl, rfl, rfl⟩ (hmove (by simp [hpc]) ?_)
      intro rank husing
      cases husing
      rfl
  | inUse rank =>
      rw [hpc] at hstep
      cases hstep
      exact h.of_ioctls ⟨rfl, rfl, rfl, rfl, rfl⟩ (hmove (by simp [hpc]) (by simp))
  | unlocking =>
      rw [hpc] at hstep
      cases hstep
      exact h.of_ioctls ⟨rfl, rfl, rfl, rfl, rfl⟩ (hmove (by simp [hpc]) (by simp))
  | returned =>
      rw [hpc] at hstep
      cases hstep

theorem exclusive_open {s : State} (h : Exclusive s) :
    Exclusive { s with sessions := s.sessions ++ [.entered] } := by
  refine ⟨?_, ?_, ?_, ?_⟩
  · intro i pc hget
    rcases getElem?_push_some hget with ⟨rfl, rfl⟩ | hold
    · change s.destroysOf s.sessions.length = []
      unfold State.destroysOf
      rw [List.filter_eq_nil_iff]
      intro destroy hmem
      have hless := h.known destroy hmem
      simp only [decide_eq_true_eq]
      omega
    · exact (h.sessions i pc hold).of_same rfl rfl rfl rfl
  · intro i j p q hp hq hinp hinq
    rcases getElem?_push_some hp with ⟨-, rfl⟩ | hpold
    · cases hinp
    · rcases getElem?_push_some hq with ⟨-, rfl⟩ | hqold
      · cases hinq
      · exact h.one i j p q hpold hqold hinp hinq
  · intro call hmem hpc
    obtain ⟨⟨fd, hopen⟩, hrank⟩ := h.ioctls call hmem hpc
    refine ⟨⟨fd, ?_⟩, hrank⟩
    rw [List.getElem?_append_left (List.getElem?_eq_some_iff.mp hopen).1]
    exact hopen
  · intro destroy hmem
    rw [List.length_append]
    exact Nat.lt_add_right _ (h.known destroy hmem)

theorem exclusive_step (s : State) (action : Action) (t : State) (h : Exclusive s)
    (hok : StoresAlone s action) (hstep : step .rank s action = some t) : Exclusive t := by
  cases action with
  | openCb =>
      cases hstep
      exact exclusive_open h
  | ioctlCb session =>
      simp only [step] at hstep
      split at hstep <;> cases hstep
      rename_i fd hopen
      refine h.of_ioctls ⟨rfl, rfl, rfl, rfl, rfl⟩ ?_
      refine forall_mem_push h.ioctls fun _ => ⟨⟨fd, hopen⟩, fun rank husing => ?_⟩
      cases husing
  | closeCb session =>
      simp only [step] at hstep
      split at hstep
      · rename_i fd hopen
        split at hstep <;> cases hstep
        rename_i hshut
        have hfacts := h.sessions session _ hopen
        refine h.of_move hopen rfl (fun _ _ => hshut) rfl hfacts ?_
          (fun _ => h.alone hopen rfl) h.known
        exact fun j q _ hq => (h.sessions j q hq).of_same rfl rfl rfl rfl
      · cases hstep
  | session index ok fresh =>
      obtain ⟨pc, hget, hmove⟩ := Option.bind_eq_some_iff.mp hstep
      refine exclusive_session h hget (fun fd hcreated => ?_) hmove
      simpa only [StoresAlone, hcreated] using hok
  | ioctl index =>
      obtain ⟨call, hget, hmove⟩ := Option.bind_eq_some_iff.mp hstep
      exact exclusive_ioctl h hget hmove

/-- The callbacks keep to one session at a time in every run in which an open stores its
rank only while `opened` is not set and no other open is between storing its rank and
storing `opened`. -/
theorem opens_once {actions : List Action} {s : State}
    (halone : Transition.Meets (step .rank) StoresAlone init actions)
    (hrun : run (step .rank) init actions = some s) : OpensOnce s :=
  .of_exclusive (run_invariant_of_meets exclusive_step exclusive_init halone hrun)

instance (s : State) : (action : Action) → Decidable (StoresAlone s action)
  | .session index _ _ =>
      match h : s.sessions[index]? with
      | some (.created _) => decidable_of_iff
          (s.opened = false ∧ ∀ pc ∈ s.sessions, midway pc = false) (by simp [StoresAlone, h])
      | some .entered | some .locked | some .checked | some (.fdOpened _) | some (.stored _)
      | some (.refused _) | some (.latching _) | some (.unlocking _) | some (.opened _)
      | some (.closing _ _) | some (.unwinding _) | some .failing | some .failed | none =>
          .isTrue (by simp [StoresAlone, h])
  | .openCb | .ioctlCb _ | .closeCb _ | .ioctl _ => .isTrue trivial

/-- The steps of one session, its calls succeeding. -/
def advance (index times fresh : Nat) : List Action :=
  List.replicate times (.session index true fresh)

/-- A second open waits for the close of the first session, whose rank an ioctl has used. -/
def oneAfterTheOther : List Action :=
  [.openCb] ++ advance 0 8 5 ++ [.ioctlCb 0] ++ List.replicate 5 (.ioctl 0) ++ [.closeCb 0] ++
    advance 0 9 5 ++ [.openCb] ++ advance 1 8 5

theorem opens_once_oneAfterTheOther :
    ∃ s, run (step .rank) init oneAfterTheOther = some s ∧
      s.sessions = [.closing 5 .returned, .opened 5] ∧ s.destroysOf 0 = [⟨0, 0⟩] ∧
      OpensOnce s := by
  have hends : ∃ s, run (step .rank) init oneAfterTheOther = some s ∧
      s.sessions = [.closing 5 .returned, .opened 5] := exists_run (by decide +kernel)
  obtain ⟨s, hrun, hsessions⟩ := hends
  have honce := opens_once (by decide +kernel) hrun
  exact ⟨s, hrun, hsessions, honce.destroyed 0 5 (by rw [hsessions]; rfl), honce⟩

/-- Both opens read `opened` before either stores it. -/
def twoOpens : List Action :=
  [.openCb, .openCb] ++ advance 0 3 5 ++ advance 1 3 6 ++ advance 0 5 5 ++ advance 1 5 6

def secondRefused : List Action :=
  [.openCb, .openCb] ++ advance 0 3 5 ++ advance 1 3 6 ++ advance 0 5 5 ++ advance 1 2 6 ++
    [.session 1 false 6, .session 1 true 6, .ioctlCb 0, .ioctl 0, .ioctl 0, .ioctl 0]

/-- Two sessions are open; the close of the first destroys the rank of the second, and its
own is never destroyed.  Or the ioctl of the first uses the rank that the second, failing,
has stored and destroyed. -/
theorem opens_twice :
    (∃ s, run (step .rank) init twoOpens = some s ∧ s.sessions = [.opened 5, .opened 6] ∧
      ¬ OpensOnce s) ∧
    (∃ s, run (step .rank) init
        (twoOpens ++ [.closeCb 0] ++ advance 0 9 5 ++ [.closeCb 1] ++ advance 1 6 6) = some s ∧
      s.sessions = [.closing 5 .returned, .closing 6 .returned] ∧
      s.destroys = [⟨1, 0⟩] ∧ ¬ OpensOnce s) ∧
    ∃ s, run (step .rank) init secondRefused = some s ∧
      s.ioctls = [⟨0, .inUse (some 1)⟩] ∧ s.destroys = [⟨1, 1⟩] ∧ ¬ OpensOnce s := by
  refine ⟨?_, ?_, ?_⟩
  · have hends : ∃ s, run (step .rank) init twoOpens = some s ∧
        s.sessions = [.opened 5, .opened 6] := exists_run (by decide +kernel)
    obtain ⟨s, hrun, hsessions⟩ := hends
    refine ⟨s, hrun, hsessions, fun honce => ?_⟩
    have hsame := honce.one 0 1 (.opened 5) (.opened 6) (by rw [hsessions]; rfl)
      (by rw [hsessions]; rfl) rfl rfl
    cases hsame
  · have hends : ∃ s, run (step .rank) init
        (twoOpens ++ ([.closeCb 0] : List Action) ++ advance 0 9 5 ++
          ([.closeCb 1] : List Action) ++ advance 1 6 6) = some s ∧
        s.sessions = [.closing 5 .returned, .closing 6 .returned] ∧ s.destroys = [⟨1, 0⟩] :=
      exists_run (by decide +kernel)
    obtain ⟨s, hrun, hsessions, hdestroys⟩ := hends
    refine ⟨s, hrun, hsessions, hdestroys, fun honce => ?_⟩
    have hnone := honce.destroyed 0 5 (by rw [hsessions]; rfl)
    rw [State.destroysOf, hdestroys] at hnone
    exact absurd hnone (by decide)
  · have hends : ∃ s, run (step .rank) init secondRefused = some s ∧
        s.ioctls = [⟨0, .inUse (some 1)⟩] ∧ s.destroys = [⟨1, 1⟩] := exists_run (by decide +kernel)
    obtain ⟨s, hrun, hioctls, hdestroys⟩ := hends
    refine ⟨s, hrun, hioctls, hdestroys, fun honce => ?_⟩
    obtain ⟨r, hr, hnone⟩ := honce.used ⟨0, .inUse (some 1)⟩ (by rw [hioctls]; simp) _ rfl
    cases hr
    rw [State.destroysOf, hdestroys] at hnone
    exact absurd hnone (by decide)

end HostPimSim.Upmem.RankDevice
