import HostPimSim.Vfile.Attribute
import HostPimSim.Vfile.Mirror
import HostPimSim.Vfile.OwnerFd
import Mathlib.Data.BitVec
import Mathlib.Logic.Function.Basic

/-! The flags of owned descriptors.  `vfile_fd_entry` has one word for the flags of the session
and the close-on-exec flag, all aliases of a session share it, and the kernel has a close-on-exec
flag of its own for each descriptor. -/
namespace HostPimSim.Vfile.FdFlags
open Transition
open Attribute (Flags oCloexec setflSupportedMask has fdOpenedWithPathOnly)

def fdCloexec : Flags := 1

/-- `FD_CLOEXEC` in the argument of `F_SETFD`. -/
def setsCloexec (arg : Flags) : Bool := has arg fdCloexec

/-- `flags` of the entries, and the close-on-exec flags the kernel holds.  `latest` is the flag of
a descriptor as the latest call on that descriptor leaves it. -/
structure State where
  fds : Descriptors.State
  flags : List Flags
  kernelCloexec : Nat → Bool
  latest : Nat → Bool

def init : State := ⟨Descriptors.init, [], fun _ => false, fun _ => false⟩

/-- An open callback returns a descriptor that has a close-on-exec flag already,
`callbackCloexec`; every other virtual open makes one with `pim_vfile_open`.  `closeRange` is
`close_range` with `CLOSE_RANGE_CLOEXEC`. -/
inductive Call where
  | openVirtual (vdev : Option Nat) (closeFn : Bool) (flags : Flags) (fd : Option Nat)
      (callbackCloexec : Option Bool) (bound truncated : Bool)
  | openForwarded (fd : Option Nat) (cloexec : Bool)
  | close (fd : Nat) (succeeds : Bool) (failing : List Nat)
  | dup (oldfd : Nat) (newfd : Option Nat) (bound : Bool) (failing : List Nat)
  | dup2 (oldfd newfd : Nat) (succeeds bound : Bool) (failing : List Nat)
  | dup3 (oldfd newfd : Nat) (flags : Flags) (succeeds bound : Bool) (failing : List Nat)
  | setfd (fd : Nat) (arg : Flags)
  | setfl (fd : Nat) (arg : Flags)
  | closeRange (first last : Nat) (succeeds : Bool)

def Call.base : Call → Descriptors.Call
  | .openVirtual vdev closeFn flags fd _ bound truncated =>
      .openVirtual vdev closeFn (fdOpenedWithPathOnly flags) fd bound truncated
  | .openForwarded fd _ => .openForwarded fd
  | .close fd succeeds failing => .close fd succeeds failing
  | .dup oldfd newfd bound failing => .dup oldfd newfd bound failing
  | .dup2 oldfd newfd succeeds bound failing => .dup2 oldfd newfd false succeeds bound failing
  | .dup3 oldfd newfd _ succeeds bound failing => .dup2 oldfd newfd true succeeds bound failing
  | .setfd fd _ => .fcntl fd .setfd none
  | .setfl fd _ => .fcntl fd .setfl none
  | .closeRange first last succeeds => .closeRange first last true succeeds []

def openedCloexec (vdev : Option Nat) (flags : Flags) (callbackCloexec : Option Bool) : Bool :=
  if vdev = none then flags.cloexec else callbackCloexec.getD flags.cloexec

def setfdFlags (arg flags : Flags) : Flags :=
  if setsCloexec arg then flags ||| oCloexec else flags &&& ~~~oCloexec

def setflFlags (arg flags : Flags) : Flags :=
  if fdOpenedWithPathOnly flags then flags
  else (flags &&& ~~~setflSupportedMask) ||| (arg &&& setflSupportedMask)

/-- The word of the entry that a descriptor is bound to; a call on another descriptor goes to the
kernel. -/
def State.modifyFlags (s : State) (fd : Nat) (f : Flags → Flags) : List Flags :=
  match s.fds.table.lookup fd with
  | none => s.flags
  | some entry => s.flags.modify entry f

def State.flagsAfter (s : State) : Call → List Flags
  | .openVirtual _ _ flags (some _) _ _ _ => s.flags ++ [flags]
  | .setfd fd arg => s.modifyFlags fd (setfdFlags arg)
  | .setfl fd arg => s.modifyFlags fd (setflFlags arg)
  | _ => s.flags

def State.inRange (s : State) (first last fd : Nat) : Bool :=
  first ≤ fd && fd ≤ last && decide (fd ∈ s.fds.kernel)

/-- What the kernel does.  `F_SETFD` of an owned descriptor does not reach it. -/
def State.kernelCloexecAfter (s : State) : Call → Nat → Bool
  | .openVirtual vdev _ flags (some fd) callbackCloexec _ _ =>
      Function.update s.kernelCloexec fd (openedCloexec vdev flags callbackCloexec)
  | .openForwarded (some fd) cloexec => Function.update s.kernelCloexec fd cloexec
  | .dup _ (some newfd) _ _ => Function.update s.kernelCloexec newfd false
  | .dup2 oldfd newfd succeeds _ _ =>
      if oldfd ≠ newfd ∧ succeeds = true then Function.update s.kernelCloexec newfd false
      else s.kernelCloexec
  | .dup3 oldfd newfd flags succeeds _ _ =>
      if oldfd ≠ newfd ∧ succeeds = true then
        Function.update s.kernelCloexec newfd flags.cloexec
      else s.kernelCloexec
  | .setfd fd arg =>
      if fd ∈ s.fds.table then s.kernelCloexec
      else Function.update s.kernelCloexec fd (setsCloexec arg)
  | .closeRange first last succeeds =>
      if succeeds = true then fun fd => s.inRange first last fd || s.kernelCloexec fd
      else s.kernelCloexec
  | _ => s.kernelCloexec

def State.latestAfter (s : State) : Call → Nat → Bool
  | .openVirtual _ _ flags (some fd) _ _ _ => Function.update s.latest fd flags.cloexec
  | .openForwarded (some fd) cloexec => Function.update s.latest fd cloexec
  | .dup _ (some newfd) _ _ => Function.update s.latest newfd false
  | .dup2 oldfd newfd succeeds _ _ =>
      if oldfd ≠ newfd ∧ succeeds = true then Function.update s.latest newfd false else s.latest
  | .dup3 oldfd newfd flags succeeds _ _ =>
      if oldfd ≠ newfd ∧ succeeds = true then Function.update s.latest newfd flags.cloexec
      else s.latest
  | .setfd fd arg => Function.update s.latest fd (setsCloexec arg)
  | .closeRange first last succeeds =>
      if succeeds = true then fun fd => s.inRange first last fd || s.latest fd else s.latest
  | _ => s.latest

def step (s : State) (call : Call) : Option State :=
  (Descriptors.step s.fds call.base).map fun fds =>
    ⟨fds, s.flagsAfter call, s.kernelCloexecAfter call, s.latestAfter call⟩

/-- The word of the entry that a descriptor is bound to. -/
def State.word (s : State) (fd : Nat) : Option Flags :=
  (s.fds.table.lookup fd).bind fun entry => s.flags[entry]?

/-- `F_GETFD`; of a descriptor that is not owned the kernel answers. -/
def State.getfd (s : State) (fd : Nat) : Flags :=
  match s.word fd with
  | none => if s.kernelCloexec fd then fdCloexec else 0
  | some flags => if flags.cloexec then fdCloexec else 0

/-- `F_GETFL` of an owned descriptor. -/
def State.getfl (s : State) (fd : Nat) : Option Flags := s.word fd

def State.AliasOf (s : State) (fd entry : Nat) : Prop :=
  s.fds.kernel.lookup fd = some (some entry)

/-- The flag that `F_GETFD` returns and the one the kernel holds are the one of the latest call on
the descriptor. -/
def State.DescriptorFlags (s : State) : Prop :=
  ∀ fd entry, s.AliasOf fd entry →
    s.getfd fd = (if s.latest fd then fdCloexec else 0) ∧ s.kernelCloexec fd = s.latest fd

/-- `F_SETFL` changes the status flags of the aliases of a session and of no other descriptor. -/
def State.StatusShared (s : State) : Prop :=
  ∀ fd entry arg t, s.AliasOf fd entry → step s (.setfl fd arg) = some t →
    ∀ other session, s.AliasOf other session →
      t.getfl other = (s.getfl other).map fun flags =>
        if session = entry then setflFlags arg flags else flags

/-- The calls that leave the word of the entry right for every alias, and the table in step with
the kernel. -/
def Call.PerDescriptor (s : State) : Call → Prop
  | .openVirtual vdev _ flags (some _) callbackCloexec _ _ =>
      openedCloexec vdev flags callbackCloexec = flags.cloexec
  | .dup oldfd (some _) bound _ =>
      bound = true → ∀ flags ∈ s.word oldfd, flags.cloexec = false
  | .dup2 oldfd newfd succeeds bound failing =>
      Descriptors.Tracked s.fds (.dup2 oldfd newfd false succeeds bound failing) ∧
        (oldfd ≠ newfd → succeeds = true → ∀ flags ∈ s.word oldfd, flags.cloexec = false)
  | .dup3 oldfd newfd flags succeeds bound failing =>
      Descriptors.Tracked s.fds (.dup2 oldfd newfd true succeeds bound failing) ∧
        (oldfd ≠ newfd → succeeds = true → ∀ old ∈ s.word oldfd, old.cloexec = flags.cloexec)
  | .setfd fd arg => ∀ flags ∈ s.word fd, flags.cloexec = setsCloexec arg
  | .closeRange first last succeeds =>
      succeeds = true → ∀ fd, first ≤ fd → fd ≤ last → ∀ flags ∈ s.word fd, flags.cloexec = true
  | _ => True

@[simp] theorem cloexec_setfdFlags (arg flags : Flags) :
    (setfdFlags arg flags).cloexec = setsCloexec arg := by
  unfold setfdFlags
  split
  · rename_i harg
    rw [harg]
    have hbit : (flags ||| oCloexec) &&& oCloexec = oCloexec := by
      ext i hi
      rw [BitVec.getElem_and, BitVec.getElem_or]
      cases oCloexec[i] <;> simp
    unfold Flags.cloexec has
    rw [hbit]
    decide
  · rename_i harg
    rw [Bool.eq_false_iff.mpr harg]
    have hbit : (flags &&& ~~~oCloexec) &&& oCloexec = 0 := by
      rw [BitVec.and_assoc, show ~~~oCloexec &&& oCloexec = 0 by decide]
      exact BitVec.and_zero
    unfold Flags.cloexec has
    rw [hbit]
    decide

@[simp] theorem cloexec_setflFlags (arg flags : Flags) :
    (setflFlags arg flags).cloexec = flags.cloexec := by
  unfold setflFlags
  split
  · rfl
  · have hbit : ((flags &&& ~~~setflSupportedMask) ||| (arg &&& setflSupportedMask)) &&& oCloexec =
        flags &&& oCloexec := by
      rw [BitVec.and_comm, BitVec.and_or_distrib_left, BitVec.and_comm, BitVec.and_assoc,
        show ~~~setflSupportedMask &&& oCloexec = oCloexec by decide, BitVec.and_comm oCloexec,
        BitVec.and_assoc, show setflSupportedMask &&& oCloexec = 0 by decide]
      simp
    unfold Flags.cloexec has
    rw [hbit]

variable {s t : State} {fd entry : Nat} {failing : List Nat}

theorem kernel_rebind (s : Descriptors.State) (target : Nat) (bound : Option Nat) (full : Bool)
    (failing : List Nat) :
    (Descriptors.rebindFdAliasAfterDup s target bound false full failing).1.kernel = s.kernel := by
  unfold Descriptors.rebindFdAliasAfterDup
  dsimp only
  split
  · rfl
  · split
    · split <;> rfl
    · rfl

theorem kernel_dup2 (s : Descriptors.State) (oldfd newfd : Nat) (isDup3 succeeds bound : Bool)
    (failing : List Nat) :
    (Descriptors.dispatchDup2 s oldfd newfd isDup3 succeeds bound failing).1.kernel =
      if oldfd ≠ newfd ∧ succeeds = true then (Descriptors.kernelDup s oldfd newfd).kernel
      else s.kernel := by
  unfold Descriptors.dispatchDup2
  by_cases hsame : oldfd = newfd
  · have hnot : ¬(oldfd ≠ newfd ∧ succeeds = true) := fun h => h.1 hsame
    rw [if_neg hnot, if_pos hsame]
  rw [if_neg hsame]
  cases succeeds with
  | false =>
      have hnot : ¬(oldfd ≠ newfd ∧ false = true) := fun h => Bool.false_ne_true h.2
      rw [if_neg hnot, if_pos rfl]
  | true =>
      have hdone : oldfd ≠ newfd ∧ true = true := ⟨hsame, rfl⟩
      have hnot : ¬true = false := Bool.noConfusion
      rw [if_pos hdone, if_neg hnot]
      split
      · exact kernel_rebind (Descriptors.kernelDup s oldfd newfd) newfd _ bound failing
      · rfl

theorem kernel_close (s : Descriptors.State) (fd : Nat) (succeeds : Bool) (failing : List Nat) :
    (Descriptors.dispatchClose s fd succeeds failing).1.kernel = s.kernel.erase fd := by
  unfold Descriptors.dispatchClose
  split
  · rename_i hfd
    dsimp only [Descriptors.kernelClose]
    rw [Descriptors.closeOwnedFd_erase hfd]
  · rfl

theorem lookup_insert_some {kernel : AList fun _ : Nat => Option Nat} {added : Nat}
    {b : Option Nat} (h : (kernel.insert added b).lookup fd = some (some entry)) :
    if fd = added then b = some entry else kernel.lookup fd = some (some entry) := by
  rw [lookup_insert_eq] at h
  split
  · rename_i hfd
    rw [if_pos hfd] at h
    exact Option.some.inj h
  · rename_i hfd
    rwa [if_neg hfd] at h

theorem lookup_erase_some {kernel : AList fun _ : Nat => Option Nat} {closed : Nat}
    (h : (kernel.erase closed).lookup fd = some (some entry)) :
    fd ≠ closed ∧ kernel.lookup fd = some (some entry) := by
  rw [lookup_erase_eq] at h
  exact Option.ite_none_left_eq_some.mp h

theorem alias_dup {s : Descriptors.State} {oldfd newfd : Nat} {bound : Bool}
    (h : Descriptors.Agree s) (hfree : newfd ∉ s.kernel)
    (halias : (Descriptors.dispatchDup s oldfd (some newfd) bound failing).1.kernel.lookup fd =
      some (some entry)) :
    if fd = newfd then s.kernel.lookup oldfd = some (some entry) ∧ bound = true
    else s.kernel.lookup fd = some (some entry) := by
  unfold Descriptors.dispatchDup at halias
  dsimp only at halias
  have hnew := h.notMem hfree
  have hjoin := h oldfd
  cases hold : s.table.lookup oldfd with
  | none =>
      rw [hold] at halias hjoin
      dsimp only [Descriptors.kernelDup] at halias
      rw [← hjoin] at halias
      have hinsert := lookup_insert_some halias
      by_cases hfd : fd = newfd
      · rw [if_pos hfd] at hinsert
        cases hinsert
      · rwa [if_neg hfd] at hinsert ⊢
  | some old =>
      rw [hold] at halias hjoin
      dsimp only at halias
      rw [Descriptors.rebind_fresh (s := Descriptors.kernelDup s oldfd newfd) hnew] at halias
      split at halias
      · rw [if_pos rfl] at halias
        dsimp only [Descriptors.kernelClose, Descriptors.kernelDup] at halias
        obtain ⟨hne, hleft⟩ := lookup_erase_some halias
        have hinsert := lookup_insert_some hleft
        rwa [if_neg hne] at hinsert ⊢
      · rename_i hbound
        dsimp only [Descriptors.kernelDup] at halias
        rw [← hjoin] at halias
        have hinsert := lookup_insert_some halias
        by_cases hfd : fd = newfd
        · rw [if_pos hfd] at hinsert ⊢
          obtain rfl := Option.some.inj hinsert
          refine ⟨Option.join_eq_some_iff.mp hjoin.symm, ?_⟩
          by_contra hfull
          exact hbound ⟨rfl, Bool.eq_false_iff.mpr hfull⟩
        · rwa [if_neg hfd] at hinsert ⊢

theorem alias_openVirtual {s : Descriptors.State} {vdev : Option Nat} {newfd : Nat}
    {closeFn pathOnly bound truncated : Bool}
    (halias : (Descriptors.openVirtual s vdev closeFn pathOnly (some newfd) bound
      truncated).1.kernel.lookup fd = some (some entry)) :
    if fd = newfd then entry = s.entries.length else s.kernel.lookup fd = some (some entry) := by
  have hinsert : (s.kernel.insert newfd (some s.entries.length)).lookup fd = some (some entry) := by
    unfold Descriptors.openVirtual at halias
    dsimp only at halias
    split at halias
    · exact (lookup_erase_some halias).2
    · split at halias
      · exact (lookup_erase_some halias).2
      · exact halias
  have hwhere := lookup_insert_some hinsert
  by_cases hfd : fd = newfd
  · rw [if_pos hfd] at hwhere ⊢
    exact (Option.some.inj hwhere).symm
  · rwa [if_neg hfd] at hwhere ⊢

theorem entries_openVirtual (s : Descriptors.State) (vdev : Option Nat) (newfd : Nat)
    (closeFn pathOnly bound truncated : Bool) :
    (Descriptors.openVirtual s vdev closeFn pathOnly (some newfd) bound truncated).1.entries.length =
      s.entries.length + 1 := by
  unfold Descriptors.openVirtual
  dsimp only
  split
  · exact List.length_append
  · split
    · exact List.length_append
    · exact List.length_append

/-- The table follows the kernel, and every alias of a session has the close-on-exec flag of the
word that they share. -/
structure Sound (s : State) : Prop where
  agree : Descriptors.Agree s.fds
  length : s.flags.length = s.fds.entries.length
  aliases : ∀ fd entry, s.AliasOf fd entry →
    (∃ flags, s.flags[entry]? = some flags ∧ flags.cloexec = s.latest fd) ∧
      s.kernelCloexec fd = s.latest fd

theorem word_of_alias (h : Descriptors.Agree s.fds) (halias : s.AliasOf fd entry) :
    s.word fd = s.flags[entry]? := by
  unfold State.word
  rw [h fd, halias]
  rfl

theorem lookup_of_alias (h : Descriptors.Agree s.fds) (halias : s.AliasOf fd entry) :
    s.fds.table.lookup fd = some entry := by
  rw [h fd, halias]
  rfl

theorem sound_init : Sound init :=
  ⟨Descriptors.agree_init, rfl, fun fd entry halias => by cases halias⟩

theorem Sound.shrink (h : Sound s) {fds : Descriptors.State} (hagree : Descriptors.Agree fds)
    (hentries : fds.entries = s.fds.entries)
    (hold : ∀ fd entry, fds.kernel.lookup fd = some (some entry) → s.AliasOf fd entry) :
    Sound ⟨fds, s.flags, s.kernelCloexec, s.latest⟩ :=
  ⟨hagree, by rw [hentries]; exact h.length,
    fun fd entry halias => h.aliases fd entry (hold fd entry halias)⟩

theorem Sound.duplicate (h : Sound s) {fds : Descriptors.State} {newfd : Nat} {cloexec : Bool}
    (hagree : Descriptors.Agree fds) (hentries : fds.entries = s.fds.entries)
    (hnew : ∀ entry, fds.kernel.lookup newfd = some (some entry) →
      ∃ flags, s.flags[entry]? = some flags ∧ flags.cloexec = cloexec)
    (hold : ∀ fd entry, fd ≠ newfd → fds.kernel.lookup fd = some (some entry) →
      s.AliasOf fd entry) :
    Sound ⟨fds, s.flags, Function.update s.kernelCloexec newfd cloexec,
      Function.update s.latest newfd cloexec⟩ := by
  refine ⟨hagree, by rw [hentries]; exact h.length, fun fd entry halias => ?_⟩
  by_cases hfd : fd = newfd
  · subst hfd
    dsimp only
    rw [Function.update_self, Function.update_self]
    exact ⟨hnew entry halias, rfl⟩
  · dsimp only
    rw [Function.update_of_ne hfd, Function.update_of_ne hfd]
    exact h.aliases fd entry (hold fd entry hfd halias)

theorem Sound.dup2 (h : Sound s) {oldfd newfd : Nat} {isDup3 succeeds bound cloexec : Bool}
    (htracked : Descriptors.Tracked s.fds (.dup2 oldfd newfd isDup3 succeeds bound failing))
    (hword : oldfd ≠ newfd → succeeds = true → ∀ flags ∈ s.word oldfd, flags.cloexec = cloexec) :
    Sound ⟨(Descriptors.dispatchDup2 s.fds oldfd newfd isDup3 succeeds bound failing).1, s.flags,
      if oldfd ≠ newfd ∧ succeeds = true then Function.update s.kernelCloexec newfd cloexec
        else s.kernelCloexec,
      if oldfd ≠ newfd ∧ succeeds = true then Function.update s.latest newfd cloexec
        else s.latest⟩ := by
  have hagree := Descriptors.agree_dup2 h.agree htracked
  have hkernel := kernel_dup2 s.fds oldfd newfd isDup3 succeeds bound failing
  have hkeeps := @Descriptors.keeps_dispatch s.fds
    (.dup2 oldfd newfd isDup3 succeeds bound failing) rfl
  have hentries := hkeeps.1
  dsimp only [Descriptors.dispatch] at hentries
  by_cases hdone : oldfd ≠ newfd ∧ succeeds = true
  · rw [if_pos hdone] at hkernel
    rw [if_pos hdone, if_pos hdone]
    dsimp only [Descriptors.kernelDup] at hkernel
    refine h.duplicate hagree hentries (fun entry halias => ?_) fun fd entry hne halias => ?_
    · rw [hkernel, lookup_insert_eq, if_pos rfl] at halias
      have hold : s.AliasOf oldfd entry := Option.join_eq_some_iff.mp (Option.some.inj halias)
      obtain ⟨flags, hflags, -⟩ := (h.aliases oldfd entry hold).1
      refine ⟨flags, hflags, hword hdone.1 hdone.2 flags ?_⟩
      rw [word_of_alias h.agree hold]
      exact hflags
    · rw [hkernel, lookup_insert_eq, if_neg hne] at halias
      exact halias
  · rw [if_neg hdone] at hkernel
    rw [if_neg hdone, if_neg hdone]
    refine h.shrink hagree hentries fun fd entry halias => ?_
    rw [hkernel] at halias
    exact halias

theorem Sound.modify (h : Sound s) {f : Flags → Flags}
    (hcloexec : ∀ flags ∈ s.word fd, (f flags).cloexec = flags.cloexec) :
    Sound ⟨s.fds, s.modifyFlags fd f, s.kernelCloexec, s.latest⟩ := by
  unfold State.word at hcloexec
  unfold State.modifyFlags
  cases hlookup : s.fds.table.lookup fd with
  | none => exact ⟨h.agree, h.length, h.aliases⟩
  | some session =>
      rw [hlookup, Option.bind_some] at hcloexec
      have hlength : (s.flags.modify session f).length = s.fds.entries.length := by
        rw [List.length_modify]
        exact h.length
      refine ⟨h.agree, hlength, fun other entry halias => ?_⟩
      obtain ⟨⟨flags, hflags, hlatest⟩, hkernel⟩ := h.aliases other entry halias
      refine ⟨?_, hkernel⟩
      dsimp only
      rw [List.getElem?_modify, hflags]
      by_cases hsame : session = entry
      · subst hsame
        exact ⟨f flags, by simp, (hcloexec flags hflags).trans hlatest⟩
      · exact ⟨flags, by simp [hsame], hlatest⟩

theorem Sound.openVirtual (h : Sound s) {vdev : Option Nat} {closeFn bound truncated : Bool}
    {flags : Flags} {newfd : Nat} {callbackCloexec : Option Bool}
    (hagree : Descriptors.Agree (Descriptors.openVirtual s.fds vdev closeFn (fdOpenedWithPathOnly flags)
      (some newfd) bound truncated).1)
    (hcloexec : openedCloexec vdev flags callbackCloexec = flags.cloexec) :
    Sound ⟨(Descriptors.openVirtual s.fds vdev closeFn (fdOpenedWithPathOnly flags) (some newfd) bound
        truncated).1, s.flags ++ [flags],
      Function.update s.kernelCloexec newfd (openedCloexec vdev flags callbackCloexec),
      Function.update s.latest newfd flags.cloexec⟩ := by
  refine ⟨hagree, ?_, fun fd entry halias => ?_⟩
  · rw [entries_openVirtual, ← h.length]
    exact List.length_append
  · have hwhere := alias_openVirtual halias
    by_cases hfd : fd = newfd
    · rw [if_pos hfd, ← h.length] at hwhere
      subst hfd
      dsimp only
      rw [Function.update_self, Function.update_self, hwhere, List.getElem?_concat_length]
      exact ⟨⟨flags, rfl, rfl⟩, hcloexec⟩
    · rw [if_neg hfd] at hwhere
      obtain ⟨⟨old, hold, hlatest⟩, hkernel⟩ := h.aliases fd entry hwhere
      dsimp only
      rw [Function.update_of_ne hfd, Function.update_of_ne hfd]
      refine ⟨⟨old, ?_, hlatest⟩, hkernel⟩
      rw [List.getElem?_append_left (List.getElem?_eq_some_iff.mp hold).1]
      exact hold

theorem Sound.setfd (h : Sound s) {arg : Flags}
    (hword : ∀ flags ∈ s.word fd, flags.cloexec = setsCloexec arg) :
    Sound ⟨s.fds, s.modifyFlags fd (setfdFlags arg),
      if fd ∈ s.fds.table then s.kernelCloexec
        else Function.update s.kernelCloexec fd (setsCloexec arg),
      Function.update s.latest fd (setsCloexec arg)⟩ := by
  have hmodified := h.modify (f := setfdFlags arg) fun flags hflags =>
    (cloexec_setfdFlags arg flags).trans (hword flags hflags).symm
  refine ⟨h.agree, hmodified.length, fun other entry halias => ?_⟩
  obtain ⟨hlatest, hkernel⟩ := hmodified.aliases other entry halias
  by_cases hsame : other = fd
  · -- the flag that is set is the one that the descriptor has
    subst hsame
    obtain ⟨⟨flags, hflags, hold⟩, -⟩ := h.aliases other entry halias
    have hset : setsCloexec arg = s.latest other := by
      rw [← hold]
      refine (hword flags ?_).symm
      rw [word_of_alias h.agree halias]
      exact hflags
    have howned : other ∈ s.fds.table :=
      AList.lookup_isSome.mp (Option.isSome_iff_exists.mpr ⟨entry, lookup_of_alias h.agree halias⟩)
    dsimp only
    rw [Function.update_self, if_pos howned, hset]
    exact ⟨hlatest, hkernel⟩
  · dsimp only
    rw [Function.update_of_ne hsame]
    refine ⟨hlatest, ?_⟩
    split
    · exact hkernel
    · rw [Function.update_of_ne hsame]
      exact hkernel

theorem Sound.closeRange (h : Sound s) {first last : Nat}
    (hword : ∀ fd, first ≤ fd → fd ≤ last → ∀ flags ∈ s.word fd, flags.cloexec = true) :
    Sound ⟨s.fds, s.flags, fun fd => s.inRange first last fd || s.kernelCloexec fd,
      fun fd => s.inRange first last fd || s.latest fd⟩ := by
  refine ⟨h.agree, h.length, fun fd entry halias => ?_⟩
  obtain ⟨⟨flags, hflags, hlatest⟩, hkernel⟩ := h.aliases fd entry halias
  dsimp only
  rw [hkernel]
  refine ⟨⟨flags, hflags, ?_⟩, rfl⟩
  cases hrange : s.inRange first last fd with
  | false => exact hlatest
  | true =>
      unfold State.inRange at hrange
      rw [Bool.and_eq_true, Bool.and_eq_true, decide_eq_true_eq, decide_eq_true_eq] at hrange
      refine hword fd hrange.1.1 hrange.1.2 flags ?_
      rw [word_of_alias h.agree halias]
      exact hflags

theorem Sound.dup (h : Sound s) {oldfd newfd : Nat} {bound : Bool}
    (hok : Descriptors.permitted s.fds (.dup oldfd (some newfd) bound failing) = true)
    (hword : bound = true → ∀ flags ∈ s.word oldfd, flags.cloexec = false) :
    Sound ⟨(Descriptors.dispatchDup s.fds oldfd (some newfd) bound failing).1, s.flags,
      Function.update s.kernelCloexec newfd false, Function.update s.latest newfd false⟩ := by
  have hfree : newfd ∉ s.fds.kernel := by
    have hboth : oldfd ∈ s.fds.kernel ∧ newfd ∉ s.fds.kernel := by
      simpa [Descriptors.permitted] using hok
    exact hboth.2
  have hkeeps := @Descriptors.keeps_dispatch s.fds
    (.dup oldfd (some newfd) bound failing) rfl
  refine h.duplicate (Descriptors.agree_dup h.agree hok) hkeeps.1 (fun entry halias => ?_)
    fun fd entry hne halias => ?_
  · have hold := alias_dup h.agree hfree halias
    rw [if_pos rfl] at hold
    obtain ⟨⟨flags, hflags, -⟩, -⟩ := h.aliases oldfd entry hold.1
    refine ⟨flags, hflags, hword hold.2 flags ?_⟩
    rw [word_of_alias h.agree hold.1]
    exact hflags
  · have hold := alias_dup h.agree hfree halias
    rwa [if_neg hne] at hold

theorem step_sound {call : Call} (h : Sound s) (hcall : call.PerDescriptor s)
    (hstep : step s call = some t) : Sound t := by
  obtain ⟨fds, hfds, rfl⟩ := Option.map_eq_some_iff.mp hstep
  obtain ⟨hok, hdispatch⟩ := Option.ite_none_right_eq_some.mp hfds
  obtain rfl := Option.some.inj hdispatch
  cases call with
  | openVirtual vdev closeFn flags newfd callbackCloexec bound truncated =>
      have hagree := Descriptors.agree_openVirtual h.agree hok
      cases newfd with
      | none => exact h.shrink hagree rfl fun fd entry halias => halias
      | some newfd => exact h.openVirtual hagree hcall
  | openForwarded newfd cloexec =>
      have hagree := Descriptors.agree_openForwarded h.agree hok
      cases newfd with
      | none => exact h.shrink hagree rfl fun fd entry halias => halias
      | some newfd =>
          refine h.duplicate hagree rfl (fun entry halias => ?_) fun fd entry hne halias => ?_
          · dsimp only [Call.base, Descriptors.dispatch, Descriptors.openForwarded] at halias
            rw [AList.lookup_insert] at halias
            cases halias
          · dsimp only [Call.base, Descriptors.dispatch, Descriptors.openForwarded] at halias
            rwa [AList.lookup_insert_ne hne] at halias
  | close fd succeeds failing =>
      have hkeeps := @Descriptors.keeps_dispatch s.fds
        (.close fd succeeds failing) rfl
      refine h.shrink (Descriptors.agree_close h.agree) hkeeps.1 fun other entry halias => ?_
      dsimp only [Call.base, Descriptors.dispatch] at halias
      rw [kernel_close] at halias
      exact (lookup_erase_some halias).2
  | dup oldfd newfd bound failing =>
      cases newfd with
      | none => exact h.shrink h.agree rfl fun fd entry halias => halias
      | some newfd => exact h.dup hok hcall
  | dup2 oldfd newfd succeeds bound failing => exact h.dup2 hcall.1 hcall.2
  | dup3 oldfd newfd flags succeeds bound failing => exact h.dup2 hcall.1 hcall.2
  | setfd fd arg =>
      have hsame : (Descriptors.dispatchFcntl s.fds fd .setfd none).1 = s.fds := by
        unfold Descriptors.dispatchFcntl
        split <;> rfl
      dsimp only [Call.base, Descriptors.dispatch]
      rw [hsame]
      exact h.setfd hcall
  | setfl fd arg =>
      have hsame : (Descriptors.dispatchFcntl s.fds fd .setfl none).1 = s.fds := by
        unfold Descriptors.dispatchFcntl
        split <;> rfl
      dsimp only [Call.base, Descriptors.dispatch]
      rw [hsame]
      exact h.modify fun flags _ => cloexec_setflFlags arg flags
  | closeRange first last succeeds =>
      have hsame : (Descriptors.dispatchCloseRange s.fds first last true succeeds []).1 = s.fds := by
        unfold Descriptors.dispatchCloseRange
        cases succeeds <;> rfl
      dsimp only [Call.base, Descriptors.dispatch]
      rw [hsame]
      cases succeeds with
      | false => exact h.shrink h.agree rfl fun fd entry halias => halias
      | true => exact h.closeRange (hcall rfl)

theorem Sound.descriptorFlags (h : Sound s) : s.DescriptorFlags := by
  intro fd entry halias
  obtain ⟨⟨flags, hflags, hlatest⟩, hkernel⟩ := h.aliases fd entry halias
  refine ⟨?_, hkernel⟩
  unfold State.getfd
  rw [word_of_alias h.agree halias, hflags]
  dsimp only
  rw [hlatest]

/-- Two descriptors are bound to one entry exactly if they are aliases of one session. -/
theorem Sound.statusShared (h : Sound s) : s.StatusShared := by
  intro fd entry arg t halias hstep other session hother
  obtain ⟨fds, hfds, rfl⟩ := Option.map_eq_some_iff.mp hstep
  obtain ⟨-, hdispatch⟩ := Option.ite_none_right_eq_some.mp hfds
  have hsame : fds = s.fds := by
    rw [← Option.some.inj hdispatch]
    dsimp only [Call.base, Descriptors.dispatch, Descriptors.dispatchFcntl]
    split <;> rfl
  subst hsame
  have hmodify : s.flagsAfter (.setfl fd arg) = s.flags.modify entry (setflFlags arg) := by
    change s.modifyFlags fd (setflFlags arg) = _
    unfold State.modifyFlags
    rw [lookup_of_alias h.agree halias]
  unfold State.getfl
  rw [hmodify, word_of_alias h.agree hother]
  unfold State.word
  dsimp only
  rw [lookup_of_alias h.agree hother, Option.bind_some, List.getElem?_modify]
  simp only [Option.map_eq_map, eq_comm (a := entry)]

/-- In every run whose calls leave the shared words right, each descriptor has the close-on-exec
flag of the latest call on it, and the aliases of a session share the status flags. -/
theorem descriptorFlags_of_perDescriptor {calls : List Call} (hrun : run step init calls = some t)
    (hcalls : Meets step (fun s call => call.PerDescriptor s) init calls) :
    t.DescriptorFlags ∧ t.StatusShared := by
  have hend : Sound t :=
    run_invariant_of_meets (fun _ _ _ h hcall hstep => step_sound h hcall hstep) sound_init hcalls
      hrun
  exact ⟨hend.descriptorFlags, hend.statusShared⟩

/-- A descriptor opened with `O_CLOEXEC`, `dup3` with the same flag and `F_SETFL`. -/
def cloexecCalls : List Call :=
  [.openVirtual none false oCloexec (some 3) none true true, .dup3 3 5 oCloexec true true [],
    .setfl 5 0x800]

theorem descriptorFlags_of_perDescriptor_dup3 :
    ∃ t, run step init cloexecCalls = some t ∧ t.DescriptorFlags ∧ t.StatusShared := by
  refine ⟨_, rfl, @descriptorFlags_of_perDescriptor _ cloexecCalls rfl ?_⟩
  refine ⟨rfl, ?_⟩
  rintro s ⟨⟩
  refine ⟨⟨fun _ _ _ _ => rfl, ?_⟩, ?_⟩
  · rintro - - flags ⟨⟩
    rfl
  · rintro s ⟨⟩
    exact ⟨trivial, fun _ _ => trivial⟩

/-- A duplicate of a descriptor opened with `O_CLOEXEC`: `dup` clears the flag, and `F_GETFD`
returns it. -/
theorem dup_keeps_cloexec :
    ¬ ∀ calls t, run step init calls = some t → t.DescriptorFlags ∧ t.StatusShared := by
  intro hall
  have hflags := (hall [.openVirtual none false oCloexec (some 3) none true true,
    .dup 3 (some 4) true []] _ rfl).1 4 0 rfl
  exact absurd hflags.1 (by decide)

end HostPimSim.Vfile.FdFlags
