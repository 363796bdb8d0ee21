import HostPimSim.Lib.Loop
import Mathlib.Algebra.Ring.Int.Defs
import Mathlib.Algebra.Ring.Nat
import Mathlib.Order.RelClasses

/-! `vsyscall_process_in_group`: a group list that is asked for with `getgroups`, first its length
and then its entries, and asked for again as long as it seems to grow. -/
namespace HostPimSim.Vfile

abbrev Gid := UInt32

def einvalNumber : Int := 22

def intMax : Int := 2 ^ 31 - 1

/-- `SIZE_MAX / sizeof(gid_t)`. -/
def maxGidCount : Nat := (2 ^ 64 - 1) / 4

/-- From what `sysconf(_SC_NGROUPS_MAX)` returns. -/
def kMaxGroups (maxGroupsLong : Int) : Int :=
  if 0 < maxGroupsLong ∧ maxGroupsLong ≤ intMax then maxGroupsLong else intMax

/-- What the calls of one turn return: the count or an `errno`, whether there is memory for that
many, and the list or an `errno`.  A list is no longer than the buffer it is written to. -/
structure GroupAnswers where
  probe : Except Int Nat
  allocated : Bool
  fetch : (size : Nat) → Except Int { groups : List Gid // groups.length ≤ size }

/-- The list of a turn that comes to ask for it and is given it. -/
def GroupAnswers.fetched (a : GroupAnswers) : Option (List Gid) :=
  match a.probe with
  | .error _ => none
  | .ok count =>
      if count = 0 ∨ maxGidCount < count ∨ a.allocated = false then none
      else
        match a.fetch count with
        | .error _ => none
        | .ok groups => some groups.val

def vsyscallGroupListContains (target : Gid) (groups : List Gid) (count : Nat) : Bool :=
  (groups.take count).any (· == target)

structure GroupState where
  turns : Nat
  sawProbeEinval : Bool
  lastEinvalGroupCount : Int

section
variable (maxGroups : Int) (answers : Nat → GroupAnswers) (target : Gid)

def groupTurn (st : GroupState) : GroupState ⊕ Bool :=
  match (answers st.turns).probe with
  | .error errno =>
      if errno = einvalNumber then
        if st.sawProbeEinval then .inr false
        else .inl { st with turns := st.turns + 1, sawProbeEinval := true }
      else .inr false
  | .ok count =>
      if count = 0 then .inr false
      else if maxGidCount < count then .inr false
      else if (answers st.turns).allocated = false then .inr false
      else
        match (answers st.turns).fetch count with
        | .ok groups =>
            .inr (vsyscallGroupListContains target groups.val groups.val.length)
        | .error errno =>
            if errno ≠ einvalNumber then .inr false
            else if (count : Int) ≤ st.lastEinvalGroupCount then .inr false
            else if (count : Int) ≥ maxGroups then .inr false
            else .inl ⟨st.turns + 1, false, count⟩

/-- What `getegid` or `getgid` returns. -/
def primaryGid (gid egid : Gid) (useEffectiveIds : Bool) : Gid :=
  if useEffectiveIds then egid else gid

def GroupState.start : GroupState :=
  ⟨0, false, -1⟩

/-- The state before the loop, or what is returned without it. -/
def vsyscallProcessInGroup (gid egid : Gid) (useEffectiveIds : Bool) : GroupState ⊕ Bool :=
  if target = primaryGid gid egid useEffectiveIds then .inr true else .inl .start

/-- The counts still to come before the limit, and then whether a probe may still be repeated. -/
def GroupState.left (st : GroupState) : Nat × Nat :=
  ((maxGroups - st.lastEinvalGroupCount).toNat, if st.sawProbeEinval then 0 else 1)

abbrev GroupState.Less (st next : GroupState) : Prop :=
  Prod.Lex (· < ·) (· < ·) (st.left maxGroups) (next.left maxGroups)

theorem GroupState.wellFounded_less : WellFounded (GroupState.Less maxGroups) :=
  InvImage.wf (GroupState.left maxGroups) (Nat.lt_wfRel.wf.prod_lex Nat.lt_wfRel.wf)

end

variable {maxGroups : Int} {answers : Nat → GroupAnswers} {target : Gid}

/-- A turn is followed by another after the first failed probe in a row, or after a failed fetch
of more entries than at the one before. -/
theorem groupTurn_next {st next : GroupState}
    (h : groupTurn maxGroups answers target st = .inl next) :
    (st.sawProbeEinval = false ∧ next.sawProbeEinval = true ∧
      next.lastEinvalGroupCount = st.lastEinvalGroupCount) ∨
    (st.lastEinvalGroupCount < next.lastEinvalGroupCount ∧
      next.lastEinvalGroupCount < maxGroups) := by
  unfold groupTurn at h
  cases hprobe : (answers st.turns).probe with
  | error errno =>
      rw [hprobe] at h
      dsimp only at h
      split at h
      · split at h
        · cases h
        · rename_i hsaw
          obtain rfl := Sum.inl.inj h
          exact .inl ⟨Bool.eq_false_iff.mpr hsaw, rfl, rfl⟩
      · cases h
  | ok count =>
      rw [hprobe] at h
      dsimp only at h
      split at h
      · cases h
      split at h
      · cases h
      split at h
      · cases h
      split at h
      · cases h
      split at h
      · cases h
      split at h
      · cases h
      split at h
      · cases h
      rename_i hgrown hbelow
      obtain rfl := Sum.inl.inj h
      exact .inr ⟨Int.not_le.mp hgrown, Int.not_le.mp hbelow⟩

theorem groupTurn_less {st next : GroupState}
    (h : groupTurn maxGroups answers target st = .inl next) :
    GroupState.Less maxGroups next st := by
  unfold GroupState.Less GroupState.left
  rw [Prod.lex_def]
  rcases groupTurn_next h with ⟨hfirst, hsaw, hsame⟩ | ⟨hgrown, hbelow⟩
  · right
    rw [hfirst, hsaw, hsame]
    exact ⟨rfl, Nat.one_pos⟩
  · left
    dsimp only
    omega

theorem vsyscallGroupListContains_iff {groups : List Gid} :
    vsyscallGroupListContains target groups groups.length = true ↔ target ∈ groups := by
  unfold vsyscallGroupListContains
  rw [List.take_length, List.any_beq', List.contains_iff_mem]

/-- A turn answers yes only on a list it has been given. -/
theorem groupTurn_true {st : GroupState}
    (h : groupTurn maxGroups answers target st = .inr true) :
    ∃ groups, (answers st.turns).fetched = some groups ∧ target ∈ groups := by
  unfold groupTurn at h
  unfold GroupAnswers.fetched
  cases hprobe : (answers st.turns).probe with
  | error errno =>
      rw [hprobe] at h
      dsimp only at h
      split at h
      · split at h <;> cases h
      · cases h
  | ok count =>
      rw [hprobe] at h
      dsimp only at h ⊢
      split at h
      · cases h
      rename_i hcount
      split at h
      · cases h
      rename_i hsize
      split at h
      · cases h
      rename_i hallocated
      rw [if_neg (by simp [hcount, hsize, hallocated])]
      cases hfetch : (answers st.turns).fetch count with
      | ok groups =>
          rw [hfetch] at h
          exact ⟨groups.val, rfl, vsyscallGroupListContains_iff.mp (Sum.inr.inj h)⟩
      | error errno =>
          rw [hfetch] at h
          dsimp only at h
          split at h
          · cases h
          split at h
          · cases h
          split at h
          · cases h
          · cases h

/-- The lookup ends whatever `getgroups` answers, and it says yes only for the primary group or on
a list that one of its calls returned. -/
theorem vsyscallProcessInGroup_returns (maxGroupsLong : Int) (answers : Nat → GroupAnswers)
    (target gid egid : Gid) (useEffectiveIds : Bool) :
    ∃ b, Loop.Returns (groupTurn (kMaxGroups maxGroupsLong) answers target)
        (vsyscallProcessInGroup target gid egid useEffectiveIds) b ∧
      (b = true → target = primaryGid gid egid useEffectiveIds ∨
        ∃ st groups, Loop.Reaches (groupTurn (kMaxGroups maxGroupsLong) answers target)
            .start st ∧
          (answers st.turns).fetched = some groups ∧ target ∈ groups) := by
  unfold vsyscallProcessInGroup
  split
  · rename_i hprimary
    exact ⟨true, Loop.returns_inr.mpr rfl, fun _ => .inl hprimary⟩
  · obtain ⟨b, hreturns, -⟩ := Loop.exists_returns (fun _ => True) (fun _ => True)
      (GroupState.wellFounded_less (kMaxGroups maxGroupsLong))
      (fun _ _ _ hturn => ⟨trivial, groupTurn_less hturn⟩)
      (fun _ _ _ _ => trivial) (s := .start) trivial
    refine ⟨b, hreturns, ?_⟩
    rintro rfl
    obtain ⟨st, hreach, hanswer⟩ := hreturns.last
    obtain ⟨groups, hfetched, hmem⟩ := groupTurn_true hanswer
    exact .inr ⟨st, groups, hreach, hfetched, hmem⟩

end HostPimSim.Vfile
