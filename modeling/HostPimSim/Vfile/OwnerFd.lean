import HostPimSim.Vfile.Descriptors

/-! `owner_fd`, the descriptor that the callbacks of a device are given as the name of a
session. -/
namespace HostPimSim.Vfile.Descriptors
open Transition

/-- Two live sessions of a device have different owner descriptors. -/
def OwnersUnique (s : State) : Prop :=
  ∀ i j e f vdev, s.entries[i]? = some e → s.entries[j]? = some f →
    hasAlias s.table i = true → hasAlias s.table j = true →
    e.vdev = some vdev → f.vdev = some vdev → e.ownerFd = f.ownerFd → i = j

/-- The descriptor a device node is opened on is not the owner descriptor of a session of
that device which lives on through another alias. -/
def FreshOwner (s : State) : Call → Prop
  | .openVirtual (some vdev) _ _ (some fd) bound _ =>
      fd ∉ s.table → bound = true → ∀ row ∈ s.table.entries, ∀ e ∈ s.entries[row.2]?,
        e.vdev = some vdev → e.ownerFd ≠ some fd
  | _ => True

/-- The kernel hands out the lowest descriptor that is not open. -/
def LowestFree (s : State) : Call → Prop
  | .openVirtual _ _ _ (some fd) _ _ | .openForwarded (some fd) | .dup _ (some fd) _ _ =>
      ∀ lower < fd, lower ∈ s.kernel
  | _ => True

variable {s t : State} {i : Nat} {failing : List Nat}

def Keeps (s t : State) : Prop :=
  t.entries = s.entries ∧ ∀ i, hasAlias t.table i = true → hasAlias s.table i = true

theorem Keeps.refl (s : State) : Keeps s s := ⟨rfl, fun _ halias => halias⟩

theorem Keeps.trans {u : State} (h : Keeps s t) (h' : Keeps t u) : Keeps s u :=
  ⟨h'.1.trans h.1, fun i halias => h.2 i (h'.2 i halias)⟩

theorem Keeps.ownersUnique (h : OwnersUnique s) (hkeeps : Keeps s t) : OwnersUnique t := by
  intro i j e f vdev he hf hi hj
  rw [hkeeps.1] at he hf
  exact h i j e f vdev he hf (hkeeps.2 i hi) (hkeeps.2 j hj)

theorem keeps_closeOwnedFd (s : State) (fd : Nat) : Keeps s (closeOwnedFd failing s fd).1 := by
  unfold closeOwnedFd
  split
  · exact .refl s
  · exact ⟨rfl, fun i halias => hasAlias_of_erase halias⟩

theorem keeps_sweepFd (s : State) (fd : Nat) : Keeps s (sweepFd failing s fd).1 := by
  unfold sweepFd
  split
  · exact .refl s
  · exact keeps_closeOwnedFd s fd

theorem keeps_attempt (turn : State → Nat → State × Bool) (s : State) (fds : List Nat)
    (hturn : ∀ s fd, Keeps s (turn s fd).1) : Keeps s (attempt turn s fds).1 := by
  obtain ⟨_, hkeeps⟩ := attempt_invariant turn (fun _ t => Keeps s t) s fds
    (fun fd _ t h => h.trans (hturn t fd)) (.refl s)
  exact hkeeps

theorem keeps_rebind {target : Nat} {entry : Option Nat} {close bound : Bool}
    (hentry : ∀ i ∈ entry, hasAlias s.table i = true) :
    Keeps s (rebindFdAliasAfterDup s target entry close bound failing).1 := by
  have hrow : Keeps s { s with table := rebindRow s.table target entry } := by
    refine ⟨rfl, fun i halias => ?_⟩
    cases entry with
    | none => exact hasAlias_of_erase halias
    | some entry =>
        rcases hasAlias_of_insert halias with rfl | hold
        · exact hentry entry rfl
        · exact hold
  have hfailed : ∀ t : State, Keeps s t →
      Keeps s (if close then kernelClose t target else t) := by
    intro t ht
    split <;> exact ht
  unfold rebindFdAliasAfterDup
  dsimp only
  split
  · exact hfailed s (.refl s)
  · split
    · split
      · exact hfailed _ hrow
      · exact hrow
    · exact hrow

def Call.opensVirtual : Call → Bool
  | .openVirtual _ _ _ _ _ _ => true
  | _ => false

theorem keeps_dispatch {call : Call} (hopens : call.opensVirtual = false) :
    Keeps s (dispatch s call).1 := by
  cases call with
  | openVirtual vdev closeFn pathOnly fd bound truncated => cases hopens
  | openForwarded fd => cases fd <;> exact .refl s
  | close fd succeeds failing =>
      dsimp only [dispatch, dispatchClose]
      split
      · exact keeps_closeOwnedFd s fd
      · exact .refl s
  | dup oldfd newfd bound failing =>
      dsimp only [dispatch, dispatchDup]
      split
      · exact .refl s
      · rename_i newfd
        split
        · exact .refl s
        · rename_i entry hentry
          refine keeps_rebind (s := kernelDup s oldfd newfd) fun i hi => ?_
          obtain rfl := Option.some.inj hi
          exact hasAlias_of_lookup hentry
  | dup2 oldfd newfd isDup3 succeeds bound failing =>
      dsimp only [dispatch, dispatchDup2]
      split
      · exact .refl s
      · split
        · exact .refl s
        · split
          · exact keeps_rebind (s := kernelDup s oldfd newfd) fun i hi =>
              hasAlias_of_lookup hi
          · exact .refl s
  | fcntl fd cmd newfd =>
      dsimp only [dispatch, dispatchFcntl]
      split
      · exact .refl s
      · cases cmd with
        | dupfd minimum => cases newfd <;> exact .refl s
        | _ => exact .refl s
  | closeRange first last cloexec succeeds failing =>
      dsimp only [dispatch, dispatchCloseRange]
      split
      · exact .refl s
      · split
        · exact .refl s
        · have hclosed : Keeps s (attempt (closeOwnedFd failing) (kernelCloseRange s first last)
              (collectOwnedFdsInRange s.table first last)).1 :=
            keeps_attempt _ (kernelCloseRange s first last) _ keeps_closeOwnedFd
          dsimp only [finalizeCloseRangeAliases]
          split
          · exact hclosed.trans (keeps_attempt _ _ _ keeps_sweepFd)
          · exact hclosed

def Bounded (s : State) : Prop :=
  ∀ i, hasAlias s.table i = true → i < s.entries.length

theorem Keeps.bounded (h : Bounded s) (hkeeps : Keeps s t) : Bounded t := by
  intro i halias
  rw [hkeeps.1]
  exact h i (hkeeps.2 i halias)

theorem openVirtual_cases (s : State) (vdev opened : Option Nat)
    (closeFn pathOnly bound truncated : Bool) :
    Keeps s (openVirtual s vdev closeFn pathOnly opened bound truncated).1 ∨
      ∃ fd entry, opened = some fd ∧ entry.vdev = vdev ∧
        entry.ownerFd = (vdev.map fun _ => fd) ∧
        (openVirtual s vdev closeFn pathOnly opened bound truncated).1.entries =
          s.entries ++ [entry] ∧
        ((∀ i, hasAlias (openVirtual s vdev closeFn pathOnly opened bound truncated).1.table i =
            true → hasAlias s.table i = true) ∨
          fd ∉ s.table ∧ bound = true ∧
            (openVirtual s vdev closeFn pathOnly opened bound truncated).1.table =
              s.table.insert fd s.entries.length) := by
  unfold openVirtual
  cases opened with
  | none => exact .inl (.refl s)
  | some fd =>
      refine .inr ⟨fd, ⟨vdev, closeFn, pathOnly, vdev.map fun _ => fd⟩, rfl, rfl, rfl, ?_⟩
      dsimp only
      split
      · exact ⟨rfl, .inl fun i halias => halias⟩
      · rename_i hbind
        rw [not_or, Bool.not_eq_false] at hbind
        split
        · refine ⟨rfl, .inl fun i halias => ?_⟩
          obtain ⟨j, hj⟩ := hasAlias_iff.mp halias
          have hne : j ≠ fd := by
            rintro rfl
            simp [kernelClose] at hj
          refine hasAlias_iff.mpr ⟨j, ?_⟩
          simpa [kernelClose, AList.lookup_erase_ne hne, AList.lookup_insert_ne hne] using hj
        · exact ⟨rfl, .inr ⟨hbind.1, hbind.2, rfl⟩⟩

theorem freshOwner_ne {vdev opened : Option Nat} {closeFn pathOnly bound truncated : Bool}
    {fd device : Nat} {entry f : Entry} {j : Nat}
    (hok : FreshOwner s (.openVirtual vdev closeFn pathOnly opened bound truncated))
    (hopened : opened = some fd) (hvdev : entry.vdev = vdev)
    (howner : entry.ownerFd = vdev.map fun _ => fd) (hdevice : entry.vdev = some device)
    (hnew : fd ∉ s.table) (hbound : bound = true) (hf : s.entries[j]? = some f)
    (hlive : hasAlias s.table j = true) (hfvdev : f.vdev = some device) :
    entry.ownerFd ≠ f.ownerFd := by
  obtain rfl : vdev = some device := hvdev.symm.trans hdevice
  subst hopened
  obtain ⟨other, hother⟩ := hasAlias_iff.mp hlive
  have hne := hok hnew hbound ⟨other, j⟩ (AList.mem_lookup_iff.mp hother) f hf hfvdev
  rw [howner]
  exact fun heq => hne heq.symm

theorem ownersUnique_openVirtual {vdev opened : Option Nat}
    {closeFn pathOnly bound truncated : Bool} (h : OwnersUnique s) (hbounded : Bounded s)
    (hok : FreshOwner s (.openVirtual vdev closeFn pathOnly opened bound truncated)) :
    OwnersUnique (openVirtual s vdev closeFn pathOnly opened bound truncated).1 ∧
      Bounded (openVirtual s vdev closeFn pathOnly opened bound truncated).1 := by
  rcases openVirtual_cases s vdev opened closeFn pathOnly bound truncated with
    hkeeps | ⟨fd, entry, hopened, hvdev, howner, hentries, halias⟩
  · exact ⟨hkeeps.ownersUnique h, hkeeps.bounded hbounded⟩
  generalize (openVirtual s vdev closeFn pathOnly opened bound truncated).1 = t at *
  -- an alias in the new table is an old one, or the new session has been bound
  have hold : ∀ i, hasAlias t.table i = true → hasAlias s.table i = true ∨
      i = s.entries.length ∧ fd ∉ s.table ∧ bound = true := by
    intro i hi
    rcases halias with hsame | ⟨hnew, hbound, htable⟩
    · exact .inl (hsame i hi)
    · rw [htable] at hi
      rcases hasAlias_of_insert hi with rfl | hbefore
      · exact .inr ⟨rfl, hnew, hbound⟩
      · exact .inl hbefore
  have hindex : ∀ {i e}, t.entries[i]? = some e → hasAlias t.table i = true →
      (s.entries[i]? = some e ∧ hasAlias s.table i = true) ∨
        (i = s.entries.length ∧ e = entry ∧ fd ∉ s.table ∧ bound = true) := by
    intro i e he hi
    rw [hentries] at he
    rcases hold i hi with hbefore | ⟨rfl, hnew, hbound⟩
    · have hlt := hbounded i hbefore
      rw [List.getElem?_append_left hlt] at he
      exact .inl ⟨he, hbefore⟩
    · simp only [List.getElem?_concat_length, Option.some.injEq] at he
      exact .inr ⟨rfl, he.symm, hnew, hbound⟩
  constructor
  · intro i j e f device he hf hi hj hedev hfdev howners
    rcases hindex he hi with ⟨he, hi⟩ | ⟨rfl, rfl, hnew, hbound⟩
    · rcases hindex hf hj with ⟨hf, hj⟩ | ⟨rfl, rfl, hnew, hbound⟩
      · exact h i j e f device he hf hi hj hedev hfdev howners
      · exact absurd howners.symm
          (freshOwner_ne hok hopened hvdev howner hfdev hnew hbound he hi hedev)
    · rcases hindex hf hj with ⟨hf, hj⟩ | ⟨rfl, _⟩
      · exact absurd howners
          (freshOwner_ne hok hopened hvdev howner hedev hnew hbound hf hj hfdev)
      · rfl
  · intro i hi
    rw [hentries, List.length_append, List.length_singleton]
    rcases hold i hi with hbefore | ⟨rfl, _⟩
    · have := hbounded i hbefore
      omega
    · omega

theorem ownersUnique_step {call : Call} (h : OwnersUnique s ∧ Bounded s)
    (hok : FreshOwner s call) (hstep : step s call = some t) : OwnersUnique t ∧ Bounded t := by
  unfold step at hstep
  split at hstep <;> cases hstep
  cases call with
  | openVirtual vdev closeFn pathOnly fd bound truncated =>
      exact ownersUnique_openVirtual h.1 h.2 hok
  | _ =>
      exact ⟨(keeps_dispatch rfl).ownersUnique h.1, (keeps_dispatch rfl).bounded h.2⟩

/-- An open that is given the owner descriptor of a live session leaves two sessions with
that name. -/
theorem freshOwner_of_unique {call : Call} (hbounded : Bounded s)
    (hstep : step s call = some t) (hunique : OwnersUnique t) : FreshOwner s call := by
  unfold step at hstep
  split at hstep <;> cases hstep
  cases call with
  | openVirtual vdev closeFn pathOnly opened bound truncated =>
      cases vdev with
      | none => trivial
      | some vdev =>
          cases opened with
          | none => trivial
          | some fd =>
              intro hnew hbound row hrow e he hvdev howner
              have hlive : hasAlias s.table row.2 = true :=
                hasAlias_of_lookup (AList.mem_lookup_iff.mpr hrow)
              have hlt := hbounded row.2 hlive
              have htracked : (openVirtual s (some vdev) closeFn pathOnly (some fd) bound
                  truncated).1 = ⟨s.kernel.insert fd (some s.entries.length),
                    s.table.insert fd s.entries.length,
                    s.entries ++ [⟨some vdev, closeFn, pathOnly, some fd⟩]⟩ := by
                simp [openVirtual, hnew, hbound]
              rw [dispatch, htracked] at hunique
              have hne : s.table.lookup fd ≠ some row.2 := by
                rw [AList.lookup_eq_none.mpr hnew]
                simp
              have hclash := hunique s.entries.length row.2
                ⟨some vdev, closeFn, pathOnly, some fd⟩ e vdev List.getElem?_concat_length
                ((List.getElem?_append_left hlt).trans he) hasAlias_insert_self
                (hasAlias_insert hlive hne) rfl hvdev howner.symm
              omega
  | _ => trivial

/-- In every state a run reaches the owner descriptors are unique if and only if no open of
the run is given the owner descriptor of a session of the device that is still alive. -/
theorem owners_unique_iff_fresh {calls : List Call} (hrun : run step init calls = some t) :
    Meets step (fun s call => ∀ u, step s call = some u → OwnersUnique u) init calls ↔
      Meets step FreshOwner init calls := by
  have hinit : OwnersUnique init ∧ Bounded init := by
    constructor
    · intro i j e f vdev he
      simp [init] at he
    · intro i halias
      cases halias
  apply meets_iff (fun s => OwnersUnique s ∧ Bounded s) ?_ ?_ hinit hrun
  · intro s call u h hstep
    constructor
    · intro hunique
      exact freshOwner_of_unique h.2 hstep (hunique u hstep)
    · intro hok v hv
      exact (ownersUnique_step h hok hv).1
  · intro s call u h hunique hstep
    exact ownersUnique_step h (freshOwner_of_unique h.2 hstep (hunique u hstep)) hstep

instance (s : State) : ∀ call, Decidable (FreshOwner s call)
  | .openVirtual (some vdev) _ _ (some fd) bound _ =>
      inferInstanceAs (Decidable (fd ∉ s.table → bound = true → ∀ row ∈ s.table.entries,
        ∀ e ∈ s.entries[row.2]?, e.vdev = some vdev → e.ownerFd ≠ some fd))
  | .openVirtual (some _) _ _ none _ _ | .openVirtual none _ _ _ _ _ | .openForwarded _
  | .close _ _ _ | .dup _ _ _ _ | .dup2 _ _ _ _ _ _ | .fcntl _ _ _
  | .closeRange _ _ _ _ _ => isTrue trivial

instance (s : State) : ∀ call, Decidable (LowestFree s call)
  | .openVirtual _ _ _ (some fd) _ _ | .openForwarded (some fd) | .dup _ (some fd) _ _ =>
      inferInstanceAs (Decidable (∀ lower < fd, lower ∈ s.kernel))
  | .openVirtual _ _ _ none _ _ | .openForwarded none | .dup _ none _ _ | .close _ _ _
  | .dup2 _ _ _ _ _ _ | .fcntl _ _ _ | .closeRange _ _ _ _ _ => isTrue trivial

theorem owners_unique_iff_fresh_reopened :
    Meets step (fun s call => ∀ u, step s call = some u → OwnersUnique u) init
      [.openVirtual (some 0) true false (some 0) true true, .dup 0 (some 1) true [],
        .openVirtual (some 0) true false (some 2) true true, .close 1 true [],
        .close 0 true [], .openVirtual (some 0) true false (some 0) true true] := by
  have hrun : ∃ t, run step init
      [.openVirtual (some 0) true false (some 0) true true, .dup 0 (some 1) true [],
        .openVirtual (some 0) true false (some 2) true true, .close 1 true [],
        .close 0 true [], .openVirtual (some 0) true false (some 0) true true] = some t ∧
      t.table.keys.length = 2 := exists_run (by decide +kernel)
  obtain ⟨t, hrun, _⟩ := hrun
  exact (owners_unique_iff_fresh hrun).mpr (by decide +kernel)

/-- The owner descriptor is closed while an alias lives on, and the next open gets it. -/
theorem owner_descriptor_recycled :
    ¬∀ calls t, run step init calls = some t → Meets step LowestFree init calls →
      OwnersUnique t := by
  intro h
  have hrun : ∃ t, run step init
      [.openVirtual (some 0) true false (some 0) true true, .dup 0 (some 1) true [],
        .close 0 true [], .openVirtual (some 0) true false (some 0) true true] = some t ∧
      t.entries[0]? = some ⟨some 0, true, false, some 0⟩ ∧
      t.entries[1]? = some ⟨some 0, true, false, some 0⟩ ∧
      hasAlias t.table 0 = true ∧ hasAlias t.table 1 = true := exists_run (by decide +kernel)
  obtain ⟨t, hrun, hfirst, hsecond, hlive, hother⟩ := hrun
  have hclash := h _ t hrun (by decide +kernel) 0 1 _ _ 0 hfirst hsecond hlive hother rfl rfl rfl
  cases hclash

end HostPimSim.Vfile.Descriptors
