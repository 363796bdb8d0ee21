import HostPimSim.Vfile.AttrSections

/-! The access mode of an attribute against what its open files do, in any interleaving of
their calls with stores that change the mode. -/
namespace HostPimSim.Vfile.Attribute
open Transition

/-- The flags that the descriptor an action uses was opened with. -/
def Action.opened (s : State) : Action → Option Flags
  | .openEnd i => ((s.opens[i]?).join).map Opening.flags
  | .file fd _ | .writeBegin fd _ _ _ => (s.find fd).map fun row => row.2.opened
  | .writeEnd i _ => (s.slots[i]?).map Slot.opened
  | .writeAttr _ _ _ | .removeAttr | .openBegin _ _ | .dup _ => none

def Action.isSyscall : Action → Bool
  | .writeAttr _ _ _ | .removeAttr => false
  | _ => true

def openedForWriting (flags : Flags) : Bool := !fdOpenedWithPathOnly flags && fdCanWrite flags

def openedForReading (flags : Flags) : Bool :=
  !fdOpenedWithPathOnly flags && (fdAccessMode flags == 0 || fdAccessMode flags == oRdwr)

/-- What a syscall stores it may store, and what a read returns was held by the attribute
together with an access mode that lets it be read. -/
structure Respects (s : State) (a : Action) (t : State) : Prop where
  stores : a.isSyscall = true → t.object ≠ s.object →
    (a.opened s).any openedForWriting = true ∧
      (s.object.attr.map Attr.access).any AccessMode.allowsWrite = true
  reads : ∀ fd count copied data, a = .file fd (.read count copied) →
    t.log = s.log ++ [(.file fd (.read count copied), .bytes data)] →
    (a.opened s).any openedForReading = true ∧
      ∃ attr ∈ s.held, attr.access.allowsRead = true ∧
        ∃ offset, data = (attr.value.drop offset).take count

variable {flags mask bits requested : Flags}

theorem replace_and_bits (h : mask &&& bits = 0) :
    ((flags &&& ~~~mask) ||| (requested &&& mask)) &&& bits = flags &&& bits := by
  ext i hi
  have hbit := congrArg (fun word : Flags => word[i]) h
  simp only [BitVec.getElem_and] at hbit
  simp only [BitVec.getElem_and, BitVec.getElem_or, BitVec.getElem_not]
  cases hmask : mask[i] <;> simp_all

theorem setFl_accessMode (e : Entry) (requested : Flags) :
    fdAccessMode (setFl e requested).1.flags = fdAccessMode e.flags := by
  unfold setFl
  split
  · rfl
  · exact replace_and_bits (by decide)

theorem setFl_path (e : Entry) (requested : Flags) :
    fdOpenedWithPathOnly (setFl e requested).1.flags = fdOpenedWithPathOnly e.flags := by
  unfold setFl
  split
  · rfl
  · unfold fdOpenedWithPathOnly has
    rw [replace_and_bits (by decide)]

theorem setFd_and_bits (e : Entry) (cloexec : Bool) (h : oCloexec &&& bits = 0) :
    (setFd e cloexec).1.flags &&& bits = e.flags &&& bits := by
  have hreplace : ∀ word : Flags,
      ((e.flags &&& ~~~oCloexec) ||| (word &&& oCloexec)) &&& bits = e.flags &&& bits :=
    fun _ => replace_and_bits h
  unfold setFd
  cases cloexec with
  | false => simpa using hreplace 0
  | true =>
      rw [if_pos rfl, ← hreplace oCloexec]
      ext i hi
      simp only [BitVec.getElem_and, BitVec.getElem_or, BitVec.getElem_not]
      cases oCloexec[i] <;> simp

theorem accessMode_cases (flags : Flags) :
    fdAccessMode flags = 0 ∨ fdAccessMode flags = oWronly ∨ fdAccessMode flags = oRdwr ∨
      fdAccessMode flags = oAccmode := by
  have hle : (fdAccessMode flags).toNat ≤ 3 := by
    unfold fdAccessMode
    rw [BitVec.toNat_and]
    exact Nat.and_le_right
  generalize fdAccessMode flags = mode at hle
  have hmode : mode = BitVec.ofNat 32 mode.toNat := by simp
  generalize mode.toNat = n at hle hmode
  subst hmode
  have hn : n = 0 ∨ n = 1 ∨ n = 2 ∨ n = 3 := by omega
  rcases hn with rfl | rfl | rfl | rfl <;> decide

/-- The entry has the access bits it was opened with, and what it has cached was held by the
attribute in one piece. -/
structure EntryGuarded (held : List Attr) (opened : Flags) (e : Entry) : Prop where
  mode : fdAccessMode e.flags = fdAccessMode opened
  path : fdOpenedWithPathOnly e.flags = fdOpenedWithPathOnly opened
  copy : e.cachedRevision = 0 ∨ ⟨e.cachedValue, e.cachedAccess⟩ ∈ held

structure SlotGuarded (held : List Attr) (slot : Slot) : Prop where
  entry : EntryGuarded held slot.opened slot.entry
  checked : fdOpenedWithPathOnly slot.opened = false → fdAccessMode slot.opened ≠ oAccmode
  writing : slot.writing.isSome = true → openedForWriting slot.opened = true

structure Guarded (held : List Attr) (s : State) : Prop where
  revision : s.object.revision ≠ 0
  slots : ∀ slot ∈ s.slots, SlotGuarded held slot
  opens : ∀ opening, some opening ∈ s.opens → openedForWriting opening.flags = true

variable {s t : State} {held more : List Attr} {opened : Flags} {slot : Slot} {o : Object}
  {e fresh : Entry} {copied : Bool}

theorem EntryGuarded.mono (h : EntryGuarded held opened e) :
    EntryGuarded (held ++ more) opened e :=
  ⟨h.mode, h.path, h.copy.imp_right fun hmem => List.mem_append_left _ hmem⟩

theorem Guarded.mono (h : Guarded held s) : Guarded (held ++ more) s :=
  ⟨h.revision, fun slot hslot =>
    ⟨(h.slots slot hslot).entry.mono, (h.slots slot hslot).checked, (h.slots slot hslot).writing⟩,
    h.opens⟩

theorem EntryGuarded.canWrite (h : EntryGuarded held opened e)
    (hpath : fdOpenedWithPathOnly e.flags = false) (hwrite : fdCanWrite e.flags = true) :
    openedForWriting opened = true := by
  unfold openedForWriting
  unfold fdCanWrite at hwrite ⊢
  rw [← h.path, ← h.mode, hpath, hwrite]
  rfl

theorem EntryGuarded.canRead (h : EntryGuarded held opened e)
    (hchecked : fdOpenedWithPathOnly opened = false → fdAccessMode opened ≠ oAccmode)
    (hpath : fdOpenedWithPathOnly e.flags = false) (hread : fdAccessMode e.flags ≠ oWronly) :
    openedForReading opened = true := by
  rw [h.path] at hpath
  rw [h.mode] at hread
  have hmode := hchecked hpath
  unfold openedForReading
  rw [hpath]
  rcases accessMode_cases opened with h0 | h1 | h2 | h3
  · rw [h0]
    rfl
  · exact absurd h1 hread
  · rw [h2]
    rfl
  · exact absurd h3 hmode

theorem refreshCache_guarded (h : EntryGuarded held opened e)
    (hcurrent : ∀ attr ∈ o.attr, attr ∈ held) (hrefresh : refreshCache o e copied = .ok fresh) :
    EntryGuarded held opened fresh := by
  rcases refreshCache_ok hrefresh with ⟨_, rfl⟩ | ⟨_, attr, hattr, rfl⟩
  · exact h
  · exact ⟨h.mode, h.path, .inr (hcurrent attr hattr)⟩

theorem refreshCache_held (h : EntryGuarded held opened e) (hrevision : o.revision ≠ 0)
    (hcurrent : ∀ attr ∈ o.attr, attr ∈ held) (hrefresh : refreshCache o e copied = .ok fresh) :
    ⟨fresh.cachedValue, fresh.cachedAccess⟩ ∈ held := by
  have hcopy := (refreshCache_guarded h hcurrent hrefresh).copy
  rw [refreshCache_revision hrefresh] at hcopy
  exact hcopy.resolve_left hrevision

theorem readFromValue_guarded {value : List UInt8} {count : Nat}
    (h : EntryGuarded held opened e) : EntryGuarded held opened (readFromValue e value count).1 :=
  ⟨h.mode, h.path, h.copy⟩

theorem fileCall_guarded {call : FileCall} (h : EntryGuarded held opened e)
    (hcurrent : ∀ attr ∈ o.attr, attr ∈ held) (hwrite : call.isWrite = false) :
    EntryGuarded held opened (fileCall o e call).2.1 := by
  cases call with
  | write data copied edited stored => cases hwrite
  | read count copied =>
      dsimp only [fileCall, dispatchAttrRead]
      split
      · exact h
      · split
        · exact h
        · split
          · exact h
          · rename_i fresh hrefresh
            have hfresh := refreshCache_guarded h hcurrent hrefresh
            split
            · exact readFromValue_guarded hfresh
            · exact hfresh
  | lseek offset whence =>
      dsimp only [fileCall, dispatchLseek]
      split
      · exact h
      · split
        · exact h
        · exact ⟨h.mode, h.path, h.copy⟩
  | setFl requested =>
      refine ⟨(setFl_accessMode e requested).trans h.mode, (setFl_path e requested).trans h.path, ?_⟩
      dsimp only [fileCall, setFl]
      split <;> exact h.copy
  | setFd cloexec =>
      refine ⟨(setFd_and_bits e cloexec (by decide)).trans h.mode, ?_, h.copy⟩
      rw [← h.path]
      unfold fdOpenedWithPathOnly has
      rw [fileCall, setFd_and_bits e cloexec (by decide)]

theorem beginWrite_guarded (data : List UInt8) (copied edited : Bool)
    (h : EntryGuarded held opened e) (hcurrent : ∀ attr ∈ o.attr, attr ∈ held) :
    EntryGuarded held opened (beginWrite o e data copied edited).1 := by
  rcases beginWrite_entry o e data copied edited with hsame | hrefresh
  · rw [hsame]
    exact h
  · exact refreshCache_guarded h hcurrent hrefresh

theorem openAttrNode_ok {truncated : Bool} {access : AccessMode}
    (h : openAttrNode flags access = .ok truncated) :
    (fdOpenedWithPathOnly flags = false → fdAccessMode flags ≠ oAccmode) ∧
      (truncated = true → openedForWriting flags = true) := by
  unfold openAttrNode at h
  dsimp only at h
  split at h
  · cases h
  · split at h
    · rename_i hpath
      cases h
      exact ⟨fun hfalse => by simp [hpath] at hfalse, fun hfalse => by cases hfalse⟩
    · rename_i hpath
      split at h
      · cases h
      · rename_i hmode
        split at h
        · cases h
        · split at h
          · cases h
          · split at h
            · cases h
            · rename_i htrunc
              cases h
              refine ⟨fun _ => hmode, fun htruncated => ?_⟩
              have hwrite : fdCanWrite flags = true :=
                eq_true_of_ne_false fun hno => htrunc ⟨htruncated, hno⟩
              rw [openedForWriting, Bool.eq_false_iff.mpr hpath, hwrite]
              rfl

theorem openResolvedAttr_ok {truncated : Bool} {access : AccessMode}
    (h : openResolvedAttr flags access = .ok truncated) :
    (fdOpenedWithPathOnly flags = false → fdAccessMode flags ≠ oAccmode) ∧
      (truncated = true → openedForWriting flags = true) := by
  unfold openResolvedAttr at h
  split at h
  · cases h
  · exact openAttrNode_ok h

theorem Guarded.set_slot {i : Nat} {after : Slot} (h : Guarded held s)
    (hafter : SlotGuarded held after) :
    Guarded held { s with slots := s.slots.set i after } :=
  ⟨h.revision, Threads.forall_mem_set h.slots hafter, h.opens⟩

theorem Guarded.set_object (h : Guarded held s) (hrevision : o.revision ≠ 0) :
    Guarded held { s with object := o } :=
  ⟨hrevision, h.slots, h.opens⟩

theorem Guarded.returns {call : Call} {result : Result} (h : Guarded held s) :
    Guarded held (s.returns call result) :=
  ⟨h.revision, h.slots, h.opens⟩

theorem Guarded.bind (h : Guarded held s)
    (hchecked : fdOpenedWithPathOnly flags = false → fdAccessMode flags ≠ oAccmode) :
    Guarded held (s.bind flags) :=
  ⟨h.revision, Threads.forall_mem_push h.slots
    ⟨⟨rfl, rfl, .inl rfl⟩, hchecked, fun hsome => by cases hsome⟩, h.opens⟩

theorem Guarded.openBegin {allocated : Bool} (h : Guarded held s) :
    Guarded held (openBegin s flags allocated) := by
  unfold Attribute.openBegin
  split
  · exact h.returns
  · split
    · exact h.returns
    · rename_i truncated hnode
      obtain ⟨hchecked, htruncates⟩ := openResolvedAttr_ok hnode
      split
      · exact h.returns
      · split
        · rename_i htruncated
          refine ⟨h.revision, h.slots, fun opening hopening => ?_⟩
          rcases List.mem_append.mp hopening with hold | hnew
          · exact h.opens opening hold
          · cases List.mem_singleton.mp hnew
            exact htruncates htruncated
        · exact (h.bind hchecked).returns

theorem truncateAttrForOpen_ok {object : Object} (h : truncateAttrForOpen o = .ok object) :
    object.revision ≠ 0 ∧ (o.attr.map Attr.access).any AccessMode.allowsWrite = true := by
  unfold truncateAttrForOpen at h
  split at h
  · cases h
  · rename_i attr hattr
    split at h
    · rename_i haccess
      cases h
      rw [hattr]
      exact ⟨bumpNonzeroRevision_ne_zero _, haccess⟩
    · cases h

theorem openedForWriting_iff :
    openedForWriting flags = true ↔
      fdOpenedWithPathOnly flags = false ∧ fdCanWrite flags = true := by
  unfold openedForWriting
  simp

theorem Guarded.openEnd {i : Nat} {opening : Opening} (h : Guarded held s)
    (hopening : some opening ∈ s.opens) : Guarded held (openEnd s i opening) := by
  have hclosed : Guarded held { s with opens := s.opens.set i none } := by
    refine ⟨h.revision, h.slots, fun other hother => ?_⟩
    rcases List.mem_or_eq_of_mem_set hother with hold | hnew
    · exact h.opens other hold
    · cases hnew
  have hmode : fdAccessMode opening.flags ≠ oAccmode := by
    obtain ⟨_, hwrite⟩ := openedForWriting_iff.mp (h.opens opening hopening)
    intro hmode
    rw [fdCanWrite, hmode] at hwrite
    revert hwrite
    decide
  unfold Attribute.openEnd
  split
  · exact hclosed.returns
  · rename_i object htrunc
    exact ((hclosed.set_object (truncateAttrForOpen_ok htrunc).1).bind fun _ => hmode).returns

theorem Guarded.writeEnd {i : Nat} {w : Writing} {stored : Bool} (h : Guarded held s)
    (hslot : slot ∈ s.slots) :
    Guarded (held ++ (writeEnd s i slot w stored).object.attr.toList)
      (writeEnd s i slot w stored) := by
  have hguarded := h.slots slot hslot
  unfold Attribute.writeEnd
  rcases endWrite_cases s.object slot.entry w.data w.edit stored with
    ⟨errno, hend⟩ | ⟨attr, _, _, hend⟩
  · rw [hend]
    have hafter : SlotGuarded held { slot with writing := none } :=
      ⟨hguarded.entry, hguarded.checked, fun hsome => by cases hsome⟩
    exact (h.set_slot hafter).mono.returns
  · rw [hend]
    refine Guarded.returns (Guarded.set_slot (h.mono.set_object ?_) ?_)
    · exact bumpNonzeroRevision_ne_zero _
    · exact ⟨⟨hguarded.entry.mode, hguarded.entry.path, .inr (by simp [State.returns])⟩,
        hguarded.checked, fun hsome => by cases hsome⟩

theorem Guarded.move {a : Action} (h : Guarded s.held s)
    (hcurrent : ∀ attr ∈ s.object.attr, attr ∈ s.held) (hmove : move s a = some t) :
    Guarded (s.held ++ t.object.attr.toList) t := by
  cases a with
  | writeAttr value access outcome =>
      cases hmove
      refine ((h.set_object ?_).mono).returns
      cases outcome with
      | stored => exact bumpNonzeroRevision_ne_zero _
      | undone => exact h.revision
      | valueOnly => exact h.revision
  | removeAttr =>
      cases hmove
      refine ((h.set_object ?_).mono).returns
      unfold removeAttr
      split
      · exact h.revision
      · exact bumpNonzeroRevision_ne_zero _
  | openBegin flags allocated =>
      cases hmove
      exact h.openBegin.mono
  | openEnd i =>
      obtain ⟨opening, hopening, rfl⟩ := Option.map_eq_some_iff.mp hmove
      exact (h.openEnd (List.mem_iff_getElem?.mpr ⟨i, Option.join_eq_some_iff.mp hopening⟩)).mono
  | dup fd =>
      obtain ⟨j, _, rfl⟩ := Option.map_eq_some_iff.mp hmove
      exact ⟨h.revision, h.mono.slots, h.opens⟩
  | file fd call =>
      obtain ⟨i, slot, hfind, hread, _, rfl⟩ := move_file hmove
      have hguarded := h.slots slot (List.mem_iff_getElem?.mpr ⟨i, (find_some hfind).2⟩)
      have hafter : SlotGuarded s.held
          { slot with entry := (fileCall s.object slot.entry call).2.1 } :=
        ⟨fileCall_guarded hguarded.entry hcurrent hread, hguarded.checked, hguarded.writing⟩
      unfold fileStep
      rw [fileCall_object hread]
      exact (h.set_slot hafter).mono.returns
  | writeBegin fd data copied edited =>
      obtain ⟨i, slot, hfind, _, rfl⟩ := move_writeBegin hmove
      have hguarded := h.slots slot (List.mem_iff_getElem?.mpr ⟨i, (find_some hfind).2⟩)
      have hentry := beginWrite_guarded data copied edited hguarded.entry hcurrent
      unfold writeBegin
      split
      · rename_i fresh result hbegin
        rw [hbegin] at hentry
        have hafter : SlotGuarded s.held { slot with entry := fresh } :=
          ⟨hentry, hguarded.checked, hguarded.writing⟩
        exact (h.set_slot hafter).mono.returns
      · rename_i fresh edit hbegin
        rw [hbegin] at hentry
        obtain ⟨hpath, hwrite, _⟩ := beginWrite_ok hbegin
        have hafter : SlotGuarded s.held { slot with
            entry := fresh
            writing := some ⟨slot.entry, s.object, fd, data, copied, edited, edit⟩ } :=
          ⟨hentry, hguarded.checked, fun _ => hguarded.entry.canWrite hpath hwrite⟩
        exact (h.set_slot hafter).mono
  | writeEnd i stored =>
      obtain ⟨slot, w, hslot, _, rfl⟩ := move_writeEnd hmove
      exact h.writeEnd (List.mem_iff_getElem?.mpr ⟨i, hslot⟩)

theorem openBegin_same (s : State) (flags : Flags) (allocated : Bool) :
    (openBegin s flags allocated).object = s.object ∧
      (openBegin s flags allocated).held = s.held := by
  unfold openBegin
  repeat' split
  all_goals exact ⟨rfl, rfl⟩

theorem writeBegin_same (s : State) (fd i : Nat) (slot : Slot) (data : List UInt8)
    (copied edited : Bool) :
    (writeBegin s fd i slot data copied edited).object = s.object ∧
      (writeBegin s fd i slot data copied edited).held = s.held := by
  unfold writeBegin
  split <;> exact ⟨rfl, rfl⟩

theorem move_held {a : Action} (hmove : move s a = some t) : t.held = s.held := by
  cases a with
  | writeAttr value access outcome =>
      cases hmove
      rfl
  | removeAttr =>
      cases hmove
      rfl
  | openBegin flags allocated =>
      cases hmove
      exact (openBegin_same s flags allocated).2
  | openEnd i =>
      obtain ⟨opening, _, rfl⟩ := Option.map_eq_some_iff.mp hmove
      unfold openEnd
      split <;> rfl
  | dup fd =>
      obtain ⟨j, _, rfl⟩ := Option.map_eq_some_iff.mp hmove
      rfl
  | file fd call =>
      obtain ⟨i, slot, _, _, _, rfl⟩ := move_file hmove
      rfl
  | writeBegin fd data copied edited =>
      obtain ⟨i, slot, _, _, rfl⟩ := move_writeBegin hmove
      exact (writeBegin_same s fd i slot data copied edited).2
  | writeEnd i stored =>
      obtain ⟨slot, w, _, _, rfl⟩ := move_writeEnd hmove
      rfl

def Guards (s : State) : Prop := Guarded s.held s ∧ ∀ attr ∈ s.object.attr, attr ∈ s.held

theorem step_guards {a : Action} (h : Guards s) (hstep : step s a = some t) : Guards t := by
  obtain ⟨u, hmove, rfl⟩ := Option.map_eq_some_iff.mp hstep
  have hguarded := h.1.move h.2 hmove
  rw [← move_held hmove] at hguarded
  refine ⟨⟨hguarded.revision, hguarded.slots, hguarded.opens⟩, fun attr hattr => ?_⟩
  exact List.mem_append_right _ (Option.mem_toList.mpr hattr)

theorem dispatchAttrRead_bytes {count : Nat} {data : List UInt8}
    (h : (dispatchAttrRead o e count copied).2 = .bytes data) :
    fdOpenedWithPathOnly e.flags = false ∧ fdAccessMode e.flags ≠ oWronly ∧
      ∃ fresh, refreshCache o e copied = .ok fresh ∧ fresh.cachedAccess.allowsRead = true ∧
        ∃ offset, data = (fresh.cachedValue.drop offset).take count := by
  unfold dispatchAttrRead at h
  split at h
  · cases h
  · rename_i hpath
    split at h
    · cases h
    · rename_i hmode
      split at h
      · cases h
      · rename_i fresh hrefresh
        split at h
        · rename_i haccess
          cases h
          exact ⟨Bool.eq_false_iff.mpr hpath, hmode, fresh, hrefresh, haccess, _, rfl⟩
        · cases h

theorem move_reads {fd count : Nat} {data : List UInt8} (h : Guards s)
    (hmove : move s (.file fd (.read count copied)) = some t)
    (hlog : t.log = s.log ++ [(.file fd (.read count copied), .bytes data)]) :
    ((Action.file fd (.read count copied)).opened s).any openedForReading = true ∧
      ∃ attr ∈ s.held, attr.access.allowsRead = true ∧
        ∃ offset, data = (attr.value.drop offset).take count := by
  obtain ⟨i, slot, hfind, _, _, rfl⟩ := move_file hmove
  have hguarded := h.1.slots slot (List.mem_iff_getElem?.mpr ⟨i, (find_some hfind).2⟩)
  have hresult : (dispatchAttrRead s.object slot.entry count copied).2 = .bytes data := by
    simpa [fileStep, State.returns, fileCall] using hlog
  obtain ⟨hpath, hmode, fresh, hrefresh, haccess, hdata⟩ := dispatchAttrRead_bytes hresult
  constructor
  · rw [Action.opened, hfind]
    exact hguarded.entry.canRead hguarded.checked hpath hmode
  · exact ⟨_, refreshCache_held hguarded.entry h.1.revision h.2 hrefresh, haccess, hdata⟩

theorem move_stores {a : Action} (h : Guards s) (hmove : move s a = some t)
    (hsyscall : a.isSyscall = true) (hchanged : t.object ≠ s.object) :
    (a.opened s).any openedForWriting = true ∧
      (s.object.attr.map Attr.access).any AccessMode.allowsWrite = true := by
  cases a with
  | writeAttr value access outcome => cases hsyscall
  | removeAttr => cases hsyscall
  | openBegin flags allocated =>
      cases hmove
      exact absurd (openBegin_same s flags allocated).1 hchanged
  | openEnd i =>
      obtain ⟨opening, hopening, rfl⟩ := Option.map_eq_some_iff.mp hmove
      have hmem := List.mem_iff_getElem?.mpr ⟨i, Option.join_eq_some_iff.mp hopening⟩
      unfold openEnd at hchanged
      split at hchanged
      · exact absurd rfl hchanged
      · rename_i object htrunc
        rw [Action.opened, hopening]
        exact ⟨h.1.opens opening hmem, (truncateAttrForOpen_ok htrunc).2⟩
  | dup fd =>
      obtain ⟨j, _, rfl⟩ := Option.map_eq_some_iff.mp hmove
      exact absurd rfl hchanged
  | file fd call =>
      obtain ⟨i, slot, _, hread, _, rfl⟩ := move_file hmove
      exact absurd (fileCall_object hread s.object slot.entry) hchanged
  | writeBegin fd data copied edited =>
      obtain ⟨i, slot, _, _, rfl⟩ := move_writeBegin hmove
      exact absurd (writeBegin_same s fd i slot data copied edited).1 hchanged
  | writeEnd i stored =>
      obtain ⟨slot, w, hslot, hw, rfl⟩ := move_writeEnd hmove
      have hguarded := h.1.slots slot (List.mem_iff_getElem?.mpr ⟨i, hslot⟩)
      rcases endWrite_cases s.object slot.entry w.data w.edit stored with
        ⟨errno, hend⟩ | ⟨attr, hattr, haccess, _⟩
      · exact absurd (congrArg Prod.fst hend) hchanged
      · rw [Action.opened, hslot, hattr]
        exact ⟨hguarded.writing (Option.isSome_of_mem hw), haccess⟩

theorem init_guards {object : Object} (hrevision : object.revision ≠ 0) :
    Guards (init object) := by
  refine ⟨⟨hrevision, ?_, ?_⟩, fun attr hattr => Option.mem_toList.mpr hattr⟩
  · intro slot hslot
    cases hslot
  · intro opening hopening
    cases hopening

/-- In every state that a run reaches, whatever the next step is. -/
theorem access_mode_respected {object : Object} {actions : List Action} {a : Action}
    (hrevision : object.revision ≠ 0) (hrun : run step (init object) actions = some s)
    (hstep : step s a = some t) : Respects s a t := by
  have hguards : Guards s :=
    run_invariant (fun s a t h hstep => step_guards h hstep) (init_guards hrevision) hrun
  obtain ⟨u, hmove, rfl⟩ := Option.map_eq_some_iff.mp hstep
  constructor
  · intro hsyscall hchanged
    exact move_stores hguards hmove hsyscall hchanged
  · intro fd count copied data ha hlog
    subst ha
    exact move_reads hguards hmove hlog

theorem access_mode_respected_reopened :
    ∃ s t, run step (init ⟨some ⟨[97], .rw⟩, 1⟩)
      [.openBegin oRdwr true, .writeAttr [98] .ro .stored, .file 0 (.read 1 true),
        .writeAttr [98] .rw .stored, .writeBegin 0 [99] true true] = some s ∧
      step s (.writeEnd 0 true) = some t ∧ t.object.attr = some ⟨[98, 99], .rw⟩ ∧
      Respects s (.writeEnd 0 true) t := by
  have hrun : ∃ s, run step (init ⟨some ⟨[97], .rw⟩, 1⟩)
      [.openBegin oRdwr true, .writeAttr [98] .ro .stored, .file 0 (.read 1 true),
        .writeAttr [98] .rw .stored, .writeBegin 0 [99] true true] = some s ∧
      (step s (.writeEnd 0 true)).any (fun t => t.object.attr = some ⟨[98, 99], .rw⟩) = true :=
    exists_run (by decide +kernel)
  obtain ⟨s, hrun, hany⟩ := hrun
  obtain ⟨t, hstep, hvalue⟩ := (Option.any_eq_true _ _).mp hany
  exact ⟨s, t, hrun, hstep, of_decide_eq_true hvalue,
    access_mode_respected (by decide) hrun hstep⟩

end HostPimSim.Vfile.Attribute
