import Mathlib.Order.Lattice.Nat
import HostPimSim.Vfile.AttrRevision

/-! Attribute files against byte files: one byte string and a cursor for every open file,
with no cached copies. -/
namespace HostPimSim.Vfile.Attribute
open Transition

structure File where
  flags : Flags
  cursor : Nat
  deriving DecidableEq

structure Reference where
  attr : Option Attr
  files : List File
  fds : List Nat
  deriving DecidableEq

def File.read (attr : Option Attr) (f : File) (count : Nat) : File × Result :=
  if fdOpenedWithPathOnly f.flags = true ∨ fdAccessMode f.flags = oWronly then (f, .error .ebadf)
  else
    match attr with
    | none => (f, .error .enoent)
    | some attr =>
        if attr.access.allowsRead = false then (f, .error .eacces)
        else
          let data := (attr.value.drop f.cursor).take count
          ({ f with cursor := f.cursor + data.length }, .bytes data)

def File.write (attr : Option Attr) (f : File) (data : List UInt8) : Option Attr × File × Result :=
  if fdOpenedWithPathOnly f.flags = true ∨ fdCanWrite f.flags = false then
    (attr, f, .error .ebadf)
  else if data = [] then (attr, f, .count 0)
  else
    match attr with
    | none => (none, f, .error .enoent)
    | some attr =>
        let offset := writeOffset f.flags f.cursor attr.value.length
        if attr.access.allowsWrite = false then (some attr, f, .error .eacces)
        else if endWraps offset data.length = true then (some attr, f, .error .einval)
        else
          (some { attr with value := overwrite attr.value offset data },
            { f with cursor := offset + data.length }, .count data.length)

def File.lseek (f : File) (offset : Int) (whence : Whence) : File × Result :=
  if fdOpenedWithPathOnly f.flags = true then (f, .error .ebadf)
  else
    match seekCursor f.cursor offset whence with
    | none => (f, .error .einval)
    | some cursor => ({ f with cursor }, .count cursor)

def File.setFl (f : File) (requested : Flags) : File × Result :=
  if fdOpenedWithPathOnly f.flags = true then (f, .error .ebadf)
  else
    ({ f with
      flags := (f.flags &&& ~~~setflSupportedMask) ||| (requested &&& setflSupportedMask) },
      .count 0)

def File.setFd (f : File) (cloexec : Bool) : File × Result :=
  ({ f with flags := if cloexec then f.flags ||| oCloexec else f.flags &&& ~~~oCloexec }, .count 0)

def File.call (attr : Option Attr) (f : File) : FileCall → Option Attr × File × Result
  | .read count _ => (attr, f.read attr count)
  | .write data _ _ _ => f.write attr data
  | .lseek offset whence => (attr, f.lseek offset whence)
  | .setFl requested => (attr, f.setFl requested)
  | .setFd cloexec => (attr, f.setFd cloexec)

def Reference.bind (r : Reference) (flags : Flags) : Reference :=
  { r with files := r.files ++ [⟨flags, 0⟩], fds := r.fds ++ [r.files.length] }

def Reference.open (r : Reference) (flags : Flags) (allocated : Bool) : Reference × Result :=
  match r.attr with
  | none => (r, .forwarded)
  | some attr =>
      match openResolvedAttr flags attr.access with
      | .error errno => (r, .error errno)
      | .ok truncated =>
          if allocated = false then (r, .error .emfile)
          else if truncated = true then
            if attr.access.allowsWrite = false then (r, .error .eacces)
            else
              ({ r with attr := some { attr with value := [] } }.bind flags,
                .count r.fds.length)
          else (r.bind flags, .count r.fds.length)

def Reference.call (r : Reference) : Call → Reference × Result
  | .writeAttr value access _ => ({ r with attr := some ⟨value, access⟩ }, .count 0)
  | .removeAttr =>
      if r.attr.isNone = true then (r, .error .enoent) else ({ r with attr := none }, .count 0)
  | .openAttr flags allocated => r.open flags allocated
  | .dup fd =>
      match r.fds[fd]? with
      | none => (r, .forwarded)
      | some i => ({ r with fds := r.fds ++ [i] }, .count r.fds.length)
  | .file fd call =>
      match (r.fds[fd]?).bind fun i => (r.files[i]?).map fun f => (i, f) with
      | none => (r, .forwarded)
      | some (i, f) =>
          ({ r with
            attr := (f.call r.attr call).1
            files := r.files.set i (f.call r.attr call).2.1 },
            (f.call r.attr call).2.2)

def Entry.file (e : Entry) : File := ⟨e.flags, e.readOffset⟩

def Store.reference (s : Store) : Reference :=
  ⟨s.object.attr, s.entries.map Entry.file, s.fds⟩

/-- A call that runs out of memory changes nothing, and any other does what it does to byte
files. -/
def Agrees (s : Store) (call : Call) : Prop :=
  ((dispatch s call).2 = .error .enomem ∧ (dispatch s call).1.reference = s.reference) ∨
    ((dispatch s call).1.reference, (dispatch s call).2) = s.reference.call call

instance (s : Store) (call : Call) : Decidable (Agrees s call) := inferInstanceAs (Decidable (_ ∨ _))

def ReadWithin (o : Object) (e : Entry) (copied : Bool) : Prop :=
  fdOpenedWithPathOnly e.flags = false → fdAccessMode e.flags ≠ oWronly → ∀ attr ∈ o.attr,
    (if e.cachedRevision = o.revision then attr.access.allowsRead else copied) = true →
    e.readOffset ≤ attr.value.length

/-- The cursor is not past the end when a write copies the value anew, unless the write
succeeds and appends. -/
def WriteWithin (o : Object) (e : Entry) (data : List UInt8) (copied edited stored : Bool) :
    Prop :=
  fdOpenedWithPathOnly e.flags = false → fdCanWrite e.flags = true → data ≠ [] →
    e.cachedRevision ≠ o.revision → copied = true → ∀ attr ∈ o.attr,
    e.readOffset ≤ attr.value.length ∨
      (has e.flags oAppend = true ∧ attr.access.allowsWrite = true ∧ edited = true ∧
        stored = true ∧ endWraps attr.value.length data.length = false)

/-- A store that fails halfway has stored the value that was there. -/
def Within (s : Store) : Call → Prop
  | .file fd (.read _ copied) => ∀ row ∈ s.find fd, ReadWithin s.object row.2 copied
  | .file fd (.write data copied edited stored) =>
      ∀ row ∈ s.find fd, WriteWithin s.object row.2 data copied edited stored
  | .writeAttr value _ .valueOnly => s.object.attr.map Attr.value = some value
  | _ => True

def CopiesCurrent (s : Store) : Prop := ∀ e ∈ s.entries, CopyCurrent s.object e

def FileAgrees (o : Object) (e : Entry) (call : FileCall) : Prop :=
  ((fileCall o e call).2.2 = .error .enomem ∧ (fileCall o e call).1.attr = o.attr ∧
      (fileCall o e call).2.1.file = e.file) ∨
    ((fileCall o e call).1.attr, (fileCall o e call).2.1.file, (fileCall o e call).2.2) =
      e.file.call o.attr call

variable {o : Object} {e : Entry} {s : Store}

theorem drop_min_length (value : List UInt8) (offset : Nat) :
    value.drop (min offset value.length) = value.drop offset := by
  rcases Nat.le_total offset value.length with h | h
  · rw [Nat.min_eq_left h]
  · rw [Nat.min_eq_right h, List.drop_length, List.drop_eq_nil_of_le h]

theorem read_agrees_iff {count : Nat} {copied : Bool} (hcurrent : CopyCurrent o e) :
    FileAgrees o e (.read count copied) ↔ ReadWithin o e copied := by
  unfold FileAgrees ReadWithin
  dsimp only [fileCall, File.call, File.read, dispatchAttrRead, Entry.file]
  cases hpath : fdOpenedWithPathOnly e.flags with
  | true => simp
  | false =>
  by_cases hmode : fdAccessMode e.flags = oWronly
  · simp [hmode]
  by_cases hrevision : e.cachedRevision = o.revision
  · simp only [refreshCache, if_pos hrevision, hcurrent hrevision]
    cases hread : e.cachedAccess.allowsRead with
    | false => simp [hread, hmode]
    | true => simp [hread, hmode, readFromValue, drop_min_length]
  · cases hattr : o.attr with
    | none => simp [refreshCache, hrevision, hattr, hmode]
    | some attr =>
        cases copied with
        | false => simp [refreshCache, hrevision, hattr, hmode]
        | true =>
            simp only [refreshCache, if_neg hrevision, hattr]
            cases hread : attr.access.allowsRead with
            | false => simp [hread, hmode]
            | true => simp [hread, hmode, readFromValue, drop_min_length]

theorem write_agrees_of_current {data : List UInt8} {copied edited stored : Bool}
    (hcurrent : CopyCurrent o e) (hrevision : e.cachedRevision = o.revision) :
    FileAgrees o e (.write data copied edited stored) := by
  unfold FileAgrees
  dsimp only [fileCall, File.call, File.write, dispatchAttrWrite, beginWrite, Entry.file]
  cases hpath : fdOpenedWithPathOnly e.flags with
  | true => simp
  | false =>
  cases hmode : fdCanWrite e.flags with
  | false => simp
  | true =>
  by_cases hdata : data = []
  · simp [hdata]
  have hattr := hcurrent hrevision
  simp only [refreshCache, if_pos hrevision, hattr]
  cases hwrite : e.cachedAccess.allowsWrite with
  | false => simp [hdata, hattr]
  | true =>
      cases edited with
      | false => simp [hdata, hattr]
      | true =>
          cases hend : endWraps (writeOffset e.flags e.readOffset e.cachedValue.length)
              data.length with
          | true => simp [hdata, hattr]
          | false => cases stored <;> simp [hdata, hattr, endWrite, hwrite]

theorem refreshCache_idem {fresh : Entry} {copied again : Bool}
    (h : refreshCache o e copied = .ok fresh) : refreshCache o fresh again = .ok fresh := by
  rw [refreshCache, if_pos (refreshCache_revision h)]

theorem dispatchAttrWrite_refresh {fresh : Entry} {data : List UInt8}
    {copied edited stored : Bool} (h : refreshCache o e copied = .ok fresh)
    (hpath : fdOpenedWithPathOnly e.flags = false) (hmode : fdCanWrite e.flags = true)
    (hdata : data ≠ []) :
    dispatchAttrWrite o e data copied edited stored =
      dispatchAttrWrite o fresh data copied edited stored := by
  have hflags := refreshCache_flags h
  unfold dispatchAttrWrite beginWrite
  simp [hflags, hpath, hmode, hdata, h, refreshCache_idem h]

/-- The cursor of the refreshed entry is moved back to the end. -/
theorem write_agrees_past_end {attr : Attr} {data : List UInt8} {edited stored : Bool}
    (hpath : fdOpenedWithPathOnly e.flags = false) (hmode : fdCanWrite e.flags = true)
    (hdata : data ≠ []) (hrevision : e.cachedRevision ≠ o.revision) (hattr : o.attr = some attr)
    (hpast : attr.value.length < e.readOffset) :
    FileAgrees o e (.write data true edited stored) ↔
      has e.flags oAppend = true ∧ attr.access.allowsWrite = true ∧ edited = true ∧
        stored = true ∧ endWraps attr.value.length data.length = false := by
  have hmin : min e.readOffset attr.value.length = attr.value.length := by omega
  have hmoved : attr.value.length ≠ e.readOffset := by omega
  unfold FileAgrees
  dsimp only [fileCall, File.call, File.write, dispatchAttrWrite, beginWrite, Entry.file]
  simp only [refreshCache, if_neg hrevision, hattr, hpath, hmode, hmin]
  cases hwrite : attr.access.allowsWrite with
  | false => simp [hdata, hmoved, hwrite]
  | true =>
      cases edited with
      | false => simp [hdata, hmoved, hwrite, eq_ite_iff]
      | true =>
          cases happend : has e.flags oAppend with
          | true =>
              cases hend : endWraps attr.value.length data.length with
              | true => simp [hdata, hend, hmoved, hwrite, writeOffset, happend]
              | false =>
                  cases stored <;>
                    simp [hdata, hend, endWrite, hattr, hwrite, hmoved, writeOffset, happend]
          | false =>
              cases hend : endWraps attr.value.length data.length with
              | true => simp [hdata, hend, hmoved, hwrite, writeOffset, happend, eq_ite_iff]
              | false =>
                  cases stored <;>
                    simp [hdata, hend, endWrite, hattr, hwrite, hmoved, writeOffset, happend,
                      eq_ite_iff]

theorem write_agrees_iff {data : List UInt8} {copied edited stored : Bool}
    (hcurrent : CopyCurrent o e) :
    FileAgrees o e (.write data copied edited stored) ↔
      WriteWithin o e data copied edited stored := by
  unfold WriteWithin
  by_cases hrevision : e.cachedRevision = o.revision
  · exact iff_of_true (write_agrees_of_current hcurrent hrevision) fun _ _ _ h => absurd hrevision h
  cases hpath : fdOpenedWithPathOnly e.flags with
  | true =>
      simp [FileAgrees, fileCall, dispatchAttrWrite, beginWrite, File.call, File.write, Entry.file,
        hpath]
  | false =>
  cases hmode : fdCanWrite e.flags with
  | false =>
      simp [FileAgrees, fileCall, dispatchAttrWrite, beginWrite, File.call, File.write, Entry.file,
        hpath, hmode]
  | true =>
  by_cases hdata : data = []
  · simp [FileAgrees, fileCall, dispatchAttrWrite, beginWrite, File.call, File.write, Entry.file,
      hpath, hmode, hdata]
  cases hattr : o.attr with
  | none =>
      simp [FileAgrees, fileCall, dispatchAttrWrite, beginWrite, File.call, File.write, Entry.file,
        hpath, hmode, hdata, refreshCache, hrevision, hattr]
  | some attr =>
  cases copied with
  | false =>
      simp [FileAgrees, fileCall, dispatchAttrWrite, beginWrite, File.call, File.write, Entry.file,
        hpath, hmode, hdata, refreshCache, hrevision, hattr]
  | true =>
      by_cases hpast : attr.value.length < e.readOffset
      · rw [write_agrees_past_end hpath hmode hdata hrevision hattr hpast]
        simp [hdata, hrevision, hpast]
      · have hin : e.readOffset ≤ attr.value.length := by omega
        refine iff_of_true ?_ fun _ _ _ _ _ other hother => .inl (by cases hother; exact hin)
        let fresh : Entry := ⟨e.flags, e.readOffset, attr.value, o.revision, attr.access⟩
        have hrefresh : refreshCache o e true = .ok fresh := by
          simp [refreshCache, hrevision, hattr, hin, fresh]
        have hfresh : FileAgrees o fresh (.write data true edited stored) :=
          write_agrees_of_current (fun _ => hattr) rfl
        unfold FileAgrees at hfresh ⊢
        rwa [fileCall, dispatchAttrWrite_refresh hrefresh hpath hmode hdata]

theorem lseek_agrees (o : Object) (e : Entry) (offset : Int) (whence : Whence) :
    FileAgrees o e (.lseek offset whence) := by
  refine .inr ?_
  dsimp only [fileCall, File.call, File.lseek, dispatchLseek, Entry.file]
  split
  · rfl
  · cases seekCursor e.readOffset offset whence <;> rfl

theorem setFl_agrees (o : Object) (e : Entry) (requested : Flags) :
    FileAgrees o e (.setFl requested) := by
  refine .inr ?_
  dsimp only [fileCall, File.call, File.setFl, setFl, Entry.file]
  split <;> rfl

variable {fd i : Nat} {call : Call}

theorem reference_find (s : Store) (fd : Nat) :
    ((s.reference.fds[fd]?).bind fun i => (s.reference.files[i]?).map fun f => (i, f)) =
      (s.find fd).map fun row => (row.1, row.2.file) := by
  unfold Store.find Store.reference
  cases s.fds[fd]? with
  | none => rfl
  | some i =>
      dsimp only [Option.bind_some]
      rw [List.getElem?_map]
      cases s.entries[i]? <;> rfl

theorem agrees_file_iff {call : FileCall} (hfind : s.find fd = some (i, e)) :
    Agrees s (.file fd call) ↔ FileAgrees s.object e call := by
  have hfile : (s.entries.map Entry.file)[i]? = some e.file := by
    rw [List.getElem?_map, (find_eq_some hfind).2]
    rfl
  unfold Agrees FileAgrees
  simp only [dispatch, hfind, Reference.call, reference_find, Option.map_some]
  simp only [Store.reference, List.map_set, Reference.mk.injEq, Threads.set_eq_self hfile,
    Threads.set_inj hfile, Prod.ext_iff, and_true, and_assoc]

theorem agrees_open (s : Store) (flags : Flags) (allocated : Bool) :
    Agrees s (.openAttr flags allocated) := by
  refine .inr ?_
  have hattr' : s.reference.attr = s.object.attr := rfl
  dsimp only [dispatch, dispatchOpen, Reference.call, Reference.open]
  rw [hattr']
  cases hattr : s.object.attr with
  | none => rfl
  | some attr =>
      dsimp only
      cases openResolvedAttr flags attr.access with
      | error errno => rfl
      | ok truncated =>
          dsimp only
          cases allocated with
          | false => rfl
          | true =>
              cases truncated with
              | false => simp [Store.reference, Store.bind, Reference.bind, makeEntry, Entry.file]
              | true =>
                  cases hwrite : attr.access.allowsWrite <;>
                    simp [truncateAttrForOpen, hattr, hwrite, Store.reference, Store.bind,
                      Reference.bind, makeEntry, Entry.file]

theorem agrees_writeAttr_iff {value : List UInt8} {access : AccessMode} {outcome : StoreOutcome} :
    Agrees s (.writeAttr value access outcome) ↔ Within s (.writeAttr value access outcome) := by
  unfold Agrees
  cases outcome with
  | stored => exact iff_of_true (.inr rfl) trivial
  | undone => exact iff_of_true (.inl ⟨rfl, rfl⟩) trivial
  | valueOnly =>
      dsimp only [dispatch, writeAttr, Reference.call, Within, Store.reference]
      cases hattr : s.object.attr with
      | none => simp
      | some attr =>
          obtain ⟨held, mode⟩ := attr
          simp [eq_comm]

theorem agrees_iff_within (hcurrent : CopiesCurrent s) : Agrees s call ↔ Within s call := by
  cases call with
  | writeAttr value access outcome => exact agrees_writeAttr_iff
  | removeAttr =>
      refine iff_of_true (.inr ?_) trivial
      dsimp only [dispatch, removeAttr, Reference.call, Store.reference]
      cases hattr : s.object.attr <;> simp [hattr]
  | openAttr flags allocated => exact iff_of_true (agrees_open s flags allocated) trivial
  | dup fd =>
      refine iff_of_true (.inr ?_) trivial
      have hfds : s.reference.fds = s.fds := rfl
      dsimp only [dispatch, Reference.call]
      rw [hfds]
      cases s.fds[fd]? <;> rfl
  | file fd call =>
      cases hfind : s.find fd with
      | none =>
          have hagrees : Agrees s (.file fd call) := by
            refine .inr ?_
            simp only [dispatch, hfind, Reference.call, reference_find, Option.map_none]
          refine iff_of_true hagrees ?_
          cases call <;> simp [Within, hfind]
      | some row =>
          obtain ⟨i, e⟩ := row
          have he := hcurrent e (List.mem_iff_getElem?.mpr ⟨i, (find_eq_some hfind).2⟩)
          rw [agrees_file_iff hfind]
          cases call with
          | read count copied =>
              rw [read_agrees_iff he]
              simp [Within, hfind]
          | write data copied edited stored =>
              rw [write_agrees_iff he]
              simp [Within, hfind]
          | lseek offset whence => exact iff_of_true (lseek_agrees _ e offset whence) trivial
          | setFl requested => exact iff_of_true (setFl_agrees _ e requested) trivial
          | setFd cloexec => exact iff_of_true (.inr rfl) trivial

def perform (s : Store) (call : Call) : Option Store := some (dispatch s call).1

theorem agree_iff_of_tracks {calls : List Call} (h : Tracks calls.length s)
    (hlength : calls.length < 2 ^ 64 - 1) :
    Meets perform Agrees s calls ↔ Meets perform Within s calls := by
  induction calls generalizing s with
  | nil => exact Iff.rfl
  | cons call calls ih =>
      have hshort : calls.length < 2 ^ 64 - 1 := by
        rw [List.length_cons] at hlength
        omega
      have hhead : Agrees s call ↔ Within s call :=
        agrees_iff_within fun e he => (h.entries e he).current h.revision
      have hrest : Within s call → ∀ t ∈ perform s call,
          (Meets perform Agrees t calls ↔ Meets perform Within t calls) := by
        intro hwithin t ht
        cases ht
        refine ih (h.dispatch hshort ?_) hshort
        rintro value access rfl
        exact hwithin
      constructor
      · rintro ⟨hagrees, hmeets⟩
        have hwithin := hhead.mp hagrees
        exact ⟨hwithin, fun t ht => (hrest hwithin t ht).mp (hmeets t ht)⟩
      · rintro ⟨hwithin, hmeets⟩
        exact ⟨hhead.mpr hwithin, fun t ht => (hrest hwithin t ht).mpr (hmeets t ht)⟩

/-- Fewer calls than the revision has values agree with byte files all along if and only if no
read, and no write that copies the value anew, finds its cursor past the end. -/
theorem files_agree_iff_within {object : Object} {calls : List Call}
    (hrevision : object.revision ≠ 0) (hlength : calls.length < 2 ^ 64 - 1) :
    Meets perform Agrees (Store.init object) calls ↔
      Meets perform Within (Store.init object) calls :=
  agree_iff_of_tracks ⟨hrevision, fun e he => by cases he⟩ hlength

instance (o : Object) (e : Entry) (copied : Bool) : Decidable (ReadWithin o e copied) :=
  inferInstanceAs (Decidable (_ → _))

instance (o : Object) (e : Entry) (data : List UInt8) (copied edited stored : Bool) :
    Decidable (WriteWithin o e data copied edited stored) :=
  inferInstanceAs (Decidable (_ → _))

instance (s : Store) : DecidablePred (Within s)
  | .file fd (.read _ copied) =>
      inferInstanceAs (Decidable (∀ row ∈ s.find fd, ReadWithin s.object row.2 copied))
  | .file fd (.write data copied edited stored) => inferInstanceAs (Decidable
      (∀ row ∈ s.find fd, WriteWithin s.object row.2 data copied edited stored))
  | .writeAttr value _ .valueOnly =>
      inferInstanceAs (Decidable (s.object.attr.map Attr.value = some value))
  | .writeAttr _ _ .stored | .writeAttr _ _ .undone | .removeAttr | .openAttr _ _ | .dup _
  | .file _ (.lseek _ _) | .file _ (.setFl _) | .file _ (.setFd _) => .isTrue trivial

theorem files_agree_iff_within_two_files :
    Meets perform Agrees (Store.init ⟨some ⟨[97, 98, 99], .rw⟩, 1⟩)
      [.openAttr oRdwr true, .openAttr (oRdwr ||| oAppend) true, .file 0 (.read 1 true),
        .file 1 (.write [100] true true true), .writeAttr [120, 121] .rw .stored,
        .file 0 (.read 4 true), .file 0 (.lseek 4 .set), .file 0 (.write [122] true true true)] :=
  (files_agree_iff_within (by decide) (by decide)).mpr (by decide +kernel)

/-- A write at offset 5 of `abc` by a file that has no copy yet: its cursor is moved back to
3, and the two zero bytes are missing. -/
theorem write_past_end_not_filled :
    ¬∀ object calls, Meets perform Agrees (Store.init object) calls := by
  intro h
  have hagrees := h ⟨some ⟨[97, 98, 99], .rw⟩, 1⟩
    [.openAttr oRdwr true, .file 0 (.lseek 5 .set), .file 0 (.write [120] true true true)]
  revert hagrees
  decide +kernel

end HostPimSim.Vfile.Attribute
