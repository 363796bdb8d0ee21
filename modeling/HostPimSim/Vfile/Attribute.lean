import Mathlib.Algebra.Group.Int.Defs
import Mathlib.Algebra.GroupWithZero.Nat
import Mathlib.Data.List.Basic
import Mathlib.Data.Option.Basic

/-! One attribute of a vsysfs or vmodule object and the open files on it: the sections of
`dispatch_attr_read` and `dispatch_attr_write`, each under the object's mutex, and what
`open`, `lseek` and `fcntl` do to an entry.  Whether memory can be had is an argument. -/
namespace HostPimSim.Vfile.Attribute

/-- `pim_access_mode_t` -/
inductive AccessMode where
  | none
  | ro
  | wo
  | rw
  deriving DecidableEq

def AccessMode.allowsRead : AccessMode → Bool
  | .ro | .rw => true
  | .none | .wo => false

def AccessMode.allowsWrite : AccessMode → Bool
  | .wo | .rw => true
  | .none | .ro => false

structure Attr where
  value : List UInt8
  access : AccessMode
  deriving DecidableEq

/-- The attribute, if it is there, and `attrs_revision` of its object. -/
structure Object where
  attr : Option Attr
  revision : BitVec 64
  deriving DecidableEq

inductive Errno where
  | enoent
  | ebadf
  | eacces
  | einval
  | enomem
  | enotdir
  | emfile
  | eio
  | eisdir
  | eloop
  | eopnotsupp
  deriving DecidableEq

inductive Result where
  | count (n : Nat)
  | bytes (data : List UInt8)
  | error (e : Errno)
  | forwarded
  deriving DecidableEq

abbrev Flags := BitVec 32

def oAccmode : Flags := 0x3
def oWronly : Flags := 0x1
def oRdwr : Flags := 0x2
def oCreat : Flags := 0x40
def oTrunc : Flags := 0x200
def oAppend : Flags := 0x400
def oNonblock : Flags := 0x800
def oAsync : Flags := 0x2000
def oDirect : Flags := 0x4000
def oDirectory : Flags := 0x10000
def oNofollow : Flags := 0x20000
def oNoatime : Flags := 0x40000
def oCloexec : Flags := 0x80000
def oPath : Flags := 0x200000

def has (flags bit : Flags) : Bool := flags &&& bit != 0

def fdOpenedWithPathOnly (flags : Flags) : Bool := has flags oPath

def fdAccessMode (flags : Flags) : Flags := flags &&& oAccmode

def fdCanWrite (flags : Flags) : Bool :=
  fdAccessMode flags == oWronly || fdAccessMode flags == oRdwr

/-- `vsyscall_fcntl_setfl_supported_mask` -/
def setflSupportedMask : Flags := oAppend ||| oAsync ||| oDirect ||| oNoatime ||| oNonblock

/-- All flags that `vsyscall_supported_open_flags` collects. -/
def supportedOpenFlags : Flags := 0x7f7fc3

def Flags.cloexec (flags : Flags) : Bool := has flags oCloexec

/-- A `vfile_fd_entry` of type `FD_VSYSFS` or `FD_VMODULE`. -/
structure Entry where
  flags : Flags
  readOffset : Nat
  cachedValue : List UInt8
  cachedRevision : BitVec 64
  cachedAccess : AccessMode
  deriving DecidableEq

def makeEntry (flags : Flags) : Entry := ⟨flags, 0, [], 0, .rw⟩

/-- `vfile_bump_nonzero_revision` -/
def bumpNonzeroRevision (revision : BitVec 64) : BitVec 64 :=
  if revision + 1 = 0 then 1 else revision + 1

theorem bumpNonzeroRevision_ne_zero (revision : BitVec 64) : bumpNonzeroRevision revision ≠ 0 := by
  unfold bumpNonzeroRevision
  split
  · decide
  · assumption

/-- `vsyscall_attr_refresh_cache_locked`; an entry it fails on is left as it was. -/
def refreshCache (o : Object) (e : Entry) (copied : Bool) : Except Errno Entry :=
  if e.cachedRevision = o.revision then .ok e
  else
    match o.attr with
    | none => .error .enoent
    | some attr =>
        if copied then
          .ok { e with
            cachedValue := attr.value
            cachedAccess := attr.access
            cachedRevision := o.revision
            readOffset := min e.readOffset attr.value.length }
        else .error .enomem

variable {o : Object} {e fresh : Entry} {data : List UInt8} {copied edited stored : Bool}

theorem refreshCache_ok (h : refreshCache o e copied = .ok fresh) :
    (e.cachedRevision = o.revision ∧ fresh = e) ∨
      (e.cachedRevision ≠ o.revision ∧ ∃ attr, o.attr = some attr ∧
        fresh = { e with
          cachedValue := attr.value
          cachedAccess := attr.access
          cachedRevision := o.revision
          readOffset := min e.readOffset attr.value.length }) := by
  unfold refreshCache at h
  split at h
  · rename_i hrevision
    cases h
    exact .inl ⟨hrevision, rfl⟩
  · rename_i hrevision
    split at h
    · cases h
    · rename_i attr hattr
      split at h
      · cases h
        exact .inr ⟨hrevision, attr, hattr, rfl⟩
      · cases h

theorem refreshCache_flags (h : refreshCache o e copied = .ok fresh) : fresh.flags = e.flags := by
  rcases refreshCache_ok h with ⟨_, rfl⟩ | ⟨_, attr, _, rfl⟩ <;> rfl

theorem refreshCache_revision (h : refreshCache o e copied = .ok fresh) :
    fresh.cachedRevision = o.revision := by
  rcases refreshCache_ok h with ⟨hrevision, rfl⟩ | ⟨_, attr, _, rfl⟩
  · exact hrevision
  · rfl

/-- `vsyscall_vsysfs_read_from_value_locked` -/
def readFromValue (e : Entry) (value : List UInt8) (count : Nat) : Entry × List UInt8 :=
  let offset := min e.readOffset value.length
  let data := (value.drop offset).take count
  ({ e with readOffset := offset + data.length }, data)

def dispatchAttrRead (o : Object) (e : Entry) (count : Nat) (copied : Bool) : Entry × Result :=
  if fdOpenedWithPathOnly e.flags then (e, .error .ebadf)
  else if fdAccessMode e.flags = oWronly then (e, .error .ebadf)
  else
    match refreshCache o e copied with
    | .error errno => (e, .error errno)
    | .ok fresh =>
        if fresh.cachedAccess.allowsRead then
          ((readFromValue fresh fresh.cachedValue count).1,
            .bytes (readFromValue fresh fresh.cachedValue count).2)
        else (fresh, .error .eacces)

/-- The value filled up to `offset` with zeros, and from there on replaced by `data`. -/
def overwrite (value : List UInt8) (offset : Nat) (data : List UInt8) : List UInt8 :=
  (value ++ List.replicate (offset - value.length) 0).take offset ++ data ++
    value.drop (offset + data.length)

structure Edit where
  updated : List UInt8
  endOffset : Nat
  deriving DecidableEq

def writeOffset (flags : Flags) (offset size : Nat) : Nat :=
  if has flags oAppend then size else offset

/-- `end < offset` in `dispatch_attr_write`, where `end` is their 64-bit sum. -/
def endWraps (offset count : Nat) : Bool := decide (2 ^ 64 ≤ offset + count)

/-- `dispatch_attr_write` up to the second time it locks the object; `edited` is whether the
copy can be made and resized. -/
def beginWrite (o : Object) (e : Entry) (data : List UInt8) (copied edited : Bool) :
    Entry × Except Result Edit :=
  if fdOpenedWithPathOnly e.flags then (e, .error (.error .ebadf))
  else if fdCanWrite e.flags = false then (e, .error (.error .ebadf))
  else if data = [] then (e, .error (.count 0))
  else
    match refreshCache o e copied with
    | .error errno => (e, .error (.error errno))
    | .ok fresh =>
        if fresh.cachedAccess.allowsWrite = false then (fresh, .error (.error .eacces))
        else if edited = false then (fresh, .error (.error .enomem))
        else
          let offset := writeOffset fresh.flags fresh.readOffset fresh.cachedValue.length
          if endWraps offset data.length then (fresh, .error (.error .einval))
          else (fresh, .ok ⟨overwrite fresh.cachedValue offset data, offset + data.length⟩)

theorem beginWrite_ok {edit : Edit}
    (h : beginWrite o e data copied edited = (fresh, .ok edit)) :
    fdOpenedWithPathOnly e.flags = false ∧ fdCanWrite e.flags = true ∧
      refreshCache o e copied = .ok fresh ∧ fresh.cachedAccess.allowsWrite = true ∧
      edit = ⟨overwrite fresh.cachedValue
          (writeOffset fresh.flags fresh.readOffset fresh.cachedValue.length) data,
        writeOffset fresh.flags fresh.readOffset fresh.cachedValue.length + data.length⟩ := by
  unfold beginWrite at h
  split at h
  · cases h
  · rename_i hpath
    split at h
    · cases h
    · rename_i hwrite
      split at h
      · cases h
      · split at h
        · cases h
        · rename_i fresh' hrefresh
          split at h
          · cases h
          · rename_i haccess
            split at h
            · cases h
            · dsimp only at h
              split at h
              · cases h
              · cases h
                exact ⟨Bool.eq_false_iff.mpr hpath, eq_true_of_ne_false hwrite, hrefresh,
                  eq_true_of_ne_false haccess, rfl⟩

theorem beginWrite_error {result : Result}
    (h : beginWrite o e data copied edited = (fresh, .error result)) :
    (data = [] ∧ result = .count 0) ∨ ∃ errno, result = .error errno := by
  unfold beginWrite at h
  split at h
  · cases h
    exact .inr ⟨_, rfl⟩
  · split at h
    · cases h
      exact .inr ⟨_, rfl⟩
    · split at h
      · rename_i hdata
        cases h
        exact .inl ⟨hdata, rfl⟩
      · split at h
        · cases h
          exact .inr ⟨_, rfl⟩
        · dsimp only at h
          repeat' split at h
          all_goals
            cases h
            try exact .inr ⟨_, rfl⟩

theorem beginWrite_entry (o : Object) (e : Entry) (data : List UInt8) (copied edited : Bool) :
    (beginWrite o e data copied edited).1 = e ∨
      refreshCache o e copied = .ok (beginWrite o e data copied edited).1 := by
  unfold beginWrite
  split
  · exact .inl rfl
  · split
    · exact .inl rfl
    · split
      · exact .inl rfl
      · split
        · exact .inl rfl
        · rename_i fresh hrefresh
          refine .inr ?_
          split
          · exact hrefresh
          · split
            · exact hrefresh
            · dsimp only
              split <;> exact hrefresh

theorem overwrite_at_end (value data : List UInt8) :
    overwrite value value.length data = value ++ data := by
  unfold overwrite
  rw [Nat.sub_self, List.replicate_zero, List.append_nil, List.take_length,
    List.drop_eq_nil_of_le (Nat.le_add_right _ _), List.append_nil]

/-- The rest of `dispatch_attr_write`. -/
def endWrite (o : Object) (e : Entry) (data : List UInt8) (edit : Edit) (stored : Bool) :
    Object × Entry × Result :=
  match o.attr with
  | none => (o, e, .error .enoent)
  | some attr =>
      if attr.access.allowsWrite = false then (o, e, .error .eacces)
      else if stored = false then (o, e, .error .enomem)
      else
        let next := bumpNonzeroRevision o.revision
        (⟨some { attr with value := edit.updated }, next⟩,
          { e with
            cachedValue := edit.updated
            cachedAccess := attr.access
            cachedRevision := next
            readOffset := edit.endOffset },
          .count data.length)

theorem endWrite_cases (o : Object) (e : Entry) (data : List UInt8) (edit : Edit)
    (stored : Bool) :
    (∃ errno, endWrite o e data edit stored = (o, e, .error errno)) ∨
      ∃ attr, o.attr = some attr ∧ attr.access.allowsWrite = true ∧
        endWrite o e data edit stored =
          (⟨some { attr with value := edit.updated }, bumpNonzeroRevision o.revision⟩,
            { e with
              cachedValue := edit.updated
              cachedAccess := attr.access
              cachedRevision := bumpNonzeroRevision o.revision
              readOffset := edit.endOffset },
            .count data.length) := by
  unfold endWrite
  split
  · exact .inl ⟨.enoent, rfl⟩
  · rename_i attr hattr
    split
    · exact .inl ⟨.eacces, rfl⟩
    · rename_i haccess
      split
      · exact .inl ⟨.enomem, rfl⟩
      · exact .inr ⟨attr, hattr, eq_true_of_ne_false haccess, rfl⟩

def dispatchAttrWrite (o : Object) (e : Entry) (data : List UInt8) (copied edited stored : Bool) :
    Object × Entry × Result :=
  match beginWrite o e data copied edited with
  | (fresh, .error result) => (o, fresh, result)
  | (fresh, .ok edit) => endWrite o fresh data edit stored

/-- What `vsyscall_dispatch_open_vsysfs_attr_node` and its vmodule twin check on the resolved
node; whether the attribute is to be truncated. -/
def openAttrNode (flags : Flags) (access : AccessMode) : Except Errno Bool :=
  let wantsRead := fdAccessMode flags == 0 || fdAccessMode flags == oRdwr
  if has flags oDirectory then .error .enotdir
  else if fdOpenedWithPathOnly flags then .ok false
  else if fdAccessMode flags = oAccmode then .error .einval
  else if wantsRead = true ∧ access.allowsRead = false then .error .eacces
  else if fdCanWrite flags = true ∧ access.allowsWrite = false then .error .eacces
  else if has flags oTrunc = true ∧ fdCanWrite flags = false then .error .eacces
  else .ok (has flags oTrunc)

/-- `vsyscall_dispatch_open_resolved_node` on the node of an attribute, which has
`vsyscall_validate_open_flags` before the checks of the node. -/
def openResolvedAttr (flags : Flags) (access : AccessMode) : Except Errno Bool :=
  if flags &&& ~~~supportedOpenFlags ≠ 0 then .error .einval else openAttrNode flags access

/-- `vsyscall_vsysfs_truncate_attr_for_open` and its vmodule twin -/
def truncateAttrForOpen (o : Object) : Except Errno Object :=
  match o.attr with
  | none => .error .enoent
  | some attr =>
      if attr.access.allowsWrite then
        .ok ⟨some { attr with value := [] }, bumpNonzeroRevision o.revision⟩
      else .error .eacces

inductive Whence where
  | set
  | cur
  | other
  deriving DecidableEq

def llongMax : Int := 2 ^ 63 - 1
def llongMin : Int := -2 ^ 63

/-- `vfile_seek_cursor_locked` -/
def seekCursor (cursor : Nat) (offset : Int) (whence : Whence) : Option Nat :=
  if whence = .other ∨ (whence = .cur ∧ llongMax < cursor) then none
  else
    let base : Int := if whence = .cur then cursor else 0
    if 0 < offset ∧ llongMax - offset < base then none
    else if offset < 0 ∧ base < llongMin - offset then none
    else if base + offset < 0 then none
    else some (base + offset).toNat

/-- `dispatch_lseek` -/
def dispatchLseek (e : Entry) (offset : Int) (whence : Whence) : Entry × Result :=
  if fdOpenedWithPathOnly e.flags then (e, .error .ebadf)
  else
    match seekCursor e.readOffset offset whence with
    | none => (e, .error .einval)
    | some cursor => ({ e with readOffset := cursor }, .count cursor)

/-- `dispatch_fcntl` with `F_SETFL` -/
def setFl (e : Entry) (requested : Flags) : Entry × Result :=
  if fdOpenedWithPathOnly e.flags then (e, .error .ebadf)
  else
    ({ e with
      flags := (e.flags &&& ~~~setflSupportedMask) ||| (requested &&& setflSupportedMask) },
      .count 0)

/-- `dispatch_fcntl` with `F_SETFD` -/
def setFd (e : Entry) (cloexec : Bool) : Entry × Result :=
  ({ e with flags := if cloexec then e.flags ||| oCloexec else e.flags &&& ~~~oCloexec }, .count 0)

/-- How the two assignments of a store end when memory runs out: all of it done, all of it
undone, or the value stored and the access mode not. -/
inductive StoreOutcome where
  | stored
  | undone
  | valueOnly
  deriving DecidableEq

/-- `pim_vsysfs_write_attr` and `pim_vmodule_create_attr` -/
def writeAttr (o : Object) (value : List UInt8) (access : AccessMode) :
    StoreOutcome → Object × Result
  | .stored => (⟨some ⟨value, access⟩, bumpNonzeroRevision o.revision⟩, .count 0)
  | .undone => (o, .error .enomem)
  | .valueOnly =>
      ({ o with attr := some ⟨value, (o.attr.map Attr.access).getD .rw⟩ }, .error .enomem)

/-- `pim_vsysfs_remove_attr` and `pim_vmodule_remove_attr` -/
def removeAttr (o : Object) : Object × Result :=
  match o.attr with
  | none => (o, .error .enoent)
  | some _ => (⟨none, bumpNonzeroRevision o.revision⟩, .count 0)

end HostPimSim.Vfile.Attribute
