import Mathlib.Logic.Function.Iterate
import HostPimSim.Lib.Threads
import HostPimSim.Vfile.AttrCalls

/-! The revision of an object and the copies that carry one.  The counter takes all 64-bit
values but zero in turn, so a copy passes for current again after `2 ^ 64 - 1` stores. -/
namespace HostPimSim.Vfile.Attribute

def CopyCurrent (o : Object) (e : Entry) : Prop :=
  e.cachedRevision = o.revision → o.attr = some ⟨e.cachedValue, e.cachedAccess⟩

variable {o next : Object} {e fresh : Entry} {n : Nat}

theorem toNat_bump {revision : BitVec 64} (h : revision ≠ 0) :
    (bumpNonzeroRevision revision).toNat - 1 = (revision.toNat - 1 + 1) % (2 ^ 64 - 1) := by
  have hlt := revision.isLt
  have hpos : revision.toNat ≠ 0 := fun hzero => h (BitVec.eq_of_toNat_eq hzero)
  have hsum : (revision + 1).toNat = (revision.toNat + 1) % 2 ^ 64 := BitVec.toNat_add revision 1
  unfold bumpNonzeroRevision
  split
  · rename_i hzero
    rw [hzero] at hsum
    have hlast : revision.toNat = 2 ^ 64 - 1 := by
      simp at hsum
      omega
    simp [hlast]
  · rename_i hzero
    have hnot : revision.toNat + 1 ≠ 2 ^ 64 := by
      intro hwrap
      rw [hwrap, Nat.mod_self] at hsum
      exact hzero (BitVec.eq_of_toNat_eq hsum)
    rw [hsum]
    omega

theorem toNat_bump_iterate {revision : BitVec 64} (h : revision ≠ 0) (k : Nat) :
    bumpNonzeroRevision^[k] revision ≠ 0 ∧
      (bumpNonzeroRevision^[k] revision).toNat - 1 =
        (revision.toNat - 1 + k) % (2 ^ 64 - 1) := by
  induction k with
  | zero =>
      have hlt := revision.isLt
      have hpos : revision.toNat ≠ 0 := fun hzero => h (BitVec.eq_of_toNat_eq hzero)
      refine ⟨h, ?_⟩
      rw [Function.iterate_zero_apply]
      omega
  | succ k ih =>
      rw [Function.iterate_succ_apply']
      refine ⟨bumpNonzeroRevision_ne_zero _, ?_⟩
      rw [toNat_bump ih.1, ih.2]
      omega

theorem bump_iterate_ne {revision : BitVec 64} {k : Nat} (h : revision ≠ 0) (hpos : 0 < k)
    (hk : k < 2 ^ 64 - 1) : bumpNonzeroRevision^[k] revision ≠ revision := by
  intro hsame
  have hcount := (toNat_bump_iterate h k).2
  have hlt := revision.isLt
  rw [hsame] at hcount
  omega

/-- The copy is `k` stores old, and current if that is none; `k` stays short of a whole turn
of the counter over the next `n` stores. -/
def EntryTracks (n : Nat) (o : Object) (e : Entry) : Prop :=
  e.cachedRevision = 0 ∨ ∃ k, k + n < 2 ^ 64 - 1 ∧ e.cachedRevision ≠ 0 ∧
    o.revision = bumpNonzeroRevision^[k] e.cachedRevision ∧
    (k = 0 → o.attr = some ⟨e.cachedValue, e.cachedAccess⟩)

theorem EntryTracks.current (h : EntryTracks n o e) (hrevision : o.revision ≠ 0) :
    CopyCurrent o e := by
  intro hsame
  rcases h with hzero | ⟨k, hk, hne, hbumps, hattr⟩
  · exact absurd (hsame.symm.trans hzero) hrevision
  · rcases Nat.eq_zero_or_pos k with hold | hpos
    · exact hattr hold
    · exact absurd (hbumps.symm.trans hsame.symm) (bump_iterate_ne hne hpos (by omega))

def Advances (o next : Object) : Prop := next = o ∨ next.revision = bumpNonzeroRevision o.revision

theorem Advances.revision_ne_zero (h : Advances o next) (hrevision : o.revision ≠ 0) :
    next.revision ≠ 0 := by
  rcases h with rfl | hbump
  · exact hrevision
  · rw [hbump]
    exact bumpNonzeroRevision_ne_zero _

theorem EntryTracks.advance (h : EntryTracks (n + 1) o e) (hnext : Advances o next) :
    EntryTracks n next e := by
  refine h.imp_right ?_
  rintro ⟨k, hk, hne, hbumps, hattr⟩
  rcases hnext with rfl | hbump
  · exact ⟨k, by omega, hne, hbumps, hattr⟩
  · refine ⟨k + 1, by omega, hne, ?_, fun hzero => by omega⟩
    rw [hbump, hbumps, Function.iterate_succ_apply']

theorem entryTracks_of_copy (hn : n < 2 ^ 64 - 1) (hrevision : o.revision ≠ 0)
    (hcopy : e.cachedRevision = o.revision)
    (hattr : o.attr = some ⟨e.cachedValue, e.cachedAccess⟩) : EntryTracks n o e :=
  .inr ⟨0, by omega, hcopy ▸ hrevision, hcopy.symm, fun _ => hattr⟩

theorem refreshCache_tracks {copied : Bool} (h : EntryTracks n o e) (hn : n < 2 ^ 64 - 1)
    (hrevision : o.revision ≠ 0) (hrefresh : refreshCache o e copied = .ok fresh) :
    EntryTracks n o fresh := by
  rcases refreshCache_ok hrefresh with ⟨_, rfl⟩ | ⟨_, attr, hattr, rfl⟩
  · exact h
  · exact entryTracks_of_copy hn hrevision rfl hattr

theorem dispatchAttrRead_tracks (count : Nat) (copied : Bool) (h : EntryTracks n o e)
    (hn : n < 2 ^ 64 - 1) (hrevision : o.revision ≠ 0) :
    EntryTracks n o (dispatchAttrRead o e count copied).1 := by
  unfold dispatchAttrRead
  split
  · exact h
  · split
    · exact h
    · split
      · exact h
      · rename_i fresh hrefresh
        have hfresh := refreshCache_tracks h hn hrevision hrefresh
        split <;> exact hfresh

theorem beginWrite_tracks (data : List UInt8) (copied edited : Bool) (h : EntryTracks n o e)
    (hn : n < 2 ^ 64 - 1) (hrevision : o.revision ≠ 0) :
    EntryTracks n o (beginWrite o e data copied edited).1 := by
  rcases beginWrite_entry o e data copied edited with hsame | hrefresh
  · rw [hsame]
    exact h
  · exact refreshCache_tracks h hn hrevision hrefresh

theorem endWrite_tracks (data : List UInt8) (edit : Edit) (stored : Bool) (h : EntryTracks n o e)
    (hn : n < 2 ^ 64 - 1) :
    Advances o (endWrite o e data edit stored).1 ∧
      EntryTracks n (endWrite o e data edit stored).1 (endWrite o e data edit stored).2.1 := by
  rcases endWrite_cases o e data edit stored with ⟨errno, hend⟩ | ⟨attr, _, _, hend⟩
  · rw [hend]
    exact ⟨.inl rfl, h⟩
  · rw [hend]
    exact ⟨.inr rfl, entryTracks_of_copy hn (bumpNonzeroRevision_ne_zero _) rfl rfl⟩

theorem dispatchAttrWrite_tracks (data : List UInt8) (copied edited stored : Bool)
    (h : EntryTracks (n + 1) o e) (hn : n < 2 ^ 64 - 1) (hrevision : o.revision ≠ 0) :
    Advances o (dispatchAttrWrite o e data copied edited stored).1 ∧
      EntryTracks n (dispatchAttrWrite o e data copied edited stored).1
        (dispatchAttrWrite o e data copied edited stored).2.1 := by
  have hbegin := beginWrite_tracks data copied edited (h.advance (.inl rfl)) hn hrevision
  unfold dispatchAttrWrite
  split
  · rename_i fresh result heq
    rw [heq] at hbegin
    exact ⟨.inl rfl, hbegin⟩
  · rename_i fresh edit heq
    rw [heq] at hbegin
    exact endWrite_tracks data edit stored hbegin hn

theorem fileCall_tracks (call : FileCall) (h : EntryTracks (n + 1) o e) (hn : n < 2 ^ 64 - 1)
    (hrevision : o.revision ≠ 0) :
    Advances o (fileCall o e call).1 ∧
      EntryTracks n (fileCall o e call).1 (fileCall o e call).2.1 := by
  have hsame : EntryTracks n o e := h.advance (.inl rfl)
  cases call with
  | read count copied => exact ⟨.inl rfl, dispatchAttrRead_tracks count copied hsame hn hrevision⟩
  | write data copied edited stored =>
      exact dispatchAttrWrite_tracks data copied edited stored h hn hrevision
  | lseek offset whence =>
      refine ⟨.inl rfl, ?_⟩
      dsimp only [fileCall, dispatchLseek]
      split
      · exact hsame
      · split <;> exact hsame
  | setFl requested =>
      refine ⟨.inl rfl, ?_⟩
      dsimp only [fileCall, setFl]
      split <;> exact hsame
  | setFd cloexec => exact ⟨.inl rfl, hsame⟩

structure Tracks (n : Nat) (s : Store) : Prop where
  revision : s.object.revision ≠ 0
  entries : ∀ e ∈ s.entries, EntryTracks n s.object e

variable {s : Store}

theorem Tracks.advance (h : Tracks (n + 1) s) (hnext : Advances s.object next) :
    Tracks n { s with object := next } :=
  ⟨hnext.revision_ne_zero h.revision, fun e he => (h.entries e he).advance hnext⟩

theorem Tracks.bind {flags : Flags} (h : Tracks n s) : Tracks n (s.bind flags) :=
  ⟨h.revision, Threads.forall_mem_push h.entries (.inl rfl)⟩

theorem truncateAttrForOpen_advances (h : truncateAttrForOpen o = .ok next) : Advances o next := by
  unfold truncateAttrForOpen at h
  split at h
  · cases h
  · split at h
    · cases h
      exact .inr rfl
    · cases h

theorem Tracks.dispatchOpen (flags : Flags) (allocated : Bool) (h : Tracks (n + 1) s) :
    Tracks n (dispatchOpen s flags allocated).1 := by
  have hsame : Tracks n s := h.advance (.inl rfl)
  unfold Attribute.dispatchOpen
  split
  · exact hsame
  · split
    · exact hsame
    · split
      · exact hsame
      · split
        · split
          · exact hsame
          · rename_i object htrunc
            exact (h.advance (truncateAttrForOpen_advances htrunc)).bind
        · exact hsame.bind

/-- Every call stores at most once, as long as a store that fails halfway has stored the value
that was there. -/
theorem Tracks.dispatch {call : Call} (h : Tracks (n + 1) s) (hn : n < 2 ^ 64 - 1)
    (hhalf : ∀ value access, call = .writeAttr value access .valueOnly →
      s.object.attr.map Attr.value = some value) : Tracks n (dispatch s call).1 := by
  have hsame : Tracks n s := h.advance (.inl rfl)
  cases call with
  | writeAttr value access outcome =>
      refine h.advance ?_
      cases outcome with
      | stored => exact .inr rfl
      | undone => exact .inl rfl
      | valueOnly =>
          obtain ⟨attr, hattr, hvalue⟩ := Option.map_eq_some_iff.mp (hhalf value access rfl)
          refine .inl ?_
          simp only [writeAttr, hattr, ← hvalue, Option.map_some, Option.getD_some]
          rw [← hattr]
  | removeAttr =>
      refine h.advance ?_
      unfold removeAttr
      split
      · exact .inl rfl
      · exact .inr rfl
  | openAttr flags allocated => exact h.dispatchOpen flags allocated
  | dup fd =>
      dsimp only [Attribute.dispatch]
      split
      · exact hsame
      · exact ⟨hsame.revision, hsame.entries⟩
  | file fd call =>
      dsimp only [Attribute.dispatch]
      split
      · exact hsame
      · rename_i i e hfind
        have he := h.entries e (List.mem_iff_getElem?.mpr ⟨i, (find_eq_some hfind).2⟩)
        obtain ⟨hadvances, htracks⟩ := fileCall_tracks call he hn h.revision
        have hnext := h.advance hadvances
        exact ⟨hnext.revision, Threads.forall_mem_set hnext.entries htracks⟩

end HostPimSim.Vfile.Attribute
