import HostPimSim.Vfile.Dispatch

/-! Calls that have nothing to do with the virtual layer, and what the dispatch does about them:
all but a few of them pass through. -/
namespace HostPimSim.Vfile.Namespace
open Attribute Mapping

variable {env : Env} {st : VsyscallState} {call : Syscall} {args : Args} {forward dfd : Int}
  {pathname : Option String} {flags : Flags} {p : Path}

def Syscall.fdArgs (args : Args) : Syscall → List Int
  | .sysOpenat | .sysNameToHandleAt | .sysFaccessat | .sysFaccessat2 | .sysReadlinkat
  | .sysFcntl | .sysFcntl64 | .sysIoctl | .sysRead | .sysWrite | .sysGetdents64 | .sysGetdents
  | .sysClose | .sysDup | .sysFstat | .sysFstatfs | .sysNewfstatat | .sysStatx | .sysLseek =>
      [asInt args.a]
  | .sysDup2 | .sysDup3 => [asInt args.a, asInt args.b]
  | .sysMmap => [asInt args.e]
  | .sysOpen | .sysAccess | .sysReadlink | .sysMunmap | .sysCloseRange | .sysStatfs
  | .sysStatfs64 => []

def Syscall.addressArgs (args : Args) : Syscall → List Nat
  | .sysMmap | .sysMunmap => [args.a.toNat]
  | _ => []

def Syscall.pathArg (args : Args) : Syscall → Option (BitVec 64)
  | .sysOpen | .sysAccess | .sysReadlink | .sysStatfs | .sysStatfs64 => some args.a
  | .sysOpenat | .sysNameToHandleAt | .sysFaccessat | .sysFaccessat2 | .sysReadlinkat
  | .sysNewfstatat | .sysStatx => some args.b
  | _ => none

def normalPath (env : Env) (args : Args) (call : Syscall) : Option Path :=
  ((call.pathArg args).bind env.pathname).bind normalizeAbsolutePath

/-- A path that is neither registered nor above one that is, nor names an owned descriptor. -/
structure ForeignPath (st : VsyscallState) (p : Path) : Prop where
  unregistered : ∀ e ∈ st.seeds.entries, ¬p <+: e.1
  unowned : ∀ fd : Nat, isOwned st fd = true →
    p ≠ ["proc", "self", "fd", toString fd] ∧ p ≠ ["proc", "self", "fdinfo", toString fd]

structure Foreign (env : Env) (st : VsyscallState) (args : Args) (call : Syscall) : Prop where
  fds : ∀ fd ∈ call.fdArgs args, Table.find st.fdTable fd = none
  addresses : ∀ addr ∈ call.addressArgs args, ¬st.mmapTable.Tracks addr
  path : ∀ p, normalPath env args call = some p → ForeignPath st p

structure Answers (taken : Prop) (st : VsyscallState) (forward : Int) (reply : Reply) : Prop where
  consumed : taken → reply.forward = 0
  left : ¬taken → reply = notOurs st forward

theorem answers_notOurs : Answers False st forward (notOurs st forward) :=
  ⟨False.elim, fun _ => rfl⟩

theorem Answers.congr {taken other : Prop} {reply : Reply} (h : Answers taken st forward reply)
    (hiff : other ↔ taken) : Answers other st forward reply :=
  ⟨fun hother => h.consumed (hiff.mp hother), fun hnot => h.left (hiff.not.mp hnot)⟩

theorem resolve_of_foreign (h : ForeignPath st p) (hne : p ≠ []) :
    resolve st.namespaceState.snapshot st.namespaceState.live p = none := by
  have hcovered := covered_buildSnapshot st.seeds
  rw [st.built]
  cases hresolve : resolve (buildSnapshot st.seeds) st.namespaceState.live p with
  | none => rfl
  | some node =>
      rcases resolve_cases hresolve with ⟨b, attr, hattr, -, -⟩ | ⟨id, hvdev, -⟩ | ⟨hdir, -⟩
      · obtain ⟨e, he, rfl⟩ := hcovered.attrs p (by rw [hattr]; rfl)
        exact absurd (List.prefix_refl _) (h.unregistered e he)
      · obtain ⟨e, he, rfl⟩ := hcovered.nodes p (by rw [hvdev]; rfl)
        exact absurd (List.prefix_refl _) (h.unregistered e he)
      · rcases hcovered.dirs p hdir with hnil | ⟨e, he, hpre⟩
        · exact absurd hnil hne
        · exact absurd hpre (h.unregistered e he)

theorem resolve_root (h : ForeignPath st []) : ∃ vsysfs vmodule,
    resolve st.namespaceState.snapshot st.namespaceState.live [] =
      some (.vdir [] vsysfs vmodule) := by
  have hcovered := covered_buildSnapshot st.seeds
  rw [st.built]
  cases hresolve : resolve (buildSnapshot st.seeds) st.namespaceState.live [] with
  | none =>
      unfold resolve tryResolveDirNode at hresolve
      rw [Option.or_eq_none_iff, Option.map_eq_none_iff] at hresolve
      have hroot := hcovered.root
      unfold isDir at hroot
      rw [hresolve.2] at hroot
      cases hroot
  | some node =>
      rcases resolve_cases hresolve with ⟨b, attr, hattr, -, -⟩ | ⟨id, hvdev, -⟩ | ⟨-, rfl⟩
      · obtain ⟨e, he, hnil⟩ := hcovered.attrs [] (by rw [hattr]; rfl)
        exact absurd (hnil ▸ List.prefix_refl _) (h.unregistered e he)
      · obtain ⟨e, he, hnil⟩ := hcovered.nodes [] (by rw [hvdev]; rfl)
        exact absurd (hnil ▸ List.prefix_refl _) (h.unregistered e he)
      · exact ⟨_, _, rfl⟩

theorem lookup_root (h : ForeignPath st []) (forward : Int) (fromOwnedDfd trailingSlash : Bool) :
    ∃ vsysfs vmodule, ∀ next, lookupNodeFromResolvedPath st forward [] fromOwnedDfd trailingSlash
      next = next (.vdir [] vsysfs vmodule) := by
  obtain ⟨vsysfs, vmodule, hresolve⟩ := resolve_root h
  refine ⟨vsysfs, vmodule, fun next => ?_⟩
  unfold lookupNodeFromResolvedPath lookupNode
  rw [hresolve]
  simp [Node.isDir]

theorem lookup_of_foreign (h : ForeignPath st p) (hne : p ≠ []) (trailingSlash : Bool)
    (next : Node → Reply) :
    lookupNodeFromResolvedPath st forward p false trailingSlash next = notOurs st forward := by
  unfold lookupNodeFromResolvedPath lookupNode
  rw [resolve_of_foreign h hne]
  rfl

theorem answers_node {next : Node → Reply} {trailingSlash : Bool} (h : ForeignPath st p)
    (hnext : ∀ node, (next node).forward = 0) :
    Answers (p = []) st forward
      (lookupNodeFromResolvedPath st forward p false trailingSlash next) := by
  refine ⟨?_, fun hne => lookup_of_foreign h hne trailingSlash next⟩
  rintro rfl
  obtain ⟨vsysfs, vmodule, hroot⟩ := lookup_root h forward false trailingSlash
  rw [hroot next]
  exact hnext _

def Unowned (st : VsyscallState) (dfd : Int) : Prop :=
  dfd = atFdcwd ∨ Table.find st.fdTable dfd = none

theorem resolvePathAt_of_unowned (h : Unowned st dfd) :
    resolvePathAt st dfd pathname =
      match pathname.bind normalizeAbsolutePath with
      | none => .notOurs
      | some path => .resolved path false (hasTrailingSlash (pathname.getD "")) := by
  cases pathname with
  | none => rfl
  | some text =>
      rw [Option.bind_some]
      unfold resolvePathAt
      dsimp only
      by_cases habsolute : isAbsolute text = true
      · have hne : text ≠ "" := by
          rintro rfl
          cases habsolute
        rw [if_neg hne, if_pos habsolute]
        rfl
      · have hnone : normalizeAbsolutePath text = none := by
          unfold normalizeAbsolutePath
          rw [if_neg habsolute]
        rw [hnone, if_neg habsolute]
        split
        · rfl
        · split
          · rfl
          · rename_i hdfd
            rw [h.resolve_left hdfd]

theorem answers_path (taken : Path → Prop) {next : Path → Bool → Bool → Reply}
    (hdfd : Unowned st dfd)
    (hnext : ∀ p trailingSlash, pathname.bind normalizeAbsolutePath = some p →
      Answers (taken p) st forward (next p false trailingSlash)) :
    Answers (∃ p, pathname.bind normalizeAbsolutePath = some p ∧ taken p) st forward
      (resolvePathForDispatch st forward dfd pathname next) := by
  unfold resolvePathForDispatch
  rw [resolvePathAt_of_unowned hdfd]
  cases hnormal : pathname.bind normalizeAbsolutePath with
  | none => exact answers_notOurs.congr (by simp)
  | some p => exact (hnext p _ hnormal).congr (by simp)

theorem ownedFd_of_unowned {fd : Int} (h : Table.find st.fdTable fd = none) :
    dispatchOwnedFd env st call args forward fd = notOurs st forward := by
  unfold dispatchOwnedFd acquireForOp
  rw [h]
  rfl

theorem normal_of_emptyPathRequest (h : emptyPathRequest flags pathname = true) :
    pathname.bind normalizeAbsolutePath = none := by
  unfold emptyPathRequest at h
  simp only [Bool.and_eq_true, Bool.or_eq_true, beq_iff_eq] at h
  rcases h.2 with rfl | rfl <;> rfl

theorem answers_lookupStat
    (hdfd : Table.find st.fdTable dfd = none ∨ has flags atEmptyPath = false)
    (hunowned : Unowned st dfd)
    (hpath : ∀ p, pathname.bind normalizeAbsolutePath = some p → ForeignPath st p) :
    Answers (pathname.bind normalizeAbsolutePath = some []) st forward
      (dispatchLookupStat env st call args forward dfd pathname flags) := by
  unfold dispatchLookupStat
  split
  · rename_i hempty
    rw [normal_of_emptyPathRequest hempty]
    have hfind : Table.find st.fdTable dfd = none := by
      refine hdfd.resolve_right fun hflag => ?_
      unfold emptyPathRequest at hempty
      rw [hflag] at hempty
      cases hempty
    rw [ownedFd_of_unowned hfind]
    exact answers_notOurs.congr (by simp)
  · refine (answers_path (fun p => p = []) hunowned fun p trailingSlash hp => ?_).congr
      (by simp)
    exact answers_node (hpath p hp) fun node => rfl

theorem refusedAtOnce_of_unowned (h : Unowned st dfd) : refusedAtOnce st dfd pathname = false := by
  unfold refusedAtOnce isOwned
  rcases h with rfl | hfind
  · simp
  · simp [hfind]

theorem answers_lookupStatValidated {valid : Bool} (hdfd : Table.find st.fdTable dfd = none)
    (hpath : ∀ p, pathname.bind normalizeAbsolutePath = some p → ForeignPath st p) :
    Answers (pathname.bind normalizeAbsolutePath = some []) st forward
      (dispatchLookupStatValidated env st call args forward dfd pathname flags valid) := by
  unfold dispatchLookupStatValidated
  split
  · exact answers_lookupStat (.inl hdfd) (.inr hdfd) hpath
  · rw [refusedAtOnce_of_unowned (.inr hdfd), if_neg Bool.false_ne_true]
    refine (answers_path (fun p => p = []) (.inr hdfd) fun p trailingSlash hp => ?_).congr
      (by simp)
    rw [if_neg Bool.false_ne_true]
    exact answers_node (hpath p hp) fun node => rfl

theorem answers_faccessat (hdfd : Table.find st.fdTable dfd = none ∨ flags = 0)
    (hunowned : Unowned st dfd)
    (hpath : ∀ p, pathname.bind normalizeAbsolutePath = some p → ForeignPath st p) :
    Answers (pathname.bind normalizeAbsolutePath = some []) st forward
      (dispatchFaccessatCommon env st call args forward dfd pathname flags) := by
  unfold dispatchFaccessatCommon
  split
  · refine answers_lookupStat (hdfd.imp_right ?_) hunowned hpath
    rintro rfl
    decide
  · rename_i hinvalid
    have hfind : Table.find st.fdTable dfd = none := by
      refine hdfd.resolve_right ?_
      rintro rfl
      exact hinvalid (by decide)
    rw [refusedAtOnce_of_unowned hunowned, if_neg Bool.false_ne_true]
    split
    · rename_i hempty
      unfold acquireForOp
      rw [hfind, normal_of_emptyPathRequest hempty]
      exact answers_notOurs.congr (by simp)
    · refine (answers_path (fun p => p = []) hunowned fun p trailingSlash hp => ?_).congr
        (by simp)
      rw [if_neg Bool.false_ne_true]
      rcases eq_or_ne p [] with rfl | hne
      · obtain ⟨vsysfs, vmodule, hroot⟩ := resolve_root (hpath [] hp)
        rw [hroot]
        exact ⟨fun _ => rfl, fun hnot => absurd rfl hnot⟩
      · rw [resolve_of_foreign (hpath p hp) hne]
        exact answers_notOurs.congr (by simp [hne])

theorem answers_statfs (hpath : ∀ p, pathname.bind normalizeAbsolutePath = some p →
    ForeignPath st p) :
    Answers False st forward (dispatchStatfs env st call args forward pathname) := by
  refine (answers_path (fun _ => False) (.inl rfl) fun p trailingSlash hp => ?_).congr
    (by simp)
  rcases eq_or_ne p [] with rfl | hne
  · obtain ⟨vsysfs, vmodule, hroot⟩ := lookup_root (hpath [] hp) forward false trailingSlash
    rw [hroot]
    exact answers_notOurs
  · rw [lookup_of_foreign (hpath p hp) hne]
    exact answers_notOurs

theorem answers_readlinkat (hdfd : Unowned st dfd)
    (hpath : ∀ p, pathname.bind normalizeAbsolutePath = some p → ForeignPath st p) :
    Answers (∃ p, pathname.bind normalizeAbsolutePath = some p ∧
        ((hardwiredTarget st.namespaceState p).isSome = true ∨ p = [])) st forward
      (dispatchReadlinkat env st call args forward dfd pathname) := by
  refine answers_path _ hdfd fun p trailingSlash hp => ?_
  split
  · rename_i target htarget
    exact ⟨fun _ => rfl, fun hnot => absurd (.inl (by rw [htarget]; rfl)) hnot⟩
  · rename_i htarget
    exact (answers_node (hpath p hp) fun node => rfl).congr (by simp [htarget])

theorem answers_openat (hdfd : Unowned st dfd)
    (hpath : ∀ p, pathname.bind normalizeAbsolutePath = some p → ForeignPath st p)
    (hread : ∀ p, pathname.bind normalizeAbsolutePath = some p →
      procFdinfoTarget st p = none ∧ rewriteProcSelfFdPathForOpen st p = none) :
    Answers (pathname.bind normalizeAbsolutePath = some []) st forward
      (dispatchOpenat env st call args forward dfd pathname) := by
  refine (answers_path (fun p => p = []) hdfd fun p trailingSlash hp => ?_).congr (by simp)
  rw [(hread p hp).1, (hread p hp).2]
  exact answers_node (hpath p hp) fun node => rfl

theorem answers_nameToHandleAt (hdfd : Table.find st.fdTable dfd = none)
    (hpath : ∀ p, pathname.bind normalizeAbsolutePath = some p → ForeignPath st p)
    (hread : ∀ p, pathname.bind normalizeAbsolutePath = some p →
      rewriteProcSelfFdPathForOpen st p = none) :
    Answers (pathname.bind normalizeAbsolutePath = some []) st forward
      (dispatchNameToHandleAt st forward dfd pathname flags) := by
  unfold dispatchNameToHandleAt
  split
  · rename_i hempty
    unfold isOwned
    rw [hdfd, normal_of_emptyPathRequest hempty]
    exact answers_notOurs.congr (by simp)
  · refine (answers_path (fun p => p = []) (.inr hdfd) fun p trailingSlash hp => ?_).congr
      (by simp)
    rw [hread p hp]
    exact answers_node (hpath p hp) fun node => rfl

theorem answers_munmap (h : ¬st.mmapTable.Tracks args.a.toNat) :
    Answers (st.mmapTable.OverflowsAbove args.a.toNat args.b.toNat) st forward
      (dispatchMunmap env st args forward) := by
  unfold dispatchMunmap
  rw [prepareMunmap_untracked h]
  constructor
  · intro hoverflow
    rw [if_pos hoverflow]
    rfl
  · intro hinside
    rw [if_neg hinside]
    rfl

/-- The foreign calls that are answered by design: a request to unmap that is refused, the root,
which is a virtual directory always, and the links that `readlink` knows without a node. -/
inductive Taken (env : Env) (st : VsyscallState) (args : Args) : Syscall → Prop
  | munmap : st.mmapTable.OverflowsAbove args.a.toNat args.b.toNat → Taken env st args .sysMunmap
  | root {call : Syscall} : normalPath env args call = some [] → call ≠ .sysStatfs →
      call ≠ .sysStatfs64 → Taken env st args call
  | link {call : Syscall} {p : Path} : normalPath env args call = some p →
      call = .sysReadlink ∨ call = .sysReadlinkat →
      (hardwiredTarget st.namespaceState p).isSome = true → Taken env st args call

/-- The path is read as the one of an owned descriptor below `/proc/self`, in whatever decimal
spelling; one with leading zeros is not the name of that descriptor. -/
inductive ReadAsOwned (env : Env) (st : VsyscallState) (args : Args) : Syscall → Prop
  | fdinfo {call : Syscall} {p : Path} : normalPath env args call = some p →
      call = .sysOpen ∨ call = .sysOpenat → procFdinfoTarget st p ≠ none →
      ReadAsOwned env st args call
  | fd {call : Syscall} {p : Path} : normalPath env args call = some p →
      call = .sysOpen ∨ call = .sysOpenat ∨ call = .sysNameToHandleAt →
      rewriteProcSelfFdPathForOpen st p ≠ none → ReadAsOwned env st args call

theorem taken_iff_root
    (hcall : call ∉ [.sysMunmap, .sysStatfs, .sysStatfs64, .sysReadlink, .sysReadlinkat]) :
    Taken env st args call ↔ normalPath env args call = some [] := by
  simp only [List.mem_cons, List.not_mem_nil, or_false, not_or] at hcall
  obtain ⟨hmunmap, hstatfs, hstatfs64, hreadlink, hreadlinkat⟩ := hcall
  constructor
  · intro h
    cases h with
    | munmap => exact absurd rfl hmunmap
    | root hroot => exact hroot
    | link hpath hlink => exact absurd hlink (not_or.mpr ⟨hreadlink, hreadlinkat⟩)
  · exact fun hroot => .root hroot hstatfs hstatfs64

theorem taken_iff_link (hcall : call = .sysReadlink ∨ call = .sysReadlinkat) :
    Taken env st args call ↔ ∃ p, normalPath env args call = some p ∧
      ((hardwiredTarget st.namespaceState p).isSome = true ∨ p = []) := by
  constructor
  · intro h
    cases h with
    | munmap => simp at hcall
    | root hroot => exact ⟨[], hroot, .inr rfl⟩
    | link hpath hlink htarget => exact ⟨_, hpath, .inl htarget⟩
  · rintro ⟨p, hpath, htarget | rfl⟩
    · exact .link hpath hcall htarget
    · rcases hcall with rfl | rfl
      · exact .root hpath (by decide) (by decide)
      · exact .root hpath (by decide) (by decide)

theorem not_taken_statfs (hcall : call = .sysStatfs ∨ call = .sysStatfs64) :
    ¬Taken env st args call := by
  intro h
  cases h with
  | munmap => simp at hcall
  | root hroot hstatfs hstatfs64 => exact absurd hcall (not_or.mpr ⟨hstatfs, hstatfs64⟩)
  | link hpath hlink => rcases hlink with rfl | rfl <;> simp at hcall

theorem taken_munmap_iff : Taken env st args .sysMunmap ↔
    st.mmapTable.OverflowsAbove args.a.toNat args.b.toNat := by
  constructor
  · intro h
    cases h with
    | munmap hoverflow => exact hoverflow
    | root hroot => cases hroot
    | link hpath => cases hpath
  · exact .munmap

theorem not_readAsOwned_of_taken (h : Taken env st args call) : ¬ReadAsOwned env st args call := by
  intro hread
  have hroot : call = .sysOpen ∨ call = .sysOpenat ∨ call = .sysNameToHandleAt →
      normalPath env args call = some [] := by
    rintro (rfl | rfl | rfl) <;> exact (taken_iff_root (by decide)).mp h
  cases hread with
  | fdinfo hpath hcall htarget =>
      rw [hroot (hcall.imp_right .inl)] at hpath
      cases hpath
      exact htarget rfl
  | fd hpath hcall htarget =>
      rw [hroot hcall] at hpath
      cases hpath
      exact htarget rfl

theorem fdMutation_of_unowned {fd : Int} (h : Table.find st.fdTable fd = none) :
    dispatchFdMutation env st call args forward fd = notOurs st forward := by
  unfold dispatchFdMutation
  rw [h]

theorem dup2_of_unowned {oldfd newfd : Int} (hold : Table.find st.fdTable oldfd = none)
    (hnew : Table.find st.fdTable newfd = none) :
    dispatchDup2 env st call args forward oldfd newfd = notOurs st forward := by
  unfold dispatchDup2 isOwned
  rw [hold, hnew]
  rfl

theorem fstatfs_of_unowned {fd : Int} (h : Table.find st.fdTable fd = none) :
    dispatchFstatfs env st call args forward fd = notOurs st forward := by
  unfold dispatchFstatfs acquireForOp
  rw [h]
  rfl

theorem answers_of_left {reply : Reply} (hcall : call ∉ [.sysMunmap, .sysStatfs, .sysStatfs64,
      .sysReadlink, .sysReadlinkat]) (hpath : normalPath env args call = none)
    (hreply : reply = notOurs st forward) :
    Answers (Taken env st args call) st forward reply := by
  rw [hreply]
  refine answers_notOurs.congr ?_
  rw [taken_iff_root hcall, hpath]
  simp

theorem open_target_none (hread : ¬ReadAsOwned env st args call)
    (hcall : call = .sysOpen ∨ call = .sysOpenat) (p : Path)
    (hp : normalPath env args call = some p) :
    procFdinfoTarget st p = none ∧ rewriteProcSelfFdPathForOpen st p = none := by
  constructor
  · by_contra htarget
    exact hread (.fdinfo hp hcall htarget)
  · by_contra htarget
    exact hread (.fd hp (hcall.imp_right .inl) htarget)

theorem answers_dispatchCall (h : Foreign env st args call) (hread : ¬ReadAsOwned env st args call)
    (hmmap : call ≠ .sysMmap) (hcloseRange : call ≠ .sysCloseRange) :
    Answers (Taken env st args call) st forward (dispatchCall env st call args forward) := by
  cases call
  case sysMmap => exact absurd rfl hmmap
  case sysCloseRange => exact absurd rfl hcloseRange
  case sysOpen =>
      exact (answers_openat (.inl rfl) h.path (open_target_none hread (.inl rfl))).congr
        (taken_iff_root (by decide))
  case sysOpenat =>
      exact (answers_openat (.inr (h.fds _ List.mem_cons_self)) h.path
        (open_target_none hread (.inr rfl))).congr (taken_iff_root (by decide))
  case sysNameToHandleAt =>
      refine (answers_nameToHandleAt (h.fds _ List.mem_cons_self) h.path fun p hp => ?_).congr
        (taken_iff_root (by decide))
      by_contra htarget
      exact hread (.fd hp (.inr (.inr rfl)) htarget)
  case sysAccess =>
      exact (answers_faccessat (.inr rfl) (.inl rfl) h.path).congr (taken_iff_root (by decide))
  case sysFaccessat | sysFaccessat2 =>
      have hdfd := h.fds _ List.mem_cons_self
      exact (answers_faccessat (.inl hdfd) (.inr hdfd) h.path).congr (taken_iff_root (by decide))
  case sysReadlinkat =>
      exact (answers_readlinkat (.inr (h.fds _ List.mem_cons_self)) h.path).congr
        (taken_iff_link (.inr rfl))
  case sysReadlink =>
      exact (answers_readlinkat (.inl rfl) h.path).congr (taken_iff_link (.inl rfl))
  case sysMunmap =>
      exact (answers_munmap (h.addresses _ List.mem_cons_self)).congr taken_munmap_iff
  case sysNewfstatat | sysStatx =>
      exact (answers_lookupStatValidated (h.fds _ List.mem_cons_self) h.path).congr
        (taken_iff_root (by decide))
  case sysStatfs =>
      exact (answers_statfs h.path).congr (iff_of_false (not_taken_statfs (.inl rfl)) id)
  case sysStatfs64 =>
      exact (answers_statfs h.path).congr (iff_of_false (not_taken_statfs (.inr rfl)) id)
  case sysClose | sysDup =>
      exact answers_of_left (by decide) rfl (fdMutation_of_unowned (h.fds _ List.mem_cons_self))
  case sysDup2 | sysDup3 =>
      exact answers_of_left (by decide) rfl (dup2_of_unowned (h.fds _ List.mem_cons_self)
        (h.fds _ (List.mem_cons_of_mem _ List.mem_cons_self)))
  case sysFstatfs =>
      exact answers_of_left (by decide) rfl (fstatfs_of_unowned (h.fds _ List.mem_cons_self))
  all_goals
    exact answers_of_left (by decide) rfl (ownedFd_of_unowned (h.fds _ List.mem_cons_self))

/-- Of a foreign `mmap` nothing but the table of mappings can change. -/
theorem mmap_of_foreign (h : Foreign env st args .sysMmap) (forward : Int) :
    ∃ table, dispatchCall env st .sysMmap args forward =
      notOurs (st.withMmapTable table) forward := by
  unfold dispatchCall dispatchMmap
  dsimp only
  rw [ownedFd_of_unowned (h.fds _ List.mem_cons_self)]
  exact ⟨_, rfl⟩

structure Left (env : Env) (st : VsyscallState) (args : Args) (call : Syscall) : Prop where
  notCloseRange : call ≠ .sysCloseRange
  notTaken : ¬Taken env st args call
  notReadAsOwned : ¬ReadAsOwned env st args call

structure ForeignReply (env : Env) (st : VsyscallState) (number : Int) (args : Args)
    (forward : Int) (reply : Reply) : Prop where
  taken : ∀ call, env.syscall number = some call → Taken env st args call → reply.forward = 0
  forwards : (∀ call, env.syscall number = some call → Left env st args call) →
    reply.forward = forward
  unchanged : (∀ call, env.syscall number = some call → Left env st args call) →
    env.syscall number ≠ some .sysMmap → reply.state = st
  /-- What `mmap` enters into the table of mappings is left open. -/
  mmap : env.syscall number = some .sysMmap →
    reply.state = st.withMmapTable reply.state.mmapTable
  /-- The kernel's call is made here, and its result returned. -/
  closeRange : env.syscall number = some .sysCloseRange →
    collectOwnedFdsInRange st (args.a.setWidth 32) (args.b.setWidth 32) = [] →
    reply.state = st ∧ reply.ret = (env.closeRange (args.a.setWidth 32) (args.b.setWidth 32)
      (args.c.setWidth 32)).map fun _ => 0

theorem closeRange_of_foreign
    (h : collectOwnedFdsInRange st (args.a.setWidth 32) (args.b.setWidth 32) = []) :
    (dispatchCloseRange env st call args).state = st ∧
      (dispatchCloseRange env st call args).ret = (env.closeRange (args.a.setWidth 32)
        (args.b.setWidth 32) (args.c.setWidth 32)).map fun _ => 0 := by
  unfold dispatchCloseRange
  cases env.closeRange (args.a.setWidth 32) (args.b.setWidth 32) (args.c.setWidth 32) with
  | error errno => exact ⟨rfl, rfl⟩
  | ok done =>
      dsimp only
      rw [if_pos h]
      exact ⟨rfl, rfl⟩

theorem forward_closeRange : (dispatchCloseRange env st call args).forward = 0 := by
  unfold dispatchCloseRange
  split
  · rfl
  · split <;> rfl

theorem foreignReply_of_call {number : Int} (hnumber : env.syscall number = some call)
    (h : Foreign env st args call) :
    ForeignReply env st number args forward (dispatchCall env st call args forward) := by
  have hsame : ∀ other, env.syscall number = some other → call = other := fun other hother =>
    Option.some.inj (hnumber.symm.trans hother)
  by_cases hmmap : call = .sysMmap
  · subst hmmap
    obtain ⟨table, hreply⟩ := mmap_of_foreign h forward
    rw [hreply]
    refine ⟨?_, fun _ => rfl, fun _ hne => absurd hnumber hne, fun _ => rfl, ?_⟩
    · intro other hother htaken
      cases hsame other hother
      cases (taken_iff_root (by decide)).mp htaken
    · intro hcloseRange
      cases hsame _ hcloseRange
  · by_cases hcloseRange : call = .sysCloseRange
    · subst hcloseRange
      refine ⟨fun _ _ _ => forward_closeRange, ?_, ?_, ?_, fun _ => closeRange_of_foreign⟩
      · intro hleft
        exact absurd rfl (hleft _ hnumber).notCloseRange
      · intro hleft
        exact absurd rfl (hleft _ hnumber).notCloseRange
      · intro hother
        cases hsame _ hother
    · refine ⟨?_, ?_, ?_, ?_, ?_⟩
      · intro other hother htaken
        cases hsame other hother
        exact (answers_dispatchCall h (not_readAsOwned_of_taken htaken) hmmap
          hcloseRange).consumed htaken
      · intro hleft
        obtain ⟨-, htaken, hread⟩ := hleft call hnumber
        rw [(answers_dispatchCall h hread hmmap hcloseRange).left htaken]
        rfl
      · intro hleft _
        obtain ⟨-, htaken, hread⟩ := hleft call hnumber
        rw [(answers_dispatchCall h hread hmmap hcloseRange).left htaken]
        rfl
      · intro hother
        exact absurd (hsame _ hother) hmmap
      · intro hother
        exact absurd (hsame _ hother) hcloseRange

/-- The numbers of the calls on x86-64, which has no `fcntl64` and no `statfs64`. -/
def syscallNumber : Int → Option Syscall
  | 0 => some .sysRead
  | 1 => some .sysWrite
  | 2 => some .sysOpen
  | 3 => some .sysClose
  | 5 => some .sysFstat
  | 8 => some .sysLseek
  | 9 => some .sysMmap
  | 11 => some .sysMunmap
  | 16 => some .sysIoctl
  | 21 => some .sysAccess
  | 32 => some .sysDup
  | 33 => some .sysDup2
  | 72 => some .sysFcntl
  | 78 => some .sysGetdents
  | 89 => some .sysReadlink
  | 137 => some .sysStatfs
  | 138 => some .sysFstatfs
  | 217 => some .sysGetdents64
  | 257 => some .sysOpenat
  | 262 => some .sysNewfstatat
  | 267 => some .sysReadlinkat
  | 269 => some .sysFaccessat
  | 292 => some .sysDup3
  | 303 => some .sysNameToHandleAt
  | 332 => some .sysStatx
  | 436 => some .sysCloseRange
  | 439 => some .sysFaccessat2
  | _ => none

/-- The state of the registered objects, with open descriptors and mappings. -/
def VsyscallState.ofRegistry (r : Registry) (h : r.WellNamed) (fdTable : List (Int × OpenFd))
    (mmapTable : MmapTable) : VsyscallState :=
  ⟨fdTable, mmapTable, .ofRegistry r h, r.shape.seeds, rfl⟩

def noObjects : Registry := ⟨[], [], [], [], [], [], []⟩

def rankRegistry : Registry := { noObjects with vdevs := [⟨"rank0", 240, 0⟩], vdevList := [0] }

theorem rankRegistry_wellNamed : rankRegistry.WellNamed :=
  ⟨by decide, by simp [rankRegistry, noObjects], by simp [rankRegistry, noObjects],
    by simp [rankRegistry, noObjects]⟩

/-- The device is open as descriptor 7 and has a page mapped at 4096. -/
def deviceState : VsyscallState :=
  .ofRegistry rankRegistry rankRegistry_wellNamed [(7, ⟨.vdev 0, "/dev/rank0", false⟩)]
    (MmapTable.empty.track 4096 4096)

/-- A caller with four texts, and no descriptor left for an open. -/
def callerEnv : Env where
  syscall := syscallNumber
  text := fun pointer =>
    if pointer = 0x1000 then "/sys/class/subsystem"
    else if pointer = 0x2000 then "/proc/self/fdinfo/007"
    else if pointer = 0x3000 then "/etc/hosts"
    else "/"
  serve := fun st _ _ found =>
    match found with
    | .link target => (.ok target.length, st)
    | .procFdinfo _ => (.error .emfile, st)
    | .fds _ _ | .node _ => (.ok 0, st)
  munmap := fun _ _ => .ok ()
  closeRange := fun _ _ _ => .ok ()

end HostPimSim.Vfile.Namespace
