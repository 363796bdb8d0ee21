import HostPimSim.Vfile.Mappings
import HostPimSim.Vfile.Metadata
import HostPimSim.Vfile.SymlinkViews

/-! `_pim_vsyscall_dispatch`: which calls it takes and which it leaves to the kernel.  What a call
does once it is taken is an argument here. -/
namespace HostPimSim.Vfile.Namespace
open Attribute Mapping

inductive Syscall where
  | sysOpen
  | sysOpenat
  | sysNameToHandleAt
  | sysAccess
  | sysFaccessat
  | sysFaccessat2
  | sysReadlinkat
  | sysReadlink
  | sysFcntl
  | sysFcntl64
  | sysIoctl
  | sysRead
  | sysWrite
  | sysGetdents64
  | sysGetdents
  | sysMmap
  | sysMunmap
  | sysClose
  | sysDup
  | sysDup2
  | sysDup3
  | sysCloseRange
  | sysFstat
  | sysFstatfs
  | sysNewfstatat
  | sysStatfs
  | sysStatfs64
  | sysStatx
  | sysLseek
  deriving DecidableEq

structure Args where
  a : BitVec 64
  b : BitVec 64
  c : BitVec 64
  d : BitVec 64
  e : BitVec 64
  f : BitVec 64

/-- The cast of an argument to `int`. -/
def asInt (word : BitVec 64) : Int := (word.setWidth 32).toInt

def asFlags (word : BitVec 64) : Flags := word.setWidth 32

/-- What the dispatch reads of a `vfile_fd_entry`; the path is empty if there is none. -/
structure OpenFd where
  type : EntryType
  virtualPath : String
  closing : Bool

/-- The tables, and the namespace as a build over the registered objects makes it. -/
structure VsyscallState where
  fdTable : List (Int × OpenFd)
  mmapTable : MmapTable
  namespaceState : VirtualState
  seeds : Seeds
  built : namespaceState.snapshot = buildSnapshot seeds

inductive Found where
  | fds (old new : Option OpenFd)
  | procFdinfo (fd : Nat)
  | node (found : Node)
  | link (target : String)

/-- What stands around the dispatch: the numbers of the calls, the texts that pointers lead to,
what is done about a call that is taken, and two calls of the kernel. -/
structure Env where
  syscall : Int → Option Syscall
  text : BitVec 64 → String
  serve : VsyscallState → Syscall → Args → Found → Except Errno Int × VsyscallState
  munmap : Nat → Nat → Except Errno Unit
  closeRange : BitVec 32 → BitVec 32 → BitVec 32 → Except Errno Unit

def Env.pathname (env : Env) (pointer : BitVec 64) : Option String :=
  if pointer = 0 then none else some (env.text pointer)

/-- `*forward`, the result and the state after a dispatch. -/
structure Reply where
  forward : Int
  ret : Except Errno Int
  state : VsyscallState

def notOurs (st : VsyscallState) (forward : Int) : Reply := ⟨forward, .ok 0, st⟩

/-- `vsyscall_consume_and_fail` -/
def consumeAndFail (st : VsyscallState) (errno : Errno) : Reply := ⟨0, .error errno, st⟩

/-- `vsyscall_consume_syscall` and what follows it. -/
def consume (env : Env) (st : VsyscallState) (call : Syscall) (args : Args) (found : Found) :
    Reply :=
  let served := env.serve st call args found
  ⟨0, served.1, served.2⟩

def isOwned (st : VsyscallState) (fd : Int) : Bool := (Table.find st.fdTable fd).isSome

/-- `vsyscall_fd_acquire_for_op` -/
def acquireForOp (st : VsyscallState) (fd : Int) : Option OpenFd :=
  (Table.find st.fdTable fd).filter fun entry => !entry.closing

section

variable (env : Env) (st : VsyscallState) (call : Syscall) (args : Args) (forward : Int)

def dispatchOwnedFd (fd : Int) : Reply :=
  match acquireForOp st fd with
  | none => notOurs st forward
  | some entry => consume env st call args (.fds (some entry) none)

/-- `vsyscall_dispatch_fd_mutation` of `close` and `dup`. -/
def dispatchFdMutation (fd : Int) : Reply :=
  match Table.find st.fdTable fd with
  | none => notOurs st forward
  | some entry => consume env st call args (.fds (some entry) none)

/-- `dispatch_dup2_enter` -/
def dispatchDup2 (oldfd newfd : Int) : Reply :=
  if isOwned st oldfd = true ∨ isOwned st newfd = true then
    consume env st call args (.fds (Table.find st.fdTable oldfd) (Table.find st.fdTable newfd))
  else notOurs st forward

/-- The descriptors of `vsyscall_collect_owned_fds_in_range`. -/
def collectOwnedFdsInRange (first last : BitVec 32) : List Int :=
  (Table.keys st.fdTable).filter fun fd => 0 ≤ fd ∧ first.toNat ≤ fd ∧ fd ≤ last.toNat

/-- `dispatch_close_range` runs the kernel's call; what follows it only if there are owned
descriptors in the range. -/
def dispatchCloseRange : Reply :=
  match env.closeRange (args.a.setWidth 32) (args.b.setWidth 32) (args.c.setWidth 32) with
  | .error errno => consumeAndFail st errno
  | .ok _ =>
      if collectOwnedFdsInRange st (args.a.setWidth 32) (args.b.setWidth 32) = [] then
        ⟨0, .ok 0, st⟩
      else consume env st call args (.fds none none)

def isUnderSys (path : String) : Bool := path == "/sys" || "/sys/".toList.isPrefixOf path.toList

/-- `vsyscall_is_sysfs_owned_entry_for_statfs` -/
def OpenFd.isSysfs (entry : OpenFd) : Bool :=
  match entry.type with
  | .attr _ _ => true
  | .vdir => isUnderSys entry.virtualPath
  | .vdev _ | .procFdinfo _ => false

def dispatchFstatfs (fd : Int) : Reply :=
  match acquireForOp st fd with
  | none => notOurs st forward
  | some entry =>
      if entry.isSysfs then consume env st call args (.fds (some entry) none)
      else notOurs st forward

def VsyscallState.withMmapTable (mmapTable : MmapTable) : VsyscallState := { st with mmapTable }

def dispatchMmap : Reply :=
  let reply := dispatchOwnedFd env st call args forward (asInt args.e)
  match reply.ret with
  | .error _ => reply
  | .ok ret =>
      if 0 ≤ ret then
        { reply with
          state := reply.state.withMmapTable
            (reply.state.mmapTable.track ret.toNat args.b.toNat) }
      else reply

def dispatchMunmap : Reply :=
  match prepareMunmap st.mmapTable args.a.toNat args.b.toNat with
  | .notOurs table => notOurs (st.withMmapTable table) forward
  | .invalid => consumeAndFail st .einval
  | .ready context =>
      match env.munmap args.a.toNat args.b.toNat with
      | .error errno => consumeAndFail st errno
      | .ok _ => ⟨0, .ok 0, st.withMmapTable (updateAfterMunmap st.mmapTable context)⟩

def atFdcwd : Int := -100

def isRelativePath (pathname : String) : Bool := pathname != "" && !isAbsolute pathname

/-- `vsyscall_path_resolve_status`, with the path that is resolved, whether it was read from an
owned directory, and whether a slash follows it. -/
inductive PathResolved where
  | notOurs
  | failed (errno : Errno)
  | resolved (path : Path) (fromOwnedDfd trailingSlash : Bool)

def joinOwned (entry : OpenFd) (pathname : String) : String :=
  if entry.virtualPath = "/" then entry.virtualPath ++ pathname
  else entry.virtualPath ++ "/" ++ pathname

def EntryType.isDir : EntryType → Bool
  | .vdir => true
  | .vdev _ | .attr _ _ | .procFdinfo _ => false

/-- `vsyscall_resolve_path_at` -/
def resolvePathAt (dfd : Int) : Option String → PathResolved
  | none => .notOurs
  | some pathname =>
      if pathname = "" then .notOurs
      else if isAbsolute pathname then
        match normalizeAbsolutePath pathname with
        | none => .notOurs
        | some path => .resolved path false (hasTrailingSlash pathname)
      else if dfd = atFdcwd then .notOurs
      else
        match Table.find st.fdTable dfd with
        | none => .notOurs
        | some entry =>
            if entry.type.isDir = false ∨ entry.virtualPath = "" then .failed .enotdir
            else
              match normalizeAbsolutePath (joinOwned entry pathname) with
              | none => .failed .einval
              | some path => .resolved path true (hasTrailingSlash pathname)

/-- `vsyscall_dispatch_resolve_path_for_dispatch`, and what is done with the path. -/
def resolvePathForDispatch (dfd : Int) (pathname : Option String)
    (next : Path → Bool → Bool → Reply) : Reply :=
  match resolvePathAt st dfd pathname with
  | .notOurs => notOurs st forward
  | .failed errno => consumeAndFail st errno
  | .resolved path fromOwnedDfd trailingSlash => next path fromOwnedDfd trailingSlash

/-- `vsyscall_return_not_ours_or_fail` -/
def notOursOrFail (fromOwnedDfd : Bool) : Reply :=
  if fromOwnedDfd then consumeAndFail st .enoent else notOurs st forward

/-- `vsyscall_dispatch_lookup_node_from_resolved_path`, and what is done with the node. -/
def lookupNodeFromResolvedPath (path : Path) (fromOwnedDfd trailingSlash : Bool)
    (next : Node → Reply) : Reply :=
  match lookupNode st.namespaceState path trailingSlash with
  | some (.ok node) => next node
  | some (.error errno) => consumeAndFail st errno
  | none => notOursOrFail st forward fromOwnedDfd

def atSymlinkNofollow : Flags := 0x100
def atEaccess : Flags := 0x200
def atNoAutomount : Flags := 0x800
def atEmptyPath : Flags := 0x1000
def atStatxSyncType : Flags := 0x6000

/-- Whether a call with `AT_EMPTY_PATH` is about the descriptor itself. -/
def emptyPathRequest (flags : Flags) (pathname : Option String) : Bool :=
  has flags atEmptyPath && (pathname == none || pathname == some "")

def dispatchLookupStat (dfd : Int) (pathname : Option String) (flags : Flags) : Reply :=
  if emptyPathRequest flags pathname then dispatchOwnedFd env st call args forward dfd
  else
    resolvePathForDispatch st forward dfd pathname fun path fromOwnedDfd trailingSlash =>
      lookupNodeFromResolvedPath st forward path fromOwnedDfd trailingSlash fun node =>
        consume env st call args (.node node)

def refusedAtOnce (dfd : Int) (pathname : Option String) : Bool :=
  dfd != atFdcwd && isOwned st dfd &&
    match pathname with
    | none => false
    | some text => isRelativePath text || text == ""

/-- `vsyscall_dispatch_lookup_stat_validated` -/
def dispatchLookupStatValidated (dfd : Int) (pathname : Option String) (flags : Flags)
    (valid : Bool) : Reply :=
  if valid then dispatchLookupStat env st call args forward dfd pathname flags
  else if refusedAtOnce st dfd pathname then consumeAndFail st .einval
  else
    resolvePathForDispatch st forward dfd pathname fun path fromOwnedDfd trailingSlash =>
      if fromOwnedDfd then consumeAndFail st .einval
      else
        lookupNodeFromResolvedPath st forward path fromOwnedDfd trailingSlash fun _ =>
          consumeAndFail st .einval

def validateKnownFlags (flags supported : Flags) : Bool := flags &&& ~~~supported == 0

def supportedAtPathFlags : Flags := atSymlinkNofollow ||| atEmptyPath

def supportedAtLookupFlags : Flags := supportedAtPathFlags ||| atNoAutomount

def dispatchNewfstatat : Reply :=
  dispatchLookupStatValidated env st call args forward (asInt args.a) (env.pathname args.b)
    (asFlags args.d) (validateKnownFlags (asFlags args.d) supportedAtLookupFlags)

/-- `AT_STATX_SYNC_AS_STAT`, `AT_STATX_FORCE_SYNC` and `AT_STATX_DONT_SYNC` exclude each other. -/
def validateStatxFlags (flags : Flags) : Bool :=
  validateKnownFlags flags (supportedAtLookupFlags ||| atStatxSyncType) &&
    (flags &&& atStatxSyncType) != atStatxSyncType

/-- All bits that `vsyscall_supported_statx_mask_bits` collects. -/
def supportedStatxMaskBits : Flags := 0x1bfff

def dispatchStatx : Reply :=
  dispatchLookupStatValidated env st call args forward (asInt args.a) (env.pathname args.b)
    (asFlags args.c)
    (validateStatxFlags (asFlags args.c) &&
      validateKnownFlags (asFlags args.d) supportedStatxMaskBits)

/-- `dispatch_faccessat_common`; with unknown flags the lookup does not mind a trailing slash. -/
def dispatchFaccessatCommon (dfd : Int) (pathname : Option String) (flags : Flags) : Reply :=
  if validateKnownFlags flags (supportedAtPathFlags ||| atEaccess) then
    dispatchLookupStat env st call args forward dfd pathname flags
  else if refusedAtOnce st dfd pathname then consumeAndFail st .einval
  else if emptyPathRequest flags pathname then
    match acquireForOp st dfd with
    | none => notOurs st forward
    | some _ => consumeAndFail st .einval
  else
    resolvePathForDispatch st forward dfd pathname fun path fromOwnedDfd _ =>
      if fromOwnedDfd then consumeAndFail st .einval
      else
        match resolve st.namespaceState.snapshot st.namespaceState.live path with
        | some _ => consumeAndFail st .einval
        | none => notOurs st forward

/-- `vsyscall_is_sysfs_virtual_node_for_statfs` -/
def Node.isSysfs : Node → Bool
  | .attrNode _ _ _ _ _ => true
  | .vdir path _ _ => isUnderSys (pathText path)
  | .vdevNode _ _ => false

/-- `vsyscall_dispatch_statfs_for_path`, and `dispatch_statfs64` whatever size it is given. -/
def dispatchStatfs (pathname : Option String) : Reply :=
  resolvePathForDispatch st forward atFdcwd pathname fun path fromOwnedDfd trailingSlash =>
    lookupNodeFromResolvedPath st forward path fromOwnedDfd trailingSlash fun node =>
      if node.isSysfs then consume env st call args (.node node)
      else notOursOrFail st forward fromOwnedDfd

def dispatchReadlinkat (dfd : Int) (pathname : Option String) : Reply :=
  resolvePathForDispatch st forward dfd pathname fun path fromOwnedDfd trailingSlash =>
    match hardwiredTarget st.namespaceState path with
    | some target => consume env st call args (.link target)
    | none =>
        lookupNodeFromResolvedPath st forward path fromOwnedDfd trailingSlash fun node =>
          consume env st call args (.node node)

/-- The loop of `vsyscall_parse_proc_self_numeric_path`. -/
def parseDigits (fd : Nat) : List Char → Option Nat
  | [] => some fd
  | c :: rest =>
      if c.isDigit then
        if fd > (2 ^ 31 - 1 - (c.toNat - '0'.toNat)) / 10 then none
        else parseDigits (fd * 10 + (c.toNat - '0'.toNat)) rest
      else none

/-- `vsyscall_parse_proc_self_numeric_path` of a normalized path below `/proc/self`. -/
def parseProcSelfNumericPath (directory : String) : Path → Option Nat
  | ["proc", "self", name, digits] =>
      if name = directory ∧ digits ≠ "" then parseDigits 0 digits.toList else none
  | _ => none

def rewriteProcSelfFdPathForOpen (path : Path) : Option Path :=
  (parseProcSelfNumericPath "fd" path).bind fun procfd =>
    (Table.find st.fdTable procfd).bind fun entry =>
      if entry.virtualPath = "" then none else normalizeAbsolutePath entry.virtualPath

/-- The owned descriptor whose `fdinfo` is opened. -/
def procFdinfoTarget (path : Path) : Option Nat :=
  (parseProcSelfNumericPath "fdinfo" path).filter fun fd => isOwned st fd

def dispatchOpenat (dfd : Int) (pathname : Option String) : Reply :=
  resolvePathForDispatch st forward dfd pathname fun path fromOwnedDfd trailingSlash =>
    match procFdinfoTarget st path with
    | some fd => consume env st call args (.procFdinfo fd)
    | none =>
        lookupNodeFromResolvedPath st forward ((rewriteProcSelfFdPathForOpen st path).getD path)
          fromOwnedDfd trailingSlash fun node => consume env st call args (.node node)

def dispatchNameToHandleAt (dfd : Int) (pathname : Option String) (flags : Flags) : Reply :=
  if emptyPathRequest flags pathname then
    if isOwned st dfd then consumeAndFail st .eopnotsupp else notOurs st forward
  else
    resolvePathForDispatch st forward dfd pathname fun path fromOwnedDfd trailingSlash =>
      lookupNodeFromResolvedPath st forward ((rewriteProcSelfFdPathForOpen st path).getD path)
        fromOwnedDfd trailingSlash fun _ => consumeAndFail st .eopnotsupp

def dispatchCall : Reply :=
  match call with
  | .sysOpen => dispatchOpenat env st call args forward atFdcwd (env.pathname args.a)
  | .sysOpenat => dispatchOpenat env st call args forward (asInt args.a) (env.pathname args.b)
  | .sysNameToHandleAt =>
      dispatchNameToHandleAt st forward (asInt args.a) (env.pathname args.b) (asFlags args.e)
  | .sysAccess => dispatchFaccessatCommon env st call args forward atFdcwd (env.pathname args.a) 0
  | .sysFaccessat =>
      dispatchFaccessatCommon env st call args forward (asInt args.a) (env.pathname args.b) 0
  | .sysFaccessat2 =>
      dispatchFaccessatCommon env st call args forward (asInt args.a) (env.pathname args.b)
        (asFlags args.d)
  | .sysReadlinkat =>
      dispatchReadlinkat env st call args forward (asInt args.a) (env.pathname args.b)
  | .sysReadlink => dispatchReadlinkat env st call args forward atFdcwd (env.pathname args.a)
  | .sysFcntl | .sysFcntl64 | .sysIoctl | .sysRead | .sysWrite | .sysGetdents64 | .sysGetdents
  | .sysFstat | .sysLseek => dispatchOwnedFd env st call args forward (asInt args.a)
  | .sysMmap => dispatchMmap env st call args forward
  | .sysMunmap => dispatchMunmap env st args forward
  | .sysClose | .sysDup => dispatchFdMutation env st call args forward (asInt args.a)
  | .sysDup2 | .sysDup3 => dispatchDup2 env st call args forward (asInt args.a) (asInt args.b)
  | .sysCloseRange => dispatchCloseRange env st call args
  | .sysFstatfs => dispatchFstatfs env st call args forward (asInt args.a)
  | .sysNewfstatat => dispatchNewfstatat env st call args forward
  | .sysStatfs | .sysStatfs64 => dispatchStatfs env st call args forward (env.pathname args.a)
  | .sysStatx => dispatchStatx env st call args forward

end

/-- `_pim_vsyscall_dispatch`, with enough memory. -/
def dispatch (env : Env) (st : VsyscallState) (number : Int) (args : Args) (forward : Int) :
    Reply :=
  match env.syscall number with
  | none => notOurs st forward
  | some call => dispatchCall env st call args forward

end HostPimSim.Vfile.Namespace
