import HostPimSim.Lib.Fallible
import HostPimSim.Upmem.Populate

/-! `host_copy_to_rank` and `host_copy_from_rank`.  The two differ in the
direction of their `memcpy` alone, which is a parameter here.  Host memory is one
address space, so the buffers of a transfer may overlap. -/
namespace HostPimSim.Upmem
open Core.Register (Bytes)
open Fallible

def kSparseTransferRequestMinBytes : Nat := 64
def kSparseTransferRequestMinBanks : Nat := 2

inductive Errno
  | einval
  | efault
  | enomem
deriving DecidableEq

/-- `dpu_transfer_mram_abi`; a null pointer is address zero. -/
structure DpuTransferMram where
  ptr : Nat → Nat
  offsetInMram : BitVec 32
  size : BitVec 32

/-- `active_bank_count` is the length of the indices. -/
structure MRAMBankTransferRequest where
  dpuLocalIdx : Nat
  activeBankMask : BitVec 8
  activeBankIndices : List Nat

/-- `served` lists the DPUs whose `memcpy` was made, in order. -/
structure TransferState where
  rank : Rank
  host : Bytes
  copiedBySparseRequest : Nat → Bool
  served : List Nat

def TransferState.start (rank : Rank) (host : Bytes) : TransferState :=
  ⟨rank, host, fun _ => false, []⟩

abbrev TransferM := EStateM Errno TransferState

/-- `memcpy(dst + dstOffset, src + srcOffset, size)`. -/
def copyBytes (dst : Bytes) (dstOffset : Nat) (src : Bytes) (srcOffset size : Nat) : Bytes :=
  fun i => if dstOffset ≤ i ∧ i < dstOffset + size then src (srcOffset + (i - dstOffset))
    else dst i

/-- A direction: the MRAM of a DPU and the host's memory after one `memcpy` of
`size` bytes between `offset` and `ptr`. -/
abbrev Memcpy := Bytes → Bytes → (ptr offset size : Nat) → Bytes × Bytes

def memcpyToMram : Memcpy := fun mram host ptr offset size =>
  (copyBytes mram offset host ptr size, host)

def memcpyFromMram : Memcpy := fun mram host ptr offset size =>
  (mram, copyBytes host ptr mram offset size)

def buildActiveBankIndices (activeBankMask : BitVec 8) : List Nat :=
  (List.range kRankNumBanks).filter activeBankMask.getLsbD

def MRAMBankTransferRequest.empty : MRAMBankTransferRequest := ⟨0, 0, []⟩

/-- The request of `dpuLocalIdx` with one bank more; `none` where the source
gives up. -/
def MRAMBankTransferRequest.add (request : MRAMBankTransferRequest)
    (dpuLocalIdx bankIdx : Nat) : Option MRAMBankTransferRequest :=
  if request.activeBankMask.getLsbD bankIdx ||
      request.activeBankIndices.length ≥ kRankNumBanks then none
  else some
    { dpuLocalIdx := dpuLocalIdx
      activeBankMask := request.activeBankMask ||| 1#8 <<< bankIdx
      activeBankIndices := request.activeBankIndices ++ [bankIdx] }

/-- `requests` and `have_multi_bank_request`. -/
structure SparseTransfers where
  requests : Nat → MRAMBankTransferRequest
  haveMultiBankRequest : Bool

def makeSparseStep (tm : DpuTransferMram) (s : SparseTransfers) (dpuGlobalIdx : Nat) :
    Option SparseTransfers :=
  if tm.ptr dpuGlobalIdx = 0 then some s
  else
    let dpuLocalIdx := dpuGlobalIdx / kRankNumBanks
    ((s.requests dpuLocalIdx).add dpuLocalIdx (dpuGlobalIdx % kRankNumBanks)).map fun request =>
      { requests := fun i => if i = dpuLocalIdx then request else s.requests i
        haveMultiBankRequest := s.haveMultiBankRequest ||
          request.activeBankIndices.length ≥ kSparseTransferRequestMinBanks }

def makeSparseBankTransfers (tm : DpuTransferMram) (size : Nat) :
    Option (Nat → MRAMBankTransferRequest) :=
  if size < kSparseTransferRequestMinBytes then none
  else
    (Transition.run (makeSparseStep tm) ⟨fun _ => .empty, false⟩
      (List.range kRankNumDpus)).bind fun s =>
        if s.haveMultiBankRequest then some s.requests else none

section
variable (memcpy : Memcpy) (calls : CommitCalls)

def tryLazyPopulate (dpuGlobalIdx : Nat) : TransferM Unit := do
  let populated ← modifyGet fun s =>
    let result := lazyPopulateDpu calls s.rank dpuGlobalIdx
    (result.2, { s with rank := result.1 })
  require populated .enomem

def copyDpu (offset size ptr dpuGlobalIdx : Nat) : TransferM Unit :=
  modifyGet fun s =>
    let mram := (s.rank.dpuByGlobal dpuGlobalIdx).mram
    let copied := memcpy mram.bytes s.host ptr offset size
    ((), { s with
      rank := s.rank.setMram dpuGlobalIdx { mram with bytes := copied.1 }
      host := copied.2
      served := s.served ++ [dpuGlobalIdx] })

/-- `mram.get_addr() && mram.byte_in_bounds(offset, size)`, or `EFAULT`. -/
def checkMram (offset : BitVec 32) (size dpuGlobalIdx : Nat) : TransferM Unit := do
  let mapped ← modifyGet fun s => ((s.rank.dpuByGlobal dpuGlobalIdx).mram.mapped, s)
  require (mapped && Mram.byteInBounds offset size) .efault

/-- `host_copy_to_mram` and `host_copy_from_mram`, with the error of their callers. -/
def hostCopyMram (offset : BitVec 32) (size ptr dpuGlobalIdx : Nat) : TransferM Unit := do
  let mapped ← modifyGet fun s => ((s.rank.dpuByGlobal dpuGlobalIdx).mram.mapped, s)
  require (ptr != 0 && mapped) .efault
  if size = 0 then pure ()
  else do
    require (Mram.byteInBounds offset size) .efault
    copyDpu memcpy offset.toNat size ptr dpuGlobalIdx

def resolveBankGroupMrams (dpuLocalIdx : Nat) (activeBankIndices : List Nat)
    (offset : BitVec 32) (size : Nat) : TransferM Unit := do
  require (!activeBankIndices.isEmpty && dpuLocalIdx < kChipNumDpus) .efault
  activeBankIndices.forM fun bankIdx => do
    require (bankIdx < kRankNumBanks) .efault
    tryLazyPopulate calls (globalIdx dpuLocalIdx bankIdx)
    checkMram offset size (globalIdx dpuLocalIdx bankIdx)

def hostCopyMramBankGroup (dpuLocalIdx : Nat) (activeBankMask : BitVec 8)
    (offset : BitVec 32) (ptrByBank : Nat → Nat) (size : Nat) : TransferM Unit := do
  require (activeBankMask != 0) .efault
  if size = 0 then pure ()
  else do
    let activeBankIndices := buildActiveBankIndices activeBankMask
    resolveBankGroupMrams calls dpuLocalIdx activeBankIndices offset size
    activeBankIndices.forM fun bankIdx => do
      require (ptrByBank bankIdx != 0) .efault
      copyDpu memcpy offset.toNat size (ptrByBank bankIdx) (globalIdx dpuLocalIdx bankIdx)

def ptrByBank (request : MRAMBankTransferRequest) (tm : DpuTransferMram) (bankIdx : Nat) : Nat :=
  if bankIdx ∈ request.activeBankIndices then tm.ptr (globalIdx request.dpuLocalIdx bankIdx)
  else 0

def hostCopyMramSparse (request : MRAMBankTransferRequest) (tm : DpuTransferMram) :
    TransferM Unit := do
  require (request.activeBankIndices.all fun bankIdx => ptrByBank request tm bankIdx != 0)
    .efault
  hostCopyMramBankGroup memcpy calls request.dpuLocalIdx request.activeBankMask
    tm.offsetInMram (ptrByBank request tm) tm.size.toNat

def markCopied (request : MRAMBankTransferRequest) (s : TransferState) : TransferState :=
  { s with copiedBySparseRequest := fun i => s.copiedBySparseRequest i ||
      (request.activeBankIndices.map (globalIdx request.dpuLocalIdx)).contains i }

def sparseTurn (tm : DpuTransferMram) (request : MRAMBankTransferRequest) :
    TransferM Unit :=
  if request.activeBankIndices.length < kSparseTransferRequestMinBanks then pure ()
  else do
    modifyGet fun s => ((), markCopied request s)
    hostCopyMramSparse memcpy calls request tm

def dpuTurn (tm : DpuTransferMram) (dpuGlobalIdx : Nat) : TransferM Unit := do
  let copied ← modifyGet fun s => (s.copiedBySparseRequest dpuGlobalIdx, s)
  if tm.ptr dpuGlobalIdx = 0 || copied then pure ()
  else do
    tryLazyPopulate calls dpuGlobalIdx
    hostCopyMram memcpy tm.offsetInMram tm.size.toNat (tm.ptr dpuGlobalIdx) dpuGlobalIdx

def transferInBounds (mramSize : Nat) (tm : DpuTransferMram) : Bool :=
  tm.offsetInMram.toNat ≤ mramSize && tm.size.toNat ≤ mramSize - tm.offsetInMram.toNat

def sparseTransfers (tm : DpuTransferMram) : TransferM Unit :=
  match makeSparseBankTransfers tm tm.size.toNat with
  | some requests =>
      (List.range kChipNumDpus).forM fun i => sparseTurn memcpy calls tm (requests i)
  | none => pure ()

def hostCopyRank (tm : Option DpuTransferMram) : TransferM Unit :=
  match tm with
  | none => throw .einval
  | some tm => do
      require (transferInBounds kMramSizeBytes tm) .einval
      if tm.size.toNat = 0 then pure ()
      else do
        sparseTransfers memcpy calls tm
        (List.range kRankNumDpus).forM (dpuTurn memcpy calls tm)

end

def hostCopyToRank (calls : CommitCalls) (tm : Option DpuTransferMram) : TransferM Unit :=
  hostCopyRank memcpyToMram calls tm

def hostCopyFromRank (calls : CommitCalls) (tm : Option DpuTransferMram) : TransferM Unit :=
  hostCopyRank memcpyFromMram calls tm

end HostPimSim.Upmem
