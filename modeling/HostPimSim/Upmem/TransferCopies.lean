import HostPimSim.Upmem.Transfer

/-! A transfer that returns 0 against the plain copy of its DPUs, one after the
other: which DPUs each loop copies, and what the copies leave. -/
namespace HostPimSim.Upmem
open Core.Register (Bytes)
open Fallible

/-- What the host can see of a transfer: the bytes of each MRAM, where memory that
is not there reads as zero, and its own memory. -/
structure Contents where
  mram : Nat → Bytes
  host : Bytes

def TransferState.contents (s : TransferState) : Contents := ⟨s.rank.readMram, s.host⟩

def Contents.copy (memcpy : Memcpy) (tm : DpuTransferMram) (contents : Contents)
    (dpuGlobalIdx : Nat) : Contents :=
  let copied := memcpy (contents.mram dpuGlobalIdx) contents.host (tm.ptr dpuGlobalIdx)
    tm.offsetInMram.toNat tm.size.toNat
  ⟨fun i => if i = dpuGlobalIdx then copied.1 else contents.mram i, copied.2⟩

def DpuTransferMram.requested (tm : DpuTransferMram) (dpuGlobalIdx : Nat) : Prop :=
  dpuGlobalIdx < kRankNumDpus ∧ tm.ptr dpuGlobalIdx ≠ 0

instance (tm : DpuTransferMram) (dpuGlobalIdx : Nat) : Decidable (tm.requested dpuGlobalIdx) :=
  inferInstanceAs (Decidable (dpuGlobalIdx < kRankNumDpus ∧ tm.ptr dpuGlobalIdx ≠ 0))

def TransferState.bound (s : TransferState) (dpuGlobalIdx : Nat) : Prop :=
  (s.rank.dpuByGlobal dpuGlobalIdx).mram.bound = true

/-- From `s` to `t` the listed DPUs were copied, in this order and nothing else. -/
structure Copies (memcpy : Memcpy) (tm : DpuTransferMram) (dpus : List Nat)
    (s t : TransferState) : Prop where
  served : t.served = s.served ++ dpus
  contents : t.contents = dpus.foldl (Contents.copy memcpy tm) s.contents
  bound : ∀ i, s.bound i → t.bound i

structure CopiesOnly (memcpy : Memcpy) (tm : DpuTransferMram) (dpus : List Nat)
    (s t : TransferState) : Prop extends Copies memcpy tm dpus s t where
  flags : t.copiedBySparseRequest = s.copiedBySparseRequest

section
variable {memcpy : Memcpy} {calls : CommitCalls} {tm : DpuTransferMram} {s t u : TransferState}

theorem Copies.append {xs ys : List Nat} (h : Copies memcpy tm xs s t)
    (h' : Copies memcpy tm ys t u) : Copies memcpy tm (xs ++ ys) s u where
  served := by rw [h'.served, h.served, List.append_assoc]
  contents := by rw [h'.contents, h.contents, List.foldl_append]
  bound i hi := h'.bound i (h.bound i hi)

theorem copiesOnly_nil (s : TransferState) : CopiesOnly memcpy tm [] s s :=
  ⟨⟨(List.append_nil _).symm, rfl, fun _ h => h⟩, rfl⟩

theorem CopiesOnly.append {xs ys : List Nat} (h : CopiesOnly memcpy tm xs s t)
    (h' : CopiesOnly memcpy tm ys t u) : CopiesOnly memcpy tm (xs ++ ys) s u :=
  ⟨h.toCopies.append h'.toCopies, h'.flags.trans h.flags⟩

theorem tryLazyPopulate_returns {dpuGlobalIdx : Nat}
    (h : Returns (tryLazyPopulate calls dpuGlobalIdx) s () t) :
    CopiesOnly memcpy tm [] s t ∧ t.bound dpuGlobalIdx := by
  obtain ⟨populated, u, hpopulate, hrequire⟩ := returns_bind.mp h
  obtain ⟨hpopulated, hu⟩ := returns_modifyGet.mp hpopulate
  obtain ⟨hok, rfl⟩ := returns_require.mp hrequire
  subst hu
  have hread := lazyPopulateDpu_read calls s.rank dpuGlobalIdx
  refine ⟨⟨⟨(List.append_nil _).symm, ?_, fun i => lazyPopulateDpu_bound calls s.rank _ i⟩, rfl⟩,
    (hread dpuGlobalIdx).2 (hpopulated.trans hok)⟩
  unfold TransferState.contents
  dsimp only [List.foldl_nil]
  congr 1
  funext i
  exact (hread i).1

theorem copyDpu_returns {dpuGlobalIdx : Nat} (hbound : s.bound dpuGlobalIdx)
    (h : Returns (copyDpu memcpy tm.offsetInMram.toNat tm.size.toNat (tm.ptr dpuGlobalIdx)
      dpuGlobalIdx) s () t) : CopiesOnly memcpy tm [dpuGlobalIdx] s t := by
  obtain ⟨-, rfl⟩ := returns_modifyGet.mp h
  have hread : s.rank.readMram dpuGlobalIdx =
      (s.rank.dpuByGlobal dpuGlobalIdx).mram.bytes := by
    funext i
    exact if_pos hbound
  refine ⟨⟨rfl, ?_, ?_⟩, rfl⟩
  · unfold TransferState.contents Contents.copy
    dsimp only [List.foldl_cons, List.foldl_nil]
    rw [hread]
    congr 1
    funext i
    unfold Rank.readMram
    rw [dpuByGlobal_setMram]
    split
    · funext j
      exact if_pos hbound
    · rfl
  · intro i hi
    unfold TransferState.bound
    rw [dpuByGlobal_setMram]
    split
    · exact hbound
    · exact hi

theorem checkMram_returns {offset : BitVec 32} {size dpuGlobalIdx : Nat}
    (h : Returns (checkMram offset size dpuGlobalIdx) s () t) : s = t := by
  obtain ⟨mapped, u, hmapped, hrequire⟩ := returns_bind.mp h
  obtain ⟨-, hu⟩ := returns_modifyGet.mp hmapped
  exact hu.trans (returns_require.mp hrequire).2

theorem hostCopyMram_returns {dpuGlobalIdx : Nat} (hsize : tm.size.toNat ≠ 0)
    (hbound : s.bound dpuGlobalIdx)
    (h : Returns (hostCopyMram memcpy tm.offsetInMram tm.size.toNat (tm.ptr dpuGlobalIdx)
      dpuGlobalIdx) s () t) : CopiesOnly memcpy tm [dpuGlobalIdx] s t := by
  obtain ⟨mapped, u, hmapped, h⟩ := returns_bind.mp h
  obtain ⟨-, rfl⟩ := returns_modifyGet.mp hmapped
  obtain ⟨⟨⟩, u, hrequire, h⟩ := returns_bind.mp h
  obtain ⟨-, rfl⟩ := returns_require.mp hrequire
  rw [if_neg hsize] at h
  obtain ⟨⟨⟩, u, hrequire, h⟩ := returns_bind.mp h
  obtain ⟨-, rfl⟩ := returns_require.mp hrequire
  exact copyDpu_returns hbound h

theorem resolveBankGroupMrams_returns {dpuLocalIdx size : Nat} {indices : List Nat}
    {offset : BitVec 32}
    (h : Returns (resolveBankGroupMrams calls dpuLocalIdx indices offset size) s () t) :
    CopiesOnly memcpy tm [] s t ∧ ∀ bankIdx ∈ indices, t.bound (globalIdx dpuLocalIdx bankIdx) := by
  obtain ⟨⟨⟩, u, hrequire, h⟩ := returns_bind.mp h
  obtain ⟨-, rfl⟩ := returns_require.mp hrequire
  have hloop := returns_forM
    (fun banks s t => CopiesOnly memcpy tm [] s t ∧
      ∀ bankIdx ∈ banks, t.bound (globalIdx dpuLocalIdx bankIdx))
    (fun bankIdx => [bankIdx])
    (fun s => ⟨copiesOnly_nil s, fun _ h => absurd h List.not_mem_nil⟩) ?_ ?_ h
  · rwa [List.flatMap_singleton'] at hloop
  · intro xs ys s t u hfirst hrest
    refine ⟨hfirst.1.append hrest.1, fun bankIdx hbank => ?_⟩
    rcases List.mem_append.mp hbank with hbank | hbank
    · exact hrest.1.bound _ (hfirst.2 bankIdx hbank)
    · exact hrest.2 bankIdx hbank
  · intro bankIdx _ s t h
    obtain ⟨⟨⟩, u, hrequire, h⟩ := returns_bind.mp h
    obtain ⟨-, rfl⟩ := returns_require.mp hrequire
    obtain ⟨⟨⟩, u, hpopulate, hcheck⟩ := returns_bind.mp h
    obtain rfl := checkMram_returns hcheck
    obtain ⟨hcopies, hbound⟩ := tryLazyPopulate_returns hpopulate
    refine ⟨hcopies, fun b hb => ?_⟩
    rw [List.mem_singleton.mp hb]
    exact hbound

theorem hostCopyMramSparse_returns {request : MRAMBankTransferRequest}
    (hsize : tm.size.toNat ≠ 0)
    (h : Returns (hostCopyMramSparse memcpy calls request tm) s () t) :
    CopiesOnly memcpy tm
      ((buildActiveBankIndices request.activeBankMask).map (globalIdx request.dpuLocalIdx)) s
        t := by
  obtain ⟨⟨⟩, u, hrequire, h⟩ := returns_bind.mp h
  obtain ⟨-, rfl⟩ := returns_require.mp hrequire
  obtain ⟨⟨⟩, u, hrequire, h⟩ := returns_bind.mp h
  obtain ⟨-, rfl⟩ := returns_require.mp hrequire
  rw [if_neg hsize] at h
  obtain ⟨⟨⟩, u, hresolve, h⟩ := returns_bind.mp h
  obtain ⟨hcopies, hbound⟩ := resolveBankGroupMrams_returns hresolve
  have hloop := returns_forM
    (fun banks s t =>
      (∀ bankIdx ∈ banks, s.bound (globalIdx request.dpuLocalIdx bankIdx)) →
        CopiesOnly memcpy tm (banks.map (globalIdx request.dpuLocalIdx)) s t)
    (fun bankIdx => [bankIdx])
    (fun s _ => copiesOnly_nil s) ?_ ?_ h
  · rw [List.flatMap_singleton'] at hloop
    exact hcopies.append (hloop hbound)
  · intro xs ys s t u hfirst hrest hbound
    have hcopies := hfirst fun b hb => hbound b (List.mem_append_left ys hb)
    rw [List.map_append]
    exact hcopies.append
      (hrest fun b hb => hcopies.bound _ (hbound b (List.mem_append_right xs hb)))
  · intro bankIdx _ s t h hbound
    obtain ⟨⟨⟩, u, hrequire, h⟩ := returns_bind.mp h
    obtain ⟨hptr, rfl⟩ := returns_require.mp hrequire
    have hown : ptrByBank request tm bankIdx =
        tm.ptr (globalIdx request.dpuLocalIdx bankIdx) := by
      unfold ptrByBank at hptr ⊢
      split
      · rfl
      · rename_i hmissing
        rw [if_neg hmissing] at hptr
        cases hptr
    rw [hown] at h
    exact copyDpu_returns (hbound bankIdx (List.mem_singleton_self _)) h

def requestedBanks (tm : DpuTransferMram) (dpuLocalIdx count : Nat) : List Nat :=
  (List.range count).filter fun bankIdx => tm.ptr (globalIdx dpuLocalIdx bankIdx) != 0

structure Groups (tm : DpuTransferMram) (dpuLocalIdx count : Nat)
    (request : MRAMBankTransferRequest) : Prop where
  indices : request.activeBankIndices = requestedBanks tm dpuLocalIdx count
  mask : ∀ bankIdx < kRankNumBanks,
    request.activeBankMask.getLsbD bankIdx = decide (bankIdx ∈ request.activeBankIndices)
  idx : request.activeBankIndices ≠ [] → request.dpuLocalIdx = dpuLocalIdx

theorem add_groups {dpuLocalIdx bankIdx : Nat} {request added : MRAMBankTransferRequest}
    (hbank : bankIdx < kRankNumBanks) (hptr : tm.ptr (globalIdx dpuLocalIdx bankIdx) ≠ 0)
    (hgroups : Groups tm dpuLocalIdx bankIdx request)
    (h : request.add dpuLocalIdx bankIdx = some added) :
    Groups tm dpuLocalIdx (bankIdx + 1) added := by
  unfold MRAMBankTransferRequest.add at h
  split at h
  · cases h
  cases h
  refine ⟨?_, ?_, fun _ => rfl⟩
  · unfold requestedBanks
    rw [List.range_succ, List.filter_append]
    simp [hgroups.indices, hptr, requestedBanks]
  · intro i hi
    have hbit : (1#8 <<< bankIdx).getLsbD i = decide (i = bankIdx) := by
      unfold kRankNumBanks at hi hbank
      rw [BitVec.getLsbD_shiftLeft, BitVec.getLsbD_one, Bool.eq_iff_iff]
      simp only [Bool.and_eq_true, Bool.not_eq_true', decide_eq_true_eq, decide_eq_false_iff_not]
      omega
    rw [BitVec.getLsbD_or, hgroups.mask i hi, hbit]
    simp

theorem groups_skip {dpuLocalIdx bankIdx : Nat} {request : MRAMBankTransferRequest}
    (hptr : tm.ptr (globalIdx dpuLocalIdx bankIdx) = 0)
    (hgroups : Groups tm dpuLocalIdx bankIdx request) :
    Groups tm dpuLocalIdx (bankIdx + 1) request := by
  refine ⟨?_, hgroups.mask, hgroups.idx⟩
  unfold requestedBanks
  rw [List.range_succ, List.filter_append, hgroups.indices]
  simp [hptr, requestedBanks]

theorem makeSparseStep_groups {n : Nat} {before after : SparseTransfers}
    (hgroups : ∀ i, Groups tm i (min kRankNumBanks (n - i * kRankNumBanks))
      (before.requests i))
    (h : makeSparseStep tm before n = some after) (i : Nat) :
    Groups tm i (min kRankNumBanks (n + 1 - i * kRankNumBanks)) (after.requests i) := by
  have hbank : n % kRankNumBanks < kRankNumBanks := Nat.mod_lt n (by decide)
  have hidx : globalIdx (n / kRankNumBanks) (n % kRankNumBanks) = n := by
    unfold globalIdx
    rw [Nat.mul_comm, Nat.div_add_mod]
  have hother : i ≠ n / kRankNumBanks → min kRankNumBanks (n + 1 - i * kRankNumBanks) =
      min kRankNumBanks (n - i * kRankNumBanks) := by
    unfold kRankNumBanks
    omega
  have hcount : min kRankNumBanks (n - n / kRankNumBanks * kRankNumBanks) =
      n % kRankNumBanks := by
    unfold kRankNumBanks
    omega
  have hnext : min kRankNumBanks (n + 1 - n / kRankNumBanks * kRankNumBanks) =
      n % kRankNumBanks + 1 := by
    unfold kRankNumBanks
    omega
  have hcurrent := hgroups (n / kRankNumBanks)
  rw [hcount] at hcurrent
  unfold makeSparseStep at h
  split at h
  · rename_i hptr
    cases h
    by_cases hi : i = n / kRankNumBanks
    · rw [hi, hnext]
      exact groups_skip (by rwa [hidx]) hcurrent
    · rw [hother hi]
      exact hgroups i
  · rename_i hptr
    obtain ⟨request, hadd, rfl⟩ := Option.map_eq_some_iff.mp h
    dsimp only
    by_cases hi : i = n / kRankNumBanks
    · rw [hi, hnext, if_pos rfl]
      exact add_groups hbank (by rwa [hidx]) hcurrent hadd
    · rw [hother hi, if_neg hi]
      exact hgroups i

theorem makeSparseBankTransfers_groups {size : Nat} {requests : Nat → MRAMBankTransferRequest}
    (h : makeSparseBankTransfers tm size = some requests) {i : Nat} (hi : i < kChipNumDpus) :
    Groups tm i kRankNumBanks (requests i) := by
  unfold makeSparseBankTransfers at h
  split at h
  · cases h
  obtain ⟨made, hrun, hmade⟩ := Option.bind_eq_some_iff.mp h
  split at hmade
  · cases hmade
    have hpre : ∀ n made, Transition.run (makeSparseStep tm) ⟨fun _ => .empty, false⟩
        (List.range n) = some made →
          ∀ i, Groups tm i (min kRankNumBanks (n - i * kRankNumBanks)) (made.requests i) := by
      intro n
      induction n with
      | zero =>
          intro made hrun i
          cases hrun
          refine ⟨?_, ?_, fun h => absurd rfl h⟩
          · simp [requestedBanks, MRAMBankTransferRequest.empty]
          · simp [MRAMBankTransferRequest.empty]
      | succ n ih =>
          intro made hrun
          rw [List.range_succ, Transition.run_append] at hrun
          obtain ⟨before, hbefore, hstep⟩ := Option.bind_eq_some_iff.mp hrun
          rw [Transition.run_cons] at hstep
          obtain ⟨after, hafter, hnil⟩ := Option.bind_eq_some_iff.mp hstep
          cases hnil
          exact makeSparseStep_groups (ih before hbefore) hafter
    have hall := hpre kRankNumDpus made hrun i
    have hcount : min kRankNumBanks (kRankNumDpus - i * kRankNumBanks) = kRankNumBanks := by
      unfold kRankNumDpus kChipNumDpus kRankNumBanks at *
      omega
    rwa [hcount] at hall
  · cases hmade

theorem mem_requestedBanks {dpuLocalIdx count bankIdx : Nat} :
    bankIdx ∈ requestedBanks tm dpuLocalIdx count ↔
      bankIdx < count ∧ tm.ptr (globalIdx dpuLocalIdx bankIdx) ≠ 0 := by
  unfold requestedBanks
  rw [List.mem_filter, List.mem_range, bne_iff_ne]

/-- The mask of a request lists the same banks as its indices. -/
theorem Groups.buildActiveBankIndices_eq {dpuLocalIdx : Nat} {request : MRAMBankTransferRequest}
    (h : Groups tm dpuLocalIdx kRankNumBanks request) :
    buildActiveBankIndices request.activeBankMask = request.activeBankIndices := by
  rw [h.indices]
  unfold buildActiveBankIndices requestedBanks
  apply List.filter_congr
  intro bankIdx hbank
  have hbank := List.mem_range.mp hbank
  rw [h.mask bankIdx hbank, h.indices, Bool.eq_iff_iff, decide_eq_true_eq, mem_requestedBanks,
    bne_iff_ne]
  exact and_iff_right hbank

def sparseServed (request : MRAMBankTransferRequest) : List Nat :=
  if request.activeBankIndices.length < kSparseTransferRequestMinBanks then []
  else request.activeBankIndices.map (globalIdx request.dpuLocalIdx)

theorem sparseServed_mem {dpuLocalIdx dpuGlobalIdx : Nat} {request : MRAMBankTransferRequest}
    (hgroups : Groups tm dpuLocalIdx kRankNumBanks request)
    (h : dpuGlobalIdx ∈ sparseServed request) :
    dpuGlobalIdx / kRankNumBanks = dpuLocalIdx ∧ tm.ptr dpuGlobalIdx ≠ 0 := by
  unfold sparseServed at h
  split at h
  · exact absurd h List.not_mem_nil
  obtain ⟨bankIdx, hmem, rfl⟩ := List.mem_map.mp h
  rw [hgroups.idx (List.ne_nil_of_mem hmem)]
  rw [hgroups.indices] at hmem
  obtain ⟨hbank, hptr⟩ := mem_requestedBanks.mp hmem
  refine ⟨?_, hptr⟩
  unfold globalIdx kRankNumBanks at *
  omega

theorem sparseServed_nodup {dpuLocalIdx : Nat} {request : MRAMBankTransferRequest}
    (hgroups : Groups tm dpuLocalIdx kRankNumBanks request) : (sparseServed request).Nodup := by
  unfold sparseServed
  split
  · exact List.nodup_nil
  · rw [hgroups.indices]
    apply List.Nodup.map
    · intro i j hij
      unfold globalIdx at hij
      omega
    · exact List.nodup_range.filter _

theorem sparseTurn_returns {dpuLocalIdx : Nat} {request : MRAMBankTransferRequest}
    (hsize : tm.size.toNat ≠ 0) (hgroups : Groups tm dpuLocalIdx kRankNumBanks request)
    (h : Returns (sparseTurn memcpy calls tm request) s () t) :
    Copies memcpy tm (sparseServed request) s t ∧ ∀ i, t.copiedBySparseRequest i =
      (s.copiedBySparseRequest i || (sparseServed request).contains i) := by
  unfold sparseTurn at h
  unfold sparseServed
  split at h
  · obtain ⟨-, rfl⟩ := returns_pure.mp h
    rw [if_pos ‹_›]
    exact ⟨(copiesOnly_nil s).toCopies, fun i => by simp⟩
  · rw [if_neg ‹_›]
    obtain ⟨⟨⟩, u, hmark, h⟩ := returns_bind.mp h
    obtain ⟨-, rfl⟩ := returns_modifyGet.mp hmark
    have hcopies := hostCopyMramSparse_returns hsize h
    rw [hgroups.buildActiveBankIndices_eq] at hcopies
    refine ⟨⟨hcopies.served, hcopies.contents, hcopies.bound⟩, fun i => ?_⟩
    rw [hcopies.flags]
    rfl

theorem sparseTransfers_returns (hsize : tm.size.toNat ≠ 0)
    (h : Returns (sparseTransfers memcpy calls tm) s () t) :
    ∃ dpus : List Nat, dpus.Nodup ∧ (∀ i ∈ dpus, tm.requested i) ∧
      Copies memcpy tm dpus s t ∧ ∀ i, t.copiedBySparseRequest i =
        (s.copiedBySparseRequest i || dpus.contains i) := by
  unfold sparseTransfers at h
  split at h
  · rename_i requests hmake
    have hgroups := fun i (hi : i ∈ List.range kChipNumDpus) =>
      makeSparseBankTransfers_groups hmake (List.mem_range.mp hi)
    have hloop := returns_forM
      (fun dpus s t => Copies memcpy tm dpus s t ∧
        ∀ i, t.copiedBySparseRequest i = (s.copiedBySparseRequest i || dpus.contains i))
      (fun i => sparseServed (requests i))
      (fun s => ⟨(copiesOnly_nil s).toCopies, fun i => by simp⟩)
      (fun xs ys s t u hfirst hrest => ⟨hfirst.1.append hrest.1, fun i => by
        rw [hrest.2, hfirst.2, List.contains_append, Bool.or_assoc]⟩)
      (fun i hi s t => sparseTurn_returns hsize (hgroups i hi)) h
    refine ⟨_, List.nodup_flatMap.mpr ⟨fun i hi => sparseServed_nodup (hgroups i hi), ?_⟩,
      ?_, hloop⟩
    · apply List.Pairwise.imp_of_mem _ List.nodup_range
      intro i j hi hj hij k hki hkj
      have hki := (sparseServed_mem (hgroups i hi) hki).1
      have hkj := (sparseServed_mem (hgroups j hj) hkj).1
      exact hij (hki.symm.trans hkj)
    · intro k hk
      obtain ⟨i, hi, hk⟩ := List.mem_flatMap.mp hk
      obtain ⟨hlocal, hptr⟩ := sparseServed_mem (hgroups i hi) hk
      refine ⟨?_, hptr⟩
      have hi := List.mem_range.mp hi
      unfold kRankNumDpus kChipNumDpus kRankNumBanks at *
      omega
  · obtain ⟨-, rfl⟩ := returns_pure.mp h
    exact ⟨[], List.nodup_nil, fun _ h => absurd h List.not_mem_nil,
      (copiesOnly_nil s).toCopies, fun i => by simp⟩

theorem dpuTurn_returns {dpuGlobalIdx : Nat} (hsize : tm.size.toNat ≠ 0)
    (h : Returns (dpuTurn memcpy calls tm dpuGlobalIdx) s () t) :
    CopiesOnly memcpy tm ([dpuGlobalIdx].filter fun i =>
      tm.ptr i != 0 && !s.copiedBySparseRequest i) s t := by
  obtain ⟨copied, u, hcopied, h⟩ := returns_bind.mp h
  obtain ⟨rfl, rfl⟩ := returns_modifyGet.mp hcopied
  split at h
  · rename_i hskip
    obtain ⟨-, rfl⟩ := returns_pure.mp h
    have hnone : (tm.ptr dpuGlobalIdx != 0 && !s.copiedBySparseRequest dpuGlobalIdx) = false := by
      simpa [or_iff_not_imp_left] using hskip
    rw [List.filter_singleton, hnone]
    exact copiesOnly_nil s
  · rename_i hcopy
    have hone : (tm.ptr dpuGlobalIdx != 0 && !s.copiedBySparseRequest dpuGlobalIdx) = true := by
      simpa [not_or] using hcopy
    obtain ⟨⟨⟩, u, hpopulate, hmram⟩ := returns_bind.mp h
    obtain ⟨hnothing, hbound⟩ := tryLazyPopulate_returns hpopulate
    rw [List.filter_singleton, hone]
    exact hnothing.append (hostCopyMram_returns hsize hbound hmram)

theorem dpuTurns_returns (hsize : tm.size.toNat ≠ 0)
    (h : Returns ((List.range kRankNumDpus).forM (dpuTurn memcpy calls tm)) s () t) :
    CopiesOnly memcpy tm ((List.range kRankNumDpus).filter fun i =>
      tm.ptr i != 0 && !s.copiedBySparseRequest i) s t := by
  have hloop := returns_forM
    (fun dpus u v => u.copiedBySparseRequest = s.copiedBySparseRequest →
      CopiesOnly memcpy tm dpus u v)
    (fun i => [i].filter fun i => tm.ptr i != 0 && !s.copiedBySparseRequest i)
    (fun u _ => copiesOnly_nil u) ?_ ?_ h rfl
  · rwa [← List.filter_flatMap, List.flatMap_singleton'] at hloop
  · intro xs ys u v w hfirst hrest hflags
    have hcopies := hfirst hflags
    exact hcopies.append (hrest (hcopies.flags.trans hflags))
  · intro i _ u v h hflags
    rw [← hflags]
    exact dpuTurn_returns hsize h

theorem hostCopyRank_returns {tm : Option DpuTransferMram} {rank : Rank} {host : Bytes}
    (h : Returns (hostCopyRank memcpy calls tm) (.start rank host) () t) :
    ∃ transfer, tm = some transfer ∧ transferInBounds kMramSizeBytes transfer = true ∧
      t.served.Nodup ∧
      (∀ i, i ∈ t.served ↔ transfer.requested i ∧ transfer.size.toNat ≠ 0) ∧
      t.contents = t.served.foldl (Contents.copy memcpy transfer)
        (TransferState.start rank host).contents := by
  unfold hostCopyRank at h
  split at h
  · exact absurd h not_returns_throw
  rename_i transfer
  obtain ⟨⟨⟩, u, hrequire, h⟩ := returns_bind.mp h
  obtain ⟨hbounds, rfl⟩ := returns_require.mp hrequire
  refine ⟨transfer, rfl, hbounds, ?_⟩
  split at h
  · rename_i hsize
    obtain ⟨-, rfl⟩ := returns_pure.mp h
    refine ⟨List.nodup_nil, fun i => ?_, rfl⟩
    simp [TransferState.start, hsize]
  · rename_i hsize
    obtain ⟨⟨⟩, u, hsparse, hplain⟩ := returns_bind.mp h
    obtain ⟨dpus, hnodup, hrequested, hcopies, hflags⟩ := sparseTransfers_returns hsize hsparse
    have hall := hcopies.append (dpuTurns_returns hsize hplain).toCopies
    have hserved := hall.served
    have hcontents := hall.contents
    rw [TransferState.start, List.nil_append] at hserved
    rw [← hserved] at hcontents
    have hrest : ∀ i, i ∈ (List.range kRankNumDpus).filter (fun i =>
        transfer.ptr i != 0 && !u.copiedBySparseRequest i) ↔
          transfer.requested i ∧ i ∉ dpus := by
      intro i
      rw [List.mem_filter, List.mem_range, hflags]
      simp [TransferState.start, DpuTransferMram.requested, and_assoc]
    refine ⟨?_, fun i => ?_, hcontents⟩
    · rw [hserved, List.nodup_append']
      refine ⟨hnodup, List.nodup_range.filter _, fun i hi hi' => ?_⟩
      exact ((hrest i).mp hi').2 hi
    · rw [hserved, List.mem_append, hrest]
      by_cases hi : i ∈ dpus
      · simp [hi, hrequested i hi, hsize]
      · simp [hi, hsize]

end

theorem foldl_copy_to (tm : DpuTransferMram) {dpus : List Nat} (hnodup : dpus.Nodup)
    (contents : Contents) :
    (dpus.foldl (Contents.copy memcpyToMram tm) contents).host = contents.host ∧
      ∀ i, (dpus.foldl (Contents.copy memcpyToMram tm) contents).mram i =
        if i ∈ dpus then copyBytes (contents.mram i) tm.offsetInMram.toNat contents.host
          (tm.ptr i) tm.size.toNat
        else contents.mram i := by
  induction dpus generalizing contents with
  | nil => exact ⟨rfl, fun i => by simp⟩
  | cons dpu dpus ih =>
      obtain ⟨hfirst, hnodup⟩ := List.nodup_cons.mp hnodup
      obtain ⟨hhost, hmram⟩ := ih hnodup (contents.copy memcpyToMram tm dpu)
      refine ⟨hhost, fun i => ?_⟩
      rw [List.foldl_cons, hmram]
      by_cases hi : i = dpu
      · subst hi
        simp [hfirst, Contents.copy, memcpyToMram]
      · simp [hi, Contents.copy, memcpyToMram]

def DpuTransferMram.covers (tm : DpuTransferMram) (dpuGlobalIdx address : Nat) : Prop :=
  tm.requested dpuGlobalIdx ∧ tm.ptr dpuGlobalIdx ≤ address ∧
    address < tm.ptr dpuGlobalIdx + tm.size.toNat

instance (tm : DpuTransferMram) (dpuGlobalIdx address : Nat) :
    Decidable (tm.covers dpuGlobalIdx address) :=
  inferInstanceAs (Decidable (_ ∧ _ ∧ _))

theorem foldl_copy_from (tm : DpuTransferMram) {dpus : List Nat}
    (hdpus : ∀ i ∈ dpus, tm.requested i) (contents : Contents) :
    (dpus.foldl (Contents.copy memcpyFromMram tm) contents).mram = contents.mram ∧
      ∀ address,
        ((∃ i ∈ dpus, tm.covers i address) → ∃ i ∈ dpus, tm.covers i address ∧
          (dpus.foldl (Contents.copy memcpyFromMram tm) contents).host address =
            contents.mram i (tm.offsetInMram.toNat + (address - tm.ptr i))) ∧
        ((∀ i ∈ dpus, ¬tm.covers i address) →
          (dpus.foldl (Contents.copy memcpyFromMram tm) contents).host address =
            contents.host address) := by
  induction dpus generalizing contents with
  | nil => exact ⟨rfl, fun _ => ⟨fun ⟨i, hi, _⟩ => absurd hi List.not_mem_nil, fun _ => rfl⟩⟩
  | cons dpu dpus ih =>
      have hkept : (contents.copy memcpyFromMram tm dpu).mram = contents.mram := by
        funext i
        simp only [Contents.copy, memcpyFromMram]
        split
        · rename_i hi
          rw [hi]
        · rfl
      obtain ⟨hmram, hhost⟩ := ih (fun i hi => hdpus i (List.mem_cons_of_mem dpu hi))
        (contents.copy memcpyFromMram tm dpu)
      rw [hkept] at hmram hhost
      refine ⟨hmram, fun address => ?_⟩
      obtain ⟨hcovered, hother⟩ := hhost address
      constructor
      · rintro ⟨i, hi, hcovers⟩
        by_cases hlater : ∃ j ∈ dpus, tm.covers j address
        · obtain ⟨j, hj, hbyte⟩ := hcovered hlater
          exact ⟨j, List.mem_cons_of_mem dpu hj, hbyte⟩
        · have hfirst : i = dpu :=
            (List.mem_cons.mp hi).resolve_right fun hi => hlater ⟨i, hi, hcovers⟩
          refine ⟨i, hi, hcovers, ?_⟩
          rw [List.foldl_cons, hother fun j hj hj' => hlater ⟨j, hj, hj'⟩, ← hfirst]
          exact if_pos hcovers.2
      · intro hnone
        rw [List.foldl_cons, hother fun j hj => hnone j (List.mem_cons_of_mem dpu hj)]
        exact if_neg fun hrange => hnone dpu List.mem_cons_self
          ⟨hdpus dpu List.mem_cons_self, hrange⟩

theorem hostCopyRank_out_of_range (memcpy : Memcpy) (calls : CommitCalls)
    {tm : Option DpuTransferMram}
    (h : ∀ transfer ∈ tm,
      kMramSizeBytes < transfer.offsetInMram.toNat + transfer.size.toNat)
    (s : TransferState) : hostCopyRank memcpy calls tm s = .error .einval s := by
  cases tm with
  | none => rfl
  | some transfer =>
      have hrange := h transfer rfl
      have hrefused : transferInBounds kMramSizeBytes transfer = false := by
        unfold transferInBounds
        simp only [Bool.and_eq_false_iff, decide_eq_false_iff_not]
        omega
      change (require (transferInBounds kMramSizeBytes transfer) Errno.einval >>= _ :
        TransferM Unit).run s = _
      rw [EStateM.run_bind, hrefused]
      rfl

/-- Transfers are plain copies.  Buffers may overlap: on the way out of the rank
an address in several of them gets the byte of one of their DPUs. -/
theorem rank_transfer (calls : CommitCalls) (tm : Option DpuTransferMram) (rank : Rank)
    (host : Bytes) :
    (∀ t, hostCopyToRank calls tm (.start rank host) = .ok () t →
      ∃ transfer, tm = some transfer ∧ t.served.Nodup ∧
        (∀ i, i ∈ t.served ↔ transfer.requested i ∧ transfer.size.toNat ≠ 0) ∧
        t.host = host ∧
        ∀ i j, t.rank.readMram i j =
          if transfer.requested i ∧ transfer.offsetInMram.toNat ≤ j ∧
              j < transfer.offsetInMram.toNat + transfer.size.toNat then
            host (transfer.ptr i + (j - transfer.offsetInMram.toNat))
          else rank.readMram i j) ∧
    (∀ t, hostCopyFromRank calls tm (.start rank host) = .ok () t →
      ∃ transfer, tm = some transfer ∧ t.served.Nodup ∧
        (∀ i, i ∈ t.served ↔ transfer.requested i ∧ transfer.size.toNat ≠ 0) ∧
        t.rank.readMram = rank.readMram ∧
        (∀ i address, transfer.covers i address →
          ∃ j, transfer.covers j address ∧
            ((∀ k, transfer.covers k address → k = i) → j = i) ∧ t.host address =
              rank.readMram j (transfer.offsetInMram.toNat + (address - transfer.ptr j))) ∧
        ∀ address, (∀ i, ¬transfer.covers i address) → t.host address = host address) ∧
    ((∀ transfer ∈ tm,
        kMramSizeBytes < transfer.offsetInMram.toNat + transfer.size.toNat) →
      hostCopyToRank calls tm (.start rank host) = .error .einval (.start rank host) ∧
        hostCopyFromRank calls tm (.start rank host) = .error .einval (.start rank host)) := by
  refine ⟨fun t h => ?_, fun t h => ?_, fun h => ?_⟩
  · obtain ⟨transfer, htm, -, hnodup, hserved, hcontents⟩ := hostCopyRank_returns h
    obtain ⟨hhost, hmram⟩ := foldl_copy_to transfer hnodup
      (TransferState.start rank host).contents
    rw [← hcontents] at hhost hmram
    refine ⟨transfer, htm, hnodup, hserved, hhost, fun i j => (congrFun (hmram i) j).trans ?_⟩
    by_cases hi : i ∈ t.served
    · rw [if_pos hi]
      simp [copyBytes, ((hserved i).mp hi).1, TransferState.start, TransferState.contents]
    · rw [if_neg hi, if_neg]
      · rfl
      · rintro ⟨hrequested, hrange⟩
        exact hi ((hserved i).mpr ⟨hrequested, by omega⟩)
  · obtain ⟨transfer, htm, -, hnodup, hserved, hcontents⟩ := hostCopyRank_returns h
    obtain ⟨hmram, hhost⟩ := foldl_copy_from transfer (fun i hi => ((hserved i).mp hi).1)
      (TransferState.start rank host).contents
    rw [← hcontents] at hhost hmram
    have hcovers : ∀ i address, transfer.covers i address → i ∈ t.served := by
      rintro i address ⟨hrequested, hrange⟩
      exact (hserved i).mpr ⟨hrequested, by omega⟩
    refine ⟨transfer, htm, hnodup, hserved, hmram, fun i address hi => ?_, fun address hnone => ?_⟩
    · obtain ⟨j, -, hj, hbyte⟩ := (hhost address).1 ⟨i, hcovers i address hi, hi⟩
      exact ⟨j, hj, fun hsole => hsole j hj, hbyte⟩
    · exact (hhost address).2 fun i _ => hnone i
  · exact ⟨hostCopyRank_out_of_range _ calls h _, hostCopyRank_out_of_range _ calls h _⟩

def threeBuffers : DpuTransferMram where
  ptr i := if i = 0 then 1000 else if i = 1 then 2000 else if i = 9 then 3000 else 0
  offsetInMram := 8
  size := 64

def countingHost : Bytes := fun i => BitVec.ofNat 8 i

theorem rank_transfer_threeBuffers :
    (∃ t, hostCopyToRank reliableCalls (some threeBuffers) (.start .created countingHost) =
        .ok () t ∧ t.rank.readMram 9 10 = countingHost 3002 ∧ t.rank.readMram 8 10 = 0) ∧
      (∃ t, hostCopyFromRank reliableCalls (some threeBuffers) (.start .created countingHost) =
        .ok () t ∧ t.host 3002 = 0 ∧ t.host 999 = countingHost 999) ∧
      hostCopyToRank reliableCalls (some { threeBuffers with offsetInMram := 0x3FFFFC1 })
        (.start .created countingHost) = .error .einval (.start .created countingHost) := by
  obtain ⟨hto, hfrom, -⟩ := rank_transfer reliableCalls (some threeBuffers) .created countingHost
  refine ⟨?_, ?_, ?_⟩
  · obtain ⟨⟨⟩, t, ht⟩ := exists_returns
      (by decide +kernel : returns (hostCopyToRank reliableCalls (some threeBuffers))
        (.start .created countingHost) = true)
    obtain ⟨transfer, htm, -, -, -, hmram⟩ := hto t ht
    cases htm
    refine ⟨t, ht, ?_, ?_⟩
    · rw [hmram]
      decide
    · rw [hmram]
      decide
  · obtain ⟨⟨⟩, t, ht⟩ := exists_returns
      (by decide +kernel : returns (hostCopyFromRank reliableCalls (some threeBuffers))
        (.start .created countingHost) = true)
    obtain ⟨transfer, htm, -, -, -, hcovered, hother⟩ := hfrom t ht
    cases htm
    refine ⟨t, ht, ?_, ?_⟩
    · obtain ⟨j, -, -, hbyte⟩ := hcovered 9 3002 (by decide)
      rw [hbyte]
      rfl
    · have hnone : ∀ i < kRankNumDpus, ¬threeBuffers.covers i 999 := by decide
      exact hother 999 fun i hi => hnone i hi.1.1 hi
  · exact ((rank_transfer reliableCalls _ .created countingHost).2.2 (by decide)).1

end HostPimSim.Upmem
