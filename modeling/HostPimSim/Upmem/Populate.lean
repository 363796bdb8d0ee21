import HostPimSim.Upmem.Commit

/-! The DPUs of a rank by their global index, and their lazy population.  A commit
populates the first DPU of each bank, a transfer those it copies. -/
namespace HostPimSim.Upmem
open Core.Register (Bytes)

def kRankNumDpus : Nat := kChipNumDpus * kRankNumBanks

def globalIdx (dpuLocalIdx bankIdx : Nat) : Nat := dpuLocalIdx * kRankNumBanks + bankIdx

def Rank.dpuByGlobal (rank : Rank) (dpuGlobalIdx : Nat) : Dpu :=
  (rank.chips (dpuGlobalIdx % kRankNumBanks)).dpus (dpuGlobalIdx / kRankNumBanks)

def Chip.setMram (chip : Chip) (dpuIdx : Nat) (mram : Mram) : Chip :=
  { chip with dpus := fun i =>
      if i = dpuIdx then { chip.dpus i with mram := mram } else chip.dpus i }

def Rank.setMram (rank : Rank) (dpuGlobalIdx : Nat) (mram : Mram) : Rank :=
  let bankIdx := dpuGlobalIdx % kRankNumBanks
  rank.setChip bankIdx ((rank.chips bankIdx).setMram (dpuGlobalIdx / kRankNumBanks) mram)

def Rank.populateColor (rank : Rank) : Rank :=
  { rank with ciColorState := some (rank.ciColorState.getD fun _ => 0) }

/-- `try_lazy_populate_dpu`; when one of its calls fails, what those before it did
remains. -/
def lazyPopulateDpu (calls : CommitCalls) (rank : Rank) (dpuGlobalIdx : Nat) : Rank × Bool :=
  let ciIdx := dpuGlobalIdx % kRankNumBanks
  if dpuGlobalIdx ≥ kRankNumDpus then (rank, false)
  else if !((rank.chips ciIdx).populated || calls.populateCiBank dpuGlobalIdx) then
    (rank, false)
  else
    let rank := rank.setChip ciIdx (rank.chips ciIdx).lazyPopulateCi
    if !calls.populateCiColor dpuGlobalIdx then (rank, false)
    else
      let rank := rank.populateColor
      let mram := (rank.dpuByGlobal dpuGlobalIdx).mram
      if mram.bound then (rank, true)
      else if !calls.allocateMram dpuGlobalIdx then (rank, false)
      else (rank.setMram dpuGlobalIdx mram.allocate, calls.populateThread dpuGlobalIdx)

def reliableCalls : CommitCalls :=
  ⟨fun _ => true, fun _ => true, fun _ => true, fun _ => true, fun _ _ => true, fun _ => true⟩

def Mram.read (mram : Mram) : Bytes := fun i => if mram.bound then mram.bytes i else 0

def Rank.readMram (rank : Rank) (dpuGlobalIdx : Nat) : Bytes :=
  (rank.dpuByGlobal dpuGlobalIdx).mram.read

theorem dpuByGlobal_setMram (rank : Rank) (dpuGlobalIdx i : Nat) (mram : Mram) :
    ((rank.setMram dpuGlobalIdx mram).dpuByGlobal i).mram =
      if i = dpuGlobalIdx then mram else (rank.dpuByGlobal i).mram := by
  have hsplit : i = dpuGlobalIdx ↔ i % kRankNumBanks = dpuGlobalIdx % kRankNumBanks ∧
      i / kRankNumBanks = dpuGlobalIdx / kRankNumBanks := by
    unfold kRankNumBanks
    omega
  unfold Rank.setMram Rank.dpuByGlobal Rank.setChip Chip.setMram
  by_cases hbank : i % kRankNumBanks = dpuGlobalIdx % kRankNumBanks
  · by_cases hlocal : i / kRankNumBanks = dpuGlobalIdx / kRankNumBanks
    · simp [hbank, hlocal, hsplit]
    · simp [hbank, hlocal, hsplit]
  · simp [hbank, hsplit]

theorem dpuByGlobal_populateCi (rank : Rank) (ciIdx i : Nat) :
    (rank.setChip ciIdx (rank.chips ciIdx).lazyPopulateCi).populateColor.dpuByGlobal i =
        rank.dpuByGlobal i ∧
      (rank.setChip ciIdx (rank.chips ciIdx).lazyPopulateCi).dpuByGlobal i =
        rank.dpuByGlobal i := by
  unfold Rank.populateColor Rank.dpuByGlobal Rank.setChip Chip.lazyPopulateCi
  dsimp only
  split
  · rename_i hbank
    rw [hbank]
    split
    · exact ⟨rfl, rfl⟩
    · exact ⟨rfl, rfl⟩
  · exact ⟨rfl, rfl⟩

theorem read_allocate (mram : Mram) : mram.allocate.read = mram.read := by
  unfold Mram.allocate
  split
  · rfl
  · rename_i hbound
    funext i
    simp [Mram.read, hbound]

theorem bound_allocate (mram : Mram) : mram.allocate.bound = true := by
  unfold Mram.allocate
  split
  · assumption
  · rfl

/-- Population keeps the bytes of every MRAM, and binds the MRAM it is for. -/
theorem lazyPopulateDpu_read (calls : CommitCalls) (rank : Rank) (dpuGlobalIdx i : Nat) :
    ((lazyPopulateDpu calls rank dpuGlobalIdx).1.dpuByGlobal i).mram.read =
        (rank.dpuByGlobal i).mram.read ∧
      ((lazyPopulateDpu calls rank dpuGlobalIdx).2 = true →
        ((lazyPopulateDpu calls rank dpuGlobalIdx).1.dpuByGlobal dpuGlobalIdx).mram.bound =
          true) := by
  have hci := dpuByGlobal_populateCi rank (dpuGlobalIdx % kRankNumBanks)
  unfold lazyPopulateDpu
  dsimp only
  split
  · exact ⟨rfl, fun h => by cases h⟩
  split
  · exact ⟨rfl, fun h => by cases h⟩
  split
  · rw [(hci i).2]
    exact ⟨rfl, fun h => by cases h⟩
  split
  · rename_i hbound
    rw [(hci i).1]
    exact ⟨rfl, fun _ => hbound⟩
  split
  · rw [(hci i).1]
    exact ⟨rfl, fun h => by cases h⟩
  · rw [dpuByGlobal_setMram, dpuByGlobal_setMram, if_pos rfl, (hci dpuGlobalIdx).1]
    refine ⟨?_, fun _ => bound_allocate _⟩
    split
    · rename_i hi
      rw [read_allocate, hi]
    · rw [(hci i).1]

theorem lazyPopulateCi_dpus (chip : Chip) : chip.lazyPopulateCi.dpus = chip.dpus := by
  unfold Chip.lazyPopulateCi
  split
  · rfl
  · rfl

theorem lazyPopulate_eq (chip : Chip) :
    chip.lazyPopulate = chip.lazyPopulateCi.setMram 0 (chip.dpus 0).mram.allocate := by
  unfold Chip.lazyPopulate Chip.setMram
  dsimp only
  rw [lazyPopulateCi_dpus]
  congr 1
  funext i
  split
  · rename_i hi
    rw [hi]
  · rfl

theorem setMram_self (chip : Chip) (dpuIdx : Nat) :
    chip.setMram dpuIdx (chip.dpus dpuIdx).mram = chip := by
  have hdpus : (fun i => if i = dpuIdx then
      { chip.dpus i with mram := (chip.dpus dpuIdx).mram } else chip.dpus i) = chip.dpus := by
    funext i
    split
    · rename_i hi
      rw [hi]
    · rfl
  unfold Chip.setMram
  rw [hdpus]

theorem setMram_populated (rank : Rank) (mram : Mram) {bankIdx : Nat}
    (hbank : bankIdx < kRankNumBanks) :
    (rank.setChip bankIdx (rank.chips bankIdx).lazyPopulateCi).populateColor.setMram bankIdx
        mram =
      (rank.setChip bankIdx
        ((rank.chips bankIdx).lazyPopulateCi.setMram 0 mram)).populateColor := by
  unfold Rank.setMram Rank.populateColor Rank.setChip
  simp only [Nat.mod_eq_of_lt hbank, Nat.div_eq_of_lt hbank, if_true, Rank.mk.injEq, and_true]
  funext i
  split
  · rfl
  · rfl

theorem tryLazyPopulateDpu_eq (calls : CommitCalls) (rank : Rank) {bankIdx : Nat}
    (hbank : bankIdx < kRankNumBanks) :
    tryLazyPopulateDpu calls rank bankIdx =
      if (lazyPopulateDpu calls rank bankIdx).2 then
        some (lazyPopulateDpu calls rank bankIdx).1 else none := by
  have hmod : bankIdx % kRankNumBanks = bankIdx := Nat.mod_eq_of_lt hbank
  have hdiv : bankIdx / kRankNumBanks = 0 := Nat.div_eq_of_lt hbank
  have hrange : ¬bankIdx ≥ kRankNumDpus := by
    unfold kRankNumDpus kChipNumDpus
    unfold kRankNumBanks at *
    omega
  have hmram := (dpuByGlobal_populateCi rank bankIdx bankIdx).1
  unfold tryLazyPopulateDpu lazyPopulateDpu
  dsimp only
  rw [if_neg hrange, hmod, hmram, lazyPopulate_eq]
  have hfirst : (rank.dpuByGlobal bankIdx).mram = ((rank.chips bankIdx).dpus 0).mram := by
    unfold Rank.dpuByGlobal
    rw [hmod, hdiv]
  rw [hfirst]
  cases hci : (rank.chips bankIdx).populated || calls.populateCiBank bankIdx with
  | false => simp
  | true =>
    cases hcolor : calls.populateCiColor bankIdx with
    | false => simp
    | true =>
      cases hbound : ((rank.chips bankIdx).dpus 0).mram.bound with
      | true =>
        have hkept : ((rank.chips bankIdx).dpus 0).mram.allocate =
            ((rank.chips bankIdx).lazyPopulateCi.dpus 0).mram := by
          rw [lazyPopulateCi_dpus]
          exact if_pos hbound
        rw [hkept, setMram_self]
        rfl
      | false =>
        cases hallocate : calls.allocateMram bankIdx with
        | false => simp
        | true =>
          cases hthread : calls.populateThread bankIdx with
          | false => simp
          | true =>
            rw [setMram_populated rank _ hbank]
            rfl

theorem lazyPopulateDpu_bound (calls : CommitCalls) (rank : Rank) (dpuGlobalIdx i : Nat)
    (h : (rank.dpuByGlobal i).mram.bound = true) :
    ((lazyPopulateDpu calls rank dpuGlobalIdx).1.dpuByGlobal i).mram.bound = true := by
  have hci := dpuByGlobal_populateCi rank (dpuGlobalIdx % kRankNumBanks) i
  unfold lazyPopulateDpu
  dsimp only
  split
  · exact h
  split
  · exact h
  split
  · rw [hci.2, h]
  split
  · rw [hci.1, h]
  split
  · rw [hci.1, h]
  · rw [dpuByGlobal_setMram]
    split
    · exact bound_allocate _
    · rw [hci.1, h]

end HostPimSim.Upmem
