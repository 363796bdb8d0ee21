import HostPimSim.Core.Topology

/-! The handler table of one region under its readers, which count themselves and
then look at the flag, and its mutators, which set the flag and then look at the
count.  One action is one atomic access, so a list of actions is an interleaving. -/
namespace HostPimSim.Core.HandlerTable
open Register Pool Threads Transition
open HostPimSim.Core.Topology (Region DpuHandlerEntry overlapsHandler)

inductive Mutation where
  | register (offset : Nat) (depth : BitVec 32) (registerSize handler userData : Nat)
      (bytes : Bytes) (inserted : Bool)
  | unregister (offset : Nat) (depth : BitVec 32)

def mutate (region : Region) : Mutation → PimError × Region
  | .register offset depth registerSize handler userData bytes inserted =>
      if overlapsHandler region offset depth registerSize then (.alreadyExists, region)
      else match pimLoadRegisterU64 bytes registerSize with
        | none => (.invalidArg, region)
        | some initialValue =>
            if !inserted then (.noMemory, region)
            else
              let entry : DpuHandlerEntry :=
                ⟨offset, depth, registerSize, handler, userData, initialValue⟩
              let kept := (region.table depth).filter fun e => !e.at offset depth
              (.success, region.setTable depth (entry :: kept))
  | .unregister offset depth =>
      if (region.table depth).any (DpuHandlerEntry.at offset depth) then
        (.success, region.setTable depth
          ((region.table depth).filter fun e => !e.at offset depth))
      else (.notFound, region)

theorem pimUnregisterDpuHandler_eq {s : Topology.State} {region : Region}
    (htype : region.type = .ctrlMmio)
    (hstate : Topology.validateHandlerTableMutationStateLocked s = .success)
    (hidle : Topology.activeDispatchOps s region = 0) (offset : Nat) (depth : BitVec 32) :
    Topology.pimUnregisterDpuHandler s region offset depth =
      let result := mutate region (.unregister offset depth)
      (result.1, if result.1 = .success then s.setRegion result.2 else s) := by
  unfold Topology.pimUnregisterDpuHandler mutate
  simp only [htype, hstate, hidle, ne_eq, not_true_eq_false, if_false]
  split
  · rfl
  · rfl

theorem pimRegisterDpuHandler_eq {s : Topology.State} {region : Region}
    {offset registerSize handler : Nat} (htype : region.type = .ctrlMmio) (hhandler : handler ≠ 0)
    (hstate : Topology.validateHandlerTableMutationStateLocked s = .success)
    (hsize : pimIsSupportedRegisterSize registerSize = true) (haligned : offset % registerSize = 0)
    (hrange : offset ≤ region.size ∧ registerSize ≤ region.size - offset)
    (hidle : Topology.activeDispatchOps s region = 0) (depth : BitVec 32) (userData : Nat)
    (bytes : Bytes) (inserted : Bool) :
    Topology.pimRegisterDpuHandler s region offset depth registerSize handler userData bytes
        inserted =
      let result := mutate region
        (.register offset depth registerSize handler userData bytes inserted)
      (result.1, if result.1 = .success then s.setRegion result.2 else s) := by
  have hbounds : (decide (offset > region.size) ||
      decide (registerSize > region.size - offset)) = false := by
    simp only [Bool.or_eq_false_iff, decide_eq_false_iff_not]
    omega
  unfold Topology.pimRegisterDpuHandler mutate
  simp only [htype, hhandler, hstate, hsize, haligned, hidle, hbounds, ne_eq, not_true_eq_false,
    or_self, if_false, Bool.not_true, Bool.false_eq_true]
  split
  · rfl
  · cases pimLoadRegisterU64 bytes registerSize with
    | none => rfl
    | some initialValue =>
        cases inserted with
        | false => rfl
        | true => rfl

/-- A `region_dispatch_guard` tries again when it meets a mutation; the scan of the
monitor passes the region over. -/
inductive Reading where
  | guard
  | scan
  deriving DecidableEq

inductive ReaderPc where
  | waiting
  | admitted
  | counted
  | backingOff
  | armed
  | finished
  | thrown
  deriving DecidableEq

structure Reader where
  reading : Reading
  pc : ReaderPc
  deriving DecidableEq

inductive MutatorPc where
  | called
  | locked
  | flagged
  | refused
  | mutating
  | mutated (error : PimError)
  | returned (error : PimError)
  deriving DecidableEq

/-- `found` is the table and the flag when the call has taken the mutex. -/
structure Mutator where
  mutation : Mutation
  found : Option (Region × Bool)
  pc : MutatorPc

structure State where
  handlerTableMutating : Bool
  activeDispatchOps : BitVec 32
  region : Region
  readers : List Reader
  mutators : List Mutator

def init (region : Region) : State := ⟨false, 0, region, [], []⟩

/-- `gate` is a check of a mutation before it takes the mutex of the region that
fails; `throws` an exception out of the scan, past its decrement. -/
inductive Action where
  | read (reading : Reading)
  | reader (index : Nat)
  | throws (index : Nat)
  | mutate (mutation : Mutation)
  | gate (index : Nat) (error : PimError)
  | mutator (index : Nat)

/-- Between `fetch_add` and `fetch_sub`. -/
def Reader.counts (reader : Reader) : Bool :=
  match reader.pc with
  | .counted | .backingOff | .armed | .thrown => true
  | .waiting | .admitted | .finished => false

def MutatorPc.holds : MutatorPc → Bool
  | .locked | .flagged | .refused | .mutating | .mutated _ => true
  | .called | .returned _ => false

def MutatorPc.flags : MutatorPc → Bool
  | .flagged | .refused | .mutating | .mutated _ => true
  | .called | .locked | .returned _ => false

/-- Inserts into the table or erases from it, or has just done so. -/
def MutatorPc.changes : MutatorPc → Bool
  | .mutating | .mutated _ => true
  | _ => false

def State.moveReader (s : State) (index : Nat) (reader : Reader) (pc : ReaderPc) : State :=
  { s with readers := s.readers.set index { reader with pc := pc } }

def State.moveMutator (s : State) (index : Nat) (mutator : Mutator) (pc : MutatorPc) : State :=
  { s with mutators := s.mutators.set index { mutator with pc := pc } }

def stepReader (s : State) (index : Nat) (reader : Reader) : Option State :=
  match reader.pc with
  | .waiting =>
      some (if s.handlerTableMutating then s else s.moveReader index reader .admitted)
  | .admitted =>
      some ({ s with activeDispatchOps := s.activeDispatchOps + 1 }.moveReader index reader
        .counted)
  | .counted =>
      some (s.moveReader index reader (if s.handlerTableMutating then .backingOff else .armed))
  | .backingOff =>
      some ({ s with activeDispatchOps := s.activeDispatchOps - 1 }.moveReader index reader
        (if reader.reading = Reading.guard then .waiting else .finished))
  | .armed =>
      some ({ s with activeDispatchOps := s.activeDispatchOps - 1 }.moveReader index reader
        .finished)
  | .finished | .thrown => none

def stepMutator (s : State) (index : Nat) (mutator : Mutator) : Option State :=
  match mutator.pc with
  | .called =>
      if s.mutators.any fun other => other.pc.holds then none
      else some (s.moveMutator index
        { mutator with found := some (s.region, s.handlerTableMutating) } .locked)
  | .locked => some ({ s with handlerTableMutating := true }.moveMutator index mutator .flagged)
  | .flagged =>
      some (s.moveMutator index mutator
        (if s.activeDispatchOps ≠ 0 then .refused else .mutating))
  | .refused =>
      some ({ s with handlerTableMutating := false }.moveMutator index mutator (.returned .busy))
  | .mutating =>
      some ({ s with region := (mutate s.region mutator.mutation).2 }.moveMutator index mutator
        (.mutated (mutate s.region mutator.mutation).1))
  | .mutated error =>
      some ({ s with handlerTableMutating := false }.moveMutator index mutator (.returned error))
  | .returned _ => none

def step (s : State) : Action → Option State
  | .read reading => some { s with readers := s.readers ++ [⟨reading, .waiting⟩] }
  | .reader index => (s.readers[index]?).bind (stepReader s index)
  | .throws index => (s.readers[index]?).bind fun reader =>
      if reader = ⟨.scan, .armed⟩ then some (s.moveReader index reader .thrown) else none
  | .mutate mutation => some { s with mutators := s.mutators ++ [⟨mutation, none, .called⟩] }
  | .gate index error => (s.mutators[index]?).bind fun mutator =>
      if mutator.pc = .called ∧ error ≠ .success then
        some (s.moveMutator index mutator (.returned error))
      else none
  | .mutator index => (s.mutators[index]?).bind (stepMutator s index)

def MutatorPc.keeps : MutatorPc → Bool
  | .locked | .flagged | .refused | .mutating => true
  | .called | .mutated _ | .returned _ => false

def Mutator.Answers (mutator : Mutator) : Prop :=
  (mutator.pc = .called → mutator.found = none) ∧ mutator.pc ≠ .mutated .busy

/-- While the table changes the flag is set, so that no reader can arm itself, and
none was armed when the count was zero. -/
structure Exclusive (s : State) : Prop where
  count : s.activeDispatchOps = BitVec.ofNat 32 (s.readers.countP Reader.counts)
  lone : s.mutators.countP (fun mutator => mutator.pc.holds) ≤ 1
  flag : s.handlerTableMutating = s.mutators.any fun mutator => mutator.pc.flags
  apart : ∀ mutator ∈ s.mutators, mutator.pc.changes = true →
    ∀ reader ∈ s.readers, reader.pc ≠ .armed
  found : ∀ mutator ∈ s.mutators, mutator.pc.keeps = true →
    mutator.found = some (s.region, false)
  answers : ∀ mutator ∈ s.mutators, mutator.Answers

theorem exclusive_init (region : Region) : Exclusive (init region) where
  count := rfl
  lone := Nat.zero_le 1
  flag := rfl
  apart := by simp [init]
  found := by simp [init]
  answers := by simp [init]

theorem flags_of_changes {pc : MutatorPc} (h : pc.changes = true) : pc.flags = true := by
  cases pc with
  | mutating => rfl
  | mutated error => rfl
  | called => cases h
  | locked => cases h
  | flagged => cases h
  | refused => cases h
  | returned error => cases h

theorem holds_of_flags {pc : MutatorPc} (h : pc.flags = true) : pc.holds = true := by
  cases pc with
  | called => cases h
  | locked => cases h
  | returned error => cases h
  | flagged => rfl
  | refused => rfl
  | mutating => rfl
  | mutated error => rfl

theorem holds_of_keeps {pc : MutatorPc} (h : pc.keeps = true) : pc.holds = true := by
  cases pc with
  | called => cases h
  | mutated error => cases h
  | returned error => cases h
  | locked => rfl
  | flagged => rfl
  | refused => rfl
  | mutating => rfl

section
variable {s t : State} {index : Nat}

theorem Exclusive.moveReader {reader : Reader} (h : Exclusive s)
    (hreader : s.readers[index]? = some reader) (ops : BitVec 32) (pc : ReaderPc)
    (hops : ops + (if reader.counts then 1 else 0) =
      s.activeDispatchOps + (if ({ reader with pc := pc } : Reader).counts then 1 else 0))
    (harmed : pc = .armed → s.handlerTableMutating = false) :
    Exclusive ({ s with activeDispatchOps := ops }.moveReader index reader pc) where
  count := by
    have hcount := congrArg (BitVec.ofNat 32)
      (countP_set_add Reader.counts { reader with pc := pc } hreader)
    rw [BitVec.ofNat_add, BitVec.ofNat_add, ← h.count] at hcount
    have hone : ∀ b : Bool, BitVec.ofNat 32 (if b then 1 else 0) =
        (if b then 1 else 0 : BitVec 32) := by decide
    rw [hone, hone, ← hops] at hcount
    exact ((BitVec.add_left_inj _).mp hcount).symm
  lone := h.lone
  flag := h.flag
  apart := by
    intro mutator hmem hchanges
    have hflag : s.handlerTableMutating = true := by
      rw [h.flag, List.any_eq_true]
      exact ⟨mutator, hmem, flags_of_changes hchanges⟩
    refine forall_mem_set (h.apart mutator hmem hchanges) ?_
    intro hpc
    rw [harmed hpc] at hflag
    cases hflag
  found := h.found
  answers := h.answers

theorem Exclusive.pushReader (h : Exclusive s) (reading : Reading) :
    Exclusive { s with readers := s.readers ++ [⟨reading, .waiting⟩] } where
  count := by
    rw [List.countP_append]
    exact h.count
  lone := h.lone
  flag := h.flag
  apart mutator hmem hchanges := forall_mem_push (h.apart mutator hmem hchanges) (by simp)
  found := h.found
  answers := h.answers

theorem Exclusive.pushMutator (h : Exclusive s) (mutation : Mutation) :
    Exclusive { s with mutators := s.mutators ++ [⟨mutation, none, .called⟩] } where
  count := h.count
  lone := by
    rw [List.countP_append]
    exact h.lone
  flag := by
    rw [List.any_append]
    exact h.flag.trans (Bool.or_false _).symm
  apart := forall_mem_push h.apart (by simp [MutatorPc.changes])
  found := forall_mem_push h.found (by simp [MutatorPc.keeps])
  answers := forall_mem_push h.answers (by simp [Mutator.Answers])

theorem Exclusive.moveMutator {before after : Mutator} (h : Exclusive s)
    (hbefore : s.mutators[index]? = some before)
    (hothers : ∀ i other, s.mutators[i]? = some other → i ≠ index → other.pc.holds = false)
    (hmutators : t.mutators = s.mutators.set index after) (hreaders : t.readers = s.readers)
    (hops : t.activeDispatchOps = s.activeDispatchOps)
    (hflag : t.handlerTableMutating = after.pc.flags)
    (hapart : after.pc.changes = true → ∀ reader ∈ s.readers, reader.pc ≠ .armed)
    (hfound : after.pc.keeps = true → after.found = some (t.region, false))
    (hanswers : after.Answers) : Exclusive t := by
  have hholder : ∀ mutator ∈ t.mutators, mutator.pc.holds = true → mutator = after := by
    intro mutator hmem hholds
    rw [hmutators] at hmem
    obtain ⟨i, hi⟩ := List.mem_iff_getElem?.mp hmem
    rcases getElem?_set_some hi with ⟨-, rfl⟩ | ⟨hne, hold⟩
    · rfl
    · rw [hothers i mutator hold hne] at hholds
      cases hholds
  have hmem : after ∈ t.mutators := by
    rw [hmutators]
    exact mem_set_moved hbefore
  refine ⟨?_, ?_, ?_, ?_, ?_, ?_⟩
  · rw [hops, hreaders, h.count]
  · have hcount := countP_set_add (fun mutator : Mutator => mutator.pc.holds) after hbefore
    rw [← hmutators] at hcount
    cases hb : before.pc.holds with
    | true =>
        have := h.lone
        simp only [hb, if_true] at hcount
        split at hcount
        · omega
        · omega
    | false =>
        have hnone : s.mutators.countP (fun mutator => mutator.pc.holds) = 0 := by
          rw [List.countP_eq_zero]
          intro mutator hmem
          obtain ⟨i, hi⟩ := List.mem_iff_getElem?.mp hmem
          by_cases hne : i = index
          · subst hne
            rw [hbefore] at hi
            cases hi
            simp [hb]
          · simp [hothers i mutator hi hne]
        simp only [hb, hnone, Bool.false_eq_true, if_false] at hcount
        split at hcount
        · omega
        · omega
  · rw [hflag, Bool.eq_iff_iff, List.any_eq_true]
    constructor
    · intro hflags
      exact ⟨after, hmem, hflags⟩
    · rintro ⟨mutator, hmutator, hflags⟩
      rwa [← hholder mutator hmutator (holds_of_flags hflags)]
  · intro mutator hmutator hchanges
    have hsame := hholder mutator hmutator (holds_of_flags (flags_of_changes hchanges))
    rw [hsame] at hchanges
    rw [hreaders]
    exact hapart hchanges
  · intro mutator hmutator hkeeps
    have hsame := hholder mutator hmutator (holds_of_keeps hkeeps)
    rw [hsame] at hkeeps ⊢
    exact hfound hkeeps
  · rw [hmutators]
    exact forall_mem_set h.answers hanswers

theorem Exclusive.others (h : Exclusive s) {mutator : Mutator}
    (hmutator : s.mutators[index]? = some mutator) (hholds : mutator.pc.holds = true) :
    ∀ i other, s.mutators[i]? = some other → i ≠ index → other.pc.holds = false := by
  intro i other hother hne
  by_contra hholds'
  have hsame := eq_of_countP_le_one (p := fun mutator : Mutator => mutator.pc.holds) h.lone
    hother hmutator (by simpa using hholds') hholds
  exact hne hsame

/-- Fewer guards are held than the counter can tell from none. -/
def BelowWrap (s : State) : Prop := s.readers.countP Reader.counts < 2 ^ 32

instance (s : State) : Decidable (BelowWrap s) := Nat.decLt _ _

theorem Exclusive.idle (h : Exclusive s) (hbelow : BelowWrap s) (hzero : s.activeDispatchOps = 0) :
    ∀ reader ∈ s.readers, reader.pc ≠ .armed := by
  have hnone : s.readers.countP Reader.counts = 0 := by
    have hnat := congrArg BitVec.toNat (h.count.symm.trans hzero)
    rw [BitVec.toNat_ofNat, Nat.mod_eq_of_lt hbelow] at hnat
    exact hnat
  intro reader hmem harmed
  have hcounts := List.countP_eq_zero.mp hnone reader hmem
  simp [Reader.counts, harmed] at hcounts

theorem stepReader_exclusive {reader : Reader} (h : Exclusive s)
    (hreader : s.readers[index]? = some reader) (hstep : stepReader s index reader = some t) :
    Exclusive t := by
  unfold stepReader at hstep
  cases hpc : reader.pc with
  | waiting =>
      rw [hpc] at hstep
      cases hstep
      split
      · exact h
      · exact h.moveReader hreader s.activeDispatchOps .admitted
          (by simp [Reader.counts, hpc]) (by simp)
  | admitted =>
      rw [hpc] at hstep
      cases hstep
      exact h.moveReader hreader _ .counted (by simp [Reader.counts, hpc]) (by simp)
  | counted =>
      rw [hpc] at hstep
      cases hstep
      cases hflag : s.handlerTableMutating with
      | true =>
          exact h.moveReader hreader s.activeDispatchOps .backingOff
            (by simp [Reader.counts, hpc]) (by simp)
      | false =>
          exact h.moveReader hreader s.activeDispatchOps .armed
            (by simp [Reader.counts, hpc]) (fun _ => hflag)
  | backingOff =>
      rw [hpc] at hstep
      cases hstep
      split
      · exact h.moveReader hreader _ .waiting (by simp [Reader.counts, hpc]) (by simp)
      · exact h.moveReader hreader _ .finished (by simp [Reader.counts, hpc]) (by simp)
  | armed =>
      rw [hpc] at hstep
      cases hstep
      exact h.moveReader hreader _ .finished (by simp [Reader.counts, hpc]) (by simp)
  | finished =>
      rw [hpc] at hstep
      cases hstep
  | thrown =>
      rw [hpc] at hstep
      cases hstep

theorem mutate_ne_busy (region : Region) (mutation : Mutation) :
    (mutate region mutation).1 ≠ .busy := by
  unfold mutate
  repeat' split
  all_goals simp

theorem stepMutator_exclusive {mutator : Mutator} (h : Exclusive s) (hbelow : BelowWrap s)
    (hmutator : s.mutators[index]? = some mutator)
    (hstep : stepMutator s index mutator = some t) : Exclusive t := by
  have hmem : mutator ∈ s.mutators := List.mem_iff_getElem?.mpr ⟨index, hmutator⟩
  have hflag : mutator.pc.flags = true → s.handlerTableMutating = true := by
    intro hflags
    rw [h.flag, List.any_eq_true]
    exact ⟨mutator, hmem, hflags⟩
  have hfound := h.found mutator hmem
  unfold stepMutator at hstep
  cases hpc : mutator.pc with
  | called =>
      rw [hpc] at hstep
      dsimp only at hstep
      split at hstep
      · cases hstep
      rename_i hfree
      cases hstep
      have hfree : ∀ other ∈ s.mutators, other.pc.holds = false := by simpa using hfree
      have hclear : s.handlerTableMutating = false := by
        rw [h.flag, List.any_eq_false]
        intro other hother hflags
        have := hfree other hother
        rw [holds_of_flags hflags] at this
        cases this
      refine h.moveMutator hmutator
        (fun i other hother _ => hfree other (List.mem_iff_getElem?.mpr ⟨i, hother⟩)) rfl rfl rfl
        hclear (fun h => by cases h) (fun _ => ?_) ⟨fun h => (by cases h), by simp⟩
      exact congrArg (fun flag => some (s.region, flag)) hclear
  | locked =>
      rw [hpc] at hstep hfound
      cases hstep
      exact h.moveMutator hmutator (h.others hmutator (by rw [hpc]; rfl)) rfl rfl rfl rfl
        (fun h => by cases h) (fun _ => hfound rfl) ⟨fun h => (by cases h), by simp⟩
  | flagged =>
      rw [hpc] at hstep hfound hflag
      cases hstep
      have hothers := h.others hmutator (by rw [hpc]; rfl)
      by_cases hzero : s.activeDispatchOps = 0
      · rw [if_neg (not_not.mpr hzero)]
        exact h.moveMutator hmutator hothers rfl rfl rfl (hflag rfl)
          (fun _ => h.idle hbelow hzero) (fun _ => hfound rfl) ⟨fun h => (by cases h), by simp⟩
      · rw [if_pos hzero]
        exact h.moveMutator hmutator hothers rfl rfl rfl (hflag rfl) (fun h => by cases h)
          (fun _ => hfound rfl) ⟨fun h => (by cases h), by simp⟩
  | refused =>
      rw [hpc] at hstep
      cases hstep
      exact h.moveMutator hmutator (h.others hmutator (by rw [hpc]; rfl)) rfl rfl rfl rfl
        (fun h => by cases h) (fun h => by cases h) ⟨fun h => (by cases h), by simp⟩
  | mutating =>
      rw [hpc] at hstep hflag
      cases hstep
      exact h.moveMutator hmutator (h.others hmutator (by rw [hpc]; rfl)) rfl rfl rfl (hflag rfl)
        (fun _ => h.apart mutator hmem (by rw [hpc]; rfl)) (fun h => by cases h)
        ⟨fun h => (by cases h), by simpa using mutate_ne_busy s.region mutator.mutation⟩
  | mutated error =>
      rw [hpc] at hstep
      cases hstep
      exact h.moveMutator hmutator (h.others hmutator (by rw [hpc]; rfl)) rfl rfl rfl rfl
        (fun h => by cases h) (fun h => by cases h) ⟨fun h => (by cases h), by simp⟩
  | returned error =>
      rw [hpc] at hstep
      cases hstep

theorem Exclusive.gate {mutator : Mutator} (h : Exclusive s)
    (hmutator : s.mutators[index]? = some mutator) (hpc : mutator.pc = .called)
    (error : PimError) : Exclusive (s.moveMutator index mutator (.returned error)) where
  count := h.count
  lone := by
    have hcount := countP_set_add (fun mutator : Mutator => mutator.pc.holds)
      { mutator with pc := .returned error } hmutator
    rw [hpc] at hcount
    exact (Nat.add_right_cancel hcount).trans_le h.lone
  flag := by
    refine h.flag.trans ?_
    rw [Bool.eq_iff_iff, List.any_eq_true, List.any_eq_true]
    constructor
    · rintro ⟨other, hmem, hflags⟩
      rcases eq_or_mem_set { mutator with pc := .returned error } hmutator hmem with rfl | hkept
      · rw [hpc] at hflags
        cases hflags
      · exact ⟨other, hkept, hflags⟩
    · rintro ⟨other, hmem, hflags⟩
      rcases List.mem_or_eq_of_mem_set hmem with hkept | rfl
      · exact ⟨other, hkept, hflags⟩
      · cases hflags
  apart := forall_mem_set h.apart (fun h => by cases h)
  found := forall_mem_set h.found (fun h => by cases h)
  answers := forall_mem_set h.answers ⟨fun h => (by cases h), by simp⟩

theorem exclusive_step (s : State) (action : Action) (t : State) (h : Exclusive s)
    (hbelow : BelowWrap s) (hstep : step s action = some t) : Exclusive t := by
  cases action with
  | read reading =>
      cases hstep
      exact h.pushReader reading
  | reader index =>
      obtain ⟨reader, hreader, hstep⟩ := Option.bind_eq_some_iff.mp hstep
      exact stepReader_exclusive h hreader hstep
  | throws index =>
      obtain ⟨reader, hreader, hstep⟩ := Option.bind_eq_some_iff.mp hstep
      split at hstep
      · rename_i hscan
        cases hstep
        subst hscan
        exact h.moveReader hreader s.activeDispatchOps .thrown (by simp [Reader.counts])
          (by simp)
      · cases hstep
  | mutate mutation =>
      cases hstep
      exact h.pushMutator mutation
  | gate index error =>
      obtain ⟨mutator, hmutator, hstep⟩ := Option.bind_eq_some_iff.mp hstep
      split at hstep
      · rename_i hcalled
        cases hstep
        exact h.gate hmutator hcalled.1 error
      · cases hstep
  | mutator index =>
      obtain ⟨mutator, hmutator, hstep⟩ := Option.bind_eq_some_iff.mp hstep
      exact stepMutator_exclusive h hbelow hmutator hstep

theorem stepReader_mutators {reader : Reader} (hstep : stepReader s index reader = some t) :
    t.mutators = s.mutators := by
  unfold stepReader at hstep
  split at hstep
  · cases hstep
    split
    · rfl
    · rfl
  all_goals cases hstep
  all_goals rfl

theorem stepMutator_other {mutator : Mutator} {i : Nat}
    (hstep : stepMutator s index mutator = some t) (hi : i ≠ index) :
    t.mutators[i]? = s.mutators[i]? := by
  unfold stepMutator at hstep
  repeat' split at hstep
  all_goals cases hstep
  all_goals exact List.getElem?_set_ne hi.symm

theorem stepMutator_busy {mutator returned : Mutator} (h : Exclusive s)
    (hbefore : s.mutators[index]? = some mutator) (hstep : stepMutator s index mutator = some t)
    (hafter : t.mutators[index]? = some returned) (hbusy : returned.pc = .returned .busy) :
    mutator.found = some (t.region, t.handlerTableMutating) := by
  have hmem : mutator ∈ s.mutators := List.mem_iff_getElem?.mpr ⟨index, hbefore⟩
  have hmoved : ∀ {u : State} {moved : Mutator}, u.mutators = s.mutators.set index moved →
      some u = some t → moved.pc = .returned .busy := by
    intro u moved hset hu
    cases hu
    rw [hset, getElem?_set_moved hbefore] at hafter
    cases hafter
    exact hbusy
  unfold stepMutator at hstep
  cases hpc : mutator.pc with
  | called =>
      rw [hpc] at hstep
      dsimp only at hstep
      split at hstep
      · cases hstep
      · cases hmoved rfl hstep
  | locked =>
      rw [hpc] at hstep
      cases hmoved rfl hstep
  | flagged =>
      rw [hpc] at hstep
      have hbusy := hmoved rfl hstep
      dsimp only at hbusy
      split at hbusy
      · cases hbusy
      · cases hbusy
  | refused =>
      rw [hpc] at hstep
      cases hstep
      exact h.found mutator hmem (by rw [hpc]; rfl)
  | mutating =>
      rw [hpc] at hstep
      cases hmoved rfl hstep
  | mutated error =>
      rw [hpc] at hstep
      have hbusy := hmoved rfl hstep
      cases hbusy
      exact absurd hpc (h.answers mutator hmem).2
  | returned error =>
      rw [hpc] at hstep
      cases hstep

theorem busy_returned {action : Action} {mutator returned : Mutator} (h : Exclusive s)
    (hstep : step s action = some t) (hbefore : s.mutators[index]? = some mutator)
    (hafter : t.mutators[index]? = some returned) (hopen : mutator.pc ≠ .returned .busy)
    (hbusy : returned.pc = .returned .busy) :
    (t.region, t.handlerTableMutating) =
      mutator.found.getD (s.region, s.handlerTableMutating) := by
  have hmem : mutator ∈ s.mutators := List.mem_iff_getElem?.mpr ⟨index, hbefore⟩
  have hsame : t.mutators[index]? ≠ s.mutators[index]? := by
    intro hsame
    rw [hsame, hbefore] at hafter
    cases hafter
    exact hopen hbusy
  cases action with
  | read reading =>
      cases hstep
      exact absurd rfl hsame
  | reader i =>
      obtain ⟨reader, -, hstep⟩ := Option.bind_eq_some_iff.mp hstep
      exact absurd (by rw [stepReader_mutators hstep]) hsame
  | throws i =>
      obtain ⟨reader, -, hstep⟩ := Option.bind_eq_some_iff.mp hstep
      split at hstep
      · cases hstep
        exact absurd rfl hsame
      · cases hstep
  | mutate mutation =>
      cases hstep
      have hlength := (List.getElem?_eq_some_iff.mp hbefore).1
      exact absurd (List.getElem?_append_left hlength) hsame
  | gate i error =>
      obtain ⟨other, hother, hstep⟩ := Option.bind_eq_some_iff.mp hstep
      split at hstep
      · rename_i hcalled
        cases hstep
        by_cases hi : index = i
        · subst hi
          rw [hbefore] at hother
          cases hother
          rw [(h.answers mutator hmem).1 hcalled.1]
          rfl
        · exact absurd (List.getElem?_set_ne (Ne.symm hi)) hsame
      · cases hstep
  | mutator i =>
      obtain ⟨other, hother, hstep⟩ := Option.bind_eq_some_iff.mp hstep
      by_cases hi : index = i
      · subst hi
        rw [hbefore] at hother
        cases hother
        rw [stepMutator_busy h hbefore hstep hafter hbusy]
        rfl
      · exact absurd (stepMutator_other hstep hi) hsame

end

/-- No reader is armed while the table changes, and a mutation that is refused as
busy leaves the table and the flag as it found them, if the guards held at once are
fewer than 2^32. -/
theorem handler_table_exclusion {region : Region} {actions : List Action} {s : State}
    (hbelow : Meets step (fun s _ => BelowWrap s) (init region) actions)
    (hrun : run step (init region) actions = some s) :
    (∀ reader ∈ s.readers, reader.pc = .armed →
      ∀ mutator ∈ s.mutators, mutator.pc.changes = false) ∧
    ∀ (action : Action) (t : State) (index : Nat) (mutator returned : Mutator),
      step s action = some t →
      s.mutators[index]? = some mutator → t.mutators[index]? = some returned →
      mutator.pc ≠ .returned .busy → returned.pc = .returned .busy →
      (t.region, t.handlerTableMutating) =
        mutator.found.getD (s.region, s.handlerTableMutating) := by
  have h : Exclusive s := run_invariant_of_meets exclusive_step (exclusive_init region) hbelow hrun
  constructor
  · intro reader hreader harmed mutator hmutator
    by_contra hchanges
    exact h.apart mutator hmutator (by simpa using hchanges) reader hreader harmed
  · intro action t index mutator returned hstep hbefore hafter hopen hbusy
    exact busy_returned h hstep hbefore hafter hopen hbusy

def emptyRegion : Region := ⟨0, 0, 64, .ctrlMmio, [], []⟩

/-- A registration is refused while a guard is held and goes through after it. -/
def retryActions : List Action :=
  let register : Mutation := .register 0 0 8 1 0 (fun _ => 0) true
  [.read .guard, .reader 0, .reader 0, .reader 0, .mutate register, .mutator 0, .mutator 0,
    .mutator 0, .mutator 0, .reader 0, .mutate register, .mutator 1, .mutator 1, .mutator 1]

theorem handler_table_exclusion_retry :
    ∃ s, run step (init emptyRegion) retryActions = some s ∧
      (∃ mutator ∈ s.mutators, mutator.pc = .mutating) ∧
      ∀ reader ∈ s.readers, reader.pc = .armed →
        ∀ mutator ∈ s.mutators, mutator.pc.changes = false := by
  obtain ⟨s, hrun, hmutating⟩ : ∃ s, run step (init emptyRegion) retryActions = some s ∧
      ∃ mutator ∈ s.mutators, mutator.pc = .mutating := exists_run (by decide)
  have hbelow : Meets step (fun s _ => BelowWrap s) (init emptyRegion) retryActions := by decide
  exact ⟨s, hrun, hmutating, (handler_table_exclusion hbelow hrun).1⟩

def enterGuards (n : Nat) : List Action :=
  (List.range n).flatMap fun i => [.read .guard, .reader i, .reader i, .reader i]

theorem run_enterGuards (region : Region) (n : Nat) :
    run step (init region) (enterGuards n) =
      some ⟨false, BitVec.ofNat 32 n, region, List.replicate n ⟨.guard, .armed⟩, []⟩ := by
  induction n with
  | zero => rfl
  | succ n ih =>
      have hlast : ∀ reader : Reader,
          (List.replicate n (⟨.guard, .armed⟩ : Reader) ++ [reader])[n]? = some reader := by
        simp
      have hset : ∀ reader reader' : Reader,
          (List.replicate n (⟨.guard, .armed⟩ : Reader) ++ [reader]).set n reader' =
            List.replicate n ⟨.guard, .armed⟩ ++ [reader'] := by
        simp
      have hactions : enterGuards (n + 1) =
          enterGuards n ++ ([.read .guard, .reader n, .reader n, .reader n] : List Action) := by
        simp [enterGuards, List.range_succ]
      rw [hactions, run_append, ih, Option.bind_some]
      simp only [run_cons, run_nil, step, Option.bind_some, hlast, stepReader, State.moveReader,
        hset, Bool.false_eq_true, if_false, List.replicate_succ', Option.some.injEq,
        State.mk.injEq, true_and, and_true]
      exact (BitVec.ofNat_add n 1).symm

/-- With 2^32 guards held the count is zero, and a mutation goes ahead. -/
theorem count_comes_round :
    ¬∀ (region : Region) (actions : List Action) (s : State),
      run step (init region) actions = some s →
      ∀ reader ∈ s.readers, reader.pc = .armed →
        ∀ mutator ∈ s.mutators, mutator.pc.changes = false := by
  intro h
  have hmutation : ∀ readers : List Reader,
      run step ⟨false, 0, emptyRegion, readers, []⟩
          [.mutate (.unregister 0 0), .mutator 0, .mutator 0, .mutator 0] =
        some ⟨true, 0, emptyRegion, readers,
          [⟨.unregister 0 0, some (emptyRegion, false), .mutating⟩]⟩ := fun _ => rfl
  have hrun := h emptyRegion (enterGuards (2 ^ 32) ++
    ([.mutate (.unregister 0 0), .mutator 0, .mutator 0, .mutator 0] : List Action)) _
    (by rw [run_append, run_enterGuards]; exact hmutation _)
  have hchanges := hrun ⟨.guard, .armed⟩ (List.mem_replicate.mpr ⟨by decide, rfl⟩) rfl _
    (List.mem_singleton_self _)
  cases hchanges

end HostPimSim.Core.HandlerTable
