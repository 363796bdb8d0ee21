import HostPimSim.Core.PoolTasks

/-! The counters behind the barriers.  The two counters of a key are the numbers of
its dispatches that were committed and finished, and a worker that finishes the
last one owes the sleepers a wake-up. -/
namespace HostPimSim.Core.Pool
open Threads Transition

def commitedTo : Key → DispatchPc → Bool
  | none, .deviceCommited => true
  | _, .regionCommited | _, .accepted | _, .taken | _, .executed | _, .deviceFinished
  | _, .regionFinished => true
  | _, _ => false

def finishedTo : Key → DispatchPc → Bool
  | none, .deviceFinished => true
  | _, .regionFinished => true
  | _, _ => false

def commitedFor (key : Key) (dispatch : Dispatch) : Bool :=
  commitedTo key dispatch.pc && dispatch.entry.concerns key

def finishedFor (key : Key) (dispatch : Dispatch) : Bool :=
  finishedTo key dispatch.pc && dispatch.entry.concerns key

def commitedCount (s : State) (key : Key) : Nat := s.dispatches.countP (commitedFor key)

def finishedCount (s : State) (key : Key) : Nat := s.dispatches.countP (finishedFor key)

def keyed : WorkerPc → Prop
  | .finishing task (some region) | .counted task (some region) _
  | .waking task (some region) => region = task.entry.region
  | _ => True

/-- The worker has yet to compare the present count of `key`, or to wake. -/
def wakes (s : State) (key : Key) : WorkerPc → Prop
  | .counted _ k finished => k = key ∧ finished = s.futexCntFinished key
  | .waking _ k => k = key
  | _ => False

/-- Sleepers on `key` will be woken. -/
def Awaited (s : State) (key : Key) : Prop :=
  finishedCount s key < commitedCount s key ∨ ∃ worker ∈ s.workers, wakes s key worker

def WaiterFacts (s : State) (waiter : Waiter) : Prop :=
  match waiter.pc with
  | .entered | .polling => True
  | .finishedLoaded finished =>
      ∃ n ≤ finishedCount s waiter.key, finished = BitVec.ofNat 32 n
  | .sleeping finished =>
      ∃ n ≤ finishedCount s waiter.key, finished = BitVec.ofNat 32 n ∧
        n < commitedCount s waiter.key
  | .asleep _ => Awaited s waiter.key
  | .returned => ∀ i ∈ waiter.due, i ∈ s.ranInPool

structure Balanced (s : State) : Prop where
  commited : ∀ key, s.futexCntCommited key = BitVec.ofNat 32 (commitedCount s key)
  finished : ∀ key, s.futexCntFinished key = BitVec.ofNat 32 (finishedCount s key)
  total : s.submissions.length = s.dispatches.countP fun d => entered d.pc
  keys : ∀ worker ∈ s.workers, keyed worker
  due : ∀ waiter ∈ s.waiters, ∀ i ∈ waiter.due,
    tally (commitedFor waiter.key) s.dispatches i = 1
  waiters : ∀ waiter ∈ s.waiters, WaiterFacts s waiter

theorem commitedFor_of_finishedFor {key : Key} {dispatch : Dispatch}
    (h : finishedFor key dispatch = true) : commitedFor key dispatch = true := by
  simp only [finishedFor, commitedFor, Bool.and_eq_true] at h ⊢
  refine ⟨?_, h.2⟩
  cases hpc : dispatch.pc <;> cases key <;> simp_all [finishedTo, commitedTo]

theorem finishedCount_le_commitedCount (s : State) (key : Key) :
    finishedCount s key ≤ commitedCount s key :=
  List.countP_mono_left fun _ _ => commitedFor_of_finishedFor

theorem entered_of_commitedFor {key : Key} {dispatch : Dispatch}
    (h : commitedFor key dispatch = true) : entered dispatch.pc = true := by
  simp only [commitedFor, Bool.and_eq_true] at h
  cases hpc : dispatch.pc <;> cases key <;> simp_all [commitedTo, entered, active]

theorem Balanced.commitedCount_le {s : State} (h : Balanced s) (key : Key) :
    commitedCount s key ≤ s.submissions.length := by
  rw [h.total]
  exact List.countP_mono_left fun _ _ => entered_of_commitedFor

structure Advances (s t : State) : Prop where
  commited : ∀ key, commitedCount s key ≤ commitedCount t key
  finished : ∀ key, finishedCount s key ≤ finishedCount t key
  ran : ∀ i ∈ s.ranInPool, i ∈ t.ranInPool

theorem WaiterFacts.of_advances {s t : State} {waiter : Waiter} (h : WaiterFacts s waiter)
    (hadvances : Advances s t) (hawaited : ∀ finished, waiter.pc = .asleep finished →
      Awaited s waiter.key → Awaited t waiter.key) : WaiterFacts t waiter := by
  unfold WaiterFacts at h ⊢
  cases hpc : waiter.pc with
  | entered | polling => trivial
  | finishedLoaded finished =>
      simp only [hpc] at h ⊢
      obtain ⟨n, hn, hfinished⟩ := h
      exact ⟨n, Nat.le_trans hn (hadvances.finished _), hfinished⟩
  | sleeping finished =>
      simp only [hpc] at h ⊢
      obtain ⟨n, hn, hfinished, hless⟩ := h
      exact ⟨n, Nat.le_trans hn (hadvances.finished _), hfinished,
        Nat.lt_of_lt_of_le hless (hadvances.commited _)⟩
  | asleep finished =>
      simp only [hpc] at h ⊢
      exact hawaited finished hpc h
  | returned =>
      simp only [hpc] at h ⊢
      exact fun i hi => hadvances.ran i (h i hi)

theorem bump_eq_count {counter : Key → BitVec 32} {p : Key → Dispatch → Bool}
    {dispatches : List Dispatch} {index : Nat} {before after : Dispatch} {key : Key}
    (hcounter : ∀ k, counter k = BitVec.ofNat 32 (dispatches.countP (p k)))
    (hget : dispatches[index]? = some before) (hbefore : p key before = false)
    (hafter : p key after = true) (hother : ∀ k, k ≠ key → p k after = p k before) (k : Key) :
    bump counter key k = BitVec.ofNat 32 ((dispatches.set index after).countP (p k)) := by
  have hmoved := countP_set_add (p k) after hget
  unfold bump
  rw [hcounter k]
  by_cases hk : k = key
  · subst hk
    simp only [hbefore, hafter, if_true, Bool.false_eq_true, if_false] at hmoved ⊢
    rw [Nat.add_zero] at hmoved
    rw [hmoved, BitVec.ofNat_add]
    rfl
  · simp only [hk, if_false]
    rw [hother k hk] at hmoved
    congr 1
    omega

theorem count_set_eq {counter : Key → BitVec 32} {p : Key → Dispatch → Bool}
    {dispatches : List Dispatch} {index : Nat} {before after : Dispatch}
    (hcounter : ∀ k, counter k = BitVec.ofNat 32 (dispatches.countP (p k)))
    (hget : dispatches[index]? = some before) (hsame : ∀ k, p k after = p k before) (k : Key) :
    counter k = BitVec.ofNat 32 ((dispatches.set index after).countP (p k)) := by
  have hmoved := countP_set_add (p k) after hget
  rw [hsame k] at hmoved
  rw [hcounter k]
  congr 1
  omega

theorem balanced_init : Balanced init where
  commited := by simp [init, commitedCount]
  finished := by simp [init, finishedCount]
  total := rfl
  keys := by simp [init]
  due := by simp [init]
  waiters := by simp [init]

theorem wakes_congr {s t : State} {key : Key}
    (hfinished : t.futexCntFinished key = s.futexCntFinished key) {worker : WorkerPc}
    (h : wakes s key worker) : wakes t key worker := by
  cases worker <;> simp_all [wakes]

theorem Awaited.of_worker {s t : State} {key : Key} {index : Nat} {worker moved : WorkerPc}
    (h : Awaited s key) (hworker : s.workers[index]? = some worker)
    (hworkers : t.workers = s.workers.set index moved)
    (hfinished : finishedCount t key = finishedCount s key)
    (hcommited : commitedCount s key ≤ commitedCount t key)
    (hcounter : t.futexCntFinished key = s.futexCntFinished key)
    (hself : wakes s key worker → Awaited t key) : Awaited t key := by
  rcases h with hless | ⟨other, hother, hwakes⟩
  · exact .inl (by omega)
  · rcases eq_or_mem_set moved hworker hother with rfl | hkept
    · exact hself hwakes
    · exact .inr ⟨other, hworkers ▸ hkept, wakes_congr hcounter hwakes⟩

theorem Awaited.of_mem {s t : State} {key : Key} (h : Awaited s key)
    (hworkers : ∀ worker ∈ s.workers, wakes s key worker → worker ∈ t.workers)
    (hfinished : finishedCount t key = finishedCount s key)
    (hcommited : commitedCount s key ≤ commitedCount t key)
    (hcounter : t.futexCntFinished key = s.futexCntFinished key) : Awaited t key := by
  rcases h with hless | ⟨worker, hmem, hwakes⟩
  · exact .inl (by omega)
  · exact .inr ⟨worker, hworkers worker hmem hwakes, wakes_congr hcounter hwakes⟩

theorem SameTasks.counts {s t : State} (h : SameTasks s t) (key : Key) :
    finishedCount t key = finishedCount s key ∧ commitedCount t key = commitedCount s key := by
  simp [finishedCount, commitedCount, h.dispatches]

theorem SameTasks.advances {s t : State} (h : SameTasks s t) : Advances s t where
  commited key := Nat.le_of_eq (h.counts key).2.symm
  finished key := Nat.le_of_eq (h.counts key).1.symm
  ran := by simp [h.ranInPool]

theorem Balanced.of_sameTasks {s t : State} (h : Balanced s) (hsame : SameTasks s t)
    (hkeys : ∀ worker ∈ t.workers, keyed worker)
    (hdue : ∀ waiter ∈ t.waiters, ∀ i ∈ waiter.due,
      tally (commitedFor waiter.key) s.dispatches i = 1)
    (hwaiters : ∀ waiter ∈ t.waiters, WaiterFacts t waiter) : Balanced t := by
  refine ⟨?_, ?_, ?_, hkeys, ?_, hwaiters⟩
  · intro key
    rw [hsame.commited, (hsame.counts key).2]
    exact h.commited key
  · intro key
    rw [hsame.finished, (hsame.counts key).1]
    exact h.finished key
  · rw [hsame.submissions, hsame.dispatches]
    exact h.total
  · rw [hsame.dispatches]
    exact hdue

theorem Waiter.wake_cases (waiter : Waiter) :
    waiter.wake = waiter ∨ waiter.wake = { waiter with pc := .polling } := by
  unfold Waiter.wake
  cases waiter.pc <;> simp

theorem waiterFacts_wake {s : State} {waiter : Waiter} (h : WaiterFacts s waiter) :
    WaiterFacts s waiter.wake := by
  rcases waiter.wake_cases with hsame | hwoken
  · rwa [hsame]
  · rw [hwoken]
    trivial

theorem Balanced.of_control {s t : State} (h : Balanced s) (hsame : SameTasks s t)
    (hchange : WorkersChange s.workers t.workers)
    (hwaiters : ∀ waiter ∈ t.waiters, ∃ old ∈ s.waiters, waiter = old ∨ waiter = old.wake) :
    Balanced t := by
  have hawaited (key : Key) (hs : Awaited s key) : Awaited t key := by
    refine hs.of_mem ?_ (hsame.counts key).1 (Nat.le_of_eq (hsame.counts key).2.symm)
      (by rw [hsame.finished])
    intro worker hmem hwakes
    generalize t.workers = workers at hchange
    cases hchange with
    | kept => exact hmem
    | spawned => exact List.mem_append_left _ hmem
    | notified =>
        refine List.mem_map.mpr ⟨worker, hmem, ?_⟩
        cases worker <;> first | rfl | cases hwakes
    | cleared hexited =>
        rw [hexited worker hmem] at hwakes
        cases hwakes
  refine h.of_sameTasks hsame ?_ ?_ ?_
  · intro worker hmem
    generalize t.workers = workers at hchange hmem
    cases hchange with
    | kept => exact h.keys worker hmem
    | spawned =>
        rcases List.mem_append.mp hmem with hold | hnew
        · exact h.keys worker hold
        · rw [List.mem_singleton.mp hnew]
          trivial
    | notified =>
        obtain ⟨old, hold, rfl⟩ := List.mem_map.mp hmem
        have hkeyed := h.keys old hold
        cases old <;> exact hkeyed
    | cleared _ => cases hmem
  · intro waiter hmem
    obtain ⟨old, hold, hcase⟩ := hwaiters waiter hmem
    have hdue := h.due old hold
    rcases hcase with rfl | rfl
    · exact hdue
    · rcases old.wake_cases with hkept | hwoken
      · rwa [hkept]
      · rwa [hwoken]
  · intro waiter hmem
    obtain ⟨old, hold, hcase⟩ := hwaiters waiter hmem
    have hfacts := (h.waiters old hold).of_advances hsame.advances
      fun _ _ => hawaited old.key
    rcases hcase with rfl | rfl
    · exact hfacts
    · exact waiterFacts_wake hfacts

theorem controlStep_waiters {s t : State} {spawned : Bool}
    (hstep : controlStep s spawned = some t) :
    ∀ waiter ∈ t.waiters, ∃ old ∈ s.waiters, waiter = old ∨ waiter = old.wake := by
  have hkept {u : State} (hu : u.waiters = s.waiters) :
      ∀ waiter ∈ u.waiters, ∃ old ∈ s.waiters, waiter = old ∨ waiter = old.wake := by
    intro waiter hmem
    exact ⟨waiter, hu ▸ hmem, .inl rfl⟩
  have hwoken (after : AfterJoin) :
      ∀ waiter ∈ (if after = .startFailed then s.waiters else s.waiters.map Waiter.wake),
        ∃ old ∈ s.waiters, waiter = old ∨ waiter = old.wake := by
    intro waiter hmem
    split at hmem
    · exact ⟨waiter, hmem, .inl rfl⟩
    · obtain ⟨old, hold, rfl⟩ := List.mem_map.mp hmem
      exact ⟨old, hold, .inr rfl⟩
  unfold controlStep at hstep
  cases hcontrol : s.control with
  | idle =>
      rw [hcontrol] at hstep
      cases hstep
  | starting count | notifying after =>
      rw [hcontrol] at hstep
      cases hstep
      exact hkept rfl
  | spawning left | expanding left target =>
      rw [hcontrol] at hstep
      cases left with
      | zero =>
          cases hstep
          exact hkept rfl
      | succ left =>
          dsimp only at hstep
          split at hstep <;> cases hstep <;> exact hkept rfl
  | stopping after | joining after =>
      rw [hcontrol] at hstep
      dsimp only at hstep
      split at hstep <;> cases hstep
      all_goals exact hkept rfl
  | waking after | joined after =>
      rw [hcontrol] at hstep
      cases hstep
      exact hwoken after
  | finishing after =>
      rw [hcontrol] at hstep
      cases after with
      | startFailed | stopped =>
          cases hstep
          exact hkept rfl
      | restart count =>
          cases hstep
          unfold poolStartLocked
          split_ifs <;> exact hkept rfl

theorem Balanced.of_dispatch {s t : State} {index : Nat} {before after : Dispatch}
    (h : Balanced s) (hget : s.dispatches[index]? = some before)
    (hdispatches : t.dispatches = s.dispatches.set index after)
    (hcommited : ∀ key, t.futexCntCommited key =
      BitVec.ofNat 32 ((s.dispatches.set index after).countP (commitedFor key)))
    (hgrows : ∀ key, commitedFor key before = true → commitedFor key after = true)
    (hfinished : ∀ key, finishedFor key after = finishedFor key before)
    (htotal : t.submissions.length = (s.dispatches.set index after).countP
      fun d => entered d.pc)
    (hworkers : ∀ worker ∈ t.workers, worker = .ready ∨ worker ∈ s.workers)
    (hwakers : ∀ worker ∈ s.workers, worker = .blocked ∨ worker ∈ t.workers)
    (hrest : t.futexCntFinished = s.futexCntFinished ∧ t.waiters = s.waiters ∧
      t.ranInPool = s.ranInPool) : Balanced t := by
  obtain ⟨hcounter, hwaiters, hran⟩ := hrest
  have hsame (key : Key) : finishedCount t key = finishedCount s key := by
    have hmoved := countP_set_add (finishedFor key) after hget
    rw [hfinished key] at hmoved
    rw [finishedCount, finishedCount, hdispatches]
    omega
  have hmore (key : Key) : commitedCount s key ≤ commitedCount t key := by
    rw [commitedCount, commitedCount, hdispatches]
    exact countP_le_countP_set hget (hgrows key)
  refine ⟨?_, ?_, ?_, ?_, ?_, ?_⟩
  · intro key
    rw [commitedCount, hdispatches]
    exact hcommited key
  · intro key
    rw [hcounter, hsame key]
    exact h.finished key
  · rw [htotal, hdispatches]
  · intro worker hmem
    rcases hworkers worker hmem with rfl | hold
    · trivial
    · exact h.keys worker hold
  · rw [hwaiters, hdispatches]
    intro waiter hmem i hi
    have hold := h.due waiter hmem i hi
    rw [tally_set hget]
    split
    · rename_i hindex
      rw [hindex, tally_of_getElem? hget] at hold
      have hbefore : commitedFor waiter.key before = true := by
        by_contra hnot
        simp [hnot] at hold
      simp [hgrows _ hbefore]
    · exact hold
  · rw [hwaiters]
    intro waiter hmem
    refine (h.waiters waiter hmem).of_advances
      ⟨hmore, fun key => Nat.le_of_eq (hsame key).symm, by simp [hran]⟩ ?_
    intro _ _ hawaited
    refine hawaited.of_mem ?_ (hsame _) (hmore _) (by rw [hcounter])
    intro worker hworker hwakes
    rcases hwakers worker hworker with rfl | hkept
    · cases hwakes
    · exact hkept

theorem blocked_or_mem_notifyOne {workers notified : List WorkerPc} {index : Nat}
    (h : notifyOne workers index = some notified) {worker : WorkerPc}
    (hmem : worker ∈ workers) : worker = .blocked ∨ worker ∈ notified := by
  unfold notifyOne at h
  split at h
  · rename_i hblocked
    cases h
    exact eq_or_mem_set .ready hblocked hmem
  · split at h <;> cases h
    exact .inr hmem

theorem countP_entered_set {s : State} {index : Nat} {dispatch : Dispatch} {pc : DispatchPc}
    (h : Balanced s) (hget : s.dispatches[index]? = some dispatch)
    (hsame : entered pc = entered dispatch.pc) :
    s.submissions.length =
      (s.dispatches.set index { dispatch with pc := pc }).countP fun d => entered d.pc := by
  have hmoved := countP_set_add (fun d : Dispatch => entered d.pc)
    { dispatch with pc := pc } hget
  simp only [hsame] at hmoved
  rw [h.total]
  omega

theorem balanced_move {s t : State} {index : Nat} {dispatch : Dispatch} {pc : DispatchPc}
    (h : Balanced s) (hget : s.dispatches[index]? = some dispatch)
    (hclass : ∀ key, commitedTo key pc = commitedTo key dispatch.pc ∧
      finishedTo key pc = finishedTo key dispatch.pc)
    (hentered : entered pc = entered dispatch.pc)
    (hdispatches : t.dispatches = s.dispatches.set index { dispatch with pc := pc })
    (hrest : t.futexCntCommited = s.futexCntCommited ∧
      t.futexCntFinished = s.futexCntFinished ∧ t.workers = s.workers ∧
      t.waiters = s.waiters ∧ t.submissions = s.submissions ∧ t.ranInPool = s.ranInPool) :
    Balanced t := by
  obtain ⟨hcommited, hfinished, hworkers, hwaiters, hsubmissions, hran⟩ := hrest
  have hsame (key : Key) :
      commitedFor key { dispatch with pc := pc } = commitedFor key dispatch := by
    simp only [commitedFor, (hclass key).1]
  refine h.of_dispatch hget hdispatches ?_ ?_ ?_ ?_ ?_ ?_ ⟨hfinished, hwaiters, hran⟩
  · rw [hcommited]
    exact count_set_eq h.commited hget hsame
  · intro key hbefore
    rw [hsame key]
    exact hbefore
  · intro key
    simp only [finishedFor, (hclass key).2]
  · rw [hsubmissions]
    exact countP_entered_set h hget hentered
  · exact fun worker hmem => .inr (hworkers ▸ hmem)
  · exact fun worker hmem => .inr (hworkers ▸ hmem)

theorem balanced_push {s : State} {index notified : Nat} {dispatch : Dispatch}
    {workers : List WorkerPc} (h : Balanced s)
    (hget : s.dispatches[index]? = some dispatch) (hpc : dispatch.pc = .checked)
    (hnotify : notifyOne s.workers notified = some workers) :
    Balanced { s with
      poolMutex := some index
      taskQueue := s.taskQueue ++ [⟨index, dispatch.entry⟩]
      workers := workers
      dispatches := s.dispatches.set index { dispatch with pc := .pushed }
      submissions := s.submissions ++ [index] } := by
  have hsame (key : Key) :
      commitedFor key { dispatch with pc := .pushed } = commitedFor key dispatch := by
    cases key <;> simp [commitedFor, hpc, commitedTo]
  refine h.of_dispatch hget rfl (count_set_eq h.commited hget hsame) ?_ ?_ ?_
    (fun worker hmem => mem_of_mem_notifyOne hnotify hmem)
    (fun worker hmem => blocked_or_mem_notifyOne hnotify hmem) ⟨rfl, rfl, rfl⟩
  · intro key hbefore
    rw [hsame key]
    exact hbefore
  · intro key
    cases key <;> simp [finishedFor, hpc, finishedTo]
  · have hmoved := countP_set_add (fun d : Dispatch => entered d.pc)
      { dispatch with pc := .pushed } hget
    have htotal := h.total
    simp only [hpc, entered, active, Bool.false_eq_true, if_false, if_true,
      List.length_append, List.length_singleton] at hmoved ⊢
    simp only [entered, active] at htotal
    omega

theorem balanced_commit {s : State} {index : Nat} {dispatch : Dispatch} {pc : DispatchPc}
    {key : Key} (h : Balanced s) (hget : s.dispatches[index]? = some dispatch)
    (hbefore : commitedFor key dispatch = false)
    (hafter : commitedFor key { dispatch with pc := pc } = true)
    (hother : ∀ k, k ≠ key →
      commitedFor k { dispatch with pc := pc } = commitedFor k dispatch)
    (hfinished : ∀ k, finishedTo k pc = finishedTo k dispatch.pc)
    (hentered : entered pc = entered dispatch.pc) :
    Balanced { s with
      futexCntCommited := bump s.futexCntCommited key
      dispatches := s.dispatches.set index { dispatch with pc := pc } } := by
  refine h.of_dispatch hget rfl (bump_eq_count h.commited hget hbefore hafter hother) ?_ ?_
    (countP_entered_set h hget hentered) (fun worker hmem => .inr hmem)
    (fun worker hmem => .inr hmem) ⟨rfl, rfl, rfl⟩
  · intro k hk
    by_cases hkey : k = key
    · rw [hkey]
      exact hafter
    · rw [hother k hkey]
      exact hk
  · intro k
    simp only [finishedFor, hfinished k]

theorem balanced_dispatch {s t : State} {index notified : Nat} {dispatch : Dispatch}
    (h : Balanced s) (hget : s.dispatches[index]? = some dispatch)
    (hstep : dispatchStep s index notified dispatch = some t) : Balanced t := by
  unfold dispatchStep at hstep
  cases hpc : dispatch.pc with
  | resolved =>
      simp only [hpc, Option.some.injEq] at hstep
      subst hstep
      refine balanced_move h hget ?_ ?_ rfl ⟨rfl, rfl, rfl, rfl, rfl, rfl⟩
      · intro key
        rw [hpc]
        cases s.poolRunning <;> cases key <;> exact ⟨rfl, rfl⟩
      · rw [hpc]
        cases s.poolRunning <;> rfl
  | checked =>
      simp only [hpc] at hstep
      split at hstep
      · cases hstep
      · split at hstep
        · cases hstep
          refine balanced_move h hget ?_ (by rw [hpc]; rfl) rfl ⟨rfl, rfl, rfl, rfl, rfl, rfl⟩
          intro key
          rw [hpc]
          cases key <;> exact ⟨rfl, rfl⟩
        · obtain ⟨workers, hnotify, rfl⟩ := Option.map_eq_some_iff.mp hstep
          exact balanced_push h hget hpc hnotify
  | pushed =>
      simp only [hpc, Option.some.injEq] at hstep
      subst hstep
      refine balanced_commit h hget (by simp [commitedFor, hpc, commitedTo])
        (by simp [commitedFor, commitedTo, PoolTaskEntry.concerns]) ?_ ?_ (by rw [hpc]; rfl)
      · intro key hkey
        cases key with
        | none => exact absurd rfl hkey
        | some region => simp [commitedFor, hpc, commitedTo]
      · intro key
        rw [hpc]
        cases key <;> rfl
  | deviceCommited =>
      simp only [hpc, Option.some.injEq] at hstep
      subst hstep
      refine balanced_commit h hget (by simp [commitedFor, hpc, commitedTo])
        (by simp [commitedFor, commitedTo, PoolTaskEntry.concerns]) ?_ ?_ (by rw [hpc]; rfl)
      · intro key hkey
        cases key with
        | none => simp [commitedFor, hpc, commitedTo]
        | some region =>
            have hregion : dispatch.entry.region ≠ region := by
              rintro rfl
              exact hkey rfl
            simp [commitedFor, hpc, commitedTo, PoolTaskEntry.concerns, hregion]
      · intro key
        rw [hpc]
        cases key <;> rfl
  | regionCommited =>
      simp only [hpc, Option.some.injEq] at hstep
      subst hstep
      refine balanced_move h hget ?_ (by rw [hpc]; rfl) rfl ⟨rfl, rfl, rfl, rfl, rfl, rfl⟩
      intro key
      rw [hpc]
      cases key <;> exact ⟨rfl, rfl⟩
  | direct =>
      simp only [hpc, Option.some.injEq] at hstep
      subst hstep
      refine balanced_move h hget ?_ (by rw [hpc]; rfl) rfl ⟨rfl, rfl, rfl, rfl, rfl, rfl⟩
      intro key
      rw [hpc]
      cases key <;> exact ⟨rfl, rfl⟩
  | accepted | taken | executed | deviceFinished | regionFinished | ran =>
      simp [hpc] at hstep

theorem balanced_mark {s t : State} {index : Nat} {worker moved : WorkerPc} {task : Task}
    {pc marked : DispatchPc} (h : Balanced s) (hworker : s.workers[index]? = some worker)
    (hget : s.dispatches[task.dispatch]? = some ⟨task.entry, pc⟩)
    (hclass : ∀ key, commitedTo key marked = commitedTo key pc ∧
      finishedTo key marked = finishedTo key pc)
    (hentered : entered marked = entered pc) (hkeyed : keyed moved)
    (hself : ∀ key, ¬ wakes s key worker)
    (hworkers : t.workers = s.workers.set index moved)
    (hdispatches : t.dispatches = s.dispatches.set task.dispatch ⟨task.entry, marked⟩)
    (hrest : t.futexCntCommited = s.futexCntCommited ∧
      t.futexCntFinished = s.futexCntFinished ∧ t.waiters = s.waiters ∧
      t.submissions = s.submissions ∧ ∀ i ∈ s.ranInPool, i ∈ t.ranInPool) : Balanced t := by
  obtain ⟨hcommited, hfinished, hwaiters, hsubmissions, hran⟩ := hrest
  have hcommitedSame (key : Key) : commitedFor key ⟨task.entry, marked⟩ =
      commitedFor key ⟨task.entry, pc⟩ := by
    simp only [commitedFor, (hclass key).1]
  have hfinishedSame (key : Key) : finishedFor key ⟨task.entry, marked⟩ =
      finishedFor key ⟨task.entry, pc⟩ := by
    simp only [finishedFor, (hclass key).2]
  have hcommitedCount (key : Key) : commitedCount t key = commitedCount s key := by
    have hmoved := countP_set_add (commitedFor key) ⟨task.entry, marked⟩ hget
    rw [hcommitedSame key] at hmoved
    rw [commitedCount, commitedCount, hdispatches]
    omega
  have hfinishedCount (key : Key) : finishedCount t key = finishedCount s key := by
    have hmoved := countP_set_add (finishedFor key) ⟨task.entry, marked⟩ hget
    rw [hfinishedSame key] at hmoved
    rw [finishedCount, finishedCount, hdispatches]
    omega
  refine ⟨?_, ?_, ?_, ?_, ?_, ?_⟩
  · intro key
    rw [hcommited, hcommitedCount key]
    exact h.commited key
  · intro key
    rw [hfinished, hfinishedCount key]
    exact h.finished key
  · rw [hsubmissions, hdispatches]
    exact countP_entered_set h hget hentered
  · rw [hworkers]
    exact forall_mem_set h.keys hkeyed
  · rw [hwaiters, hdispatches]
    intro waiter hmem i hi
    rw [tally_set_same hget (hcommitedSame _)]
    exact h.due waiter hmem i hi
  · rw [hwaiters]
    intro waiter hmem
    refine (h.waiters waiter hmem).of_advances
      ⟨fun key => Nat.le_of_eq (hcommitedCount key).symm,
        fun key => Nat.le_of_eq (hfinishedCount key).symm, hran⟩ ?_
    intro _ _ hawaited
    exact hawaited.of_worker hworker hworkers (hfinishedCount _)
      (Nat.le_of_eq (hcommitedCount _).symm) (by rw [hfinished])
      fun hwakes => absurd hwakes (hself _)

theorem balanced_finish {s : State} {index : Nat} {task : Task} {key : Key}
    {pc : DispatchPc} (h : Balanced s)
    (hworker : s.workers[index]? = some (.finishing task key))
    (hget : s.dispatches[task.dispatch]? = some ⟨task.entry, pc⟩)
    (hcommited : ∀ k, commitedFor k ⟨task.entry, finishedPc key⟩ =
      commitedFor k ⟨task.entry, pc⟩)
    (hbefore : finishedFor key ⟨task.entry, pc⟩ = false)
    (hafter : finishedFor key ⟨task.entry, finishedPc key⟩ = true)
    (hother : ∀ k, k ≠ key → finishedFor k ⟨task.entry, finishedPc key⟩ =
      finishedFor k ⟨task.entry, pc⟩)
    (hentered : entered (finishedPc key) = entered pc) :
    Balanced { s with
      futexCntFinished := bump s.futexCntFinished key
      workers := s.workers.set index (.counted task key (s.futexCntFinished key + 1))
      dispatches := s.dispatches.set task.dispatch ⟨task.entry, finishedPc key⟩ } := by
  have hcommitedCount (k : Key) :
      (s.dispatches.set task.dispatch ⟨task.entry, finishedPc key⟩).countP (commitedFor k) =
        s.dispatches.countP (commitedFor k) := by
    have hmoved := countP_set_add (commitedFor k) ⟨task.entry, finishedPc key⟩ hget
    rw [hcommited k] at hmoved
    omega
  have hfinishedOther (k : Key) (hk : k ≠ key) :
      (s.dispatches.set task.dispatch ⟨task.entry, finishedPc key⟩).countP (finishedFor k) =
        s.dispatches.countP (finishedFor k) := by
    have hmoved := countP_set_add (finishedFor k) ⟨task.entry, finishedPc key⟩ hget
    rw [hother k hk] at hmoved
    omega
  refine ⟨?_, bump_eq_count h.finished hget hbefore hafter hother,
    countP_entered_set h hget hentered, ?_, ?_, ?_⟩
  · intro k
    rw [commitedCount, hcommitedCount k]
    exact h.commited k
  · have hkeyed := h.keys (.finishing task key) (List.mem_iff_getElem?.mpr ⟨index, hworker⟩)
    refine forall_mem_set h.keys ?_
    cases key <;> exact hkeyed
  · intro waiter hmem i hi
    rw [tally_set_same hget (hcommited _)]
    exact h.due waiter hmem i hi
  · intro waiter hmem
    refine (h.waiters waiter hmem).of_advances ⟨?_, ?_, fun _ => id⟩ ?_
    · exact fun k => Nat.le_of_eq (hcommitedCount k).symm
    · intro k
      refine countP_le_countP_set hget ?_
      by_cases hk : k = key
      · exact fun _ => hk ▸ hafter
      · exact fun hthen => by rw [hother k hk]; exact hthen
    · intro _ _ hawaited
      by_cases hk : waiter.key = key
      · refine .inr ⟨_, mem_set_moved hworker, hk.symm, ?_⟩
        rw [hk]
        simp [bump]
      · refine hawaited.of_worker hworker rfl (hfinishedOther _ hk)
          (Nat.le_of_eq (hcommitedCount _).symm) ?_ (fun hwakes => by cases hwakes)
        simp [bump, hk]

theorem Balanced.of_worker {s t : State} {index : Nat} {worker moved : WorkerPc}
    (h : Balanced s) (hworker : s.workers[index]? = some worker) (hkeyed : keyed moved)
    (hworkers : t.workers = s.workers.set index moved) (hsame : SameTasks s t)
    (hwaiters : ∀ waiter ∈ t.waiters,
      (waiter ∈ s.waiters ∧ ∀ finished, waiter.pc = .asleep finished →
        wakes s waiter.key worker → Awaited t waiter.key) ∨
      ∃ old ∈ s.waiters, waiter = { old with pc := .polling }) : Balanced t := by
  refine h.of_sameTasks hsame ?_ ?_ ?_
  · rw [hworkers]
    exact forall_mem_set h.keys hkeyed
  · intro waiter hmem
    rcases hwaiters waiter hmem with ⟨hold, _⟩ | ⟨old, hold, rfl⟩
    · exact h.due waiter hold
    · exact h.due old hold
  · intro waiter hmem
    rcases hwaiters waiter hmem with ⟨hold, hself⟩ | ⟨old, hold, rfl⟩
    · refine (h.waiters waiter hold).of_advances hsame.advances ?_
      intro finished hasleep hawaited
      exact hawaited.of_worker hworker hworkers (hsame.counts _).1
        (Nat.le_of_eq (hsame.counts _).2.symm) (by rw [hsame.finished])
        (hself finished hasleep)
    · trivial

theorem keyed_next (task : Task) (key : Key) : keyed (.next task key) := by
  cases key <;> trivial

theorem Accounted.accepted_of_waiting {s : State} (h : Accounted s)
    (hfree : s.poolMutex = none) {index : Nat} {dispatch : Dispatch}
    (hget : s.dispatches[index]? = some dispatch) (hwaiting : waiting dispatch.pc = true) :
    dispatch.pc = .accepted := by
  have hmutex := h.mutex index
  rw [tally_of_getElem? hget, hfree] at hmutex
  cases hpc : dispatch.pc <;> simp_all [waiting, submitting]

theorem Balanced.awaited_of_ne {s t : State} {key : Key} (h : Balanced s)
    (hsame : SameTasks s t) (hne : s.futexCntFinished key ≠ s.futexCntCommited key) :
    Awaited t key := by
  have hle := finishedCount_le_commitedCount s key
  rw [h.finished key, h.commited key] at hne
  refine .inl ?_
  rw [(hsame.counts key).1, (hsame.counts key).2]
  rcases Nat.lt_or_eq_of_le hle with hless | hequal
  · exact hless
  · exact absurd (congrArg _ hequal) hne

theorem balanced_compare {s : State} {index : Nat} {task : Task} {key : Key}
    {finished : BitVec 32} (h : Balanced s)
    (hworker : s.workers[index]? = some (.counted task key finished)) :
    Balanced { s with
      workers := s.workers.set index
        (if finished = s.futexCntCommited key then .waking task key else .next task key) } := by
  have hkeyed := h.keys _ (List.mem_iff_getElem?.mpr ⟨index, hworker⟩)
  have hsame (workers : List WorkerPc) : SameTasks s { s with workers := workers } :=
    .of_tasks rfl
  by_cases hequal : finished = s.futexCntCommited key
  · simp only [hequal, if_true]
    refine h.of_worker hworker ?_ rfl (hsame _) fun waiter hmem => .inl ⟨hmem, ?_⟩
    · cases key <;> exact hkeyed
    · intro _ _ hwakes
      exact .inr ⟨_, mem_set_moved hworker, hwakes.1⟩
  · simp only [hequal, if_false]
    refine h.of_worker hworker (keyed_next task key) rfl (hsame _)
      fun waiter hmem => .inl ⟨hmem, ?_⟩
    intro _ _ hwakes
    obtain ⟨hkey, hfinished⟩ := hwakes
    subst hkey
    rw [hfinished] at hequal
    exact h.awaited_of_ne (hsame _) hequal

theorem balanced_wake {s : State} {index : Nat} {task : Task} {key : Key} (h : Balanced s)
    (hworker : s.workers[index]? = some (.waking task key)) :
    Balanced { s with
      workers := s.workers.set index (.next task key)
      waiters := wakeBarrier key s.waiters } := by
  refine h.of_worker hworker (keyed_next task key) rfl
    (.of_tasks rfl) ?_
  intro waiter hmem
  obtain ⟨old, hold, rfl⟩ := List.mem_map.mp hmem
  by_cases hkey : old.key = key
  · simp only [hkey, if_true]
    unfold Waiter.wake
    cases hpc : old.pc with
    | asleep finished => exact .inr ⟨old, hold, rfl⟩
    | _ => exact .inl ⟨hold, fun finished hasleep => by simp [hpc] at hasleep⟩
  · simp only [hkey, if_false]
    refine .inl ⟨hold, ?_⟩
    intro _ _ hwakes
    exact absurd hwakes.symm hkey

theorem balanced_worker {s t : State} {index : Nat} {worker : WorkerPc} (h : Balanced s)
    (haccounted : Accounted s) (hworker : s.workers[index]? = some worker)
    (hstep : workerStep s index worker = some t) : Balanced t := by
  have hmem : worker ∈ s.workers := List.mem_iff_getElem?.mpr ⟨index, hworker⟩
  unfold workerStep at hstep
  cases worker with
  | ready =>
      dsimp only at hstep
      split at hstep
      · cases hstep
      · rename_i hfree
        cases hqueue : s.taskQueue with
        | nil =>
            simp only [hqueue, Option.some.injEq] at hstep
            subst hstep
            refine h.of_worker hworker ?_ rfl
              ⟨rfl, rfl, hqueue.symm, rfl, rfl, rfl, rfl, rfl, rfl⟩
              fun waiter hwaiter => .inl ⟨hwaiter, fun _ _ hwakes => by cases hwakes⟩
            cases s.poolRunning <;> trivial
        | cons task rest =>
            obtain ⟨pc, hget, hwaiting⟩ := haccounted.queued task (by simp [hqueue])
            have hpc := haccounted.accepted_of_waiting (by simpa using hfree) hget hwaiting
            dsimp only at hpc
            subst hpc
            simp only [hqueue, Option.some.injEq] at hstep
            subst hstep
            refine balanced_mark h hworker hget ?_ (by rfl) (by trivial)
              (fun _ hwakes => by cases hwakes)
              rfl rfl ⟨rfl, rfl, rfl, rfl, fun _ => id⟩
            intro key
            cases key <;> exact ⟨rfl, rfl⟩
  | running task =>
      cases hstep
      have hget := haccounted.held _ hmem task .taken rfl
      refine balanced_mark h hworker hget ?_ (by rfl) (by trivial)
        (fun _ hwakes => by cases hwakes)
        rfl rfl ⟨rfl, rfl, rfl, rfl, fun i hi => List.mem_append_left _ hi⟩
      intro key
      cases key <;> exact ⟨rfl, rfl⟩
  | finishing task key =>
      cases hstep
      cases key with
      | none =>
          refine balanced_finish h hworker (haccounted.held _ hmem task .executed rfl) ?_ rfl
            rfl ?_ rfl
          · intro k
            cases k <;> rfl
          · intro k hk
            cases k with
            | none => exact absurd rfl hk
            | some region => rfl
      | some region =>
          have hregion : region = task.entry.region := h.keys _ hmem
          subst hregion
          refine balanced_finish h hworker (haccounted.held _ hmem task .deviceFinished rfl)
            ?_ rfl ?_ ?_ rfl
          · intro k
            cases k <;> rfl
          · simp [finishedFor, finishedPc, finishedTo, PoolTaskEntry.concerns]
          · intro k hk
            cases k with
            | none => rfl
            | some other =>
                have hne : task.entry.region ≠ other := by
                  rintro rfl
                  exact hk rfl
                simp [finishedFor, finishedPc, finishedTo, PoolTaskEntry.concerns, hne]
  | counted task key finished =>
      cases hstep
      exact balanced_compare h hworker
  | waking task key =>
      cases hstep
      exact balanced_wake h hworker
  | blocked | exited => cases hstep

end HostPimSim.Core.Pool
