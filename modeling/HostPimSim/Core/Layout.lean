import HostPimSim.Core.Access
import HostPimSim.Core.TopologyTasks
import HostPimSim.Lib.Spans

/-! Where the regions of a device and the registers of a region lie.  Overlap is only
looked for at the neighbours of a new region, and the sums wrap; the order of the map
and the bound on the device make up for both. -/
namespace HostPimSim.Core.Topology
open Register Pool Transition Spans

def Region.stop (region : Region) : Nat := region.offset + region.size

def Region.entries (region : Region) : List DpuHandlerEntry :=
  region.handlers ++ region.nestedHandlers

def DpuHandlerEntry.stop (entry : DpuHandlerEntry) : Nat := entry.offset + entry.registerSize

def DpuHandlerEntry.ApartFrom (first second : DpuHandlerEntry) : Prop :=
  first.depth = second.depth → first.stop ≤ second.offset ∨ second.stop ≤ first.offset

structure DpuHandlerEntry.Fits (size : Nat) (entry : DpuHandlerEntry) : Prop where
  supported : pimIsSupportedRegisterSize entry.registerSize = true
  aligned : entry.offset % entry.registerSize = 0
  inside : entry.stop ≤ size

structure Region.Arranged (region : Region) : Prop where
  fits : ∀ entry ∈ region.entries, entry.Fits region.size
  apart : region.entries.Pairwise DpuHandlerEntry.ApartFrom
  top : ∀ entry ∈ region.handlers, entry.depth = 0
  nested : ∀ entry ∈ region.nestedHandlers, entry.depth ≠ 0

structure Layout (s : State) : Prop where
  regions : Apart Region.offset Region.stop s.regions
  inside : ∀ region ∈ s.regions, 0 < region.size ∧ region.stop ≤ s.size
  arranged : ∀ region ∈ s.regions, region.Arranged

structure Laid (s : State) : Prop extends Layout s where
  size_lt : s.size < 2 ^ 64
  ids : (s.regions.map Region.id).Nodup
  fresh : ∀ region ∈ s.regions, region.id < s.nextRegion

theorem wrap_of_lt {n : Nat} (h : n < 2 ^ 64) : wrap n = n := Nat.mod_eq_of_lt h

theorem DpuHandlerEntry.ApartFrom.symm {first second : DpuHandlerEntry}
    (h : first.ApartFrom second) : second.ApartFrom first :=
  fun hdepth => (h hdepth.symm).symm

theorem Region.Arranged.empty (id offset size : Nat) (type : RegionType) :
    Region.Arranged ⟨id, offset, size, type, [], []⟩ where
  fits _ hmem := absurd hmem List.not_mem_nil
  apart := List.Pairwise.nil
  top _ hmem := absurd hmem List.not_mem_nil
  nested _ hmem := absurd hmem List.not_mem_nil

theorem setTable_size (region : Region) (depth : BitVec 32) (table : List DpuHandlerEntry) :
    (region.setTable depth table).size = region.size := by
  unfold Region.setTable
  split
  · rfl
  · rfl

theorem entries_setTable (region : Region) (depth : BitVec 32) (table : List DpuHandlerEntry) :
    (region.setTable depth table).entries =
      if depth = 0 then table ++ region.nestedHandlers else region.handlers ++ table := by
  unfold Region.setTable Region.entries
  split
  · rfl
  · rfl

theorem Region.Arranged.depth_iff {region : Region} (h : region.Arranged) {depth : BitVec 32}
    {entry : DpuHandlerEntry} (hmem : entry ∈ region.table depth) :
    entry.depth = 0 ↔ depth = 0 := by
  unfold Region.table at hmem
  split at hmem
  · rename_i hdepth
    simp only [hdepth, iff_true]
    exact h.top entry hmem
  · rename_i hdepth
    simp only [hdepth, iff_false]
    exact h.nested entry hmem

theorem mem_entries_of_table {region : Region} {depth : BitVec 32} {entry : DpuHandlerEntry}
    (hmem : entry ∈ region.table depth) : entry ∈ region.entries := by
  unfold Region.table at hmem
  split at hmem
  · exact List.mem_append_left _ hmem
  · exact List.mem_append_right _ hmem

theorem Region.Arranged.setTable {region : Region} (h : region.Arranged) {depth : BitVec 32}
    {table : List DpuHandlerEntry}
    (hfits : ∀ entry ∈ table, entry.Fits region.size ∧ (entry.depth = 0 ↔ depth = 0))
    (hapart : (region.setTable depth table).entries.Pairwise DpuHandlerEntry.ApartFrom) :
    (region.setTable depth table).Arranged := by
  have hold := h.fits
  refine ⟨?_, hapart, ?_, ?_⟩
  · rw [entries_setTable, setTable_size]
    intro entry hmem
    split at hmem
    · rcases List.mem_append.mp hmem with hnew | hkept
      · exact (hfits entry hnew).1
      · exact hold entry (List.mem_append_right _ hkept)
    · rcases List.mem_append.mp hmem with hkept | hnew
      · exact hold entry (List.mem_append_left _ hkept)
      · exact (hfits entry hnew).1
  · unfold Region.setTable
    intro entry hmem
    split at hmem
    · rename_i hdepth
      exact (hfits entry hmem).2.mpr hdepth
    · exact h.top entry hmem
  · unfold Region.setTable
    intro entry hmem
    split at hmem
    · exact h.nested entry hmem
    · rename_i hdepth
      exact fun hzero => hdepth ((hfits entry hmem).2.mp hzero)

theorem entries_sublist {region : Region} {depth : BitVec 32} {table : List DpuHandlerEntry}
    (h : table.Sublist (region.table depth)) :
    (region.setTable depth table).entries.Sublist region.entries := by
  rw [entries_setTable]
  unfold Region.table at h
  split
  · rename_i hdepth
    rw [if_pos hdepth] at h
    exact h.append (List.Sublist.refl _)
  · rename_i hdepth
    rw [if_neg hdepth] at h
    exact (List.Sublist.refl _).append h

theorem Region.Arranged.remove {region : Region} (h : region.Arranged) {depth : BitVec 32}
    {table : List DpuHandlerEntry} (hsublist : table.Sublist (region.table depth)) :
    (region.setTable depth table).Arranged := by
  apply h.setTable
  · intro entry hmem
    have hold := hsublist.subset hmem
    exact ⟨h.fits entry (mem_entries_of_table hold), h.depth_iff hold⟩
  · exact h.apart.sublist (entries_sublist hsublist)

theorem Region.Arranged.insert {region : Region} (h : region.Arranged) {depth : BitVec 32}
    {entry : DpuHandlerEntry} {kept : List DpuHandlerEntry} (hdepth : entry.depth = depth)
    (hfits : entry.Fits region.size)
    (hapart : ∀ old ∈ region.table depth, entry.ApartFrom old)
    (hsublist : kept.Sublist (region.table depth)) :
    (region.setTable depth (entry :: kept)).Arranged := by
  have hperm : List.Perm (region.setTable depth (entry :: kept)).entries
      (entry :: (region.setTable depth kept).entries) := by
    rw [entries_setTable, entries_setTable]
    split
    · rw [List.cons_append]
    · exact List.perm_middle
  apply h.setTable
  · intro new hmem
    rcases List.mem_cons.mp hmem with rfl | hkept
    · rw [hdepth]
      exact ⟨hfits, Iff.rfl⟩
    · have hold := hsublist.subset hkept
      exact ⟨h.fits new (mem_entries_of_table hold), h.depth_iff hold⟩
  · rw [hperm.pairwise_iff fun hab => hab.symm]
    refine List.pairwise_cons.mpr ⟨?_, h.apart.sublist (entries_sublist hsublist)⟩
    -- an entry of the other table has another depth
    intro old hmem
    rw [entries_setTable] at hmem
    split at hmem
    · rename_i hzero
      rcases List.mem_append.mp hmem with hkept | hnested
      · exact hapart old (hsublist.subset hkept)
      · intro hsame
        exact absurd (hsame.symm.trans (hdepth.trans hzero)) (h.nested old hnested)
    · rename_i hzero
      rcases List.mem_append.mp hmem with htop | hkept
      · intro hsame
        exact absurd (hdepth.symm.trans (hsame.trans (h.top old htop))) hzero
      · exact hapart old (hsublist.subset hkept)

structure DpuHandlerEntry.SamePlace (first second : DpuHandlerEntry) : Prop where
  offset : second.offset = first.offset
  depth : second.depth = first.depth
  registerSize : second.registerSize = first.registerSize

theorem samePlace_resolve (value : BitVec 64) (offset : Nat) (depth : BitVec 32)
    (entry : DpuHandlerEntry) :
    entry.SamePlace (if entry.at offset depth then entry.resolve value else entry) := by
  split
  · exact ⟨rfl, rfl, rfl⟩
  · exact ⟨rfl, rfl, rfl⟩

theorem DpuHandlerEntry.SamePlace.fits {first second : DpuHandlerEntry} {size : Nat}
    (hsame : first.SamePlace second) (h : first.Fits size) : second.Fits size := by
  obtain ⟨hoffset, _, hregister⟩ := hsame
  obtain ⟨hsupported, haligned, hinside⟩ := h
  unfold DpuHandlerEntry.stop at hinside
  refine ⟨?_, ?_, ?_⟩
  · rw [hregister]
    exact hsupported
  · rw [hoffset, hregister]
    exact haligned
  · unfold DpuHandlerEntry.stop
    rw [hoffset, hregister]
    exact hinside

theorem DpuHandlerEntry.ApartFrom.of_samePlace {first second first' second' : DpuHandlerEntry}
    (h : first.ApartFrom second) (hfirst : first.SamePlace first')
    (hsecond : second.SamePlace second') : first'.ApartFrom second' := by
  unfold DpuHandlerEntry.ApartFrom DpuHandlerEntry.stop at *
  rw [hfirst.offset, hfirst.depth, hfirst.registerSize, hsecond.offset, hsecond.depth,
    hsecond.registerSize]
  exact h

theorem DpuHandlerEntry.SamePlace.refl (entry : DpuHandlerEntry) : entry.SamePlace entry :=
  ⟨rfl, rfl, rfl⟩

theorem Region.Arranged.map {region : Region} (h : region.Arranged) (depth : BitVec 32)
    {f : DpuHandlerEntry → DpuHandlerEntry}
    (hf : ∀ entry : DpuHandlerEntry, entry.SamePlace (f entry)) :
    (region.setTable depth ((region.table depth).map f)).Arranged := by
  apply h.setTable
  · intro entry hmem
    obtain ⟨old, hold, rfl⟩ := List.mem_map.mp hmem
    rw [(hf old).depth]
    exact ⟨(hf old).fits (h.fits old (mem_entries_of_table hold)), h.depth_iff hold⟩
  · rw [entries_setTable]
    have hpairs := h.apart
    unfold Region.entries at hpairs
    rw [List.pairwise_append] at hpairs
    obtain ⟨htop, hnested, hcross⟩ := hpairs
    unfold Region.table
    split
    · refine List.pairwise_append.mpr ⟨?_, hnested, ?_⟩
      · exact List.pairwise_map.mpr (htop.imp fun hab => hab.of_samePlace (hf _) (hf _))
      · intro entry hmem other hother
        obtain ⟨old, hold, rfl⟩ := List.mem_map.mp hmem
        exact (hcross old hold other hother).of_samePlace (hf old) (.refl other)
    · refine List.pairwise_append.mpr ⟨htop, ?_, ?_⟩
      · exact List.pairwise_map.mpr (hnested.imp fun hab => hab.of_samePlace (hf _) (hf _))
      · intro entry hentry other hmem
        obtain ⟨old, hold, rfl⟩ := List.mem_map.mp hmem
        exact (hcross entry hentry old hold).of_samePlace (.refl entry) (hf old)

theorem Laid.eq_of_id {s : State} (h : Laid s) {first second : Region}
    (hfirst : first ∈ s.regions) (hsecond : second ∈ s.regions) (hid : first.id = second.id) :
    first = second :=
  List.inj_on_of_nodup_map h.ids hfirst hsecond hid

theorem Laid.of_same {s t : State} (h : Laid s) (hsize : t.size = s.size)
    (hregions : t.regions = s.regions) (hnext : t.nextRegion = s.nextRegion) : Laid t := by
  refine ⟨⟨?_, ?_, ?_⟩, ?_, ?_, ?_⟩
  · rw [hregions]
    exact h.regions
  · rw [hregions, hsize]
    exact h.inside
  · rw [hregions]
    exact h.arranged
  · rw [hsize]
    exact h.size_lt
  · rw [hregions]
    exact h.ids
  · rw [hregions, hnext]
    exact h.fresh

theorem Laid.setRegion {s : State} (h : Laid s) {region changed : Region}
    (hmem : region ∈ s.regions) (hid : changed.id = region.id)
    (hoffset : changed.offset = region.offset) (hsize : changed.size = region.size)
    (harranged : changed.Arranged) : Laid (s.setRegion changed) := by
  have hplace : ∀ old ∈ s.regions,
      (if old.id = changed.id then changed else old).id = old.id ∧
      (if old.id = changed.id then changed else old).offset = old.offset ∧
      (if old.id = changed.id then changed else old).size = old.size := by
    intro old hold
    split
    · rename_i hsame
      have : old = region := h.eq_of_id hold hmem (hsame.trans hid)
      subst this
      exact ⟨hid, hoffset, hsize⟩
    · exact ⟨rfl, rfl, rfl⟩
  unfold State.setRegion
  refine ⟨⟨?_, ?_, ?_⟩, h.size_lt, ?_, ?_⟩
  · apply List.pairwise_map.mpr
    apply h.regions.imp_of_mem
    intro first second hfirst hsecond hless
    unfold Region.stop at hless ⊢
    rw [(hplace first hfirst).2.1, (hplace first hfirst).2.2, (hplace second hsecond).2.1]
    exact hless
  · intro r hr
    obtain ⟨old, hold, rfl⟩ := List.mem_map.mp hr
    unfold Region.stop
    rw [(hplace old hold).2.1, (hplace old hold).2.2]
    exact h.inside old hold
  · intro r hr
    obtain ⟨old, hold, rfl⟩ := List.mem_map.mp hr
    split
    · exact harranged
    · exact h.arranged old hold
  · rw [List.map_map]
    have hsame := List.map_congr_left (g := Region.id) fun old hold => (hplace old hold).1
    exact hsame.symm ▸ h.ids
  · intro r hr
    obtain ⟨old, hold, rfl⟩ := List.mem_map.mp hr
    rw [(hplace old hold).1]
    exact h.fresh old hold

theorem setTable_place (region : Region) (depth : BitVec 32) (table : List DpuHandlerEntry) :
    (region.setTable depth table).id = region.id ∧
      (region.setTable depth table).offset = region.offset ∧
      (region.setTable depth table).size = region.size := by
  unfold Region.setTable
  split
  · exact ⟨rfl, rfl, rfl⟩
  · exact ⟨rfl, rfl, rfl⟩

theorem Laid.setTable {s : State} (h : Laid s) {region : Region} (hmem : region ∈ s.regions)
    {depth : BitVec 32} {table : List DpuHandlerEntry}
    (harranged : (region.setTable depth table).Arranged) :
    Laid (s.setRegion (region.setTable depth table)) := by
  obtain ⟨hid, hoffset, hsize⟩ := setTable_place region depth table
  exact h.setRegion hmem hid hoffset hsize harranged

theorem stop_le_next {s : State} (h : Laid s) {offset size : Nat}
    (hstop : offset + size ≤ s.size) (hclear : overlapsNext s offset size = false) :
    ∀ next ∈ (s.lowerBound offset).head?, offset + size ≤ next.offset := by
  intro next hhead
  have hsize := h.size_lt
  unfold overlapsNext at hclear
  rw [wrap_of_lt (by omega), Option.mem_def.mp hhead] at hclear
  simpa using hclear

theorem previous_stop_le {s : State} (h : Laid s) {offset : Nat}
    (hclear : overlapsPrevious s offset = false) :
    ∀ prev ∈ (s.before offset).getLast?, prev.stop ≤ offset := by
  intro prev hlast
  have hmem : prev ∈ s.regions :=
    (List.takeWhile_sublist _).subset (List.mem_of_getLast? hlast)
  have hsize := h.size_lt
  have hstop := (h.inside prev hmem).2
  unfold Region.stop at hstop ⊢
  unfold overlapsPrevious at hclear
  rw [Option.mem_def.mp hlast, Option.any_some, wrap_of_lt (by omega)] at hclear
  simpa using hclear

theorem Laid.insert {s : State} (h : Laid s) {region : Region} (hid : region.id = s.nextRegion)
    (hpos : 0 < region.size) (hstop : region.stop ≤ s.size)
    (hnext : overlapsNext s region.offset region.size = false)
    (hprev : overlapsPrevious s region.offset = false) (harranged : region.Arranged) :
    Laid { s with
      regions := s.before region.offset ++ region :: s.lowerBound region.offset
      nextRegion := s.nextRegion + 1 } := by
  have hmem : ∀ r, r ∈ s.before region.offset ++ region :: s.lowerBound region.offset ↔
      r = region ∨ r ∈ s.regions := fun r => mem_insert
  refine ⟨⟨?_, ?_, ?_⟩, h.size_lt, ?_, ?_⟩
  · exact Apart.insert h.regions (fun r _ => Nat.le_add_right _ _) (stop_le_next h hstop hnext)
      (previous_stop_le h hprev)
  · intro r hr
    rcases (hmem r).mp hr with rfl | hold
    · exact ⟨hpos, hstop⟩
    · exact h.inside r hold
  · intro r hr
    rcases (hmem r).mp hr with rfl | hold
    · exact harranged
    · exact h.arranged r hold
  · have hsplit : s.before region.offset ++ s.lowerBound region.offset = s.regions :=
      before_append_lowerBound Region.offset region.offset s.regions
    have hperm : List.Perm (s.before region.offset ++ region :: s.lowerBound region.offset)
        (region :: s.regions) := by
      rw [← hsplit]
      exact List.perm_middle
    rw [(hperm.map Region.id).nodup_iff, List.map_cons, List.nodup_cons]
    refine ⟨?_, h.ids⟩
    intro hused
    obtain ⟨old, hold, hsame⟩ := List.mem_map.mp hused
    exact absurd (hsame.trans hid) (Nat.ne_of_lt (h.fresh old hold))
  · intro r hr
    rcases (hmem r).mp hr with rfl | hold
    · rw [hid]
      exact Nat.lt_succ_self _
    · exact Nat.lt_succ_of_lt (h.fresh r hold)

theorem pimRegionCreate_laid {s : State} (h : Laid s) (offset size : Nat) (type : RegionType)
    (allocated : Bool) : Laid (pimRegionCreate s offset size type allocated).2 := by
  unfold pimRegionCreate
  split_ifs with hzero _ hbounds hnext hprev
  case neg =>
    simp only [Bool.or_eq_true, decide_eq_true_eq, not_or, Nat.not_lt] at hbounds
    have harranged := Region.Arranged.empty s.nextRegion offset size type
    have hstop : Region.stop ⟨s.nextRegion, offset, size, type, [], []⟩ ≤ s.size := by
      unfold Region.stop
      dsimp only
      omega
    exact h.insert rfl (Nat.pos_of_ne_zero hzero) hstop (Bool.eq_false_of_not_eq_true hnext)
      (Bool.eq_false_of_not_eq_true hprev) harranged
  all_goals exact h

theorem Laid.sublist {s : State} (h : Laid s) {regions : List Region}
    (hsublist : regions.Sublist s.regions) : Laid { s with regions := regions } where
  regions := List.Pairwise.sublist hsublist h.regions
  inside r hr := h.inside r (hsublist.subset hr)
  arranged r hr := h.arranged r (hsublist.subset hr)
  size_lt := h.size_lt
  ids := h.ids.sublist (hsublist.map Region.id)
  fresh r hr := h.fresh r (hsublist.subset hr)

theorem pimRegionFree_laid {s : State} (h : Laid s) (region : Region) :
    Laid (pimRegionFree s region).2 := by
  unfold pimRegionFree
  split
  · exact h
  · split
    · exact h
    · split
      · exact h
      · exact h.sublist List.eraseP_sublist

theorem pimRegisterDpuHandler_cases (s : State) (region : Region) (offset : Nat)
    (depth : BitVec 32) (registerSize handler userData : Nat) (bytes : Bytes)
    (inserted : Bool) :
    (∃ error, error ≠ .success ∧ pimRegisterDpuHandler s region offset depth registerSize
        handler userData bytes inserted = (error, s)) ∨
      (region.type = .ctrlMmio ∧ pimIsSupportedRegisterSize registerSize = true ∧
        offset % registerSize = 0 ∧ offset + registerSize ≤ region.size ∧
        overlapsHandler region offset depth registerSize = false ∧
        pimRegisterDpuHandler s region offset depth registerSize handler userData bytes
          inserted = (.success, s.setRegion (region.setTable depth
            (⟨offset, depth, registerSize, handler, userData, loadBytes bytes registerSize⟩ ::
              (region.table depth).filter fun e => !e.at offset depth)))) := by
  generalize hresult : pimRegisterDpuHandler s region offset depth registerSize handler
    userData bytes inserted = result
  unfold pimRegisterDpuHandler at hresult
  by_cases htype : region.type ≠ .ctrlMmio ∨ handler = 0
  · rw [if_pos htype] at hresult
    exact .inl ⟨_, by decide, hresult.symm⟩
  rw [if_neg htype] at hresult
  by_cases hgate : validateHandlerTableMutationStateLocked s ≠ .success
  · rw [if_pos hgate] at hresult
    exact .inl ⟨_, hgate, hresult.symm⟩
  rw [if_neg hgate] at hresult
  by_cases hsize : (!pimIsSupportedRegisterSize registerSize) = true
  · rw [if_pos hsize] at hresult
    exact .inl ⟨_, by decide, hresult.symm⟩
  rw [if_neg hsize] at hresult
  by_cases haligned : offset % registerSize ≠ 0
  · rw [if_pos haligned] at hresult
    exact .inl ⟨_, by decide, hresult.symm⟩
  rw [if_neg haligned] at hresult
  by_cases hbounds : (offset > region.size || registerSize > region.size - offset) = true
  · rw [if_pos hbounds] at hresult
    exact .inl ⟨_, by decide, hresult.symm⟩
  rw [if_neg hbounds] at hresult
  by_cases hactive : activeDispatchOps s region ≠ 0
  · rw [if_pos hactive] at hresult
    exact .inl ⟨_, by decide, hresult.symm⟩
  rw [if_neg hactive] at hresult
  by_cases hoverlap : overlapsHandler region offset depth registerSize = true
  · rw [if_pos hoverlap] at hresult
    exact .inl ⟨_, by decide, hresult.symm⟩
  rw [if_neg hoverlap] at hresult
  have hsupported : pimIsSupportedRegisterSize registerSize = true := by simpa using hsize
  rw [pimLoadRegisterU64, if_pos hsupported] at hresult
  cases inserted with
  | false => exact .inl ⟨_, by decide, hresult.symm⟩
  | true =>
      simp only [not_or, not_not] at htype
      simp only [Bool.or_eq_true, decide_eq_true_eq, not_or, Nat.not_lt] at hbounds
      exact .inr ⟨htype.1, hsupported, not_not.mp haligned, by omega,
        Bool.eq_false_of_not_eq_true hoverlap, hresult.symm⟩

theorem pimUnregisterDpuHandler_cases (s : State) (region : Region) (offset : Nat)
    (depth : BitVec 32) :
    (∃ error, error ≠ .success ∧
        pimUnregisterDpuHandler s region offset depth = (error, s)) ∨
      pimUnregisterDpuHandler s region offset depth = (.success, s.setRegion
        (region.setTable depth ((region.table depth).filter fun e => !e.at offset depth))) := by
  unfold pimUnregisterDpuHandler
  split_ifs with htype hgate
  · exact .inl ⟨_, by decide, rfl⟩
  · exact .inl ⟨_, hgate, rfl⟩
  · exact .inl ⟨_, by decide, rfl⟩
  · exact .inr rfl
  · exact .inl ⟨_, by decide, rfl⟩

theorem apart_of_clear {s : State} (h : Laid s) {region : Region} (hmem : region ∈ s.regions)
    {offset registerSize : Nat} {depth : BitVec 32}
    (hinside : offset + registerSize ≤ region.size)
    (hclear : overlapsHandler region offset depth registerSize = false)
    {handler userData : Nat} {lastValue : BitVec 64} :
    ∀ old ∈ region.table depth, DpuHandlerEntry.ApartFrom
      ⟨offset, depth, registerSize, handler, userData, lastValue⟩ old := by
  intro old hold hdepth
  have hsize := h.size_lt
  have hregion := (h.inside region hmem).2
  have hfits := ((h.arranged region hmem).fits old (mem_entries_of_table hold)).inside
  unfold DpuHandlerEntry.stop at hfits ⊢
  unfold Region.stop at hregion
  unfold overlapsHandler at hclear
  have hold' := List.any_eq_false.mp hclear old hold
  rw [wrap_of_lt (by omega), wrap_of_lt (by omega)] at hold'
  simp only [Bool.and_eq_true, beq_iff_eq, decide_eq_true_eq, not_and, Nat.not_lt] at hold'
  dsimp only at hdepth ⊢
  by_cases hbefore : offset + registerSize ≤ old.offset
  · exact .inl hbefore
  · right
    by_contra hafter
    exact absurd (hold' ⟨hdepth.symm, by omega⟩) hbefore

theorem pimRegisterDpuHandler_laid {s : State} (h : Laid s) {region : Region}
    (hmem : region ∈ s.regions) (offset : Nat) (depth : BitVec 32)
    (registerSize handler userData : Nat) (bytes : Bytes) (inserted : Bool) :
    Laid (pimRegisterDpuHandler s region offset depth registerSize handler userData bytes
      inserted).2 := by
  rcases pimRegisterDpuHandler_cases s region offset depth registerSize handler userData bytes
    inserted with ⟨error, _, heq⟩ | ⟨_, hsupported, haligned, hinside, hclear, heq⟩
  · rw [heq]
    exact h
  · rw [heq]
    apply h.setTable hmem
    apply (h.arranged region hmem).insert
    · rfl
    · exact ⟨hsupported, haligned, hinside⟩
    · exact apart_of_clear h hmem hinside hclear
    · exact List.filter_sublist

theorem pimUnregisterDpuHandler_laid {s : State} (h : Laid s) {region : Region}
    (hmem : region ∈ s.regions) (offset : Nat) (depth : BitVec 32) :
    Laid (pimUnregisterDpuHandler s region offset depth).2 := by
  rcases pimUnregisterDpuHandler_cases s region offset depth with ⟨error, _, heq⟩ | heq
  · rw [heq]
    exact h
  · rw [heq]
    exact h.setTable hmem ((h.arranged region hmem).remove List.filter_sublist)

theorem pimInvokeDpuHandler_laid {s : State} (h : Laid s) {region : Region}
    (hmem : region ∈ s.regions) (offset : Nat) (depth : BitVec 32) (value : BitVec 64) :
    Laid (pimInvokeDpuHandler s region offset depth value).2 := by
  unfold pimInvokeDpuHandler
  split
  · exact h
  · split
    · exact h
    · have hlaid := h.setTable hmem
        ((h.arranged region hmem).map depth (samePlace_resolve value offset depth))
      exact hlaid.of_same rfl rfl rfl

theorem step_laid {s t : State} {action : Action} (h : Laid s)
    (hstep : step s action = some t) : Laid t := by
  cases action with
  | regionCreate offset size type allocated =>
      cases hstep
      exact pimRegionCreate_laid h offset size type allocated
  | regionFree region =>
      obtain ⟨r, _, rfl⟩ := Option.map_eq_some_iff.mp hstep
      exact pimRegionFree_laid h r
  | registerDpuHandler region offset depth registerSize handler userData bytes inserted =>
      obtain ⟨r, hr, rfl⟩ := Option.map_eq_some_iff.mp hstep
      exact pimRegisterDpuHandler_laid h (region?_some hr).1 offset depth registerSize handler
        userData bytes inserted
  | unregisterDpuHandler region offset depth =>
      obtain ⟨r, hr, rfl⟩ := Option.map_eq_some_iff.mp hstep
      exact pimUnregisterDpuHandler_laid h (region?_some hr).1 offset depth
  | invokeDpuHandler region offset depth value =>
      obtain ⟨r, hr, rfl⟩ := Option.map_eq_some_iff.mp hstep
      exact pimInvokeDpuHandler_laid h (region?_some hr).1 offset depth value
  | setMonitorRunning value | setSigsegvEnabled value
  | setSigsegvTransitionInProgress value =>
      cases hstep
      exact h.of_same rfl rfl rfl
  | pool action =>
      have hmove : (Pool.step s.pool action).map (fun pool => { s with pool := pool }) =
          some t := by
        cases action <;> first | exact hstep | cases hstep
      obtain ⟨pool, _, rfl⟩ := Option.map_eq_some_iff.mp hmove
      exact h.of_same rfl rfl rfl

end HostPimSim.Core.Topology

namespace HostPimSim.Core.Access
open Register Pool HostPimSim.Core.Topology Transition Spans

theorem cached_laid {d : Device} (h : Laid d.topology) {region : Region}
    (hmem : region ∈ d.topology.regions) (offset : Nat) (value : BitVec 64) :
    Laid (cached d region offset value) := by
  unfold cached
  split
  · exact h.setTable hmem ((h.arranged region hmem).map 0 (samePlace_resolve value offset 0))
  · exact h

theorem perform_laid {d : Device} (h : Laid d.topology) {region : Region}
    (hmem : region ∈ d.topology.regions) (call : RegionWrite) :
    Laid (call.perform d region).2.topology := by
  have hsized : ∀ rawWrite offset size value,
      Laid (writeSizedValue rawWrite d region offset size value).2.topology := by
    intro rawWrite offset size value
    unfold writeSizedValue
    split
    · exact h
    · split
      · exact h
      · cases rawWrite with
        | true =>
            dsimp only
            rw [if_pos rfl, (writeRawAtomic_eq d region offset size _ _).2]
            exact cached_laid h hmem offset _
        | false =>
            dsimp only
            rw [if_neg Bool.false_ne_true, (writeAndInvokeHandler_eq d region offset size _ _).2]
            exact cached_laid h hmem offset _
  cases call with
  | write offset size value => exact hsized false offset size value
  | writeRaw offset size value => exact hsized true offset size value
  | memcpyTo offset data size =>
      dsimp only [RegionWrite.perform, pimMemcpyTo]
      split
      · exact h
      · exact h
  | memset value size =>
      dsimp only [RegionWrite.perform, pimRegionMemset]
      split
      · exact h
      · exact h

theorem step_laid (d : Device) (call : Call) (after : Device) (h : Laid d.topology)
    (hstep : step d call = some after) : Laid after.topology := by
  cases call with
  | topology action =>
      have hmove : (Topology.step d.topology action).map
          (fun topology => { d with topology := topology }) = some after := by
        cases action <;> first | exact hstep | cases hstep
      obtain ⟨topology, htopology, rfl⟩ := Option.map_eq_some_iff.mp hmove
      exact Topology.step_laid h htopology
  | registerDpuHandler region offset depth registerSize handler userData inserted =>
      obtain ⟨r, hr, rfl⟩ := Option.map_eq_some_iff.mp hstep
      exact pimRegisterDpuHandler_laid h (region?_some hr).1 offset depth registerSize handler
        userData _ inserted
  | write region write =>
      obtain ⟨r, hr, rfl⟩ := Option.map_eq_some_iff.mp hstep
      exact perform_laid h (region?_some hr).1 write

theorem init_laid (size : BitVec 64) (memory : Bytes) : Laid (init size memory).topology where
  regions := List.Pairwise.nil
  inside _ hmem := absurd hmem List.not_mem_nil
  arranged _ hmem := absurd hmem List.not_mem_nil
  size_lt := size.isLt
  ids := List.nodup_nil
  fresh _ hmem := absurd hmem List.not_mem_nil

/-- After any calls the regions and their registers are laid out as they should, and a
write that succeeds in one region leaves every byte of the others. -/
theorem regions_stay_apart (size : BitVec 64) (memory : Bytes) {calls : List Call}
    {d : Device} (hrun : run step (init size memory) calls = some d) :
    Layout d.topology ∧
      ∀ region ∈ d.topology.regions, ∀ other ∈ d.topology.regions, other ≠ region →
        ∀ (call : RegionWrite) (after : Device), call.perform d region = (.success, after) →
          ∀ i < other.size, after.memory (other.offset + i) = d.memory (other.offset + i) := by
  have h : Laid d.topology :=
    run_invariant (fun d call after => step_laid d call after) (init_laid size memory) hrun
  refine ⟨h.toLayout, ?_⟩
  intro region hregion other hother hne call after hperform i hi
  have hapart := h.regions.disjoint hother hregion hne
  unfold Region.stop at hapart
  exact perform_within hperform (by omega)

def lowRegion : Region := ⟨1, 0, 16, .ctrlMmio, [⟨8, 0, 8, 1, 0, 0⟩], []⟩

def highRegion : Region := ⟨2, 16, 48, .ram, [], []⟩

theorem regions_stay_apart_neighbours : ∃ d after,
    run step (init 64 fun _ => 0) [.topology (.regionCreate 16 48 .ram true),
      .topology (.regionFree 0), .topology (.regionCreate 0 16 .ctrlMmio true),
      .topology (.regionCreate 16 48 .ram true), .topology (.regionCreate 8 16 .ram true),
      .registerDpuHandler 1 8 0 8 1 0 true] = some d ∧
      Layout d.topology ∧
      (RegionWrite.write 8 8 7).perform d lowRegion = (.success, after) ∧
      ∀ i < 48, after.memory (16 + i) = d.memory (16 + i) := by
  have hrun : ∃ d, run step (init 64 fun _ => 0) [.topology (.regionCreate 16 48 .ram true),
      .topology (.regionFree 0), .topology (.regionCreate 0 16 .ctrlMmio true),
      .topology (.regionCreate 16 48 .ram true), .topology (.regionCreate 8 16 .ram true),
      .registerDpuHandler 1 8 0 8 1 0 true] = some d ∧
      d.topology.regions = [lowRegion, highRegion] :=
    exists_run (by decide)
  obtain ⟨d, hrun, hregions⟩ := hrun
  obtain ⟨hlayout, hothers⟩ := regions_stay_apart 64 (fun _ => 0) hrun
  refine ⟨d, ((RegionWrite.write 8 8 7).perform d lowRegion).2, hrun, hlayout,
    rfl, ?_⟩
  exact hothers lowRegion (by simp [hregions]) highRegion
    (by simp [hregions]) (by decide) (.write 8 8 7) _ rfl

end HostPimSim.Core.Access
