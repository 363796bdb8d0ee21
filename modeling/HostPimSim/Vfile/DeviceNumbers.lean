import HostPimSim.Lib.FirstFree
import HostPimSim.Lib.Transition
import HostPimSim.Vfile.InstanceNames
import Mathlib.Data.List.Nodup

/-! The registered devices and the device numbers they are given: `vdev.cc`.  The words of 32
bits are the `int` arguments and the `unsigned int` numbers alike; an object is named by when it
was made. -/
namespace HostPimSim.Vfile.Namespace
open FirstFree Transition

abbrev Devnum := BitVec 32 × BitVec 32

/-- `vdev_make_devnum_key` -/
def vdevMakeDevnumKey (major minor : BitVec 32) : BitVec 64 :=
  major.setWidth 64 <<< 32 ||| minor.setWidth 64

/-- The largest `unsigned int`. -/
def maxUnsigned : BitVec 32 := BitVec.allOnes 32

/-- `vdev_increment_devnum_pair` -/
def vdevIncrementDevnumPair (pair : Devnum) : Option Devnum :=
  if pair.2 = maxUnsigned then
    if pair.1 = maxUnsigned then none else some (pair.1 + 1, 0)
  else some (pair.1, pair.2 + 1)

def incrementUnsigned (n : BitVec 32) : Option (BitVec 32) :=
  if n = maxUnsigned then none else some (n + 1)

theorem toNat_lt_of_ne_max {n : BitVec 32} (h : n ≠ maxUnsigned) : n.toNat + 1 < 2 ^ 32 := by
  have hne : n.toNat ≠ maxUnsigned.toNat := fun heq => h (BitVec.eq_of_toNat_eq heq)
  have hmax : maxUnsigned.toNat = 2 ^ 32 - 1 := rfl
  omega

theorem toNat_succ_of_ne_max {n : BitVec 32} (h : n ≠ maxUnsigned) :
    (n + 1).toNat = n.toNat + 1 := by
  rw [BitVec.toNat_add]
  exact Nat.mod_eq_of_lt (toNat_lt_of_ne_max h)

def unsignedCounter : Counter (BitVec 32) where
  next := incrementUnsigned
  rank := BitVec.toNat
  size := 2 ^ 32
  rank_lt := BitVec.isLt
  rank_inj := fun _ _ h => BitVec.eq_of_toNat_eq h
  next_some := by
    intro a b h
    unfold incrementUnsigned at h
    split at h
    · cases h
    · rename_i hmax
      obtain rfl := Option.some.inj h
      exact toNat_succ_of_ne_max hmax
  next_none := by
    intro a h
    unfold incrementUnsigned at h
    split at h
    · rename_i hmax
      rw [hmax]
      rfl
    · cases h

def devnumRank (pair : Devnum) : Nat := pair.1.toNat * 2 ^ 32 + pair.2.toNat

def pairCounter : Counter Devnum where
  next := vdevIncrementDevnumPair
  rank := devnumRank
  size := 2 ^ 64
  rank_lt := by
    intro pair
    have hmajor := pair.1.isLt
    have hminor := pair.2.isLt
    unfold devnumRank
    omega
  rank_inj := by
    intro a b h
    have hminor := a.2.isLt
    have hminor' := b.2.isLt
    unfold devnumRank at h
    exact Prod.ext (BitVec.eq_of_toNat_eq (by omega)) (BitVec.eq_of_toNat_eq (by omega))
  next_some := by
    intro a b h
    unfold vdevIncrementDevnumPair at h
    split at h
    · rename_i hminor
      split at h
      · cases h
      · rename_i hmajor
        obtain rfl := Option.some.inj h
        have hsucc := toNat_succ_of_ne_max hmajor
        have hmax : a.2.toNat = 2 ^ 32 - 1 := by
          rw [hminor]
          rfl
        have hzero : (0 : BitVec 32).toNat = 0 := rfl
        unfold devnumRank
        dsimp only
        omega
    · rename_i hminor
      obtain rfl := Option.some.inj h
      have hsucc := toNat_succ_of_ne_max hminor
      unfold devnumRank
      dsimp only
      omega
  next_none := by
    intro a h
    unfold vdevIncrementDevnumPair at h
    split at h
    · rename_i hminor
      split at h
      · rename_i hmajor
        unfold devnumRank
        rw [hminor, hmajor]
        rfl
      · cases h
    · cases h

theorem toNat_vdevMakeDevnumKey (pair : Devnum) :
    (vdevMakeDevnumKey pair.1 pair.2).toNat = devnumRank pair := by
  have hmajor := pair.1.isLt
  have hminor := pair.2.isLt
  unfold vdevMakeDevnumKey devnumRank
  rw [BitVec.toNat_or, BitVec.toNat_shiftLeft, BitVec.toNat_setWidth, BitVec.toNat_setWidth,
    Nat.mod_eq_of_lt (by omega : pair.1.toNat < 2 ^ 64),
    Nat.mod_eq_of_lt (by omega : pair.2.toNat < 2 ^ 64), Nat.shiftLeft_eq,
    Nat.mod_eq_of_lt (by omega : pair.1.toNat * 2 ^ 32 < 2 ^ 64), ← Nat.shiftLeft_eq,
    ← Nat.shiftLeft_add_eq_or_of_lt hminor]

theorem vdevMakeDevnumKey_inj {a b : Devnum}
    (h : vdevMakeDevnumKey a.1 a.2 = vdevMakeDevnumKey b.1 b.2) : a = b := by
  refine pairCounter.rank_inj ?_
  rw [show pairCounter.rank a = devnumRank a from rfl,
    show pairCounter.rank b = devnumRank b from rfl, ← toNat_vdevMakeDevnumKey, h,
    toNat_vdevMakeDevnumKey]

/-- `pim_vdev_t` -/
structure VdevObject where
  root : Nat
  name : String
  path : String
  major : BitVec 32
  minor : BitVec 32
  deriving DecidableEq

def VdevObject.devnum (v : VdevObject) : Devnum := (v.major, v.minor)

structure VdevState where
  rootList : List (Nat × String)
  vdevList : List (Nat × VdevObject)
  fresh : Nat
  deriving DecidableEq

def VdevState.start : VdevState := ⟨[], [], 0⟩

def VdevState.vdevs (s : VdevState) : List VdevObject := s.vdevList.map Prod.snd

def VdevState.rootRegistered (s : VdevState) (root : Nat) : Bool :=
  (s.rootList.map Prod.fst).contains root

section

variable (vdevs : List VdevObject)

def usedDevnums : List (BitVec 64) := vdevs.map fun v => vdevMakeDevnumKey v.major v.minor

def isUsed (pair : Devnum) : Bool :=
  (usedDevnums vdevs).contains (vdevMakeDevnumKey pair.1 pair.2)

def largerDevnum (best : Option Devnum) (v : VdevObject) : Option Devnum :=
  match best with
  | none => some v.devnum
  | some best =>
      if best.1 < v.major ∨ (v.major = best.1 ∧ best.2 < v.minor) then some v.devnum
      else some best

/-- `max_major` and `max_minor`, unless there is no device. -/
def maxDevnum : Option Devnum := vdevs.foldl largerDevnum none

def firstDevnum : Option Devnum :=
  match maxDevnum vdevs with
  | none => some (0, 0)
  | some best => vdevIncrementDevnumPair best

def resolveDevnum (major minor : BitVec 32) : Option Devnum :=
  if 0 ≤ major.toInt ∧ minor.toInt = -1 then
    (search unsignedCounter (fun m => isUsed vdevs (major, m)) 0).map fun m => (major, m)
  else if major.toInt = -1 ∧ 0 ≤ minor.toInt then
    (search unsignedCounter (fun m => isUsed vdevs (m, minor)) 0).map fun m => (m, minor)
  else if major.toInt = -1 ∧ minor.toInt = -1 then
    (firstDevnum vdevs).bind fun first => search pairCounter (isUsed vdevs) first
  else some (major, minor)

end

def vdevPath (name : String) : String := "/dev/" ++ vdevNormalizeName name

/-- `pim_vdev_create` on a root -/
def VdevState.create (s : VdevState) (root : Nat) (name : String) (major minor : BitVec 32) :
    VdevState × Option Nat :=
  if major.toInt < -1 ∨ minor.toInt < -1 then (s, none)
  else if s.rootRegistered root = false then (s, none)
  else if vdevValidInstanceName (vdevNormalizeName name) = false then (s, none)
  else if s.vdevs.any fun v => v.path = vdevPath name then (s, none)
  else
    match resolveDevnum s.vdevs major minor with
    | none => (s, none)
    | some pair =>
        ({ s with
          vdevList := s.vdevList ++
            [(s.fresh, ⟨root, vdevNormalizeName name, vdevPath name, pair.1, pair.2⟩)]
          fresh := s.fresh + 1 }, some s.fresh)

def VdevState.destroy (s : VdevState) (id : Nat) : VdevState :=
  { s with vdevList := s.vdevList.filter fun entry => entry.1 ≠ id }

/-- `pim_vdev_root_create` -/
def VdevState.createRoot (s : VdevState) (nameGlob : String) : VdevState × Option Nat :=
  if vdevNormalizeNameGlob nameGlob = "" then (s, none)
  else
    ({ s with rootList := s.rootList ++ [(s.fresh, vdevNormalizeNameGlob nameGlob)]
              fresh := s.fresh + 1 }, some s.fresh)

def VdevState.destroyRoot (s : VdevState) (id : Nat) : VdevState :=
  { s with rootList := s.rootList.filter fun entry => entry.1 ≠ id }

inductive VdevCall where
  | create (root : Nat) (name : String) (major minor : BitVec 32)
  | destroy (id : Nat)
  | createRoot (nameGlob : String)
  | destroyRoot (id : Nat)

def vdevStep (s : VdevState) : VdevCall → Option VdevState
  | .create root name major minor => some (s.create root name major minor).1
  | .destroy id => some (s.destroy id)
  | .createRoot nameGlob => some (s.createRoot nameGlob).1
  | .destroyRoot id => some (s.destroyRoot id)

/-- The largest `int`. -/
def intMax : Nat := 2 ^ 31 - 1

/-- `pim_vdev_get_major` and `pim_vdev_get_minor` of what the device has. -/
def getNumber (number : BitVec 32) : Int := if intMax < number.toNat then -1 else number.toNat

def VdevObject.getMajor (v : VdevObject) : Int := getNumber v.major

def VdevObject.getMinor (v : VdevObject) : Int := getNumber v.minor

variable {vdevs : List VdevObject} {pair : Devnum} {major minor : BitVec 32}

theorem isUsed_iff : isUsed vdevs pair = true ↔ ∃ v ∈ vdevs, v.devnum = pair := by
  unfold isUsed usedDevnums
  rw [List.contains_iff_mem, List.mem_map]
  constructor
  · rintro ⟨v, hv, hkey⟩
    exact ⟨v, hv, vdevMakeDevnumKey_inj (a := v.devnum) hkey⟩
  · rintro ⟨v, hv, rfl⟩
    exact ⟨v, hv, rfl⟩

theorem isUsed_false : isUsed vdevs pair = false ↔ ∀ v ∈ vdevs, v.devnum ≠ pair := by
  rw [← Bool.not_eq_true, isUsed_iff]
  simp

theorem lexicographic_iff (a b : Devnum) :
    (a.1 < b.1 ∨ (b.1 = a.1 ∧ a.2 < b.2)) ↔ devnumRank a < devnumRank b := by
  have hminor := a.2.isLt
  have hminor' := b.2.isLt
  have hmajor : b.1 = a.1 ↔ b.1.toNat = a.1.toNat := BitVec.toNat_inj.symm
  unfold devnumRank
  rw [BitVec.lt_def, BitVec.lt_def, hmajor]
  omega

theorem foldl_largerDevnum (vdevs : List VdevObject) (best : Devnum) :
    ∃ last, vdevs.foldl largerDevnum (some best) = some last ∧
      devnumRank best ≤ devnumRank last ∧ (∀ v ∈ vdevs, devnumRank v.devnum ≤ devnumRank last) ∧
      (last = best ∨ ∃ v ∈ vdevs, v.devnum = last) := by
  induction vdevs generalizing best with
  | nil => exact ⟨best, rfl, Nat.le_refl _, by simp, .inl rfl⟩
  | cons v rest ih =>
      rw [List.foldl_cons]
      have hlexicographic := lexicographic_iff best v.devnum
      unfold largerDevnum
      dsimp only
      split
      · rename_i hlarger
        have hless := hlexicographic.mp hlarger
        obtain ⟨last, hlast, hle, hall, hfrom⟩ := ih v.devnum
        refine ⟨last, hlast, by omega, List.forall_mem_cons.mpr ⟨hle, hall⟩, .inr ?_⟩
        rcases hfrom with rfl | ⟨w, hw, hdevnum⟩
        · exact ⟨v, List.mem_cons_self, rfl⟩
        · exact ⟨w, List.mem_cons_of_mem v hw, hdevnum⟩
      · rename_i hnot
        have hless := Nat.le_of_not_lt fun h => hnot (hlexicographic.mpr h)
        obtain ⟨last, hlast, hle, hall, hfrom⟩ := ih best
        refine ⟨last, hlast, hle, List.forall_mem_cons.mpr ⟨by omega, hall⟩, ?_⟩
        rcases hfrom with rfl | ⟨w, hw, hdevnum⟩
        · exact .inl rfl
        · exact .inr ⟨w, List.mem_cons_of_mem v hw, hdevnum⟩

theorem maxDevnum_none (h : maxDevnum vdevs = none) : vdevs = [] := by
  cases vdevs with
  | nil => rfl
  | cons v rest =>
      obtain ⟨last, hlast, -⟩ := foldl_largerDevnum rest v.devnum
      cases hlast.symm.trans h

theorem maxDevnum_some {best : Devnum} (h : maxDevnum vdevs = some best) :
    (∃ v ∈ vdevs, v.devnum = best) ∧ ∀ v ∈ vdevs, devnumRank v.devnum ≤ devnumRank best := by
  cases vdevs with
  | nil => cases h
  | cons v rest =>
      obtain ⟨last, hlast, hle, hall, hfrom⟩ := foldl_largerDevnum rest v.devnum
      obtain rfl := Option.some.inj (hlast.symm.trans h)
      refine ⟨?_, List.forall_mem_cons.mpr ⟨hle, hall⟩⟩
      rcases hfrom with rfl | ⟨w, hw, hdevnum⟩
      · exact ⟨v, List.mem_cons_self, rfl⟩
      · exact ⟨w, List.mem_cons_of_mem v hw, hdevnum⟩

theorem firstDevnum_some {first : Devnum} (h : firstDevnum vdevs = some first) :
    ∀ v ∈ vdevs, devnumRank v.devnum < devnumRank first := by
  unfold firstDevnum at h
  split at h
  · rename_i hnone
    rw [maxDevnum_none hnone]
    simp
  · rename_i best hbest
    have hnext : devnumRank first = devnumRank best + 1 := pairCounter.next_some best first h
    intro v hv
    have hle := (maxDevnum_some hbest).2 v hv
    omega

theorem firstDevnum_isSome : (firstDevnum vdevs).isSome = true ↔
    ∃ pair, ∀ v ∈ vdevs, devnumRank v.devnum < devnumRank pair := by
  constructor
  · intro h
    obtain ⟨first, hfirst⟩ := Option.isSome_iff_exists.mp h
    exact ⟨first, firstDevnum_some hfirst⟩
  · rintro ⟨pair, hpair⟩
    unfold firstDevnum
    split
    · rfl
    · rename_i best hbest
      obtain ⟨v, hv, rfl⟩ := (maxDevnum_some hbest).1
      have hless := hpair v hv
      rw [Option.isSome_iff_ne_none]
      intro hnone
      have hlast : devnumRank v.devnum + 1 = 2 ^ 64 := pairCounter.next_none _ hnone
      have hbound : devnumRank pair < 2 ^ 64 := pairCounter.rank_lt pair
      omega

/-- What the caller left open can be given: a free minor or major number with the one given, or
a pair after those of all devices. -/
def HasFree (vdevs : List VdevObject) (major minor : BitVec 32) : Prop :=
  if 0 ≤ major.toInt then ∃ m, isUsed vdevs (major, m) = false
  else if 0 ≤ minor.toInt then ∃ m, isUsed vdevs (m, minor) = false
  else ∃ pair, ∀ v ∈ vdevs, devnumRank v.devnum < devnumRank pair

section

variable (hmajor : -1 ≤ major.toInt) (hminor : -1 ≤ minor.toInt)
  (hauto : major.toInt = -1 ∨ minor.toInt = -1)

include hmajor hminor hauto

theorem resolveDevnum_isSome :
    (resolveDevnum vdevs major minor).isSome = true ↔ HasFree vdevs major minor := by
  unfold resolveDevnum HasFree
  by_cases hgiven : 0 ≤ major.toInt
  · rw [if_pos ⟨hgiven, by omega⟩, if_pos hgiven, Option.isSome_map]
    exact search_isSome rfl
  · rw [if_neg fun h => hgiven h.1, if_neg hgiven]
    by_cases hgiven' : 0 ≤ minor.toInt
    · rw [if_pos ⟨by omega, hgiven'⟩, if_pos hgiven', Option.isSome_map]
      exact search_isSome rfl
    · rw [if_neg fun h => hgiven' h.2, if_neg hgiven', if_pos ⟨by omega, by omega⟩,
        ← firstDevnum_isSome]
      cases hstart : firstDevnum vdevs with
      | none => rfl
      | some first =>
          have hfree : isUsed vdevs first = false := isUsed_false.mpr fun v hv heq => by
            have hless := firstDevnum_some hstart v hv
            rw [heq] at hless
            exact absurd hless (Nat.lt_irrefl _)
          rw [Option.bind_some, search_free hfree]

/-- The pair is in no use and keeps the number that was given. -/
theorem resolveDevnum_some (h : resolveDevnum vdevs major minor = some pair) :
    isUsed vdevs pair = false ∧ (0 ≤ major.toInt → pair.1 = major) ∧
      (0 ≤ minor.toInt → pair.2 = minor) := by
  unfold resolveDevnum at h
  split at h
  · rename_i hcase
    obtain ⟨m, hfound, rfl⟩ := Option.map_eq_some_iff.mp h
    exact ⟨(search_some hfound).1, fun _ => rfl, fun hgiven => by omega⟩
  · split at h
    · rename_i hcase
      obtain ⟨m, hfound, rfl⟩ := Option.map_eq_some_iff.mp h
      exact ⟨(search_some hfound).1, fun hgiven => by omega, fun _ => rfl⟩
    · rename_i hfirst hsecond
      rw [if_pos (by omega)] at h
      obtain ⟨first, -, hfound⟩ := Option.bind_eq_some_iff.mp h
      exact ⟨(search_some hfound).1, fun hgiven => by omega, fun hgiven => by omega⟩

end

variable {s t : VdevState} {root id : Nat} {name : String}

def newVdev (root : Nat) (name : String) (pair : Devnum) : VdevObject :=
  ⟨root, vdevNormalizeName name, vdevPath name, pair.1, pair.2⟩

def VdevState.push (s : VdevState) (v : VdevObject) : VdevState :=
  { s with vdevList := s.vdevList ++ [(s.fresh, v)], fresh := s.fresh + 1 }

structure VdevState.Accepts (s : VdevState) (root : Nat) (name : String) : Prop where
  registered : s.rootRegistered root = true
  valid : vdevValidInstanceName (vdevNormalizeName name) = true
  unused : ∀ v ∈ s.vdevs, v.path ≠ vdevPath name

theorem create_eq (hmajor : -1 ≤ major.toInt) (hminor : -1 ≤ minor.toInt)
    (h : s.Accepts root name) :
    s.create root name major minor =
      match resolveDevnum s.vdevs major minor with
      | none => (s, none)
      | some pair => (s.push (newVdev root name pair), some s.fresh) := by
  have hunused : (s.vdevs.any fun v => v.path = vdevPath name) = false := by
    rw [List.any_eq_false]
    intro v hv hpath
    exact h.unused v hv (of_decide_eq_true hpath)
  unfold VdevState.create
  rw [if_neg (by omega), h.registered, h.valid, hunused, if_neg Bool.true_eq_false.mp,
    if_neg Bool.true_eq_false.mp, if_neg Bool.false_ne_true]
  rfl

theorem create_cases (s : VdevState) (root : Nat) (name : String) (major minor : BitVec 32) :
    s.create root name major minor = (s, none) ∨
      s.Accepts root name ∧ -1 ≤ major.toInt ∧ -1 ≤ minor.toInt ∧
        ∃ pair, resolveDevnum s.vdevs major minor = some pair ∧
          s.create root name major minor = (s.push (newVdev root name pair), some s.fresh) := by
  unfold VdevState.create
  split
  · exact .inl rfl
  · rename_i hnumbers
    split
    · exact .inl rfl
    · rename_i hregistered
      split
      · exact .inl rfl
      · rename_i hvalid
        split
        · exact .inl rfl
        · rename_i hany
          have haccepts : s.Accepts root name := by
            refine ⟨Bool.eq_true_of_not_eq_false hregistered,
              Bool.eq_true_of_not_eq_false hvalid, ?_⟩
            intro v hv hpath
            exact hany (List.any_eq_true.mpr ⟨v, hv, decide_eq_true hpath⟩)
          cases resolveDevnum s.vdevs major minor with
          | none => exact .inl rfl
          | some pair => exact .inr ⟨haccepts, by omega, by omega, pair, rfl, rfl⟩

structure VdevState.Sound (s : VdevState) : Prop where
  older : ∀ entry ∈ s.vdevList, entry.1 < s.fresh
  ids : (s.vdevList.map Prod.fst).Nodup
  paths : (s.vdevs.map VdevObject.path).Nodup

theorem vdevs_push (v : VdevObject) : (s.push v).vdevs = s.vdevs ++ [v] := by
  unfold VdevState.vdevs VdevState.push
  rw [List.map_append]
  rfl

theorem nodup_map_concat {α β : Type} {f : α → β} {rows : List α} {row : α}
    (h : (rows.map f).Nodup) (hnew : ∀ other ∈ rows, f other ≠ f row) :
    ((rows ++ [row]).map f).Nodup := by
  rw [List.map_append]
  refine List.nodup_append'.mpr ⟨h, List.nodup_singleton _, ?_⟩
  rw [List.map_singleton, List.disjoint_singleton]
  intro hmem
  obtain ⟨other, hother, heq⟩ := List.mem_map.mp hmem
  exact hnew other hother heq

theorem VdevState.Sound.push (h : s.Sound) {v : VdevObject}
    (hpath : ∀ w ∈ s.vdevs, w.path ≠ v.path) : (s.push v).Sound := by
  refine ⟨?_, ?_, ?_⟩
  · intro entry hentry
    rcases List.mem_append.mp hentry with hold | hnew
    · exact Nat.lt_succ_of_lt (h.older entry hold)
    · rw [List.mem_singleton.mp hnew]
      exact Nat.lt_succ_self s.fresh
  · refine nodup_map_concat h.ids fun entry hentry heq => ?_
    exact absurd (h.older entry hentry) (Nat.not_lt.mpr (Nat.le_of_eq heq.symm))
  · rw [vdevs_push]
    exact nodup_map_concat h.paths hpath

theorem VdevState.Sound.destroy (h : s.Sound) (id : Nat) : (s.destroy id).Sound := by
  have hsub := List.filter_sublist (l := s.vdevList) (p := fun entry => entry.1 ≠ id)
  refine ⟨fun entry hentry => h.older entry (hsub.subset hentry), ?_, ?_⟩
  · exact h.ids.sublist (hsub.map Prod.fst)
  · exact h.paths.sublist ((hsub.map Prod.snd).map VdevObject.path)

theorem vdevStep_sound {call : VdevCall} (h : s.Sound) (hstep : vdevStep s call = some t) :
    t.Sound := by
  cases call with
  | create root name major minor =>
      obtain rfl := Option.some.inj hstep
      rcases create_cases s root name major minor with hnone | ⟨haccepts, -, -, pair, -, hsome⟩
      · rw [hnone]
        exact h
      · rw [hsome]
        exact h.push haccepts.unused
  | destroy id =>
      obtain rfl := Option.some.inj hstep
      exact h.destroy id
  | createRoot nameGlob =>
      obtain rfl := Option.some.inj hstep
      unfold VdevState.createRoot
      split
      · exact h
      · exact ⟨fun entry hentry => Nat.lt_succ_of_lt (h.older entry hentry), h.ids, h.paths⟩
  | destroyRoot id =>
      obtain rfl := Option.some.inj hstep
      exact ⟨h.older, h.ids, h.paths⟩

theorem vdevRun_sound {calls : List VdevCall} (hrun : run vdevStep .start calls = some s) :
    s.Sound := by
  refine run_invariant (fun _ _ _ h hstep => vdevStep_sound h hstep) ?_ hrun
  exact ⟨by simp [VdevState.start], List.nodup_nil, List.nodup_nil⟩

def VdevState.Only (s : VdevState) (id : Nat) (v : VdevObject) : Prop :=
  id < s.fresh ∧ ∀ w, (id, w) ∈ s.vdevList → w = v

theorem VdevState.Sound.only (h : s.Sound) {v : VdevObject} (hv : (id, v) ∈ s.vdevList) :
    s.Only id v :=
  ⟨h.older _ hv, fun _ hw => congrArg Prod.snd (List.inj_on_of_nodup_map h.ids hw hv rfl)⟩

theorem vdevStep_only {call : VdevCall} {v : VdevObject} (h : s.Only id v)
    (hstep : vdevStep s call = some t) : t.Only id v := by
  cases call with
  | create root name major minor =>
      obtain rfl := Option.some.inj hstep
      rcases create_cases s root name major minor with hnone | ⟨-, -, -, pair, -, hsome⟩
      · rw [hnone]
        exact h
      · rw [hsome]
        refine ⟨Nat.lt_succ_of_lt h.1, fun w hw => ?_⟩
        rcases List.mem_append.mp hw with hold | hnew
        · exact h.2 w hold
        · have hid := congrArg Prod.fst (List.mem_singleton.mp hnew)
          exact absurd h.1 (Nat.not_lt.mpr (Nat.le_of_eq hid.symm))
  | destroy other =>
      obtain rfl := Option.some.inj hstep
      exact ⟨h.1, fun w hw => h.2 w (List.mem_filter.mp hw).1⟩
  | createRoot nameGlob =>
      obtain rfl := Option.some.inj hstep
      unfold VdevState.createRoot
      split
      · exact h
      · exact ⟨Nat.lt_succ_of_lt h.1, h.2⟩
  | destroyRoot other =>
      obtain rfl := Option.some.inj hstep
      exact h

/-- The paths of the devices differ; a call that leaves a number open makes a device exactly if
there is something free for it, with the number that is given and with a pair of its own; and as
long as a device is there, the getters answer what it was made with, as far as that is an `int`. -/
theorem vdev_numbers {calls : List VdevCall} (hrun : run vdevStep .start calls = some s) :
    (s.vdevs.map VdevObject.path).Nodup ∧
    (∀ root name (major minor : BitVec 32), s.Accepts root name →
      -1 ≤ major.toInt → -1 ≤ minor.toInt → major.toInt = -1 ∨ minor.toInt = -1 →
      ((s.create root name major minor).2.isSome = true ↔ HasFree s.vdevs major minor) ∧
      ∀ id, (s.create root name major minor).2 = some id →
        ∃ pair, (s.create root name major minor).1 = s.push (newVdev root name pair) ∧
          id = s.fresh ∧ (∀ v ∈ s.vdevs, v.devnum ≠ pair) ∧
          (0 ≤ major.toInt → pair.1 = major) ∧ (0 ≤ minor.toInt → pair.2 = minor)) ∧
    ∀ id v, (id, v) ∈ s.vdevList → ∀ more t w, run vdevStep s more = some t →
      (id, w) ∈ t.vdevList →
        w.getMajor = (if v.major.toNat ≤ intMax then (v.major.toNat : Int) else -1) ∧
        w.getMinor = (if v.minor.toNat ≤ intMax then (v.minor.toNat : Int) else -1) := by
  have hsound := vdevRun_sound hrun
  refine ⟨hsound.paths, ?_, ?_⟩
  · intro root name major minor haccepts hmajor hminor hauto
    have hfree : (resolveDevnum s.vdevs major minor).isSome = true ↔ _ :=
      resolveDevnum_isSome hmajor hminor hauto
    rw [create_eq hmajor hminor haccepts, ← hfree]
    cases hresolved : resolveDevnum s.vdevs major minor with
    | none => exact ⟨Iff.rfl, fun id hid => by cases hid⟩
    | some pair =>
        obtain ⟨hunused, hkeepsMajor, hkeepsMinor⟩ :=
          resolveDevnum_some hmajor hminor hauto hresolved
        refine ⟨iff_of_true rfl rfl, fun id hid => ⟨pair, rfl, (Option.some.inj hid).symm, ?_⟩⟩
        exact ⟨isUsed_false.mp hunused, hkeepsMajor, hkeepsMinor⟩
  · intro id v hv more t w hmore hw
    -- the object at the pointer is still the one that was made
    have honly : t.Only id v := run_invariant (fun _ _ _ h hstep => vdevStep_only h hstep)
      (hsound.only hv) hmore
    rw [honly.2 w hw]
    unfold VdevObject.getMajor VdevObject.getMinor getNumber
    exact ⟨by split <;> split <;> omega, by split <;> split <;> omega⟩

def rankDevice : List VdevCall := [.createRoot "dpu_rank*", .create 0 "/dev/dpu_rank0/" 240 0]

theorem vdev_numbers_second : ∃ s, run vdevStep .start rankDevice = some s ∧
    (s.create 0 "dpu_rank1" 240 (-1)).2.isSome = true := by
  refine ⟨_, rfl, (((@vdev_numbers _ rankDevice rfl).2.1 0 "dpu_rank1" 240 (-1)
    ⟨?_, ?_, ?_⟩ ?_ ?_ ?_).1).mpr ⟨1, ?_⟩⟩
  all_goals decide +kernel

theorem resolveDevnum_single {v : VdevObject} {next : Devnum}
    (h : vdevIncrementDevnumPair v.devnum = some next) :
    resolveDevnum [v] (-1) (-1) = some next := by
  have hfirst : firstDevnum [v] = some next := h
  have hfree : isUsed [v] next = false := by
    rw [isUsed_false, List.forall_mem_singleton]
    intro heq
    have hrank : devnumRank next = devnumRank v.devnum + 1 := pairCounter.next_some _ _ h
    rw [heq] at hrank
    omega
  unfold resolveDevnum
  rw [if_neg (by decide), if_neg (by decide), if_pos (by decide), hfirst, Option.bind_some,
    search_free hfree]

def rankName (odd : Bool) : String := if odd then "dpu_rank1" else "dpu_rank0"

def rankState (odd : Bool) (pair : Devnum) (id : Nat) : VdevState :=
  ⟨[(0, "dpu_rank*")], [(id, newVdev 0 (rankName odd) pair)], id + 1⟩

theorem rankState_accepts (odd : Bool) (pair : Devnum) (id : Nat) :
    (rankState odd pair id).Accepts 0 (rankName !odd) := by
  cases odd
  all_goals
    refine ⟨rfl, by decide +kernel, ?_⟩
    intro v hv
    rw [show v = newVdev 0 _ pair from List.mem_singleton.mp hv]
    change vdevPath _ ≠ vdevPath _
    decide +kernel

section
variable {pair next : Devnum} (h : vdevIncrementDevnumPair pair = some next) (odd : Bool) (id : Nat)
include h

theorem rankState_create :
    (rankState odd pair id).create 0 (rankName !odd) (-1) (-1) =
      ((rankState odd pair id).push (newVdev 0 (rankName !odd) next), some (id + 1)) := by
  rw [create_eq (by decide) (by decide) (rankState_accepts odd pair id),
    show (rankState odd pair id).vdevs = [newVdev 0 (rankName odd) pair] from rfl,
    @resolveDevnum_single (newVdev 0 (rankName odd) pair) next h]
  rfl

theorem rankState_next :
    run vdevStep (rankState odd pair id)
      [.create 0 (rankName !odd) (-1) (-1), .destroy id] =
        some (rankState (!odd) next (id + 1)) := by
  have hdestroy : ((rankState odd pair id).push (newVdev 0 (rankName !odd) next)).destroy id =
      rankState (!odd) next (id + 1) := by
    unfold VdevState.destroy VdevState.push rankState
    simp
  rw [run_cons, vdevStep, rankState_create h, Option.bind_some, run_cons, vdevStep, hdestroy]
  rfl

end

/-- With one device at a time, every pair is come to. -/
theorem reaches_pair (k : Nat) (hk : k < 2 ^ 64) : ∃ calls odd pair id,
    run vdevStep .start calls = some (rankState odd pair id) ∧ devnumRank pair = k := by
  induction k with
  | zero =>
      exact ⟨[.createRoot "dpu_rank*", .create 0 "dpu_rank0" 0 0], false, (0, 0), 1, rfl, rfl⟩
  | succ k ih =>
      obtain ⟨calls, odd, pair, id, hrun, hrank⟩ := ih (by omega)
      cases hnext : vdevIncrementDevnumPair pair with
      | none =>
          have hlast : devnumRank pair + 1 = 2 ^ 64 := pairCounter.next_none _ hnext
          omega
      | some next =>
          have hsucc : devnumRank next = devnumRank pair + 1 := pairCounter.next_some _ _ hnext
          refine ⟨calls ++ [.create 0 (rankName !odd) (-1) (-1), .destroy id], !odd, next, id + 1,
            ?_, by omega⟩
          rw [run_append, hrun, Option.bind_some, rankState_next hnext]

/-- The last `int` in both numbers, and a device that is left to come after it. -/
def pastInt : List VdevCall :=
  [.createRoot "dpu_rank*", .create 0 "dpu_rank0" 0x7fffffff 0x7fffffff,
    .create 0 "dpu_rank1" (-1) (-1)]

theorem getMinor_pastInt : ¬∀ calls s, run vdevStep .start calls = some s →
    ∀ id v, (id, v) ∈ s.vdevList →
      v.getMajor = v.major.toNat ∧ v.getMinor = v.minor.toNat := by
  intro h
  have hrun : run vdevStep .start pastInt =
      run vdevStep (rankState false (0x7fffffff, 0x7fffffff) 1)
        [.create 0 (rankName true) (-1) (-1)] := rfl
  have hcreate : (rankState false (0x7fffffff, 0x7fffffff) 1).create 0 (rankName true) (-1) (-1) =
      ((rankState false (0x7fffffff, 0x7fffffff) 1).push
        (newVdev 0 (rankName true) (0x7fffffff, 0x80000000)), some 2) :=
    rankState_create rfl false 1
  rw [run_cons, vdevStep, hcreate] at hrun
  have hlive : (2, newVdev 0 (rankName true) (0x7fffffff, 0x80000000)) ∈
      ((rankState false (0x7fffffff, 0x7fffffff) 1).push
        (newVdev 0 (rankName true) (0x7fffffff, 0x80000000))).vdevList :=
    List.mem_append_right _ (List.mem_singleton.mpr rfl)
  exact absurd (h pastInt _ hrun 2 _ hlive).2 (by decide)

/-- A number above the `int`s is not reported, and after the last pair of all no other is given,
though all but this one are free. -/
theorem vdev_numbers_missed :
    (¬∀ calls s, run vdevStep .start calls = some s → ∀ id v, (id, v) ∈ s.vdevList →
      v.getMajor = v.major.toNat ∧ v.getMinor = v.minor.toNat) ∧
    ¬∀ calls s, run vdevStep .start calls = some s → ∀ root name, s.Accepts root name →
      (∃ pair, isUsed s.vdevs pair = false) → (s.create root name (-1) (-1)).2.isSome = true := by
  refine ⟨getMinor_pastInt, fun h => ?_⟩
  obtain ⟨calls, odd, pair, id, hrun, hlast⟩ := reaches_pair (2 ^ 64 - 1) (by decide)
  have hfree : isUsed (rankState odd pair id).vdevs (0, 0) = false := by
    rw [isUsed_false, show (rankState odd pair id).vdevs = [newVdev 0 (rankName odd) pair] from rfl,
      List.forall_mem_singleton]
    intro heq
    have hzero : pair = (0, 0) := heq
    rw [hzero] at hlast
    exact absurd hlast (by decide)
  have haccepts := rankState_accepts odd pair id
  have hgiven := h calls _ hrun 0 (rankName !odd) haccepts ⟨_, hfree⟩
  rw [create_eq (by decide) (by decide) haccepts] at hgiven
  have hnone : resolveDevnum (rankState odd pair id).vdevs (-1) (-1) = none := by
    rw [← Option.not_isSome_iff_eq_none, resolveDevnum_isSome (by decide) (by decide)
      (.inl (by decide)), HasFree, if_neg (by decide), if_neg (by decide)]
    rintro ⟨after, hafter⟩
    have hless : devnumRank pair < devnumRank after :=
      hafter (newVdev 0 (rankName odd) pair) (List.mem_singleton_self _)
    have hbound : devnumRank after < 2 ^ 64 := pairCounter.rank_lt after
    omega
  rw [hnone] at hgiven
  cases hgiven

end HostPimSim.Vfile.Namespace
