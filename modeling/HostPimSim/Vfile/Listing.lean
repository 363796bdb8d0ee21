import Mathlib.Data.List.Induction
import HostPimSim.Vfile.Tree

/-! The two lookups side by side: the rows of a directory, and what the paths below it resolve
to. -/
namespace HostPimSim.Vfile.Namespace
open Attribute

def Segment (x : String) : Prop := x ≠ "" ∧ x ≠ "." ∧ x ≠ ".." ∧ '/' ∉ x.toList

instance : DecidablePred Segment := fun x =>
  inferInstanceAs (Decidable (x ≠ "" ∧ x ≠ "." ∧ x ≠ ".." ∧ '/' ∉ x.toList))

def Node.ListedAs : Node → DType → Prop
  | .vdevNode _ _, t => t = .chr
  | .attrNode _ _ _ _ _, t => t = .reg
  | .vdir _ _ _, t => t = .dir ∨ t = .lnk

def ResolvesToDir (s : Snapshot) (live : Owner → String → Option Attr) (dir : Path) : Prop :=
  ∃ vsysfs vmodule, resolve s live dir = some (.vdir dir vsysfs vmodule)

inductive Reachable (s : Snapshot) (live : Owner → String → Option Attr) : Path → Prop
  | root : Reachable s live []
  | row {dir : Path} {x : String} {t : DType} {rows : List (String × DType)} :
      Reachable s live dir → ResolvesToDir s live dir → collectDirents s dir = some rows →
        (x, t) ∈ rows → Segment x → Reachable s live (dir ++ [x])

/-- Each directory lists the names that resolve below it, each once and with its type, and
what resolves can be reached. -/
structure ListingAgrees (s : Snapshot) (live : Owner → String → Option Attr) : Prop where
  rows : ∀ dir, ResolvesToDir s live dir → ∃ rows, collectDirents s dir = some rows ∧
    (rows.map Prod.fst).Nodup ∧ ∀ x, Segment x →
      ((∃ t, (x, t) ∈ rows) ↔ (resolve s live (dir ++ [x])).isSome = true) ∧
        ∀ t, (x, t) ∈ rows → ∃ node, resolve s live (dir ++ [x]) = some node ∧ node.ListedAs t
  reachable : ∀ path, (resolve s live path).isSome = true → Reachable s live path

variable {s : Snapshot} {live : Owner → String → Option Attr} {p dir : Path} {x : String}
  {t : DType} {entries : List (Path × DType)}

structure Consistent (entries : List (Path × DType)) : Prop where
  names : ∀ e ∈ entries, ∀ x ∈ e.1, Segment x
  known : ∀ e ∈ entries, e.2 ≠ .unknown
  link : ∀ q, (q, .lnk) ∈ entries → ∃ e ∈ entries, q <+: e.1 ∧ q ≠ e.1
  leaf : ∀ q t, (q, t) ∈ entries → t = .reg ∨ t = .chr → ∀ e ∈ entries, q <+: e.1 → e = (q, t)

def isLive (live : Owner → String → Option Attr) (b : Binding) : Prop :=
  (live b.owner b.attrName).isSome = true

section

variable (h : Built (isLive live) entries s)
include h

theorem Built.resolve_attr (hattr : (p, .reg) ∈ entries) :
    ∃ owner name size access, resolve s live p = some (.attrNode p owner name size access) := by
  obtain ⟨binding, hbinding⟩ := Option.isSome_iff_exists.mp ((h.attr p).mpr hattr)
  obtain ⟨attr, hlive⟩ := Option.isSome_iff_exists.mp (h.binding p binding hbinding)
  refine ⟨binding.owner, binding.attrName, attr.value.length, attr.access, ?_⟩
  simp [resolve, tryResolveAttrNode, hbinding, hlive]

theorem Built.resolve_not_attr (hattr : (p, .reg) ∉ entries) :
    resolve s live p = (tryResolveVdevNode s p).or (tryResolveDirNode s p) := by
  have hnone : Table.find s.attrBindings p = none := by
    rw [← Option.not_isSome_iff_eq_none, h.attr]
    exact hattr
  simp [resolve, tryResolveAttrNode, hnone]

theorem Built.resolve_vdev (hattr : (p, .reg) ∉ entries) (hvdev : (p, .chr) ∈ entries) :
    ∃ vdev, resolve s live p = some (.vdevNode p vdev) := by
  obtain ⟨vdev, hfind⟩ := Option.isSome_iff_exists.mp ((h.vdev p).mpr hvdev)
  refine ⟨vdev, ?_⟩
  rw [h.resolve_not_attr hattr]
  simp [tryResolveVdevNode, hfind]

theorem Built.resolve_other (hattr : (p, .reg) ∉ entries) (hvdev : (p, .chr) ∉ entries) :
    resolve s live p = tryResolveDirNode s p := by
  have hnone : Table.find s.vfileNodes p = none := by
    rw [← Option.not_isSome_iff_eq_none, h.vdev]
    exact hvdev
  rw [h.resolve_not_attr hattr]
  simp [tryResolveVdevNode, hnone]

theorem Built.resolvesToDir (hattr : (p, .reg) ∉ entries) (hvdev : (p, .chr) ∉ entries)
    (hdir : isDir s p) : ResolvesToDir s live p := by
  obtain ⟨children, hfind⟩ := Option.isSome_iff_exists.mp hdir
  unfold ResolvesToDir
  rw [h.resolve_other hattr hvdev]
  exact ⟨_, _, by simp only [tryResolveDirNode, hfind]; rfl⟩

theorem Built.children_of_resolvesToDir (hdir : ResolvesToDir s live p) :
    ∃ children, Table.find s.dirs p = some children := by
  obtain ⟨vsysfs, vmodule, hresolve⟩ := hdir
  by_cases hattr : (p, .reg) ∈ entries
  · obtain ⟨owner, name, size, access, hnode⟩ := h.resolve_attr hattr
    cases hnode.symm.trans hresolve
  · by_cases hvdev : (p, .chr) ∈ entries
    · obtain ⟨vdev, hnode⟩ := h.resolve_vdev hattr hvdev
      cases hnode.symm.trans hresolve
    · rw [h.resolve_other hattr hvdev] at hresolve
      obtain ⟨children, hfind, _⟩ := Option.map_eq_some_iff.mp hresolve
      exact ⟨children, hfind⟩

/-- What resolves is the root or at or above a path that was inserted. -/
theorem Built.prefix_of_resolve (hsome : (resolve s live p).isSome = true) :
    p = [] ∨ ∃ e ∈ entries, p <+: e.1 := by
  by_cases hattr : (p, .reg) ∈ entries
  · exact .inr ⟨_, hattr, List.prefix_refl p⟩
  · by_cases hvdev : (p, .chr) ∈ entries
    · exact .inr ⟨_, hvdev, List.prefix_refl p⟩
    · rw [h.resolve_other hattr hvdev] at hsome
      have hdir : isDir s p := by
        unfold tryResolveDirNode at hsome
        rw [Option.isSome_map] at hsome
        exact hsome
      rcases (h.dir p).mp hdir with hroot | ⟨e, he, hpre, _⟩
      · exact .inl hroot
      · exact .inr ⟨e, he, hpre⟩

theorem Built.row_of_resolves (hsome : (resolve s live (dir ++ [x])).isSome = true) :
    (childAt s dir x).isSome = true := by
  rw [h.child]
  rcases h.prefix_of_resolve hsome with hnil | hbelow
  · simp at hnil
  · exact hbelow

theorem Built.mem_rows_iff {children : List (String × DType)}
    (hfind : Table.find s.dirs dir = some children) (hx : Segment x) :
    (x, t) ∈ (".", DType.dir) :: ("..", .dir) :: inNameOrder children ↔
      childAt s dir x = some t := by
  have hchild : childAt s dir x = Table.find children x := by
    unfold childAt
    rw [hfind]
    rfl
  rw [hchild, List.mem_cons, List.mem_cons, mem_inNameOrder]
  constructor
  · rintro (hdot | hdots | hmem)
    · cases hdot
      exact absurd rfl hx.2.1
    · cases hdots
      exact absurd rfl hx.2.2.1
    · exact Table.find_of_mem (h.keys dir children hfind) hmem
  · intro hfound
    exact .inr (.inr (Table.mem_of_find hfound))

end

section

variable (h : Built (isLive live) entries s) (hok : Consistent entries)
include h hok

theorem Built.above_resolvesToDir {e : Path × DType} (he : e ∈ entries) (hpre : p <+: e.1)
    (hne : p ≠ e.1) : ResolvesToDir s live p := by
  refine h.resolvesToDir ?_ ?_ ?_
  · intro hattr
    have hleaf := hok.leaf p .reg hattr (.inl rfl) e he hpre
    rw [hleaf] at hne
    exact hne rfl
  · intro hvdev
    have hleaf := hok.leaf p .chr hvdev (.inr rfl) e he hpre
    rw [hleaf] at hne
    exact hne rfl
  · exact (h.dir p).mpr (.inr ⟨e, he, hpre, .inl hne⟩)

theorem Built.entry_resolves (he : (p, t) ∈ entries) :
    ∃ node, resolve s live p = some node ∧ node.ListedAs t := by
  cases t with
  | unknown => exact absurd rfl (hok.known _ he)
  | reg =>
      obtain ⟨owner, name, size, access, hresolve⟩ := h.resolve_attr he
      exact ⟨_, hresolve, rfl⟩
  | chr =>
      have hattr : (p, .reg) ∉ entries := by
        intro hattr
        have hleaf := hok.leaf p .chr he (.inr rfl) _ hattr (List.prefix_refl p)
        cases hleaf
      obtain ⟨vdev, hresolve⟩ := h.resolve_vdev hattr he
      exact ⟨_, hresolve, rfl⟩
  | dir =>
      have hdir : ResolvesToDir s live p := by
        refine h.resolvesToDir ?_ ?_ ((h.dir p).mpr (.inr ⟨_, he, List.prefix_refl p, .inr rfl⟩))
        · intro hattr
          have hleaf := hok.leaf p .reg hattr (.inl rfl) _ he (List.prefix_refl p)
          cases hleaf
        · intro hvdev
          have hleaf := hok.leaf p .chr hvdev (.inr rfl) _ he (List.prefix_refl p)
          cases hleaf
      obtain ⟨vsysfs, vmodule, hresolve⟩ := hdir
      exact ⟨_, hresolve, .inl rfl⟩
  | lnk =>
      obtain ⟨e, hbelow, hpre, hne⟩ := hok.link p he
      obtain ⟨vsysfs, vmodule, hresolve⟩ := h.above_resolvesToDir hok hbelow hpre hne
      exact ⟨_, hresolve, .inr rfl⟩

theorem Built.row_resolves (hrow : childAt s dir x = some t) :
    ∃ node, resolve s live (dir ++ [x]) = some node ∧ node.ListedAs t := by
  obtain ⟨e, he, hpre, rfl⟩ := h.type dir x t hrow
  unfold rowType
  split
  · rename_i hself
    rw [hself]
    exact h.entry_resolves hok he
  · rename_i hne
    obtain ⟨vsysfs, vmodule, hresolve⟩ := h.above_resolvesToDir hok he hpre hne
    exact ⟨_, hresolve, .inl rfl⟩

theorem Built.segment_of_row (hrow : (childAt s dir x).isSome = true) : Segment x := by
  obtain ⟨e, he, hpre⟩ := (h.child dir x).mp hrow
  exact hok.names e he x (hpre.subset (by simp))

theorem Built.reachable_of_prefix {e : Path × DType} (he : e ∈ entries) (hpre : p <+: e.1) :
    Reachable s live p := by
  induction p using List.reverseRecOn with
  | nil => exact .root
  | append_singleton dir x ih =>
      have habove : dir <+: e.1 := (List.prefix_append dir [x]).trans hpre
      have hne : dir ≠ e.1 := by
        rintro rfl
        have hlength := hpre.length_le
        rw [List.length_append, List.length_singleton] at hlength
        omega
      have hrow := (h.child dir x).mpr ⟨e, he, hpre⟩
      obtain ⟨t, ht⟩ := Option.isSome_iff_exists.mp hrow
      obtain ⟨children, hfind, hchild⟩ := Option.bind_eq_some_iff.mp ht
      have hrows : collectDirents s dir =
          some ((".", .dir) :: ("..", .dir) :: inNameOrder children) := by
        simp [collectDirents, hfind]
      have hmem : (x, t) ∈ (".", DType.dir) :: ("..", .dir) :: inNameOrder children :=
        List.mem_cons_of_mem _ (List.mem_cons_of_mem _
          (mem_inNameOrder.mpr (Table.mem_of_find hchild)))
      exact .row (ih habove) (h.above_resolvesToDir hok he habove hne) hrows hmem
        (h.segment_of_row hok hrow)

theorem Built.rows_nodup {children : List (String × DType)}
    (hfind : Table.find s.dirs dir = some children) :
    (((".", DType.dir) :: ("..", .dir) :: inNameOrder children).map Prod.fst).Nodup := by
  have hperm := keys_inNameOrder_perm children
  have hsegment : ∀ x ∈ Table.keys (inNameOrder children), Segment x := by
    intro x hx
    have hrow : (childAt s dir x).isSome = true := by
      unfold childAt
      rw [hfind]
      exact Table.find_isSome_iff_mem_keys.mpr (hperm.mem_iff.mp hx)
    exact h.segment_of_row hok hrow
  change ("." :: ".." :: Table.keys (inNameOrder children)).Nodup
  rw [List.nodup_cons, List.nodup_cons, List.mem_cons]
  refine ⟨?_, ?_, hperm.nodup_iff.mpr (h.keys dir children hfind)⟩
  · rintro (hsame | hmem)
    · exact absurd hsame (by decide)
    · exact (hsegment "." hmem).2.1 rfl
  · intro hmem
    exact (hsegment ".." hmem).2.2.1 rfl

/-- Listing and lookup agree on what was inserted consistently. -/
theorem Built.agrees : ListingAgrees s live := by
  constructor
  · intro dir hdir
    obtain ⟨children, hfind⟩ := h.children_of_resolvesToDir hdir
    refine ⟨(".", .dir) :: ("..", .dir) :: inNameOrder children,
      by simp [collectDirents, hfind],
      h.rows_nodup hok hfind, fun x hx => ⟨?_, fun t ht => ?_⟩⟩
    · constructor
      · rintro ⟨t, ht⟩
        obtain ⟨node, hnode, _⟩ := h.row_resolves hok ((h.mem_rows_iff hfind hx).mp ht)
        rw [hnode]
        rfl
      · intro hsome
        obtain ⟨t, ht⟩ := Option.isSome_iff_exists.mp (h.row_of_resolves hsome)
        exact ⟨t, (h.mem_rows_iff hfind hx).mpr ht⟩
    · exact h.row_resolves hok ((h.mem_rows_iff hfind hx).mp ht)
  · intro path hsome
    rcases h.prefix_of_resolve hsome with rfl | ⟨e, he, hpre⟩
    · exact .root
    · exact h.reachable_of_prefix hok he hpre

end

end HostPimSim.Vfile.Namespace
