import HostPimSim.Vfile.Snapshot

/-! What the maps of a snapshot hold, said of the paths that were inserted.  A path lists
itself and all its ancestors, an ancestor as a directory. -/
namespace HostPimSim.Vfile.Namespace
open Attribute

variable {s : Snapshot} {path p current : Path} {name x : String} {dtype t leaf : DType}

def childAt (s : Snapshot) (p : Path) (x : String) : Option DType :=
  (Table.find s.dirs p).bind fun children => Table.find children x

def isDir (s : Snapshot) (p : Path) : Prop := (Table.find s.dirs p).isSome = true

def KeysNodup (s : Snapshot) : Prop :=
  ∀ p children, Table.find s.dirs p = some children → (Table.keys children).Nodup

theorem childAt_ensureDir : childAt (ensureDir s path) p x = childAt s p x := by
  unfold ensureDir
  split
  · rfl
  · rename_i hnone
    unfold childAt
    rw [Table.find_put]
    split
    · rename_i h
      subst h
      rw [Option.not_isSome_iff_eq_none.mp hnone]
      rfl
    · rfl

theorem isDir_ensureDir : isDir (ensureDir s path) p ↔ isDir s p ∨ p = path := by
  unfold ensureDir
  split
  · rename_i hsome
    constructor
    · exact .inl
    · rintro (h | rfl)
      · exact h
      · exact hsome
  · unfold isDir
    rw [Table.find_put]
    split
    · rename_i h
      simp [h]
    · rename_i h
      simp [h]

theorem keysNodup_ensureDir (h : KeysNodup s) : KeysNodup (ensureDir s path) := by
  unfold ensureDir
  split
  · exact h
  · intro p children hfind
    rw [Table.find_put] at hfind
    split at hfind
    · cases hfind
      exact List.nodup_nil
    · exact h p children hfind

theorem childAt_put {children : List (String × DType)} :
    childAt { s with dirs := Table.put s.dirs current children } p x =
      if p = current then Table.find children x else childAt s p x := by
  unfold childAt
  rw [Table.find_put]
  split <;> rfl

theorem find_childrenOf (s : Snapshot) (current : Path) (x : String) :
    Table.find ((Table.find s.dirs current).getD []) x = childAt s current x := by
  unfold childAt
  cases Table.find s.dirs current <;> rfl

theorem childAt_putChild :
    childAt
        { s with
          dirs := Table.put s.dirs current
            (Table.put ((Table.find s.dirs current).getD []) name dtype) } p x =
      if p = current ∧ x = name then some dtype else childAt s p x := by
  rw [childAt_put]
  by_cases hp : p = current
  · subst hp
    rw [if_pos rfl, Table.find_put, find_childrenOf]
    simp
  · rw [if_neg hp, if_neg (fun h => hp h.1)]

theorem childAt_addChild_eq (hname : name ≠ "") :
    childAt (addChild s current name dtype) p x =
      if p = current ∧ x = name ∧ (childAt s p x = none ∨ childAt s p x = some .unknown) then
        some dtype
      else childAt s p x := by
  unfold addChild
  rw [if_neg hname]
  dsimp only
  split
  · rename_i hfind
    rw [find_childrenOf] at hfind
    rw [childAt_putChild]
    by_cases h : p = current ∧ x = name
    · obtain ⟨rfl, rfl⟩ := h
      simp [hfind]
    · rw [if_neg h, if_neg (fun hall => h ⟨hall.1, hall.2.1⟩)]
  · rename_i hfind
    rw [find_childrenOf] at hfind
    rw [childAt_putChild]
    by_cases h : p = current ∧ x = name
    · obtain ⟨rfl, rfl⟩ := h
      simp [hfind]
    · rw [if_neg h, if_neg (fun hall => h ⟨hall.1, hall.2.1⟩)]
  · rename_i known hunknown hfind
    rw [find_childrenOf] at hfind
    rw [if_neg]
    rintro ⟨rfl, rfl, hnone | hsame⟩
    · rw [hfind] at hnone
      cases hnone
    · rw [hfind] at hsame
      exact hunknown (Option.some.inj hsame)

theorem isSome_childAt_addChild (hname : name ≠ "") :
    (childAt (addChild s current name dtype) p x).isSome = true ↔
      (childAt s p x).isSome = true ∨ (p = current ∧ x = name) := by
  rw [childAt_addChild_eq hname]
  split
  · rename_i h
    simp [h.1, h.2.1]
  · rename_i h
    constructor
    · exact .inl
    · rintro (hsome | hnew)
      · exact hsome
      · by_contra hnone
        exact h ⟨hnew.1, hnew.2, .inl (Option.not_isSome_iff_eq_none.mp hnone)⟩

theorem childAt_of_addChild (hname : name ≠ "")
    (h : childAt (addChild s current name dtype) p x = some t) :
    childAt s p x = some t ∨ (p = current ∧ x = name ∧ t = dtype) := by
  rw [childAt_addChild_eq hname] at h
  split at h
  · rename_i hnew
    exact .inr ⟨hnew.1, hnew.2.1, (Option.some.inj h).symm⟩
  · exact .inl h

theorem isDir_addChild (hname : name ≠ "") :
    isDir (addChild s current name dtype) p ↔ isDir s p ∨ p = current := by
  have hput : ∀ children, isDir { s with dirs := Table.put s.dirs current children } p ↔
      isDir s p ∨ p = current := by
    intro children
    unfold isDir
    rw [Table.find_put]
    split
    · rename_i h
      simp [h]
    · rename_i h
      simp [h]
  unfold addChild
  rw [if_neg hname]
  dsimp only
  split
  · exact hput _
  · exact hput _
  · rename_i known _ hfind
    constructor
    · exact .inl
    · rintro (h | rfl)
      · exact h
      · unfold isDir
        cases hdir : Table.find s.dirs p with
        | none =>
            rw [hdir] at hfind
            cases hfind
        | some children => rfl

theorem keysNodup_addChild (h : KeysNodup s) : KeysNodup (addChild s current name dtype) := by
  have hput : ∀ dtype, KeysNodup
      { s with
        dirs := Table.put s.dirs current
          (Table.put ((Table.find s.dirs current).getD []) name dtype) } := by
    intro dtype p children hfind
    rw [Table.find_put] at hfind
    split at hfind
    · cases hfind
      apply Table.nodup_keys_put
      cases hold : Table.find s.dirs current with
      | none => exact List.nodup_nil
      | some rows => exact h current rows hold
    · exact h p children hfind
  unfold addChild
  split
  · exact h
  · dsimp only
    split
    · exact hput dtype
    · exact hput dtype
    · exact h

def rowType (leaf : DType) (segments front : List String) : DType :=
  if front = segments then leaf else .dir

/-- `after` has in addition what the insertion of the segments below `current` makes. -/
structure Adds (current : Path) (leaf : DType) (segments : List String) (s after : Snapshot) :
    Prop where
  child : ∀ p x, (childAt after p x).isSome = true ↔ (childAt s p x).isSome = true ∨
    ∃ front, p = current ++ front ∧ front ++ [x] <+: segments
  type : ∀ p x t, childAt after p x = some t → childAt s p x = some t ∨
    ∃ front, p = current ++ front ∧ front ++ [x] <+: segments ∧
      t = rowType leaf segments (front ++ [x])
  dir : ∀ p, isDir after p ↔ isDir s p ∨
    ∃ front, p = current ++ front ∧ front <+: segments ∧ (front ≠ segments ∨ leaf = .dir)
  keys : KeysNodup s → KeysNodup after

variable {segments rest : List String} {after : Snapshot}

theorem append_singleton_prefix_singleton {front : List String} :
    front ++ [x] <+: [name] ↔ front = [] ∧ x = name := by
  cases front with
  | nil => simp
  | cons y front => simp

theorem prefix_singleton {front : List String} : front <+: [name] ↔ front = [] ∨ front = [name] := by
  cases front with
  | nil => simp
  | cons y front => simp

theorem adds_single (hname : name ≠ "") :
    Adds current leaf [name] s (addSegments s current leaf [name]) := by
  have hsplit : addSegments s current leaf [name] = addChild s current name leaf ∨
      addSegments s current leaf [name] =
        ensureDir (addChild s current name leaf) (current ++ [name]) := by
    rw [addSegments]
    split
    · exact .inr rfl
    · exact .inl rfl
  have hchild : ∀ p x, childAt (addSegments s current leaf [name]) p x =
      childAt (addChild s current name leaf) p x := by
    intro p x
    rcases hsplit with h | h
    · rw [h]
    · rw [h, childAt_ensureDir]
  constructor
  · intro p x
    rw [hchild, isSome_childAt_addChild hname]
    simp only [append_singleton_prefix_singleton]
    simp
  · intro p x t ht
    rw [hchild] at ht
    rcases childAt_of_addChild hname ht with hold | ⟨rfl, rfl, rfl⟩
    · exact .inl hold
    · exact .inr ⟨[], by simp, by simp, by simp [rowType]⟩
  · intro p
    simp only [prefix_singleton]
    rw [addSegments]
    split
    · rename_i hleaf
      rw [isDir_ensureDir, isDir_addChild hname]
      simp only [hleaf, or_true, and_true]
      simp only [or_assoc, and_or_left, exists_or]
      simp
    · rename_i hleaf
      rw [isDir_addChild hname]
      simp only [hleaf, or_false]
      constructor
      · rintro (h | rfl)
        · exact .inl h
        · exact .inr ⟨[], by simp, .inl rfl, by simp⟩
      · rintro (h | ⟨front, rfl, rfl | rfl, hne⟩)
        · exact .inl h
        · simp
        · exact absurd rfl hne
  · intro hkeys
    rcases hsplit with h | h
    · rw [h]
      exact keysNodup_addChild hkeys
    · rw [h]
      exact keysNodup_ensureDir (keysNodup_addChild hkeys)

theorem Adds.cons (hname : name ≠ "") (hrest : rest ≠ [])
    (h : Adds (current ++ [name]) leaf rest
      (ensureDir (addChild s current name .dir) (current ++ [name])) after) :
    Adds current leaf (name :: rest) s after := by
  constructor
  · intro p x
    rw [h.child, childAt_ensureDir, isSome_childAt_addChild hname]
    constructor
    · rintro ((hold | ⟨rfl, rfl⟩) | ⟨front, rfl, hfront⟩)
      · exact .inl hold
      · exact .inr ⟨[], by simp, by simp⟩
      · exact .inr ⟨name :: front, by simp, List.cons_prefix_cons.mpr ⟨rfl, hfront⟩⟩
    · rintro (hold | ⟨front, rfl, hfront⟩)
      · exact .inl (.inl hold)
      · cases front with
        | nil => exact .inl (.inr ⟨by simp, (List.cons_prefix_cons.mp hfront).1⟩)
        | cons y front =>
            obtain ⟨rfl, hbelow⟩ := List.cons_prefix_cons.mp hfront
            exact .inr ⟨front, by simp, hbelow⟩
  · intro p x t ht
    rcases h.type p x t ht with hold | ⟨front, rfl, hfront, rfl⟩
    · rw [childAt_ensureDir] at hold
      rcases childAt_of_addChild hname hold with hold | ⟨rfl, rfl, rfl⟩
      · exact .inl hold
      · exact .inr ⟨[], by simp, by simp, by simp [rowType, Ne.symm hrest]⟩
    · refine .inr ⟨name :: front, by simp, List.cons_prefix_cons.mpr ⟨rfl, hfront⟩, ?_⟩
      simp [rowType]
  · intro p
    rw [h.dir, isDir_ensureDir, isDir_addChild hname]
    constructor
    · rintro (((hold | rfl) | rfl) | ⟨front, rfl, hfront, hlast⟩)
      · exact .inl hold
      · exact .inr ⟨[], by simp, List.nil_prefix, by simp⟩
      · exact .inr ⟨[name], rfl, by simp, by simp [Ne.symm hrest]⟩
      · exact .inr ⟨name :: front, by simp, List.cons_prefix_cons.mpr ⟨rfl, hfront⟩, by
          simpa using hlast⟩
    · rintro (hold | ⟨front, rfl, hfront, hlast⟩)
      · exact .inl (.inl (.inl hold))
      · cases front with
        | nil => exact .inl (.inl (.inr (by simp)))
        | cons y front =>
            obtain ⟨rfl, hbelow⟩ := List.cons_prefix_cons.mp hfront
            exact .inr ⟨front, by simp, hbelow, by simpa using hlast⟩
  · intro hkeys
    exact h.keys (keysNodup_ensureDir (keysNodup_addChild hkeys))

theorem adds_segments (s : Snapshot) (current : Path) (leaf : DType) (hne : segments ≠ [])
    (hnames : ∀ x ∈ segments, x ≠ "") :
    Adds current leaf segments s (addSegments s current leaf segments) := by
  induction s, current, segments using addSegments.induct leaf with
  | case1 s current => exact absurd rfl hne
  | case2 s current name hleaf => exact adds_single (hnames name List.mem_cons_self)
  | case3 s current name hleaf => exact adds_single (hnames name List.mem_cons_self)
  | case4 s current name rest hrest ih =>
      rw [addSegments]
      · exact (ih hrest fun x hx => hnames x (List.mem_cons_of_mem name hx)).cons
          (hnames name List.mem_cons_self) hrest
      · exact hrest

theorem addChild_maps (s : Snapshot) (current : Path) (name : String) (dtype : DType) :
    (addChild s current name dtype).attrBindings = s.attrBindings ∧
      (addChild s current name dtype).vfileNodes = s.vfileNodes := by
  unfold addChild
  split
  · exact ⟨rfl, rfl⟩
  · dsimp only
    split <;> exact ⟨rfl, rfl⟩

theorem ensureDir_maps (s : Snapshot) (path : Path) :
    (ensureDir s path).attrBindings = s.attrBindings ∧
      (ensureDir s path).vfileNodes = s.vfileNodes := by
  unfold ensureDir
  split <;> exact ⟨rfl, rfl⟩

theorem addSegments_maps (s : Snapshot) (current : Path) (leaf : DType)
    (segments : List String) :
    (addSegments s current leaf segments).attrBindings = s.attrBindings ∧
      (addSegments s current leaf segments).vfileNodes = s.vfileNodes := by
  induction s, current, segments using addSegments.induct leaf with
  | case1 s current => exact ⟨rfl, rfl⟩
  | case2 s current name hleaf =>
      rw [addSegments, if_pos hleaf, (ensureDir_maps _ _).1, (ensureDir_maps _ _).2]
      exact addChild_maps s current name leaf
  | case3 s current name hleaf =>
      rw [addSegments, if_neg hleaf]
      exact addChild_maps s current name leaf
  | case4 s current name rest hrest ih =>
      rw [addSegments]
      · rw [ih.1, ih.2, (ensureDir_maps _ _).1, (ensureDir_maps _ _).2]
        exact addChild_maps s current name .dir
      · exact hrest

/-- The insertion of a path changes no map but the one of directories. -/
theorem addPath_maps (s : Snapshot) (path : Path) (leaf : DType) :
    (addPath s path leaf).attrBindings = s.attrBindings ∧
      (addPath s path leaf).vfileNodes = s.vfileNodes := by
  obtain ⟨hattrs, hnodes⟩ := addSegments_maps (ensureDir s []) [] leaf path
  unfold addPath
  rw [hattrs, hnodes]
  exact ensureDir_maps s []

/-- The rows and directories of a snapshot into which these paths were inserted. -/
structure Listed (entries : List (Path × DType)) (s : Snapshot) : Prop where
  child : ∀ p x, (childAt s p x).isSome = true ↔ ∃ e ∈ entries, p ++ [x] <+: e.1
  type : ∀ p x t, childAt s p x = some t →
    ∃ e ∈ entries, p ++ [x] <+: e.1 ∧ t = rowType e.2 e.1 (p ++ [x])
  dir : ∀ p, isDir s p ↔ p = [] ∨ ∃ e ∈ entries, p <+: e.1 ∧ (p ≠ e.1 ∨ e.2 = .dir)
  keys : KeysNodup s

/-- The nodes and bindings too; `bound` is what is known of the attributes that are bound. -/
structure Built (bound : Binding → Prop) (entries : List (Path × DType)) (s : Snapshot) : Prop
    extends Listed entries s where
  attr : ∀ p, (Table.find s.attrBindings p).isSome = true ↔ (p, .reg) ∈ entries
  vdev : ∀ p, (Table.find s.vfileNodes p).isSome = true ↔ (p, .chr) ∈ entries
  binding : ∀ p b, Table.find s.attrBindings p = some b → bound b

variable {bound : Binding → Prop} {entries : List (Path × DType)}

theorem Listed.addPath (h : Listed entries s) (hne : path ≠ []) (hnames : ∀ x ∈ path, x ≠ "") :
    Listed (entries ++ [(path, leaf)]) (addPath s path leaf) := by
  have hadds := adds_segments (ensureDir s []) [] leaf hne hnames
  constructor
  · intro p x
    rw [Namespace.addPath, hadds.child, childAt_ensureDir, h.child]
    constructor
    · rintro (⟨e, he, hpre⟩ | ⟨front, rfl, hfront⟩)
      · exact ⟨e, List.mem_append_left _ he, hpre⟩
      · exact ⟨(path, leaf), by simp, hfront⟩
    · rintro ⟨e, he, hpre⟩
      rcases List.mem_append.mp he with hold | hnew
      · exact .inl ⟨e, hold, hpre⟩
      · cases List.mem_singleton.mp hnew
        exact .inr ⟨p, rfl, hpre⟩
  · intro p x t ht
    rcases hadds.type p x t ht with hold | ⟨front, rfl, hfront, rfl⟩
    · rw [childAt_ensureDir] at hold
      obtain ⟨e, he, hpre, rfl⟩ := h.type p x t hold
      exact ⟨e, List.mem_append_left _ he, hpre, rfl⟩
    · exact ⟨(path, leaf), by simp, hfront, rfl⟩
  · intro p
    rw [Namespace.addPath, hadds.dir, isDir_ensureDir, h.dir]
    constructor
    · rintro (((rfl | ⟨e, he, hpre⟩) | rfl) | ⟨front, rfl, hfront⟩)
      · exact .inl rfl
      · exact .inr ⟨e, List.mem_append_left _ he, hpre⟩
      · exact .inl rfl
      · exact .inr ⟨(path, leaf), by simp, hfront⟩
    · rintro (rfl | ⟨e, he, hpre⟩)
      · exact .inl (.inr rfl)
      · rcases List.mem_append.mp he with hold | hnew
        · exact .inl (.inl (.inr ⟨e, hold, hpre⟩))
        · cases List.mem_singleton.mp hnew
          exact .inr ⟨p, rfl, hpre⟩
  · exact hadds.keys (keysNodup_ensureDir h.keys)

theorem Listed.same (h : Listed entries s) (hdirs : after.dirs = s.dirs) :
    Listed entries after := by
  refine ⟨?_, ?_, ?_, ?_⟩
  · unfold childAt
    rw [hdirs]
    exact h.child
  · unfold childAt
    rw [hdirs]
    exact h.type
  · unfold isDir
    rw [hdirs]
    exact h.dir
  · unfold KeysNodup
    rw [hdirs]
    exact h.keys

/-- A directory, under either type, with what the maps of objects get. -/
theorem Built.addDir (h : Built bound entries s) (hne : path ≠ []) (hnames : ∀ x ∈ path, x ≠ "")
    (hleaf : leaf = .dir ∨ leaf = .lnk) (hdirs : after.dirs = (addPath s path leaf).dirs)
    (hattrs : after.attrBindings = s.attrBindings) (hnodes : after.vfileNodes = s.vfileNodes) :
    Built bound (entries ++ [(path, leaf)]) after := by
  have htype : ∀ p t, t ≠ .dir → t ≠ .lnk →
      ((p, t) ∈ entries ++ [(path, leaf)] ↔ (p, t) ∈ entries) := by
    intro p t hdir hlnk
    rw [List.mem_append]
    refine ⟨fun hmem => hmem.resolve_right fun hnew => ?_, .inl⟩
    cases List.mem_singleton.mp hnew
    rcases hleaf with rfl | rfl
    · exact hdir rfl
    · exact hlnk rfl
  refine ⟨(h.toListed.addPath hne hnames).same hdirs, ?_, ?_, ?_⟩
  · intro p
    rw [hattrs, h.attr, htype p .reg (by decide) (by decide)]
  · intro p
    rw [hnodes, h.vdev, htype p .chr (by decide) (by decide)]
  · rw [hattrs]
    exact h.binding

theorem Built.addVdev {vdev : Nat × Path} (h : Built bound entries s) (hne : vdev.2 ≠ [])
    (hnames : ∀ x ∈ vdev.2, x ≠ "") :
    Built bound (entries ++ [(vdev.2, .chr)]) (addVdev s vdev) := by
  obtain ⟨hattrs, hnodes⟩ := addPath_maps s vdev.2 .chr
  refine ⟨(h.toListed.addPath hne hnames).same rfl, ?_, ?_, ?_⟩
  · intro p
    change (Table.find (addPath s vdev.2 .chr).attrBindings p).isSome = true ↔ _
    rw [hattrs, h.attr]
    simp
  · intro p
    change (Table.find (Table.put (addPath s vdev.2 .chr).vfileNodes vdev.2 vdev.1) p).isSome =
      true ↔ _
    rw [hnodes, Table.find_put]
    split
    · rename_i hp
      simp [hp]
    · rename_i hp
      simp [h.vdev, hp]
  · intro p b hb
    change Table.find (addPath s vdev.2 .chr).attrBindings p = some b at hb
    rw [hattrs] at hb
    exact h.binding p b hb

theorem find_emplace (bindings : List (Path × Binding)) (path : Path) (binding : Binding)
    (p : Path) :
    Table.find (emplace bindings path binding) p =
      if p = path ∧ Table.find bindings p = none then some binding
      else Table.find bindings p := by
  unfold emplace
  split
  · rename_i hsome
    rw [if_neg]
    rintro ⟨rfl, hnone⟩
    rw [hnone] at hsome
    cases hsome
  · rename_i hnone
    rw [Table.find_put]
    by_cases hp : p = path
    · subst hp
      simp [Option.not_isSome_iff_eq_none.mp hnone]
    · simp [hp]

theorem Built.bindAttr {owner : Owner} {dir : Path} {attrName : String}
    (h : Built bound entries s) (hnames : ∀ x ∈ dir ++ [attrName], x ≠ "")
    (hbound : bound ⟨owner, attrName⟩) :
    Built bound (entries ++ [(dir ++ [attrName], .reg)]) (bindAttr owner dir s attrName) := by
  obtain ⟨hattrs, hnodes⟩ := addPath_maps s (dir ++ [attrName]) .reg
  have hne : dir ++ [attrName] ≠ [] := by simp
  refine ⟨(h.toListed.addPath hne hnames).same rfl, ?_, ?_, ?_⟩
  · intro p
    change (Table.find (emplace (addPath s (dir ++ [attrName]) .reg).attrBindings _ _) p).isSome =
      true ↔ _
    rw [hattrs, find_emplace]
    split
    · rename_i hp
      simp [hp.1]
    · rename_i hp
      rw [h.attr]
      constructor
      · intro hmem
        exact List.mem_append_left _ hmem
      · intro hmem
        rcases List.mem_append.mp hmem with hold | hnew
        · exact hold
        · cases List.mem_singleton.mp hnew
          rw [← h.attr]
          by_contra hnone
          exact hp ⟨rfl, Option.not_isSome_iff_eq_none.mp hnone⟩
  · intro p
    change (Table.find (addPath s (dir ++ [attrName]) .reg).vfileNodes p).isSome = true ↔ _
    rw [hnodes, h.vdev]
    simp
  · intro p b hb
    change Table.find (emplace (addPath s (dir ++ [attrName]) .reg).attrBindings _ _) p =
      some b at hb
    rw [hattrs, find_emplace] at hb
    split at hb
    · cases hb
      exact hbound
    · exact h.binding p b hb

theorem Built.foldl {β : Type} {f : Snapshot → β → Snapshot} {g : β → List (Path × DType)}
    {items : List β} (h : Built bound entries s)
    (hstep : ∀ item ∈ items, ∀ entries s, Built bound entries s →
      Built bound (entries ++ g item) (f s item)) :
    Built bound (entries ++ items.flatMap g) (items.foldl f s) := by
  induction items generalizing entries s with
  | nil => simpa using h
  | cons item items ih =>
      have hnext := hstep item List.mem_cons_self entries s h
      have hrest := ih hnext fun other hother => hstep other (List.mem_cons_of_mem item hother)
      rw [List.flatMap_cons, ← List.append_assoc]
      exact hrest

theorem built_nil : Built bound [] (ensureDir ⟨[], [], [], [], []⟩ []) := by
  have hdirs : ∀ p, Table.find (ensureDir ⟨[], [], [], [], []⟩ []).dirs p =
      if p = [] then some [] else none := by
    intro p
    change Table.find [([], [])] p = _
    simp only [Table.find]
    split
    · rename_i hp
      rw [if_pos hp.symm]
    · rename_i hp
      rw [if_neg (Ne.symm hp)]
  have hchild : ∀ p x, childAt (ensureDir ⟨[], [], [], [], []⟩ []) p x = none := by
    intro p x
    unfold childAt
    rw [hdirs]
    split <;> rfl
  refine ⟨⟨?_, ?_, ?_, ?_⟩, ?_, ?_, ?_⟩
  · intro p x
    simp [hchild]
  · intro p x t ht
    rw [hchild] at ht
    cases ht
  · intro p
    unfold isDir
    rw [hdirs]
    split
    · rename_i hp
      simp [hp]
    · rename_i hp
      simp [hp]
  · intro p children hfind
    rw [hdirs] at hfind
    split at hfind
    · cases hfind
      exact List.nodup_nil
    · cases hfind
  · intro p
    simp [ensureDir, Table.find]
  · intro p
    simp [ensureDir, Table.find]
  · intro p b hb
    simp [ensureDir, Table.find] at hb

theorem keysNodup_addSegments (h : KeysNodup s) (rest : List String) :
    KeysNodup (addSegments s current leaf rest) := by
  fun_induction addSegments s current leaf rest with
  | case1 s current => exact h
  | case2 s current name added hdir => exact keysNodup_ensureDir (keysNodup_addChild h)
  | case3 s current name added hdir => exact keysNodup_addChild h
  | case4 s current name rest hrest ih => exact ih (keysNodup_ensureDir (keysNodup_addChild h))

theorem keysNodup_addPath (h : KeysNodup s) : KeysNodup (addPath s path leaf) :=
  keysNodup_addSegments (keysNodup_ensureDir h) path

theorem keysNodup_bindAttrs {owner : Owner} {dir : Path} (attrs : List String)
    (h : KeysNodup s) : KeysNodup (attrs.foldl (bindAttr owner dir) s) := by
  induction attrs generalizing s with
  | nil => exact h
  | cons attr rest ih => exact ih (keysNodup_addPath h)

theorem keysNodup_foldl {α : Type} {add : Snapshot → α → Snapshot}
    (hadd : ∀ s a, KeysNodup s → KeysNodup (add s a)) (seeds : List α) (h : KeysNodup s) :
    KeysNodup (seeds.foldl add s) :=
  List.foldlRecOn seeds add h fun s hs a _ => hadd s a hs

theorem keysNodup_buildSnapshot (seeds : Seeds) : KeysNodup (buildSnapshot seeds) := by
  refine keysNodup_foldl ?_ _ (keysNodup_foldl ?_ _ (keysNodup_foldl ?_ _ ?_))
  · intro s vmodule h
    refine keysNodup_foldl ?_ _ (keysNodup_bindAttrs _ (keysNodup_addPath h))
    intro s driver h
    unfold addBusDriverDir
    split
    · exact h
    · exact keysNodup_addPath h
  · intro s vsysfs h
    refine keysNodup_foldl ?_ _ h
    exact fun s dir h => keysNodup_bindAttrs _ (keysNodup_addPath h)
  · exact fun s vdev h => keysNodup_addPath h
  · refine keysNodup_ensureDir ?_
    intro p children hfind
    cases hfind

end HostPimSim.Vfile.Namespace
