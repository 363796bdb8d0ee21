import HostPimSim.Vfile.Listing
import HostPimSim.Vfile.Registry

/-! Paths as texts: normalization, the canonical text of a path, and the relative text that
leads from a link to its target.  A text is a byte string with one character for each byte. -/
namespace HostPimSim.Vfile.Namespace

variable {p parent link target : Path} {text x : String}

def pieces (text : String) : List String := (text.toList.splitOn '/').map String.ofList

/-- What one piece does to the stack of `vfile_normalize_absolute_path`, whose top is the end
of the list.  The source skips runs of slashes; these are the empty pieces here. -/
def pushPiece (stack : Path) (piece : String) : Path :=
  if piece = "" ∨ piece = "." then stack
  else if piece = ".." then stack.dropLast
  else stack ++ [piece]

def isAbsolute (text : String) : Bool := text.toList.head? == some '/'

def normalizeAbsolutePath (input : String) : Option Path :=
  if isAbsolute input then some ((pieces input).foldl pushPiece []) else none

theorem notMem_of_mem_splitOn {chars : List Char} {c : Char} {piece : List Char}
    (h : piece ∈ chars.splitOn c) : c ∉ piece := by
  induction chars generalizing piece with
  | nil =>
      rw [List.splitOn_nil, List.mem_singleton] at h
      simp [h]
  | cons d chars ih =>
      rw [List.splitOn_cons_eq_if_modifyHead] at h
      split at h
      · rcases List.mem_cons.mp h with rfl | hrest
        · simp
        · exact ih hrest
      · rename_i hd
        cases hsplit : chars.splitOn c with
        | nil => exact absurd hsplit (List.splitOn_ne_nil c chars)
        | cons first rest =>
            rw [hsplit, List.modifyHead_cons, List.mem_cons] at h
            rcases h with rfl | hrest
            · have hfirst := ih (hsplit ▸ List.mem_cons_self)
              have hne : c ≠ d := fun hc => hd (beq_iff_eq.mpr hc.symm)
              simp [hne, hfirst]
            · exact ih (hsplit ▸ List.mem_cons_of_mem first hrest)

theorem pushPiece_segment (h : Segment x) : pushPiece p x = p ++ [x] := by
  obtain ⟨hempty, hdot, hdots, -⟩ := h
  unfold pushPiece
  rw [if_neg (not_or.mpr ⟨hempty, hdot⟩), if_neg hdots]

theorem foldl_pushPiece_segments {rest : Path} (h : ∀ x ∈ rest, Segment x) :
    rest.foldl pushPiece p = p ++ rest := by
  induction rest generalizing p with
  | nil => simp
  | cons x rest ih =>
      rw [List.foldl_cons, pushPiece_segment (h x List.mem_cons_self),
        ih fun y hy => h y (List.mem_cons_of_mem x hy)]
      simp

theorem segments_pushPiece (h : ∀ y ∈ p, Segment y) (hx : '/' ∉ x.toList) :
    ∀ y ∈ pushPiece p x, Segment y := by
  unfold pushPiece
  split
  · exact h
  · rename_i hkept
    split
    · exact fun y hy => h y (List.dropLast_subset p hy)
    · rename_i hdots
      obtain ⟨hempty, hdot⟩ := not_or.mp hkept
      intro y hy
      rcases List.mem_append.mp hy with hold | hnew
      · exact h y hold
      · rw [List.mem_singleton.mp hnew]
        exact ⟨hempty, hdot, hdots, hx⟩

theorem segments_foldl_pushPiece {rest : List String} (h : ∀ y ∈ p, Segment y)
    (hrest : ∀ x ∈ rest, '/' ∉ x.toList) : ∀ y ∈ rest.foldl pushPiece p, Segment y := by
  induction rest generalizing p with
  | nil => exact h
  | cons x rest ih =>
      exact ih (segments_pushPiece h (hrest x List.mem_cons_self))
        fun y hy => hrest y (List.mem_cons_of_mem x hy)

theorem notMem_of_mem_pieces (h : x ∈ pieces text) : '/' ∉ x.toList := by
  obtain ⟨chars, hmem, rfl⟩ := List.mem_map.mp h
  rw [String.toList_ofList]
  exact notMem_of_mem_splitOn hmem

theorem segments_of_normalize (h : normalizeAbsolutePath text = some p) :
    ∀ x ∈ p, Segment x := by
  unfold normalizeAbsolutePath at h
  split at h
  · cases h
    exact segments_foldl_pushPiece (by simp) fun x => notMem_of_mem_pieces
  · cases h

theorem toList_pathText (p : Path) :
    (pathText p).toList = '/' :: ['/'].intercalate (p.map String.toList) := by
  unfold pathText
  rw [String.toList_append, String.toList_intercalate]
  rfl

theorem pieces_intercalate {rest : List String} (hne : rest ≠ [])
    (h : ∀ x ∈ rest, '/' ∉ x.toList) : pieces ("/".intercalate rest) = rest := by
  have hsplit : (['/'].intercalate (rest.map String.toList)).splitOn '/' =
      rest.map String.toList := by
    apply List.splitOn_intercalate
    · intro chars hmem
      obtain ⟨x, hx, rfl⟩ := List.mem_map.mp hmem
      exact h x hx
    · simpa using hne
  unfold pieces
  rw [String.toList_intercalate]
  change ((['/'].intercalate (rest.map String.toList)).splitOn '/').map String.ofList = rest
  rw [hsplit, List.map_map]
  simp [Function.comp_def]

theorem pieces_join (left right : String) :
    pieces (left ++ "/" ++ right) = pieces left ++ pieces right := by
  unfold pieces
  rw [String.toList_append, String.toList_append]
  change ((left.toList ++ ['/'] ++ right.toList).splitOn '/').map String.ofList = _
  rw [List.append_assoc, List.singleton_append, List.splitOn_append_cons_self, List.map_append]

theorem foldl_pieces_pathText (h : ∀ x ∈ p, Segment x) :
    (pieces (pathText p)).foldl pushPiece [] = p := by
  have hjoin : pathText p = "" ++ "/" ++ "/".intercalate p := by
    simp [pathText]
  have hempty : pieces "" = [""] := by decide
  have hpush : pushPiece [] "" = [] := rfl
  rw [hjoin, pieces_join, List.foldl_append, hempty, List.foldl_cons, List.foldl_nil, hpush]
  by_cases hnil : p = []
  · subst hnil
    rw [String.intercalate_nil, hempty]
    rfl
  · rw [pieces_intercalate hnil fun x hx => (h x hx).2.2.2, foldl_pushPiece_segments h]
    simp

theorem isAbsolute_pathText (p : Path) : isAbsolute (pathText p) = true := by
  unfold isAbsolute
  rw [toList_pathText]
  rfl

theorem normalize_pathText (h : ∀ x ∈ p, Segment x) :
    normalizeAbsolutePath (pathText p) = some p := by
  unfold normalizeAbsolutePath
  rw [if_pos (isAbsolute_pathText p), foldl_pieces_pathText h]

theorem pathText_inj {q : Path} (hp : ∀ x ∈ p, Segment x) (hq : ∀ x ∈ q, Segment x)
    (h : pathText p = pathText q) : p = q := by
  have hnormal := normalize_pathText hp
  rw [h, normalize_pathText hq] at hnormal
  exact (Option.some.inj hnormal).symm

theorem normalize_join (h : ∀ x ∈ parent, Segment x) :
    normalizeAbsolutePath (pathText parent ++ "/" ++ text) =
      some ((pieces text).foldl pushPiece parent) := by
  have habsolute : isAbsolute (pathText parent ++ "/" ++ text) = true := by
    unfold isAbsolute
    rw [String.toList_append, String.toList_append, toList_pathText]
    rfl
  unfold normalizeAbsolutePath
  rw [if_pos habsolute, pieces_join, List.foldl_append, foldl_pieces_pathText h]

theorem pathText_append (hne : parent ≠ []) (x : String) :
    pathText (parent ++ [x]) = pathText parent ++ "/" ++ x := by
  unfold pathText
  rw [String.intercalate_append_of_ne_nil hne (by simp), String.intercalate_singleton]
  simp [String.append_assoc]

theorem pathText_ne_append_slash (hne : p ≠ []) (h : ∀ x ∈ p, Segment x) (front : String) :
    pathText p ≠ front ++ "/" := by
  obtain ⟨dir, x, rfl⟩ := (List.eq_nil_or_concat' p).resolve_left hne
  have hx := h x (by simp)
  have hends : ∃ before, pathText (dir ++ [x]) = before ++ x := by
    rcases eq_or_ne dir [] with rfl | hdir
    · exact ⟨"/", by simp [pathText]⟩
    · exact ⟨_, pathText_append hdir x⟩
  obtain ⟨before, hbefore⟩ := hends
  have hnonempty : x.toList ≠ [] := by simpa using hx.1
  intro htext
  have hlast := congrArg (fun t => t.toList.getLast?) (hbefore.symm.trans htext)
  rw [String.toList_append, String.toList_append,
    List.getLast?_append_of_ne_nil _ hnonempty] at hlast
  have hslash : x.toList.getLast? = some '/' := by
    rw [hlast]
    exact List.getLast?_concat
  exact hx.2.2.2 (List.mem_of_getLast? hslash)

theorem count_pathText (hne : p ≠ []) (h : ∀ x ∈ p, Segment x) :
    (pathText p).toList.count '/' = p.length := by
  rw [toList_pathText, List.count_cons_self]
  induction p with
  | nil => exact absurd rfl hne
  | cons x rest ih =>
      have hx : x.toList.count '/' = 0 := List.count_eq_zero.mpr (h x List.mem_cons_self).2.2.2
      cases rest with
      | nil => simp [hx]
      | cons y rest =>
          have hrest := ih (by simp) fun z hz => h z (List.mem_cons_of_mem x hz)
          rw [List.map_cons, List.map_cons, List.intercalate_cons_cons, ← List.map_cons,
            List.count_append, List.count_append, hx, List.count_singleton_self, List.length_cons,
            ← hrest]
          omega

def weight (names : List String) : Nat := (names.map fun x => x.length + 1).sum

theorem weight_append (names more : List String) :
    weight (names ++ more) = weight names + weight more := by
  unfold weight
  rw [List.map_append, List.sum_append]

theorem sum_length_splitOn (chars : List Char) :
    ((chars.splitOn '/').map fun piece => piece.length + 1).sum = chars.length + 1 := by
  induction chars with
  | nil => rfl
  | cons c chars ih =>
      rw [List.splitOn_cons_eq_if_modifyHead]
      split
      · rw [List.map_cons, List.sum_cons, ih]
        simp
        omega
      · cases hsplit : chars.splitOn '/' with
        | nil => exact absurd hsplit (List.splitOn_ne_nil '/' chars)
        | cons first rest =>
            rw [hsplit, List.map_cons, List.sum_cons] at ih
            rw [List.modifyHead_cons, List.map_cons, List.sum_cons, List.length_cons,
              List.length_cons]
            omega

theorem weight_pieces (text : String) : weight (pieces text) = text.length + 1 := by
  unfold weight pieces
  rw [List.map_map]
  have hlength : ((fun x : String => x.length + 1) ∘ String.ofList) =
      fun piece => piece.length + 1 := by
    funext piece
    rw [Function.comp_apply, String.length_ofList]
  rw [hlength, sum_length_splitOn, String.length_toList]

theorem weight_dropLast_le (p : Path) : weight p.dropLast ≤ weight p := by
  rcases List.eq_nil_or_concat' p with rfl | ⟨dir, x, rfl⟩
  · exact Nat.le_refl _
  · rw [List.dropLast_concat, weight_append]
    exact Nat.le_add_right _ _

/-- A stack that still has `base :: fixed` at its bottom, or has lost it to a piece `..`, when
names of weight `spent` have been read on top of it. -/
def Descends (base fixed : String) (spent : Nat) (stack : Path) : Prop :=
  (∃ rest, stack = [base, fixed] ++ rest) ∨ weight stack + 2 ≤ spent + base.length

theorem descends_foldl {base fixed : String} {spent : Nat} {rest : List String}
    (h : Descends base fixed spent p) :
    Descends base fixed (spent + weight rest) (rest.foldl pushPiece p) := by
  induction rest generalizing p spent with
  | nil => exact h
  | cons x rest ih =>
      have hspent : spent + weight (x :: rest) = spent + (x.length + 1) + weight rest := by
        unfold weight
        rw [List.map_cons, List.sum_cons]
        omega
      rw [hspent, List.foldl_cons]
      apply ih
      unfold pushPiece
      split
      · rcases h with h | h
        · exact .inl h
        · right
          omega
      · split
        · rename_i hdots
          have hx : x.length = 2 := by rw [hdots]; rfl
          rcases h with ⟨rest, rfl⟩ | h
          · rcases List.eq_nil_or_concat' rest with rfl | ⟨dir, y, rfl⟩
            · right
              change base.length + 1 + 2 ≤ _
              omega
            · left
              refine ⟨dir, ?_⟩
              rw [← List.append_assoc, List.dropLast_concat]
          · right
            have hdrop := weight_dropLast_le p
            omega
        · rcases h with ⟨rest, rfl⟩ | h
          · left
            exact ⟨rest ++ [x], List.append_assoc _ _ _⟩
          · right
            rw [weight_append]
            have hone : weight [x] = x.length + 1 := rfl
            omega

/-- How far the two loops of `vsyscall_make_readlink_relative_target` agree. -/
def commonLength : Path → Path → Nat
  | x :: xs, y :: ys => if x = y then commonLength xs ys + 1 else 0
  | _, _ => 0

theorem take_commonLength (xs ys : Path) :
    xs.take (commonLength xs ys) = ys.take (commonLength xs ys) := by
  fun_induction commonLength xs ys with
  | case1 x xs ys ih => rw [List.take_succ_cons, List.take_succ_cons, ih]
  | case2 x xs y ys hne => simp
  | case3 xs ys hmatch => simp

/-- `vsyscall_make_readlink_relative_target` of normalized paths. -/
def relativeTarget (link target : Path) : String :=
  let common := commonLength link.dropLast target
  let rel := List.replicate (link.dropLast.length - common) ".." ++ target.drop common
  if rel = [] then "." else "/".intercalate rel

theorem foldl_pushPiece_dots (n : Nat) :
    (List.replicate n "..").foldl pushPiece p = p.take (p.length - n) := by
  induction n generalizing p with
  | zero => simp
  | succ n ih =>
      have hpush : pushPiece p ".." = p.dropLast := rfl
      rw [List.replicate_succ, List.foldl_cons, hpush, ih, List.dropLast_eq_take, List.take_take,
        List.length_take]
      congr 1
      omega

theorem foldl_relative (h : ∀ x ∈ target, Segment x) {common : Nat}
    (hcommon : parent.take common = target.take common) (hle : common ≤ parent.length) :
    (List.replicate (parent.length - common) ".." ++ target.drop common).foldl pushPiece parent =
      target := by
  rw [List.foldl_append, foldl_pushPiece_dots,
    foldl_pushPiece_segments fun x hx => h x (List.drop_subset common target hx),
    Nat.sub_sub_self hle, hcommon, List.take_append_drop]

theorem commonLength_le (xs ys : Path) : commonLength xs ys ≤ xs.length := by
  fun_induction commonLength xs ys with
  | case1 x xs ys ih => exact Nat.succ_le_succ ih
  | case2 x xs y ys hne => exact Nat.zero_le _
  | case3 xs ys hmatch => exact Nat.zero_le _

/-- The relative text leads from the directory of the link to the target. -/
theorem foldl_pieces_relativeTarget (h : ∀ x ∈ target, Segment x) :
    (pieces (relativeTarget link target)).foldl pushPiece link.dropLast = target := by
  have hcommon := take_commonLength link.dropLast target
  have hleads := foldl_relative h hcommon (commonLength_le link.dropLast target)
  unfold relativeTarget
  dsimp only
  split
  · rename_i hnil
    rw [hnil, List.foldl_nil] at hleads
    have hdot : pieces "." = ["."] := by decide
    rw [hdot, ← hleads]
    rfl
  · rename_i hne
    rw [pieces_intercalate hne, hleads]
    intro x hx
    rcases List.mem_append.mp hx with hdots | hrest
    · rw [List.eq_of_mem_replicate hdots]
      decide
    · exact (h x (List.drop_subset _ target hrest)).2.2.2

theorem isAbsolute_append (left right : String) (h : left ≠ "") :
    isAbsolute (left ++ right) = isAbsolute left := by
  unfold isAbsolute
  rw [String.toList_append, List.head?_append_of_ne_nil]
  simpa using h

theorem not_isAbsolute_of_notMem (h : '/' ∉ text.toList) : isAbsolute text = false := by
  unfold isAbsolute
  rw [beq_eq_false_iff_ne]
  intro hhead
  exact h (List.mem_of_head? hhead)

theorem not_isAbsolute_relativeTarget (h : ∀ x ∈ target, Segment x) :
    isAbsolute (relativeTarget link target) = false := by
  unfold relativeTarget
  dsimp only
  split
  · decide
  · rename_i hne
    obtain ⟨first, rest, hrel⟩ := List.exists_cons_of_ne_nil hne
    have hfirst : first ≠ "" ∧ '/' ∉ first.toList := by
      have hmem := hrel ▸ List.mem_cons_self (a := first) (l := rest)
      rcases List.mem_append.mp hmem with hdots | hrest
      · rw [List.eq_of_mem_replicate hdots]
        decide
      · have hsegment := h first (List.drop_subset _ target hrest)
        exact ⟨hsegment.1, hsegment.2.2.2⟩
    have hno := not_isAbsolute_of_notMem hfirst.2
    rw [hrel]
    cases rest with
    | nil =>
        rw [String.intercalate_singleton]
        exact hno
    | cons next rest =>
        rw [String.intercalate_cons_cons, String.append_assoc,
          isAbsolute_append _ _ hfirst.1]
        exact hno

end HostPimSim.Vfile.Namespace
