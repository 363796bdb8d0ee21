import HostPimSim.Vfile.Dispatch

/-! The loops over a path text, by index: the normalizer, the components of a path, and the
relative target of a link as they compute it. -/
namespace HostPimSim.Vfile.Namespace

def skipSlashes (input : List Char) (i : Nat) : Nat :=
  if h : i < input.length then
    if input[i] = '/' then skipSlashes input (i + 1) else i
  else i
termination_by input.length - i

def segmentEnd (input : List Char) (j : Nat) : Nat :=
  if h : j < input.length then
    if input[j] = '/' then j else segmentEnd input (j + 1)
  else j
termination_by input.length - j

theorem le_skipSlashes (input : List Char) (i : Nat) : i ≤ skipSlashes input i := by
  fun_induction skipSlashes input i with
  | case1 i h hslash ih => omega
  | case2 i h hslash => omega
  | case3 i h => omega

theorem le_segmentEnd (input : List Char) (j : Nat) : j ≤ segmentEnd input j := by
  fun_induction segmentEnd input j with
  | case1 j h hslash => omega
  | case2 j h hslash ih => omega
  | case3 j h => omega

theorem getElem_skipSlashes {input : List Char} {i : Nat} (h : skipSlashes input i < input.length) :
    input[skipSlashes input i] ≠ '/' := by
  fun_induction skipSlashes input i with
  | case1 i h' hslash ih => exact ih h
  | case2 i h' hslash => exact hslash
  | case3 i h' => exact absurd h h'

theorem lt_segmentEnd {input : List Char} {i : Nat} (h : i < input.length)
    (hslash : input[i] ≠ '/') : i < segmentEnd input i := by
  rw [segmentEnd, dif_pos h, if_neg hslash]
  exact le_segmentEnd input (i + 1)

def scanSegments (visit : Path → String → Path) (input : List Char) (i : Nat) (acc : Path) :
    Path :=
  if i < input.length then
    if _ : skipSlashes input i < input.length then
      let start := skipSlashes input i
      let j := segmentEnd input start
      scanSegments visit input j (visit acc (String.ofList ((input.drop start).take (j - start))))
    else acc
  else acc
termination_by input.length - i
decreasing_by
  have hskip := le_skipSlashes input i
  have hstart : skipSlashes input i < input.length := by assumption
  have hend := lt_segmentEnd hstart (getElem_skipSlashes hstart)
  omega

/-- `.` is no segment to keep, and `..` takes the last one away. -/
def pushSegment (stack : Path) (segment : String) : Path :=
  if segment = "." then stack
  else if segment = ".." then stack.dropLast
  else stack ++ [segment]

def appendSegments (normalized : String) : Path → String
  | [] => normalized
  | [x] => normalized ++ x
  | x :: y :: rest => appendSegments (normalized ++ x ++ "/") (y :: rest)

def vfileNormalizeAbsolutePath (input : String) : Option String :=
  if isAbsolute input then
    some (appendSegments "/" (scanSegments pushSegment input.toList 0 []))
  else none

def splitAbsolutePathComponents (absPath : String) : Path :=
  scanSegments (fun parts segment => parts ++ [segment]) absPath.toList 0 []

/-- What stands between slashes, unless it is nothing. -/
def segmentsOf (chars : List Char) : Path :=
  ((chars.splitOn '/').filter (· ≠ [])).map String.ofList

theorem segmentsOf_slash (chars : List Char) : segmentsOf ('/' :: chars) = segmentsOf chars := by
  unfold segmentsOf
  rw [List.splitOn_cons_eq_if_modifyHead, if_pos (by simp)]
  simp

theorem segmentsOf_append {segment rest : List Char} (hne : segment ≠ []) (hno : '/' ∉ segment)
    (hrest : rest = [] ∨ ∃ after, rest = '/' :: after) :
    segmentsOf (segment ++ rest) = String.ofList segment :: segmentsOf rest := by
  rcases hrest with rfl | ⟨after, rfl⟩
  · unfold segmentsOf
    rw [List.append_nil, List.splitOn_eq_singleton hno]
    simp [hne]
  · rw [segmentsOf_slash]
    unfold segmentsOf
    rw [List.splitOn_append_cons_self_of_not_mem hno, List.filter_cons_of_pos (by simpa using hne)]
    rfl

theorem segmentsOf_skipSlashes (input : List Char) (i : Nat) :
    segmentsOf (input.drop (skipSlashes input i)) = segmentsOf (input.drop i) := by
  fun_induction skipSlashes input i with
  | case1 i h hslash ih => rw [ih, List.drop_eq_getElem_cons h, hslash, segmentsOf_slash]
  | case2 i h hslash => rfl
  | case3 i h => rfl

theorem drop_segmentEnd (input : List Char) (i : Nat) :
    input.drop i = (input.drop i).take (segmentEnd input i - i) ++ input.drop (segmentEnd input i) := by
  have hle := le_segmentEnd input i
  conv_lhs => rw [← List.take_append_drop (segmentEnd input i - i) (input.drop i)]
  rw [List.drop_drop, Nat.add_sub_cancel' hle]

theorem notMem_segment (input : List Char) (i : Nat) :
    '/' ∉ (input.drop i).take (segmentEnd input i - i) := by
  fun_induction segmentEnd input i with
  | case1 j h hslash => simp
  | case2 j h hslash ih =>
      have hle := le_segmentEnd input (j + 1)
      have hlen : segmentEnd input (j + 1) - j = (segmentEnd input (j + 1) - (j + 1)) + 1 := by
        omega
      rw [List.drop_eq_getElem_cons h, hlen, List.take_succ_cons, List.mem_cons, not_or]
      exact ⟨fun heq => hslash heq.symm, ih⟩
  | case3 j h => simp

theorem drop_at_segmentEnd (input : List Char) (i : Nat) :
    input.drop (segmentEnd input i) = [] ∨
      ∃ after, input.drop (segmentEnd input i) = '/' :: after := by
  fun_induction segmentEnd input i with
  | case1 j h hslash => exact .inr ⟨_, by rw [List.drop_eq_getElem_cons h, hslash]⟩
  | case2 j h hslash ih => exact ih
  | case3 j h => exact .inl (List.drop_of_length_le (Nat.not_lt.mp h))

theorem segmentsOf_segment {input : List Char} {i : Nat} (h : i < input.length)
    (hslash : input[i] ≠ '/') :
    segmentsOf (input.drop i) =
      String.ofList ((input.drop i).take (segmentEnd input i - i)) ::
        segmentsOf (input.drop (segmentEnd input i)) := by
  have hend := lt_segmentEnd h hslash
  have hne : (input.drop i).take (segmentEnd input i - i) ≠ [] := by
    rw [ne_eq, List.take_eq_nil_iff, List.drop_eq_nil_iff]
    omega
  conv_lhs => rw [drop_segmentEnd input i]
  exact segmentsOf_append hne (notMem_segment input i) (drop_at_segmentEnd input i)

theorem scanSegments_eq (visit : Path → String → Path) (input : List Char) (i : Nat) (acc : Path) :
    scanSegments visit input i acc = (segmentsOf (input.drop i)).foldl visit acc := by
  fun_induction scanSegments visit input i acc with
  | case1 i acc hi h start j ih =>
      rw [ih, ← segmentsOf_skipSlashes input i, segmentsOf_segment h (getElem_skipSlashes h)]
      rfl
  | case2 i acc hi h =>
      rw [← segmentsOf_skipSlashes input i, List.drop_of_length_le (Nat.not_lt.mp h)]
      rfl
  | case3 i acc hi =>
      rw [List.drop_of_length_le (Nat.not_lt.mp hi)]
      rfl

theorem foldl_pushPiece_filter (pieces : List (List Char)) (stack : Path) :
    (pieces.map String.ofList).foldl pushPiece stack =
      ((pieces.filter (· ≠ [])).map String.ofList).foldl pushSegment stack := by
  induction pieces generalizing stack with
  | nil => rfl
  | cons piece rest ih =>
      by_cases hnil : piece = []
      · rw [List.filter_cons_of_neg (by simp [hnil]), ← ih, hnil]
        rfl
      · have hne : String.ofList piece ≠ "" := by simpa using hnil
        have hpush : pushPiece stack (String.ofList piece) =
            pushSegment stack (String.ofList piece) := by
          unfold pushPiece pushSegment
          simp only [hne, false_or]
        rw [List.filter_cons_of_pos (by simpa using hnil), List.map_cons, List.map_cons,
          List.foldl_cons, List.foldl_cons, hpush, ih]

theorem foldl_pieces_eq (text : String) (stack : Path) :
    (pieces text).foldl pushPiece stack = (segmentsOf text.toList).foldl pushSegment stack :=
  foldl_pushPiece_filter (text.toList.splitOn '/') stack

theorem appendSegments_eq (normalized : String) (p : Path) :
    appendSegments normalized p = normalized ++ "/".intercalate p := by
  fun_induction appendSegments normalized p with
  | case1 normalized => simp
  | case2 normalized x => simp
  | case3 normalized x y rest ih =>
      rw [ih, String.intercalate_cons_cons]
      simp [String.append_assoc]

theorem vfileNormalizeAbsolutePath_eq (input : String) :
    vfileNormalizeAbsolutePath input = (normalizeAbsolutePath input).map pathText := by
  unfold vfileNormalizeAbsolutePath normalizeAbsolutePath
  split
  · rw [scanSegments_eq, List.drop_zero, ← foldl_pieces_eq, appendSegments_eq]
    rfl
  · rfl

theorem isAbsolute_join {s : String} (h : isAbsolute s = true) (r : String) :
    isAbsolute (s ++ "/" ++ r) = true := by
  have hs : s ≠ "" := by
    rintro rfl
    cases h
  rw [String.append_assoc, isAbsolute_append _ _ hs]
  exact h

theorem normalizeAbsolutePath_join {s : String} {p : Path}
    (h : normalizeAbsolutePath s = some p) (r : String) :
    normalizeAbsolutePath (s ++ "/" ++ r) = some ((pieces r).foldl pushPiece p) := by
  unfold normalizeAbsolutePath at h
  split at h
  · rename_i habsolute
    obtain rfl := Option.some.inj h
    unfold normalizeAbsolutePath
    rw [if_pos (isAbsolute_join habsolute r), pieces_join, List.foldl_append]
  · cases h

theorem normalizeAbsolutePath_joinOwned {p : Path} (hp : ∀ x ∈ p, Segment x) {entry : OpenFd}
    (hentry : entry.virtualPath = pathText p) (r : String) :
    normalizeAbsolutePath (joinOwned entry r) = some ((pieces r).foldl pushPiece p) := by
  unfold joinOwned
  split
  · rename_i hroot
    obtain rfl : p = [] := by
      refine pathText_inj hp (by simp) ?_
      rw [← hentry, hroot]
      rfl
    have hslash : entry.virtualPath ++ r = "" ++ "/" ++ r := by
      rw [hroot]
      rfl
    have habsolute : isAbsolute ("" ++ "/" ++ r) = true :=
      isAbsolute_append ("" ++ "/") r (by decide)
    unfold normalizeAbsolutePath
    rw [hslash, pieces_join, List.foldl_append, if_pos habsolute]
    rfl
  · rw [hentry]
    exact normalize_join hp

theorem hasTrailingSlash_join (s : String) {r : String} (h : r ≠ "") :
    hasTrailingSlash (s ++ "/" ++ r) = hasTrailingSlash r := by
  have hne : r.toList ≠ [] := by simpa using h
  unfold hasTrailingSlash
  rw [String.toList_append, List.getLast?_append_of_ne_nil _ hne]

/-- A path is normal if it is made of segments, and of nothing else. -/
def Normal (text : String) : Prop := ∃ p : Path, text = pathText p ∧ ∀ x ∈ p, Segment x

/-- Through a directory whose path is `dir`, a relative text resolves as `dir/r` does. -/
def ResolvesBelow (s dir : String) : Prop :=
  ∀ (st : VsyscallState) (dfd other : Int) (entry : OpenFd) (r : String),
    Table.find st.fdTable dfd = some entry → entry.type.isDir = true →
    entry.virtualPath = dir → dfd ≠ atFdcwd → r ≠ "" → isAbsolute r = false →
    ∃ p, resolvePathAt st dfd (some r) = .resolved p true (hasTrailingSlash r) ∧
      resolvePathAt st other (some (s ++ "/" ++ r)) = .resolved p false (hasTrailingSlash r) ∧
      vfileNormalizeAbsolutePath (s ++ "/" ++ r) = some (pathText p)

theorem resolvesBelow_normal {s : String} {p : Path} (h : normalizeAbsolutePath s = some p) :
    ResolvesBelow s (pathText p) := by
  intro st dfd other entry r hfind hdir hpath hdfd hr hrelative
  have hp := segments_of_normalize h
  have habsolute : isAbsolute s = true := by
    unfold normalizeAbsolutePath at h
    split at h
    · assumption
    · cases h
  have hjoin := normalizeAbsolutePath_join h r
  have hjoined : s ++ "/" ++ r ≠ "" := by
    intro hnil
    have hjoinAbsolute := isAbsolute_join habsolute r
    rw [hnil] at hjoinAbsolute
    cases hjoinAbsolute
  have hpathText : entry.virtualPath ≠ "" := by
    rw [hpath]
    intro hnil
    have htext := isAbsolute_pathText p
    rw [hnil] at htext
    cases htext
  refine ⟨(pieces r).foldl pushPiece p, ?_, ?_, ?_⟩
  · unfold resolvePathAt
    dsimp only
    rw [if_neg hr, hrelative, if_neg Bool.false_ne_true, if_neg hdfd, hfind]
    dsimp only
    rw [if_neg (by simp [hdir, hpathText]), normalizeAbsolutePath_joinOwned hp hpath]
  · unfold resolvePathAt
    dsimp only
    rw [if_neg hjoined, if_pos (isAbsolute_join habsolute r), hjoin,
      hasTrailingSlash_join s hr]
  · rw [vfileNormalizeAbsolutePath_eq, hjoin]
    rfl

/-- The normalizer folds the segments of an absolute text, gives a normal text which it
leaves alone, and agrees with resolution from a directory. -/
theorem normalize_canonical (s : String) (habsolute : isAbsolute s = true) :
    ∃ t, vfileNormalizeAbsolutePath s = some t ∧ Normal t ∧
      t = pathText ((segmentsOf s.toList).foldl pushSegment []) ∧
      vfileNormalizeAbsolutePath t = some t ∧
      (∀ r, vfileNormalizeAbsolutePath (t ++ "/" ++ r) = vfileNormalizeAbsolutePath (s ++ "/" ++ r)) ∧
      ResolvesBelow s t := by
  have hnormal : normalizeAbsolutePath s = some ((pieces s).foldl pushPiece []) := if_pos habsolute
  have hp := segments_of_normalize hnormal
  refine ⟨pathText ((pieces s).foldl pushPiece []), ?_, ⟨_, rfl, hp⟩, ?_, ?_, ?_, ?_⟩
  · rw [vfileNormalizeAbsolutePath_eq, hnormal]
    rfl
  · rw [foldl_pieces_eq]
  · rw [vfileNormalizeAbsolutePath_eq, normalize_pathText hp]
    rfl
  · intro r
    rw [vfileNormalizeAbsolutePath_eq, vfileNormalizeAbsolutePath_eq, normalize_join hp,
      normalizeAbsolutePath_join hnormal]
  · exact resolvesBelow_normal hnormal

theorem normalize_canonical_dots :
    ∃ t, vfileNormalizeAbsolutePath "/..//dev/a/.././b/" = some t ∧ Normal t ∧
      t = pathText ((segmentsOf "/..//dev/a/.././b/".toList).foldl pushSegment []) ∧
      vfileNormalizeAbsolutePath t = some t ∧
      (∀ r, vfileNormalizeAbsolutePath (t ++ "/" ++ r) =
        vfileNormalizeAbsolutePath ("/..//dev/a/.././b/" ++ "/" ++ r)) ∧
      ResolvesBelow "/..//dev/a/.././b/" t :=
  normalize_canonical "/..//dev/a/.././b/" (by decide)

/-- `rfind('/', i - 1)` -/
def rfindSlash (chars : List Char) : Nat → Option Nat
  | 0 => none
  | i + 1 => if chars[i]? = some '/' then some i else rfindSlash chars i

def linkParent (linkNorm : String) : String :=
  match rfindSlash linkNorm.toList linkNorm.toList.length with
  | none => "/"
  | some slash => if slash = 0 then "/" else String.ofList (linkNorm.toList.take slash)

def commonFrom (fromParts toParts : Path) (common : Nat) : Nat :=
  if h : common < fromParts.length ∧ common < toParts.length then
    if fromParts[common] = toParts[common] then commonFrom fromParts toParts (common + 1)
    else common
  else common
termination_by fromParts.length - common

def appendPart (rel part : String) : String := (if rel = "" then rel else rel ++ "/") ++ part

def vsyscallMakeReadlinkRelativeTarget (linkPath targetAbs : String) : Option String :=
  match vfileNormalizeAbsolutePath linkPath, vfileNormalizeAbsolutePath targetAbs with
  | some linkNorm, some targetNorm =>
      let fromParts := splitAbsolutePathComponents (linkParent linkNorm)
      let toParts := splitAbsolutePathComponents targetNorm
      let common := commonFrom fromParts toParts 0
      let up := (fromParts.drop common).foldl (fun rel _ => appendPart rel "..") ""
      let rel := (toParts.drop common).foldl appendPart up
      some (if rel = "" then "." else rel)
  | _, _ => none

theorem segmentsOf_pathText {p : Path} (h : ∀ x ∈ p, Segment x) :
    segmentsOf (pathText p).toList = p := by
  rw [toList_pathText, segmentsOf_slash]
  rcases eq_or_ne p [] with rfl | hne
  · rfl
  · unfold segmentsOf
    have hsplit : (['/'].intercalate (p.map String.toList)).splitOn '/' = p.map String.toList := by
      apply List.splitOn_intercalate
      · intro chars hmem
        obtain ⟨x, hx, rfl⟩ := List.mem_map.mp hmem
        exact (h x hx).2.2.2
      · simpa using hne
    have hkept : (p.map String.toList).filter (· ≠ []) = p.map String.toList := by
      rw [List.filter_eq_self]
      intro chars hmem
      obtain ⟨x, hx, rfl⟩ := List.mem_map.mp hmem
      simpa using (h x hx).1
    rw [hsplit, hkept, List.map_map]
    simp [Function.comp_def]

theorem foldl_concat (parts acc : Path) :
    parts.foldl (fun acc part => acc ++ [part]) acc = acc ++ parts := by
  induction parts generalizing acc with
  | nil => simp
  | cons part rest ih =>
      rw [List.foldl_cons, ih]
      simp

theorem splitAbsolutePathComponents_pathText {p : Path} (h : ∀ x ∈ p, Segment x) :
    splitAbsolutePathComponents (pathText p) = p := by
  unfold splitAbsolutePathComponents
  rw [scanSegments_eq, List.drop_zero, segmentsOf_pathText h, foldl_concat, List.nil_append]

theorem rfindSlash_append (front : List Char) {back : List Char} (h : '/' ∉ back) (n : Nat)
    (hn : n ≤ back.length) :
    rfindSlash (front ++ '/' :: back) (front.length + 1 + n) = some front.length := by
  induction n with
  | zero =>
      unfold rfindSlash
      rw [if_pos (by simp)]
  | succ n ih =>
      have hget : (front ++ '/' :: back)[front.length + 1 + n]? = back[n]? := by
        rw [Nat.add_assoc, List.getElem?_append_right (Nat.le_add_right _ _),
          Nat.add_sub_cancel_left, Nat.add_comm 1 n, List.getElem?_cons_succ]
      rw [← Nat.add_assoc, rfindSlash, if_neg, ih (Nat.le_of_succ_le hn)]
      intro hslash
      rw [hget] at hslash
      exact h (List.mem_of_getElem? hslash)

theorem linkParent_append {front : String} {x : String} (h : '/' ∉ x.toList) :
    linkParent (front ++ "/" ++ x) = if front = "" then "/" else front := by
  have hchars : (front ++ "/" ++ x).toList = front.toList ++ '/' :: x.toList := by
    rw [String.toList_append, String.toList_append, List.append_assoc]
    rfl
  have hlength : (front.toList ++ '/' :: x.toList).length =
      front.toList.length + 1 + x.toList.length := by
    rw [List.length_append, List.length_cons]
    omega
  unfold linkParent
  rw [hchars, hlength, rfindSlash_append front.toList h _ (Nat.le_refl _)]
  dsimp only
  rw [List.take_left', String.ofList_toList]
  · simp only [List.length_eq_zero_iff, String.toList_eq_nil_iff]
  · rfl

theorem linkParent_pathText {p : Path} (h : ∀ x ∈ p, Segment x) :
    linkParent (pathText p) = pathText p.dropLast := by
  rcases List.eq_nil_or_concat' p with rfl | ⟨dir, x, rfl⟩
  · rfl
  · have hx : '/' ∉ x.toList := (h x (by simp)).2.2.2
    rw [List.dropLast_concat]
    rcases eq_or_ne dir [] with rfl | hdir
    · have htext : pathText ([] ++ [x]) = "" ++ "/" ++ x := by simp [pathText]
      rw [htext, linkParent_append hx]
      rfl
    · have hdirText : pathText dir ≠ "" := by
        intro hnil
        have habsolute := isAbsolute_pathText dir
        rw [hnil] at habsolute
        cases habsolute
      rw [pathText_append hdir, linkParent_append hx, if_neg hdirText]

theorem commonFrom_eq (xs ys : Path) (k : Nat) :
    commonFrom xs ys k = k + commonLength (xs.drop k) (ys.drop k) := by
  fun_induction commonFrom xs ys k with
  | case1 k h heq ih =>
      rw [ih, List.drop_eq_getElem_cons h.1, List.drop_eq_getElem_cons h.2, commonLength,
        if_pos heq]
      omega
  | case2 k h hne =>
      rw [List.drop_eq_getElem_cons h.1, List.drop_eq_getElem_cons h.2, commonLength, if_neg hne,
        Nat.add_zero]
  | case3 k h =>
      rcases Nat.lt_or_ge k xs.length with hlt | hge
      · have hys : ys.length ≤ k := by omega
        rw [List.drop_of_length_le hys]
        cases xs.drop k <;> rfl
      · rw [List.drop_of_length_le hge]
        rfl

theorem foldl_appendPart {parts : Path} (h : ∀ x ∈ parts, x ≠ "") (rel : String) :
    parts.foldl appendPart rel = "/".intercalate (if rel = "" then parts else rel :: parts) := by
  induction parts generalizing rel with
  | nil =>
      split
      · rename_i hrel
        rw [hrel]
        rfl
      · simp
  | cons x rest ih =>
      have hx : x ≠ "" := h x List.mem_cons_self
      have hpart : appendPart rel x ≠ "" := by
        unfold appendPart
        simp [hx]
      rw [List.foldl_cons, ih (fun y hy => h y (List.mem_cons_of_mem x hy)), if_neg hpart]
      unfold appendPart
      split
      · rename_i hrel
        rw [hrel]
        simp
      · rw [String.intercalate_cons_cons]
        cases rest with
        | nil => simp
        | cons y rest =>
            rw [String.intercalate_cons_cons, String.intercalate_cons_cons]
            simp only [String.append_assoc]

theorem foldl_up (parts : Path) (rel : String) :
    parts.foldl (fun rel _ => appendPart rel "..") rel =
      (List.replicate parts.length "..").foldl appendPart rel := by
  induction parts generalizing rel with
  | nil => rfl
  | cons x rest ih =>
      rw [List.foldl_cons, ih]
      rfl

theorem intercalate_eq_empty_iff {parts : Path} (h : ∀ x ∈ parts, x ≠ "") :
    "/".intercalate parts = "" ↔ parts = [] := by
  constructor
  · intro hempty
    match parts, h, hempty with
    | [], _, _ => rfl
    | [x], h, hempty => exact absurd (by simpa using hempty) (h x List.mem_cons_self)
    | x :: y :: rest, h, hempty =>
        rw [String.intercalate_cons_cons, String.append_assoc, String.append_eq_empty_iff] at hempty
        exact absurd hempty.1 (h x List.mem_cons_self)
  · rintro rfl
    rfl

theorem relativeNames_ne {q : Path} (hq : ∀ x ∈ q, Segment x) (up common : Nat) :
    ∀ x ∈ List.replicate up ".." ++ q.drop common, x ≠ "" := by
  intro x hx
  rcases List.mem_append.mp hx with hdots | hrest
  · rw [List.eq_of_mem_replicate hdots]
    decide
  · exact (hq x (List.drop_subset _ q hrest)).1

theorem relativeTarget_ne {p q : Path} (hq : ∀ x ∈ q, Segment x) : relativeTarget p q ≠ "" := by
  unfold relativeTarget
  dsimp only
  split
  · decide
  · rename_i hne
    intro hempty
    exact hne ((intercalate_eq_empty_iff (relativeNames_ne hq _ _)).mp hempty)

theorem vsyscallMakeReadlinkRelativeTarget_eq {linkPath targetAbs : String} {p q : Path}
    (hlink : normalizeAbsolutePath linkPath = some p)
    (htarget : normalizeAbsolutePath targetAbs = some q) :
    vsyscallMakeReadlinkRelativeTarget linkPath targetAbs = some (relativeTarget p q) := by
  have hp := segments_of_normalize hlink
  have hq := segments_of_normalize htarget
  have hparent : ∀ x ∈ p.dropLast, Segment x := fun x hx => hp x (List.dropLast_subset p hx)
  unfold vsyscallMakeReadlinkRelativeTarget relativeTarget
  rw [vfileNormalizeAbsolutePath_eq, vfileNormalizeAbsolutePath_eq, hlink, htarget]
  dsimp only [Option.map_some]
  rw [linkParent_pathText hp, splitAbsolutePathComponents_pathText hparent,
    splitAbsolutePathComponents_pathText hq, commonFrom_eq, List.drop_zero, List.drop_zero,
    Nat.zero_add, foldl_up, List.length_drop, ← List.foldl_append]
  have hnames := relativeNames_ne hq (p.dropLast.length - commonLength p.dropLast q)
    (commonLength p.dropLast q)
  rw [foldl_appendPart hnames, if_pos rfl]
  simp only [intercalate_eq_empty_iff hnames]

theorem isAbsolute_of_normalize_none {text : String} (h : normalizeAbsolutePath text = none) :
    isAbsolute text = false := by
  unfold normalizeAbsolutePath at h
  split at h
  · cases h
  · rename_i hnot
    simpa using hnot

/-- A relative target is a relative text that leads back from the directory of the link. -/
theorem relative_target_leads_back (linkPath targetAbs : String) :
    match vsyscallMakeReadlinkRelativeTarget linkPath targetAbs with
    | none => isAbsolute linkPath = false ∨ isAbsolute targetAbs = false
    | some rel => rel ≠ "" ∧ isAbsolute rel = false ∧
        ∃ linkNorm targetNorm, vfileNormalizeAbsolutePath linkPath = some linkNorm ∧
          vfileNormalizeAbsolutePath targetAbs = some targetNorm ∧
          vfileNormalizeAbsolutePath (linkParent linkNorm ++ "/" ++ rel) = some targetNorm := by
  cases hlink : normalizeAbsolutePath linkPath with
  | none =>
      unfold vsyscallMakeReadlinkRelativeTarget
      rw [vfileNormalizeAbsolutePath_eq linkPath, hlink]
      exact .inl (isAbsolute_of_normalize_none hlink)
  | some p =>
      cases htarget : normalizeAbsolutePath targetAbs with
      | none =>
          unfold vsyscallMakeReadlinkRelativeTarget
          rw [vfileNormalizeAbsolutePath_eq linkPath, vfileNormalizeAbsolutePath_eq targetAbs,
            hlink, htarget]
          exact .inr (isAbsolute_of_normalize_none htarget)
      | some q =>
          have hp := segments_of_normalize hlink
          have hq := segments_of_normalize htarget
          rw [vsyscallMakeReadlinkRelativeTarget_eq hlink htarget]
          refine ⟨relativeTarget_ne hq, not_isAbsolute_relativeTarget hq, pathText p, pathText q,
            ?_, ?_, ?_⟩
          · rw [vfileNormalizeAbsolutePath_eq, hlink]
            rfl
          · rw [vfileNormalizeAbsolutePath_eq, htarget]
            rfl
          · rw [linkParent_pathText hp, vfileNormalizeAbsolutePath_eq,
              normalize_join fun x hx => hp x (List.dropLast_subset p hx),
              foldl_pieces_relativeTarget hq]
            rfl

end HostPimSim.Vfile.Namespace
