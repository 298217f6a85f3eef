import SuiteRunner.Glob.Pattern
import SuiteRunner.Proofs.PathText

/-! What reading a pattern guarantees of its components. The components are the pieces of the text
split at `/`, less the empty ones and `.`, and none may be `..`: so an accepted pattern has at
least one component, and the text of each is a name a directory can hold.

The reading is also stated rule by rule on the characters of the text (`reading`): one leading
`./` is removed; what is left must not be empty, must not start at `/`, may have no piece that
is `..` or holds `**`, and must have a piece that counts; each piece is then a wildcard exactly
when it holds `*` or `?`. The rules are checked in that order, so the first that fails gives the
error. -/

namespace SuiteRunner.Glob

open PathText Text

@[simp] theorem Segment.text_ofText (s : String) : (Segment.ofText s).text = s := by
  unfold Segment.ofText
  split <;> rfl

namespace Pattern

/-- A text that does not open with `./` is kept whole. -/
theorem trimmed_eq_self {s : String} (h : s.startsWith "./" = false) : trimmed s = s := by
  have hnone : s.dropPrefix? "./" = none := by
    rw [String.dropPrefix?_eq_dropPrefix?_toSlice, String.Slice.dropPrefix?_eq_none_iff]
    simpa using h
  rw [trimmed, hnone]

/-- An accepted pattern keeps its text, and its components are the counted parts, of which there
is one at least and none escapes. -/
theorem parse_eq_ok {source : String} {p : Pattern} (h : parse source = .ok p) :
    p.source = source ∧ p.segments = (parts (trimmed source)).map Segment.ofText ∧
      parts (trimmed source) ≠ [] ∧ ∀ s ∈ parts (trimmed source), escapes s = false := by
  unfold parse at h
  dsimp only at h
  split_ifs at h with hempty hroot hesc hblank
  cases h
  refine ⟨rfl, rfl, by simpa using hblank, ?_⟩
  intro s hs
  simpa using List.any_eq_false.1 (Bool.not_eq_true _ ▸ hesc) s hs

theorem escapes_dotdot : escapes ".." = true := by
  simp [escapes]

/-- A counted part that does not escape is a name. -/
theorem isName_of_mem_parts {rest s : String} (h : s ∈ parts rest) (he : escapes s = false) :
    IsName s := by
  rw [parts, List.mem_filter, splitOn_slash, List.mem_map] at h
  obtain ⟨⟨l, hl, rfl⟩, hcount⟩ := h
  simp only [Bool.and_eq_true, Bool.not_eq_true', bne_iff_ne] at hcount
  refine ⟨?_, hcount.2, fun hdots => ?_, by simpa using not_mem_of_mem_splitOn hl⟩
  · simpa using hcount.1
  · rw [hdots, escapes_dotdot] at he
    exact Bool.noConfusion he

/-- An accepted pattern has a component, and the text of each is a name. -/
theorem segments_of_parse_eq_ok {source : String} {p : Pattern} (h : parse source = .ok p) :
    p.segments ≠ [] ∧ ∀ seg ∈ p.segments, IsName seg.text := by
  obtain ⟨-, hsegs, hne, hesc⟩ := parse_eq_ok h
  rw [hsegs]
  refine ⟨by simpa using hne, ?_⟩
  intro seg hseg
  obtain ⟨s, hs, rfl⟩ := List.mem_map.1 hseg
  rw [Segment.text_ofText]
  exact isName_of_mem_parts hs (hesc s hs)

/-! ### The reading rule by rule -/

/-- The characters of a pattern once one leading `./` is removed. -/
def stripDotSlash : List Char → List Char
  | '.' :: '/' :: t => t
  | t => t

/-- The pieces of a relative path that count: those between slashes that are neither empty
nor `.`. -/
def countedPieces (t : List Char) : List (List Char) :=
  (t.splitOn '/').filter fun c => c ≠ [] ∧ c ≠ ['.']

/-- A piece the reader refuses: `..`, which leaves the tests root, or one holding `**`, which
would reach arbitrarily deep. -/
def Refused (c : List Char) : Prop := c = ['.', '.'] ∨ ['*', '*'] <:+: c

instance : DecidablePred Refused :=
  fun c => inferInstanceAs (Decidable (c = ['.', '.'] ∨ ['*', '*'] <:+: c))

/-- The component a piece reads as: a wildcard when it holds `*` or `?`, else a literal. -/
def segmentOf (c : List Char) : Segment :=
  if '*' ∈ c ∨ '?' ∈ c then .wildcard (String.ofList c) else .literal (String.ofList c)

/-- What reading a pattern answers, the rules checked in order. -/
def reading (s : String) : Except Misconfig Pattern :=
  let t := stripDotSlash s.toList
  if t = [] then .error .emptyPattern
  else if t.head? = some '/' then .error (.absolutePattern s)
  else if ∃ c ∈ countedPieces t, Refused c then .error (.escapingPattern s)
  else if countedPieces t = [] then .error (.blankPattern s)
  else .ok ⟨s, (countedPieces t).map segmentOf⟩

theorem stripDotSlash_eq_self {cs : List Char} (h : ¬ ['.', '/'] <+: cs) :
    stripDotSlash cs = cs := by
  unfold stripDotSlash
  split
  · exact absurd (by simp) h
  · rfl

theorem trimmed_toList (s : String) : (trimmed s).toList = stripDotSlash s.toList := by
  unfold trimmed
  rw [String.dropPrefix?_eq_dropPrefix?_toSlice]
  split
  · rename_i rest h
    have hs := String.Slice.eq_append_of_dropPrefix?_string_eq_some h
    have hl : s.toList = '.' :: '/' :: rest.copy.toList := by
      simpa using congrArg String.toList hs
    rw [hl]
    rfl
  · rename_i h
    rw [String.Slice.dropPrefix?_eq_none_iff] at h
    exact (stripDotSlash_eq_self (by simpa using h)).symm

theorem startsWith_slash_iff (s : String) :
    s.startsWith "/" = true ↔ s.toList.head? = some '/' := by
  cases h : s.toList with
  | nil => simp [h]
  | cons d l =>
    simp only [String.startsWith_string_iff, h, List.head?_cons, Option.some.injEq]
    have hsl : "/".toList = ['/'] := rfl
    rw [hsl, List.cons_prefix_cons, and_iff_left List.nil_prefix]
    exact eq_comm

theorem ofList_eq_dot_iff (c : List Char) : String.ofList c = "." ↔ c = ['.'] :=
  @String.ofList_inj c ['.']

theorem ofList_eq_dots_iff (c : List Char) : String.ofList c = ".." ↔ c = ['.', '.'] :=
  @String.ofList_inj c ['.', '.']

theorem counts_ofList (c : List Char) :
    (!(String.ofList c).isEmpty && String.ofList c != ".") = decide (c ≠ [] ∧ c ≠ ['.']) := by
  have hempty : (String.ofList c).isEmpty = decide (c = []) := by
    rw [Bool.eq_iff_iff, String.isEmpty_iff, decide_eq_true_iff, String.ofList_eq_empty_iff]
  rw [hempty, Bool.eq_iff_iff, Bool.and_eq_true, bne_iff_ne, ne_eq, ofList_eq_dot_iff]
  simp

theorem parts_eq (rest : String) : parts rest = (countedPieces rest.toList).map String.ofList := by
  rw [parts, splitOn_slash, countedPieces, List.filter_map]
  congr 1
  apply List.filter_congr
  intro c _
  exact counts_ofList c

theorem escapes_ofList (c : List Char) : escapes (String.ofList c) = true ↔ Refused c := by
  have hdots : (String.ofList c == "..") = decide (c = ['.', '.']) := by
    rw [Bool.eq_iff_iff, beq_iff_eq, decide_eq_true_iff, ofList_eq_dots_iff]
  rw [escapes, Bool.or_eq_true, hdots, decide_eq_true_iff, decide_eq_true_iff, gt_iff_lt,
    one_lt_length_splitOn_stars, String.toList_ofList]
  rfl

theorem ofText_ofList (c : List Char) : Segment.ofText (String.ofList c) = segmentOf c := by
  simp [Segment.ofText, segmentOf, String.contains_char_eq]

/-- Reading a pattern follows the rules, in their order. Each test `parse` makes on the trimmed text
is the matching rule on its characters. -/
theorem parse_eq_reading (s : String) : parse s = reading s := by
  have ht := trimmed_toList s
  have hempty : (trimmed s).isEmpty = true ↔ stripDotSlash s.toList = [] := by
    rw [String.isEmpty_iff, ← String.toList_eq_nil_iff, ht]
  have hroot : (trimmed s).startsWith "/" = true ↔ (stripDotSlash s.toList).head? = some '/' := by
    rw [startsWith_slash_iff, ht]
  have hparts : parts (trimmed s) = (countedPieces (stripDotSlash s.toList)).map String.ofList := by
    rw [parts_eq, ht]
  have hesc : ((countedPieces (stripDotSlash s.toList)).map String.ofList).any escapes = true ↔
      ∃ c ∈ countedPieces (stripDotSlash s.toList), Refused c := by
    simp [List.any_map, escapes_ofList]
  have hseg : Segment.ofText ∘ String.ofList = segmentOf := funext ofText_ofList
  unfold parse reading
  simp only [hparts, hempty, hroot, hesc, List.isEmpty_map, List.isEmpty_iff, List.map_map]
  rw [hseg]

example : reading "././/a" = .ok ⟨"././/a", [.literal "a"]⟩ := by decide

example : reading "a/./.." = .error (.escapingPattern "a/./..") := by decide

theorem not_stars_of_escapes_eq_false {x : String} (h : escapes x = false) :
    ¬ ['*', '*'] <:+: x.toList := by
  intro hstars
  have hrefused : Refused x.toList := .inr hstars
  rw [← escapes_ofList, String.ofList_toList, h] at hrefused
  exact Bool.false_ne_true hrefused

/-- Reading a pattern answers by the rules in their order; the components of an accepted
pattern are names a directory can hold, none holding `**`. -/
theorem parse_follows_rules (s : String) :
    parse s = reading s ∧
      ∀ p, parse s = .ok p → ∀ seg ∈ p.segments,
        IsName seg.text ∧ ¬ ['*', '*'] <:+: seg.text.toList := by
  refine ⟨parse_eq_reading s, ?_⟩
  intro p h seg hseg
  obtain ⟨-, hsegs, -, hesc⟩ := parse_eq_ok h
  have hname := (segments_of_parse_eq_ok h).2 seg hseg
  rw [hsegs] at hseg
  obtain ⟨x, hx, rfl⟩ := List.mem_map.1 hseg
  rw [Segment.text_ofText] at hname ⊢
  exact ⟨hname, not_stars_of_escapes_eq_false (hesc x hx)⟩

end Pattern

end SuiteRunner.Glob
