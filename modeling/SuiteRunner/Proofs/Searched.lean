import SuiteRunner.Discovery
import SuiteRunner.Proofs.Pattern

/-! Where a run says it looked for tests. For each pattern the description joins the root with
the pattern's text less every leading `./`, while the reader of patterns removes only one; the
components the reader then counts are the same either way, since a `./` adds only a `.` piece.

So the description of an accepted pattern, read as a path, is the root's components followed by
the pattern's segments, unless the text left after every leading `./` starts with `/`. The reader
accepts that: `././/a` is `.//a` once one `./` is gone, whose pieces are `.`, an empty one and
`a`. The join then takes the absolute text in place of the root, and the description is `/a`,
where nothing was searched. -/

namespace SuiteRunner.PathText

open Glob Pattern Text

/-- The component a counted piece of a path is. -/
def pieceComponent (c : List Char) : Component :=
  if c = ['.', '.'] then .parent else .normal (String.ofList c)

/-- The leading component of a path, read off its characters. -/
def leadOf (cs : List Char) : List Component :=
  if cs.head? = some '/' then [.root]
  else if (cs.splitOn '/').head? = some ['.'] then [.current]
  else []

/-- The components of a path are its lead followed by the pieces a pattern counts. -/
theorem components_eq (p : String) :
    components p = leadOf p.toList ++ (countedPieces p.toList).map pieceComponent := by
  have hfirst : ((p.toList.splitOn '/').map String.ofList).head? = some "." ↔
      (p.toList.splitOn '/').head? = some ['.'] := by
    rw [List.head?_map]
    cases (p.toList.splitOn '/').head? with
    | none => simp
    | some c => rw [Option.map_some, Option.some.injEq, Option.some.injEq, ofList_eq_dot_iff]
  have hbody : (p.splitOn "/").filter (fun s => !s.isEmpty && s != ".") =
      (countedPieces p.toList).map String.ofList :=
    parts_eq p
  have hpiece :
      (fun s : String => if s == ".." then Component.parent else .normal s) ∘ String.ofList =
        pieceComponent := by
    funext c
    simp only [Function.comp, pieceComponent, beq_iff_eq, ofList_eq_dots_iff]
  unfold components leadOf
  simp only [hbody, List.map_map, hpiece]
  simp only [splitOn_slash, startsWith_slash_iff p, hfirst]

theorem countedPieces_append_slash (xs ys : List Char) :
    countedPieces (xs ++ '/' :: ys) = countedPieces xs ++ countedPieces ys := by
  rw [countedPieces, List.splitOn_append_cons_self, List.filter_append]
  rfl

theorem countedPieces_nil : countedPieces [] = [] := by decide

theorem leadOf_append_slash {xs : List Char} (hxs : xs ≠ []) (ys : List Char) :
    leadOf (xs ++ '/' :: ys) = leadOf xs := by
  obtain ⟨first, rest, hsplit⟩ := List.exists_cons_of_ne_nil (List.splitOn_ne_nil '/' xs)
  have hhead : (xs ++ '/' :: ys).head? = xs.head? := List.head?_append_of_ne_nil _ hxs
  have hfirst : ((xs ++ '/' :: ys).splitOn '/').head? = (xs.splitOn '/').head? := by
    rw [List.splitOn_append_cons_self, hsplit]
    rfl
  rw [leadOf, leadOf, hhead, hfirst]

/-- Joining a relative path whose first piece is not `.` keeps the components of the base and adds
those of the path. An empty base adds nothing, and a base ending in `/` already holds the separator.
-/
theorem components_join (root : String) {rel : String} (hrel : rel.toList.head? ≠ some '/')
    (hlead : (rel.toList.splitOn '/').head? ≠ some ['.']) :
    components (join root rel) =
      components root ++ (countedPieces rel.toList).map pieceComponent := by
  have hnoroot : ¬ rel.startsWith "/" = true := by rwa [startsWith_slash_iff]
  have hleadNil : leadOf rel.toList = [] := by simp [leadOf, hrel, hlead]
  unfold join
  rw [if_neg hnoroot]
  split
  · rename_i hbase
    rcases Bool.or_eq_true_iff.1 hbase with hempty | hslash
    · have hroot : root = "" := by simpa [String.isEmpty_iff] using hempty
      subst hroot
      rw [components_eq, components_eq, String.empty_append, hleadNil]
      simp [leadOf, countedPieces_nil]
    · obtain ⟨xs, hxs⟩ := endsWith_slash hslash
      have hjoin : (root ++ rel).toList = xs ++ '/' :: rel.toList := by simp [hxs]
      rw [components_eq, components_eq, hjoin, hxs, countedPieces_append_slash,
        countedPieces_append_slash, countedPieces_nil, List.append_nil, List.map_append,
        ← List.append_assoc]
      congr 2
      cases xs with
      | nil => simp [leadOf]
      | cons x xs =>
        have hne := List.cons_ne_nil x xs
        rw [leadOf_append_slash hne, leadOf_append_slash hne]
  · rename_i hbase
    have hne : root.toList ≠ [] := by
      intro hnil
      apply hbase
      simp [String.isEmpty_iff, String.toList_eq_nil_iff.1 hnil]
    have hjoin : (root ++ "/" ++ rel).toList = root.toList ++ '/' :: rel.toList := by simp
    rw [components_eq, components_eq, hjoin, countedPieces_append_slash, leadOf_append_slash hne,
      List.map_append, List.append_assoc]

/-! ### The text a description is built from -/

theorem countedPieces_dotSlash (t : List Char) :
    countedPieces ('.' :: '/' :: t) = countedPieces t := by
  have hsplit : '.' :: '/' :: t = ['.'] ++ '/' :: t := rfl
  have hdot : countedPieces ['.'] = [] := by decide
  rw [hsplit, countedPieces_append_slash, hdot, List.nil_append]

theorem countedPieces_dropLeadingDotsList (cs : List Char) :
    countedPieces (dropLeadingDotsList cs) = countedPieces cs := by
  fun_induction dropLeadingDotsList cs with
  | case1 rest ih => rw [ih, countedPieces_dotSlash]
  | case2 => rfl

theorem countedPieces_stripDotSlash (cs : List Char) :
    countedPieces (stripDotSlash cs) = countedPieces cs := by
  unfold stripDotSlash
  split
  · exact (countedPieces_dotSlash _).symm
  · rfl

theorem dropLeadingDotsList_ne_dotSlash (cs t : List Char) :
    dropLeadingDotsList cs ≠ '.' :: '/' :: t := by
  fun_induction dropLeadingDotsList cs with
  | case1 rest ih => exact ih
  | case2 cs h =>
    intro heq
    exact h t heq

/-- A path whose first piece is `.` is `.` alone or opens with `./`. Otherwise the rest of the first
piece would be empty, with the text empty or opening with `/`. -/
theorem eq_dot_of_first_piece {cs : List Char} (h : (cs.splitOn '/').head? = some ['.']) :
    cs = ['.'] ∨ ∃ t, cs = '.' :: '/' :: t := by
  cases cs with
  | nil => simp at h
  | cons c t =>
    rw [List.splitOn_cons_eq_if_modifyHead] at h
    split at h
    · simp at h
    · obtain ⟨first, rest, hsplit⟩ := List.exists_cons_of_ne_nil (List.splitOn_ne_nil '/' t)
      rw [hsplit, List.modifyHead_cons, List.head?_cons, Option.some.injEq, List.cons_eq_cons] at h
      obtain ⟨rfl, rfl⟩ := h
      cases t with
      | nil => exact .inl rfl
      | cons d u =>
        rw [List.splitOn_cons_eq_if_modifyHead] at hsplit
        split at hsplit
        · rename_i hd
          exact .inr ⟨u, by simpa using hd⟩
        · obtain ⟨first', rest', hsplit'⟩ := List.exists_cons_of_ne_nil (List.splitOn_ne_nil '/' u)
          rw [hsplit', List.modifyHead_cons] at hsplit
          simp at hsplit

theorem text_segmentOf (c : List Char) : (segmentOf c).text = String.ofList c := by
  unfold segmentOf
  split <;> rfl

/-- The pieces an accepted pattern's text counts, with or without its leading `./`, are its
segments, each an ordinary name. No accepted piece is `..`, so each is an ordinary name. -/
theorem map_pieceComponent_of_parse_eq_ok {source : String} {p : Pattern}
    (h : parse source = .ok p) :
    countedPieces source.toList ≠ [] ∧
      (countedPieces source.toList).map pieceComponent =
        p.segments.map fun seg => .normal seg.text := by
  rw [parse_eq_reading, reading] at h
  split_ifs at h with hempty hroot hrefused hblank
  cases h
  rw [countedPieces_stripDotSlash] at hrefused hblank ⊢
  refine ⟨hblank, ?_⟩
  rw [List.map_map]
  apply List.map_congr_left
  intro c hc
  have hnotdots : c ≠ ['.', '.'] := fun hdots => hrefused ⟨c, hc, .inl hdots⟩
  simp [pieceComponent, hnotdots, text_segmentOf]

/-- The components of the place a run describes for an accepted pattern: those of the root, or only
the file system's root when the text left after every leading `./` starts with `/`, followed by the
pattern's segments. An absolute text replaces the root; a relative one keeps it, as its first piece
is not `.`. -/
theorem searched_entry_components (root : String) {source : String} {p : Pattern}
    (h : parse source = .ok p) :
    components (join root (dropLeadingDots p.source)) =
      (if (dropLeadingDotsList source.toList).head? = some '/' then [.root] else components root) ++
        p.segments.map fun seg => .normal seg.text := by
  obtain ⟨hsource, -⟩ := parse_eq_ok h
  obtain ⟨hcounted, hpieces⟩ := map_pieceComponent_of_parse_eq_ok h
  rw [hsource]
  have hrel : (dropLeadingDots source).toList = dropLeadingDotsList source.toList :=
    String.toList_ofList
  have hbody : (countedPieces (dropLeadingDots source).toList).map pieceComponent =
      p.segments.map fun seg => .normal seg.text := by
    rw [hrel, countedPieces_dropLeadingDotsList, hpieces]
  split
  · rename_i habs
    have hstarts : (dropLeadingDots source).startsWith "/" = true := by
      rw [startsWith_slash_iff, hrel]
      exact habs
    rw [join, if_pos hstarts, components_eq, hbody, leadOf, hrel, if_pos habs]
  · rename_i hnotabs
    have hlead : ((dropLeadingDots source).toList.splitOn '/').head? ≠ some ['.'] := by
      rw [hrel]
      intro hdot
      rcases eq_dot_of_first_piece hdot with hone | ⟨t, ht⟩
      · apply hcounted
        rw [← countedPieces_dropLeadingDotsList, hone]
        decide
      · exact dropLeadingDotsList_ne_dotSlash _ t ht
    have hrelative : (dropLeadingDots source).toList.head? ≠ some '/' := by
      rw [hrel]
      exact hnotabs
    rw [components_join root hrelative hlead, hbody]

theorem searched_entry_components_tests :
    parse "cpu_tests/*.exe" = .ok ⟨"cpu_tests/*.exe", [.literal "cpu_tests", .wildcard "*.exe"]⟩ ∧
      components (join "./stuff" (dropLeadingDots "cpu_tests/*.exe")) =
        [.current, .normal "stuff", .normal "cpu_tests", .normal "*.exe"] := by
  have hp : parse "cpu_tests/*.exe" =
      .ok ⟨"cpu_tests/*.exe", [.literal "cpu_tests", .wildcard "*.exe"]⟩ := by
    rw [parse_eq_reading]
    decide +kernel
  refine ⟨hp, (searched_entry_components "./stuff" hp).trans ?_⟩
  rw [components_eq]
  decide +kernel

/-- The pattern `././/a` is read as the one segment `a` under the root, but a run describes its
search under the root `./stuff` as `/a`, a path that does not begin with the root's components. -/
theorem searched_drops_root :
    parse "././/a" = .ok ⟨"././/a", [.literal "a"]⟩ ∧
      Discovery.searched "./stuff" [⟨"././/a", [.literal "a"]⟩] = "/a" ∧
      components "/a" ≠ components "./stuff" ++ [.normal "a"] := by
  refine ⟨?_, ?_, ?_⟩
  · rw [parse_eq_reading]
    decide +kernel
  · simp [Discovery.searched, join, dropLeadingDots, dropLeadingDotsList]
  · rw [components_eq, components_eq]
    decide +kernel

end SuiteRunner.PathText
