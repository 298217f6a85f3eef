import SuiteRunner.Proofs.Discovery
import SuiteRunner.Proofs.Glob

/-! Looking a name up against listing its directory. Discovery joins a literal component to the
directory reached so far and asks for the kind of the path, where a wildcard lists the directory
and keeps the names it accepts. The two agree wherever the listing can be read: a path
`dir/name` resolves only through the location `dir` resolves to, and only when `name` has an
entry there (`resolve_join_name`); on a tree whose entries all stand in directories and whose
directories can all be listed, that location is a directory and lists the name
(`readDir_lists_of_resolve_join`). So on such a tree a literal component may be replaced by a
wildcard that accepts exactly its name without changing what discovery finds, from every root but
the empty one (`discover_literal_as_wildcard`).

They part where the listing cannot be read. Listing `""` fails, while `""` joined with a name is
the name itself, looked up from the working directory; and a directory that can be entered but not
listed gives a wildcard nothing (`expand_wildcard_unlisted`), while a literal still finds its
name there (`literal_lookup_escapes_listing`). -/

namespace SuiteRunner

open PathText Glob

/-! ### Walking to a name -/

/-- Every entry stands in a directory: the location above it is one. This holds of every tree a
real file system can have. -/
def FileTree.ParentsAreDirs (t : FileTree) : Prop :=
  ∀ e ∈ t.entries, t.node? e.1.dropLast = some .dir

instance (t : FileTree) : Decidable t.ParentsAreDirs :=
  inferInstanceAs (Decidable (∀ e ∈ t.entries, t.node? e.1.dropLast = some .dir))

/-- A tree whose listings read what a lookup reads: every entry stands in a directory, and every
directory can be listed. -/
structure FileTree.Listable (t : FileTree) : Prop where
  parents : t.ParentsAreDirs
  listed : t.unlisted = []

namespace FileTree

variable {t : FileTree}

/-- Empty components are skipped. -/
theorem walk_blank (budget : Nat) (cur : Location) {pad : List String} (hpad : ∀ c ∈ pad, c = "")
    (follow : Bool) : t.walk budget cur pad follow = .ok cur := by
  induction pad with
  | nil => rw [walk]
  | cons c pad ih =>
    rw [walk, hpad c List.mem_cons_self]
    exact ih fun c hc => hpad c (List.mem_cons_of_mem _ hc)

theorem walk_name {budget : Nat} {cur loc' : Location} {L : String} (hL : IsName L)
    (h : t.walk budget cur [L] true = .ok loc') : t.node? (cur ++ [Name.ofString L]) ≠ none := by
  obtain ⟨hne, hdot, hdots, -⟩ := hL
  intro hnone
  rw [walk] at h
  simp [String.isEmpty_iff, hne, hdot, hdots, hnone] at h

/-- A walk over a path and then a name passes through the location the path alone leads to,
whatever empty components follow the path, and the name has an entry there. The induction is on
the link budget, then on the path: a link lowers the budget and restarts on its target's
components, always followed when a name comes after it, and every other step takes one component
off the path. -/
theorem walk_append_name {L : String} (hL : IsName L) (budget : Nat) (cur : Location)
    (xs : List String) {loc' : Location} (h : t.walk budget cur (xs ++ [L]) true = .ok loc') :
    ∃ loc, (∀ pad : List String, (∀ c ∈ pad, c = "") → t.walk budget cur (xs ++ pad) true = .ok loc) ∧
      t.node? (loc ++ [Name.ofString L]) ≠ none := by
  induction budget using Nat.strong_induction_on generalizing cur xs with
  | _ budget ihb =>
  induction xs generalizing cur with
  | nil => exact ⟨cur, fun pad hpad => walk_blank budget cur hpad true, walk_name hL h⟩
  | cons c more ih =>
    rw [List.cons_append, walk] at h
    simp only [List.cons_append]
    by_cases hblank : (c.isEmpty || c == ".") = true
    · rw [if_pos hblank] at h
      obtain ⟨loc, hloc, hname⟩ := ih cur h
      exact ⟨loc, fun pad hpad => by rw [walk, if_pos hblank]; exact hloc pad hpad, hname⟩
    by_cases hdots : (c == "..") = true
    · rw [if_neg hblank, if_pos hdots] at h
      obtain ⟨loc, hloc, hname⟩ := ih cur.dropLast h
      exact ⟨loc, fun pad hpad => by rw [walk, if_neg hblank, if_pos hdots]; exact hloc pad hpad, hname⟩
    rw [if_neg hblank, if_neg hdots] at h
    have hmore : (more ++ [L]).isEmpty = false := by simp
    cases hn : t.node? (cur ++ [Name.ofString c]) with
    | none => simp [hn] at h
    | some n =>
      cases n with
      | dir =>
        obtain ⟨loc, hloc, hname⟩ := ih _ (by simpa [hn] using h)
        refine ⟨loc, fun pad hpad => ?_, hname⟩
        rw [walk, if_neg hblank, if_neg hdots]
        simpa [hn] using hloc pad hpad
      | file content exec => simp [hn, hmore] at h
      | link target =>
        cases budget with
        | zero => simp [hn, hmore] at h
        | succ b =>
          simp only [hn, hmore, Bool.false_and, Bool.false_eq_true, if_false] at h
          obtain ⟨loc, hloc, hname⟩ := ihb b (by omega) _ (target.splitOn "/" ++ more)
            (by simpa using h)
          refine ⟨loc, fun pad hpad => ?_, hname⟩
          rw [walk, if_neg hblank, if_neg hdots]
          simpa [hn] using hloc pad hpad

theorem exists_entry_of_node? {loc : Location} (hloc : loc ≠ []) (h : t.node? loc ≠ none) :
    ∃ e ∈ t.entries, e.1 = loc := by
  unfold node? at h
  rw [if_neg (by simpa using hloc)] at h
  obtain ⟨n, hn⟩ : ∃ n, (loc, n) ∈ t.entries := by simpa using h
  exact ⟨(loc, n), hn, rfl⟩

end FileTree

/-! ### Joining a name to a directory -/

theorem join_ne_empty {dir : String} (hdir : dir ≠ "") (part : String) : join dir part ≠ "" := by
  unfold join
  split
  · rename_i hs
    rintro rfl
    simp at hs
  · split <;> simp [hdir]

/-- A name joined to a non-empty directory is one more component after the directory's own, the
trailing empty component of a directory that already ends in `/` apart. -/
theorem splitOn_join_name {dir L : String} (hdir : dir ≠ "") (hL : IsName L) :
    ∃ xs pad, (∀ c ∈ pad, c = "") ∧ dir.splitOn "/" = xs ++ pad ∧
      (join dir L).splitOn "/" = xs ++ [L] := by
  have hslash := hL.2.2.2
  have hL' : L.toList.splitOn '/' = [L.toList] := List.splitOn_eq_singleton hslash
  unfold join
  rw [if_neg (by simpa using hL.not_startsWith)]
  split
  · rename_i hend
    have hends : dir.endsWith "/" = true := by
      simpa [String.isEmpty_iff, hdir] using hend
    obtain ⟨ys, hys⟩ := endsWith_slash hends
    refine ⟨(ys.splitOn '/').map String.ofList, [""], by simp, ?_, ?_⟩
    · rw [Text.splitOn_slash, hys, List.splitOn_append_cons_self]
      simp
    · rw [Text.splitOn_slash, String.toList_append, hys, List.append_assoc, List.singleton_append,
        List.splitOn_append_cons_self, hL']
      simp
  · refine ⟨(dir.toList.splitOn '/').map String.ofList, [], by simp, by simp [Text.splitOn_slash], ?_⟩
    rw [Text.splitOn_slash]
    have h : (dir ++ "/" ++ L).toList = dir.toList ++ '/' :: L.toList := by simp
    rw [h, List.splitOn_append_cons_self, hL']
    simp

theorem startsWith_join {dir : String} (hdir : dir ≠ "") {part : String}
    (hpart : ¬ part.startsWith "/") : (join dir part).startsWith "/" = dir.startsWith "/" := by
  obtain ⟨c, cs, hc⟩ := List.exists_cons_of_ne_nil (by simpa using hdir : dir.toList ≠ [])
  have hhead : (join dir part).toList.head? = dir.toList.head? := by
    unfold join
    rw [if_neg (by simpa using hpart)]
    split <;> simp [hc]
  rw [Bool.eq_iff_iff, Glob.Pattern.startsWith_slash_iff, Glob.Pattern.startsWith_slash_iff, hhead]

/-- A path `dir/L` resolves only through the location `dir` resolves to, where `L` has an
entry. -/
theorem resolve_join_name {t : FileTree} {dir L : String} (hdir : dir ≠ "") (hL : IsName L)
    {loc' : Location} (h : t.resolve (join dir L) = .ok loc') :
    ∃ loc, t.resolve dir = .ok loc ∧ t.node? (loc ++ [Name.ofString L]) ≠ none := by
  obtain ⟨xs, pad, hpad, hsplit, hsplit'⟩ := splitOn_join_name hdir hL
  unfold FileTree.resolve at h ⊢
  rw [if_neg (by simpa using join_ne_empty hdir L), startsWith_join hdir hL.not_startsWith,
    hsplit'] at h
  rw [if_neg (by simpa using hdir), hsplit]
  obtain ⟨loc, hloc, hname⟩ := FileTree.walk_append_name hL _ _ xs h
  exact ⟨loc, hloc pad hpad, hname⟩

/-- On a listable tree, a directory through which `dir/L` resolves can be listed, and lists `L`:
the listing keeps every entry whose location is one name below the directory's. -/
theorem readDir_lists_of_resolve_join {t : FileTree} (ht : t.Listable) {dir L : String}
    (hdir : dir ≠ "") (hL : IsName L) {loc' : Location} (h : t.resolve (join dir L) = .ok loc') :
    ∃ names, t.readDir dir = .ok names ∧ Name.ofString L ∈ names := by
  obtain ⟨loc, hloc, hname⟩ := resolve_join_name hdir hL h
  obtain ⟨e, he, he1⟩ := FileTree.exists_entry_of_node? (by simp) hname
  have hparent : t.node? loc = some .dir := by
    simpa [he1] using ht.parents e he
  simp only [FileTree.readDir, hloc, hparent, ht.listed, List.contains_nil, Bool.false_eq_true,
    if_false, bind, Except.bind, Except.ok.injEq, exists_eq_left']
  exact List.mem_filterMap.2 ⟨e, he, by simp [he1]⟩

theorem resolve_of_kind {t : FileTree} {path : String} (h : t.isFile path = true ∨ t.isDir path = true) :
    ∃ loc, t.resolve path = .ok loc := by
  unfold FileTree.isFile FileTree.isDir FileTree.metadata at h
  cases hres : t.resolve path with
  | error e => simp [hres, bind, Except.bind] at h
  | ok loc => exact ⟨loc, rfl⟩

/-! ### A wildcard that accepts one name -/

theorem globMatches_plain {p n : List Char} (hp : ∀ c ∈ p, c ≠ '*' ∧ c ≠ '?') :
    GlobMatches p n ↔ n = p := by
  induction p generalizing n with
  | nil => exact globMatches_nil_left
  | cons c p ih =>
    obtain ⟨hstar, hany⟩ := hp c List.mem_cons_self
    rw [globMatches_one hstar]
    constructor
    · rintro ⟨d, n', rfl, hd, hrest⟩
      rw [(ih fun c hc => hp c (List.mem_cons_of_mem _ hc)).1 hrest]
      rcases hd with h | rfl
      · exact absurd h hany
      · rfl
    · rintro rfl
      exact ⟨c, p, rfl, .inr rfl, (ih fun c hc => hp c (List.mem_cons_of_mem _ hc)).2 rfl⟩

/-- A wildcard component without `*` or `?` accepts exactly its own text: a hidden name against a
wildcard that is not hidden differs from it in the first character. -/
theorem Segment.wildcard_accepts_plain {pat : String} (hp : ∀ c ∈ pat.toList, c ≠ '*' ∧ c ≠ '?')
    (name : String) : (Segment.wildcard pat).accepts name = true ↔ name = pat := by
  rw [Segment.accepts, Utf8.toUTF8_toList, Utf8.toUTF8_toList]
  split
  · rename_i hhidden
    simp only [Bool.and_eq_true, Bool.not_eq_eq_eq_not, Bool.not_true] at hhidden
    simp only [Bool.false_eq_true, false_iff]
    rintro rfl
    simp [hhidden.1] at hhidden
  · rw [glob_encode, globMatches_plain hp, String.toList_inj]

namespace Discovery

variable {t : FileTree}

/-! ### The two ways to take a component -/

/-- A name a wildcard picks is the one name it accepts. -/
theorem picks_literal_of_wildcard {dir L pat name : String}
    (hw : ∀ n, (Segment.wildcard pat).accepts n = true ↔ n = L)
    (h : Picks t dir (.wildcard pat) name) : Picks t dir (.literal L) name :=
  (hw name).1 h.2

/-- The name of a literal is picked by a wildcard that accepts only it, when the joined path
resolves and the directory is not the empty path. -/
theorem picks_wildcard_of_literal (ht : t.Listable) {dir L pat name : String} (hdir : dir ≠ "")
    (hL : IsName L) (hw : ∀ n, (Segment.wildcard pat).accepts n = true ↔ n = L)
    (h : Picks t dir (.literal L) name) (hres : ∃ loc, t.resolve (PathText.join dir name) = .ok loc) :
    Picks t dir (.wildcard pat) name := by
  rw [Picks] at h
  subst h
  obtain ⟨loc, hloc⟩ := hres
  exact ⟨readDir_lists_of_resolve_join ht hdir hL hloc, (hw name).2 rfl⟩

/-- From a non-empty directory, a walk takes a literal component exactly where it takes a
wildcard that accepts only the literal's name: the components before it are the same on both
sides, and the rest starts from the joined path. -/
theorem walk_literal_iff_wildcard (ht : t.Listable) {L pat : String} (hL : IsName L)
    (hw : ∀ n, (Segment.wildcard pat).accepts n = true ↔ n = L) (post : List Segment) :
    ∀ (pre : List Segment) {dir : String} (names : List String), dir ≠ "" →
      (Walk t dir (pre ++ .literal L :: post) names ↔ Walk t dir (pre ++ .wildcard pat :: post) names)
  | [], dir, names, hdir => by
    simp only [List.nil_append]
    constructor
    · rintro (⟨picks, isFile⟩ | ⟨picks, isDir, rest⟩)
      · exact .file (picks_wildcard_of_literal ht hdir hL hw picks (resolve_of_kind (.inl isFile)))
          isFile
      · exact .dir (picks_wildcard_of_literal ht hdir hL hw picks (resolve_of_kind (.inr isDir)))
          isDir rest
    · rintro (⟨picks, isFile⟩ | ⟨picks, isDir, rest⟩)
      · exact .file (picks_literal_of_wildcard hw picks) isFile
      · exact .dir (picks_literal_of_wildcard hw picks) isDir rest
  | seg :: pre, dir, names, hdir => by
    simp only [List.cons_append, walk_cons_iff]
    constructor
    · rintro ⟨name, picks, ⟨hnil, -⟩ | ⟨rest, rfl, isDir, hrest⟩⟩
      · simp at hnil
      · exact ⟨name, picks, .inr ⟨rest, rfl, isDir,
          (walk_literal_iff_wildcard ht hL hw post pre rest (join_ne_empty hdir name)).1 hrest⟩⟩
    · rintro ⟨name, picks, ⟨hnil, -⟩ | ⟨rest, rfl, isDir, hrest⟩⟩
      · simp at hnil
      · exact ⟨name, picks, .inr ⟨rest, rfl, isDir,
          (walk_literal_iff_wildcard ht hL hw post pre rest (join_ne_empty hdir name)).2 hrest⟩⟩

/-- Two lists of patterns whose expansions reach the same paths discover the same tests. -/
theorem discover_eq_of_expand_iff (root : String) {ps qs : List Pattern}
    (h : ∀ q, (∃ p ∈ ps, q ∈ expand t [root] p.segments) ↔ ∃ p ∈ qs, q ∈ expand t [root] p.segments) :
    discover t root ps = discover t root qs := by
  obtain ⟨hsorted, hmem⟩ := discover_sorted_mem t root ps
  obtain ⟨hsorted', hmem'⟩ := discover_sorted_mem t root qs
  have hlists := hsorted.eq_of_mem_iff hsorted' fun q => by rw [hmem, hmem', h]
  rw [discover_eq, discover_eq, map_display_mk, map_display_mk] at hlists
  rw [discover_eq, discover_eq, hlists]

/-- Replacing a literal component of an accepted pattern by a wildcard that accepts exactly the
literal's name changes nothing discovery finds, on every tree whose entries stand in directories
and whose directories can all be listed, and from every root but the empty path: the replaced
pattern reaches exactly the paths the original reaches. The other patterns may be anything. -/
theorem discover_literal_as_wildcard (t : FileTree) (ht : t.Listable) {root : String}
    (hroot : root ≠ "") (before after : List Pattern) {source : String} {p : Pattern}
    (hp : Pattern.parse source = .ok p) {pre post : List Segment} {L : String}
    (hsegs : p.segments = pre ++ .literal L :: post) (pat : String)
    (hw : ∀ name, (Segment.wildcard pat).accepts name = true ↔ name = L) :
    discover t root (before ++ { p with segments := pre ++ .wildcard pat :: post } :: after) =
      discover t root (before ++ p :: after) := by
  have hL : IsName L :=
    (Pattern.segments_of_parse_eq_ok hp).2 (.literal L) (by simp [hsegs])
  have hsame : ∀ q, q ∈ expand t [root] (pre ++ .wildcard pat :: post) ↔
      q ∈ expand t [root] p.segments := by
    intro q
    rw [mem_expand (by simp), hsegs, mem_expand (by simp)]
    simp only [List.mem_singleton, exists_eq_left]
    constructor
    · rintro ⟨names, hwalk, rfl⟩
      exact ⟨names, (walk_literal_iff_wildcard ht hL hw post pre names hroot).2 hwalk, rfl⟩
    · rintro ⟨names, hwalk, rfl⟩
      exact ⟨names, (walk_literal_iff_wildcard ht hL hw post pre names hroot).1 hwalk, rfl⟩
  apply discover_eq_of_expand_iff
  intro q
  simp only [List.mem_append, List.mem_cons]
  constructor
  · rintro ⟨r, hr | rfl | hr, hq⟩
    · exact ⟨r, .inl hr, hq⟩
    · exact ⟨p, .inr (.inl rfl), (hsame q).1 hq⟩
    · exact ⟨r, .inr (.inr hr), hq⟩
  · rintro ⟨r, hr | rfl | hr, hq⟩
    · exact ⟨r, .inl hr, hq⟩
    · exact ⟨_, .inr (.inl rfl), (hsame q).2 hq⟩
    · exact ⟨r, .inr (.inr hr), hq⟩

/-- The test `tests/a.exe` is found alike by the literal `a.exe` and by the wildcard `a.exe`,
which has no `*` or `?` and so accepts that name alone. -/
theorem discover_literal_as_wildcard_tests :
    let tree : FileTree := { entries := [([Name.ofString "tests"], .dir),
      ([Name.ofString "tests", Name.ofString "a.exe"], .file [] true),
      ([Name.ofString "tests", Name.ofString "b.exe"], .file [] true)] }
    let p : Pattern := ⟨"a.exe", [.literal "a.exe"]⟩
    tree.Listable ∧ "tests" ≠ "" ∧ Pattern.parse "a.exe" = .ok p ∧
      p.segments = [] ++ .literal "a.exe" :: [] ∧
      (∀ name, (Segment.wildcard "a.exe").accepts name = true ↔ name = "a.exe") ∧
      discover tree "tests" ([] ++ { p with segments := [] ++ .wildcard "a.exe" :: [] } :: []) =
        discover tree "tests" ([] ++ p :: []) := by
  intro tree p
  have ht : tree.Listable := ⟨by decide +kernel, rfl⟩
  have hp : Pattern.parse "a.exe" = .ok p := by
    rw [Pattern.parse_eq_reading]
    decide +kernel
  have hw : ∀ name, (Segment.wildcard "a.exe").accepts name = true ↔ name = "a.exe" :=
    Segment.wildcard_accepts_plain (by simp)
  exact ⟨ht, by decide, hp, rfl, hw,
    discover_literal_as_wildcard tree ht (by decide) [] [] hp rfl "a.exe" hw⟩

/-- A directory that can be entered but not listed gives a wildcard component nothing. -/
theorem listMatches_unlisted {dir : String} {loc : Location} (hres : t.resolve dir = .ok loc)
    (hdir : t.node? loc = some .dir) (hun : loc ∈ t.unlisted) (seg : Segment) :
    listMatches t dir seg = [] := by
  simp [listMatches, FileTree.readDir, hres, hdir, hun, bind, Except.bind]

/-- From a root that can be entered but not listed, a pattern that starts with a wildcard finds
nothing. -/
theorem expand_wildcard_unlisted {dir : String} {loc : Location} (hres : t.resolve dir = .ok loc)
    (hdir : t.node? loc = some .dir) (hun : loc ∈ t.unlisted) (pat : String)
    (post : List Segment) : expand t [dir] (.wildcard pat :: post) = [] := by
  rw [expand_cons]
  simp [step, listMatches_unlisted hres hdir hun, expand_nil_frontier]

/-- Where the listing cannot be read the two part. From the empty root, the literal `a` is looked
up from the working directory, where the file `a` is, while the wildcard `a`, which accepts that
name alone, finds nothing, because the empty path cannot be listed. From a directory `d` that can
be entered but not listed, the literal `a` finds `d/a` and the wildcard `a` finds nothing. -/
theorem literal_lookup_escapes_listing :
    let tree : FileTree := { entries := [([Name.ofString "a"], .file [] true)] }
    let hidden : FileTree := { entries := [([Name.ofString "d"], .dir),
      ([Name.ofString "d", Name.ofString "a"], .file [] true)], unlisted := [[Name.ofString "d"]] }
    tree.ParentsAreDirs ∧ Pattern.parse "a" = .ok ⟨"a", [.literal "a"]⟩ ∧
      (∀ name, (Segment.wildcard "a").accepts name = true ↔ name = "a") ∧
      discover tree "" [⟨"a", [.literal "a"]⟩] = [⟨"a"⟩] ∧
      discover tree "" [⟨"a", [.wildcard "a"]⟩] = [] ∧
      hidden.ParentsAreDirs ∧ discover hidden "d" [⟨"a", [.literal "a"]⟩] = [⟨"d/a"⟩] ∧
      discover hidden "d" [⟨"a", [.wildcard "a"]⟩] = [] := by
  intro tree hidden
  have hsplit : "a".splitOn "/" = ["a"] := by
    rw [Text.splitOn_slash]
    decide +kernel
  have hfile : tree.isFile "a" = true := by
    unfold FileTree.isFile FileTree.metadata FileTree.resolve
    rw [hsplit, FileTree.walk, FileTree.walk]
    decide +kernel
  have hjoin : PathText.join "" "a" = "a" := by decide +kernel
  have hstep : step tree true "" (.literal "a") = ["a"] := by
    simp [step, hjoin, kindMatches, hfile]
  have hparse : Pattern.parse "a" = .ok ⟨"a", [.literal "a"]⟩ := by
    rw [Pattern.parse_eq_reading]
    decide +kernel
  have hsplitD : "d".splitOn "/" = ["d"] := by
    rw [Text.splitOn_slash]
    decide +kernel
  have hsplitDA : "d/a".splitOn "/" = ["d", "a"] := by
    rw [Text.splitOn_slash]
    decide +kernel
  have hresD : hidden.resolve "d" = .ok [Name.ofString "d"] := by
    unfold FileTree.resolve
    rw [hsplitD]
    simp only [FileTree.walk]
    decide +kernel
  have hfileDA : hidden.isFile "d/a" = true := by
    unfold FileTree.isFile FileTree.metadata FileTree.resolve
    rw [hsplitDA]
    simp only [FileTree.walk]
    decide +kernel
  have hjoinDA : PathText.join "d" "a" = "d/a" := by decide +kernel
  have hstepDA : step hidden true "d" (.literal "a") = ["d/a"] := by
    simp [step, hjoinDA, kindMatches, hfileDA]
  have hwild : expand hidden ["d"] [.wildcard "a"] = [] :=
    expand_wildcard_unlisted hresD (by decide +kernel) (by simp [hidden]) "a" []
  refine ⟨by decide +kernel, hparse, Segment.wildcard_accepts_plain (by simp), ?_, by decide +kernel,
    by decide +kernel, ?_, ?_⟩
  · rw [discover_eq, List.flatMap_cons, List.flatMap_nil, expand_cons]
    simp [hstep, expand, insertSorted]
  · rw [discover_eq, List.flatMap_cons, List.flatMap_nil, expand_cons]
    simp [hstepDA, expand, insertSorted]
  · rw [discover_eq, List.flatMap_cons, List.flatMap_nil, hwild]
    rfl

end Discovery

end SuiteRunner
