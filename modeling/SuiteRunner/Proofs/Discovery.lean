import Mathlib.Data.List.Sort
import SuiteRunner.Discovery
import SuiteRunner.Proofs.Utf8
import SuiteRunner.Proofs.Pattern

/-! What discovery finds. A pattern's components are taken one after another from the root: each
picks a name in the directory reached so far (a literal its own text, a wildcard a listed UTF-8
name it accepts), every path before the last must be a directory and the last a regular file.
`Walk` says this of a list of names, and `mem_expand` shows that the frontier expansion of the
program yields exactly the ends of the walks. The merge by sorted insertion keeps every path once,
in increasing order, and byte order on the paths is their character order. So the result is the
set of walk ends of all patterns, listed in byte order: it depends only on which patterns are
given. On a tree whose entries have the names a real file system allows, the file name of each
result is the last name of its walk. -/

namespace SuiteRunner

/-- A name a directory entry can have on a real file system: not empty, neither `.` nor `..`, and
without `/`. -/
def Name.Proper (n : Name) : Prop := n ≠ [] ∧ n ≠ [46] ∧ n ≠ [46, 46] ∧ 47 ∉ n

/-- Every name in the tree is one a real directory entry can have. -/
def FileTree.ProperNames (t : FileTree) : Prop := ∀ e ∈ t.entries, ∀ n ∈ e.1, Name.Proper n

/-- A name a directory lists is the last name of one of the tree's entries. -/
theorem FileTree.mem_readDir {t : FileTree} {dir : String} {names : List Name} {n : Name}
    (h : t.readDir dir = .ok names) (hn : n ∈ names) : ∃ e ∈ t.entries, n ∈ e.1 := by
  unfold FileTree.readDir at h
  cases hres : t.resolve dir with
  | error e => simp [hres] at h; cases h
  | ok loc =>
    simp only [hres, bind, Except.bind] at h
    split at h
    · split at h
      · cases h
      · cases h
        obtain ⟨e, he, hsome⟩ := List.mem_filterMap.1 hn
        split at hsome
        · exact ⟨e, he, List.mem_of_getLast? hsome⟩
        · cases hsome
    all_goals cases h

/-- A text whose bytes are a proper name is a name. -/
theorem Name.Proper.isName {s : String} (h : Name.Proper (Name.ofString s)) : PathText.IsName s := by
  obtain ⟨hne, hdot, hdots, hslash⟩ := h
  have henc : Name.ofString s = Utf8.encode s.toList := Utf8.toUTF8_toList s
  refine ⟨fun hs => hne (by rw [henc, hs]; rfl), fun hs => hdot (by rw [henc, hs]; decide),
    fun hs => hdots (by rw [henc, hs]; decide), fun hs => hslash ?_⟩
  rw [henc, Utf8.encode, List.mem_flatMap]
  exact ⟨'/', hs, by decide⟩

namespace Discovery

open Glob PathText

/-! ### The paths of one pattern -/

/-- The names a component can take in the directory `dir`: a literal its own text, a wildcard a
text whose UTF-8 bytes the directory lists and that it accepts. -/
def Picks (t : FileTree) (dir : String) : Segment → String → Prop
  | .literal text, name => name = text
  | .wildcard pat, name =>
    (∃ names, t.readDir dir = .ok names ∧ Name.ofString name ∈ names) ∧
      (Segment.wildcard pat).accepts name = true

/-- The names `names` lead from `dir` through the components `segs` to a test: each is picked by
its component in the directory the ones before it reached, every path before the last is a
directory and the last a regular file, following links. -/
inductive Walk (t : FileTree) : String → List Segment → List String → Prop
  | file {dir seg name} (picks : Picks t dir seg name)
      (isFile : t.isFile (PathText.join dir name) = true) : Walk t dir [seg] [name]
  | dir {dir seg name segs names} (picks : Picks t dir seg name)
      (isDir : t.isDir (PathText.join dir name) = true)
      (rest : Walk t (PathText.join dir name) segs names) : Walk t dir (seg :: segs) (name :: names)

theorem not_walk_nil {t : FileTree} {dir : String} {names : List String} : ¬ Walk t dir [] names := by
  intro h
  cases h

/-- What one component of a walk can do: end it at a file, or go down into a directory. -/
theorem walk_cons_iff {t : FileTree} {dir : String} {seg : Segment} {segs : List Segment}
    {names : List String} :
    Walk t dir (seg :: segs) names ↔ ∃ name, Picks t dir seg name ∧
      ((segs = [] ∧ names = [name] ∧ t.isFile (PathText.join dir name) = true) ∨
        ∃ rest, names = name :: rest ∧ t.isDir (PathText.join dir name) = true ∧
          Walk t (PathText.join dir name) segs rest) := by
  constructor
  · rintro (⟨picks, isFile⟩ | ⟨picks, isDir, rest⟩)
    · exact ⟨_, picks, .inl ⟨rfl, rfl, isFile⟩⟩
    · exact ⟨_, picks, .inr ⟨_, rfl, isDir, rest⟩⟩
  · rintro ⟨name, picks, ⟨rfl, rfl, isFile⟩ | ⟨rest, rfl, isDir, hrest⟩⟩
    · exact .file picks isFile
    · exact .dir picks isDir hrest

/-- The last name of a walk is picked by one of its components, in the directory the names
before it reached. -/
theorem Walk.last {t : FileTree} {dir : String} {segs : List Segment} {names : List String}
    (h : Walk t dir segs names) : ∃ init last, names = init ++ [last] ∧
      ∃ seg ∈ segs, Picks t (init.foldl PathText.join dir) seg last := by
  induction h with
  | @file dir seg name picks _ => exact ⟨[], name, rfl, seg, List.mem_singleton_self _, picks⟩
  | @dir dir seg name segs names _ _ _ ih =>
    obtain ⟨init, last, rfl, seg', hseg', picks'⟩ := ih
    exact ⟨name :: init, last, rfl, seg', List.mem_cons_of_mem _ hseg', picks'⟩

theorem mem_listMatches {t : FileTree} {dir : String} {pat q : String} :
    q ∈ listMatches t dir (.wildcard pat) ↔ ∃ name,
      Picks t dir (.wildcard pat) name ∧ q = PathText.join dir name := by
  unfold listMatches
  cases hdir : t.readDir dir with
  | error e => simp [Picks, hdir]
  | ok names =>
    simp only [List.mem_filterMap, Picks, hdir, Except.ok.injEq, exists_eq_left']
    constructor
    · rintro ⟨bytes, hbytes, hq⟩
      split at hq
      · rename_i name hname
        have hb : Name.ofString name = bytes := (Utf8.fromUTF8?_eq_some_iff bytes name).1 hname
        split at hq
        · rename_i hacc
          exact ⟨name, ⟨hb ▸ hbytes, hacc⟩, (Option.some.inj hq).symm⟩
        · cases hq
      · cases hq
    · rintro ⟨name, ⟨hname, hacc⟩, rfl⟩
      have hdecode : String.fromUTF8? ⟨(Name.ofString name).toArray⟩ = some name :=
        (Utf8.fromUTF8?_eq_some_iff _ name).2 rfl
      refine ⟨Name.ofString name, hname, ?_⟩
      rw [hdecode]
      simp [hacc]

/-- One component from one directory: the paths are the joins of the names it picks that have the
kind asked for. -/
theorem mem_step {t : FileTree} {last : Bool} {dir : String} {seg : Segment} {q : String} :
    q ∈ step t last dir seg ↔ ∃ name, Picks t dir seg name ∧ q = PathText.join dir name ∧
      kindMatches t q last = true := by
  unfold step
  rw [List.mem_filter]
  cases seg with
  | literal text => simp [Picks]
  | wildcard pat =>
    simp only [mem_listMatches]
    constructor
    · rintro ⟨⟨name, picks, rfl⟩, hkind⟩
      exact ⟨name, picks, rfl, hkind⟩
    · rintro ⟨name, picks, rfl, hkind⟩
      exact ⟨⟨name, picks, rfl⟩, hkind⟩

theorem expand_nil_frontier (t : FileTree) (segs : List Segment) : expand t [] segs = [] := by
  cases segs <;> simp [expand]

/-- The shortcut on an empty frontier changes nothing: the next frontier is expanded either way. -/
theorem expand_cons (t : FileTree) (frontier : List String) (seg : Segment) (rest : List Segment) :
    expand t frontier (seg :: rest) =
      expand t (frontier.flatMap fun dir => step t rest.isEmpty dir seg) rest := by
  rw [expand]
  split
  · rename_i hempty
    rw [List.isEmpty_iff.1 hempty, expand_nil_frontier]
  · rfl

/-- Expanding a frontier by a non-empty list of components yields exactly the ends of the walks
from the frontier's paths: the last component's results are the frontier's paths that pass it,
and an inner component's directories are the next frontier. -/
theorem mem_expand {t : FileTree} {segs : List Segment} (hsegs : segs ≠ []) {frontier : List String}
    {q : String} : q ∈ expand t frontier segs ↔
      ∃ dir ∈ frontier, ∃ names, Walk t dir segs names ∧ q = names.foldl PathText.join dir := by
  induction segs generalizing frontier with
  | nil => exact absurd rfl hsegs
  | cons seg rest ih =>
    rw [expand_cons]
    by_cases hrest : rest = []
    · subst hrest
      simp only [expand, List.mem_flatMap, List.isEmpty_nil, mem_step, kindMatches, if_true,
        walk_cons_iff]
      constructor
      · rintro ⟨dir, hdir, name, picks, rfl, hfile⟩
        exact ⟨dir, hdir, [name], ⟨name, picks, .inl ⟨trivial, rfl, hfile⟩⟩, rfl⟩
      · rintro ⟨dir, hdir, names, ⟨name, picks, ⟨-, rfl, hfile⟩ | ⟨_, _, _, hwalk⟩⟩, rfl⟩
        · exact ⟨dir, hdir, name, picks, rfl, hfile⟩
        · exact absurd hwalk not_walk_nil
    · have hlast : rest.isEmpty = false := by simpa using hrest
      rw [ih hrest]
      simp only [List.mem_flatMap, mem_step, hlast, kindMatches, Bool.false_eq_true, if_false]
      constructor
      · rintro ⟨_, ⟨dir, hdir, name, picks, rfl, hisDir⟩, names, hwalk, rfl⟩
        refine ⟨dir, hdir, name :: names, walk_cons_iff.2 ⟨name, picks, .inr ⟨names, rfl, hisDir, hwalk⟩⟩, ?_⟩
        rfl
      · rintro ⟨dir, hdir, names, hwalk, rfl⟩
        obtain ⟨name, picks, ⟨hnil, -, -⟩ | ⟨rest', rfl, hisDir, hrest'⟩⟩ := walk_cons_iff.1 hwalk
        · exact absurd hnil hrest
        · exact ⟨_, ⟨dir, hdir, name, picks, rfl, hisDir⟩, rest', hrest', rfl⟩

/-! ### The merge -/

theorem mem_insertSorted {p x : String} {l : List String} :
    x ∈ insertSorted p l ↔ x = p ∨ x ∈ l := by
  induction l with
  | nil => simp [insertSorted]
  | cons q qs ih =>
    unfold insertSorted
    split_ifs with hlt heq
    · simp
    · subst heq
      simp
    · simp only [List.mem_cons, ih]
      tauto

/-- Insertion keeps a list strictly increasing: a path below the head goes first, and so below
everything after the head; any other goes after the head, which is below it. -/
theorem pairwise_insertSorted {p : String} {l : List String} (h : l.Pairwise (· < ·)) :
    (insertSorted p l).Pairwise (· < ·) := by
  induction l with
  | nil => simp [insertSorted]
  | cons q qs ih =>
    rw [List.pairwise_cons] at h
    unfold insertSorted
    split_ifs with hlt heq
    · refine List.pairwise_cons.2 ⟨?_, List.pairwise_cons.2 h⟩
      intro x hx
      rcases List.mem_cons.1 hx with rfl | hx
      · exact hlt
      · exact lt_trans hlt (h.1 x hx)
    · exact List.pairwise_cons.2 h
    · have hqp : q < p := lt_of_le_of_ne (not_lt.1 hlt) (Ne.symm heq)
      refine List.pairwise_cons.2 ⟨?_, ih h.2⟩
      intro x hx
      rcases mem_insertSorted.1 hx with rfl | hx
      · exact hqp
      · exact h.1 x hx

/-- Inserting paths one after another into a strictly increasing list keeps it so, and adds
exactly those paths. -/
theorem foldl_insertSorted (found : List String) {acc : List String}
    (h : acc.Pairwise (· < ·)) :
    (found.foldl (fun acc p => insertSorted p acc) acc).Pairwise (· < ·) ∧
      ∀ x, x ∈ found.foldl (fun acc p => insertSorted p acc) acc ↔ x ∈ acc ∨ x ∈ found := by
  induction found generalizing acc with
  | nil => exact ⟨h, fun x => by simp⟩
  | cons p ps ih =>
    obtain ⟨hsorted, hmem⟩ := ih (pairwise_insertSorted (p := p) h)
    refine ⟨hsorted, fun x => ?_⟩
    rw [List.foldl_cons, hmem, mem_insertSorted, List.mem_cons]
    tauto

/-- The merged paths of all patterns, before they become test cases. -/
theorem discover_eq (t : FileTree) (root : String) (patterns : List Pattern) :
    discover t root patterns =
      ((patterns.flatMap fun p => expand t [root] p.segments).foldl
        (fun acc p => insertSorted p acc) []).map TestCase.mk := rfl

theorem map_display_mk (l : List String) : (l.map TestCase.mk).map TestCase.display = l := by
  rw [List.map_map]
  exact List.map_id l

/-- The result of discovery is strictly increasing and holds exactly the paths some pattern
expands to. -/
theorem discover_sorted_mem (t : FileTree) (root : String) (patterns : List Pattern) :
    ((discover t root patterns).map TestCase.display).Pairwise (· < ·) ∧
      ∀ q, q ∈ (discover t root patterns).map TestCase.display ↔
        ∃ p ∈ patterns, q ∈ expand t [root] p.segments := by
  rw [discover_eq, map_display_mk]
  obtain ⟨hsorted, hmem⟩ := foldl_insertSorted (patterns.flatMap fun p => expand t [root] p.segments)
    List.Pairwise.nil
  refine ⟨hsorted, fun q => ?_⟩
  rw [hmem, List.mem_flatMap]
  simp

/-! ### The contract -/

/-- What discovery promises of its result `found` for a tree, a root and the patterns: the paths
are in strictly increasing byte order; they are exactly the ends of the walks of the patterns
from the root; and, on a tree whose names are proper, the file name of each is the last name of
any walk that reaches it. -/
structure Finds (t : FileTree) (root : String) (patterns : List Pattern) (found : List TestCase) :
    Prop where
  sorted : (found.map TestCase.display).Pairwise fun a b => a.toUTF8.toList < b.toUTF8.toList
  reaches : ∀ q, q ∈ found.map TestCase.display ↔
    ∃ p ∈ patterns, ∃ names, Walk t root p.segments names ∧ q = names.foldl PathText.join root
  fileName : t.ProperNames → ∀ c ∈ found, ∀ p ∈ patterns, ∀ names,
    Walk t root p.segments names → c.path = names.foldl PathText.join root →
      names.getLast? = some c.fileName

/-- The last name of a walk of an accepted pattern, on a tree of proper names, is a name. -/
theorem isName_of_picks {t : FileTree} (ht : t.ProperNames) {p : Pattern} {source : String}
    (hp : Pattern.parse source = .ok p) {dir : String} {seg : Segment} (hseg : seg ∈ p.segments)
    {name : String} (h : Picks t dir seg name) : IsName name := by
  cases seg with
  | literal text =>
    rw [Picks] at h
    subst h
    exact (Pattern.segments_of_parse_eq_ok hp).2 _ hseg
  | wildcard pat =>
    obtain ⟨⟨names, hdir, hname⟩, -⟩ := h
    obtain ⟨e, he, hn⟩ := FileTree.mem_readDir hdir hname
    exact Name.Proper.isName (ht e he _ hn)

/-- Discovery, for every tree, root and list of accepted patterns, finds exactly the tests the
patterns' walks reach, each once and in byte order, with its last name as file name; and it
gives the same result for any list of the same patterns, whatever their order or repeats. Byte
order on the paths is their character order, and two strictly increasing lists with the same
members are equal. -/
theorem discover_finds_walk_ends (t : FileTree) (root : String) (patterns : List Pattern)
    (hparsed : ∀ p ∈ patterns, ∃ source, Pattern.parse source = .ok p) :
    Finds t root patterns (discover t root patterns) ∧
      ∀ others : List Pattern, (∀ p, p ∈ others ↔ p ∈ patterns) →
        discover t root others = discover t root patterns := by
  obtain ⟨hsorted, hmem⟩ := discover_sorted_mem t root patterns
  refine ⟨⟨?_, ?_, ?_⟩, ?_⟩
  · exact hsorted.imp fun hab => (Utf8.toUTF8_lt_iff _ _).2 hab
  · intro q
    rw [hmem]
    constructor
    · rintro ⟨p, hp, hq⟩
      obtain ⟨source, hsource⟩ := hparsed p hp
      obtain ⟨dir, hdir, names, hwalk, rfl⟩ :=
        (mem_expand (Pattern.segments_of_parse_eq_ok hsource).1).1 hq
      rw [List.mem_singleton.1 hdir] at hwalk ⊢
      exact ⟨p, hp, names, hwalk, rfl⟩
    · rintro ⟨p, hp, names, hwalk, rfl⟩
      obtain ⟨source, hsource⟩ := hparsed p hp
      exact ⟨p, hp, (mem_expand (Pattern.segments_of_parse_eq_ok hsource).1).2
        ⟨root, List.mem_singleton_self _, names, hwalk, rfl⟩⟩
  · intro ht c _ p hp names hwalk hpath
    obtain ⟨source, hsource⟩ := hparsed p hp
    obtain ⟨init, last, rfl, seg, hseg, picks⟩ := hwalk.last
    have hname := isName_of_picks ht hsource hseg picks
    have hfile : PathText.fileName? c.path = some last := by
      rw [hpath, List.foldl_append, List.foldl_cons, List.foldl_nil]
      exact fileName?_join _ hname
    rw [List.getLast?_concat, TestCase.fileName, hfile]
    rfl
  · intro others hothers
    obtain ⟨hsorted', hmem'⟩ := discover_sorted_mem t root others
    have hsame : ∀ q, q ∈ (discover t root others).map TestCase.display ↔
        q ∈ (discover t root patterns).map TestCase.display := by
      intro q
      rw [hmem', hmem]
      simp only [hothers]
    have hlists := hsorted'.eq_of_mem_iff hsorted hsame
    rw [discover_eq, discover_eq, map_display_mk, map_display_mk] at hlists
    rw [discover_eq, discover_eq, hlists]

/-- A tree with one test under `t`, searched with the literal pattern `a.exe`. -/
theorem discover_finds_walk_ends_literal :
    let tree : FileTree :=
      { entries := [([Name.ofString "t"], .dir),
          ([Name.ofString "t", Name.ofString "a.exe"], .file [] true)] }
    let patterns : List Pattern := [⟨"a.exe", [.literal "a.exe"]⟩]
    (∀ p ∈ patterns, ∃ source, Pattern.parse source = .ok p) ∧
      (Finds tree "t" patterns (discover tree "t" patterns) ∧
        ∀ others : List Pattern, (∀ p, p ∈ others ↔ p ∈ patterns) →
          discover tree "t" others = discover tree "t" patterns) := by
  intro tree patterns
  have hparse : Pattern.parse "a.exe" = .ok ⟨"a.exe", [.literal "a.exe"]⟩ := by
    have hparts : Pattern.parts "a.exe" = ["a.exe"] := by
      rw [Pattern.parts, Text.splitOn_slash]
      decide
    have hesc : Pattern.escapes "a.exe" = false := by
      rw [Pattern.escapes, Text.splitOn_of_not_mem (by decide) (by decide) (by decide)]
      decide
    have hseg : Segment.ofText "a.exe" = .literal "a.exe" := by simp [Segment.ofText]
    unfold Pattern.parse
    rw [Pattern.trimmed_eq_self (by simp)]
    dsimp only
    rw [hparts]
    simp [hesc, hseg]
  have hparsed : ∀ p ∈ patterns, ∃ source, Pattern.parse source = .ok p := by
    intro p hp
    rw [List.mem_singleton.1 hp]
    exact ⟨"a.exe", hparse⟩
  exact ⟨hparsed, discover_finds_walk_ends tree "t" patterns hparsed⟩

end Discovery

end SuiteRunner
