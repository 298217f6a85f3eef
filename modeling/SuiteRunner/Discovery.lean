import SuiteRunner.FileTree
import SuiteRunner.Glob.Pattern
import SuiteRunner.TestCase

/-!
Discovery of test executables. Each pattern is expanded under the root one component at a time:
a literal component is appended to every path found so far, a wildcard lists each such directory
and keeps the UTF-8 names it accepts. Every component but the last must lead to a directory and
the last to a regular file, following links; a directory that cannot be listed is skipped. The
paths of all patterns are merged into one list, sorted by their text and without repeats.
-/

namespace SuiteRunner.Discovery

open Glob

/-- Whether a path has the kind its place in the pattern asks for: a file for the last component,
a directory before it. -/
def kindMatches (t : FileTree) (path : String) (last : Bool) : Bool :=
  if last then t.isFile path else t.isDir path

/-- The UTF-8 names of a directory that a wildcard accepts, as paths under that directory. -/
def listMatches (t : FileTree) (dir : String) (seg : Segment) : List String :=
  match t.readDir dir with
  | .error _ => []
  | .ok names =>
    names.filterMap fun n =>
      match String.fromUTF8? ⟨n.toArray⟩ with
      | some s => if seg.accepts s then some (PathText.join dir s) else none
      | none => none

/-- The paths one component leads to from one path found so far. -/
def step (t : FileTree) (last : Bool) (dir : String) (seg : Segment) : List String :=
  let candidates := match seg with
    | .literal name => [PathText.join dir name]
    | .wildcard _ => listMatches t dir seg
  candidates.filter fun c => kindMatches t c last

/-- Expand the components of a pattern from the paths found so far. -/
def expand (t : FileTree) : List String → List Segment → List String
  | frontier, [] => frontier
  | frontier, seg :: rest =>
    let next := frontier.flatMap fun dir => step t rest.isEmpty dir seg
    if next.isEmpty then [] else expand t next rest

/-- Insert a path into a sorted list without repeats. -/
def insertSorted (p : String) : List String → List String
  | [] => [p]
  | q :: qs => if p < q then p :: q :: qs else if p = q then q :: qs else q :: insertSorted p qs

/-- All test executables the patterns reach under the root, sorted and without repeats. -/
def discover (t : FileTree) (root : String) (patterns : List Pattern) : List TestCase :=
  let found := patterns.flatMap fun p => expand t [root] p.segments
  (found.foldl (fun acc p => insertSorted p acc) []).map TestCase.mk

/-- The patterns searched, each under the root without its leading `./`, joined by commas. -/
def searched (root : String) (patterns : List Pattern) : String :=
  ", ".intercalate (patterns.map fun p => PathText.join root (PathText.dropLeadingDots p.source))

end SuiteRunner.Discovery
