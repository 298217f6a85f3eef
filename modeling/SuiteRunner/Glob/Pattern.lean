import SuiteRunner.Glob.Segment
import SuiteRunner.Fault

/-!
Discovery patterns: a `/`-separated path relative to the tests root whose components are literal
names or wildcards. Reading a pattern removes one leading `./`, drops empty and `.` components,
and refuses patterns that are empty, absolute, or that climb with `..` or reach arbitrarily deep
with `**`.
-/

namespace SuiteRunner.Glob

/-- A parsed discovery pattern: the text as written and its components, outermost first. -/
structure Pattern where
  source : String
  segments : List Segment
  deriving Repr, DecidableEq

namespace Pattern

/-- The components that count: those that are neither empty nor `.`. -/
def parts (rest : String) : List String :=
  (rest.splitOn "/").filter fun p => !p.isEmpty && p != "."

/-- A component that leaves the tests root or reaches arbitrarily deep. -/
def escapes (part : String) : Bool :=
  part == ".." || (part.splitOn "**").length > 1

/-- The pattern text once one leading `./` is removed. -/
def trimmed (source : String) : String :=
  match source.dropPrefix? "./" with
  | some rest => rest.toString
  | none => source

/-- Read a pattern, checking in this order: empty, absolute, escaping, without components. -/
def parse (source : String) : Except Misconfig Pattern :=
  let rest := trimmed source
  if rest.isEmpty then .error .emptyPattern
  else if rest.startsWith "/" then .error (.absolutePattern source)
  else
    let ps := parts rest
    if ps.any escapes then .error (.escapingPattern source)
    else if ps.isEmpty then .error (.blankPattern source)
    else .ok ⟨source, ps.map Segment.ofText⟩

end Pattern

end SuiteRunner.Glob
