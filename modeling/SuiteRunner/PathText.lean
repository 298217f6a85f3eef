/-!
Paths as text, separated by `/`. Joining appends a separator only when the base is non-empty and
does not already end in one, and an absolute part replaces the base. The components of a path
drop empty parts and `.`, except a `.` that opens a relative path; the file name is the last
component when it is an ordinary name.
-/

namespace SuiteRunner.PathText

/-- Append `part` to `base`, with one separator between them unless `base` is empty or already
ends in `/`; an absolute `part` replaces `base`. -/
def join (base part : String) : String :=
  if part.startsWith "/" then part
  else if base.isEmpty || base.endsWith "/" then base ++ part
  else base ++ "/" ++ part

/-- One step of a path. -/
inductive Component where
  | root
  | current
  | parent
  | normal (name : String)
  deriving Repr, DecidableEq

/-- The components of a path, outermost first. -/
def components (p : String) : List Component :=
  let parts := p.splitOn "/"
  let head : List Component :=
    if p.startsWith "/" then [.root]
    else if parts.head? = some "." then [.current]
    else []
  let body := parts.filter fun s => !s.isEmpty && s != "."
  head ++ body.map fun s => if s == ".." then .parent else .normal s

/-- The final component when it is an ordinary name. -/
def fileName? (p : String) : Option String :=
  match (components p).getLast? with
  | some (.normal n) => some n
  | _ => none

/-- Remove every leading `./` from a list of characters. -/
def dropLeadingDotsList : List Char → List Char
  | '.' :: '/' :: rest => dropLeadingDotsList rest
  | cs => cs

/-- Remove every leading `./`. -/
def dropLeadingDots (s : String) : String :=
  String.ofList (dropLeadingDotsList s.toList)

end SuiteRunner.PathText
