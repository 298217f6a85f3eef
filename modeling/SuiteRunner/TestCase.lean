import SuiteRunner.PathText

/-!
A test case is the path of one test executable, shown as written. Its file name, used in result
lines, is the last ordinary component of the path, or the whole path when there is none.
-/

namespace SuiteRunner

/-- One discovered test executable. -/
structure TestCase where
  path : String
  deriving Repr, DecidableEq, Inhabited

namespace TestCase

/-- The path as shown in progress lines. -/
def display (c : TestCase) : String := c.path

/-- The name shown in result lines: the file name, or the whole path without one. -/
def fileName (c : TestCase) : String := (PathText.fileName? c.path).getD c.path

end TestCase

end SuiteRunner
