import SuiteRunner.Tally
import SuiteRunner.TestCase

/-!
The console narration of a run. Every event writes whole lines: the number of tests found,
progress before each test, its verdict after it, an interruption, and the final tally. Lines that
stand out may carry ANSI colour codes, which close with a reset at the end of the line. Each
function gives the lines of one event, without their newlines; `text` joins lines as written.
-/

namespace SuiteRunner.Report

/-- Colours a line may carry. -/
inductive Paint where
  | green
  | red
  | yellow
  | boldYellow
  | bold
  deriving Repr, DecidableEq

/-- The opening escape sequence of a colour. -/
def Paint.code : Paint → String
  | .green => "\x1b[32m"
  | .red => "\x1b[31m"
  | .yellow => "\x1b[33m"
  | .boldYellow => "\x1b[1;33m"
  | .bold => "\x1b[1m"

/-- The escape sequence that ends every coloured text. -/
def reset : String := "\x1b[0m"

/-- A text, coloured when colour is on. -/
def painted (color : Bool) (paint : Paint) (text : String) : String :=
  if color then paint.code ++ text ++ reset else text

/-- Lines as written: each followed by a newline. -/
def text (lines : List String) : String :=
  String.join (lines.map (· ++ "\n"))

/-- Fifty dashes between tests. -/
def separator : String := String.ofList (List.replicate 50 '-')

/-- The count of tests found, then a separator. -/
def discovered (count : Nat) : List String := [s!"Found {count} test files", separator]

/-- No test matched the patterns searched. -/
def noneFound (color : Bool) (searched : String) : List String :=
  [painted color .yellow s!"No test files found matching {searched}"]

/-- Progress before a test starts. -/
def started (index total : Nat) (c : TestCase) : List String :=
  [s!"[{index}/{total}] Running: {c.display}"]

/-- The verdict on a finished test, then a separator; nothing for an interrupted one. -/
def finished (color : Bool) (c : TestCase) : Verdict → List String
  | .success => [painted color .green s!"✓ Completed: {c.fileName}", separator]
  | .nonZeroExit code =>
    [painted color .red s!"✗ Failed: {c.fileName} (exit code: {code.toInt})", separator]
  | .launchError cause | .error cause =>
    [painted color .red s!"✗ Error running {c.fileName}: {cause}", separator]
  | .interrupted => []

/-- An empty line, then the test at which the operator stopped the run. -/
def interrupted (color : Bool) (c : TestCase) : List String :=
  ["", painted color .boldYellow s!"Interrupted at test: {c.display}"]

/-- The closing lines with the final tally. -/
def completed (color : Bool) (t : Tally) : List String :=
  [painted color .bold "All tests completed!", s!"{t.passed} passed, {t.failed} failed, {t.errored} errors"]

end SuiteRunner.Report
