import SuiteRunner.Outcome

/-!
The tally of a run: how many tests passed, failed and ended in an error. Recording a verdict adds
one to exactly one count, except that an interrupted test is not counted.
-/

namespace SuiteRunner

/-- Counts of verdicts so far. -/
structure Tally where
  passed : Nat := 0
  failed : Nat := 0
  errored : Nat := 0
  deriving Repr, DecidableEq, Inhabited

/-- Count one verdict. -/
def Tally.record (t : Tally) : Verdict → Tally
  | .success => { t with passed := t.passed + 1 }
  | .nonZeroExit _ => { t with failed := t.failed + 1 }
  | .launchError _ | .error _ => { t with errored := t.errored + 1 }
  | .interrupted => t

end SuiteRunner
