import SuiteRunner.Decimal.Shortest

/-!
How one emulator invocation ended, and the verdict the run gives it. Exit code zero passes; any
other code, or death by a signal, fails with that code (a signal `s` counts as code `-s`); a launch
failure and any other error are errors, a time limit among them. The negation is checked, as in a
build with overflow checks: the least 32-bit signal number has no negation, and classifying it
panics.
-/

namespace SuiteRunner

/-- A span of time in whole seconds and nanoseconds below one second. -/
structure Duration where
  secs : Nat
  nanos : Nat
  deriving Repr, DecidableEq, Inhabited

/-- The duration in seconds as a double: the seconds, plus the nanoseconds divided by `10^9`. -/
def Duration.toSeconds (d : Duration) : Float :=
  Float.ofNat d.secs + Float.ofNat d.nanos / 1000000000.0

/-- The shortest decimal text of the duration in seconds, without an exponent or a `.0`. -/
def Duration.secondsText (d : Duration) : String :=
  Decimal.render .plain d.toSeconds

/-- How a child process ended, as seen by the one who waited for it. -/
inductive Outcome where
  | exited (code : Int32)
  | signaled (signal : Int32)
  | launchFailed (cause : String)
  | waitFailed (cause : String)
  | timedOut (limit : Duration)
  deriving Repr, DecidableEq, Inhabited

/-- The verdict on one test. -/
inductive Verdict where
  | success
  | nonZeroExit (code : Int32)
  | launchError (cause : String)
  | error (cause : String)
  | interrupted
  deriving Repr, DecidableEq, Inhabited

/-- A panic of the program, which stops it with a message. -/
structure Panic where
  message : String
  deriving Repr, DecidableEq, Inhabited

/-- The panic of a negation that overflows. -/
def Panic.negateOverflow : Panic := ⟨"attempt to negate with overflow"⟩

/-- The negation of a 32-bit number, which panics at the least one. -/
def checkedNeg (s : Int32) : Except Panic Int32 :=
  if s = Int32.minValue then .error .negateOverflow else .ok (-s)

/-- The verdict on an outcome. A signal becomes its negated number as an exit code. -/
def Outcome.classify : Outcome → Except Panic Verdict
  | .exited code => .ok (if code = 0 then .success else .nonZeroExit code)
  | .signaled s => (checkedNeg s).map .nonZeroExit
  | .launchFailed cause => .ok (.launchError cause)
  | .waitFailed cause => .ok (.error cause)
  | .timedOut limit => .ok (.error s!"timed out after {limit.secondsText}s")

end SuiteRunner
