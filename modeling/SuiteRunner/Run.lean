import SuiteRunner.Report
import SuiteRunner.Emulator
import SuiteRunner.Fault

/-!
The run loop. Tests run one at a time in the order given. Before each test the loop looks at the
operator's interrupt: once it is tripped, the run stops at that test without starting it. While a
test runs, the interrupt wins over the test's own end, so a test that never finishes is reported
as interrupted when the interrupt can fire; an interrupt that fires after a test's progress line
and before its call is first polled wins that race too, and the call is never made. Verdicts of
tests that ran are tallied; a fault in a test never stops the queue, but an outcome whose
classification panics stops the whole run. Writing a report line may fail, and that failure ends
the run.

The runner is a parameter: a step function on a state of its own, which for the system is the
file tree and for a scripted runner its list of replies.
-/

namespace SuiteRunner.Run

/-- The operator's stop request as the loop sees it. -/
inductive Interrupt where
  /-- An interrupt that can never fire. -/
  | inert
  /-- An interrupt that can fire; `tripped` once it has. -/
  | armed (tripped : Bool)
  /-- An interrupt not yet fired, which the operator fires once test `index` has found it
  untripped and before that test's call is first polled. -/
  | firesAt (index : Nat)
  deriving Repr, DecidableEq

namespace Interrupt

/-- Whether the interrupt has fired. -/
def isTripped : Interrupt → Bool
  | .inert => false
  | .armed t => t
  | .firesAt _ => false

/-- Fire the interrupt; an inert one stays silent. -/
def trip : Interrupt → Interrupt
  | .inert => .inert
  | .armed _ => .armed true
  | .firesAt _ => .armed true

/-- Whether the interrupt fires between the progress line of test `index` and the first poll of
its call. -/
def preempts : Interrupt → Nat → Bool
  | .firesAt i, index => i == index
  | _, _ => false

end Interrupt

/-- What became of one invocation. -/
inductive Reply where
  /-- The process ended; `trips` says the interrupt fired while it ran, after its end. -/
  | done (outcome : Outcome) (trips : Bool)
  /-- The process never ends, and the interrupt fires while it runs. -/
  | stalls
  deriving Repr, DecidableEq

/-- A runner: starts one process on its own state and says how it ended. -/
abbrev Runner (σ : Type) := σ → Invocation → Reply × σ

/-- Everything a run needs besides the runner. -/
structure Plan where
  firmware : String
  emulator : Emulator
  tests : List TestCase
  /-- The patterns searched, as shown when nothing matched. -/
  searched : String
  deriving Repr

/-- How a run ended when it ended normally. -/
inductive Status where
  | noTests
  | completed (tally : Tally)
  /-- Stopped at the test with this 1-based index, with the tally of the tests before it. -/
  | interrupted (index : Nat) (test : TestCase) (tally : Tally)
  deriving Repr, DecidableEq

/-- Where report lines go: the lines accepted so far and, for a writer that fails, how many more
lines it accepts and the error it then returns (`none`: it never fails). A line is written and
flushed as a whole or refused. -/
structure Console where
  lines : List String := []
  room : Option (Nat × OsError) := none
  deriving Repr

namespace Console

/-- Write lines one at a time; the first refused line ends the writing with the writer's error,
and the lines before it stay written. -/
def emit : Console → List String → Except (OsError × Console) Console
  | c, [] => .ok c
  | c, l :: ls =>
    match c.room with
    | some (0, e) => .error (e, c)
    | some (n + 1, e) => emit { lines := c.lines ++ [l], room := some (n, e) } ls
    | none => emit { c with lines := c.lines ++ [l] } ls

/-- Everything written, with newlines. -/
def text (c : Console) : String := Report.text c.lines

end Console

/-- How a run ended. -/
inductive Ending where
  | finished (status : Status)
  /-- Writing the report failed. -/
  | failed (fault : Fault)
  /-- A test never ended and nothing could stop it. -/
  | stalled
  /-- Classifying the outcome of a test panicked. -/
  | panicked (panic : Panic)
  deriving Repr

/-- The end of a run with the console and the runner's state at that point. -/
structure Result (σ : Type) where
  ending : Ending
  console : Console
  state : σ

section Loop

variable {σ : Type} (runner : Runner σ) (plan : Plan) (color : Bool) (total : Nat)

/-- Write lines, then go on with `next`; a failed write ends the run. -/
def emitThen (c : Console) (s : σ) (lines : List String) (next : Console → Result σ) :
    Result σ :=
  match c.emit lines with
  | .ok c => next c
  | .error (e, c) => ⟨.failed (.io e), c, s⟩

/-- The tests from `index` on, with the tally so far. -/
def loop : Nat → List TestCase → Tally → Interrupt → Console → σ → Result σ
  | _, [], tally, _, c, s =>
    emitThen c s (Report.completed color tally) fun c => ⟨.finished (.completed tally), c, s⟩
  | index, t :: rest, tally, intr, c, s =>
    let stop := fun (c : Console) (s : σ) =>
      emitThen c s (Report.interrupted color t) fun c =>
        ⟨.finished (.interrupted index t tally), c, s⟩
    if intr.isTripped then stop c s
    else
      emitThen c s (Report.started index total t) fun c =>
        if intr.preempts index then stop c s
        else
          match runner s (plan.emulator.invocation plan.firmware t.path) with
          | (.stalls, s') =>
            if (intr.trip).isTripped then stop c s' else ⟨.stalled, c, s'⟩
          | (.done outcome trips, s') =>
            match outcome.classify with
            | .error p => ⟨.panicked p, c, s'⟩
            | .ok verdict =>
              let intr' := if trips then intr.trip else intr
              emitThen c s' (Report.finished color t verdict) fun c =>
                loop (index + 1) rest (tally.record verdict) intr' c s'

end Loop

/-- Run every test of the plan in order. -/
def runAll {σ : Type} (runner : Runner σ) (plan : Plan) (color : Bool) (intr : Interrupt)
    (c : Console) (s : σ) : Result σ :=
  if plan.tests.isEmpty then
    emitThen c s (Report.noneFound color plan.searched) fun c => ⟨.finished .noTests, c, s⟩
  else
    let total := plan.tests.length
    emitThen c s (Report.discovered total) fun c =>
      loop runner plan color total 1 plan.tests {} intr c s

end SuiteRunner.Run
