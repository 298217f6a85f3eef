import SuiteRunner.Outcome

/-!
Watching a child process to its end. The runner starts the child in a process group of its own
and arms a guard with the group's number. The guard kills the whole group, grandchildren
included, when it is told to or dropped, and it can do so once: killing takes the number. A child
that the wait saw end disarms it, so the group of a reaped child, whose number the system may give
to another, is left alone.

A watch stands at one of the points where the runner can be: before the start, waiting for the
child (up to the time limit when there is one), waiting for the kill of a child that outlived the
limit, returned with an outcome, or dropped while waiting, which is what an operator's interrupt
does to it. Every way out of the runner drops the guard. Events of the system move the watch from
one point to the next; an event that cannot happen where it stands is refused.
-/

namespace SuiteRunner

/-- How the system reports a process that ended: its exit code, the signal that killed it, or
neither, shown as text. -/
inductive ExitStatus where
  | code (c : Int32)
  | signal (s : Int32)
  | other (shown : String)
  deriving Repr, DecidableEq

/-- The outcome of a waited status: the exit code, else the signal, else a failed wait that shows
the status. -/
def Outcome.ofStatus : ExitStatus → Outcome
  | .code c => .exited c
  | .signal s => .signaled s
  | .other shown => .waitFailed s!"process ended without an exit code ({shown})"

/-- The guard on a child's process group: the group it kills, while it is armed. -/
structure GroupKill where
  pgid : Option Nat
  deriving Repr, DecidableEq

namespace GroupKill

/-- The guard of a child just started: its group has the child's number. -/
def new (pid : Nat) : GroupKill := ⟨some pid⟩

/-- The child ended by itself: leave its group alone. -/
def disarm (_ : GroupKill) : GroupKill := ⟨none⟩

/-- Kill the group the guard holds, if it holds one, and take it: the spent guard, and the groups
sent a kill. Dropping the guard does the same. -/
def kill (g : GroupKill) : GroupKill × List Nat := (⟨none⟩, g.pgid.toList)

end GroupKill

namespace Watch

/-- Where the runner stands. -/
inductive Stage where
  | start
  /-- Waiting for the child `pid` to end. -/
  | waiting (pid : Nat)
  /-- The child `pid` outlived `limit`; waiting for its kill. -/
  | killing (pid : Nat) (limit : Duration)
  | returned (outcome : Outcome)
  /-- Dropped while waiting. -/
  | dropped
  deriving Repr, DecidableEq

/-- What the system does next. -/
inductive Event where
  | spawned (pid : Nat)
  | refused (cause : String)
  | exits (status : ExitStatus)
  | waitFails (cause : String)
  /-- The time limit elapses before the child ends. -/
  | elapses
  /-- The kill of a child that outlived the limit completes, whether it worked or not. -/
  | killed
  /-- The watch is dropped. -/
  | drop
  deriving Repr, DecidableEq

end Watch

/-- A watch: where the runner stands, its guard, and the process groups sent a kill, in order. -/
structure Watch where
  stage : Watch.Stage
  guard : GroupKill
  signalled : List Nat
  deriving Repr

namespace Watch

/-- Before the start: no guard, and nothing sent. -/
def initial : Watch := ⟨.start, ⟨none⟩, []⟩

/-- The watch at `stage` once the guard `g` has killed its group, if it still held one. -/
def spend (stage : Stage) (g : GroupKill) (signalled : List Nat) : Watch :=
  ⟨stage, g.kill.1, signalled ++ g.kill.2⟩

/-- One event at the point the watch stands, under the time limit `limit`. -/
def step (limit : Option Duration) : Watch → Event → Option Watch
  | ⟨.start, _, sent⟩, .spawned pid => some ⟨.waiting pid, .new pid, sent⟩
  | ⟨.start, g, sent⟩, .refused cause => some ⟨.returned (.launchFailed cause), g, sent⟩
  | ⟨.waiting _, g, sent⟩, .exits status => some (spend (.returned (.ofStatus status)) g.disarm sent)
  | ⟨.waiting _, g, sent⟩, .waitFails cause =>
    some (spend (.returned (.waitFailed cause)) g.disarm sent)
  -- only a limit elapses; the runner then kills the group and waits for the child's own kill
  | ⟨.waiting pid, g, sent⟩, .elapses => limit.map fun l => spend (.killing pid l) g sent
  | ⟨.waiting _, g, sent⟩, .drop => some (spend .dropped g sent)
  | ⟨.killing _ l, g, sent⟩, .killed => some (spend (.returned (.timedOut l)) g sent)
  | ⟨.killing _ _, g, sent⟩, .drop => some (spend .dropped g sent)
  | _, _ => none

/-- The events in order, from the watch `w`; `none` when one of them cannot happen. -/
def run (limit : Option Duration) : Watch → List Event → Option Watch
  | w, [] => some w
  | w, ev :: evs => (step limit w ev).bind fun w' => run limit w' evs

/-- The outcome of a watch that returned. -/
def outcome? (w : Watch) : Option Outcome :=
  match w.stage with
  | .returned o => some o
  | _ => none

end Watch

end SuiteRunner
