import SuiteRunner.Shell.Exec
import SuiteRunner.Run
import SuiteRunner.Watch
/-!
The system runner: it starts the emulator as a process of its own and waits for it, up to the
time limit when there is one.

A start that fails is a launch failure with the system's error text. A process that exits gives
its code, one killed by a signal gives the signal, and one still running at the limit is killed
with everything it started and gives a timeout with the limit. Its standard input is empty and its
output is discarded. Each start begins at time zero of its own clock; what the process does to the
file tree stays.
-/

namespace SuiteRunner

/-- A duration in nanoseconds. -/
def Duration.toNanos (d : Duration) : Nat := d.secs * 1000000000 + d.nanos

/-- The process number of the first process a runner starts. -/
def firstPid : Nat := 100

/-- The events of waiting for a child that ended as `e`: its status, or, when it is still running
at the limit, the limit elapsing and then its kill. With no limit nothing follows a child that
never ends. -/
def waitEvents : Option Duration → Shell.End → List Watch.Event
  | _, .exited c => [.exits (.code (Int32.ofNat c))]
  | _, .signaled sig => [.exits (.signal (Int32.ofNat sig))]
  | some _, _ => [.elapses, .killed]
  | none, _ => []

/-- Watching a child the system was asked to start: refused with an error, or started and ended
as `e`, leaving the file tree `tree'`. The outcome is the watch's, or `none` when the child never
ends and there is no limit, with the file tree afterwards. -/
def watchStart (limit : Option Duration) (tree : FileTree) :
    Except OsError (Shell.End × FileTree) → Option Outcome × FileTree
  | .error e => ((Watch.initial.run limit [.refused e.message]).bind Watch.outcome?, tree)
  | .ok (e, tree') =>
    ((Watch.initial.run limit (.spawned firstPid :: waitEvents limit e)).bind Watch.outcome?, tree')

/-- Starting a program with its arguments as a process of the modelled shell: the error of a start
that fails, or how the child ends and the file tree it leaves. -/
def shellStart (env : Environment) (tree : FileTree) (program : String) (args : List String)
    (limit : Option Duration) : Except OsError (Shell.End × FileTree) :=
  match spawn tree env.path program args with
  | .error e => .error e
  | .ok img =>
    let w : Shell.World := { tree, searchPath := env.path, deadline := limit.map Duration.toNanos,
                             nextPid := firstPid + 1, running := [firstPid] }
    let (e, w) := Shell.runImage Shell.runFuel w firstPid img [(1, .discard), (2, .discard)] []
    .ok (e, w.tree)

/-- Starting a program with its arguments and watching it: its outcome, or `none` when it never
ends and there is no limit, with the file tree afterwards. -/
def launch (env : Environment) (tree : FileTree) (program : String) (args : List String)
    (limit : Option Duration) : Option Outcome × FileTree :=
  watchStart limit tree (shellStart env tree program args limit)

/-- The runner that starts each invocation as a process, on the file tree. -/
def systemRunner (env : Environment) (limit : Option Duration) : Run.Runner FileTree :=
  fun tree inv =>
    match launch env tree inv.program inv.args limit with
    | (some outcome, tree) => (.done outcome false, tree)
    | (none, tree) => (.stalls, tree)

end SuiteRunner
