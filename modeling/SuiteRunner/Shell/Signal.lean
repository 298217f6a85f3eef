/-!
Signals by number and name, and what a process that keeps the default handling does on each:
most end it, some are ignored, and the stop signals suspend it until it is continued.
-/

namespace SuiteRunner.Shell

/-- What a signal does to a process that keeps the default handling. -/
inductive Disposition where
  | terminate
  | ignore
  | stop
  | resume
  deriving Repr, DecidableEq

/-- One past the largest signal number. -/
def signalLimit : Nat := 65

/-- The names of signals `1` to `31`, without the `SIG` prefix. -/
def signalNames : List String :=
  ["HUP", "INT", "QUIT", "ILL", "TRAP", "ABRT", "BUS", "FPE", "KILL", "USR1", "SEGV", "USR2",
   "PIPE", "ALRM", "TERM", "STKFLT", "CHLD", "CONT", "STOP", "TSTP", "TTIN", "TTOU", "URG",
   "XCPU", "XFSZ", "VTALRM", "PROF", "WINCH", "IO", "PWR", "SYS"]

/-- The number of a signal named with or without `SIG`, in any case. -/
def signalByName (name : String) : Option Nat :=
  let up := name.toUpper
  let bare := if up.startsWith "SIG" then (up.drop 3).toString else up
  if bare == "IOT" then some 6
  else if bare == "POLL" then some 29
  else ((signalNames.idxOf? bare).map (· + 1))

/-- The default handling of a signal number. -/
def disposition (sig : Nat) : Disposition :=
  if sig == 17 || sig == 23 || sig == 28 then .ignore
  else if sig == 18 then .resume
  else if 19 ≤ sig && sig ≤ 22 then .stop
  else .terminate

end SuiteRunner.Shell
