/-!
Faults the runner reports, each a cause with one message function. Operating-system errors keep
the wording and number of the system call that failed; configuration problems name the pattern
or setting at fault.
-/

namespace SuiteRunner

/-- An error returned by the operating system while reading, listing or launching. -/
inductive OsError where
  | notFound
  | permissionDenied
  | notADirectory
  | isADirectory
  | execFormat
  | tooManyLinks
  /-- The reader of a pipe went away. -/
  | brokenPipe
  /-- A file read as text held bytes that are not UTF-8. -/
  | invalidUtf8
  deriving Repr, DecidableEq, Inhabited

/-- The text of an operating-system error, with its error number where the system gives one. -/
def OsError.message : OsError → String
  | .notFound => "No such file or directory (os error 2)"
  | .permissionDenied => "Permission denied (os error 13)"
  | .notADirectory => "Not a directory (os error 20)"
  | .isADirectory => "Is a directory (os error 21)"
  | .execFormat => "Exec format error (os error 8)"
  | .tooManyLinks => "Too many levels of symbolic links (os error 40)"
  | .brokenPipe => "Broken pipe (os error 32)"
  | .invalidUtf8 => "stream did not contain valid UTF-8"

/-- A setting that cannot be used, found after the configuration was read. -/
inductive Misconfig where
  /-- The pattern is empty once one leading `./` is removed. -/
  | emptyPattern
  /-- The pattern starts at the file system root. -/
  | absolutePattern (source : String)
  /-- A component of the pattern is `..` or holds `**`. -/
  | escapingPattern (source : String)
  /-- Every component of the pattern is empty or `.`. -/
  | blankPattern (source : String)
  /-- Neither the command line nor the configuration gives a pattern. -/
  | noPatterns
  /-- The time limit is zero seconds. -/
  | zeroTimeout
  deriving Repr, DecidableEq

/-- The text of a configuration problem. -/
def Misconfig.message : Misconfig → String
  | .emptyPattern => "Empty test pattern"
  | .absolutePattern s => s!"Test pattern '{s}' must be relative to the tests root"
  | .escapingPattern s => s!"Test pattern '{s}' may not use '..' or '**'"
  | .blankPattern s => s!"Test pattern '{s}' is empty"
  | .noPatterns => "At least one test pattern is required"
  | .zeroTimeout => "timeout_secs must be at least 1"

/-- Everything that stops a run before or while it reports. -/
inductive Fault where
  /-- The command line could not be used; the text is the full explanation. -/
  | usage (text : String)
  | config (problem : Misconfig)
  /-- The configuration file is not valid; the text is the rendered reading error. -/
  | configParse (text : String)
  | io (cause : OsError)
  | fileRead (path : String) (cause : OsError)
  deriving Repr, DecidableEq

/-- The text shown for a fault. -/
def Fault.message : Fault → String
  | .usage t => t
  | .config p => s!"Configuration error: {p.message}"
  | .configParse t => s!"Invalid configuration file: {t}"
  | .io e => s!"IO error: {e.message}"
  | .fileRead path e => s!"Failed to read file '{path}': {e.message}"

end SuiteRunner
