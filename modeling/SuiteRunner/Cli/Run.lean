import SuiteRunner.Cli.Parse
import SuiteRunner.Config
import SuiteRunner.Discovery
import SuiteRunner.Launch
/-!
A run as the command line asks for it, merged with the configuration.

The steps, in order, each of which may end the run with a fault:
1. the configuration is read from `--config`, which must exist, or else from the user's
   configuration file when there is one, or else the defaults are used;
2. the emulator is `--emulator` with only the `--emulator-arg` values, or the configured program
   with the configured arguments, which `--emulator-arg` replaces when given; a bare program name
   is looked up on the search path;
3. the root is `--tests-root` or the configured one;
4. the patterns are the `--pattern` values or, when there are none, the configured ones; there
   must be at least one, and each must parse;
5. the time limit is `--timeout` or the configured one, and may not be zero;
6. the tests are discovered and run with the system runner, reporting to standard output, which
   may refuse a line; the operator may interrupt the run.

What the run takes from libraries and from the system is a `Host`.
-/

namespace SuiteRunner.Cli

open Glob

/-- What a run takes from outside the program, as the libraries and the system give it: the
user's configuration directory (`directories`), the lookup of a bare program name on the search
path (`which`, a path or nothing), the reading of a configuration's TOML text (`toml`, the
configuration or its error's text), the system runner under a time limit, and the operator's
Ctrl-C as the run loop sees it. -/
structure Host where
  configDir : Option String
  which : FileTree → String → Option String
  readConfig : String → Except String Config
  runner : Option Duration → Run.Runner FileTree
  operator : Run.Interrupt

/-- The configuration directory of the program on Linux: under the configuration home when that is
an absolute path, else under `.config` in the home directory; none without a home directory. -/
def configDirOf (env : Environment) : Option String :=
  env.home.map fun home =>
    match env.configHome with
    | some dir => if dir.startsWith "/" then PathText.join dir "psx-test-runner"
      else PathText.join home ".config/psx-test-runner"
    | none => PathText.join home ".config/psx-test-runner"

/-- The host of the modelled system: its configuration directory, the search path of the
environment, the configuration reader of `SuiteRunner.Toml`, the system runner, and an operator
who may press Ctrl-C. -/
def Host.system (env : Environment) : Host where
  configDir := configDirOf env
  which := fun tree => SuiteRunner.which tree env.path
  readConfig := Config.fromToml
  runner := systemRunner env
  operator := .armed false

/-- The user's configuration file in a configuration directory. -/
def userConfigPath (dir : String) : String :=
  PathText.join dir "config.toml"

/-- The configuration of a run: the file named on the command line, or the user's file when it
exists, or the defaults. -/
def configFor (host : Host) (tree : FileTree) (opts : Options) : Except Fault Config :=
  match opts.config with
  | some path => Config.load host.readConfig tree path
  | none =>
    match host.configDir with
    | some dir =>
      let path := userConfigPath dir
      if (tree.metadata path).toBool then Config.load host.readConfig tree path else .ok {}
    | none => .ok {}

/-- The emulator of a run. An explicit program never takes the configured arguments. -/
def emulatorFor (host : Host) (tree : FileTree) (opts : Options) (settings : EmulatorSettings) :
    Emulator :=
  let (program, leading) := match opts.emulator with
    | some p => (p, opts.emulatorArgs)
    | none => (settings.program, if opts.emulatorArgs.isEmpty then settings.args else opts.emulatorArgs)
  { program := resolveProgram (host.which tree) program, leadingArgs := leading }

/-- Parsing the patterns of a run, of which there must be at least one. -/
def patternsFor (sources : List String) : Except Fault (List Pattern) :=
  if sources.isEmpty then .error (.config .noPatterns)
  else sources.mapM fun s => (Pattern.parse s).mapError Fault.config

/-- The time limit of a run; zero seconds is refused. -/
def limitFor (opts : Options) (settings : RunSettings) : Except Fault (Option Duration) :=
  match opts.timeout.or settings.timeoutSecs with
  | some 0 => .error (.config .zeroTimeout)
  | secs => .ok (secs.map fun s => ⟨s, 0⟩)

/-- Everything a run needs, settled from the command line and the configuration. -/
def planFor (host : Host) (tree : FileTree) (opts : Options) :
    Except Fault (Run.Plan × Option Duration) := do
  let config ← configFor host tree opts
  let emulator := emulatorFor host tree opts config.emulator
  let root := opts.testsRoot.getD config.discovery.root
  let patterns ← patternsFor (if opts.patterns.isEmpty then config.discovery.patterns else opts.patterns)
  let limit ← limitFor opts config.run
  let plan : Run.Plan := { firmware := opts.firmware, emulator,
                           tests := Discovery.discover tree root patterns,
                           searched := Discovery.searched root patterns }
  pure (plan, limit)

/-- Running the suite the options describe, reporting to the console `out`; the operator may
interrupt it. -/
def run (host : Host) (tree : FileTree) (opts : Options) (color : Bool) (out : Run.Console) :
    Except Fault (Run.Result FileTree) := do
  let (plan, limit) ← planFor host tree opts
  pure (Run.runAll (host.runner limit) plan color host.operator out tree)

end SuiteRunner.Cli

namespace SuiteRunner.Cli

/-- What one use of the command line prints, and the status it exits with. -/
structure Answer where
  stdout : String := ""
  stderr : String := ""
  code : Nat := 0
  deriving Repr, DecidableEq

/-- The line printed above every command-line error. -/
def shortUsage : String := "Usage: " ++ programName ++ " <path/to/bios>"

/-- Using the command line: help and version print and succeed; another parse failure prints the
short usage and the error and fails; a fault of the run prints `Error:` and fails; a run that
ends prints its report and succeeds however many tests failed. -/
def invoke (host : Host) (tree : FileTree) (argv : List String) (color : Bool) : Answer :=
  match parse argv with
  | .error f =>
    match f with
    | .showHelp t | .showVersion t => { stdout := t }
    | _ => { stderr := shortUsage ++ "\n\n" ++ f.render ++ "\n", code := 1 }
  | .ok opts =>
    match run host tree opts color {} with
    | .error e => { stderr := "Error: " ++ e.message ++ "\n", code := 1 }
    | .ok r =>
      match r.ending with
      | .failed e => { stdout := r.console.text, stderr := "Error: " ++ e.message ++ "\n", code := 1 }
      | .panicked p =>
        { stdout := r.console.text, stderr := "thread 'main' panicked:\n" ++ p.message ++ "\n",
          code := 101 }
      | _ => { stdout := r.console.text }

/-- Whether the report is coloured: `CLICOLOR_FORCE` other than `0` forces colour, else
`NO_COLOR` turns it off, else colour is on when the output is a terminal and `CLICOLOR` is not
`0`. -/
def colorWanted (tty : Bool) (clicolor noColor force : Option String) : Bool :=
  if force.any (· != "0") then true
  else if noColor.isSome then false
  else clicolor != some "0" && tty

end SuiteRunner.Cli
