import SuiteRunner.PathText

/-!
The runner's command line: one required positional argument, the firmware image, and options
for the emulator, its arguments, the tests root, patterns, a time limit, a configuration file and
verbose logging, besides help and version. Each argument says how it is written, how often it may
appear, and which values it accepts: a path must not be empty, and a time limit is a whole number
of seconds from one up to `2^64 - 1`.
-/

namespace SuiteRunner.Cli

/-- The arguments of the command line. -/
inductive ArgId where
  | firmware
  | emulator
  | emulatorArg
  | testsRoot
  | pattern
  | timeout
  | config
  | verbose
  | help
  | version
  deriving Repr, DecidableEq, Inhabited

/-- How an argument is used. -/
inductive Shape where
  /-- A switch, given at most once. -/
  | flag
  /-- An option with one value, given at most once. -/
  | single
  /-- An option with one value per use, given any number of times. -/
  | repeated
  /-- Shows the help text. -/
  | showHelp
  /-- Shows the version. -/
  | showVersion
  /-- The positional argument. -/
  | positional
  deriving Repr, DecidableEq, Inhabited

/-- Which values an argument accepts. -/
inductive Accepts where
  | anyText
  | path
  | seconds
  deriving Repr, DecidableEq, Inhabited

/-- One argument of the command line. -/
structure Arg where
  id : ArgId
  long : Option String := none
  short : Option Char := none
  valueName : Option String := none
  shape : Shape
  accepts : Accepts := .anyText
  /-- Values that start with `-` are taken as values, not as new arguments. -/
  hyphenValues : Bool := false
  help : String
  deriving Repr, Inhabited

namespace Arg

/-- Whether the argument takes a value. -/
def takesValue (a : Arg) : Bool :=
  match a.shape with
  | .single | .repeated | .positional => true
  | _ => false

/-- How the argument is named in messages: `--long <VALUE>`, `--long`, or `<VALUE>`. -/
def display (a : Arg) : String :=
  match a.shape, a.long, a.valueName with
  | .positional, _, some v => s!"<{v}>"
  | _, some l, some v => s!"--{l} <{v}>"
  | _, some l, none => s!"--{l}"
  | _, none, _ =>
    match a.short with
    | some c => s!"-{c}"
    | none => ""

end Arg

/-- The program's name. -/
def programName : String := "run-tests"

/-- The program's version. -/
def programVersion : String := "0.1.0"

/-- What the program does, first in its help. -/
def about : String := "Run every test executable through the emulator and report pass/fail"

/-- Every argument, in the order of the help text. -/
def args : List Arg := [
  { id := .firmware, valueName := some "FIRMWARE", shape := .positional, accepts := .path,
    help := "BIOS image passed to the emulator for every test" },
  { id := .emulator, long := some "emulator", valueName := some "PROGRAM", shape := .single,
    accepts := .path, help := "Emulator program to run instead of the configured one" },
  { id := .emulatorArg, long := some "emulator-arg", valueName := some "ARG", shape := .repeated,
    hyphenValues := true, help := "Argument placed before the BIOS and test paths (repeatable)" },
  { id := .testsRoot, long := some "tests-root", valueName := some "DIR", shape := .single,
    accepts := .path, help := "Directory the test patterns are relative to" },
  { id := .pattern, long := some "pattern", valueName := some "GLOB", shape := .repeated,
    help := "Test file pattern, e.g. '*_tests/*.exe' (repeatable, replaces the defaults)" },
  { id := .timeout, long := some "timeout", valueName := some "SECS", shape := .single,
    accepts := .seconds, help := "Kill any test running longer than this many seconds" },
  { id := .config, long := some "config", valueName := some "FILE", shape := .single,
    accepts := .path, help := "Configuration file (default: platform config dir)" },
  { id := .verbose, long := some "verbose", short := some 'v', shape := .flag,
    help := "Log debug diagnostics to stderr" },
  { id := .help, long := some "help", short := some 'h', shape := .showHelp, help := "Print help" },
  { id := .version, long := some "version", short := some 'V', shape := .showVersion,
    help := "Print version" }]

/-- The argument with an identity. -/
def argOf (id : ArgId) : Arg := (args.find? (·.id == id)).getD default

/-- The option written `--name`. -/
def byLong (name : String) : Option Arg := args.find? (·.long == some name)

/-- The option written `-c`. -/
def byShort (c : Char) : Option Arg := args.find? (·.short == some c)

/-- The long names, in order. -/
def longNames : List String := args.filterMap (·.long)

end SuiteRunner.Cli
