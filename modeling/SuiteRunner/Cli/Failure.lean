import SuiteRunner.Cli.Spec

/-!
Why a command line is refused, and the text shown for it. Besides errors, asking for help or for
the version also ends the reading, with that text as the message. An error's text starts with
`error: `, may add tips and the usage line, and ends by pointing at `--help`.
-/

namespace SuiteRunner.Cli

/-- The usage line for when no argument was used: the program, `[OPTIONS]`, and the required
positional arguments. -/
def generalUsage (bin : String) : String :=
  let positionals := (args.filter (·.shape == .positional)).map Arg.display
  String.intercalate " " ([bin, "[OPTIONS]"] ++ positionals)

/-- The usage line listing the arguments used: their options in the order first used, then the
positional arguments. -/
def usedUsage (bin : String) (used : List ArgId) : String :=
  let opts := (used.filter (· != .firmware)).foldl (fun acc i => if acc.contains i then acc else acc ++ [i]) []
  let positionals := (args.filter (·.shape == .positional)).map Arg.display
  String.intercalate " " ([bin] ++ opts.map (Arg.display ∘ argOf) ++ positionals)

/-- The usage line with its title: general when nothing was used. -/
def usage (bin : String) (used : List ArgId) : String :=
  "Usage: " ++ (if used.isEmpty then generalUsage bin else usedUsage bin used)

/-- Why reading a command line stopped. -/
inductive Failure where
  | missingRequired (names : List String) (usage : String)
  /-- An argument no rule accepts; `similar` is a known option that looks like it, and
  `asValueTip` suggests passing it after `--`. -/
  | unknownArgument (arg : String) (similar : Option String) (asValueTip : Bool) (usage : String)
  | invalidValue (arg value reason : String)
  | emptyValue (arg : String)
  | usedTwice (arg : String) (usage : String)
  | unexpectedValue (arg value : String) (usage : String)
  | showHelp (text : String)
  | showVersion (text : String)
  deriving Repr, DecidableEq

namespace Failure

/-- The name of the kind of failure. -/
def kind : Failure → String
  | .missingRequired .. => "MissingRequiredArgument"
  | .unknownArgument .. => "UnknownArgument"
  | .invalidValue .. => "ValueValidation"
  | .emptyValue .. => "InvalidValue"
  | .usedTwice .. => "ArgumentConflict"
  | .unexpectedValue .. => "TooManyValues"
  | .showHelp .. => "DisplayHelp"
  | .showVersion .. => "DisplayVersion"

/-- The first line of an error, after `error: `. -/
def headline : Failure → String
  | .missingRequired names _ =>
    "the following required arguments were not provided:" ++ String.join (names.map ("\n  " ++ ·))
  | .unknownArgument a _ _ _ => s!"unexpected argument '{a}' found"
  | .invalidValue a v r => s!"invalid value '{v}' for '{a}': {r}"
  | .emptyValue a => s!"a value is required for '{a}' but none was supplied"
  | .usedTwice a _ => s!"the argument '{a}' cannot be used multiple times"
  | .unexpectedValue a v _ => s!"unexpected value '{v}' for '{a}' found; no more were expected"
  | .showHelp t | .showVersion t => t

/-- Tips after the first line. -/
def tips : Failure → String
  | .unknownArgument a similar asValue _ =>
    let first := match similar with
      | some s => s!"\n\n  tip: a similar argument exists: '{s}'"
      | none => ""
    let second :=
      if asValue then (if similar.isNone then "\n" else "") ++ s!"\n  tip: to pass '{a}' as a value, use '-- {a}'"
      else ""
    first ++ second
  | _ => ""

/-- The usage line an error shows, if any. -/
def usageLine? : Failure → Option String
  | .missingRequired _ u | .unknownArgument _ _ _ u | .usedTwice _ u | .unexpectedValue _ _ u => some u
  | _ => none

/-- The full text of a failure. -/
def render (f : Failure) : String :=
  match f with
  | .showHelp t | .showVersion t => t
  | _ =>
    let u := match f.usageLine? with
      | some u => "\n\n" ++ u
      | none => ""
    "error: " ++ f.headline ++ f.tips ++ u ++ "\n\nFor more information, try '--help'.\n"

end Failure

/-- A column of text padded with spaces to a width. -/
def padRight (s : String) (width : Nat) : String :=
  s ++ String.ofList (List.replicate (width - s.length) ' ')

/-- The help text: what the program does, the usage line, and every argument with its help, the
help texts aligned in one column per section. -/
def helpText (bin : String) : String :=
  let positionals := args.filter (·.shape == .positional)
  let options := args.filter (·.shape != .positional)
  let posWidth := positionals.foldl (fun w a => max w a.display.length) 0
  let longText (a : Arg) : String := match a.long, a.valueName with
    | some l, some v => s!"--{l} <{v}>"
    | some l, none => s!"--{l}"
    | none, _ => ""
  let optWidth := options.foldl (fun w a => max w (longText a).length) 0
  let posLines := positionals.map fun a => s!"  {padRight a.display posWidth}  {a.help}\n"
  let optLines := options.map fun a =>
    let shortText := match a.short with
      | some c => s!"-{c}, "
      | none => "    "
    s!"  {shortText}{padRight (longText a) optWidth}  {a.help}\n"
  s!"{about}\n\nUsage: {generalUsage bin}\n\nArguments:\n" ++ String.join posLines ++
    "\nOptions:\n" ++ String.join optLines

/-- The version text. -/
def versionText : String := s!"{programName} {programVersion}\n"

end SuiteRunner.Cli
