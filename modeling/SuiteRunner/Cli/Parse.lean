import SuiteRunner.Cli.Failure
import SuiteRunner.Cli.Similar

/-!
Reading the command line, one word at a time. An option that takes a value waits for the next
word, unless the value is attached with `=`; a waiting value, and the positional argument, are
checked only when the next argument starts or the words run out, so their errors surface then.
After `--` every word is positional. A word that starts with `-` is a new argument, except as the
value of an option that accepts such values. Help and version stop the reading as soon as they
are reached. When the words run out, the firmware must have been given.
-/

namespace SuiteRunner.Cli

/-- The arguments of a run as given on the command line. -/
structure Options where
  firmware : String
  emulator : Option String := none
  emulatorArgs : List String := []
  testsRoot : Option String := none
  patterns : List String := []
  timeout : Option Nat := none
  config : Option String := none
  verbose : Bool := false
  deriving Repr, DecidableEq, Inhabited

/-- The largest value of an unsigned 64-bit word. -/
def u64Max : Nat := UInt64.size - 1

/-- Read an unsigned 64-bit integer in decimal, with an optional `+`, character by character. -/
def readU64 (s : String) : Except String Nat :=
  let cs := s.toList
  let ds := match cs with
    | '+' :: rest => rest
    | _ => cs
  if cs.isEmpty then .error "cannot parse integer from empty string"
  else if ds.isEmpty then .error "invalid digit found in string"
  else
    ds.foldlM (fun acc c =>
      if c.isDigit then
        let v := acc * 10 + (c.toNat - '0'.toNat)
        if v > u64Max then .error "number too large to fit in target type" else .ok v
      else .error "invalid digit found in string") 0

/-- Check one value of an argument. -/
def checkValue (a : Arg) (v : String) : Except Failure String :=
  match a.accepts with
  | .anyText => .ok v
  | .path => if v.isEmpty then .error (.emptyValue a.display) else .ok v
  | .seconds =>
    match readU64 v with
    | .error r => .error (.invalidValue a.display v r)
    | .ok n =>
      if n < 1 then .error (.invalidValue a.display v s!"{n} is not in 1..{u64Max}")
      else .ok v

/-- The state of the reading. -/
structure Reading where
  /-- Arguments seen, in the order first seen, with their checked values. -/
  seen : List (ArgId × List String) := []
  /-- An argument whose values are gathered but not yet checked. -/
  pending : Option (ArgId × List String) := none
  /-- An option waiting for its value in the next word. -/
  awaiting : Option ArgId := none
  /-- Whether the positional argument was taken. -/
  positionalTaken : Bool := false
  /-- Whether `--` was passed. -/
  trailing : Bool := false
  deriving Repr, Inhabited

namespace Reading

/-- Whether an argument was seen. -/
def has (r : Reading) (i : ArgId) : Bool := r.seen.any (·.1 == i)

/-- Record an argument as seen, if it was not. -/
def start (r : Reading) (i : ArgId) : Reading :=
  if r.has i then r else { r with seen := r.seen ++ [(i, [])] }

/-- Add checked values to an argument. -/
def addValues (r : Reading) (i : ArgId) (vs : List String) : Reading :=
  { r with seen := r.seen.map fun e => if e.1 == i then (e.1, e.2 ++ vs) else e }

/-- Forget an argument. -/
def forget (r : Reading) (i : ArgId) : Reading := { r with seen := r.seen.filter (·.1 != i) }

/-- The arguments seen, in order. -/
def used (r : Reading) : List ArgId := r.seen.map (·.1)

end Reading

/-- The result of a step: the reading so far, and the failure that stops it, if any. Some
failures leave the reading changed. -/
abbrev Stepped := Reading × Option Failure

section Steps

variable (bin : String)

/-- Take an argument with its values: check how often it was used and its values. Help and
version stop here. -/
def takeArg (r : Reading) (a : Arg) (vals : List String) : Stepped :=
  if a.takesValue && vals.isEmpty then (r, some (.emptyValue a.display))
  else
    match a.shape with
    | .showHelp => (r, some (.showHelp (helpText bin)))
    | .showVersion => (r, some (.showVersion versionText))
    | .flag =>
      if r.has a.id then (r.forget a.id, some (.usedTwice a.display (usage bin [])))
      else ((r.start a.id).addValues a.id ["true"], none)
    | .single | .positional | .repeated =>
      if a.shape != .repeated && r.has a.id then
        (r.forget a.id, some (.usedTwice a.display (usage bin [])))
      else
        let r := r.start a.id
        match vals.mapM (checkValue a) with
        | .ok vs => (r.addValues a.id vs, none)
        | .error f => (r, some f)

/-- Check the pending argument, if any. -/
def settlePending (r : Reading) : Stepped :=
  match r.pending with
  | none => (r, none)
  | some (i, vals) => takeArg bin { r with pending := none } (argOf i) vals

/-- Check the pending argument, then take another. -/
def react (r : Reading) (a : Arg) (vals : List String) : Stepped :=
  match settlePending bin r with
  | (r, some f) => (r, some f)
  | (r, none) => takeArg bin r a vals

/-- Check the pending argument and ignore what is wrong with it. -/
def settleQuietly (r : Reading) : Reading := (settlePending bin r).1

/-- A word that names no known option, written `--name`. -/
def unknownLong (r : Reading) (name : String) : Stepped :=
  let r := settleQuietly bin r
  let similar := mostSimilar name longNames
  let r := match similar.bind byLong with
    | some a => r.start a.id
    | none => r
  (r, some (.unknownArgument ("--" ++ name) (similar.map ("--" ++ ·))
    (similar.isNone && !r.trailing) (usage bin r.used)))

/-- A word `--name` or `--name=value`. -/
def longWord (r : Reading) (body : String) : Stepped :=
  let (name, attached) := match body.splitOn "=" with
    | [] => ("", none)
    | [n] => (n, none)
    | n :: rest => (n, some ("=".intercalate rest))
  match byLong name with
  | none => unknownLong bin r name
  | some a =>
    if a.takesValue then
      match attached with
      | some v => react bin r a [v]
      | none =>
        match settlePending bin r with
        | (r, some f) => (r, some f)
        | (r, none) => ({ r with pending := some (a.id, []), awaiting := some a.id }, none)
    else
      match attached with
      | some v =>
        let used := (r.used.filter (· != .firmware)) ++ [a.id]
        (settleQuietly bin r, some (.unexpectedValue a.display v (usage bin used)))
      | none => react bin r a []

/-- A word of short flags, `-abc`. -/
def shortWord (r : Reading) : List Char → Stepped
  | [] => (r, none)
  | c :: cs =>
    match byShort c with
    | some a =>
      match react bin r a [] with
      | (r, none) => shortWord r cs
      | stopped => stopped
    | none =>
      let w := "-" ++ String.singleton c
      (settleQuietly bin r, some (.unknownArgument w none (!r.trailing) (usage bin [])))

/-- A positional word. -/
def positionalWord (r : Reading) (w : String) : Stepped :=
  if !r.positionalTaken then
    match settlePending bin r with
    | (r, some f) => (r, some f)
    | (r, none) => ({ r with pending := some (.firmware, [w]), positionalTaken := true }, none)
  else
    let looksLikeFlag := w.startsWith "-" && w != "-"
    (settleQuietly bin r, some (.unknownArgument w none (!r.trailing && looksLikeFlag) (usage bin [])))

/-- Whether the option awaiting a value takes words that start with `-`. -/
def awaitsHyphenValue (r : Reading) : Bool :=
  match r.awaiting with
  | some i => (argOf i).hyphenValues
  | none => false

/-- Read one word. -/
def word (r : Reading) (w : String) : Stepped :=
  if r.trailing then positionalWord bin r w
  else if w == "--" && !awaitsHyphenValue r then ({ r with trailing := true, awaiting := none }, none)
  else if w.startsWith "-" && w != "-" && w != "--" && !awaitsHyphenValue r then
    let body := (w.drop 1).toString
    if body.startsWith "-" then longWord bin { r with awaiting := none } (body.drop 1).toString
    else shortWord bin { r with awaiting := none } body.toList
  else
    match r.awaiting, r.pending with
    | some i, some (j, vals) =>
      if i == j then ({ r with pending := some (j, vals ++ [w]), awaiting := none }, none)
      else positionalWord bin r w
    | _, _ => positionalWord bin r w

/-- Read all words. -/
def words (r : Reading) : List String → Stepped
  | [] => (r, none)
  | w :: ws =>
    match word bin r w with
    | (r, none) => words r ws
    | stopped => stopped

end Steps

/-- The name the usage lines show: the file name of the program's path, or the program's own
name when there is none. -/
def binName (argv : List String) : String :=
  match argv.head? with
  | some p => (PathText.fileName? p).getD programName
  | none => programName

/-- The values of an argument. -/
def valuesOf (r : Reading) (i : ArgId) : List String :=
  ((r.seen.find? (·.1 == i)).map (·.2)).getD []

/-- Read a command line, program path first. -/
def parse (argv : List String) : Except Failure Options :=
  let bin := binName argv
  match words bin {} argv.tail with
  | (_, some f) => .error f
  | (r, none) =>
    match settlePending bin r with
    | (_, some f) => .error f
    | (r, none) =>
      match valuesOf r .firmware with
      | [] =>
        let firmware := argOf .firmware
        .error (.missingRequired [firmware.display] (usage bin (r.used ++ [.firmware])))
      | fw :: _ =>
        let one (i : ArgId) : Option String := (valuesOf r i).head?
        .ok { firmware := fw
              emulator := one .emulator
              emulatorArgs := valuesOf r .emulatorArg
              testsRoot := one .testsRoot
              patterns := valuesOf r .pattern
              timeout := (one .timeout).bind fun v => (readU64 v).toOption
              config := one .config
              verbose := r.has .verbose }

end SuiteRunner.Cli
