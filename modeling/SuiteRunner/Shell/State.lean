import SuiteRunner.Shell.Parse
import SuiteRunner.Shell.Match
import SuiteRunner.Shell.Builtin
import SuiteRunner.Shell.Signal
/-!
The state a running script sees, and the steps of it that need no recursion.

The world is what all processes share: the file tree, the clock in nanoseconds, the deadline the
runner set, the next process number, the processes still running, signals sent to them, and the
output captured for a substitution or a pipe. A shell's own state is its process number, `$0`,
its positional parameters, its variables, the last status, its background jobs, where its file
descriptors lead and what is left of its standard input.

Time passes only while a program sleeps or the shell waits for a job; a process that would still
be running at the deadline ends there.
-/

namespace SuiteRunner.Shell

/-- Where a file descriptor's output goes. -/
inductive Sink where
  | discard
  | file (loc : Location)
  | capture
  deriving Repr, DecidableEq, Inhabited

/-- A background job: its process number, when it ends (`none`: not while the model looks), and
its status. -/
structure Job where
  pid : Nat
  finish : Option Nat
  status : Nat
  deriving Repr, DecidableEq

/-- How a process ended. -/
inductive End where
  | exited (code : Nat)
  | signaled (sig : Nat)
  /-- It never ends by itself. -/
  | stuck
  /-- It was still running at the deadline. -/
  | late
  deriving Repr, DecidableEq

/-- How a command left the shell that ran it. -/
inductive Flow where
  | next
  | exit (code : Nat)
  | killed (sig : Nat)
  | stuck
  | late
  deriving Repr, DecidableEq, Inhabited

/-- What all processes share. -/
structure World where
  tree : FileTree
  /-- The search path for bare command names. -/
  searchPath : List String := []
  clock : Nat := 0
  deadline : Option Nat := none
  nextPid : Nat := 100
  running : List Nat := []
  /-- Signals sent to running processes, as (process, signal). -/
  pending : List (Nat × Nat) := []
  captured : List UInt8 := []
  deriving Repr

/-- A shell session: the state of one running shell. -/
structure Session where
  pid : Nat
  arg0 : String
  params : List String
  vars : List (String × String) := []
  status : Nat := 0
  jobs : List Job := []
  lastJob : Option Nat := none
  fds : List (Nat × Sink) := [(1, .discard), (2, .discard)]
  input : List UInt8 := []
  errexit : Bool := false
  deriving Repr

/-- A running shell in its world. -/
structure St where
  w : World
  sh : Session
  deriving Repr

/-- A piece of an expanded word. -/
inductive Piece where
  /-- Characters; `quoted` ones are literal and keep an empty field, `splits` ones are cut at
  blanks. -/
  | chars (cs : List Char) (quoted splits : Bool)
  /-- A boundary between the fields of `"$@"`. -/
  | cut
  deriving Repr, DecidableEq

/-- The characters that separate fields. -/
def isFieldSeparator (c : Char) : Bool := c == ' ' || c == '\t' || c == '\n'

/-- The fields of expanded pieces, each character marked literal or not. -/
def fieldsOf (pieces : List Piece) : List (List (Char × Bool)) :=
  let step := fun (acc : List (List (Char × Bool)) × List (Char × Bool) × Bool) (p : Piece) =>
    let (done, cur, started) := acc
    match p with
    | .cut => (done ++ [cur], [], false)
    | .chars cs true _ => (done, cur ++ cs.map (·, true), true)
    | .chars cs false false => (done, cur ++ cs.map (·, false), started || !cs.isEmpty)
    | .chars cs false true =>
      cs.foldl (fun (done, cur, started) c =>
        if isFieldSeparator c then
          if started then (done ++ [cur], [], false) else (done, cur, started)
        else (done, cur ++ [(c, false)], true)) (done, cur, started)
  let (done, cur, started) := pieces.foldl step ([], [], false)
  if started then done ++ [cur] else done

/-- The text of expanded pieces without field splitting; the fields of `"$@"` are joined by a
space. -/
def textOf (pieces : List Piece) : String :=
  String.ofList (pieces.flatMap fun
    | .cut => [' ']
    | .chars cs _ _ => cs)

/-- The pattern of expanded pieces: their bytes, each marked literal when it was quoted. -/
def patternOf (pieces : List Piece) : List PatChar :=
  pieces.flatMap fun
    | .cut => [(32, true)]
    | .chars cs quoted _ => cs.flatMap fun c => (bytesOf (String.singleton c)).map (·, quoted)

/-- The plain text of a field. -/
def Field.text (f : List (Char × Bool)) : String := String.ofList (f.map (·.1))

namespace Session

/-- The value of a variable, empty when unset. -/
def var (sh : Session) (name : String) : String :=
  ((sh.vars.find? (·.1 == name)).map (·.2)).getD ""

/-- Whether a variable is set. -/
def isSet (sh : Session) (name : String) : Bool := sh.vars.any (·.1 == name)

/-- Setting a variable. -/
def setVar (sh : Session) (name value : String) : Session :=
  { sh with vars := (name, value) :: sh.vars.filter (·.1 != name) }

/-- Where a descriptor leads. -/
def sink (sh : Session) (fd : Nat) : Sink :=
  ((sh.fds.find? (·.1 == fd)).map (·.2)).getD .discard

/-- Pointing a descriptor somewhere. -/
def setFd (sh : Session) (fd : Nat) (s : Sink) : Session :=
  { sh with fds := (fd, s) :: sh.fds.filter (·.1 != fd) }

/-- The value of a parameter that is not a plain variable: positional, special or named. -/
def param (sh : Session) (name : String) : String :=
  match name with
  | "#" => toString sh.params.length
  | "?" => toString sh.status
  | "$" => toString sh.pid
  | "!" => (sh.lastJob.map toString).getD ""
  | "-" => if sh.errexit then "e" else ""
  | "0" => sh.arg0
  | _ =>
    if !name.isEmpty && name.all Char.isDigit then
      match digitsValue name.toList with
      | 0 => sh.arg0
      | i + 1 => sh.params.getD i ""
    else sh.var name

end Session

/-- The pieces a parameter expands to, inside double quotes or not. -/
def paramPieces (sh : Session) (name : String) (inQuotes : Bool) : List Piece :=
  if name == "@" then
    if inQuotes then
      match sh.params with
      | [] => []
      | p :: ps => ps.foldl (fun acc q => acc ++ [.cut, .chars q.toList true false]) [.chars p.toList true false]
    else [.chars (" ".intercalate sh.params).toList false true]
  else if name == "*" then [.chars (" ".intercalate sh.params).toList inQuotes (!inQuotes)]
  else [.chars (sh.param name).toList inQuotes (!inQuotes)]

/-- The text inside `${...}`: a parameter, its length with `#`, or a parameter with a default,
an assigned default or an alternative, written literally. Returns the value and the variable to
assign, if any. -/
def bracedValue (sh : Session) (body : String) : String × Option (String × String) :=
  let cs := body.toList
  match cs with
  | '#' :: rest@(_ :: _) => (toString (sh.param (String.ofList rest)).length, none)
  | _ =>
    let name := if cs.head?.any (fun c => isSpecialParam c) then cs.take 1
      else if cs.head?.any Char.isDigit then cs.takeWhile Char.isDigit
      else cs.takeWhile isNameChar
    let nameS := String.ofList name
    let rest := cs.drop name.length
    let value := sh.param nameS
    let setOrParam := (nameS.all Char.isDigit && !nameS.isEmpty) || isSpecialParam (nameS.toList.headD ' ') ||
      sh.isSet nameS
    let (colon, rest) := match rest with
      | ':' :: more => (true, more)
      | _ => (false, rest)
    let missing := !setOrParam || (colon && value.isEmpty)
    match rest with
    | [] => (value, none)
    | '-' :: word => if missing then (String.ofList word, none) else (value, none)
    | '=' :: word =>
      if missing then (String.ofList word, some (nameS, String.ofList word)) else (value, none)
    | '+' :: word => if missing then ("", none) else (String.ofList word, none)
    | '?' :: _ => (value, none)
    | _ => (value, none)

/-- Appending output to where a descriptor leads. -/
def World.write (w : World) (s : Sink) (bytes : List UInt8) : World :=
  match s with
  | .discard => w
  | .capture => { w with captured := w.captured ++ bytes }
  | .file loc =>
    match w.tree.node? loc with
    | some (.file content x) => { w with tree := w.tree.put loc (.file (content ++ bytes) x) }
    | _ => w

/-- Writing to a descriptor of the running shell. -/
def St.out (s : St) (fd : Nat) (bytes : List UInt8) : St :=
  { s with w := s.w.write (s.sh.sink fd) bytes }

/-- Setting the last status. -/
def St.setStatus (s : St) (code : Nat) : St := { s with sh := { s.sh with status := code } }

/-- Opening a file for writing, creating it in an existing directory when it is missing and
emptying it when `truncate` is set. `/dev/null` discards. -/
def openForWrite (t : FileTree) (path : String) (truncate : Bool) : Except OsError (FileTree × Sink) :=
  match t.resolve path with
  | .ok loc =>
    if loc == devNull then .ok (t, .discard)
    else
      match t.node? loc with
      | some (.file _ x) => .ok (if truncate then t.put loc (.file [] x) else t, .file loc)
      | some .dir => .error .isADirectory
      | _ => .error .notFound
  | .error .notFound => do
    let t ← t.append path []
    let loc ← t.resolve path
    pure (t, .file loc)
  | .error e => .error e

/-- Applying a redirection whose target is already expanded. -/
def redirect (s : St) (r : Redir) (target : String) : Except String St :=
  match r.op with
  | .write | .append | .readWrite =>
    match openForWrite s.w.tree target (r.op == .write) with
    | .ok (t, sink) => .ok { w := { s.w with tree := t }, sh := s.sh.setFd r.fd sink }
    | .error e => .error ("cannot create " ++ target ++ ": " ++ e.message)
  | .read =>
    match s.w.tree.readFile target with
    | .ok bytes =>
      if r.fd == 0 then .ok { s with sh := { s.sh with input := bytes } }
      else .ok { s with sh := s.sh.setFd r.fd .discard }
    | .error e => .error ("cannot open " ++ target ++ ": " ++ e.message)
  | .duplicate =>
    if target == "-" then .ok { s with sh := s.sh.setFd r.fd .discard }
    else if !target.isEmpty && target.all Char.isDigit then
      let from_ := digitsValue target.toList
      if from_ == 0 then .ok s
      else if from_ == 1 || from_ == 2 || s.sh.fds.any (·.1 == from_) then
        .ok { s with sh := s.sh.setFd r.fd (s.sh.sink from_) }
      else .error (target ++ ": Bad file descriptor")
    else .error (target ++ ": Bad file descriptor")

/-- The special builtins: an error in one, or in its redirections, ends a script. -/
def specialBuiltins : List String :=
  [":", "break", "continue", ".", "eval", "exec", "exit", "export", "readonly", "return", "set",
   "shift", "times", "trap", "unset"]

/-- The other builtins. -/
def regularBuiltins : List String :=
  ["true", "false", "echo", "printf", "kill", "wait", "test", "[", "cd", "pwd", "read", "umask",
   "local", "command", "type", "ulimit", "getopts", "alias", "unalias", "jobs", "hash"]

/-- The largest number the shell's builtins accept, that of a signed 32-bit integer. -/
def shellNumberLimit : Nat := 2147483647

/-- A number as the shell's builtins read one: decimal digits only, at most `shellNumberLimit`. -/
def shellNumber? (s : String) : Option Nat :=
  if !s.isEmpty && s.all Char.isDigit then
    let n := digitsValue s.toList
    if n ≤ shellNumberLimit then some n else none
  else none

/-- The signal a `kill` option names: a number below the limit or a name. -/
def signalOf? (spec : String) : Option Nat :=
  match shellNumber? spec with
  | some n => if n < signalLimit then some n else none
  | none => signalByName spec

/-- The signal and targets of `kill`'s arguments, or its usage error. -/
def killArgs (args : List String) : Except String (Nat × List String) :=
  match args with
  | "-s" :: spec :: rest =>
    match signalOf? spec with
    | some n => .ok (n, rest)
    | none => .error ("invalid signal number or name: " ++ spec)
  | "-n" :: spec :: rest =>
    match signalOf? spec with
    | some n => .ok (n, rest)
    | none => .error ("invalid signal number or name: " ++ spec)
  | "--" :: rest => .ok (15, rest)
  | first :: rest =>
    if first.startsWith "-" && first.length > 1 then
      match signalOf? (first.drop 1).toString with
      | some n => .ok (n, rest)
      | none => .error ("Illegal option " ++ first)
    else .ok (15, args)
  | [] => .error "Usage: kill [-s sigspec | -signum | -sigspec] [pid | job]..."

/-- What a signal does to the shell itself, as a flow; `none` when the shell carries on. -/
def selfSignal (sig : Nat) : Option Flow :=
  if sig == 0 then none
  else match disposition sig with
    | .terminate => some (.killed sig)
    | .stop => some .stuck
    | _ => none

/-- Sending a signal to one process number from a shell: to itself it ends the shell; to one of
its jobs it ends the job now; to another running process it is left pending for it. The flag
says whether the target existed. -/
def sendSignal (s : St) (sig : Nat) (pid : Nat) : Option Flow × St × Bool :=
  if pid == s.sh.pid || pid == 0 then (selfSignal sig, s, true)
  else if s.sh.jobs.any (·.pid == pid) then
    let ends := sig != 0 && disposition sig == .terminate
    let jobs := s.sh.jobs.map fun j =>
      if j.pid == pid && ends && (j.finish.all (· > s.w.clock)) then
        { j with finish := some s.w.clock, status := 128 + sig }
      else j
    (none, { s with sh := { s.sh with jobs } }, true)
  else if s.w.running.contains pid then
    (none, { s with w := { s.w with pending := s.w.pending ++ [(pid, sig)] } }, true)
  else (none, s, false)

/-- The flow of a signal left pending for the shell, taking it off the list. -/
def takePending (s : St) : Option Flow × St :=
  match s.w.pending.find? (·.1 == s.sh.pid) with
  | some (_, sig) =>
    let s := { s with w := { s.w with pending := s.w.pending.filter (·.1 != s.sh.pid) } }
    (selfSignal sig, s)
  | none => (none, s)

/-- Letting time pass until `stopAt`; at or past the deadline the process ends there. -/
def World.advance (w : World) (stopAt : Nat) : Flow × World :=
  match w.deadline with
  | some d => if stopAt ≥ d then (.late, { w with clock := d }) else (.next, { w with clock := max w.clock stopAt })
  | none => (.next, { w with clock := max w.clock stopAt })

/-- Waiting for jobs: the latest end among them, or a stuck wait when one never ends. -/
def waitFor (s : St) (jobs : List Job) : Flow × St :=
  if jobs.any (·.finish.isNone) then
    match s.w.deadline with
    | some d => (.late, { s with w := { s.w with clock := d } })
    | none => (.stuck, s)
  else
    let stopAt := jobs.foldl (fun m j => max m (j.finish.getD 0)) s.w.clock
    let (flow, w) := s.w.advance stopAt
    (flow, { s with w })

/-- The flow of a process end for the shell that waited for it, and the status it leaves. -/
def End.status : End → Nat ⊕ Flow
  | .exited c => .inl c
  | .signaled sig => .inl (128 + sig)
  | .stuck => .inr .stuck
  | .late => .inr .late

/-- The status of a failed exec, as the shell reports it. -/
def execFailureStatus : OsError → Nat
  | .notFound | .notADirectory => 127
  | .permissionDenied => 126
  | _ => 2

end SuiteRunner.Shell
