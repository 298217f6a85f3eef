import SuiteRunner.Shell.State
/-!
Running scripts and programs.

`runImage` runs one process image to its end: a system program, or a shell reading a script.
The shell runs a script a complete command at a time and stops with status 2 at a syntax
error. Commands are run as the standard describes: words are expanded and split into fields,
redirections are opened (an error in a special builtin's redirection ends the script), and then
a builtin runs in the shell or a program is started and waited for. A program file that is not
an executable format is run as a script by the shell itself. Background jobs run at once on a
copy of the clock; `wait` moves the clock to their end. `set -e` ends the script at a failing
command outside a condition.

Every function takes fuel and spends one unit per call; a run that uses it all up is taken as one
that never ends.
-/

namespace SuiteRunner.Shell

/-- The fuel a process is run with. -/
def runFuel : Nat := 10000

/-- Text without its final newlines, as a substitution gives it. -/
def dropFinalNewlines (s : String) : String :=
  String.ofList (s.toList.reverse.dropWhile (· == '\n')).reverse

/-- Replacing the parameters written inside an arithmetic expression by their values. -/
def arithText (sh : Session) : Nat → List Char → String → String
  | 0, _, acc => acc
  | _ + 1, [], acc => acc
  | fuel + 1, '$' :: '\x7b' :: rest, acc =>
    let body := rest.takeWhile (· != '\x7d')
    arithText sh fuel (rest.drop (body.length + 1)) (acc ++ sh.param (String.ofList body))
  | fuel + 1, '$' :: c :: rest, acc =>
    if isNameStart c then
      let name := c :: rest.takeWhile isNameChar
      arithText sh fuel (rest.drop (name.length - 1)) (acc ++ sh.param (String.ofList name))
    else if isSpecialParam c then arithText sh fuel rest (acc ++ sh.param (String.singleton c))
    else arithText sh fuel (c :: rest) (acc.push '$')
  | fuel + 1, c :: rest, acc => arithText sh fuel rest (acc.push c)

/-- Whether a parameter name is written plainly: a name, a digit run or a special parameter. -/
def isPlainParam (name : String) : Bool :=
  isName name || (!name.isEmpty && name.all Char.isDigit) ||
    (name.length == 1 && isSpecialParam (name.toList.headD ' '))

/-- How opening a command's redirections went. -/
inductive Opened where
  | ok (s : St)
  /-- A redirection could not be opened. -/
  | failed (msg : String) (s : St)
  /-- Expanding a target ended the shell. -/
  | flow (f : Flow) (s : St)

/-- How the shell was asked to run: a command string, a script file, or its standard input. -/
inductive Source where
  | command (text : String)
  | file (path : String)
  | stdin
  deriving Repr, DecidableEq

/-- A shell's reading of its arguments: its options, what it runs, `$0` and the parameters. -/
structure Invocation where
  source : Source
  arg0 : String
  params : List String
  errexit : Bool
  deriving Repr

/-- Reading the shell's options: `-c` takes a command string, `-e` stops at the first failure,
other options are accepted and ignored, and `--` or `-` ends them. -/
def shellInvocation (name : String) : List String → Bool → Bool → Except String Invocation
  | [], cmd, e => if cmd then .error "-c requires an argument" else .ok ⟨.stdin, name, [], e⟩
  | a :: rest, cmd, e =>
    if a == "--" || a == "-" then
      if cmd then
        match rest with
        | c :: more => .ok ⟨.command c, more.headD name, more.drop 1, e⟩
        | [] => .error "-c requires an argument"
      else
        match rest with
        | p :: more => .ok ⟨.file p, p, more, e⟩
        | [] => .ok ⟨.stdin, name, [], e⟩
    else if (a.startsWith "-" || a.startsWith "+") && a.length > 1 then
      let on := a.startsWith "-"
      let flags := (a.drop 1).toString.toList
      let e := if flags.contains 'e' then on else e
      let cmd := cmd || (on && flags.contains 'c')
      if flags.contains 'o' then
        match rest with
        | opt :: more => shellInvocation name more cmd (if opt == "errexit" then on else e)
        | [] => shellInvocation name [] cmd e
      else shellInvocation name rest cmd e
    else if cmd then .ok ⟨.command a, rest.headD name, rest.drop 1, e⟩
    else .ok ⟨.file a, a, rest, e⟩

/-- The `env` program's arguments after its options and assignments. -/
def envCommand : List String → List String
  | a :: rest =>
    if a == "-i" || a == "-" then envCommand rest
    else if a == "--" then rest
    else if (a.splitOn "=").length > 1 && !a.startsWith "=" then envCommand rest
    else a :: rest
  | [] => []

/-- The flow of a script that ran to its end with the last status. -/
def End.ofFlow (status : Nat) : Flow → End
  | .next => .exited (status % 256)
  | .exit c => .exited (c % 256)
  | .killed sig => .signaled sig
  | .stuck => .stuck
  | .late => .late

/-- Ending the shell when `set -e` is on, a failure is not inside a condition, and the status is
not zero. -/
def errexitCheck (s : St) (guarded : Bool) : Flow × St :=
  if s.sh.errexit && !guarded && s.sh.status != 0 then (.exit s.sh.status, s) else (.next, s)

/-- Reading a line for `read`: the variables get its fields, the last one the rest of the line. -/
def readLine (s : St) (names : List String) : St :=
  let input := s.sh.input
  let line := input.takeWhile (· != 10)
  let hadNewline := input.length > line.length
  let rest := input.drop (line.length + 1)
  let text := textOfBytes line
  let names := if names.isEmpty then ["REPLY"] else names
  let rec assign : List String → List Char → Session → Session
    | [], _, sh => sh
    | [v], cs, sh => sh.setVar v (String.ofList ((cs.dropWhile isFieldSeparator).reverse.dropWhile isFieldSeparator).reverse)
    | v :: vs, cs, sh =>
      let cs := cs.dropWhile isFieldSeparator
      let word := cs.takeWhile (fun c => !isFieldSeparator c)
      assign vs (cs.drop word.length) (sh.setVar v (String.ofList word))
  let sh := assign names text.toList { s.sh with input := rest }
  { s with sh := { sh with status := if hadNewline then 0 else 1 } }

/-- The text of the working directory. -/
def cwdText (t : FileTree) : String :=
  "/" ++ "/".intercalate (t.cwd.map textOfBytes)

mutual

/-- Expanding the parts of a word into pieces; the status of the last substitution is kept. -/
def expandParts : Nat → St → List Part → List Piece → Option Nat →
    (Except Flow (List Piece × Option Nat)) × St
  | 0, s, _, _, _ => (.error .stuck, s)
  | _ + 1, s, [], acc, last => (.ok (acc, last), s)
  | n + 1, s, p :: ps, acc, last =>
    match p with
    | .text t => expandParts n s ps (acc ++ [.chars t.toList false false]) last
    | .quoted t => expandParts n s ps (acc ++ [.chars t.toList true false]) last
    | .param name q =>
      if isPlainParam name then expandParts n s ps (acc ++ paramPieces s.sh name q) last
      else
        let (v, assign) := bracedValue s.sh name
        let s := match assign with
          | some (k, x) => { s with sh := s.sh.setVar k x }
          | none => s
        expandParts n s ps (acc ++ [.chars v.toList q (!q)]) last
    | .substitution body q =>
      let (r, s) := capture n s body
      match r with
      | .error f => (.error f, s)
      | .ok (out, status) =>
        expandParts n s ps (acc ++ [.chars (dropFinalNewlines out).toList q (!q)]) (some status)
    | .arithmetic expr q =>
      let text := arithText s.sh (expr.length + 1) expr.toList ""
      match evalArith s.sh.param text with
      | .ok v => expandParts n s ps (acc ++ [.chars (toString v).toList q (!q)]) last
      | .error _ => (.error (.exit 2), s)

/-- Expanding words into fields. -/
def expandWords : Nat → St → List Word → List String → Option Nat →
    (Except Flow (List String × Option Nat)) × St
  | 0, s, _, _, _ => (.error .stuck, s)
  | _ + 1, s, [], acc, last => (.ok (acc, last), s)
  | n + 1, s, w :: ws, acc, last =>
    let (r, s) := expandParts n s w [] none
    match r with
    | .error f => (.error f, s)
    | .ok (pieces, l) => expandWords n s ws (acc ++ (fieldsOf pieces).map Field.text) (l.or last)

/-- Running a script in a subshell whose output is captured: the output and its status. -/
def capture : Nat → St → String → (Except Flow (String × Nat)) × St
  | 0, s, _ => (.error .stuck, s)
  | n + 1, s, body =>
    let saved := s.w.captured
    let sub : St := { w := { s.w with captured := [] }, sh := s.sh.setFd 1 .capture }
    let (flow, sub) := runScript n sub (parseScript body)
    let out := textOfBytes sub.w.captured
    let s' : St := { s with w := { sub.w with captured := saved } }
    match flow with
    | .next => (.ok (out, sub.sh.status), s')
    | .exit c => (.ok (out, c % 256), s')
    | f => (.error f, s')

/-- Performing assignments. -/
def assignAll : Nat → St → List (String × Word) → Option Nat → (Except Flow (Option Nat)) × St
  | 0, s, _, _ => (.error .stuck, s)
  | _ + 1, s, [], last => (.ok last, s)
  | n + 1, s, (name, w) :: rest, last =>
    let (r, s) := expandParts n s w [] none
    match r with
    | .error f => (.error f, s)
    | .ok (pieces, l) =>
      assignAll n { s with sh := s.sh.setVar name (textOf pieces) } rest (l.or last)

/-- Opening redirections in order. -/
def openRedirs : Nat → St → List Redir → Opened
  | 0, s, _ => .flow .stuck s
  | _ + 1, s, [] => .ok s
  | n + 1, s, r :: rs =>
    let (res, s) := expandParts n s r.target [] none
    match res with
    | .error f => .flow f s
    | .ok (pieces, _) =>
      match redirect s r (textOf pieces) with
      | .ok s => openRedirs n s rs
      | .error msg => .failed msg s

/-- Running the complete commands of a parsed script; a syntax error after them ends it with
status 2. -/
def runScript : Nat → St → Script → Flow × St
  | 0, s, _ => (.stuck, s)
  | n + 1, s, script =>
    let (f, s) := runList n s script.commands false
    if f == .next && script.broken then (.exit 2, s.setStatus 2) else (f, s)

/-- Running commands one after another until one ends the shell. -/
def runList : Nat → St → List Node → Bool → Flow × St
  | 0, s, _, _ => (.stuck, s)
  | _ + 1, s, [], _ => (.next, s)
  | n + 1, s, c :: cs, g =>
    let (f, s) := runNode n s c g
    if f == .next then runList n s cs g else (f, s)

/-- Running a command; `g` says it is inside a condition, where `set -e` does not act. -/
def runNode : Nat → St → Node → Bool → Flow × St
  | 0, s, _, _ => (.stuck, s)
  | n + 1, s, node, g =>
    match node with
    | .simple asg ws rs => runSimple n s asg ws rs g
    | .pipeline negated stages =>
      match stages with
      | [one] =>
        let (f, s) := runNode n s one (g || negated)
        if f != .next then (f, s)
        else if negated then (.next, s.setStatus (if s.sh.status == 0 then 1 else 0))
        else (.next, s)
      | _ =>
        let (f, s) := runPipe n s stages s.sh.input
        if f != .next then (f, s)
        else if negated then (.next, s.setStatus (if s.sh.status == 0 then 1 else 0))
        else errexitCheck s g
    | .both a b =>
      let (f, s) := runNode n s a true
      if f != .next then (f, s)
      else if s.sh.status == 0 then runNode n s b g else (.next, s)
    | .either a b =>
      let (f, s) := runNode n s a true
      if f != .next then (f, s)
      else if s.sh.status != 0 then runNode n s b g else (.next, s)
    | .seq items =>
      if items.isEmpty then (.next, s.setStatus 0) else runList n s items g
    | .background job =>
      let pid := s.w.nextPid
      let start := s.w.clock
      let sub : St := { w := { s.w with nextPid := pid + 1, running := pid :: s.w.running },
                        sh := { s.sh with input := [], jobs := [] } }
      let (f, sub) := runNode n sub job false
      let (finish, status) : Option Nat × Nat := match f with
        | .next => (some sub.w.clock, sub.sh.status)
        | .exit c => (some sub.w.clock, c % 256)
        | .killed sig => (some sub.w.clock, 128 + sig)
        | _ => (none, 0)
      let w := { sub.w with clock := start, running := s.w.running }
      (.next, { w, sh := { s.sh with jobs := s.sh.jobs ++ [⟨pid, finish, status⟩],
                                      lastJob := some pid, status := 0 } })
    | .group body rs =>
      match openRedirs n s rs with
      | .flow f s => (f, s)
      | .failed _ s' => (.next, { w := s'.w, sh := { s.sh with status := 2 } })
      | .ok sr =>
        let (f, after) := runNode n sr body g
        (f, { after with sh := { after.sh with fds := s.sh.fds, input := s.sh.input } })
    | .subshell body rs =>
      match openRedirs n s rs with
      | .flow f s => (f, s)
      | .failed _ s' => (.next, { w := s'.w, sh := { s.sh with status := 2 } })
      | .ok sr =>
        let (f, after) := runSub n sr body
        let after := { after with sh := { after.sh with fds := s.sh.fds, input := s.sh.input } }
        if f != .next then (f, after) else errexitCheck after g
    | .ifThen cond yes no rs =>
      match openRedirs n s rs with
      | .flow f s => (f, s)
      | .failed _ s' => (.next, { w := s'.w, sh := { s.sh with status := 2 } })
      | .ok sr =>
        let (f, after) := runNode n sr cond true
        let (f, after) := if f != .next then (f, after)
          else if after.sh.status == 0 then runNode n after yes g else runNode n after no g
        (f, { after with sh := { after.sh with fds := s.sh.fds, input := s.sh.input } })
    | .caseOf subject arms rs =>
      match openRedirs n s rs with
      | .flow f s => (f, s)
      | .failed _ s' => (.next, { w := s'.w, sh := { s.sh with status := 2 } })
      | .ok sr =>
        let (r, after) := expandParts n sr subject [] none
        let (f, after) := match r with
          | .error f => (f, after)
          | .ok (pieces, _) => runCase n after (textOf pieces) arms g
        (f, { after with sh := { after.sh with fds := s.sh.fds, input := s.sh.input } })
    | .loop untilDone cond body rs =>
      match openRedirs n s rs with
      | .flow f s => (f, s)
      | .failed _ s' => (.next, { w := s'.w, sh := { s.sh with status := 2 } })
      | .ok sr =>
        let (f, after) := runLoop n sr cond body untilDone g none
        (f, { after with sh := { after.sh with fds := s.sh.fds, input := s.sh.input } })
    | .forEach var items body rs =>
      match openRedirs n s rs with
      | .flow f s => (f, s)
      | .failed _ s' => (.next, { w := s'.w, sh := { s.sh with status := 2 } })
      | .ok sr =>
        let (r, after) := match items with
          | some ws => expandWords n sr ws [] none
          | none => (.ok (sr.sh.params, none), sr)
        let (f, after) := match r with
          | .error f => (f, after)
          | .ok (values, _) => runFor n (after.setStatus 0) var values body g
        (f, { after with sh := { after.sh with fds := s.sh.fds, input := s.sh.input } })

/-- Running a command in a subshell: its exit only ends the subshell. -/
def runSub : Nat → St → Node → Flow × St
  | 0, s, _ => (.stuck, s)
  | n + 1, s, node =>
    let (f, sub) := runNode n s node false
    let s' : St := { s with w := sub.w }
    match f with
    | .next => (.next, s'.setStatus sub.sh.status)
    | .exit c => (.next, s'.setStatus (c % 256))
    | other => (other, s')

/-- Running the stages of a pipeline, each in a subshell reading what the one before wrote. -/
def runPipe : Nat → St → List Node → List UInt8 → Flow × St
  | 0, s, _, _ => (.stuck, s)
  | _ + 1, s, [], _ => (.next, s)
  | n + 1, s, [last], input =>
    let (f, after) := runSub n { s with sh := { s.sh with input } } last
    (f, { after with sh := { after.sh with input := s.sh.input } })
  | n + 1, s, stage :: rest, input =>
    let saved := s.w.captured
    let sub : St := { w := { s.w with captured := [] }, sh := { (s.sh.setFd 1 .capture) with input } }
    let (f, sub) := runNode n sub stage false
    let out := sub.w.captured
    let s' : St := { s with w := { sub.w with captured := saved } }
    match f with
    | .next | .exit _ => runPipe n s' rest out
    | other => (other, s')

/-- Running the first `case` arm with a matching pattern. -/
def runCase : Nat → St → String → List (List Word × Node) → Bool → Flow × St
  | 0, s, _, _, _ => (.stuck, s)
  | _ + 1, s, _, [], _ => (.next, s.setStatus 0)
  | n + 1, s, subject, (pats, body) :: arms, g =>
    let (r, s) := matchAny n s subject pats
    match r with
    | .error f => (f, s)
    | .ok true => runNode n s body g
    | .ok false => runCase n s subject arms g

/-- Whether any of the patterns matches the subject. -/
def matchAny : Nat → St → String → List Word → (Except Flow Bool) × St
  | 0, s, _, _ => (.error .stuck, s)
  | _ + 1, s, _, [] => (.ok false, s)
  | n + 1, s, subject, p :: ps =>
    let (r, s) := expandParts n s p [] none
    match r with
    | .error f => (.error f, s)
    | .ok (pieces, _) =>
      if patternMatches (patternOf pieces) subject then (.ok true, s) else matchAny n s subject ps

/-- Running a `while` or `until` loop; the status is the body's last, or zero. -/
def runLoop : Nat → St → Node → Node → Bool → Bool → Option Nat → Flow × St
  | 0, s, _, _, _, _, _ => (.stuck, s)
  | n + 1, s, cond, body, untilDone, g, last =>
    let (f, s) := runNode n s cond true
    if f != .next then (f, s)
    else if (s.sh.status == 0) == untilDone then (.next, s.setStatus (last.getD 0))
    else
      let (f, s) := runNode n s body g
      if f != .next then (f, s) else runLoop n s cond body untilDone g (some s.sh.status)

/-- Running a `for` loop over its values. -/
def runFor : Nat → St → String → List String → Node → Bool → Flow × St
  | 0, s, _, _, _, _ => (.stuck, s)
  | _ + 1, s, _, [], _, _ => (.next, s)
  | n + 1, s, var, v :: vs, body, g =>
    let (f, s) := runNode n { s with sh := s.sh.setVar var v } body g
    if f != .next then (f, s) else runFor n s var vs body g

/-- Running a simple command. -/
def runSimple : Nat → St → List (String × Word) → List Word → List Redir → Bool → Flow × St
  | 0, s, _, _, _, _ => (.stuck, s)
  | n + 1, s, asg, ws, rs, g =>
    let (r, s) := expandWords n s ws [] none
    match r with
    | .error f => (f, s)
    | .ok ([], lastSub) =>
      let (r, s) := assignAll n s asg lastSub
      match r with
      | .error f => (f, s)
      | .ok lastSub =>
        match openRedirs n s rs with
        | .flow f s => (f, s)
        | .failed _ s' => errexitCheck { w := s'.w, sh := { s.sh with status := 2 } } g
        | .ok sr => errexitCheck { w := sr.w, sh := { s.sh with status := lastSub.getD 0 } } g
    | .ok (name :: args, lastSub) =>
      let special := specialBuiltins.contains name
      let (r, s1) := if special then assignAll n s asg lastSub else (.ok lastSub, s)
      match r with
      | .error f => (f, s1)
      | .ok _ =>
        match openRedirs n s1 rs with
        | .flow f s => (f, s)
        | .failed _ s' =>
          if special then (.exit 2, { w := s'.w, sh := { s1.sh with status := 2 } })
          else errexitCheck { w := s'.w, sh := { s1.sh with status := 2 } } g
        | .ok sr =>
          let (f, after) := runCommand n sr name args
          let keep := name == "exec" && args.isEmpty
          let input := if rs.any (·.fd == 0) then s1.sh.input else after.sh.input
          let after := if keep then after
            else { after with sh := { after.sh with fds := s1.sh.fds, input } }
          if f != .next then (f, after) else errexitCheck after g

/-- Running a command by name: a builtin, or a program started by its path or found on the search
path. -/
def runCommand : Nat → St → String → List String → Flow × St
  | 0, s, _, _ => (.stuck, s)
  | n + 1, s, name, args =>
    match name with
    | "exit" =>
      match args with
      | [] => (.exit s.sh.status, s)
      | a :: _ =>
        match shellNumber? a with
        | some k => (.exit (k % 256), s.setStatus (k % 256))
        | none => (.exit 2, s.setStatus 2)
    | ":" | "true" => (.next, s.setStatus 0)
    | "false" => (.next, s.setStatus 1)
    | "echo" => (.next, (s.out 1 (shellEcho args)).setStatus 0)
    | "printf" =>
      match args with
      | [] => (.next, s.setStatus 2)
      | fmt :: rest =>
        let (out, status) := printf fmt rest
        (.next, (s.out 1 out).setStatus status)
    | "kill" =>
      if args.head? == some "-l" then (.next, s.setStatus 0) else
      match killArgs args with
      | .error _ => (.next, s.setStatus 2)
      | .ok (_, []) => (.next, s.setStatus 2)
      | .ok (sig, targets) => killAll n s sig targets 0
    | "wait" =>
      match args with
      | [] =>
        let (f, s) := waitFor s s.sh.jobs
        (f, { s with sh := { s.sh with jobs := [], status := 0 } })
      | p :: _ =>
        match (shellNumber? p).bind fun pid => s.sh.jobs.find? (·.pid == pid) with
        | some job =>
          let (f, s) := waitFor s [job]
          (f, { s with sh := { s.sh with jobs := s.sh.jobs.filter (·.pid != job.pid),
                                          status := job.status } })
        | none => (.next, s.setStatus 127)
    | "exec" =>
      match args with
      | [] => (.next, s.setStatus 0)
      | prog :: rest =>
        let image : Except OsError Image := match spawn s.w.tree s.w.searchPath prog rest with
          | .error .execFormat => .ok ⟨.shell, ["/bin/sh", prog] ++ rest⟩
          | other => other
        match image with
        | .error e => (.exit (execFailureStatus e), s.setStatus (execFailureStatus e))
        | .ok img =>
          let (e, w) := runImage n s.w s.sh.pid img s.sh.fds s.sh.input
          let s := { s with w }
          match e with
          | .exited c => (.exit c, s.setStatus c)
          | .signaled sig => (.killed sig, s)
          | .stuck => (.stuck, s)
          | .late => (.late, s)
    | "test" => testStatus s args
    | "[" =>
      if args.getLast? == some "]" then testStatus s args.dropLast else (.next, s.setStatus 2)
    | "shift" =>
      let k := (args.head?.bind shellNumber?).getD 1
      if k ≤ s.sh.params.length then
        (.next, { s with sh := { s.sh with params := s.sh.params.drop k, status := 0 } })
      else (.exit 2, s.setStatus 2)
    | "set" => (.next, setOptions s args)
    | "export" | "readonly" | "local" =>
      let sh := args.foldl (fun sh a =>
        match a.splitOn "=" with
        | k :: _ :: _ => if isName k then sh.setVar k (a.drop (k.length + 1)).toString else sh
        | _ => sh) s.sh
      (.next, { s with sh := { sh with status := 0 } })
    | "unset" =>
      (.next, { s with sh := { s.sh with vars := s.sh.vars.filter (fun v => !args.contains v.1),
                                          status := 0 } })
    | "eval" =>
      let (f, s) := runScript n s (parseScript (" ".intercalate args))
      (f, s)
    | "cd" =>
      let target := args.headD (s.sh.var "HOME")
      match s.w.tree.resolve target with
      | .ok loc =>
        if s.w.tree.node? loc == some .dir then
          (.next, { s with w := { s.w with tree := { s.w.tree with cwd := loc } }, sh := { s.sh with status := 0 } })
        else (.next, s.setStatus 2)
      | .error _ => (.next, s.setStatus 2)
    | "pwd" => (.next, (s.out 1 (bytesOf (cwdText s.w.tree ++ "\n"))).setStatus 0)
    | "read" => (.next, readLine s (args.filter fun a => !a.startsWith "-"))
    | _ =>
      if specialBuiltins.contains name || regularBuiltins.contains name then (.next, s.setStatus 0)
      else runProgram n s name args

/-- The status of `test` on its arguments. -/
def testStatus : St → List String → Flow × St
  | s, args =>
    match evalTest s.w.tree (args.length + 2) args with
    | .ok true => (.next, s.setStatus 0)
    | .ok false => (.next, s.setStatus 1)
    | .error _ => (.next, s.setStatus 2)

/-- Applying `set`: options `-e` and `+e` (also as `-o errexit`), and new parameters. -/
def setOptions : St → List String → St
  | s, args =>
    let rec go : List String → Session → Session
      | [], sh => sh
      | "--" :: rest, sh => { sh with params := rest }
      | "-o" :: opt :: rest, sh => go rest (if opt == "errexit" then { sh with errexit := true } else sh)
      | "+o" :: opt :: rest, sh => go rest (if opt == "errexit" then { sh with errexit := false } else sh)
      | a :: rest, sh =>
        if a.startsWith "-" && a.length > 1 then
          go rest (if (a.drop 1).toString.contains 'e' then { sh with errexit := true } else sh)
        else if a.startsWith "+" && a.length > 1 then
          go rest (if (a.drop 1).toString.contains 'e' then { sh with errexit := false } else sh)
        else { sh with params := a :: rest }
    { s with sh := { (go args s.sh) with status := 0 } }

/-- Sending a signal to each target in turn; the status is 1 when one was not found. -/
def killAll : Nat → St → Nat → List String → Nat → Flow × St
  | 0, s, _, _, _ => (.stuck, s)
  | _ + 1, s, _, [], status => (.next, s.setStatus status)
  | n + 1, s, sig, t :: ts, status =>
    let pid? := if t.startsWith "-" then shellNumber? (t.drop 1).toString else shellNumber? t
    match pid? with
    | none => (.next, s.setStatus 2)
    | some pid =>
      let (f, s, found) := sendSignal s sig pid
      match f with
      | some f => (f, s)
      | none => killAll n s sig ts (if found then status else 1)

/-- Starting a program from the shell and waiting for it. A file that is not an executable format
is run as a script. -/
def runProgram : Nat → St → String → List String → Flow × St
  | 0, s, _, _ => (.stuck, s)
  | n + 1, s, path, args =>
    let image : Except OsError Image := match spawn s.w.tree s.w.searchPath path args with
      | .error .execFormat => .ok ⟨.shell, ["/bin/sh", path] ++ args⟩
      | other => other
    match image with
    | .error e => (.next, s.setStatus (execFailureStatus e))
    | .ok img =>
      let pid := s.w.nextPid
      let w := { s.w with nextPid := pid + 1, running := pid :: s.w.running }
      let (e, w) := runImage n w pid img s.sh.fds s.sh.input
      let s := { s with w := { w with running := s.w.running } }
      match e.status with
      | .inr f => (f, s)
      | .inl code =>
        let (pf, s) := takePending s
        match pf with
        | some f => (f, s)
        | none => (.next, s.setStatus code)

/-- Running a process image to its end, with its process number, descriptors and input. -/
def runImage : Nat → World → Nat → Image → List (Nat × Sink) → List UInt8 → End × World
  | 0, w, _, _, _, _ => (.stuck, w)
  | n + 1, w, pid, img, fds, input =>
    let args := img.argv.drop 1
    let sinkOf := fun (fd : Nat) => ((fds.find? (·.1 == fd)).map (·.2)).getD Sink.discard
    match img.program with
    | .succeed => (.exited 0, w)
    | .fail => (.exited 1, w)
    | .sleep =>
      match args.mapM durationNanos? with
      | none | some [] => (.exited 1, w)
      | some ds =>
        let (f, w) := w.advance (w.clock + ds.sum)
        if f == .late then (.late, w) else (.exited 0, w)
    | .echo => (.exited 0, w.write (sinkOf 1) (programEcho args))
    | .printf =>
      match args with
      | [] => (.exited 1, w)
      | fmt :: rest =>
        let (out, status) := printf fmt rest
        (.exited status, w.write (sinkOf 1) out)
    | .cat =>
      if args.isEmpty then (.exited 0, w.write (sinkOf 1) input)
      else
        let (w, status) := args.foldl (fun (w, status) a =>
          if a == "-" then (w.write (sinkOf 1) input, status)
          else match w.tree.readFile a with
            | .ok bytes => (w.write (sinkOf 1) bytes, status)
            | .error _ => (w, 1)) (w, 0)
        (.exited status, w)
    | .kill =>
      match killArgs args with
      | .error _ | .ok (_, []) => (.exited 1, w)
      | .ok (sig, targets) =>
        let pids := targets.filterMap fun t =>
          if t.startsWith "-" then shellNumber? (t.drop 1).toString else shellNumber? t
        if pids.contains pid && sig != 0 then
          match selfSignal sig with
          | some (.killed s) => (.signaled s, w)
          | some _ => (.stuck, w)
          | none => (.exited 0, w)
        else
          let w := { w with pending := w.pending ++ (pids.filter w.running.contains).map (·, sig) }
          (.exited (if pids.all w.running.contains && pids.length == targets.length then 0 else 1), w)
    | .env =>
      match envCommand args with
      | [] => (.exited 0, w)
      | prog :: rest =>
        match spawn w.tree w.searchPath prog rest with
        | .ok next => runImage n w pid next fds input
        | .error .notFound => (.exited 127, w)
        | .error _ => (.exited 126, w)
    | .shell =>
      match shellInvocation (img.argv.headD "sh") args false false with
      | .error _ => (.exited 2, w)
      | .ok inv =>
        let text := match inv.source with
          | .command c => some c
          | .file p => (w.tree.readFile p).toOption.map textOfBytes
          | .stdin => some (textOfBytes input)
        match text with
        | none => (.exited 127, w)
        | some text =>
          let sh : Session := { pid, arg0 := inv.arg0, params := inv.params, fds,
                                input := if inv.source == .stdin then [] else input,
                                errexit := inv.errexit }
          let (f, s) := runScript n ⟨w, sh⟩ (parseScript text)
          (End.ofFlow s.sh.status f, s.w)

end

end SuiteRunner.Shell
