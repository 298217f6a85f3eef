import SuiteRunner.Shell.Lex
/-!
Parsing tokens into commands.

A script is run one complete command at a time: a line of `;`- and `&`-separated lists, or a
compound command with everything up to its closing word. `parseScript` returns the commands
that parsed before the first syntax error, and whether there was one, because the shell runs
those and then stops with status 2.

Every parser takes fuel, and each call spends one unit; the fuel is the number of tokens plus
one for each nesting level it can reach, so a script that parses never runs out.
-/

namespace SuiteRunner.Shell

/-- The words that end a compound list. -/
def closingWords : List String := ["then", "else", "elif", "fi", "do", "done", "esac", "\x7d"]

/-- Whether the token is the given word, written plainly. -/
def Token.isWord (k : String) : Token → Bool
  | .word w => plainText? w == some k
  | _ => false

/-- Whether the token is the given operator. -/
def Token.isOp (k : String) : Token → Bool
  | .op o => o == k
  | _ => false

/-- Whether the token ends a compound list. -/
def Token.closes : Token → Bool
  | .word w => match plainText? w with
    | some s => closingWords.contains s
    | none => false
  | .op o => o == ")" || o == ";;"
  | _ => false

/-- Dropping leading newlines. -/
def skipNewlines : List Token → List Token
  | .newline :: rest => skipNewlines rest
  | ts => ts

/-- The assignment a word spells as `NAME=value`, if any. -/
def assignment? : Word → Option (String × Word)
  | .text s :: rest =>
    match s.splitOn "=" with
    | name :: _ :: _ =>
      if isName name then
        let value := (s.drop (name.length + 1)).toString
        some (name, (if value.isEmpty then [] else [Part.text value]) ++ rest)
      else none
    | _ => none
  | _ => none

/-- The redirection operators and how each opens its file. -/
def redirOp? : String → Option (RedirOp × Nat)
  | ">" => some (.write, 1)
  | ">|" => some (.write, 1)
  | ">>" => some (.append, 1)
  | "<" => some (.read, 0)
  | "<>" => some (.readWrite, 0)
  | ">&" => some (.duplicate, 1)
  | "<&" => some (.duplicate, 0)
  | _ => none

/-- A redirection at the head of the tokens, if one starts there. -/
def redirection? : List Token → Option (Except String (Redir × List Token))
  | .ioNumber n :: .op o :: rest =>
    match redirOp? o, rest with
    | some (op, _), .word w :: after => some (.ok (⟨n, op, w⟩, after))
    | some _, _ => some (.error "redirection without a target")
    | none, _ => some (.error ("unsupported redirection " ++ o))
  | .op o :: rest =>
    match redirOp? o, rest with
    | some (op, fd), .word w :: after => some (.ok (⟨fd, op, w⟩, after))
    | some _, _ => some (.error "redirection without a target")
    | none, _ => if o == "<<" || o == "<<-" then some (.error "here-documents are not supported")
      else none
  | _ => none

/-- The redirections after a compound command. -/
def redirections : Nat → List Token → List Redir → Except String (List Redir × List Token)
  | 0, ts, acc => .ok (acc.reverse, ts)
  | fuel + 1, ts, acc =>
    match redirection? ts with
    | some (.ok (r, rest)) => redirections fuel rest (r :: acc)
    | some (.error e) => .error e
    | none => .ok (acc.reverse, ts)

/-- The words, assignments and redirections of a simple command. -/
def simpleParts : Nat → List Token → List (String × Word) → List Word → List Redir →
    Except String ((List (String × Word) × List Word × List Redir) × List Token)
  | 0, ts, asg, ws, rs => .ok ((asg.reverse, ws.reverse, rs.reverse), ts)
  | fuel + 1, ts, asg, ws, rs =>
    match redirection? ts with
    | some (.ok (r, rest)) => simpleParts fuel rest asg ws (r :: rs)
    | some (.error e) => .error e
    | none =>
      match ts with
      | .word w :: rest =>
        match ws, assignment? w with
        | [], some a => simpleParts fuel rest (a :: asg) ws rs
        | _, _ => simpleParts fuel rest asg (w :: ws) rs
      | _ => .ok ((asg.reverse, ws.reverse, rs.reverse), ts)

/-- A description of the token where a command was expected, for a syntax error. -/
def Token.describe : Token → String
  | .word w => (plainText? w).getD "word"
  | .op o => o
  | .newline => "newline"
  | .ioNumber n => toString n

/-- Expecting a plain word, and the tokens after it. -/
def expectWord (k : String) : List Token → Except String (List Token)
  | t :: rest => if t.isWord k then .ok rest else .error ("expected " ++ k ++ " but found " ++ t.describe)
  | [] => .error ("expected " ++ k ++ " but the script ended")

/-- Expecting an operator, and the tokens after it. -/
def expectOp (k : String) : List Token → Except String (List Token)
  | t :: rest => if t.isOp k then .ok rest else .error ("expected " ++ k ++ " but found " ++ t.describe)
  | [] => .error ("expected " ++ k ++ " but the script ended")

/-- Joining sequential commands, keeping a single one as it is. -/
def sequence : List Node → Node
  | [n] => n
  | ns => .seq ns

/-- The words of a `for` list or of `case` patterns, up to a token that is not a word. -/
def wordsUntil : List Token → List Word → List Word × List Token
  | .word w :: rest, acc => wordsUntil rest (w :: acc)
  | ts, acc => (acc.reverse, ts)

mutual

/-- A command: a compound command with its redirections, or a simple command. -/
def command : Nat → List Token → Except String (Node × List Token)
  | 0, _ => .error "nesting too deep"
  | fuel + 1, ts =>
    match ts with
    | t :: rest =>
      if t.isWord "\x7b" then do
        let (body, rest) ← compoundList fuel rest
        let rest ← expectWord "\x7d" rest
        let (rs, rest) ← redirections fuel rest []
        pure (.group body rs, rest)
      else if t.isOp "(" then do
        let (body, rest) ← compoundList fuel rest
        let rest ← expectOp ")" rest
        let (rs, rest) ← redirections fuel rest []
        pure (.subshell body rs, rest)
      else if t.isWord "if" then do
        let (node, rest) ← ifRest fuel rest
        let (rs, rest) ← redirections fuel rest []
        match node with
        | .ifThen c a b _ => pure (.ifThen c a b rs, rest)
        | other => pure (other, rest)
      else if t.isWord "while" || t.isWord "until" then do
        let (cond, rest) ← compoundList fuel rest
        let rest ← expectWord "do" rest
        let (body, rest) ← compoundList fuel rest
        let rest ← expectWord "done" rest
        let (rs, rest) ← redirections fuel rest []
        pure (.loop (t.isWord "until") cond body rs, rest)
      else if t.isWord "for" then
        match rest with
        | .word v :: rest =>
          match plainText? v with
          | some var =>
            if isName var then do
              let rest := skipNewlines rest
              let (items, rest) ← match rest with
                | tin :: after =>
                  if tin.isWord "in" then
                    let (ws, after) := wordsUntil after []
                    match after with
                    | .op ";" :: more => .ok (some ws, more)
                    | .newline :: more => .ok (some ws, more)
                    | _ => .error "expected ; or newline after the for list"
                  else
                    match rest with
                    | .op ";" :: more => .ok (none, more)
                    | _ => .ok (none, rest)
                | [] => .ok (none, [])
              let rest ← expectWord "do" (skipNewlines rest)
              let (body, rest) ← compoundList fuel rest
              let rest ← expectWord "done" rest
              let (rs, rest) ← redirections fuel rest []
              pure (.forEach var items body rs, rest)
            else .error "bad for loop variable"
          | none => .error "bad for loop variable"
        | _ => .error "bad for loop variable"
      else if t.isWord "case" then
        match rest with
        | .word subject :: rest => do
          let rest ← expectWord "in" (skipNewlines rest)
          let (arms, rest) ← caseArms fuel (skipNewlines rest)
          let (rs, rest) ← redirections fuel rest []
          pure (.caseOf subject arms rs, rest)
        | _ => .error "expected a word after case"
      else if t.closes || t.isWord "in" then .error ("unexpected " ++ t.describe)
      else do
        let ((asg, ws, rs), rest) ← simpleParts (ts.length + 1) ts [] [] []
        if asg.isEmpty && ws.isEmpty && rs.isEmpty then .error ("unexpected " ++ t.describe)
        else pure (.simple asg ws rs, rest)
    | [] => .error "unexpected end of script"

/-- The rest of an `if` after its first word, up to and including `fi`. -/
def ifRest : Nat → List Token → Except String (Node × List Token)
  | 0, _ => .error "nesting too deep"
  | fuel + 1, ts => do
    let (cond, rest) ← compoundList fuel ts
    let rest ← expectWord "then" rest
    let (yes, rest) ← compoundList fuel rest
    match rest with
    | t :: after =>
      if t.isWord "fi" then pure (.ifThen cond yes Node.empty [], after)
      else if t.isWord "else" then do
        let (no, after) ← compoundList fuel after
        let after ← expectWord "fi" after
        pure (.ifThen cond yes no [], after)
      else if t.isWord "elif" then do
        let (no, after) ← ifRest fuel after
        pure (.ifThen cond yes no [], after)
      else .error ("expected fi but found " ++ t.describe)
    | [] => .error "expected fi but the script ended"

/-- The arms of a `case`, up to and including `esac`. -/
def caseArms : Nat → List Token → Except String (List (List Word × Node) × List Token)
  | 0, _ => .error "nesting too deep"
  | fuel + 1, ts =>
    match ts with
    | t :: rest =>
      if t.isWord "esac" then .ok ([], rest)
      else do
        let ts := if t.isOp "(" then rest else ts
        let (pats, rest) ← patterns fuel ts []
        let rest ← expectOp ")" rest
        let rest := skipNewlines rest
        let endsArm := match rest with
          | u :: _ => u.isOp ";;" || u.isWord "esac"
          | [] => true
        let (body, rest) ← if endsArm then pure (Node.empty, rest) else compoundList fuel rest
        match rest with
        | u :: after =>
          if u.isOp ";;" then do
            let (more, after) ← caseArms fuel (skipNewlines after)
            pure ((pats, body) :: more, after)
          else if u.isWord "esac" then pure ([(pats, body)], after)
          else .error ("expected ;; but found " ++ u.describe)
        | [] => .error "expected esac but the script ended"
    | [] => .error "expected esac but the script ended"

/-- The `|`-separated patterns of a case arm. -/
def patterns : Nat → List Token → List Word → Except String (List Word × List Token)
  | 0, _, _ => .error "nesting too deep"
  | fuel + 1, ts, acc =>
    match ts with
    | .word w :: rest =>
      match rest with
      | .op "|" :: after => patterns fuel after (w :: acc)
      | _ => .ok ((w :: acc).reverse, rest)
    | t :: _ => .error ("unexpected " ++ t.describe ++ " in a case pattern")
    | [] => .error "expected a case pattern"

/-- A pipeline: an optional `!` and commands joined by `|`. -/
def pipeline : Nat → List Token → Except String (Node × List Token)
  | 0, _ => .error "nesting too deep"
  | fuel + 1, ts => do
    let (negated, ts) := match ts with
      | t :: rest => if t.isWord "!" then (true, rest) else (false, ts)
      | [] => (false, ts)
    let (first, rest) ← command fuel ts
    let (stages, rest) ← pipeRest fuel rest [first]
    match negated, stages with
    | false, [one] => pure (one, rest)
    | _, _ => pure (.pipeline negated stages, rest)

/-- The commands after the first of a pipeline. -/
def pipeRest : Nat → List Token → List Node → Except String (List Node × List Token)
  | 0, ts, acc => .ok (acc.reverse, ts)
  | fuel + 1, ts, acc =>
    match ts with
    | .op "|" :: rest => do
      let (next, rest) ← command fuel (skipNewlines rest)
      pipeRest fuel rest (next :: acc)
    | _ => .ok (acc.reverse, ts)

/-- An and-or list: pipelines joined by `&&` and `||`, grouping to the left. -/
def andOr : Nat → List Token → Except String (Node × List Token)
  | 0, _ => .error "nesting too deep"
  | fuel + 1, ts => do
    let (first, rest) ← pipeline fuel ts
    andOrRest fuel rest first

/-- The rest of an and-or list after the pipelines read so far. -/
def andOrRest : Nat → List Token → Node → Except String (Node × List Token)
  | 0, ts, acc => .ok (acc, ts)
  | fuel + 1, ts, acc =>
    match ts with
    | .op "&&" :: rest => do
      let (next, rest) ← pipeline fuel (skipNewlines rest)
      andOrRest fuel rest (.both acc next)
    | .op "||" :: rest => do
      let (next, rest) ← pipeline fuel (skipNewlines rest)
      andOrRest fuel rest (.either acc next)
    | _ => .ok (acc, ts)

/-- A compound list: and-or lists separated by `;`, `&` and newlines, up to a closing word. -/
def compoundList : Nat → List Token → Except String (Node × List Token)
  | 0, _ => .error "nesting too deep"
  | fuel + 1, ts => do
    let ts := skipNewlines ts
    match ts with
    | t :: _ => if t.closes then .error ("unexpected " ++ t.describe) else pure ()
    | [] => .error "unexpected end of script"
    let (items, rest) ← listItems fuel ts []
    pure (sequence items, rest)

/-- The and-or lists of a compound list. -/
def listItems : Nat → List Token → List Node → Except String (List Node × List Token)
  | 0, ts, acc => .ok (acc.reverse, ts)
  | fuel + 1, ts, acc => do
    let (item, rest) ← andOr fuel ts
    let (item, rest, more) := match rest with
      | .op "&" :: after => (Node.background item, after, true)
      | .op ";" :: after => (item, after, true)
      | .newline :: after => (item, after, true)
      | _ => (item, rest, false)
    let rest := skipNewlines rest
    match rest with
    | t :: _ =>
      if more && !t.closes then listItems fuel rest (item :: acc)
      else .ok ((item :: acc).reverse, rest)
    | [] => .ok ((item :: acc).reverse, rest)

end

/-- One complete command of a script: the and-or lists of one line. -/
def lineItems : Nat → List Token → List Node → Except String (List Node × List Token)
  | 0, ts, acc => .ok (acc.reverse, ts)
  | fuel + 1, ts, acc => do
    let (item, rest) ← andOr (ts.length + 1) ts
    match rest with
    | .op "&" :: after =>
      match after with
      | [] => .ok ((Node.background item :: acc).reverse, [])
      | .newline :: more => .ok ((Node.background item :: acc).reverse, more)
      | _ => lineItems fuel after (Node.background item :: acc)
    | .op ";" :: after =>
      match after with
      | [] => .ok ((item :: acc).reverse, [])
      | .newline :: more => .ok ((item :: acc).reverse, more)
      | _ => lineItems fuel after (item :: acc)
    | .newline :: after => .ok ((item :: acc).reverse, after)
    | [] => .ok ((item :: acc).reverse, [])
    | t :: _ => .error ("unexpected " ++ t.describe)

/-- A parsed script: the complete commands before the first syntax error, and whether one follows. -/
structure Script where
  commands : List Node
  broken : Bool
  deriving Repr

/-- Parsing the tokens one complete command at a time. -/
def parseTokens : Nat → List Token → List Node → Script
  | 0, _, acc => ⟨acc.reverse, false⟩
  | fuel + 1, ts, acc =>
    match skipNewlines ts with
    | [] => ⟨acc.reverse, false⟩
    | ts =>
      match lineItems (ts.length + 1) ts [] with
      | .ok (items, rest) => parseTokens fuel rest (sequence items :: acc)
      | .error _ => ⟨acc.reverse, true⟩

/-- Parsing a script's text. An open quote at the end is a syntax error there. -/
def parseScript (src : String) : Script :=
  let lexed := lex src
  let script := parseTokens (lexed.tokens.length + 1) lexed.tokens []
  { script with broken := script.broken || lexed.unterminated }

end SuiteRunner.Shell
