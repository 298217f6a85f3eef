import SuiteRunner.Shell.Syntax
/-!
Splitting a script into tokens.

Tokens are words, operators and newlines. A word keeps its quoting: single quotes and
backslashes make literal text, double quotes keep parameter expansions but stop field
splitting, and `$name`, `${name}`, `$1`, `$*`, `$@`, `$#`, `$?`, `$$`, `$!` and `$0` are
expansions. `$(...)`, `$((...))` and backquoted text are command substitutions. A `#` that
starts a token starts a comment. Digits right before `<` or `>` are a descriptor number.

Every scanner takes a fuel argument at least the length of its input, because each step
consumes at least one character.
-/

namespace SuiteRunner.Shell

/-- Space and tab separate tokens. -/
def isBlank (c : Char) : Bool := c == ' ' || c == '\t'

/-- The characters that start an operator and so end a word. -/
def isOperatorChar (c : Char) : Bool :=
  c == '&' || c == '|' || c == ';' || c == '<' || c == '>' || c == '(' || c == ')'

/-- Letters, digits and `_` after the first character of a name. -/
def isNameChar (c : Char) : Bool :=
  (c.isAlphanum && c.toNat < 128) || c == '_'

/-- Letters and `_` start a name. -/
def isNameStart (c : Char) : Bool :=
  (c.isAlpha && c.toNat < 128) || c == '_'

/-- A valid variable name. -/
def isName (s : String) : Bool :=
  match s.toList with
  | c :: cs => isNameStart c && cs.all isNameChar
  | [] => false

/-- The value of a run of decimal digits; other characters count as zero. -/
def digitsValue (cs : List Char) : Nat :=
  cs.foldl (fun v c => v * 10 + (if c.isDigit then c.toNat - 48 else 0)) 0

/-- The parameters written with one character after `$`. -/
def isSpecialParam (c : Char) : Bool :=
  c == '*' || c == '@' || c == '#' || c == '?' || c == '$' || c == '!' || c == '-' || c.isDigit

/-- Appending text to a word, joining it with a text part of the same kind before it. -/
def pushText (quoted : Bool) (s : String) : Word → Word
  | [] => [if quoted then .quoted s else .text s]
  | ps =>
    match ps.getLast?, quoted with
    | some (.text t), false => ps.dropLast ++ [.text (t ++ s)]
    | some (.quoted t), true => ps.dropLast ++ [.quoted (t ++ s)]
    | _, _ => ps ++ [if quoted then .quoted s else .text s]

/-- The text up to the closing single quote, and what follows it; `none` when unterminated. -/
def singleQuoted : List Char → String → Option (String × List Char)
  | [], _ => none
  | '\'' :: rest, acc => some (acc, rest)
  | c :: rest, acc => singleQuoted rest (acc.push c)

/-- The balanced parenthesised text after `$(` and the text after its closing parenthesis; the
depth counts the parentheses opened inside. -/
def parenthesised : Nat → List Char → String → Option (String × List Char)
  | _, [], _ => none
  | depth, '(' :: rest, acc => parenthesised (depth + 1) rest (acc.push '(')
  | 0, ')' :: rest, acc => some (acc, rest)
  | depth + 1, ')' :: rest, acc => parenthesised depth rest (acc.push ')')
  | depth, c :: rest, acc => parenthesised depth rest (acc.push c)

/-- The script inside backquotes, with `\$`, ``\` `` and `\\` unescaped, and the text after the
closing backquote; `none` when unterminated. -/
def backquoted : List Char → String → Option (String × List Char)
  | [], _ => none
  | '`' :: rest, acc => some (acc, rest)
  | '\\' :: c :: rest, acc =>
    if c == '$' || c == '`' || c == '\\' then backquoted rest (acc.push c)
    else backquoted rest ((acc.push '\\').push c)
  | c :: rest, acc => backquoted rest (acc.push c)

/-- The text up to the closing brace of `${...}`. -/
def braced : List Char → String → Option (String × List Char)
  | [], _ => none
  | '\x7d' :: rest, acc => some (acc, rest)
  | c :: rest, acc => braced rest (acc.push c)

/-- What `$` starts, and the text after it: `none` when it starts an unterminated construct. -/
def dollar (inQuotes : Bool) (cs : List Char) : Option (Option Part × List Char) :=
  match cs with
  | '\x7b' :: rest =>
    (braced rest "").map fun (name, after) => (some (.param name inQuotes), after)
  | '(' :: '(' :: rest =>
    match parenthesised 0 rest "" with
    | some (expr, ')' :: after) => some (some (.arithmetic expr inQuotes), after)
    | _ => (parenthesised 0 ('(' :: rest) "").map fun (body, after) =>
        (some (.substitution body inQuotes), after)
  | '(' :: rest => (parenthesised 0 rest "").map fun (body, after) =>
    (some (.substitution body inQuotes), after)
  | c :: rest =>
    if isNameStart c then
      let name := String.ofList (c :: rest.takeWhile isNameChar)
      some (some (.param name inQuotes), rest.dropWhile isNameChar)
    else if isSpecialParam c then some (some (.param (String.singleton c) inQuotes), rest)
    else some (none, cs)
  | [] => some (none, [])

/-- The characters a backslash escapes inside double quotes. -/
def escapableInQuotes (c : Char) : Bool :=
  c == '$' || c == '`' || c == '"' || c == '\\'

/-- The parts of a double-quoted text up to its closing quote; `none` when unterminated. -/
def doubleQuoted : Nat → List Char → Word → Option (Word × List Char)
  | 0, _, _ => none
  | _ + 1, [], _ => none
  | _ + 1, '"' :: rest, acc => some (if acc.isEmpty then [.quoted ""] else acc, rest)
  | fuel + 1, '\\' :: '\n' :: rest, acc => doubleQuoted fuel rest acc
  | fuel + 1, '\\' :: c :: rest, acc =>
    if escapableInQuotes c then doubleQuoted fuel rest (pushText true (String.singleton c) acc)
    else doubleQuoted fuel rest (pushText true (String.ofList ['\\', c]) acc)
  | fuel + 1, '$' :: rest, acc =>
    match dollar true rest with
    | none => none
    | some (some part, after) => doubleQuoted fuel after (acc ++ [part])
    | some (none, after) => doubleQuoted fuel after (pushText true "$" acc)
  | fuel + 1, '`' :: rest, acc =>
    match backquoted rest "" with
    | none => none
    | some (body, after) => doubleQuoted fuel after (acc ++ [.substitution body true])
  | fuel + 1, c :: rest, acc => doubleQuoted fuel rest (pushText true (String.singleton c) acc)

/-- A word and the text after it; `none` when a quote or substitution is left open. -/
def scanWord : Nat → List Char → Word → Option (Word × List Char)
  | 0, cs, acc => some (acc, cs)
  | _ + 1, [], acc => some (acc, [])
  | fuel + 1, c :: rest, acc =>
    if isBlank c || c == '\n' || isOperatorChar c then some (acc, c :: rest)
    else if c == '\'' then
      match singleQuoted rest "" with
      | none => none
      | some (s, after) => scanWord fuel after (acc ++ [.quoted s])
    else if c == '"' then
      match doubleQuoted (rest.length + 1) rest [] with
      | none => none
      | some (ps, after) => scanWord fuel after (acc ++ ps)
    else if c == '\\' then
      match rest with
      | '\n' :: after => scanWord fuel after acc
      | d :: after => scanWord fuel after (pushText true (String.singleton d) acc)
      | [] => some (pushText false "\\" acc, [])
    else if c == '$' then
      match dollar false rest with
      | none => none
      | some (some part, after) => scanWord fuel after (acc ++ [part])
      | some (none, after) => scanWord fuel after (pushText false "$" acc)
    else if c == '`' then
      match backquoted rest "" with
      | none => none
      | some (body, after) => scanWord fuel after (acc ++ [.substitution body false])
    else scanWord fuel rest (pushText false (String.singleton c) acc)

/-- The operators, longest first. -/
def operators : List String :=
  ["<<-", "&&", "||", ";;", "<<", ">>", "<&", ">&", "<>", ">|",
   "&", "|", ";", "<", ">", "(", ")"]

/-- The operator at the start of the text, if any. -/
def operatorAt (cs : List Char) : Option String :=
  operators.find? fun op => op.toList.isPrefixOf cs

/-- The result of splitting a script: its tokens, and whether a quote was left open after them. -/
structure Lexed where
  tokens : List Token
  unterminated : Bool
  deriving Repr

/-- The tokens of the text, in reverse order in the accumulator. -/
def lexFrom : Nat → List Char → List Token → Lexed
  | 0, _, acc => ⟨acc.reverse, false⟩
  | _ + 1, [], acc => ⟨acc.reverse, false⟩
  | fuel + 1, c :: rest, acc =>
    if isBlank c then lexFrom fuel rest acc
    else if c == '\n' then lexFrom fuel rest (.newline :: acc)
    else if c == '#' then lexFrom fuel (rest.dropWhile (· != '\n')) acc
    else if c == '\\' && rest.head? == some '\n' then lexFrom fuel rest.tail acc
    else
      match operatorAt (c :: rest) with
      | some op => lexFrom fuel ((c :: rest).drop op.length) (.op op :: acc)
      | none =>
        match scanWord (rest.length + 1) (c :: rest) [] with
        | none => ⟨acc.reverse, true⟩
        | some (w, after) =>
          let digits := match w with
            | [.text s] => if s.all Char.isDigit then some (digitsValue s.toList) else none
            | _ => none
          match digits, after with
          | some n, '<' :: _ => lexFrom fuel after (.ioNumber n :: acc)
          | some n, '>' :: _ => lexFrom fuel after (.ioNumber n :: acc)
          | _, _ => lexFrom fuel after (.word w :: acc)

/-- The tokens of a script. -/
def lex (src : String) : Lexed :=
  lexFrom (src.length + 1) src.toList []

end SuiteRunner.Shell
