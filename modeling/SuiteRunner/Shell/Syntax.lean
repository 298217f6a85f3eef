/-!
The syntax of the shell scripts the runner may be asked to start: simple commands with
assignments and redirections, pipelines, `&&` and `||` lists, sequences and background jobs,
brace groups and subshells, `if`, `case`, `while`, `until` and `for`.

A word is kept as its parts: literal text, quoted text, parameter expansions and command
substitutions, so that expansion can tell quoted from unquoted text.
-/

namespace SuiteRunner.Shell

/-- A part of a word. -/
inductive Part where
  /-- Unquoted text; its `*`, `?` and `[` are pattern characters. -/
  | text (s : String)
  /-- Quoted or escaped text, taken literally. -/
  | quoted (s : String)
  /-- A parameter expansion, inside double quotes or not. -/
  | param (name : String) (inQuotes : Bool)
  /-- A command substitution: the output of the script `body`, without its final newlines. -/
  | substitution (body : String) (inQuotes : Bool)
  /-- An arithmetic expansion of the expression `expr`. -/
  | arithmetic (expr : String) (inQuotes : Bool)
  deriving Repr, DecidableEq, Inhabited

/-- A word: its parts in order. -/
abbrev Word := List Part

/-- How a redirection opens its file. -/
inductive RedirOp where
  /-- `>` and `>|`: create or truncate. -/
  | write
  /-- `>>`: create or append. -/
  | append
  /-- `<`: read. -/
  | read
  /-- `<>`: read and write. -/
  | readWrite
  /-- `>&` and `<&`: copy another descriptor, or close with `-`. -/
  | duplicate
  deriving Repr, DecidableEq, Inhabited

/-- A redirection of a file descriptor. -/
structure Redir where
  fd : Nat
  op : RedirOp
  target : Word
  deriving Repr, DecidableEq, Inhabited

/-- A command of the shell. -/
inductive Node where
  | simple (assigns : List (String × Word)) (words : List Word) (redirs : List Redir)
  | pipeline (negated : Bool) (stages : List Node)
  | both (first second : Node)
  | either (first second : Node)
  | seq (items : List Node)
  | background (job : Node)
  | group (body : Node) (redirs : List Redir)
  | subshell (body : Node) (redirs : List Redir)
  | ifThen (cond thenBranch elseBranch : Node) (redirs : List Redir)
  | caseOf (subject : Word) (arms : List (List Word × Node)) (redirs : List Redir)
  | loop (untilDone : Bool) (cond body : Node) (redirs : List Redir)
  | forEach (var : String) (items : Option (List Word)) (body : Node) (redirs : List Redir)
  deriving Repr, Inhabited

/-- The command that does nothing and succeeds. -/
def Node.empty : Node := .seq []

/-- A lexical token of a script. -/
inductive Token where
  | word (w : Word)
  | op (s : String)
  | newline
  /-- Digits written right before a redirection operator. -/
  | ioNumber (n : Nat)
  deriving Repr, DecidableEq, Inhabited

/-- The text of a word made of plain text only, as reserved words and names are written. -/
def plainText? : Word → Option String
  | [.text s] => some s
  | _ => none

end SuiteRunner.Shell
