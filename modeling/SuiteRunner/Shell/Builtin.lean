import SuiteRunner.System
import SuiteRunner.Shell.Lex
/-!
The text work of the shell's builtins and of the small programs: how `echo` and `printf` turn
their arguments into output, how `test` decides, how `sleep` reads a duration, and how an
arithmetic expansion is evaluated.

Output is bytes. `echo` in the shell always reads backslash escapes (`\n`, `\t`, `\c` to stop,
`\0nnn` octal, …) and takes `-n` only as its first argument; the `echo` program reads escapes
only after `-e`.
-/

namespace SuiteRunner.Shell

/-- The bytes of a text. -/
def bytesOf (s : String) : List UInt8 := s.toUTF8.toList

/-- The value of an octal digit. -/
def octalDigit? (c : Char) : Option Nat :=
  if '0' ≤ c && c ≤ '7' then some (c.toNat - 48) else none

/-- Up to `n` octal digits at the head of the text, with their value, and the rest. -/
def octalRun : Nat → List Char → Nat → Nat × List Char
  | 0, cs, v => (v, cs)
  | _ + 1, [], v => (v, [])
  | n + 1, c :: cs, v =>
    match octalDigit? c with
    | some d => octalRun n cs (v * 8 + d)
    | none => (v, c :: cs)

/-- The byte a single-letter escape stands for. -/
def letterEscape? : Char → Option UInt8
  | 'a' => some 7
  | 'b' => some 8
  | 'f' => some 12
  | 'n' => some 10
  | 'r' => some 13
  | 't' => some 9
  | 'v' => some 11
  | '\\' => some 92
  | _ => none

/-- Expanding backslash escapes the way the shell's `echo` does: the bytes, and whether `\c`
stopped the output. Octal escapes start with `\0`. -/
def echoEscapes : Nat → List Char → List UInt8 → List UInt8 × Bool
  | 0, _, acc => (acc.reverse, false)
  | _ + 1, [], acc => (acc.reverse, false)
  | fuel + 1, '\\' :: c :: rest, acc =>
    if c == 'c' then (acc.reverse, true)
    else if c == '0' then
      let (v, after) := octalRun 3 rest 0
      echoEscapes fuel after (UInt8.ofNat v :: acc)
    else
      match letterEscape? c with
      | some b => echoEscapes fuel rest (b :: acc)
      | none => echoEscapes fuel (c :: rest) (92 :: acc)
  | fuel + 1, c :: rest, acc => echoEscapes fuel rest ((bytesOf (String.singleton c)).reverse ++ acc)

/-- The output of the shell's `echo`. -/
def shellEcho (args : List String) : List UInt8 :=
  let (newline, args) := match args with
    | "-n" :: rest => (false, rest)
    | _ => (true, args)
  let text := " ".intercalate args
  let (out, stopped) := echoEscapes (text.length + 1) text.toList []
  if stopped || !newline then out else out ++ [10]

/-- Whether an argument is a cluster of the `echo` program's options. -/
def echoOptions? (arg : String) : Option (List Char) :=
  match arg.toList with
  | '-' :: opts@(_ :: _) => if opts.all (fun c => c == 'n' || c == 'e' || c == 'E') then some opts else none
  | _ => none

/-- The options of the `echo` program and the arguments after them. -/
def echoFlags : List String → Bool × Bool → (Bool × Bool) × List String
  | arg :: rest, (newline, escapes) =>
    match echoOptions? arg with
    | some opts =>
      let flags := opts.foldl (fun (n, e) c =>
        if c == 'n' then (false, e) else if c == 'e' then (n, true) else (n, false)) (newline, escapes)
      echoFlags rest flags
    | none => ((newline, escapes), arg :: rest)
  | [], flags => (flags, [])

/-- The output of the `echo` program. -/
def programEcho (args : List String) : List UInt8 :=
  let ((newline, escapes), args) := echoFlags args (true, false)
  let text := " ".intercalate args
  let (out, stopped) := if escapes then echoEscapes (text.length + 1) text.toList []
    else (bytesOf text, false)
  if stopped || !newline then out else out ++ [10]

/-- Expanding the escapes of a `printf` format: `\\`, letters, `\"` and up to three octal
digits. -/
def formatEscapes : Nat → List Char → List UInt8 → List UInt8
  | 0, _, acc => acc.reverse
  | _ + 1, [], acc => acc.reverse
  | fuel + 1, '\\' :: c :: rest, acc =>
    match octalDigit? c with
    | some _ =>
      let (v, after) := octalRun 3 (c :: rest) 0
      formatEscapes fuel after (UInt8.ofNat v :: acc)
    | none =>
      match letterEscape? c with
      | some b => formatEscapes fuel rest (b :: acc)
      | none =>
        if c == '"' then formatEscapes fuel rest (34 :: acc)
        else formatEscapes fuel (c :: rest) (92 :: acc)
  | fuel + 1, c :: rest, acc =>
    formatEscapes fuel rest ((bytesOf (String.singleton c)).reverse ++ acc)

/-- An integer argument of `printf` or `test`: optional blanks and sign, then digits. A
character constant `'c` gives the code of `c`. -/
def integerArg? (s : String) : Option Int :=
  let t := s.trimAscii.toString
  match t.toList with
  | '\'' :: c :: _ => some c.toNat
  | '"' :: c :: _ => some c.toNat
  | '-' :: ds => if !ds.isEmpty && ds.all Char.isDigit then some (-digitsValue ds) else none
  | '+' :: ds => if !ds.isEmpty && ds.all Char.isDigit then some (digitsValue ds) else none
  | ds => if !ds.isEmpty && ds.all Char.isDigit then some (digitsValue ds) else none

/-- A natural number in a base, as text with the given digits. -/
def digitsIn (base : Nat) (upper : Bool) (n : Nat) : String :=
  let ds := Nat.toDigits base n
  String.ofList (if upper then ds.map Char.toUpper else ds)

/-- Padding a field to a width, on the left or (with `-`) on the right, with spaces or zeros. -/
def padField (width : Nat) (left zero : Bool) (s : String) : String :=
  if s.length ≥ width then s
  else
    let fill := width - s.length
    if left then s ++ String.ofList (List.replicate fill ' ')
    else if zero then
      match s.toList with
      | '-' :: rest => "-" ++ String.ofList (List.replicate fill '0') ++ String.ofList rest
      | _ => String.ofList (List.replicate fill '0') ++ s
    else String.ofList (List.replicate fill ' ') ++ s

/-- A conversion of a `printf` format: its flags, width, precision and letter. -/
structure Conversion where
  left : Bool := false
  zero : Bool := false
  plus : Bool := false
  width : Nat := 0
  precision : Option Nat := none
  letter : Char := 's'

/-- Reading a conversion after `%`: flags, width, precision and the letter; `none` when the
format ends first. -/
def readConversion (cs : List Char) : Option (Conversion × List Char) :=
  let flags := cs.takeWhile (fun c => c == '-' || c == '0' || c == '+' || c == ' ' || c == '#')
  let rest := cs.drop flags.length
  let width := rest.takeWhile Char.isDigit
  let rest := rest.drop width.length
  let (precision, rest) := match rest with
    | '.' :: more =>
      let p := more.takeWhile Char.isDigit
      (some (digitsValue p), more.drop p.length)
    | _ => (none, rest)
  match rest with
  | c :: after =>
    some ({ left := flags.contains '-', zero := flags.contains '0', plus := flags.contains '+',
            width := digitsValue width, precision, letter := c }, after)
  | [] => none

/-- Applying one conversion to its argument: the text, and whether the argument was a bad
number. -/
def convert (cv : Conversion) (arg : Option String) : List UInt8 × Bool :=
  let a := arg.getD ""
  let number (f : Int → String) : List UInt8 × Bool :=
    match arg with
    | none => (bytesOf (padField cv.width cv.left cv.zero (f 0)), false)
    | some s =>
      match integerArg? s with
      | some n => (bytesOf (padField cv.width cv.left cv.zero (f n)), false)
      | none => (bytesOf (padField cv.width cv.left cv.zero (f 0)), true)
  match cv.letter with
  | 's' =>
    let s := match cv.precision with
      | some p => (a.take p).toString
      | none => a
    (bytesOf (padField cv.width cv.left false s), false)
  | 'b' =>
    let (out, _) := echoEscapes (a.length + 1) a.toList []
    (out, false)
  | 'c' => (bytesOf ((a.take 1).toString), false)
  | 'd' | 'i' => number fun n => (if cv.plus && n ≥ 0 then "+" else "") ++ toString n
  | 'u' => number fun n => toString n.toNat
  | 'x' => number fun n => digitsIn 16 false n.toNat
  | 'X' => number fun n => digitsIn 16 true n.toNat
  | 'o' => number fun n => digitsIn 8 false n.toNat
  | _ => (bytesOf a, false)

/-- One pass of a `printf` format over the arguments: the output, the arguments left, whether
any argument was taken, and whether a number was bad. -/
def formatPass : Nat → List Char → List String → List UInt8 → Bool → Bool →
    List UInt8 × List String × Bool × Bool
  | 0, _, args, acc, took, bad => (acc, args, took, bad)
  | _ + 1, [], args, acc, took, bad => (acc, args, took, bad)
  | fuel + 1, '%' :: '%' :: rest, args, acc, took, bad => formatPass fuel rest args (acc ++ [37]) took bad
  | fuel + 1, '%' :: rest, args, acc, took, bad =>
    match readConversion rest with
    | some (cv, after) =>
      let (out, wrong) := convert cv args.head?
      formatPass fuel after args.tail (acc ++ out) (took || !args.isEmpty) (bad || wrong)
    | none => (acc ++ [37], args, took, bad)
  | fuel + 1, '\\' :: c :: rest, args, acc, took, bad =>
    let (out, after) := match octalDigit? c with
      | some _ => let (v, after) := octalRun 3 (c :: rest) 0
        ([UInt8.ofNat v], after)
      | none => match letterEscape? c with
        | some b => ([b], rest)
        | none => if c == '"' then ([34], rest) else ([92], c :: rest)
    formatPass fuel after args (acc ++ out) took bad
  | fuel + 1, c :: rest, args, acc, took, bad =>
    formatPass fuel rest args (acc ++ bytesOf (String.singleton c)) took bad

/-- The output of `printf` and its status: the format is reused while arguments remain. -/
def printf (format : String) (args : List String) : List UInt8 × Nat :=
  let rec go : Nat → List String → List UInt8 → Bool → List UInt8 × Nat
    | 0, _, acc, bad => (acc, if bad then 1 else 0)
    | fuel + 1, args, acc, bad =>
      let (out, rest, took, wrong) := formatPass (format.length + 1) format.toList args [] false false
      if took && !rest.isEmpty then go fuel rest (acc ++ out) (bad || wrong)
      else (acc ++ out, if bad || wrong then 1 else 0)
  go (args.length + 1) args [] false

/-- A duration for `sleep` in nanoseconds: a decimal number with an optional fraction and an
optional unit `s`, `m`, `h` or `d`; `none` when it is not one. -/
def durationNanos? (s : String) : Option Nat :=
  let cs := s.toList
  let (unit, body) := match cs.getLast? with
    | some 's' => (1, cs.dropLast)
    | some 'm' => (60, cs.dropLast)
    | some 'h' => (3600, cs.dropLast)
    | some 'd' => (86400, cs.dropLast)
    | _ => (1, cs)
  let whole := body.takeWhile Char.isDigit
  let rest := body.drop whole.length
  let frac := match rest with
    | '.' :: ds => if ds.all Char.isDigit then some ds else none
    | [] => some []
    | _ => none
  match frac with
  | none => none
  | some ds =>
    if whole.isEmpty && ds.isEmpty then none
    else
      let wholeN := digitsValue whole
      let ds9 := (ds ++ List.replicate 9 '0').take 9
      let fracN := digitsValue ds9
      some ((wholeN * 1000000000 + fracN) * unit)

/-- Whether a string is a number `test` can compare. -/
def testNumber? (s : String) : Option Int :=
  let t := s.trimAscii.toString
  match t.toList with
  | '-' :: ds => if !ds.isEmpty && ds.all Char.isDigit then some (-digitsValue ds) else none
  | '+' :: ds => if !ds.isEmpty && ds.all Char.isDigit then some (digitsValue ds) else none
  | ds => if !ds.isEmpty && ds.all Char.isDigit then some (digitsValue ds) else none

/-- A unary file test of `test`. -/
def fileTest (t : FileTree) (op : String) (path : String) : Option Bool :=
  let node := t.metadata path
  match op with
  | "-e" => some node.toBool
  | "-f" => some (match node with | .ok (.file _ _) => true | _ => false)
  | "-d" => some (match node with | .ok .dir => true | _ => false)
  | "-x" => some (match node with | .ok (.file _ x) => x | .ok .dir => true | _ => false)
  | "-r" | "-w" => some node.toBool
  | "-s" => some (match node with | .ok (.file c _) => !c.isEmpty | .ok .dir => true | _ => false)
  | "-L" | "-h" => some (match t.resolve path false with
      | .ok loc => match t.node? loc with | some (.link _) => true | _ => false
      | .error _ => false)
  | _ => none

/-- A binary comparison of `test`. -/
def compareTest (op a b : String) : Option (Except String Bool) :=
  let num (f : Int → Int → Bool) : Except String Bool :=
    match testNumber? a, testNumber? b with
    | some x, some y => .ok (f x y)
    | none, _ => .error ("Illegal number: " ++ a)
    | _, none => .error ("Illegal number: " ++ b)
  match op with
  | "=" => some (.ok (a == b))
  | "==" => some (.ok (a == b))
  | "!=" => some (.ok (a != b))
  | "-eq" => some (num (· == ·))
  | "-ne" => some (num (· != ·))
  | "-lt" => some (num (· < ·))
  | "-le" => some (num (· ≤ ·))
  | "-gt" => some (num (· > ·))
  | "-ge" => some (num (· ≥ ·))
  | _ => none

/-- Evaluating the arguments of `test`, by their count as the standard specifies for up to four
arguments; an error is a usage error. -/
def evalTest (t : FileTree) : Nat → List String → Except String Bool
  | 0, _ => .error "expression too deep"
  | _ + 1, [] => .ok false
  | _ + 1, [a] => .ok (!a.isEmpty)
  | fuel + 1, [a, b] =>
    if a == "!" then (evalTest t fuel [b]).map (!·)
    else if a == "-n" then .ok (!b.isEmpty)
    else if a == "-z" then .ok b.isEmpty
    else match fileTest t a b with
      | some r => .ok r
      | none => .error (a ++ ": unexpected operator")
  | fuel + 1, [a, op, b] =>
    match compareTest op a b with
    | some r => r
    | none =>
      if a == "!" then (evalTest t fuel [op, b]).map (!·)
      else if op == "-a" then .ok (!a.isEmpty && !b.isEmpty)
      else if op == "-o" then .ok (!a.isEmpty || !b.isEmpty)
      else if a == "(" && b == ")" then .ok (!op.isEmpty)
      else .error (op ++ ": unexpected operator")
  | fuel + 1, args =>
    match args with
    | "!" :: rest => (evalTest t fuel rest).map (!·)
    | _ =>
      -- split at the first -o, then at the first -a
      match args.idxOf? "-o" with
      | some i =>
        if i == 0 then .error "-o: unexpected operator"
        else do
          let l ← evalTest t fuel (args.take i)
          let r ← evalTest t fuel (args.drop (i + 1))
          pure (l || r)
      | none =>
        match args.idxOf? "-a" with
        | some i =>
          if i == 0 then .error "-a: unexpected operator"
          else do
            let l ← evalTest t fuel (args.take i)
            let r ← evalTest t fuel (args.drop (i + 1))
            pure (l && r)
        | none =>
          match args with
          | ["(", a, b, ")"] => evalTest t fuel [a, b]
          | _ => .error "too many arguments"

/-- A token of an arithmetic expression. -/
inductive ArithToken where
  | num (n : Int)
  | name (s : String)
  | op (s : String)
  deriving Repr, DecidableEq, Inhabited

/-- The operators of arithmetic, longest first. -/
def arithOperators : List String :=
  ["<<", ">>", "<=", ">=", "==", "!=", "&&", "||", "+", "-", "*", "/", "%", "<", ">", "(", ")",
   "!", "~", "&", "|", "^"]

/-- The tokens of an arithmetic expression; `none` when a character cannot start one. -/
def arithTokens : Nat → List Char → List ArithToken → Option (List ArithToken)
  | 0, _, acc => some acc.reverse
  | _ + 1, [], acc => some acc.reverse
  | fuel + 1, c :: rest, acc =>
    if c == ' ' || c == '\t' || c == '\n' then arithTokens fuel rest acc
    else if c.isDigit then
      let ds := (c :: rest).takeWhile Char.isAlphanum
      let after := (c :: rest).drop ds.length
      let text := String.ofList ds
      let value := if text.startsWith "0x" || text.startsWith "0X" then
          (text.drop 2).toString.toList.foldl (fun (acc : Option Nat) d =>
            acc.bind fun v => if d.isDigit then some (v * 16 + (d.toNat - 48))
              else if 'a' ≤ d.toLower && d.toLower ≤ 'f' then some (v * 16 + (d.toLower.toNat - 87))
              else none) (some 0)
        else if text.startsWith "0" then
          ds.foldl (fun (acc : Option Nat) d => acc.bind fun v =>
            match octalDigit? d with
            | some x => some (v * 8 + x)
            | none => none) (some 0)
        else if ds.all Char.isDigit then some (digitsValue ds) else none
      match value with
      | some v => arithTokens fuel after (.num v :: acc)
      | none => none
    else if isNameStart c then
      let ds := (c :: rest).takeWhile isNameChar
      arithTokens fuel ((c :: rest).drop ds.length) (.name (String.ofList ds) :: acc)
    else
      match arithOperators.find? (fun (op : String) => op.toList.isPrefixOf (c :: rest)) with
      | some op => arithTokens fuel ((c :: rest).drop op.length) (.op op :: acc)
      | none => none

/-- The binding strength of a binary arithmetic operator. -/
def arithPrecedence : String → Option Nat
  | "||" => some 1
  | "&&" => some 2
  | "|" => some 3
  | "^" => some 4
  | "&" => some 5
  | "==" | "!=" => some 6
  | "<" | "<=" | ">" | ">=" => some 7
  | "<<" | ">>" => some 8
  | "+" | "-" => some 9
  | "*" | "/" | "%" => some 10
  | _ => none

/-- Truth as an arithmetic value. -/
def arithBool (b : Bool) : Int := if b then 1 else 0

/-- Applying a binary arithmetic operator; division by zero is an error, and so are bitwise
operators on negative values, which this model leaves out. -/
def arithApply (op : String) (a b : Int) : Except String Int :=
  let bitwise (f : Nat → Nat → Nat) : Except String Int :=
    if a < 0 || b < 0 then .error "negative operand of a bitwise operator"
    else .ok (Int.ofNat (f a.toNat b.toNat))
  match op with
  | "+" => .ok (a + b)
  | "-" => .ok (a - b)
  | "*" => .ok (a * b)
  | "/" => if b == 0 then .error "division by zero" else .ok (a.tdiv b)
  | "%" => if b == 0 then .error "division by zero" else .ok (a.tmod b)
  | "<" => .ok (arithBool (a < b))
  | "<=" => .ok (arithBool (a ≤ b))
  | ">" => .ok (arithBool (a > b))
  | ">=" => .ok (arithBool (a ≥ b))
  | "==" => .ok (arithBool (a == b))
  | "!=" => .ok (arithBool (a != b))
  | "&&" => .ok (arithBool (a != 0 && b != 0))
  | "||" => .ok (arithBool (a != 0 || b != 0))
  | "&" => bitwise (· &&& ·)
  | "|" => bitwise (· ||| ·)
  | "^" => bitwise (· ^^^ ·)
  | "<<" => .ok (a <<< b.toNat)
  | ">>" => .ok (a >>> b.toNat)
  | _ => .error ("unknown operator " ++ op)

mutual

/-- A primary arithmetic expression: a number, a variable, a parenthesised expression or a
unary operator applied to one. -/
def arithPrimary (vars : String → String) : Nat → List ArithToken → Except String (Int × List ArithToken)
  | 0, _ => .error "expression too deep"
  | fuel + 1, ts =>
    match ts with
    | .num n :: rest => .ok (n, rest)
    | .name s :: rest =>
      let v := vars s
      if v.isEmpty then .ok (0, rest)
      else match testNumber? v with
        | some n => .ok (n, rest)
        | none => .error ("Illegal number: " ++ v)
    | .op "(" :: rest => do
      let (v, rest) ← arithBinary vars fuel 1 rest
      match rest with
      | .op ")" :: after => .ok (v, after)
      | _ => .error "expecting ')'"
    | .op "-" :: rest => do
      let (v, rest) ← arithPrimary vars fuel rest
      .ok (-v, rest)
    | .op "+" :: rest => arithPrimary vars fuel rest
    | .op "!" :: rest => do
      let (v, rest) ← arithPrimary vars fuel rest
      .ok (arithBool (v == 0), rest)
    | .op "~" :: rest => do
      let (v, rest) ← arithPrimary vars fuel rest
      .ok (-v - 1, rest)
    | _ => .error "expecting primary"

/-- A binary arithmetic expression whose operators bind at least as strongly as `min`. -/
def arithBinary (vars : String → String) : Nat → Nat → List ArithToken → Except String (Int × List ArithToken)
  | 0, _, _ => .error "expression too deep"
  | fuel + 1, min, ts => do
    let (lhs, rest) ← arithPrimary vars fuel ts
    arithMore vars fuel min lhs rest

/-- Extending a left operand with operators that bind at least as strongly as `min`. -/
def arithMore (vars : String → String) : Nat → Nat → Int → List ArithToken → Except String (Int × List ArithToken)
  | 0, _, _, _ => .error "expression too deep"
  | fuel + 1, min, lhs, ts =>
    match ts with
    | .op op :: rest =>
      match arithPrecedence op with
      | some p =>
        if p < min then .ok (lhs, ts)
        else do
          let (rhs, rest) ← arithBinary vars fuel (p + 1) rest
          let v ← arithApply op lhs rhs
          arithMore vars fuel min v rest
      | none => .ok (lhs, ts)
    | _ => .ok (lhs, ts)

end

/-- Evaluating an arithmetic expansion with the shell's variables. -/
def evalArith (vars : String → String) (expr : String) : Except String Int :=
  match arithTokens (expr.length + 1) expr.toList [] with
  | none => .error "arithmetic syntax error"
  | some [] => .ok 0
  | some ts =>
    match arithBinary vars (ts.length * 4 + 8) 1 ts with
    | .ok (v, []) => .ok v
    | .ok _ => .error "arithmetic syntax error"
    | .error e => .error e

end SuiteRunner.Shell
