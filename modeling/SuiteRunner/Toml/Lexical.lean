import SuiteRunner.Toml.Scan
import SuiteRunner.Toml.Document

/-!
The lexical grammar of TOML: blanks and comments, the four kinds of string with their escapes,
integers in four bases and floats. Each rule says, through its notes, what it was reading and
what it expected when it fails, so that a failure explains itself.
-/

namespace SuiteRunner.Toml.Grammar

open Scan

/-! ### Byte classes -/

/-- Space or tab. -/
def isBlank (b : UInt8) : Bool := b == 32 || b == 9

/-- An ASCII digit. -/
def isDigit (b : UInt8) : Bool := 48 ≤ b && b ≤ 57

/-- A hexadecimal digit. -/
def isHexDigit (b : UInt8) : Bool := isDigit b || (65 ≤ b && b ≤ 70) || (97 ≤ b && b ≤ 102)

/-- A byte of a multi-byte character. -/
def isNonAscii (b : UInt8) : Bool := 0x80 ≤ b

/-- A byte allowed in a comment. -/
def isNonEol (b : UInt8) : Bool := b == 9 || (0x20 ≤ b && b ≤ 0x7E) || isNonAscii b

/-- A byte that stands for itself in a basic string. -/
def isBasicUnescaped (b : UInt8) : Bool :=
  isBlank b || b == 0x21 || (0x23 ≤ b && b ≤ 0x5B) || (0x5D ≤ b && b ≤ 0x7E) || isNonAscii b

/-- A byte allowed in a literal string. -/
def isLiteralChar (b : UInt8) : Bool :=
  b == 9 || (0x20 ≤ b && b ≤ 0x26) || (0x28 ≤ b && b ≤ 0x7E) || isNonAscii b

/-- A byte of a bare key: letters, digits, `-` and `_`. -/
def isBareKeyChar (b : UInt8) : Bool :=
  (65 ≤ b && b ≤ 90) || (97 ≤ b && b ≤ 122) || isDigit b || b == 45 || b == 95

/-- The code of an ASCII character, as a byte. -/
def ascii (c : Char) : UInt8 := c.toNat.toUInt8

/-- Text of bytes known to be UTF-8. -/
def textOf (bs : List UInt8) : String := (String.fromUTF8? ⟨bs.toArray⟩).getD ""

/-- Note that a description was expected. -/
def expectingWhat {α : Type} (what : String) (p : Scan α) : Scan α :=
  note (.expected (.description what)) p

/-! ### Blanks, comments, line ends -/

/-- Spaces and tabs. -/
def ws : Scan (Nat × Nat) := skipWhile isBlank

/-- A comment up to the end of its line. -/
def comment : Scan Unit := do
  byte (ascii '#')
  let _ ← skipWhile isNonEol

/-- A line feed, or a carriage return and a line feed. -/
def newline : Scan Unit := first [byte 10, do byte 13; byte 10]

/-- A line end or the end of the input. -/
def lineEnding : Scan Unit := first [newline, eof]

/-- Blanks and an optional comment, then the end of the line. -/
def lineTrailing : Scan Unit := do
  let _ ← ws
  let _ ← opt comment
  lineEnding

/-- Blanks and line ends. -/
def wsNewline : Scan Unit := do
  let _ ← many (first [newline, do let _ ← takeWhile 1 UInt64.size isBlank; pure ()])

/-- A line end, then blanks and line ends. -/
def wsNewlines : Scan Unit := do newline; wsNewline

/-- Blanks, line ends and comments, as between array items. -/
def wsCommentNewline : Scan Unit := do
  let blankRun : Scan Unit := first [do let _ ← takeWhile 1 UInt64.size isBlank; pure (), newline]
  let _ ← many (first [do blankRun; let _ ← many blankRun, comment])

/-! ### Strings -/

/-- The value of hexadecimal digits. -/
def hexValue (bs : List UInt8) : Nat :=
  bs.foldl (fun acc b =>
    let d := if isDigit b then b.toNat - 48 else if b ≤ 70 then b.toNat - 55 else b.toNat - 87
    acc * 16 + d) 0

/-- Whether a number is a Unicode scalar value. -/
def isScalarValue (v : Nat) : Bool := v < 0xD800 || (0xDFFF < v && v ≤ 0x10FFFF)

/-- Exactly `n` hexadecimal digits naming a character. -/
def hexEscape (n : Nat) : Scan Char := rewind do
  let (a, b) ← verify (takeWhile 0 n isHexDigit) fun (a, b) => b - a == n
  let v := hexValue (← bytes a b)
  if isScalarValue v then pure (Char.ofNat v) else refuse "value is out of range"

/-- The character after a backslash. -/
def escapeSeqChar : Scan Char := do
  let b ← anyByte
  if b == ascii 'b' then pure '\x08'
  else if b == ascii 'f' then pure '\x0c'
  else if b == ascii 'n' then pure '\n'
  else if b == ascii 'r' then pure '\r'
  else if b == ascii 't' then pure '\t'
  else if b == ascii 'u' then label "unicode 4-digit hex code" (commit (hexEscape 4))
  else if b == ascii 'U' then label "unicode 8-digit hex code" (commit (hexEscape 8))
  else if b == ascii '\\' then pure '\\'
  else if b == ascii '"' then pure '"'
  else
    expecting ['b', 'f', 'n', 'r', 't', 'u', 'U', '\\', '"']
      (label "escape sequence" (commit fail))

/-- A backslash escape. -/
def escaped : Scan Char := do
  byte (ascii '\\')
  escapeSeqChar

/-- A run of plain characters or one escape of a basic string. -/
def basicChars : Scan String :=
  first [
    do let (a, b) ← takeWhile 1 UInt64.size isBasicUnescaped; pure (textOf (← bytes a b)),
    do let c ← escaped; pure (String.singleton c)]

/-- A string in double quotes. -/
def basicString : Scan String := do
  byte (ascii '"')
  let parts ← many basicChars
  label "basic string" (commit (byte (ascii '"')))
  pure (String.join parts)

/-- A string in single quotes, taken as written. -/
def literalString : Scan String := label "literal string" do
  byte (ascii '\'')
  let (a, b) ← commit (takeWhile 0 UInt64.size isLiteralChar)
  commit (byte (ascii '\''))
  pure (textOf (← bytes a b))

/-- A backslash at the end of a line, which removes the line end and the blanks after it. -/
def mlEscapedNewline : Scan Unit := do
  let step : Scan Unit := do byte (ascii '\\'); let _ ← ws; wsNewlines
  step
  let _ ← many step

/-- A piece of the body of a multi-line basic string. -/
def mlbContent : Scan String :=
  first [
    do let (a, b) ← takeWhile 1 UInt64.size isBasicUnescaped; pure (textOf (← bytes a b)),
    do mlEscapedNewline; pure "",
    do let c ← escaped; pure (String.singleton c),
    do newline; pure "\n"]

/-- One or two quotes, followed by what `term` accepts (not read). -/
def quotesBefore (q : UInt8) (term : Scan Unit) : Scan String :=
  let follows : Scan Unit := ⟨fun src pos =>
    match term.run src pos with
    | .ok _ _ => .ok () pos
    | .soft e q => .soft e q
    | .hard e q => .hard e q⟩
  orElse (do tag [q, q]; follows; pure (String.ofList [Char.ofNat q.toNat, Char.ofNat q.toNat]))
    (do byte q; follows; pure (String.singleton (Char.ofNat q.toNat)))

/-- Pieces, then runs of quotes each followed by pieces, as long as they last. -/
def mlQuotedRuns (q : UInt8) (content : Scan String) : Scan String := do
  let notQuote : Scan Unit := do let _ ← sat (· != q); pure ()
  let run : Scan String := do
    let qs ← quotesBefore q notQuote
    let c ← content
    let cs ← many content
    pure (qs ++ c ++ String.join cs)
  let runs ← many run
  pure (String.join runs)

/-- A string in triple double quotes. -/
def mlBasicString : Scan String := label "multiline basic string" do
  tag [34, 34, 34]
  let _ ← opt newline
  let body ← commit do
    let head ← many mlbContent
    let mid ← mlQuotedRuns 34 mlbContent
    let tail ← opt (quotesBefore 34 (tag [34, 34, 34]))
    pure (String.join head ++ mid ++ tail.getD "")
  commit (tag [34, 34, 34])
  pure body

/-- A piece of the body of a multi-line literal string. -/
def mllContent : Scan String :=
  first [
    do let b ← sat fun b => b == 9 || (0x20 ≤ b && b ≤ 0x26) || (0x28 ≤ b && b ≤ 0x7E) || isNonAscii b
       pure (textOf [b]),
    do newline; pure "\n"]

/-- The bytes of a multi-line literal string's body, read as text at the end. -/
def mllBody : Scan String := do
  let start ← Scan.position
  let _ ← many mllContent
  let _ ← many (do let _ ← quotesBefore 39 (do let _ ← sat (· != 39); pure ()); let _ ← mllContent; let _ ← many mllContent)
  let _ ← opt (quotesBefore 39 (tag [39, 39, 39]))
  let stop ← Scan.position
  let raw := textOf (← bytes start stop)
  pure ("\n".intercalate (raw.splitOn "\r\n"))

/-- A string in triple single quotes. -/
def mlLiteralString : Scan String := label "multiline literal string" do
  tag [39, 39, 39]
  let _ ← opt newline
  let body ← commit mllBody
  commit (tag [39, 39, 39])
  pure body

/-- Any of the four kinds of string. -/
def string : Scan String := first [mlBasicString, basicString, mlLiteralString, literalString]

/-! ### Numbers -/

/-- Digits with single underscores between them, the first digit checked by `lead`. -/
def digitRun (lead : UInt8 → Bool) (digit : UInt8 → Bool) : Scan Unit := do
  let _ ← sat lead
  let _ ← many (first [
    do let _ ← sat digit; pure (),
    do byte 95; let _ ← expectingWhat "digit" (commit (sat digit)); pure ()])

/-- A decimal integer as written: an optional sign, then `0` or digits without a leading zero. -/
def decInt : Scan (Nat × Nat) := label "integer" (spanOf do
  let _ ← opt (sat fun b => b == 43 || b == 45)
  first [digitRun (fun b => 49 ≤ b && b ≤ 57) isDigit, do let _ ← sat isDigit; pure ()])

/-- The digits of a written number without its underscores. -/
def withoutUnderscores (bs : List UInt8) : List UInt8 := bs.filter (· != 95)

/-- The smallest and largest 64-bit integers. -/
def int64Min : Int := -9223372036854775808

/-- The largest 64-bit integer. -/
def int64Max : Int := 9223372036854775807

/-- Read a signed 64-bit integer in a base, refusing values out of range. -/
def readInt (base : Nat) (bs : List UInt8) : Except String Int :=
  let (neg, ds) := match bs with
    | 45 :: r => (true, r)
    | 43 :: r => (false, r)
    | r => (false, r)
  let digit (b : UInt8) : Nat := if isDigit b then b.toNat - 48 else (b.toNat ||| 32) - 87
  let n : Nat := ds.foldl (fun acc b => acc * base + digit b) 0
  let v : Int := if neg then -(n : Int) else n
  if v > int64Max then .error "number too large to fit in target type"
  else if v < int64Min then .error "number too small to fit in target type"
  else .ok v

/-- Read the bytes `p` spans with `f`; a refusal, with or without a cause, fails hard where `p`
started. -/
def readSpan {α : Type} (p : Scan (Nat × Nat)) (f : List UInt8 → Except (Option String) α) :
    Scan α :=
  ⟨fun src pos =>
    match p.run src pos with
    | .ok (a, b) q =>
      match f (src.extract a b).toList with
      | .ok v => .ok v q
      | .error c => .hard { cause := c } pos
    | .soft e q => .soft e q
    | .hard e q => .hard e q⟩

/-- An integer with a base prefix, such as `0x`. -/
def prefixedInt (pfx : Char) (digit : UInt8 → Bool) (what : String) : Scan (Nat × Nat) :=
  label what do
    let a ← Scan.position
    tag [48, ascii pfx]
    commit (digitRun digit digit)
    let b ← Scan.position
    pure (a + 2, b)

/-- An integer in any base. -/
def integer : Scan Int := do
  let b0 ← peek
  let b1 ← peekSecond
  let based (pfx : Char) (digit : UInt8 → Bool) (what : String) (base : Nat) : Scan Int :=
    commit (tryMap (do let (a, b) ← prefixedInt pfx digit what; bytes a b)
      fun bs => readInt base (withoutUnderscores bs))
  if b0 == some 48 && b1 == some (ascii 'x') then based 'x' isHexDigit "hexadecimal integer" 16
  else if b0 == some 48 && b1 == some (ascii 'o') then
    based 'o' (fun b => 48 ≤ b && b ≤ 55) "octal integer" 8
  else if b0 == some 48 && b1 == some (ascii 'b') then
    based 'b' (fun b => b == 48 || b == 49) "binary integer" 2
  else readSpan decInt fun bs => (readInt 10 (withoutUnderscores bs)).mapError some

/-- Digits that may start with zero, with single underscores between them. -/
def zeroPrefixableInt : Scan Unit := digitRun isDigit isDigit

/-- A fraction: a point and digits. -/
def frac : Scan Unit := do
  byte (ascii '.')
  expectingWhat "digit" (commit zeroPrefixableInt)

/-- An exponent: `e` or `E`, an optional sign, digits. -/
def exponent : Scan Unit := do
  let _ ← sat fun b => b == ascii 'e' || b == ascii 'E'
  let _ ← opt (sat fun b => b == 43 || b == 45)
  commit zeroPrefixableInt

/-- The decimal value of a float as written, as digits and a power of ten. -/
def decimalOf (bs : List UInt8) : Bool × Nat × Int :=
  let (neg, rest) := match bs with
    | 45 :: r => (true, r)
    | 43 :: r => (false, r)
    | r => (false, r)
  let isExp (b : UInt8) : Bool := b == ascii 'e' || b == ascii 'E'
  let mant := rest.takeWhile (!isExp ·)
  let expPart := (rest.dropWhile (!isExp ·)).drop 1
  let intPart := mant.takeWhile (· != 46)
  let fracPart := (mant.dropWhile (· != 46)).drop 1
  let digits := (intPart ++ fracPart).foldl (fun acc b => acc * 10 + (b.toNat - 48)) 0
  let (eneg, eds) := match expPart with
    | 45 :: r => (true, r)
    | 43 :: r => (false, r)
    | r => (false, r)
  let e : Nat := eds.foldl (fun acc b => acc * 10 + (b.toNat - 48)) 0
  let e : Int := if eneg then -(e : Int) else e
  (neg, digits, e - fracPart.length)

/-- The double nearest to a written decimal float. -/
def floatOf (bs : List UInt8) : Float :=
  let (neg, m, e) := decimalOf (withoutUnderscores bs)
  let v := if e < 0 then Float.ofScientific m true e.natAbs else Float.ofScientific m false e.toNat
  if neg then -v else v

/-- The positive infinity. -/
def infinity : Float := 1.0 / 0.0

/-- `inf` or `nan`, with an optional sign. -/
def specialFloat : Scan Float := do
  let s ← opt (sat fun b => b == 43 || b == 45)
  let v ← first [do text "inf"; pure infinity, do text "nan"; pure (0.0 / 0.0)]
  pure (if s == some 45 then -v else v)

/-- A float: digits with a fraction or an exponent, or a special value. A finite float too large
for a double is refused; one too small in magnitude is kept as its negative infinity. -/
def float : Scan Float := label "floating-point number" (first [
  readSpan (spanOf do let _ ← decInt; first [exponent, do frac; let _ ← opt exponent])
    fun bs => let f := floatOf bs; if f == infinity then .error none else .ok f,
  specialFloat])

end SuiteRunner.Toml.Grammar
