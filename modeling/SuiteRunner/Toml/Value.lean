import SuiteRunner.Toml.Lexical

/-!
The grammar of TOML values and keys: dates and times, booleans, the special floats, arrays and
inline tables, and keys, bare, quoted or dotted. A value keeps the span it was read from. Arrays
and inline tables nest at most `depthLimit` deep.
-/

namespace SuiteRunner.Toml.Grammar

open Scan

/-! ### Dates and times -/

/-- Exactly `n` digits, with their value. -/
def digitsN (n : Nat) : Scan Nat := do
  let (a, b) ← takeWhile n n isDigit
  let bs ← bytes a b
  pure (bs.foldl (fun acc b => acc * 10 + (b.toNat - 48)) 0)

/-- Two digits in a range. -/
def twoDigitsIn (lo hi : Nat) : Scan Nat :=
  tryMap (digitsN 2) fun v => if lo ≤ v && v ≤ hi then .ok v else .error "value is out of range"

/-- Whether a year is a leap year. -/
def isLeapYear (y : Nat) : Bool := y % 4 == 0 && (y % 100 != 0 || y % 400 == 0)

/-- A date: year, month and day, the day checked against the month. -/
def fullDate : Scan Unit := do
  let year ← digitsN 4
  byte 45
  let month ← commit (twoDigitsIn 1 12)
  commit (byte 45)
  let dayStart ← Scan.position
  let day ← commit (twoDigitsIn 1 31)
  let maxDay :=
    if month == 2 then (if isLeapYear year then 29 else 28)
    else if month == 4 || month == 6 || month == 9 || month == 11 then 30 else 31
  if maxDay < day then
    ⟨fun _ _ => .hard { cause := some "value is out of range" } dayStart⟩
  else pure ()

/-- A fraction of a second. -/
def secFrac : Scan Unit := do
  byte (ascii '.')
  let _ ← takeWhile 1 UInt64.size isDigit

/-- A time of day: hours, minutes, seconds and an optional fraction. -/
def partialTime : Scan Unit := do
  let _ ← twoDigitsIn 0 23
  byte (ascii ':')
  commit do
    let _ ← twoDigitsIn 0 59
    byte (ascii ':')
    let _ ← twoDigitsIn 0 60
    let _ ← opt secFrac

/-- A time offset: `Z`, or a sign, hours and minutes. -/
def timeOffset : Scan Unit := label "time offset" (first [
  do let _ ← sat fun b => b == ascii 'Z' || b == ascii 'z'; pure (),
  do
    let _ ← sat fun b => b == 43 || b == 45
    commit do
      let _ ← twoDigitsIn 0 23
      byte (ascii ':')
      let _ ← twoDigitsIn 0 59])

/-- A date with an optional time and offset, or a time alone. -/
def dateTime : Scan Unit := label "date-time" (first [
  do
    fullDate
    let _ ← opt do
      let _ ← sat fun b => b == ascii 'T' || b == ascii 't' || b == 32
      partialTime
      let _ ← opt timeOffset
  , partialTime])

/-! ### Keys -/

/-- A bare or quoted key with the text it was written as. -/
def simpleKey : Scan Key := do
  let b ← peek
  let (name, a, z) ← withSpan do
    match b with
    | some 34 => basicString
    | some 39 => literalString
    | some _ => do let (a, z) ← takeWhile 1 UInt64.size isBareKeyChar; pure (textOf (← bytes a z))
    | none => fail
  pure ⟨name, textOf (← bytes a z), some ⟨a, z⟩⟩

/-- A key of one or more parts separated by dots, with blanks around each part. -/
def key : Scan (List Key) :=
  label "key" (sepBy (do let _ ← ws; let k ← simpleKey; let _ ← ws; pure k) (byte (ascii '.')) true)

/-! ### Values -/

/-- How deep arrays and inline tables may nest. -/
def depthLimit : Nat := 80

/-- A value that does not start a string, array or table, read as a bare word: `true`,
`false`, `inf` or `nan`, or else a missing string. -/
def bareWord {α : Type} (p : Scan α) : Scan α :=
  expecting ['"', '\''] (label "string" p)

/-- Insert a key and value into an inline table, following the rest `path` of a dotted key.
`done` is the part of the path already walked and `plain` says the key had no dots; `dotted`
is whether the table being filled was made by a dotted key. -/
def insertInline (plain : Bool) (entries : List (Key × Item)) (dotted : Bool) (done : List Key) :
    List Key → Key → Item → Except Conflict (List (Key × Item))
  | [], k, v =>
    if dotted == plain then .error (.duplicateKey k.name none)
    else match lookupEntry entries k.name with
      | some _ => .error (.duplicateKey k.name none)
      | none => .ok (entries ++ [(k, v)])
  | p :: ps, k, v =>
    match lookupEntry entries p.name with
    | none => do
      let sub ← insertInline plain [] true (done ++ [p]) ps k v
      pure (entries ++ [(p, .inlineTable sub { implicit := true, dotted := true })])
    | some (.inlineTable es info) =>
      if !info.implicit then .error (.duplicateKey p.name none)
      else do
        let sub ← insertInline plain es info.dotted (done ++ [p]) ps k v
        pure (setEntry entries p.name (.inlineTable sub info))
    | some other => .error (.extendsValue (names (done ++ [p])) other.typeName)

/-- The entries of an inline table from its key-value pairs, in order. -/
def tableOfPairs (pairs : List (List Key × Item)) : Except String (List (Key × Item)) :=
  pairs.foldlM (fun acc (ks, v) =>
    match ks.getLast? with
    | some k => (insertInline ks.dropLast.isEmpty acc false [] ks.dropLast k v).mapError Conflict.message
    | none => .ok acc) []

mutual

/-- A value with its span. -/
def value : Nat → Scan Item
  | 0 => abort "recursion limit exceeded"
  | d + 1 => do
    let b ← peek
    let (v, a, z) ← withSpan do
      match b with
      | none => fail
      | some c =>
        if c == 34 || c == 39 then do let s ← string; pure (Item.scalar (.string s) none)
        else if c == ascii '[' then array d
        else if c == ascii '{' then inlineTable d
        else if c == 43 || c == 45 || isDigit c then
          first [
            do dateTime; pure (Item.scalar .datetime none),
            do let f ← float; pure (Item.scalar (.float f) none),
            do let i ← integer; pure (Item.scalar (.integer i) none)]
        else if c == 95 then
          expectingWhat "leading digit" do let i ← integer; pure (Item.scalar (.integer i) none)
        else if c == 46 then
          expectingWhat "leading digit" do let f ← float; pure (Item.scalar (.float f) none)
        else if c == ascii 't' then
          bareWord do commit (text "true"); pure (Item.scalar (.boolean true) none)
        else if c == ascii 'f' then
          bareWord do commit (text "false"); pure (Item.scalar (.boolean false) none)
        else if c == ascii 'i' then
          bareWord do text "inf"; pure (Item.scalar (.float infinity) none)
        else if c == ascii 'n' then
          bareWord do text "nan"; pure (Item.scalar (.float (0.0 / 0.0)) none)
        else bareWord fail
    let sp : Option Span := some ⟨a, z⟩
    pure <| match v with
      | .scalar s _ => .scalar s sp
      | .array items _ => .array items sp
      | .inlineTable es info => .inlineTable es { info with span := sp }
      | other => other

/-- An array: values separated by commas, with blanks, line ends and comments around them and
an optional comma at the end. -/
def array : Nat → Scan Item
  | d => do
    byte (ascii '[')
    let items ← commit do
      if (← peek) == some (ascii ']') then pure []
      else
        let items ← sepBy (do wsCommentNewline; let v ← value d; wsCommentNewline; pure v)
          (byte (ascii ',')) false
        if !items.isEmpty then
          let _ ← opt (byte (ascii ','))
        wsCommentNewline
        pure items
    expecting [']'] (label "array" (commit (byte (ascii ']'))))
    pure (.array items none)

/-- An inline table: key-value pairs separated by commas, on one line. -/
def inlineTable : Nat → Scan Item
  | d => do
    byte (ascii '{')
    let entries ← commit (tryMap (do
        let pairs ← sepBy (do
            let ks ← key
            commit do
              expecting ['.', '='] (byte (ascii '='))
              let _ ← ws
              let v ← value d
              let _ ← ws
              pure (ks, v))
          (byte (ascii ',')) false
        let _ ← ws
        pure pairs) tableOfPairs)
    expecting ['}'] (label "inline table" (commit (byte (ascii '}'))))
    pure (.inlineTable entries {})

end

end SuiteRunner.Toml.Grammar
