import SuiteRunner.Toml.Problem
import SuiteRunner.Decimal.Shortest

/-!
Decoding TOML items into typed settings. A value of the wrong kind is refused with
`invalid type: <what was found>, expected <what was wanted>`, and a number out of range with
`invalid value: …`; the problem points at the innermost item that has a span. A record is decoded
from a table, field by field in the order the document gives them and ignoring unknown keys,
or from an array, field by field in order; a date decodes to a record of defaults, since it is
read as a table with a single hidden key.

Found text is shown quoted and escaped, found floats with at least one decimal place.
-/

namespace SuiteRunner.Toml

/-- Whether a character is shown as itself inside quoted text. Control characters, the soft
hyphen, combining diacritical marks, zero-width and direction format characters, the byte-order
mark and private-use characters are shown escaped. -/
def isShownPlain (c : Char) : Bool :=
  let n := c.toNat
  !(n < 0x20 || (0x7F ≤ n && n < 0xA0) || n == 0xAD || (0x300 ≤ n && n ≤ 0x36F) ||
    (0x200B ≤ n && n ≤ 0x200F) || (0x2028 ≤ n && n ≤ 0x202E) || (0x2060 ≤ n && n ≤ 0x206F) ||
    n == 0xFEFF || (0xE000 ≤ n && n ≤ 0xF8FF) || (0xFFF0 ≤ n && n ≤ 0xFFFB))

/-- Lowercase hexadecimal digits of a number. -/
def hexDigits (n : Nat) : String := String.ofList (Nat.toDigits 16 n)

/-- One character of quoted text: the usual backslash escapes, a braced code for characters
not shown plain, and itself otherwise. -/
def escapeChar (c : Char) : String :=
  if c == '\x00' then "\\0"
  else if c == '\t' then "\\t"
  else if c == '\r' then "\\r"
  else if c == '\n' then "\\n"
  else if c == '\\' then "\\\\"
  else if c == '"' then "\\\""
  else if isShownPlain c then String.singleton c
  else "\\u" ++ "\x7b" ++ hexDigits c.toNat ++ "\x7d"

/-- Text in double quotes with its special characters escaped. -/
def quoted (s : String) : String := "\"" ++ String.join (s.toList.map escapeChar) ++ "\""

/-- What a decoder found instead of what it wanted. -/
inductive Found where
  | boolean (b : Bool)
  | integer (i : Int)
  | float (f : Float)
  | string (s : String)
  | sequence
  | map

/-- How a found value is named in a problem. -/
def Found.text : Found → String
  | .boolean b => s!"boolean `{b}`"
  | .integer i => s!"integer `{i}`"
  | .float f => s!"floating point `{Decimal.render .pointed f}`"
  | .string s => s!"string {quoted s}"
  | .sequence => "sequence"
  | .map => "map"

namespace Item

/-- What an item is, as a decoder reports it. A date counts as a table. -/
def found : Item → Found
  | .scalar (.string s) _ => .string s
  | .scalar (.integer i) _ => .integer i
  | .scalar (.float f) _ => .float f
  | .scalar (.boolean b) _ => .boolean b
  | .scalar .datetime _ => .map
  | .array _ _ | .tables _ => .sequence
  | .inlineTable _ _ | .table _ _ => .map

/-- The item refused: it has the wrong kind for `wanted`. -/
def wrongKind (item : Item) (wanted : String) : Problem :=
  { message := s!"invalid type: {item.found.text}, expected {wanted}", span := item.span? }

/-- An unsigned 64-bit integer. -/
def asU64 (item : Item) : Except Problem Nat :=
  match item with
  | .scalar (.integer i) sp =>
    if i < 0 then .error { message := s!"invalid value: integer `{i}`, expected u64", span := sp }
    else .ok i.toNat
  | _ => .error (item.wrongKind "u64")

/-- A string; `wanted` names it in a problem. -/
def asString (item : Item) (wanted : String) : Except Problem String :=
  match item with
  | .scalar (.string s) _ => .ok s
  | _ => .error (item.wrongKind wanted)

/-- The elements of an array or array of tables. -/
def elements? : Item → Option (List Item)
  | .array items _ => some items
  | .tables ts => some (ts.map fun (es, info) => .table es info)
  | _ => none

/-- A problem inside `outer` points at `outer` when it has no span of its own. -/
def within (outer : Item) (p : Problem) : Problem :=
  if p.span.isSome then p else { p with span := outer.span? }

/-- A list of strings. -/
def asStrings (item : Item) : Except Problem (List String) :=
  match item.elements? with
  | some items => items.mapM fun e => (e.asString "a string").mapError (within e)
  | none => .error (item.wrongKind "a sequence")

/-- A record named `what`, starting from `init`: each field is a name and how it updates the
record from an item. -/
def asRecord {σ : Type} (item : Item) (what : String) (init : σ)
    (fields : List (String × (σ → Item → Except Problem σ))) : Except Problem σ :=
  let entryStep (s : σ) (kv : Key × Item) : Except Problem σ :=
    match fields.lookup kv.1.name with
    | none => .ok s
    | some f =>
      (f s kv.2).mapError fun p =>
        let p := if p.span.isSome then p else { p with span := kv.2.span? <|> kv.1.span }
        { p with keys := kv.1.name :: p.keys }
  match item with
  | .table es _ | .inlineTable es _ => (es.foldlM entryStep init).mapError (within item)
  | .scalar .datetime _ => .ok init
  | _ =>
    match item.elements? with
    | some items =>
      let step (s : σ) (ef : Item × (String × (σ → Item → Except Problem σ))) :
          Except Problem σ := (ef.2.2 s ef.1).mapError (within ef.1)
      ((items.zip fields).foldlM step init).mapError (within item)
    | none => .error (item.wrongKind s!"struct {what}")

end Item

end SuiteRunner.Toml
