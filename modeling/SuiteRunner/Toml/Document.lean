/-!
The parts of a TOML document as read: keys with the text they were written as, scalar values,
arrays, inline tables, tables opened by a header, and arrays of tables. Every part keeps the byte
span it was read from, when it has one, so that later errors can point at it.

Tables opened by a header may be implicit (made on the way to a deeper header) or dotted (made by
a dotted key). Inserting into the tree follows the rules of the format: a key is defined once, a
dotted key never reopens a table defined by a header, and no value is extended as if it were a
table. A refusal is a `Conflict`, with one message function.
-/

namespace SuiteRunner.Toml

/-- A byte range `[start, stop)` of the source. -/
structure Span where
  start : Nat
  stop : Nat
  deriving Repr, DecidableEq, Inhabited

/-- A key: its value, the text it was written as, and where. -/
structure Key where
  name : String
  raw : String
  span : Option Span := none
  deriving Repr, DecidableEq, Inhabited

/-- A value that holds no other value. -/
inductive Scalar where
  | string (s : String)
  | integer (i : Int)
  | float (f : Float)
  | boolean (b : Bool)
  | datetime
  deriving Repr, Inhabited

/-- Facts about a table that only the reading uses. -/
structure TableInfo where
  /-- Made on the way to a deeper header or key, not by its own header. -/
  implicit : Bool := false
  /-- Made by a dotted key. -/
  dotted : Bool := false
  span : Option Span := none
  deriving Repr, DecidableEq, Inhabited

/-- A part of a document. -/
inductive Item where
  | scalar (s : Scalar) (span : Option Span)
  | array (items : List Item) (span : Option Span)
  | inlineTable (entries : List (Key × Item)) (info : TableInfo)
  | table (entries : List (Key × Item)) (info : TableInfo)
  | tables (items : List (List (Key × Item) × TableInfo))
  deriving Repr, Inhabited

/-- The entries of a table together with its facts. -/
structure Table where
  entries : List (Key × Item) := []
  info : TableInfo := {}
  deriving Repr, Inhabited

/-- Why an insertion into the tree is refused. -/
inductive Conflict where
  /-- A key defined twice; `table` is the path of the table it is in, when known. -/
  | duplicateKey (key : String) (table : Option (List String))
  /-- A dotted key or header that would extend a value of the named type. -/
  | extendsValue (path : List String) (actual : String)
  deriving Repr, DecidableEq

/-- Names joined by dots, as a dotted key is written. -/
def dotted (names : List String) : String := ".".intercalate names

/-- The text of a conflict. -/
def Conflict.message : Conflict → String
  | .duplicateKey k none => s!"duplicate key `{k}`"
  | .duplicateKey k (some []) => s!"duplicate key `{k}` in document root"
  | .duplicateKey k (some path) => s!"duplicate key `{k}` in table `{dotted path}`"
  | .extendsValue path actual =>
    s!"dotted key `{dotted path}` attempted to extend non-table type ({actual})"

namespace Item

/-- The name of a value's type, as conflicts report it. -/
def typeName : Item → String
  | .scalar (.string _) _ => "string"
  | .scalar (.integer _) _ => "integer"
  | .scalar (.float _) _ => "float"
  | .scalar (.boolean _) _ => "boolean"
  | .scalar .datetime _ => "datetime"
  | .array _ _ => "array"
  | .inlineTable _ _ => "inline table"
  | .table _ _ => "table"
  | .tables _ => "array of tables"

/-- The span of an item, when it has one. -/
def span? : Item → Option Span
  | .scalar _ s => s
  | .array _ s => s
  | .inlineTable _ i => i.span
  | .table _ i => i.span
  | .tables _ => none

end Item

/-- The value at a key's name. -/
def lookupEntry (entries : List (Key × Item)) (name : String) : Option Item :=
  (entries.find? (·.1.name == name)).map (·.2)

/-- Replace the value at a key's name, keeping its place. -/
def setEntry (entries : List (Key × Item)) (name : String) (v : Item) : List (Key × Item) :=
  entries.map fun e => if e.1.name == name then (e.1, v) else e

/-- Remove the value at a key's name. -/
def dropEntry (entries : List (Key × Item)) (name : String) : List (Key × Item) :=
  entries.filter fun e => e.1.name != name

/-- Names of keys, for messages. -/
def names (ks : List Key) : List String := ks.map (·.name)

namespace Table

/-- Apply `f` to the table at `path` below `t`, making missing tables on the way; they are
implicit, and dotted when `dotted` is set. A value on the way is refused, an array of tables
is entered at its last table, and a dotted path may not enter a table defined by a header.
`done` is the part of the path already walked, for messages. -/
def descend {β : Type} (f : Table → Except Conflict (Table × β)) (dotted : Bool) :
    List Key → List Key → Table → Except Conflict (Table × β)
  | _, [], t => f t
  | done, k :: ks, t =>
    let path := done ++ [k]
    match lookupEntry t.entries k.name with
    | none => do
      let fresh : Table := { info := { implicit := true, dotted := dotted } }
      let (sub, b) ← descend f dotted path ks fresh
      pure ({ t with entries := t.entries ++ [(k, .table sub.entries sub.info)] }, b)
    | some (.table es info) =>
      if dotted && !info.implicit then .error (.duplicateKey k.name none)
      else do
        let (sub, b) ← descend f dotted path ks ⟨es, info⟩
        pure ({ t with entries := setEntry t.entries k.name (.table sub.entries sub.info) }, b)
    | some (.tables items) =>
      match items.getLast? with
      | some (es, info) => do
        let (sub, b) ← descend f dotted path ks ⟨es, info⟩
        let items := items.dropLast ++ [(sub.entries, sub.info)]
        pure ({ t with entries := setEntry t.entries k.name (.tables items) }, b)
      | none => .error (.extendsValue (names path) "array of tables")
    | some v => .error (.extendsValue (names path) v.typeName)

/-- Add a key and value to the table at `path` (a dotted key's prefix) below `t`. `at` is the
path of the table `t` itself, for messages. -/
def insertKeyval (t : Table) (here : List Key) (path : List Key) (k : Key) (v : Item) :
    Except Conflict Table := do
  let (t, _) ← descend (fun sub =>
      if sub.info.dotted == path.isEmpty then .error (.duplicateKey k.name none)
      else match lookupEntry sub.entries k.name with
        | some _ => .error (.duplicateKey k.name (some (names here)))
        | none => .ok ({ sub with entries := sub.entries ++ [(k, v)] }, ()))
    true [] path t
  pure t

end Table

end SuiteRunner.Toml
