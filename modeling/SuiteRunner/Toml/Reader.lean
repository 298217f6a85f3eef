import SuiteRunner.Toml.Value
import SuiteRunner.Toml.Problem

/-!
Reading a whole TOML document. The document is a sequence of comments, blank lines, table
headers and key-value lines. Key-value lines fill the current table; a header closes it, puts it
into the tree, and opens the next. A table that a deeper header made on the way may be opened by
its own header later; any other repeated definition is refused.

A failure of the grammar is reported at the byte where the reading stopped, with the message its
notes make; a refusal of the tree at the start of the line that caused it; a refusal when the
last table is put away, without a position.
-/

namespace SuiteRunner.Toml

open Scan Grammar

/-- The message a failure of the grammar shows: what was being read, what was expected, and
the cause, each on its own line. -/
def Failure.message (f : Failure) : String :=
  let label := f.notes.findSome? fun | .label s => some s | _ => none
  let expected := f.notes.filterMap fun | .expected e => some e | _ => none
  let expText : Expected → String
    | .char '\n' => "newline"
    | .char '`' => "'`'"
    | .char c => s!"`{c}`"
    | .literal s => s!"`{s}`"
    | .description s => s
  let parts : List String :=
    (match label with | some l => [s!"invalid {l}"] | none => []) ++
    (if expected.isEmpty then [] else ["expected " ++ ", ".intercalate (expected.map expText)]) ++
    (match f.cause with | some c => [c] | none => [])
  "\n".intercalate parts

/-- The state of the reading: the tree so far and the table being filled. -/
structure Reading where
  root : Table := {}
  current : Table := {}
  currentPath : List Key := []
  currentIsArray : Bool := false
  deriving Inhabited

/-- A key defined twice, named by how it was written at place `i` of the path. -/
def duplicateAt (path : List Key) (i : Nat) : Conflict :=
  .duplicateKey ((path[i]?.map (·.raw)).getD "") (some (names (path.take i)))

namespace Reading

/-- Put the table being filled into the tree. The first one is the root. -/
def finalize (r : Reading) : Except Conflict Reading := do
  let table := r.current
  let path := r.currentPath
  let r := { r with current := {}, currentPath := [] }
  match path.getLast? with
  | none => pure { r with root := table }
  | some k =>
    let dup := duplicateAt path (path.length - 1)
    let (root, _) ← Table.descend (fun parent =>
        if r.currentIsArray then
          match lookupEntry parent.entries k.name with
          | none => .ok ({ parent with entries := parent.entries ++ [(k, .tables [(table.entries, table.info)])] }, ())
          | some (.tables ts) =>
            .ok ({ parent with entries := setEntry parent.entries k.name (.tables (ts ++ [(table.entries, table.info)])) }, ())
          | some _ => .error dup
        else
          match lookupEntry parent.entries k.name with
          | none => .ok ({ parent with entries := parent.entries ++ [(k, .table table.entries table.info)] }, ())
          | some (.table _ info) =>
            if info.implicit then
              .ok ({ parent with entries := setEntry parent.entries k.name (.table table.entries table.info) }, ())
            else .error dup
          | some _ => .error dup)
      false [] path.dropLast r.root
    pure { r with root }

/-- Open the table of a `[header]`. A table made on the way to a deeper header is taken over
with what it holds. -/
def openTable (r : Reading) (path : List Key) (span : Span) : Except Conflict Reading := do
  let r ← r.finalize
  match path.getLast? with
  | none => pure r
  | some k =>
    let dup := duplicateAt path (path.length - 1)
    let (root, existing) ← Table.descend (fun parent =>
        match lookupEntry parent.entries k.name with
        | none => .ok (parent, none)
        | some (.table es info) =>
          if info.implicit && !info.dotted then
            .ok ({ parent with entries := dropEntry parent.entries k.name }, some es)
          else .error dup
        | some _ => .error dup)
      false [] path.dropLast r.root
    pure { root, current := { entries := existing.getD [], info := { span := some span } },
           currentPath := path, currentIsArray := false }

/-- Open a new table of an array by a `[[header]]`. -/
def openArrayTable (r : Reading) (path : List Key) (span : Span) : Except Conflict Reading := do
  let r ← r.finalize
  pure { r with current := { info := { span := some span } }, currentPath := path,
                currentIsArray := true }

/-- Add a key-value line to the table being filled; the table's span grows to the value. -/
def addKeyval (r : Reading) (ks : List Key) (v : Item) : Except Conflict Reading := do
  let cur := r.current
  let cur := match cur.info.span, v.span? with
    | some s, some e => { cur with info := { cur.info with span := some ⟨s.start, e.stop⟩ } }
    | _, _ => cur
  match ks.getLast? with
  | none => pure r
  | some k =>
    let cur ← cur.insertKeyval r.currentPath ks.dropLast k v
    pure { r with current := cur }

end Reading

/-- A table header: whether it opens a table of an array, its key and its span. -/
def header : Scan (Bool × List Key × Span) := do
  let isArray := (← peekSecond) == some (ascii '[')
  let (ks, a, z) ← withSpan do
    if isArray then
      tag [91, 91]
      let ks ← commit key
      note (.expected (.literal "]]")) (expecting ['.'] (commit (tag [93, 93])))
      pure ks
    else
      byte 91
      let ks ← commit key
      note (.expected (.literal "]")) (expecting ['.'] (commit (byte 93)))
      pure ks
  expecting ['\n', '#'] (commit lineTrailing)
  pure (isArray, ks, ⟨a, z⟩)

/-- A key-value line. -/
def keyval : Scan (List Key × Item) := do
  let ks ← key
  commit do
    expecting ['.', '='] (byte (ascii '='))
    let _ ← ws
    let v ← value depthLimit
    expecting ['\n', '#'] lineTrailing
    pure (ks, v)

/-- Apply a change of the tree to the result of a scan; a refusal fails softly where the scan
started, with the refusal's message. -/
def settle {α : Type} (p : Scan α) (f : α → Except Conflict Reading) : Scan Reading :=
  tryMap p fun a => (f a).mapError Conflict.message

/-- One item of the document: a comment, a header, a blank line or a key-value line. -/
def item (r : Reading) (b : UInt8) : Scan Reading :=
  if b == ascii '#' then commit do comment; lineEnding; pure r
  else if b == ascii '[' then
    commit (label "table header" (settle header fun (isArray, ks, sp) =>
      if isArray then r.openArrayTable ks sp else r.openTable ks sp))
  else if b == 10 || b == 13 then do newline; pure r
  else commit (settle keyval fun (ks, v) => r.addKeyval ks v)

/-- Read items from `pos` until the input ends or an item cannot start. -/
def items (src : ByteArray) (pos : Nat) (r : Reading) : Except (Failure × Nat) (Reading × Nat) :=
  match src[pos]? with
  | none => .ok (r, pos)
  | some b =>
    match (item r b).run src pos with
    | .ok r' q =>
      let q' := q + countWhile src isBlank q (src.size - q)
      if _h : pos < q' ∧ q' ≤ src.size then items src q' r' else .ok (r', q')
    | .soft _ _ => .ok (r, pos)
    | .hard f q => .error (f, q)
termination_by src.size - pos

/-- The problem of a failure at a byte offset: one byte wide, or empty at the end. -/
def problemAt (src : ByteArray) (f : Failure) (pos : Nat) : Problem :=
  { message := f.message, span := some ⟨pos, if pos == src.size then pos else pos + 1⟩ }

/-- Read a document into its root table. -/
def read (source : String) : Except Problem Table :=
  let src := source.toUTF8
  let start := if Scan.standsAt src 0 [0xEF, 0xBB, 0xBF] then 3 else 0
  let start := start + countWhile src isBlank start (src.size - start)
  match items src start {} with
  | .error (f, q) => .error (problemAt src f q)
  | .ok (r, q) =>
    if q < src.size then .error (problemAt src {} q)
    else
      match r.finalize with
      | .ok r => .ok r.root
      | .error c => .error { message := c.message }

end SuiteRunner.Toml
