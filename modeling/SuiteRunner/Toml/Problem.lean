import SuiteRunner.Toml.Document

/-!
Reading problems and their report. A problem has a message and, when it can point at the source,
a byte span; the report then names the line and column (counted in characters), shows the line,
and underlines the span, at least one mark wide and no further than the end of the line. A
problem without a span is its message alone, with the keys that lead to it.
-/

namespace SuiteRunner.Toml

/-- A problem found while reading or decoding a document. -/
structure Problem where
  message : String
  span : Option Span := none
  /-- The keys leading to the problem, outermost first. -/
  keys : List String := []
  deriving Repr, DecidableEq, Inhabited

/-- The number of characters in a byte string, if it is UTF-8. -/
def charCount? (bs : List UInt8) : Option Nat :=
  (String.fromUTF8? ⟨bs.toArray⟩).map (·.length)

/-- The zero-based line and column of a byte offset. The column counts characters up to and
including the byte at the offset, less one, or bytes when that stretch is not whole characters;
an offset past the end counts on from the last byte. -/
def position (src : List UInt8) (index : Nat) : Nat × Nat :=
  if src.isEmpty then (0, index)
  else
    let safe := min index (src.length - 1)
    let past := index - safe
    let before := src.take safe
    let lineStart := match (before.reverse.findIdx? (· == 10)) with
      | some k => safe - k
      | none => 0
    let line := (src.take lineStart).count 10
    let stretch := (src.drop lineStart).take (safe - lineStart + 1)
    let column := match charCount? stretch with
      | some n => n - 1
      | none => safe - lineStart
    (line, column + past)

/-- The report of a problem against the source it was found in. -/
def Problem.render (p : Problem) (source : String) : String :=
  match p.span with
  | none =>
    let tail := if p.keys.isEmpty then "" else s!"in `{dotted p.keys}`\n"
    p.message ++ "\n" ++ tail
  | some sp =>
    let bytes := source.toUTF8.toList
    let (line, column) := position bytes sp.start
    let lineNum := line + 1
    let gutter := (toString lineNum).length
    let content := ((source.splitOn "\n")[line]?).getD ""
    let width := min (sp.stop - sp.start) (content.utf8ByteSize - column)
    let pad (n : Nat) : String := String.ofList (List.replicate n ' ')
    s!"TOML parse error at line {lineNum}, column {column + 1}\n" ++
      pad (gutter + 1) ++ "|\n" ++
      s!"{lineNum} | {content}\n" ++
      pad (gutter + 1) ++ "|" ++ pad (column + 1) ++ "^" ++
      String.ofList (List.replicate (width - 1) '^') ++ "\n" ++
      p.message ++ "\n"

end SuiteRunner.Toml
