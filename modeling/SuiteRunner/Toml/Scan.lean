/-!
Scanning bytes with committed choice. A scan either succeeds with a value and a new position, or
fails softly, so that an alternative may be tried from where it started, or fails hard, once the
input is known to be wrong. A failure carries the notes gathered on its way out (what was being
read, what was expected) and an optional cause, and it stops at the position where the scan that
failed left off; that position is what an error report points at.

Loops stop when an iteration fails softly or makes no progress, so every scan ends.
-/

namespace SuiteRunner.Toml

/-- Something the reader expected to find. -/
inductive Expected where
  | char (c : Char)
  | literal (s : String)
  | description (s : String)
  deriving Repr, DecidableEq

/-- A note added to a failure on its way out. -/
inductive Note where
  /-- What was being read. -/
  | label (what : String)
  | expected (e : Expected)
  deriving Repr, DecidableEq

/-- Why a scan failed: its notes, innermost first, and an optional cause. -/
structure Failure where
  notes : List Note := []
  cause : Option String := none
  deriving Repr, DecidableEq, Inhabited

/-- The result of a scan. -/
inductive Step (α : Type) where
  | ok (a : α) (pos : Nat)
  /-- A failure that lets an alternative be tried. -/
  | soft (f : Failure) (pos : Nat)
  /-- A failure that ends the reading. -/
  | hard (f : Failure) (pos : Nat)

/-- A scan over a fixed byte string from a position. -/
structure Scan (α : Type) where
  run : ByteArray → Nat → Step α

namespace Scan

instance : Monad Scan where
  pure a := ⟨fun _ pos => .ok a pos⟩
  bind p f := ⟨fun src pos =>
    match p.run src pos with
    | .ok a pos' => (f a).run src pos'
    | .soft e q => .soft e q
    | .hard e q => .hard e q⟩

/-- The current position. -/
def position : Scan Nat := ⟨fun _ pos => .ok pos pos⟩

/-- The byte at the current position, without moving. -/
def peek : Scan (Option UInt8) := ⟨fun src pos => .ok src[pos]? pos⟩

/-- The byte after the current one, without moving. -/
def peekSecond : Scan (Option UInt8) := ⟨fun src pos => .ok src[pos + 1]? pos⟩

/-- Whether the input is exhausted. -/
def atEnd : Scan Bool := ⟨fun src pos => .ok (src.size ≤ pos) pos⟩

/-- The bytes between two positions. -/
def bytes (a b : Nat) : Scan (List UInt8) :=
  ⟨fun src pos => .ok ((src.extract a b).toList) pos⟩

/-- Fail softly here with no notes. -/
def fail {α : Type} : Scan α := ⟨fun _ pos => .soft {} pos⟩

/-- Fail softly here with a cause. -/
def refuse {α : Type} (cause : String) : Scan α := ⟨fun _ pos => .soft { cause := some cause } pos⟩

/-- Fail hard here with a cause. -/
def abort {α : Type} (cause : String) : Scan α := ⟨fun _ pos => .hard { cause := some cause } pos⟩

/-- One byte that satisfies `p`. -/
def sat (p : UInt8 → Bool) : Scan UInt8 := ⟨fun src pos =>
  match src[pos]? with
  | some b => if p b then .ok b (pos + 1) else .soft {} pos
  | none => .soft {} pos⟩

/-- Any one byte. -/
def anyByte : Scan UInt8 := sat fun _ => true

/-- The given byte. -/
def byte (b : UInt8) : Scan Unit := do let _ ← sat (· == b); pure ()

/-- Whether `bs` stands in `src` at `pos`. -/
def standsAt (src : ByteArray) (pos : Nat) : List UInt8 → Bool
  | [] => true
  | b :: bs => src[pos]? == some b && standsAt src (pos + 1) bs

/-- The given bytes, all or none. -/
def tag (bs : List UInt8) : Scan Unit := ⟨fun src pos =>
  if standsAt src pos bs then .ok () (pos + bs.length) else .soft {} pos⟩

/-- The given text, all or none. -/
def text (s : String) : Scan Unit := tag s.toUTF8.toList

/-- How many bytes from `pos` satisfy `p`, counting at most `limit`. -/
def countWhile (src : ByteArray) (p : UInt8 → Bool) (pos : Nat) : Nat → Nat
  | 0 => 0
  | limit + 1 =>
    match src[pos]? with
    | some b => if p b then countWhile src p (pos + 1) limit + 1 else 0
    | none => 0

/-- Between `lo` and `hi` bytes that satisfy `p`, as many as there are; the span read. -/
def takeWhile (lo hi : Nat) (p : UInt8 → Bool) : Scan (Nat × Nat) := ⟨fun src pos =>
  let n := countWhile src p pos (min hi (src.size - pos))
  if n < lo then .soft {} pos else .ok (pos, pos + n) (pos + n)⟩

/-- Any number of bytes that satisfy `p`. -/
def skipWhile (p : UInt8 → Bool) : Scan (Nat × Nat) := takeWhile 0 UInt64.size p

/-- Try `p`; when it fails softly, try `q` from the same place. A failure of both is `q`'s. -/
def orElse {α : Type} (p q : Scan α) : Scan α := ⟨fun src pos =>
  match p.run src pos with
  | .soft _ _ => q.run src pos
  | r => r⟩

/-- The first alternative that does not fail softly. -/
def first {α : Type} : List (Scan α) → Scan α
  | [] => fail
  | [p] => p
  | p :: ps => orElse p (first ps)

/-- `p`, or nothing when it fails softly. -/
def opt {α : Type} (p : Scan α) : Scan (Option α) := ⟨fun src pos =>
  match p.run src pos with
  | .ok a q => .ok (some a) q
  | .soft _ _ => .ok none pos
  | .hard e q => .hard e q⟩

/-- Commit: a soft failure of `p` becomes hard. -/
def commit {α : Type} (p : Scan α) : Scan α := ⟨fun src pos =>
  match p.run src pos with
  | .soft e q => .hard e q
  | r => r⟩

/-- Add a note to any failure of `p`. -/
def note {α : Type} (n : Note) (p : Scan α) : Scan α := ⟨fun src pos =>
  match p.run src pos with
  | .soft e q => .soft { e with notes := e.notes ++ [n] } q
  | .hard e q => .hard { e with notes := e.notes ++ [n] } q
  | r => r⟩

/-- Note what is being read. -/
def label {α : Type} (what : String) (p : Scan α) : Scan α := note (.label what) p

/-- Note expected characters, in order. -/
def expecting {α : Type} (cs : List Char) (p : Scan α) : Scan α :=
  cs.foldl (fun p c => note (.expected (.char c)) p) p

/-- Convert the value of `p`; a refused value fails softly where `p` started, with the cause. -/
def tryMap {α β : Type} (p : Scan α) (f : α → Except String β) : Scan β := ⟨fun src pos =>
  match p.run src pos with
  | .ok a q =>
    match f a with
    | .ok b => .ok b q
    | .error c => .soft { cause := some c } pos
  | .soft e q => .soft e q
  | .hard e q => .hard e q⟩

/-- `p` whose value must satisfy `ok`; otherwise a soft failure where `p` started. -/
def verify {α : Type} (p : Scan α) (ok : α → Bool) : Scan α := ⟨fun src pos =>
  match p.run src pos with
  | .ok a q => if ok a then .ok a q else .soft {} pos
  | r => r⟩

/-- Run `p`, and on any failure go back to where it started. -/
def rewind {α : Type} (p : Scan α) : Scan α := ⟨fun src pos =>
  match p.run src pos with
  | .soft e _ => .soft e pos
  | .hard e _ => .hard e pos
  | r => r⟩

/-- The end of the input. -/
def eof : Scan Unit := ⟨fun src pos => if src.size ≤ pos then .ok () pos else .soft {} pos⟩

/-- The value of `p` with the span it read. -/
def withSpan {α : Type} (p : Scan α) : Scan (α × Nat × Nat) := do
  let a ← position
  let v ← p
  let b ← position
  pure (v, a, b)

/-- The span `p` read. -/
def spanOf {α : Type} (p : Scan α) : Scan (Nat × Nat) := do
  let (_, a, b) ← withSpan p
  pure (a, b)

/-- Repeat `p` from `pos` until it fails softly or stops advancing. -/
def repeatFrom {α : Type} (p : Scan α) (src : ByteArray) (pos : Nat) (acc : List α) :
    Step (List α) :=
  match p.run src pos with
  | .ok a q =>
    if _h : pos < q ∧ q ≤ src.size then repeatFrom p src q (a :: acc)
    else .ok (a :: acc).reverse q
  | .soft _ _ => .ok acc.reverse pos
  | .hard e q => .hard e q
termination_by src.size - pos

/-- `p` as many times as it succeeds, none at all included. -/
def many {α : Type} (p : Scan α) : Scan (List α) := ⟨fun src pos => repeatFrom p src pos []⟩

/-- Items separated by `sep`: after a separator an item that fails softly ends the list before
the separator. With `atLeastOne`, the first item must be there. -/
def sepBy {α β : Type} (p : Scan α) (sep : Scan β) (atLeastOne : Bool) : Scan (List α) := do
  let head ← if atLeastOne then some <$> p else opt p
  match head with
  | none => pure []
  | some a => do
    let rest ← many (do let _ ← sep; p)
    pure (a :: rest)

end Scan

end SuiteRunner.Toml
