/-!
Segments of a discovery pattern and the wildcard matcher on names. A name is compared as its
UTF-8 bytes: `*` matches any run of characters and `?` exactly one character, whose width is read
off its lead byte. The matcher remembers only the most recent star; when the text after it fails,
the star swallows one more character and the text is tried again.

The matcher is split into `scan`, which follows the pattern up to its next star, and `glob`,
which retries from the last star. Both are structurally or well-foundedly recursive, so every
match ends and never reads outside the name.
-/

namespace SuiteRunner.Glob

/-- Width in bytes of the UTF-8 character that starts with `b`, read off the lead byte alone. -/
def charWidth (b : UInt8) : Nat :=
  if b ≥ 0xF0 then 4 else if b ≥ 0xE0 then 3 else if b ≥ 0xC0 then 2 else 1

theorem one_le_charWidth (b : UInt8) : 1 ≤ charWidth b := by
  unfold charWidth
  split <;> (try split) <;> (try split) <;> omega

/-- The byte of `*`. -/
def starByte : UInt8 := 42

/-- The byte of `?`. -/
def anyByte : UInt8 := 63

/-- Where following a pattern up to its next star ends. -/
inductive Scan where
  /-- The name ran out; the match holds iff the rest of the pattern is stars. -/
  | done (matched : Bool)
  /-- A star was reached: the pattern after it and the name still to match. -/
  | star (pattern name : List UInt8)
  /-- A byte differed, or the pattern ran out before the name. -/
  | mismatch
  deriving Repr, DecidableEq

/-- Follow the pattern over the name until the name runs out, a star is reached, or a byte
differs. A `?` skips one whole character of the name. -/
def scan : List UInt8 → List UInt8 → Scan
  | p, [] => .done (p.all (· == starByte))
  | [], _ :: _ => .mismatch
  | c :: p, b :: n =>
    if c = starByte then .star p (b :: n)
    else if c = anyByte then scan p ((b :: n).drop (charWidth b))
    else if c = b then scan p n
    else .mismatch

theorem scan_star_length {p n p' n' : List UInt8} (h : scan p n = .star p' n') :
    p'.length < p.length := by
  induction p generalizing n with
  | nil => cases n <;> simp [scan] at h
  | cons c p ih =>
    cases n with
    | nil => simp [scan] at h
    | cons b n =>
      simp only [scan] at h
      split at h
      · cases h; simp
      · split at h
        · have := ih h; simp; omega
        · split at h
          · have := ih h; simp; omega
          · cases h

theorem scan_nil (p : List UInt8) : scan p [] = .done (p.all (· == starByte)) := by
  cases p <;> rfl

/-- Match the pattern `p` against the name `n` from a star that stands just before `p`: on a
mismatch the star takes one more character of the name and the rest is tried again; a later star
replaces this one. -/
def fromStar (p n : List UInt8) : Bool :=
  match h : scan p n with
  | .done r => r
  | .star p' n' =>
    have := scan_star_length h
    fromStar p' n'
  | .mismatch =>
    match n with
    | [] => p.all (· == starByte)
    | b :: rest =>
      have : rest.length + 1 - charWidth b < rest.length + 1 := by
        have := one_le_charWidth b
        omega
      fromStar p ((b :: rest).drop (charWidth b))
termination_by (p.length, n.length)

/-- The wildcard matcher on bytes: `*` is any run of characters, `?` one character. -/
def glob (p n : List UInt8) : Bool :=
  match scan p n with
  | .done r => r
  | .star p' n' => fromStar p' n'
  | .mismatch => false

/-- One component of a pattern: a name to meet exactly, or a text with `*` or `?`. -/
inductive Segment where
  | literal (text : String)
  | wildcard (text : String)
  deriving Repr, DecidableEq, Inhabited

namespace Segment

/-- A component is a wildcard exactly when it holds `*` or `?`. -/
def ofText (s : String) : Segment :=
  if s.contains '*' || s.contains '?' then .wildcard s else .literal s

/-- The text of the component as written. -/
def text : Segment → String
  | .literal t => t
  | .wildcard t => t

/-- Whether a file or directory name matches this component. Matching is case-sensitive, and a
wildcard never matches a name starting with `.` unless the wildcard starts with one too. -/
def accepts : Segment → String → Bool
  | .literal t, name => t == name
  | .wildcard t, name =>
    if name.startsWith "." && !t.startsWith "." then false
    else glob t.toUTF8.toList name.toUTF8.toList

end Segment

end SuiteRunner.Glob
