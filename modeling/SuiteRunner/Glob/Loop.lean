import SuiteRunner.Glob.Segment

/-!
The wildcard matcher as a single loop over byte indices, the way it is written out: `p` reads
the pattern, `n` the name, and the last star is kept with the name index it was last tried at.
While the name is not used up, a pass of the loop body either moves the cursor on or gives up;
once it is, the verdict is whether the rest of the pattern is all stars. Reading the name at the
star's index, and taking the pattern's rest, are checked reads: out of range they stop the loop
with `outOfBounds`. `glob` in `SuiteRunner.Glob.Segment` is the same matcher split at the stars.
-/

namespace SuiteRunner.Glob

/-- The loop's registers: pattern index, name index, and the last star's pattern index with the
name index it was last tried at. -/
structure Cursor where
  p : Nat
  n : Nat
  star : Option (Nat × Nat)
  deriving Repr, DecidableEq

def Cursor.start : Cursor := ⟨0, 0, none⟩

/-- What one pass of the loop body does: go round again at a cursor, leave the loop with a
verdict, or stop at a checked read out of range. -/
inductive Pass where
  | next (c : Cursor)
  | halt (matched : Bool)
  | outOfBounds
  deriving Repr, DecidableEq

/-- The fallback when the pattern byte cannot take the name byte: go back to the last star and
let it take one more character, or give up if there is none. -/
def retreat (name : List UInt8) : Option (Nat × Nat) → Pass
  | some (sp, sn) =>
    match name[sn]? with
    | some b => .next ⟨sp + 1, sn + charWidth b, some (sp, sn + charWidth b)⟩
    | none => .outOfBounds
  | none => .halt false

/-- One pass of the loop body. The guard `n < name.length` is what makes the read at `n` safe. -/
def pass (pat name : List UInt8) (c : Cursor) : Pass :=
  if h : c.n < name.length then
    match pat[c.p]? with
    | some b =>
      if b = starByte then .next ⟨c.p + 1, c.n, some (c.p, c.n)⟩
      else if b = anyByte then .next ⟨c.p + 1, c.n + charWidth name[c.n], c.star⟩
      else if b = name[c.n] then .next ⟨c.p + 1, c.n + 1, c.star⟩
      else retreat name c.star
    | none => retreat name c.star
  else if c.p ≤ pat.length then .halt ((pat.drop c.p).all (· == starByte))
  else .outOfBounds

/-- The loop started at `c` is left, after finitely many passes, with the verdict `r`. -/
inductive Halts (pat name : List UInt8) : Cursor → Bool → Prop
  | halt {c r} : pass pat name c = .halt r → Halts pat name c r
  | next {c d r} : pass pat name c = .next d → Halts pat name d r → Halts pat name c r

end SuiteRunner.Glob
