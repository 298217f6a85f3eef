/-!
Jaro similarity of two strings, counted in characters. Two characters match when they are equal
and no further apart than half the longer length, less one; each character matches at most once,
scanning left to right. With `m` matches and `t` half the number of matched characters out of
order, the similarity is `(m / |a| + m / |b| + (m - t) / m) / 3`, computed in doubles; it is `1`
for two empty strings and `0` when nothing matches.
-/

namespace SuiteRunner.Cli

/-- Mark the first unmarked character of `b` at a position in `[lo, hi)` equal to `c`. -/
def markFirst (c : Char) (lo hi : Nat) : List (Char × Bool) → Nat → Option (List (Char × Bool))
  | [], _ => none
  | (d, used) :: rest, j =>
    if lo ≤ j && j < hi && d == c && !used then some ((d, true) :: rest)
    else (markFirst c lo hi rest (j + 1)).map ((d, used) :: ·)

/-- The characters of `a` that match, marked, and the characters of `b`, marked. -/
def matchMarks (a b : List Char) : List (Char × Bool) × List (Char × Bool) :=
  let range := (max a.length b.length) / 2 - 1
  let step (acc : List (Char × Bool) × List (Char × Bool) × Nat) (c : Char) :=
    let (as, bs, i) := acc
    let lo := i - range
    let hi := min b.length (i + range + 1)
    match markFirst c lo hi bs 0 with
    | some bs' => (as ++ [(c, true)], bs', i + 1)
    | none => (as ++ [(c, false)], bs, i + 1)
  let (as, bs, _) := a.foldl step ([], b.map (·, false), 0)
  (as, bs)

/-- The Jaro similarity of two strings. -/
def jaro (a b : String) : Float :=
  let a := a.toList
  let b := b.toList
  if a.isEmpty && b.isEmpty then 1.0
  else if a.isEmpty || b.isEmpty then 0.0
  else
    let (as, bs) := matchMarks a b
    let ma := (as.filter (·.2)).map (·.1)
    let mb := (bs.filter (·.2)).map (·.1)
    let m := ma.length
    if m == 0 then 0.0
    else
      let t := ((ma.zip mb).filter fun (x, y) => x != y).length / 2
      let mf := m.toFloat
      (mf / a.length.toFloat + mf / b.length.toFloat + (m - t).toFloat / mf) / 3.0

/-- The candidate most similar to `s`, if any is similar beyond `0.7`; of equally similar ones
the last. -/
def mostSimilar (s : String) (candidates : List String) : Option String :=
  candidates.foldl (fun best c =>
    let score := jaro s c
    if score > 0.7 then
      match best with
      | some (_, b) => if b ≤ score then some (c, score) else best
      | none => some (c, score)
    else best) none |>.map (·.1)

end SuiteRunner.Cli
