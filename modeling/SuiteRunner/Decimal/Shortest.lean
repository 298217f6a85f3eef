/-!
Shortest decimal text of a double. A finite double is `m · 2^q`; the reals that round to it form
an interval around it whose ends belong to it exactly when `m` is even. For `k = 1, 2, …` digits,
the two multiples of `10^(E + 1 - k)` next to the value (with `10^E ≤ value < 10^(E+1)`) are
tested in exact natural-number arithmetic: the first `k` with one inside wins, of two inside the
nearer, and an exact tie goes to the even last digit. Seventeen digits always suffice.

The text is written positionally, never with an exponent; `Style` says whether a value without a
fraction still shows `.0`.
-/

namespace SuiteRunner.Decimal

/-- `x · 2^a · 10^b` as a fraction of naturals. -/
def fraction (x : Nat) (a b : Int) : Nat × Nat :=
  (x * Nat.pow 2 a.toNat * Nat.pow 10 b.toNat, Nat.pow 2 (-a).toNat * Nat.pow 10 (-b).toNat)

/-- Strict order of two fractions. -/
def fracLt (u v : Nat × Nat) : Bool := u.1 * v.2 < v.1 * u.2

/-- Weak order of two fractions. -/
def fracLe (u v : Nat × Nat) : Bool := u.1 * v.2 ≤ v.1 * u.2

/-- A finite positive double as a numerator at scale `2^scale`, with the numerators of the ends of
its rounding interval at the same scale. -/
structure Binary where
  low : Nat
  value : Nat
  high : Nat
  scale : Int
  /-- The ends of the interval round to this double too. -/
  inclusive : Bool
  deriving Repr

/-- Decode the bits of a finite, non-zero double. The interval is half a unit wide on each side,
except that a mantissa of exactly `2^52` has its lower neighbour half as far away. -/
def Binary.ofBits (bits : UInt64) : Binary :=
  let e := ((bits >>> 52) &&& 0x7FF).toNat
  let f := (bits &&& 0xFFFFFFFFFFFFF).toNat
  let (m, q) : Nat × Int := if e = 0 then (f, -1074) else (f + Nat.pow 2 52, (e : Int) - 1075)
  if e ≠ 0 ∧ f = 0 then
    ⟨4 * m - 1, 4 * m, 4 * m + 2, q - 2, m % 2 = 0⟩
  else
    ⟨2 * m - 1, 2 * m, 2 * m + 1, q - 1, m % 2 = 0⟩

/-- Move an estimate of the decimal exponent of `x · 2^a` to the `E` with
`10^E ≤ x · 2^a < 10^(E+1)`, a few steps at most. -/
def settleExponent (x : Nat) (a : Int) : Nat → Int → Int
  | 0, e => e
  | fuel + 1, e =>
    let v := fraction x a 0
    if fracLe (fraction 1 0 (e + 1)) v then settleExponent x a fuel (e + 1)
    else if fracLt v (fraction 1 0 e) then settleExponent x a fuel (e - 1)
    else e

/-- The decimal exponent of `x · 2^a` for a positive `x`. -/
def decimalExponent (x : Nat) (a : Int) : Int :=
  let l : Int := (Nat.log2 x : Int) + a
  settleExponent x a 8 ((l * 78913) / 262144)

/-- Remove trailing zeros of a digit string `d · 10^s`, keeping its value. -/
def stripZeros (d : Nat) (s : Int) : Nat × Int :=
  if h : d ≠ 0 ∧ d % 10 = 0 then
    have : d / 10 < d := Nat.div_lt_self (Nat.pos_of_ne_zero h.1) (by decide)
    stripZeros (d / 10) (s + 1)
  else (d, s)
termination_by d

namespace Binary

/-- Whether `c · 10^s` lies in the rounding interval. -/
def admits (b : Binary) (c : Nat) (s : Int) : Bool :=
  let u := fraction c 0 s
  let lo := fraction b.low b.scale 0
  let hi := fraction b.high b.scale 0
  if b.inclusive then fracLe lo u && fracLe u hi else fracLt lo u && fracLt u hi

/-- The candidate of `k` significant digits, if one of the two grid points next to the value is
inside the interval: the nearer if both are, the even one at a tie. -/
def candidate (b : Binary) (e : Int) (k : Nat) : Option (Nat × Int) :=
  let s := e + 1 - k
  let q := fraction b.value b.scale (-s)
  let below := q.1 / q.2
  let above := below + 1
  let inBelow := b.admits below s
  let inAbove := b.admits above s
  if inBelow && inAbove then
    -- compare twice the value with the midpoint of the two grid points
    let twice := fraction (2 * b.value) b.scale 0
    let mid := fraction (2 * below + 1) 0 s
    if fracLt twice mid then some (below, s)
    else if fracLt mid twice then some (above, s)
    else if below % 2 = 0 then some (below, s) else some (above, s)
  else if inBelow then some (below, s)
  else if inAbove then some (above, s)
  else none

/-- Try 1, 2, … significant digits; the last try takes the nearer grid point. -/
def search (b : Binary) (e : Int) : Nat → Nat → Nat × Int
  | 0, k =>
    let s := e + 1 - k
    let q := fraction b.value b.scale (-s)
    (q.1 / q.2, s)
  | fuel + 1, k =>
    match b.candidate e k with
    | some r => r
    | none => search b e fuel (k + 1)

/-- The shortest digits `d` and exponent `s` with `d · 10^s` inside the interval, `d` without
trailing zeros. -/
def shortest (b : Binary) : Nat × Int :=
  let (d, s) := b.search (decimalExponent b.value b.scale) 17 1
  stripZeros d s

end Binary

/-- Write `d · 10^s` positionally: leading `0.` below one, trailing zeros above the digits. -/
def positional (d : Nat) (s : Int) : String :=
  let ds := Nat.toDigits 10 d
  let n : Int := ds.length
  let pos := n + s
  if pos ≤ 0 then "0." ++ String.ofList (List.replicate (-pos).toNat '0' ++ ds)
  else if pos ≥ n then String.ofList (ds ++ List.replicate s.toNat '0')
  else
    String.ofList (ds.take pos.toNat) ++ "." ++ String.ofList (ds.drop pos.toNat)

/-- How a double is written around its digits. -/
structure Style where
  /-- A value without a fractional part still shows `.0`. -/
  pointAlways : Bool
  infinity : String
  nan : String

/-- Plain display: no `.0`, `inf` and `NaN`. -/
def Style.plain : Style := ⟨false, "inf", "NaN"⟩

/-- Display that always shows a decimal point on finite values. -/
def Style.pointed : Style := ⟨true, "inf", "NaN"⟩

/-- The shortest text of a double that reads back to it, in the given style. -/
def render (style : Style) (x : Float) : String :=
  let bits := x.toBits
  let sign := if bits >>> 63 = 1 then "-" else ""
  let e := ((bits >>> 52) &&& 0x7FF).toNat
  let f := (bits &&& 0xFFFFFFFFFFFFF).toNat
  if e = 0x7FF then
    if f ≠ 0 then style.nan else sign ++ style.infinity
  else
    let body :=
      if e = 0 ∧ f = 0 then "0"
      else
        let (d, s) := (Binary.ofBits bits).shortest
        positional d s
    let body := if style.pointAlways && !body.contains '.' then body ++ ".0" else body
    sign ++ body

end SuiteRunner.Decimal
