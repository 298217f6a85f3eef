import SuiteRunner.Shell.Syntax
/-!
Shell patterns, as `case` uses them.

A pattern is compiled from its characters, each marked literal when it came from quoted text:
an unquoted `*` matches any run of bytes, `?` one byte, and `[...]` one byte from a set of bytes,
ranges and classes (`!` or `^` first negates it; a `]` first is a member; without a closing `]`
the `[` is an ordinary byte). Matching works on bytes, as the shell does.
-/

namespace SuiteRunner.Shell

/-- A member of a bracket expression. -/
inductive SetItem where
  | range (lo hi : UInt8)
  | named (cls : String)
  deriving Repr, DecidableEq

/-- A compiled pattern element. -/
inductive Glob where
  | byte (b : UInt8)
  | one
  | many
  | set (negated : Bool) (items : List SetItem)
  deriving Repr, DecidableEq

/-- Whether a byte belongs to a named character class. -/
def inClass (cls : String) (b : UInt8) : Bool :=
  let c := Char.ofNat b.toNat
  match cls with
  | "alpha" => b < 128 && c.isAlpha
  | "digit" => c.isDigit
  | "alnum" => b < 128 && c.isAlphanum
  | "upper" => c.isUpper
  | "lower" => c.isLower
  | "space" => b == 32 || (9 ≤ b && b ≤ 13)
  | "blank" => b == 32 || b == 9
  | "punct" => (33 ≤ b && b ≤ 126) && !c.isAlphanum
  | "xdigit" => c.isDigit || (65 ≤ b && b ≤ 70) || (97 ≤ b && b ≤ 102)
  | "cntrl" => b < 32 || b == 127
  | "print" => 32 ≤ b && b ≤ 126
  | "graph" => 33 ≤ b && b ≤ 126
  | _ => false

/-- Whether a set item holds a byte. -/
def SetItem.holds (b : UInt8) : SetItem → Bool
  | .range lo hi => lo ≤ b && b ≤ hi
  | .named cls => inClass cls b

/-- A pattern character: a byte and whether it is literal. -/
abbrev PatChar := UInt8 × Bool

/-- The items of a bracket expression up to its closing `]`, and the characters after it;
`none` when there is no closing bracket. The first character may be `]` itself. -/
def bracketItems : Nat → List PatChar → List SetItem → Bool → Option (List SetItem × List PatChar)
  | 0, _, _, _ => none
  | _ + 1, [], _, _ => none
  | fuel + 1, (b, lit) :: rest, acc, first =>
    if b == 93 && !lit && !first then some (acc.reverse, rest)
    else if b == 91 && !lit && rest.head? == some (58, false) then
      -- a class such as [:alpha:]
      let body := rest.drop 1
      let name := body.takeWhile (fun (c, _) => c != 58)
      match body.drop name.length with
      | (58, _) :: (93, _) :: after =>
        let cls := String.ofList (name.map fun (c, _) => Char.ofNat c.toNat)
        bracketItems fuel after (.named cls :: acc) false
      | _ => bracketItems fuel rest (.range b b :: acc) false
    else
      match rest with
      | (45, false) :: (hi, hlit) :: after =>
        if hi == 93 && !hlit then bracketItems fuel ((45, false) :: (hi, hlit) :: after) (.range b b :: acc) false
        else bracketItems fuel after (.range b hi :: acc) false
      | _ => bracketItems fuel rest (.range b b :: acc) false

/-- Compiling pattern characters. -/
def compile : Nat → List PatChar → List Glob
  | 0, _ => []
  | _ + 1, [] => []
  | fuel + 1, (b, lit) :: rest =>
    if lit then .byte b :: compile fuel rest
    else if b == 42 then .many :: compile fuel rest
    else if b == 63 then .one :: compile fuel rest
    else if b == 91 then
      let (negated, body) := match rest with
        | (33, false) :: more => (true, more)
        | (94, false) :: more => (true, more)
        | _ => (false, rest)
      match bracketItems (body.length + 1) body [] true with
      | some (items, after) => .set negated items :: compile fuel after
      | none => .byte b :: compile fuel rest
    else if b == 92 then
      match rest with
      | (c, _) :: more => .byte c :: compile fuel more
      | [] => [.byte b]
    else .byte b :: compile fuel rest

/-- Whether compiled pattern elements match all of the bytes. -/
def globMatch : List Glob → List UInt8 → Bool
  | [], s => s.isEmpty
  | .many :: rest, s => (List.range (s.length + 1)).any fun i => globMatch rest (s.drop i)
  | .one :: rest, s =>
    match s with
    | _ :: more => globMatch rest more
    | [] => false
  | .byte b :: rest, s =>
    match s with
    | c :: more => c == b && globMatch rest more
    | [] => false
  | .set negated items :: rest, s =>
    match s with
    | c :: more => (items.any (·.holds c) != negated) && globMatch rest more
    | [] => false

/-- Whether a pattern, given as marked characters, matches a text. -/
def patternMatches (pat : List PatChar) (subject : String) : Bool :=
  globMatch (compile (pat.length + 1) pat) subject.toUTF8.toList

end SuiteRunner.Shell
