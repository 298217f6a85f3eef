import Mathlib.Data.String.Basic

/-! Splitting text at a separator. `String.splitOn` walks raw byte positions and keeps a count of
how much of the separator it has matched. For the two cases the library meets, it is the same walk
as splitting at a character: when the separator is one `/`, and when the separator's first
character never occurs in the text, so that nothing ever starts to match. Both then read off the
characters: split at `/`, the pieces are the pieces of the character list, and a text without the
separator's first character is one piece.

Split at `**`, the walk is followed at the byte position after each prefix of the characters: a
star opens a match, a second star closes it and ends a piece, and anything else after one star
abandons the match and is read again. So the text splits into more than one piece exactly when
two stars stand in a row in it. -/

namespace SuiteRunner.Text

open String

/-- The character at a raw position is a character of the text, or the default one when the
position is at or past the end. -/
theorem utf8GetAux_mem_or_default (cs : List Char) (i p : Pos.Raw) :
    Pos.Raw.utf8GetAux cs i p ∈ cs ∨ Pos.Raw.utf8GetAux cs i p = default := by
  induction cs generalizing i with
  | nil => exact .inr rfl
  | cons c cs ih =>
    rw [Pos.Raw.utf8GetAux]
    split
    · exact .inl List.mem_cons_self
    · rcases ih (i + c) with h | h
      · exact .inl (List.mem_cons_of_mem c h)
      · exact .inr h

/-- Splitting at `/` matches one character at a time, as splitting at the character `/` does. The
walk moves its position forward on every call, so the induction is on the bytes left; one matched
byte completes the separator, and the piece ends just before it. -/
theorem splitOnAux_slash (s : String) (b i : Pos.Raw) (r : List String) :
    splitOnAux s "/" b i 0 r = splitAux s (· == '/') b i r := by
  induction h : s.rawEndPos.1 - i.1 using Nat.strong_induction_on generalizing b i r with
  | _ n ih =>
  rw [splitOnAux, splitAux]
  by_cases hend : i.atEnd s
  · simp [hend]
  · have hlt : i.1 < (i.next s).1 := Pos.Raw.lt_next s i
    have hin : i.1 < s.rawEndPos.1 := by
      simpa [Pos.Raw.atEnd] using hend
    have hdec : s.rawEndPos.1 - (i.next s).1 < n := by omega
    have hget : (0 : Pos.Raw).get "/" = '/' := by decide
    have hsep : (0 : Pos.Raw).next "/" = ⟨1⟩ := by decide
    have hsepEnd : (⟨1⟩ : Pos.Raw).atEnd "/" = true := by decide
    simp only [hend, hget, hsep, hsepEnd, if_true, Pos.Raw.unoffsetBy_zero]
    by_cases hc : i.get s = '/'
    · have hback : (i.next s).unoffsetBy ⟨1⟩ = i := by
        have hsize : '/'.utf8Size = 1 := by decide
        ext
        simp [Pos.Raw.next, Pos.Raw.byteIdx_unoffsetBy, hc, hsize]
      simp only [hc, beq_self_eq_true, if_true, hback]
      exact ih _ hdec _ _ _ rfl
    · simp only [beq_iff_eq, hc, if_false]
      exact ih _ hdec _ _ _ rfl

/-- The pieces of a text split at `/` are the pieces of its characters. -/
theorem splitOn_slash (s : String) :
    s.splitOn "/" = (s.toList.splitOn '/').map String.ofList := by
  rw [String.splitOn, if_neg (by decide), splitOnAux_slash, List.splitOn_eq_splitOnP,
    ← String.splitToList_of_valid]
  rfl

/-- When the separator's first character is not in the text, the walk never starts a match. -/
theorem splitOnAux_of_not_mem (s sep : String) (b i : Pos.Raw) (r : List String)
    (hc : (0 : Pos.Raw).get sep ∉ s.toList) (hd : (0 : Pos.Raw).get sep ≠ default) :
    splitOnAux s sep b i 0 r = splitAux s (· == (0 : Pos.Raw).get sep) b i r := by
  induction h : s.rawEndPos.1 - i.1 using Nat.strong_induction_on generalizing b i r with
  | _ n ih =>
  rw [splitOnAux, splitAux]
  by_cases hend : i.atEnd s
  · simp [hend]
  · have hlt : i.1 < (i.next s).1 := Pos.Raw.lt_next s i
    have hin : i.1 < s.rawEndPos.1 := by
      simpa [Pos.Raw.atEnd] using hend
    have hne : (i.get s == (0 : Pos.Raw).get sep) = false := by
      rw [beq_eq_false_iff_ne]
      intro heq
      rcases utf8GetAux_mem_or_default s.toList 0 i with hm | hm
      · exact hc (heq ▸ hm)
      · exact hd (heq ▸ hm)
    simp only [hend, hne, if_false, Bool.false_eq_true, dite_false, Pos.Raw.unoffsetBy_zero]
    exact ih _ (by omega) _ _ _ rfl

/-- A text without the separator's first character is a single piece. -/
theorem splitOn_of_not_mem {s sep : String} (hsep : sep ≠ "")
    (hc : (0 : Pos.Raw).get sep ∉ s.toList) (hd : (0 : Pos.Raw).get sep ≠ default) :
    s.splitOn sep = [s] := by
  have hnot : ∀ x ∈ s.toList, (x == (0 : Pos.Raw).get sep) = false := by
    intro x hx
    rw [beq_eq_false_iff_ne]
    rintro rfl
    exact hc hx
  rw [String.splitOn, if_neg (by simpa using hsep), splitOnAux_of_not_mem s sep 0 0 [] hc hd]
  rw [← String.splitToList, String.splitToList_of_valid, List.splitOnP_eq_singleton hnot,
    List.map_singleton, String.ofList_toList]

/-- No piece of a list split at `c` holds `c`. A character other than `c` joins the first piece, and
the others are the pieces of the rest. -/
theorem not_mem_of_mem_splitOn {c : Char} {xs l : List Char} (h : l ∈ xs.splitOn c) : c ∉ l := by
  induction xs generalizing l with
  | nil =>
    rw [List.splitOn_eq_splitOnP, List.splitOnP_nil, List.mem_singleton] at h
    simp [h]
  | cons x xs ih =>
    rw [List.splitOn_cons_eq_if_modifyHead] at h
    split at h
    · rcases List.mem_cons.1 h with rfl | h
      · simp
      · exact ih h
    · rename_i hx
      obtain ⟨first, rest, hsplit⟩ := List.exists_cons_of_ne_nil (List.splitOn_ne_nil c xs)
      rw [hsplit, List.modifyHead_cons] at h
      rcases List.mem_cons.1 h with rfl | h
      · have hfirst := ih (hsplit ▸ List.mem_cons_self)
        simp only [beq_iff_eq] at hx
        simp [Ne.symm hx, hfirst]
      · exact ih (hsplit ▸ List.mem_cons_of_mem first h)


/-! ### Positions after a prefix -/

theorem get_after {s : String} {pre suf : List Char} {c : Char} (h : s.toList = pre ++ c :: suf) :
    Pos.Raw.get s ⟨utf8Len pre⟩ = c := by
  rw [← @String.ofList_toList s, h, get_of_valid]
  rfl

theorem next_after {s : String} {pre suf : List Char} {c : Char} (h : s.toList = pre ++ c :: suf) :
    Pos.Raw.next s ⟨utf8Len pre⟩ = ⟨utf8Len pre + c.utf8Size⟩ := by
  rw [← @String.ofList_toList s, h, next_of_valid]

theorem atEnd_after {s : String} {pre suf : List Char} (h : s.toList = pre ++ suf) :
    Pos.Raw.atEnd s ⟨utf8Len pre⟩ ↔ suf = [] := by
  rw [← @String.ofList_toList s, h, atEnd_of_valid]

/-! ### Splitting at `**` -/

/-- The walk keeps the pieces it has and ends with one more. A completed match pushes a piece before
going on. -/
theorem length_splitOnAux_ge (s sep : String) (b i j : Pos.Raw) (r : List String) :
    r.length + 1 ≤ (splitOnAux s sep b i j r).length := by
  fun_induction splitOnAux s sep b i j r with
  | case1 b i j r hend r' => simp [r']
  | case2 b i j r hend hget i' j' hsep ih =>
    simp only [List.length_cons] at ih
    omega
  | case3 _ _ _ _ _ _ _ _ _ ih => exact ih
  | case4 _ _ _ _ _ _ ih => exact ih

theorem splitOnAux_at_end {s sep : String} {pre : List Char} (h : s.toList = pre) (b j : Pos.Raw)
    (r : List String) : (splitOnAux s sep b ⟨utf8Len pre⟩ j r).length = r.length + 1 := by
  have hend : Pos.Raw.atEnd s ⟨utf8Len pre⟩ :=
    (atEnd_after (show s.toList = pre ++ [] by simpa using h)).2 rfl
  rw [splitOnAux, if_pos hend]
  simp

theorem splitOnAux_stars_plain {s : String} {pre suf : List Char} {c : Char}
    (h : s.toList = pre ++ c :: suf) (hc : c ≠ '*') (b : Pos.Raw) (r : List String) :
    splitOnAux s "**" b ⟨utf8Len pre⟩ 0 r = splitOnAux s "**" b ⟨utf8Len (pre ++ [c])⟩ 0 r := by
  have hend : ¬ Pos.Raw.atEnd s ⟨utf8Len pre⟩ :=
    fun he => List.cons_ne_nil c suf ((atEnd_after h).1 he)
  have hsep : (0 : Pos.Raw).get "**" = '*' := by decide
  rw [splitOnAux, if_neg hend, get_after h, hsep, if_neg (by simpa using hc)]
  simp [next_after h]

theorem splitOnAux_stars_open {s : String} {pre suf : List Char}
    (h : s.toList = pre ++ '*' :: suf) (b : Pos.Raw) (r : List String) :
    splitOnAux s "**" b ⟨utf8Len pre⟩ 0 r = splitOnAux s "**" b ⟨utf8Len (pre ++ ['*'])⟩ ⟨1⟩ r := by
  have hend : ¬ Pos.Raw.atEnd s ⟨utf8Len pre⟩ :=
    fun he => List.cons_ne_nil _ suf ((atEnd_after h).1 he)
  have hsep : (0 : Pos.Raw).get "**" = '*' := by decide
  have hsep1 : (0 : Pos.Raw).next "**" = ⟨1⟩ := by decide
  have hmid : ¬ Pos.Raw.atEnd "**" ⟨1⟩ := by decide
  rw [splitOnAux, if_neg hend, get_after h, hsep, if_pos (by simp), next_after h, hsep1,
    if_neg hmid]
  simp

/-- At two stars in a row the piece before them is pushed, and the walk goes on from after them. -/
theorem splitOnAux_stars_close {s : String} {pre suf : List Char}
    (h : s.toList = pre ++ '*' :: '*' :: suf) (b : Pos.Raw) (r : List String) :
    r.length + 2 ≤ (splitOnAux s "**" b ⟨utf8Len (pre ++ ['*'])⟩ ⟨1⟩ r).length := by
  have h' : s.toList = (pre ++ ['*']) ++ '*' :: suf := by simp [h]
  have hend : ¬ Pos.Raw.atEnd s ⟨utf8Len (pre ++ ['*'])⟩ :=
    fun he => List.cons_ne_nil _ suf ((atEnd_after h').1 he)
  have hsep : (⟨1⟩ : Pos.Raw).get "**" = '*' := by decide
  have hsep2 : (⟨1⟩ : Pos.Raw).next "**" = ⟨2⟩ := by decide
  have hlast : Pos.Raw.atEnd "**" ⟨2⟩ := by decide
  rw [splitOnAux, if_neg hend, get_after h', hsep, if_pos (by simp), hsep2, if_pos hlast]
  have hmore := length_splitOnAux_ge s "**" (Pos.Raw.next s ⟨utf8Len (pre ++ ['*'])⟩)
    (Pos.Raw.next s ⟨utf8Len (pre ++ ['*'])⟩) 0
    (Pos.Raw.extract s b ((Pos.Raw.next s ⟨utf8Len (pre ++ ['*'])⟩).unoffsetBy ⟨2⟩) :: r)
  simp only [List.length_cons] at hmore
  omega

/-- At one star followed by another character the walk steps back over the star and then forward
over it again. -/
theorem splitOnAux_stars_abandon {s : String} {pre suf : List Char} {c : Char}
    (h : s.toList = pre ++ '*' :: c :: suf) (hc : c ≠ '*') (b : Pos.Raw) (r : List String) :
    splitOnAux s "**" b ⟨utf8Len (pre ++ ['*'])⟩ ⟨1⟩ r =
      splitOnAux s "**" b ⟨utf8Len (pre ++ ['*'])⟩ 0 r := by
  have h' : s.toList = (pre ++ ['*']) ++ c :: suf := by simp [h]
  have hend : ¬ Pos.Raw.atEnd s ⟨utf8Len (pre ++ ['*'])⟩ :=
    fun he => List.cons_ne_nil _ suf ((atEnd_after h').1 he)
  have hsep : (⟨1⟩ : Pos.Raw).get "**" = '*' := by decide
  have hback : (⟨utf8Len (pre ++ ['*'])⟩ : Pos.Raw).unoffsetBy ⟨1⟩ = ⟨utf8Len pre⟩ := by
    have hsize : '*'.utf8Size = 1 := by decide
    ext
    simp [Pos.Raw.byteIdx_unoffsetBy, hsize]
  rw [splitOnAux, if_neg hend, get_after h', hsep, if_neg (by simpa using hc), hback, next_after h]
  simp

theorem stars_infix_cons_iff {c : Char} {l : List Char} :
    ['*', '*'] <:+: c :: l ↔ (c = '*' ∧ l.head? = some '*') ∨ ['*', '*'] <:+: l := by
  rw [List.infix_cons_iff]
  cases l with
  | nil => simp
  | cons d l =>
    simp only [List.cons_prefix_cons, List.head?_cons, Option.some.injEq, List.nil_prefix,
      and_true]
    rw [@eq_comm _ '*' c, @eq_comm _ '*' d]

/-- From the position after `pre`, the walk at `**` ends a piece before the last exactly when two
stars stand in a row in what is left; one star into a match, exactly when that star is followed by
another somewhere. An abandoned star is read again as an ordinary character, and so is the character
after it. -/
theorem splitOnAux_stars_length (s : String) (suf : List Char) :
    (∀ pre b r, s.toList = pre ++ suf →
      (r.length + 1 < (splitOnAux s "**" b ⟨utf8Len pre⟩ 0 r).length ↔ ['*', '*'] <:+: suf)) ∧
    (∀ pre b r, s.toList = pre ++ '*' :: suf →
      (r.length + 1 < (splitOnAux s "**" b ⟨utf8Len (pre ++ ['*'])⟩ ⟨1⟩ r).length ↔
        ['*', '*'] <:+: '*' :: suf)) := by
  induction suf with
  | nil =>
    constructor
    · intro pre b r h
      rw [splitOnAux_at_end (by simpa using h)]
      simp
    · intro pre b r h
      rw [splitOnAux_at_end (by simpa using h)]
      simp [stars_infix_cons_iff]
  | cons c suf ih =>
    constructor
    · intro pre b r h
      by_cases hc : c = '*'
      · subst hc
        rw [splitOnAux_stars_open h]
        exact ih.2 pre b r h
      · rw [splitOnAux_stars_plain h hc, ih.1 (pre ++ [c]) b r (by simp [h])]
        simp [stars_infix_cons_iff, hc]
    · intro pre b r h
      by_cases hc : c = '*'
      · subst hc
        have hclose := splitOnAux_stars_close h b r
        simp only [stars_infix_cons_iff, List.head?_cons, and_self, true_or, iff_true]
        omega
      · rw [splitOnAux_stars_abandon h hc,
          splitOnAux_stars_plain (show s.toList = (pre ++ ['*']) ++ c :: suf by simp [h]) hc,
          ih.1 (pre ++ ['*'] ++ [c]) b r (by simp [h])]
        simp [stars_infix_cons_iff, hc]

/-- A text splits at `**` into more than one piece exactly when two stars stand in a row in it. -/
theorem one_lt_length_splitOn_stars (s : String) :
    1 < (s.splitOn "**").length ↔ ['*', '*'] <:+: s.toList := by
  rw [String.splitOn, if_neg (by decide)]
  simpa using (splitOnAux_stars_length s s.toList).1 [] 0 [] rfl

end SuiteRunner.Text
