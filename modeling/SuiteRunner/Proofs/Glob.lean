import Mathlib.Data.List.Forall2
import SuiteRunner.Proofs.Utf8

/-! The wildcard matcher against the language of its pattern. A name matches a pattern when it
splits into one piece per pattern character: `*` takes any run of characters, `?` exactly one, and
any other character only itself. The matcher works on UTF-8 bytes and keeps only its last star;
on encoded text it decides exactly this language. The proof runs over characters: a scan step on
encoded text is a step on characters (a `?` skips one whole character, a literal character is
compared as a whole encoding), a scan that runs out of name rules out every shorter suffix, and
retrying from the last star loses nothing, because a match from any suffix of the name reaches
the text after that star from some suffix of what is left. -/

namespace SuiteRunner.Glob

open Utf8

/-- What one pattern character matches: `*` any run of characters, `?` exactly one character, and
any other character only itself. -/
def Piece (c : Char) (w : List Char) : Prop :=
  if c = '*' then True else if c = '?' then w.length = 1 else w = [c]

/-- A name is in the language of a pattern when it splits into one piece for each pattern
character, in order. -/
def GlobMatches (p n : List Char) : Prop :=
  ∃ ws, List.Forall₂ Piece p ws ∧ ws.flatten = n

theorem globMatches_nil_left {n : List Char} : GlobMatches [] n ↔ n = [] := by
  simp [GlobMatches, eq_comm]

theorem globMatches_star {p n : List Char} :
    GlobMatches ('*' :: p) n ↔ ∃ k, GlobMatches p (n.drop k) := by
  constructor
  · rintro ⟨_, h, rfl⟩
    obtain ⟨w, ws, -, hws, rfl⟩ := List.forall₂_cons_left_iff.1 h
    exact ⟨w.length, ws, hws, by simp⟩
  · rintro ⟨k, ws, hws, hflat⟩
    refine ⟨n.take k :: ws, List.Forall₂.cons (by simp [Piece]) hws, ?_⟩
    rw [List.flatten_cons, hflat, List.take_append_drop]

/-- A pattern character other than `*` takes exactly one character: any for `?`, else itself. -/
theorem piece_one {c : Char} {w : List Char} (hc : c ≠ '*') :
    Piece c w ↔ ∃ d, w = [d] ∧ (c = '?' ∨ c = d) := by
  unfold Piece
  by_cases hq : c = '?'
  · simp [hq, List.length_eq_one_iff]
  · simp [hc, hq]

theorem globMatches_one {c : Char} {p n : List Char} (hc : c ≠ '*') :
    GlobMatches (c :: p) n ↔ ∃ d n', n = d :: n' ∧ (c = '?' ∨ c = d) ∧ GlobMatches p n' := by
  constructor
  · rintro ⟨_, h, rfl⟩
    obtain ⟨w, ws, hw, hws, rfl⟩ := List.forall₂_cons_left_iff.1 h
    obtain ⟨d, rfl, hd⟩ := (piece_one hc).1 hw
    exact ⟨d, ws.flatten, rfl, hd, ws, hws, rfl⟩
  · rintro ⟨d, _, rfl, hd, ws, hws, rfl⟩
    exact ⟨[d] :: ws, List.Forall₂.cons ((piece_one hc).2 ⟨d, rfl, hd⟩) hws, rfl⟩

/-- The empty name matches exactly the patterns made of stars. -/
theorem globMatches_nil_right {p : List Char} : GlobMatches p [] ↔ p.all (· == '*') = true := by
  induction p with
  | nil => simp [globMatches_nil_left]
  | cons c p ih =>
    by_cases hc : c = '*'
    · subst hc
      simp [globMatches_star, ih]
    · simp [globMatches_one hc, hc]

/-- A match of a pattern that starts with a single character, from some suffix of a name, leaves a
match of the rest from a suffix one character shorter. -/
theorem globMatches_one_drop {c : Char} {p n : List Char} {k : Nat} (hc : c ≠ '*')
    (h : GlobMatches (c :: p) (n.drop k)) : GlobMatches p (n.drop (k + 1)) := by
  obtain ⟨d, n', hn, -, hp⟩ := (globMatches_one hc).1 h
  rwa [← List.drop_drop, hn, List.drop_one, List.tail_cons]

theorem globMatches_one_cons {c d : Char} {p n : List Char} (hc : c ≠ '*') :
    GlobMatches (c :: p) (d :: n) ↔ (c = '?' ∨ c = d) ∧ GlobMatches p n := by
  rw [globMatches_one hc]
  constructor
  · rintro ⟨d', n', hn, hd, hp⟩
    obtain ⟨rfl, rfl⟩ := List.cons.inj hn
    exact ⟨hd, hp⟩
  · rintro ⟨hd, hp⟩
    exact ⟨d, n, rfl, hd, hp⟩

/-! ### Scanning encoded text -/

theorem utf8EncodeChar_star : String.utf8EncodeChar '*' = [starByte] := rfl

theorem utf8EncodeChar_any : String.utf8EncodeChar '?' = [anyByte] := rfl

/-- No byte of a character other than `*` and `?` is the byte of `*` or of `?`: its lead byte is
its own code or at least `0xc0`, and the bytes after it are continuation bytes. -/
theorem utf8EncodeChar_plain {c : Char} (hs : c ≠ '*') (hq : c ≠ '?') :
    ∀ x ∈ String.utf8EncodeChar c, x ≠ starByte ∧ x ≠ anyByte := by
  obtain ⟨b, bs, henc, -, hcont, hone, hmany⟩ := utf8EncodeChar_shape c
  have hstar : starByte.toNat = '*'.toNat := rfl
  have hany : anyByte.toNat = '?'.toNat := rfl
  rw [henc]
  intro x hx
  rcases List.mem_cons.1 hx with rfl | hx
  · by_cases hbs : bs = []
    · have hcode := hone hbs
      refine ⟨fun h => hs ?_, fun h => hq ?_⟩
      · rw [← Char.toNat_inj, ← hcode, h, hstar]
      · rw [← Char.toNat_inj, ← hcode, h, hany]
    · have hlead := hmany hbs
      refine ⟨fun h => ?_, fun h => ?_⟩ <;> subst h <;> revert hlead <;> decide
  · obtain ⟨hlo, -⟩ := hcont x hx
    refine ⟨fun h => ?_, fun h => ?_⟩ <;> subst h <;> revert hlo <;> decide

theorem all_star_utf8EncodeChar (c : Char) :
    (String.utf8EncodeChar c).all (· == starByte) = (c == '*') := by
  by_cases hs : c = '*'
  · subst hs
    rfl
  by_cases hq : c = '?'
  · subst hq
    rfl
  obtain ⟨b, bs, henc, -⟩ := utf8EncodeChar_shape c
  have hb := (utf8EncodeChar_plain hs hq b (by rw [henc]; exact List.mem_cons_self)).1
  rw [henc, List.all_cons, beq_eq_false_iff_ne.2 hb, Bool.false_and, beq_eq_false_iff_ne.2 hs]

theorem all_star_encode (p : List Char) : (encode p).all (· == starByte) = p.all (· == '*') := by
  induction p with
  | nil => rfl
  | cons c p ih => rw [encode_cons, List.all_append, ih, all_star_utf8EncodeChar, List.all_cons]

/-- Comparing plain pattern bytes with as many name bytes: the scan goes on past them when they
agree, and stops with a mismatch when they do not. -/
theorem scan_plain_append {cs ds P N : List UInt8} (hlen : cs.length = ds.length)
    (hcs : ∀ x ∈ cs, x ≠ starByte ∧ x ≠ anyByte) :
    scan (cs ++ P) (ds ++ N) = if cs = ds then scan P N else .mismatch := by
  induction cs generalizing ds with
  | nil =>
    rw [List.length_nil, eq_comm, List.length_eq_zero_iff] at hlen
    subst hlen
    simp
  | cons x cs ih =>
    obtain ⟨y, ds, rfl⟩ := List.exists_cons_of_length_eq_add_one hlen.symm
    obtain ⟨hxs, hxa⟩ := hcs x List.mem_cons_self
    rw [List.cons_append, List.cons_append, scan, if_neg hxs, if_neg hxa,
      ih (by simpa using hlen) (fun z hz => hcs z (List.mem_cons_of_mem x hz))]
    by_cases hxy : x = y
    · subst hxy
      simp
    · simp [hxy]

theorem scan_encode_nil_right (p : List Char) :
    scan (encode p) [] = .done (p.all (· == '*')) := by
  rw [scan_nil, all_star_encode]

theorem scan_nil_encode_cons (d : Char) (n : List Char) : scan [] (encode (d :: n)) = .mismatch := by
  obtain ⟨b, bs, hd, -⟩ := utf8EncodeChar_shape d
  rw [encode_cons, hd, List.cons_append, scan]

theorem scan_encode_star (p : List Char) (d : Char) (n : List Char) :
    scan (encode ('*' :: p)) (encode (d :: n)) = .star (encode p) (encode (d :: n)) := by
  obtain ⟨b, bs, hd, -⟩ := utf8EncodeChar_shape d
  rw [encode_cons, encode_cons, utf8EncodeChar_star, hd, List.singleton_append, List.cons_append,
    scan, if_pos rfl]

/-- A pattern character other than `*` takes one whole character of the encoded name: `?` skips its
bytes by the width of its lead byte, and a literal character is compared with it encoding for
encoding. When the two lead bytes agree the widths agree and the encodings are compared as wholes;
when they differ, so do the characters. -/
theorem scan_encode_one {c d : Char} {p n : List Char} (hc : c ≠ '*') :
    scan (encode (c :: p)) (encode (d :: n)) =
      if c = '?' ∨ c = d then scan (encode p) (encode n) else .mismatch := by
  obtain ⟨b, bs, hd, hwidth, -⟩ := utf8EncodeChar_shape d
  by_cases hq : c = '?'
  · subst hq
    have hskip : (b :: (bs ++ encode n)).drop (charWidth b) = encode n := by
      rw [hwidth, List.drop_succ_cons, List.drop_left]
    rw [encode_cons, encode_cons, utf8EncodeChar_any, hd, List.singleton_append, List.cons_append,
      scan, if_neg (by decide), if_pos rfl, hskip, if_pos (.inl rfl)]
  obtain ⟨a, as, hc', hwa, -⟩ := utf8EncodeChar_shape c
  have hplain := utf8EncodeChar_plain hc hq
  rw [encode_cons, encode_cons]
  by_cases hlead : a = b
  · have hlen : (String.utf8EncodeChar c).length = (String.utf8EncodeChar d).length := by
      rw [hc', hd, List.length_cons, List.length_cons, ← hwa, ← hwidth, hlead]
    rw [scan_plain_append hlen hplain]
    by_cases hcd : c = d
    · subst hcd
      simp
    · have hne : String.utf8EncodeChar c ≠ String.utf8EncodeChar d :=
        fun h => hcd (utf8EncodeChar_injective h)
      simp [hne, hcd, hq]
  · have hcd : c ≠ d := by
      rintro rfl
      rw [hc'] at hd
      exact hlead (List.cons.inj hd).1
    obtain ⟨has, haa⟩ := hplain a (by rw [hc']; exact List.mem_cons_self)
    rw [hc', hd, List.cons_append, List.cons_append, scan, if_neg has, if_neg haa, if_neg hlead]
    simp [hq, hcd]

/-! ### What each end of a scan says -/

/-- A scan that runs out of name where only stars are left has found a match. -/
theorem scan_done_true {p n : List Char} (h : scan (encode p) (encode n) = .done true) :
    GlobMatches p n := by
  induction p generalizing n with
  | nil =>
    cases n with
    | nil => exact globMatches_nil_left.2 rfl
    | cons d n => rw [encode_nil, scan_nil_encode_cons] at h; cases h
  | cons c p ih =>
    cases n with
    | nil =>
      rw [encode_nil, scan_encode_nil_right, Scan.done.injEq] at h
      exact globMatches_nil_right.2 h
    | cons d n =>
      by_cases hc : c = '*'
      · subst hc
        rw [scan_encode_star] at h
        cases h
      rw [scan_encode_one hc] at h
      split at h
      · exact (globMatches_one_cons hc).2 ⟨by assumption, ih h⟩
      · cases h

/-- A scan that runs out of name with a character other than a star left rules out every suffix of
the name: the pattern needs more characters than any of them has. -/
theorem scan_done_false {p n : List Char} (h : scan (encode p) (encode n) = .done false) :
    ∀ k, ¬ GlobMatches p (n.drop k) := by
  induction p generalizing n with
  | nil =>
    cases n with
    | nil => cases h
    | cons d n => rw [encode_nil, scan_nil_encode_cons] at h; cases h
  | cons c p ih =>
    cases n with
    | nil =>
      rw [encode_nil, scan_encode_nil_right, Scan.done.injEq] at h
      intro k hk
      rw [List.drop_nil, globMatches_nil_right, h] at hk
      cases hk
    | cons d n =>
      by_cases hc : c = '*'
      · subst hc
        rw [scan_encode_star] at h
        cases h
      rw [scan_encode_one hc] at h
      split at h
      · intro k hk
        have hrest := globMatches_one_drop hc hk
        rw [List.drop_succ_cons] at hrest
        exact ih h k hrest
      · cases h

/-- A scan that stops at a byte that differs rules out a match from where it started. -/
theorem scan_mismatch {p n : List Char} (h : scan (encode p) (encode n) = .mismatch) :
    ¬ GlobMatches p n := by
  induction p generalizing n with
  | nil =>
    cases n with
    | nil => cases h
    | cons d n => simp [globMatches_nil_left]
  | cons c p ih =>
    cases n with
    | nil => rw [encode_nil, scan_encode_nil_right] at h; cases h
    | cons d n =>
      by_cases hc : c = '*'
      · subst hc
        rw [scan_encode_star] at h
        cases h
      rw [scan_encode_one hc, globMatches_one_cons hc] at *
      split at h
      · exact fun hm => ih h hm.2
      · rename_i hcd
        exact fun hm => hcd hm.1

/-- A scan that reaches a star has matched the characters before it one for one: a match of the
whole pattern is a match of what follows the star from some suffix of the rest of the name, and a
match from any suffix of the name leaves one of those. -/
theorem scan_star {p n : List Char} {P N : List UInt8}
    (h : scan (encode p) (encode n) = .star P N) :
    ∃ p' n', P = encode p' ∧ N = encode n' ∧ p'.length < p.length ∧
      (GlobMatches p n ↔ ∃ k, GlobMatches p' (n'.drop k)) ∧
      ((∃ k, GlobMatches p (n.drop k)) → ∃ k, GlobMatches p' (n'.drop k)) := by
  induction p generalizing n with
  | nil =>
    cases n with
    | nil => cases h
    | cons d n => rw [encode_nil, scan_nil_encode_cons] at h; cases h
  | cons c p ih =>
    cases n with
    | nil => rw [encode_nil, scan_encode_nil_right] at h; cases h
    | cons d n =>
      by_cases hc : c = '*'
      · subst hc
        rw [scan_encode_star, Scan.star.injEq] at h
        obtain ⟨rfl, rfl⟩ := h
        refine ⟨p, d :: n, rfl, rfl, by simp, globMatches_star, ?_⟩
        rintro ⟨k, hk⟩
        obtain ⟨j, hj⟩ := globMatches_star.1 hk
        exact ⟨k + j, by rwa [List.drop_drop] at hj⟩
      rw [scan_encode_one hc] at h
      split at h
      · rename_i hcd
        obtain ⟨p', n', rfl, rfl, hlen, hiff, hsuffix⟩ := ih h
        refine ⟨p', n', rfl, rfl, by simp; omega, ?_, ?_⟩
        · rw [globMatches_one_cons hc, ← hiff]
          exact and_iff_right hcd
        · rintro ⟨k, hk⟩
          have hrest := globMatches_one_drop hc hk
          rw [List.drop_succ_cons] at hrest
          exact hsuffix ⟨k, hrest⟩
      · cases h

/-! ### The matcher -/

/-- Stepping over the lead byte's width of an encoded name skips exactly its first character. -/
theorem encode_cons_drop {d : Char} {n : List Char} {b : UInt8} {rest : List UInt8}
    (h : encode (d :: n) = b :: rest) : (b :: rest).drop (charWidth b) = encode n := by
  obtain ⟨b', bs, hd, hwidth, -⟩ := utf8EncodeChar_shape d
  rw [encode_cons, hd, List.cons_append] at h
  obtain ⟨rfl, rfl⟩ := List.cons.inj h
  rw [hwidth, List.drop_succ_cons, List.drop_left]

/-- Matching from the last star: the rest of the pattern matches some suffix of the name. The
induction follows the matcher's own recursion: a later star takes over from this one, and a
mismatch lets the star take one more character. -/
theorem fromStar_encode (P N : List UInt8) :
    ∀ p n, P = encode p → N = encode n →
      (fromStar P N = true ↔ ∃ k, GlobMatches p (n.drop k)) := by
  fun_induction fromStar P N with
  | case1 P N r h =>
    rintro p n rfl rfl
    cases r
    · simp only [Bool.false_eq_true, false_iff, not_exists]
      exact scan_done_false h
    · simp only [true_iff]
      exact ⟨0, scan_done_true h⟩
  | case2 P N P' N' h _ ih =>
    rintro p n rfl rfl
    obtain ⟨p', n', rfl, rfl, -, hiff, hsuffix⟩ := scan_star h
    rw [ih p' n' rfl rfl]
    exact ⟨fun hm => ⟨0, hiff.2 hm⟩, hsuffix⟩
  | case3 P h =>
    rw [scan_nil] at h
    cases h
  | case4 P b rest h _ ih =>
    rintro p n rfl hn
    cases n with
    | nil => cases hn
    | cons d n =>
      have hmis : ¬ GlobMatches p (d :: n) := scan_mismatch (hn ▸ h)
      rw [ih p n rfl (encode_cons_drop hn.symm)]
      constructor
      · rintro ⟨k, hk⟩
        exact ⟨k + 1, by rwa [List.drop_succ_cons]⟩
      · rintro ⟨_ | k, hk⟩
        · exact absurd hk hmis
        · exact ⟨k, by rwa [List.drop_succ_cons] at hk⟩

/-- The matcher on encoded text decides the language of the pattern. -/
theorem glob_encode (p n : List Char) : glob (encode p) (encode n) = true ↔ GlobMatches p n := by
  unfold glob
  split
  · rename_i r h
    cases r
    · simp only [Bool.false_eq_true, false_iff]
      exact scan_done_false h 0
    · simp only [true_iff]
      exact scan_done_true h
  · rename_i P' N' h
    obtain ⟨p', n', rfl, rfl, -, hiff, -⟩ := scan_star h
    rw [fromStar_encode _ _ p' n' rfl rfl, hiff]
  · rename_i h
    simp only [Bool.false_eq_true, false_iff]
    exact scan_mismatch h

/-- A wildcard accepts a name exactly when the name does not start with a dot unless the wildcard
does, and the characters of the name are in the language of the characters of the wildcard. -/
theorem wildcard_accepts_iff (pat name : String) :
    (Segment.wildcard pat).accepts name = true ↔
      (name.toList.head? ≠ some '.' ∨ pat.toList.head? = some '.') ∧
        GlobMatches pat.toList name.toList := by
  rw [Segment.accepts, toUTF8_toList, toUTF8_toList]
  by_cases hn : name.toList.head? = some '.' <;> by_cases hp : pat.toList.head? = some '.' <;>
    simp [List.singleton_prefix_iff_head?_eq_some, hn, hp, glob_encode]

end SuiteRunner.Glob
