import Mathlib.Data.String.Basic
import SuiteRunner.Glob.Segment

/-! UTF-8 as the name matcher reads it. The encoding of a character is a lead byte followed by
continuation bytes `10xxxxxx`; the width that `charWidth` reads off the lead byte is the length of
the whole encoding, and a character of one byte is its own code. So a pass over the bytes of an
encoded name that steps by lead bytes, or that compares whole encodings, stays on character
boundaries. The encoding also keeps order: comparing the bytes of two texts compares their
characters, and the bytes of a name read from a directory decode to a text exactly when they are
that text's encoding. -/

namespace SuiteRunner.Utf8

open Glob

/-- The UTF-8 bytes of a list of characters. -/
def encode (cs : List Char) : List UInt8 := cs.flatMap String.utf8EncodeChar

@[simp] theorem encode_nil : encode [] = [] := rfl

@[simp] theorem encode_cons (c : Char) (cs : List Char) :
    encode (c :: cs) = String.utf8EncodeChar c ++ encode cs := rfl

theorem byteArray_toList_loop (bs : ByteArray) (i : Nat) (r : List UInt8) :
    ByteArray.toList.loop bs i r = r.reverse ++ bs.data.toList.drop i := by
  fun_induction ByteArray.toList.loop bs i r with
  | case1 i r hlt ih =>
    have hi : i < bs.data.toList.length := by simpa using hlt
    have hget : bs.get! i = bs.data.toList[i] := by simp [ByteArray.get!, hlt]
    rw [ih, List.drop_eq_getElem_cons hi]
    simp [hget]
  | case2 i r hge =>
    rw [List.drop_eq_nil_of_le (by simpa using Nat.le_of_not_lt hge), List.append_nil]

theorem byteArray_toList_toByteArray (l : List UInt8) : l.toByteArray.toList = l := by
  rw [ByteArray.toList, byteArray_toList_loop, List.data_toByteArray]
  simp

/-- The bytes of a string are the encoding of its characters. -/
theorem toUTF8_toList (s : String) : s.toUTF8.toList = encode s.toList := by
  conv => lhs; rw [← String.ofList_toList (s := s)]
  rw [String.toUTF8_eq_toByteArray, String.toByteArray_ofList]
  exact byteArray_toList_toByteArray _

/-! ### Byte shapes -/

theorem or_two_pow_mul {v : Nat} (k m : Nat) (hv : v < 2 ^ k) : v ||| 2 ^ k * m = 2 ^ k * m + v := by
  rw [Nat.or_comm, Nat.two_pow_add_eq_or_of_lt hv]

theorem toNat_lead_two (x : UInt8) : (x &&& 0x1f ||| 0xc0).toNat = 0xc0 + x.toNat % 32 := by
  have hmask : (0x1f : UInt8).toNat = 2 ^ 5 - 1 := rfl
  have hlead : (0xc0 : UInt8).toNat = 2 ^ 5 * 6 := rfl
  rw [UInt8.toNat_or, UInt8.toNat_and, hmask, hlead, Nat.and_two_pow_sub_one_eq_mod,
    or_two_pow_mul 5 6 (Nat.mod_lt _ (by decide))]
  omega

theorem toNat_lead_three (x : UInt8) : (x &&& 0x0f ||| 0xe0).toNat = 0xe0 + x.toNat % 16 := by
  have hmask : (0x0f : UInt8).toNat = 2 ^ 4 - 1 := rfl
  have hlead : (0xe0 : UInt8).toNat = 2 ^ 4 * 14 := rfl
  rw [UInt8.toNat_or, UInt8.toNat_and, hmask, hlead, Nat.and_two_pow_sub_one_eq_mod,
    or_two_pow_mul 4 14 (Nat.mod_lt _ (by decide))]
  omega

theorem toNat_lead_four (x : UInt8) : (x &&& 0x07 ||| 0xf0).toNat = 0xf0 + x.toNat % 8 := by
  have hmask : (0x07 : UInt8).toNat = 2 ^ 3 - 1 := rfl
  have hlead : (0xf0 : UInt8).toNat = 2 ^ 3 * 30 := rfl
  rw [UInt8.toNat_or, UInt8.toNat_and, hmask, hlead, Nat.and_two_pow_sub_one_eq_mod,
    or_two_pow_mul 3 30 (Nat.mod_lt _ (by decide))]
  omega

theorem toNat_continuation (x : UInt8) : (x &&& 0x3f ||| 0x80).toNat = 0x80 + x.toNat % 64 := by
  have hmask : (0x3f : UInt8).toNat = 2 ^ 6 - 1 := rfl
  have hlead : (0x80 : UInt8).toNat = 2 ^ 6 * 2 := rfl
  rw [UInt8.toNat_or, UInt8.toNat_and, hmask, hlead, Nat.and_two_pow_sub_one_eq_mod,
    or_two_pow_mul 6 2 (Nat.mod_lt _ (by decide))]
  omega

/-- A continuation byte, `10xxxxxx`. -/
def IsContinuation (b : UInt8) : Prop := 0x80 ≤ b.toNat ∧ b.toNat < 0xc0

theorem isContinuation_mask (x : UInt8) : IsContinuation (x &&& 0x3f ||| 0x80) := by
  unfold IsContinuation
  rw [toNat_continuation]
  omega

theorem charWidth_eq (b : UInt8) :
    charWidth b =
      if 0xf0 ≤ b.toNat then 4 else if 0xe0 ≤ b.toNat then 3 else if 0xc0 ≤ b.toNat then 2 else 1 := by
  simp only [charWidth, ge_iff_le, UInt8.le_iff_toNat_le]
  rfl

/-- The encoding of a character is a lead byte, whose width is the length of the encoding, followed
by continuation bytes; a character of one byte is its own code, and a longer one starts with a
byte of at least `0xc0`. -/
theorem utf8EncodeChar_shape (c : Char) :
    ∃ b bs, String.utf8EncodeChar c = b :: bs ∧ charWidth b = bs.length + 1 ∧
      (∀ x ∈ bs, IsContinuation x) ∧ (bs = [] → b.toNat = c.toNat) ∧
      (bs ≠ [] → 0xc0 ≤ b.toNat) := by
  have hval : c.toNat = c.val.toNat := rfl
  rcases Char.utf8Size_eq c with h | h | h | h
  · have hsmall : c.val.toNat ≤ 127 := UInt32.le_iff_toNat_le.1 (Char.utf8Size_eq_one_iff.1 h)
    have hb : c.val.toUInt8.toNat = c.toNat := by
      rw [UInt32.toNat_toUInt8, hval]
      omega
    refine ⟨_, [], String.utf8EncodeChar_eq_singleton h, ?_, by simp, fun _ => hb, by simp⟩
    rw [charWidth_eq, hb, if_neg (by omega), if_neg (by omega), if_neg (by omega)]
    rfl
  · refine ⟨_, _, String.utf8EncodeChar_eq_cons_cons h, ?_, ?_, by simp, fun _ => ?_⟩
    · rw [charWidth_eq, toNat_lead_two, if_neg (by omega), if_neg (by omega), if_pos (by omega)]
      rfl
    · simpa using isContinuation_mask _
    · rw [toNat_lead_two]
      omega
  · refine ⟨_, _, String.utf8EncodeChar_eq_cons_cons_cons h, ?_, ?_, by simp, fun _ => ?_⟩
    · rw [charWidth_eq, toNat_lead_three, if_neg (by omega), if_pos (by omega)]
      rfl
    · simp only [List.mem_cons, List.not_mem_nil, or_false]
      rintro x (rfl | rfl) <;> exact isContinuation_mask _
    · rw [toNat_lead_three]
      omega
  · refine ⟨_, _, String.utf8EncodeChar_eq_cons_cons_cons_cons h, ?_, ?_, by simp, fun _ => ?_⟩
    · rw [charWidth_eq, toNat_lead_four, if_pos (by omega)]
      rfl
    · simp only [List.mem_cons, List.not_mem_nil, or_false]
      rintro x (rfl | rfl | rfl) <;> exact isContinuation_mask _
    · rw [toNat_lead_four]
      omega

/-- Two characters with the same encoding are the same character. -/
theorem utf8EncodeChar_injective {c d : Char}
    (h : String.utf8EncodeChar c = String.utf8EncodeChar d) : c = d := by
  have hc := List.utf8DecodeChar?_utf8Encode_cons (c := c) (l := [])
  have hd := List.utf8DecodeChar?_utf8Encode_cons (c := d) (l := [])
  rw [List.utf8Encode_singleton, h, ← List.utf8Encode_singleton, hd] at hc
  exact (Option.some.inj hc).symm

/-! ### Order -/

/-- The byte values UTF-8 gives a code point, by width. -/
def utf8Bytes (n : Nat) : List Nat :=
  if n < 0x80 then [n]
  else if n < 0x800 then [0xc0 + n / 64, 0x80 + n % 64]
  else if n < 0x10000 then [0xe0 + n / 4096, 0x80 + n / 64 % 64, 0x80 + n % 64]
  else [0xf0 + n / 262144, 0x80 + n / 4096 % 64, 0x80 + n / 64 % 64, 0x80 + n % 64]

theorem append_lt_append_of_length_eq {l₁ l₂ : List Nat} (h : l₁ < l₂)
    (hlen : l₁.length = l₂.length) (xs ys : List Nat) : l₁ ++ xs < l₂ ++ ys := by
  induction l₁ generalizing l₂ with
  | nil => cases l₂ <;> simp_all
  | cons a l₁ ih =>
    cases l₂ with
    | nil => simp at hlen
    | cons b l₂ =>
      rcases List.cons_lt_cons_iff.1 h with hab | ⟨rfl, hl⟩
      · exact List.cons_lt_cons_iff.2 (.inl hab)
      · exact List.cons_lt_cons_iff.2 (.inr ⟨rfl, ih hl (by simpa using hlen)⟩)

/-- Encodings of one width compare as their code points do, and a wider encoding starts with a
larger lead byte. -/
theorem utf8Bytes_append_lt {m n : Nat} (h : m < n) (xs ys : List Nat) :
    utf8Bytes m ++ xs < utf8Bytes n ++ ys := by
  by_cases hw : (utf8Bytes m).length = (utf8Bytes n).length
  · apply append_lt_append_of_length_eq _ hw
    unfold utf8Bytes at hw ⊢
    split_ifs at hw ⊢ <;> simp [List.cons_lt_cons_iff] at hw ⊢ <;> omega
  · unfold utf8Bytes at hw ⊢
    split_ifs at hw ⊢ <;>
      simp only [List.cons_append, List.length_cons, List.length_nil, not_true_eq_false] at hw ⊢ <;>
      exact List.cons_lt_cons_iff.2 (.inl (by omega))

theorem map_toNat_utf8EncodeChar (c : Char) :
    (String.utf8EncodeChar c).map UInt8.toNat = utf8Bytes c.toNat := by
  have hval : c.val.toNat = c.toNat := rfl
  have hlow : c.val.toUInt8.toNat = c.toNat % 256 := by
    rw [UInt32.toNat_toUInt8, hval]
  have h6 : (c.val >>> 6).toUInt8.toNat = c.toNat / 64 % 256 := by
    rw [UInt32.toNat_toUInt8, UInt32.toNat_shiftRight, hval, Nat.shiftRight_eq_div_pow]; rfl
  have h12 : (c.val >>> 12).toUInt8.toNat = c.toNat / 4096 % 256 := by
    rw [UInt32.toNat_toUInt8, UInt32.toNat_shiftRight, hval, Nat.shiftRight_eq_div_pow]; rfl
  have h18 : (c.val >>> 18).toUInt8.toNat = c.toNat / 262144 % 256 := by
    rw [UInt32.toNat_toUInt8, UInt32.toNat_shiftRight, hval, Nat.shiftRight_eq_div_pow]; rfl
  have hvalid : c.toNat < 0x110000 := by
    have := c.valid
    simp [UInt32.isValidChar, Nat.isValidChar, hval] at this
    omega
  rcases Char.utf8Size_eq c with h | h | h | h
  · have hsize : c.toNat ≤ 127 := by
      simpa [UInt32.le_iff_toNat_le] using Char.utf8Size_eq_one_iff.1 h
    rw [String.utf8EncodeChar_eq_singleton h, utf8Bytes, if_pos (by omega), List.map_singleton, hlow]
    simp only [List.cons.injEq, and_true]
    omega
  · have hsize : 127 < c.toNat ∧ c.toNat ≤ 2047 := by
      simpa [UInt32.le_iff_toNat_le, UInt32.lt_iff_toNat_lt] using Char.utf8Size_eq_two_iff.1 h
    rw [String.utf8EncodeChar_eq_cons_cons h, utf8Bytes, if_neg (by omega), if_pos (by omega),
      List.map_cons, List.map_singleton, toNat_lead_two, toNat_continuation, hlow, h6]
    simp only [List.cons.injEq, and_true]
    omega
  · have hsize : 2047 < c.toNat ∧ c.toNat ≤ 65535 := by
      simpa [UInt32.le_iff_toNat_le, UInt32.lt_iff_toNat_lt] using Char.utf8Size_eq_three_iff.1 h
    rw [String.utf8EncodeChar_eq_cons_cons_cons h, utf8Bytes, if_neg (by omega), if_neg (by omega),
      if_pos (by omega), List.map_cons, List.map_cons, List.map_singleton, toNat_lead_three,
      toNat_continuation, toNat_continuation, hlow, h6, h12]
    simp only [List.cons.injEq, and_true]
    omega
  · have hsize : 65535 < c.toNat := by
      simpa [UInt32.le_iff_toNat_le, UInt32.lt_iff_toNat_lt] using Char.utf8Size_eq_four_iff.1 h
    rw [String.utf8EncodeChar_eq_cons_cons_cons_cons h, utf8Bytes, if_neg (by omega), if_neg (by omega),
      if_neg (by omega), List.map_cons, List.map_cons, List.map_cons, List.map_singleton,
      toNat_lead_four, toNat_continuation, toNat_continuation, toNat_continuation, hlow, h6, h12, h18]
    simp only [List.cons.injEq, and_true]
    omega

theorem lt_iff_map_toNat_lt {l₁ l₂ : List UInt8} :
    l₁ < l₂ ↔ l₁.map UInt8.toNat < l₂.map UInt8.toNat := by
  induction l₁ generalizing l₂ with
  | nil => cases l₂ <;> simp
  | cons a l₁ ih =>
    cases l₂ with
    | nil => simp
    | cons b l₂ =>
      simp only [List.map_cons, List.cons_lt_cons_iff, UInt8.lt_iff_toNat_lt, UInt8.toNat_inj, ih]

theorem append_lt_append_left_iff {l a b : List Nat} : l ++ a < l ++ b ↔ a < b := by
  induction l with
  | nil => rfl
  | cons x l ih => simp [ih]

theorem utf8Bytes_ne_nil (n : Nat) : utf8Bytes n ≠ [] := by
  unfold utf8Bytes
  split_ifs <;> simp

theorem flatMap_utf8Bytes_lt_iff : ∀ {cs ds : List Char},
    cs.flatMap (fun c => utf8Bytes c.toNat) < ds.flatMap (fun c => utf8Bytes c.toNat) ↔ cs < ds
  | [], [] => by simp
  | [], d :: ds => by
    obtain ⟨b, bs, hb⟩ := List.exists_cons_of_ne_nil (utf8Bytes_ne_nil d.toNat)
    simp [hb]
  | c :: cs, [] => by simp
  | c :: cs, d :: ds => by
    simp only [List.flatMap_cons, List.cons_lt_cons_iff]
    rcases lt_trichotomy c.toNat d.toNat with hcd | hcd | hcd
    · have hlt : c < d := by simpa [Char.lt_def, UInt32.lt_iff_toNat_lt] using hcd
      simp only [hlt, true_or, iff_true]
      exact utf8Bytes_append_lt hcd _ _
    · have heq : c = d := Char.toNat_inj.1 hcd
      subst heq
      rw [append_lt_append_left_iff, flatMap_utf8Bytes_lt_iff]
      simp
    · have hlt : d < c := by simpa [Char.lt_def, UInt32.lt_iff_toNat_lt] using hcd
      have hne : c ≠ d := fun h => absurd (h ▸ hlt) (lt_irrefl _)
      simp only [not_lt_of_gt hlt, hne, false_or, false_and, iff_false]
      exact List.lt_asymm (utf8Bytes_append_lt hcd _ _)

theorem map_toNat_encode (cs : List Char) :
    (encode cs).map UInt8.toNat = cs.flatMap fun c => utf8Bytes c.toNat := by
  induction cs with
  | nil => rfl
  | cons c cs ih => rw [encode_cons, List.map_append, map_toNat_utf8EncodeChar, ih, List.flatMap_cons]

theorem toUTF8_lt_iff (s t : String) : s.toUTF8.toList < t.toUTF8.toList ↔ s < t := by
  rw [toUTF8_toList, toUTF8_toList, lt_iff_map_toNat_lt, map_toNat_encode, map_toNat_encode,
    flatMap_utf8Bytes_lt_iff, String.lt_iff_toList_lt]

theorem toByteArray_eq_iff (b : List UInt8) (s : String) :
    s.toByteArray = ⟨b.toArray⟩ ↔ s.toUTF8.toList = b := by
  rw [String.toUTF8_eq_toByteArray, ByteArray.toList, byteArray_toList_loop, List.reverse_nil,
    List.nil_append, List.drop_zero, ByteArray.ext_iff, ← Array.toList_inj, List.toList_toArray]

theorem fromUTF8?_eq_some_iff (b : List UInt8) (s : String) :
    String.fromUTF8? ⟨b.toArray⟩ = some s ↔ s.toUTF8.toList = b := by
  rw [← toByteArray_eq_iff, String.fromUTF8?]
  split
  · rename_i hvalid
    rw [Option.some_inj, String.fromUTF8]
    constructor
    · rintro rfl
      rfl
    · intro h
      obtain ⟨bytes, hv⟩ := s
      subst h
      rfl
  · rename_i hinvalid
    simp only [reduceCtorEq, false_iff]
    intro h
    exact hinvalid (h ▸ s.isValidUTF8)

end SuiteRunner.Utf8
