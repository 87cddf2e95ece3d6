import SdkBindings.Proofs.Symbols

/-!
Bytes that belong to no character, in text that is shown.  Whether a byte does is told by
the bytes around it: there is a sequence of UTF-8 that it is part of, or there is none.
Main statement: a text is shown with its characters in their places and an escape for
each stray byte, what is shown is UTF-8, and a text without a backslash is read back from
it.
-/

namespace SdkBindings

/-- A byte between two texts is part of a character. -/
def InSequence (before : Text) (b : UInt8) (after : Text) : Prop :=
  ∃ left right, Utf8Sequence (left ++ b :: right) ∧ left <:+ before ∧ right <+: after

theorem InSequence.of_straddles {before after : Text} {b : UInt8}
    (h : Symbol.Straddles before (b :: after)) : InSequence before b after := by
  obtain ⟨c, left, right, hcode, -, hright, hsuffix, hprefix⟩ := h
  obtain ⟨first, right, rfl⟩ := List.exists_cons_of_ne_nil hright
  obtain ⟨rfl, hbehind⟩ := List.cons_prefix_cons.mp hprefix
  exact ⟨left, right, hcode ▸ .of_encode c, hsuffix, hbehind⟩

theorem InSequence.of_leading {before after : Text} {b : UInt8} {c : Char}
    (h : Symbol.leading (b :: after) = some c) : InSequence before b after := by
  obtain ⟨first, tail, hcode, -⟩ := (Utf8Sequence.of_encode c).exists_cons
  have hprefix := Symbol.isPrefix_of_leading h
  rw [hcode] at hprefix
  obtain ⟨rfl, htail⟩ := List.cons_prefix_cons.mp hprefix
  exact ⟨[], tail, hcode ▸ .of_encode c, List.nil_suffix, htail⟩

/-- A character is shown as it is, between the texts on both of its sides. -/
theorem shown_append_sequence {s : Text} (h : Utf8Sequence s) (before after : Text) :
    shown (before ++ s ++ after) = shown before ++ s ++ shown after := by
  obtain ⟨lead, tail, hcons, hlead, -⟩ := h.exists_cons
  obtain ⟨c, rfl⟩ := h.exists_encode
  have hborder : ¬ Symbol.Straddles before (String.utf8EncodeChar c ++ after) := by
    rw [hcons]
    exact Symbol.not_straddles_cons hlead before _
  rw [List.append_assoc, shown_append hborder, shown_char_append, List.append_assoc]

/-- A stray byte is shown by its escape, between the texts on both of its sides. -/
theorem shown_append_stray {before after : Text} {b : UInt8} (h : ¬ InSequence before b after) :
    shown (before ++ b :: after) = shown before ++ byteEscape b ++ shown after := by
  have hlead : Symbol.leading (b :: after) = none := by
    cases hlead : Symbol.leading (b :: after) with
    | none => rfl
    | some c => exact absurd (.of_leading hlead) h
  rw [shown_append fun hstraddles => h (.of_straddles hstraddles), shown_raw hlead,
    List.append_assoc]

/-- Text that is UTF-8 is made of the sequences of its characters. -/
theorem isUtf8_iff_isWellFormed {t : Text} : t.IsUtf8 ↔ t.IsWellFormed := by
  constructor
  · rintro ⟨s, rfl⟩
    refine ⟨s.toList.map String.utf8EncodeChar, fun code hcode => ?_, rfl⟩
    obtain ⟨c, -, rfl⟩ := List.mem_map.mp hcode
    exact .of_encode c
  · rintro ⟨sequences, hall, rfl⟩
    rw [← List.flatMap_id]
    refine .flatMap sequences fun s hs => ?_
    obtain ⟨c, rfl⟩ := (hall s hs).exists_encode
    exact .encode c

/-- The digits of a hexadecimal number, in lower case. -/
def lowerHexDigits : Text := "0123456789abcdef"

theorem toNat_div_lt (b : UInt8) : b.toNat / 16 < 16 :=
  Nat.div_lt_of_lt_mul b.toNat_lt

/-- The value of a digit. -/
def digitValue? (d : UInt8) : Option Nat :=
  lowerHexDigits.idxOf? d

theorem getElem?_lowerHexDigits : ∀ n < 16, lowerHexDigits[n]? = some (hexDigit n) := by
  decide

theorem digitValue?_hexDigit : ∀ n < 16, digitValue? (hexDigit n) = some n := by
  decide

theorem hexDigit_ascii : ∀ n < 16, hexDigit n < 0x80 := by
  decide

namespace Escape

def backslash : UInt8 := 92

/-- The letter behind the backslash. -/
def letter : UInt8 := 120

end Escape

open Escape

theorem byteEscape_eq (b : UInt8) :
    byteEscape b = [backslash, letter, hexDigit (b.toNat / 16), hexDigit (b.toNat % 16)] := by
  simp only [byteEscape, hexDigits, Nat.mod_eq_of_lt (toNat_div_lt b)]
  rfl

theorem byteEscape_ascii (b : UInt8) : (byteEscape b).IsAscii := by
  have hhigh := hexDigit_ascii (b.toNat / 16) (toNat_div_lt b)
  have hlow := hexDigit_ascii (b.toNat % 16) (Nat.mod_lt _ (by decide))
  rw [byteEscape_eq]
  simp [Text.IsAscii, hhigh, hlow, backslash, letter]

/-- What is shown is UTF-8, whatever the text is. -/
theorem isUtf8_shown (t : Text) : (shown t).IsUtf8 := by
  induction t using Symbol.reading_induction with
  | nil => exact .nil
  | scalar c rest ih =>
      rw [shown_char_append]
      exact (Text.IsUtf8.encode c).append ih
  | raw b rest hlead ih =>
      have hescape : (byteEscape b).IsUtf8 := by
        rw [← List.flatMap_singleton' (byteEscape b)]
        exact .flatMap _ fun d hd => .ascii (byteEscape_ascii b d hd)
      rw [shown_raw hlead]
      exact hescape.append ih

theorem shown_eq_self_iff {t : Text} : shown t = t ↔ t.IsUtf8 := by
  constructor
  · intro h
    rw [← h]
    exact isUtf8_shown t
  · exact shown_of_isUtf8

/-- The byte that four bytes stand for, if they are an escape. -/
def escapedByte? (a x high low : UInt8) : Option UInt8 :=
  if a = backslash ∧ x = letter then
    match digitValue? high, digitValue? low with
    | some high, some low => some (UInt8.ofNat (16 * high + low))
    | _, _ => none
  else none

/-- Text with every escape replaced by the byte that it stands for, from left to right. -/
def unescape : Text → Text
  | a :: x :: high :: low :: rest =>
    match escapedByte? a x high low with
    | some b => b :: unescape rest
    | none => a :: unescape (x :: high :: low :: rest)
  | t => t

theorem escapedByte?_digits (b : UInt8) :
    escapedByte? backslash letter (hexDigit (b.toNat / 16)) (hexDigit (b.toNat % 16))
      = some b := by
  have hhigh := digitValue?_hexDigit (b.toNat / 16) (toNat_div_lt b)
  have hlow := digitValue?_hexDigit (b.toNat % 16) (Nat.mod_lt _ (by decide))
  rw [escapedByte?, if_pos ⟨rfl, rfl⟩, hhigh, hlow]
  simp only [Nat.div_add_mod, UInt8.ofNat_toNat]

theorem unescape_byteEscape (b : UInt8) (rest : Text) :
    unescape (byteEscape b ++ rest) = b :: unescape rest := by
  rw [byteEscape_eq]
  simp only [List.cons_append, List.nil_append, unescape, escapedByte?_digits]

theorem unescape_cons_of_ne {a : UInt8} (h : a ≠ backslash) (rest : Text) :
    unescape (a :: rest) = a :: unescape rest := by
  rcases rest with _ | ⟨x, _ | ⟨high, _ | ⟨low, rest⟩⟩⟩
  · rfl
  · rfl
  · rfl
  · have hnone : escapedByte? a x high low = none := if_neg fun hescape => h hescape.1
    rw [unescape, hnone]

theorem unescape_append_of_not_mem {t : Text} (h : backslash ∉ t) (rest : Text) :
    unescape (t ++ rest) = t ++ unescape rest := by
  induction t with
  | nil => rfl
  | cons a t ih =>
      simp only [List.mem_cons, not_or] at h
      rw [List.cons_append, unescape_cons_of_ne (Ne.symm h.1), ih h.2, List.cons_append]

/-- A text without a backslash is read back from what is shown of it. -/
theorem unescape_shown {t : Text} (h : backslash ∉ t) : unescape (shown t) = t := by
  induction t using Symbol.reading_induction with
  | nil => rfl
  | scalar c rest ih =>
      rw [List.mem_append, not_or] at h
      rw [shown_char_append, unescape_append_of_not_mem h.1, ih h.2]
  | raw b rest hlead ih =>
      simp only [List.mem_cons, not_or] at h
      rw [shown_raw hlead, unescape_byteEscape, ih h.2]

/-- What is shown is UTF-8.  It keeps every character of the text in its place and has a
backslash, the letter and two digits for every other byte, so that it is the text itself
exactly if that is UTF-8, and showing it again changes nothing.  A text without a backslash
is read back, and no other such text is shown alike. -/
theorem shown_faithful :
    (∀ t, (shown t).IsWellFormed) ∧
    (∀ before s after, Utf8Sequence s →
      shown (before ++ s ++ after) = shown before ++ s ++ shown after) ∧
    (∀ before b after, ¬ InSequence before b after → ∃ high low,
      lowerHexDigits[b.toNat / 16]? = some high ∧ lowerHexDigits[b.toNat % 16]? = some low ∧
        shown (before ++ b :: after)
          = shown before ++ [backslash, letter, high, low] ++ shown after) ∧
    (∀ t, shown t = t ↔ t.IsWellFormed) ∧
    (∀ t, shown (shown t) = shown t) ∧
    (∀ t, backslash ∉ t → unescape (shown t) = t) ∧
    ∀ t u, backslash ∉ t → backslash ∉ u → t ≠ u → shown t ≠ shown u := by
  refine ⟨fun t => isUtf8_iff_isWellFormed.mp (isUtf8_shown t),
    fun before s after hs => shown_append_sequence hs before after,
    fun before b after hstray => ?_, fun t => ?_, fun t => shown_of_isUtf8 (isUtf8_shown t),
    fun t ht => unescape_shown ht, fun t u ht hu hne heq => hne ?_⟩
  · have hhigh := getElem?_lowerHexDigits (b.toNat / 16) (toNat_div_lt b)
    have hlow := getElem?_lowerHexDigits (b.toNat % 16) (Nat.mod_lt _ (by decide))
    refine ⟨_, _, hhigh, hlow, ?_⟩
    rw [← byteEscape_eq]
    exact shown_append_stray hstray
  · rw [shown_eq_self_iff, isUtf8_iff_isWellFormed]
  · rw [← unescape_shown ht, heq, unescape_shown hu]

/-- The first two bytes of a sequence of three, between two letters. -/
theorem shown_faithful_truncated :
    Utf8Sequence [0xc3, 0xa9] ∧ ¬ InSequence [0x61] 0xe2 [0x82, 0xc3, 0xa9] ∧
      backslash ∉ ([0x61, 0xe2, 0x82, 0xc3, 0xa9] : Text) ∧
      shown ([0x61, 0xe2, 0x82] ++ [0xc3, 0xa9] ++ [])
        = shown [0x61, 0xe2, 0x82] ++ [0xc3, 0xa9] ++ [] ∧
      (∃ high low, lowerHexDigits[0xe]? = some high ∧ lowerHexDigits[0x2]? = some low ∧
        shown ([0x61] ++ 0xe2 :: [0x82, 0xc3, 0xa9])
          = shown [0x61] ++ [backslash, letter, high, low] ++ shown [0x82, 0xc3, 0xa9]) ∧
      unescape (shown [0x61, 0xe2, 0x82, 0xc3, 0xa9]) = [0x61, 0xe2, 0x82, 0xc3, 0xa9] ∧
      shown [0x61, 0xe2, 0x82, 0xc3, 0xa9] ≠ shown [0x61, 0xe2, 0x82] := by
  have hsequence : Utf8Sequence [0xc3, 0xa9] := .two (by decide) (by decide)
  have hstray : ¬ InSequence [0x61] 0xe2 [0x82, 0xc3, 0xa9] := by
    rintro ⟨left, right, hwhole, hleft, hright⟩
    obtain ⟨lead, tail, hcons, hlead, htail⟩ := hwhole.exists_cons
    cases left with
    | nil =>
        cases hwhole with
        | one ascii => exact absurd ascii (by decide)
        | two lead second => exact absurd lead.2 (by decide)
        | three lead second third =>
            obtain ⟨rfl, hthird⟩ := List.cons_prefix_cons.mp hright
            obtain ⟨rfl, -⟩ := List.cons_prefix_cons.mp hthird
            exact absurd third (by decide)
        | four lead second third fourth => exact absurd lead.1 (by decide)
    | cons first left =>
        rw [List.cons_append, List.cons.injEq] at hcons
        exact absurd (htail 0xe2 (by simp [← hcons.2])) (by decide)
  have hclean : backslash ∉ ([0x61, 0xe2, 0x82, 0xc3, 0xa9] : Text) := by decide
  obtain ⟨-, hkept, hescaped, -, -, hread, hinjective⟩ := shown_faithful
  exact ⟨hsequence, hstray, hclean, hkept _ _ _ hsequence, hescaped _ _ _ hstray, hread _ hclean,
    hinjective _ _ hclean (by decide) (by decide)⟩

end SdkBindings
