import SdkBindings.Text

/-!
UTF-8 told by its bytes: which sequences of one to four bytes are a character, without
asking which one.  The bounds on the second byte keep out longer forms of a short
character, surrogates and numbers above the last code point.  Main statements: the
encoding of a character is one of these sequences, and each of them is the encoding of one.
-/

namespace SdkBindings

/-- A byte that stands behind the first one of a sequence, and nowhere else. -/
def IsContinuation (b : UInt8) : Prop :=
  0x80 ≤ b ∧ b < 0xc0

instance : DecidablePred IsContinuation := fun _ => inferInstanceAs (Decidable (_ ∧ _))

theorem isContinuation_iff {b : UInt8} :
    IsContinuation b ↔ 128 ≤ b.toNat ∧ b.toNat < 192 := by
  simp only [IsContinuation, UInt8.lt_iff_toNat_lt, UInt8.le_iff_toNat_le, UInt8.reduceToNat]

/-- The sequences of bytes that are one character. -/
inductive Utf8Sequence : Text → Prop
  | one {a : UInt8} (ascii : a < 0x80) : Utf8Sequence [a]
  | two {a b : UInt8} (lead : 0xc2 ≤ a ∧ a < 0xe0) (second : IsContinuation b) :
    Utf8Sequence [a, b]
  | three {a b c : UInt8} (lead : 0xe0 ≤ a ∧ a < 0xf0) (second : IsContinuation b)
    (third : IsContinuation c) (shortest : a = 0xe0 → 0xa0 ≤ b)
    (noSurrogate : a = 0xed → b < 0xa0) : Utf8Sequence [a, b, c]
  | four {a b c d : UInt8} (lead : 0xf0 ≤ a ∧ a < 0xf5) (second : IsContinuation b)
    (third : IsContinuation c) (fourth : IsContinuation d) (shortest : a = 0xf0 → 0x90 ≤ b)
    (inRange : a = 0xf4 → b < 0x90) : Utf8Sequence [a, b, c, d]

/-- A text that is made of characters, one sequence after the other. -/
def Text.IsWellFormed (t : Text) : Prop :=
  ∃ sequences : List Text, (∀ s ∈ sequences, Utf8Sequence s) ∧ t = sequences.flatten

namespace Utf8Sequence

/-- The first byte is no continuation, and all the others are. -/
theorem exists_cons {s : Text} (h : Utf8Sequence s) : ∃ lead tail, s = lead :: tail ∧
    ¬ IsContinuation lead ∧ ∀ b ∈ tail, IsContinuation b := by
  cases h with
  | one ascii =>
      refine ⟨_, [], rfl, ?_, by simp⟩
      simp only [isContinuation_iff, UInt8.lt_iff_toNat_lt, UInt8.reduceToNat] at ascii ⊢
      omega
  | two lead second =>
      refine ⟨_, [_], rfl, ?_, by simpa using second⟩
      simp only [isContinuation_iff, UInt8.le_iff_toNat_le, UInt8.reduceToNat] at lead ⊢
      omega
  | three lead second third =>
      refine ⟨_, [_, _], rfl, ?_, by simpa using ⟨second, third⟩⟩
      simp only [isContinuation_iff, UInt8.le_iff_toNat_le, UInt8.reduceToNat] at lead ⊢
      omega
  | four lead second third fourth =>
      refine ⟨_, [_, _, _], rfl, ?_, by simpa using ⟨second, third, fourth⟩⟩
      simp only [isContinuation_iff, UInt8.le_iff_toNat_le, UInt8.reduceToNat] at lead ⊢
      omega

/-- Every character has an encoding of one of these forms. -/
theorem of_encode (c : Char) : Utf8Sequence (String.utf8EncodeChar c) := by
  have hvalid : c.val.toNat.isValidChar := c.valid
  unfold String.utf8EncodeChar
  generalize c.val.toNat = n at hvalid ⊢
  simp only [Nat.isValidChar] at hvalid
  have hbyte : ∀ m, (UInt8.ofNat m).toNat = m % 256 := fun m => UInt8.toNat_ofNat
  simp only []
  split
  · refine .one ?_
    simp only [UInt8.lt_iff_toNat_lt, hbyte, UInt8.reduceToNat]
    omega
  split
  · refine .two ?_ ?_ <;>
      simp only [isContinuation_iff, UInt8.lt_iff_toNat_lt, UInt8.le_iff_toNat_le, hbyte,
        UInt8.reduceToNat] <;> omega
  split
  · refine .three ?_ ?_ ?_ ?_ ?_ <;>
      simp only [isContinuation_iff, UInt8.lt_iff_toNat_lt, UInt8.le_iff_toNat_le,
        ← UInt8.toNat_inj, hbyte, UInt8.reduceToNat] <;> omega
  · refine .four ?_ ?_ ?_ ?_ ?_ ?_ <;>
      simp only [isContinuation_iff, UInt8.lt_iff_toNat_lt, UInt8.le_iff_toNat_le,
        ← UInt8.toNat_inj, hbyte, UInt8.reduceToNat] <;> omega

end Utf8Sequence

/-- The encoding of a character by its number. -/
theorem encode_ofNat {n : Nat} (h : n.isValidChar) :
    String.utf8EncodeChar (Char.ofNat n) =
      if n ≤ 127 then [UInt8.ofNat n]
      else if n ≤ 2047 then [UInt8.ofNat (n / 64 % 32 + 192), UInt8.ofNat (n % 64 + 128)]
      else if n ≤ 65535 then
        [UInt8.ofNat (n / 4096 % 16 + 224), UInt8.ofNat (n / 64 % 64 + 128),
          UInt8.ofNat (n % 64 + 128)]
      else
        [UInt8.ofNat (n / 262144 % 8 + 240), UInt8.ofNat (n / 4096 % 64 + 128),
          UInt8.ofNat (n / 64 % 64 + 128), UInt8.ofNat (n % 64 + 128)] := by
  have hval : (Char.ofNat n).val.toNat = n := by
    rw [Char.ofNat, dif_pos h]
    rfl
  simp only [String.utf8EncodeChar, hval]

namespace Utf8Sequence

/-- The number that the payload bits spell is a code point, and has this encoding. -/
theorem exists_encode {s : Text} (h : Utf8Sequence s) : ∃ c, String.utf8EncodeChar c = s := by
  have hbyte : ∀ {m : Nat} {b : UInt8}, m = b.toNat → UInt8.ofNat m = b := by
    rintro _ b rfl
    exact UInt8.ofNat_toNat
  cases h with
  | @one a ascii =>
      simp only [UInt8.lt_iff_toNat_lt, UInt8.reduceToNat] at ascii
      refine ⟨Char.ofNat a.toNat, ?_⟩
      rw [encode_ofNat (.inl (by omega)), if_pos (by omega), UInt8.ofNat_toNat]
  | @two a b lead second =>
      simp only [isContinuation_iff, UInt8.lt_iff_toNat_lt, UInt8.le_iff_toNat_le,
        UInt8.reduceToNat] at lead second
      refine ⟨Char.ofNat (a.toNat % 32 * 64 + b.toNat % 64), ?_⟩
      rw [encode_ofNat (.inl (by omega)), if_neg (by omega), if_pos (by omega),
        hbyte (b := a) (by omega), hbyte (b := b) (by omega)]
  | @three a b c lead second third shortest noSurrogate =>
      simp only [isContinuation_iff, UInt8.lt_iff_toNat_lt, UInt8.le_iff_toNat_le,
        ← UInt8.toNat_inj, UInt8.reduceToNat] at lead second third shortest noSurrogate
      have hvalid : (a.toNat % 16 * 4096 + b.toNat % 64 * 64 + c.toNat % 64).isValidChar := by
        simp only [Nat.isValidChar]
        omega
      refine ⟨Char.ofNat (a.toNat % 16 * 4096 + b.toNat % 64 * 64 + c.toNat % 64), ?_⟩
      rw [encode_ofNat hvalid, if_neg (by omega), if_neg (by omega), if_pos (by omega),
        hbyte (b := a) (by omega), hbyte (b := b) (by omega), hbyte (b := c) (by omega)]
  | @four a b c d lead second third fourth shortest inRange =>
      simp only [isContinuation_iff, UInt8.lt_iff_toNat_lt, UInt8.le_iff_toNat_le,
        ← UInt8.toNat_inj, UInt8.reduceToNat] at lead second third fourth shortest inRange
      have hvalid : (a.toNat % 8 * 262144 + b.toNat % 64 * 4096 + c.toNat % 64 * 64
          + d.toNat % 64).isValidChar := by
        simp only [Nat.isValidChar]
        omega
      refine ⟨Char.ofNat (a.toNat % 8 * 262144 + b.toNat % 64 * 4096 + c.toNat % 64 * 64
        + d.toNat % 64), ?_⟩
      rw [encode_ofNat hvalid, if_neg (by omega), if_neg (by omega), if_neg (by omega),
        hbyte (b := a) (by omega), hbyte (b := b) (by omega), hbyte (b := c) (by omega),
        hbyte (b := d) (by omega)]

end Utf8Sequence

end SdkBindings
