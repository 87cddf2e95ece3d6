import SdkBindings.Text

/-!
Text read as UTF-8.  A text is a sequence of symbols: the characters whose
encodings stand in it, and every byte that belongs to no encoding, kept as it is.
Nothing is lost: the bytes of the symbols are the text.
-/

namespace SdkBindings

/-- A character, or a byte that is part of no character. -/
inductive Symbol where
  | scalar (c : Char)
  | raw (b : UInt8)
  deriving DecidableEq, Repr

namespace Symbol

/-- The bytes a symbol stands for. -/
def bytes : Symbol → Text
  | scalar c => String.utf8EncodeChar c
  | raw b => [b]

/-- The number that the payload bits of an encoding would spell, read as far as
its first byte promises.  It is a guess until the encoding is checked. -/
def candidate : Text → Nat
  | [] => 0
  | a :: rest =>
    let tail (i : Nat) : Nat := (rest.getD i 0).toNat % 64
    if a < 0x80 then a.toNat
    else if a < 0xe0 then a.toNat % 32 * 64 + tail 0
    else if a < 0xf0 then a.toNat % 16 * 4096 + tail 0 * 64 + tail 1
    else a.toNat % 8 * 262144 + tail 0 * 4096 + tail 1 * 64 + tail 2

/-- The character whose encoding begins the text, if there is one.  Encoding the
candidate again refuses overlong forms, surrogates and truncated sequences. -/
def leading (t : Text) : Option Char :=
  let c := Char.ofNat (candidate t)
  if String.utf8EncodeChar c <+: t then some c else none

/-- The symbols of a text from a position that lies `skip` bytes inside it. -/
def decodeFrom : Nat → Text → List Symbol
  | _, [] => []
  | skip + 1, _ :: rest => decodeFrom skip rest
  | 0, b :: rest =>
    match leading (b :: rest) with
    | some c => scalar c :: decodeFrom ((String.utf8EncodeChar c).length - 1) rest
    | none => raw b :: decodeFrom 0 rest

/-- The symbols of a text: at each position the character that begins there, or
else one byte. -/
def decode (t : Text) : List Symbol :=
  decodeFrom 0 t

/-- The text that symbols spell. -/
def encode (symbols : List Symbol) : Text :=
  symbols.flatMap bytes

theorem isPrefix_of_leading {t : Text} {c : Char} (h : leading t = some c) :
    String.utf8EncodeChar c <+: t := by
  simp only [leading] at h
  split at h
  · next hp => exact Option.some.inj h ▸ hp
  · simp at h

/-- The guess is right where an encoding stands. -/
theorem candidate_append (c : Char) (rest : Text) :
    candidate (String.utf8EncodeChar c ++ rest) = c.toNat := by
  have hmax : c.toNat < 0x110000 := by
    have := c.valid
    simp only [UInt32.isValidChar, Nat.isValidChar] at this
    show c.val.toNat < _
    omega
  simp only [Char.toNat] at *
  unfold String.utf8EncodeChar
  generalize hv : c.val.toNat = v at *
  simp only []
  split
  · simp only [candidate, List.cons_append, List.nil_append]
    rw [if_pos]
    · simp; omega
    · simp [UInt8.lt_iff_toNat_lt]; omega
  split
  · simp only [candidate, List.cons_append, List.nil_append]
    rw [if_neg, if_pos]
    · simp; omega
    · simp [UInt8.lt_iff_toNat_lt]; omega
    · simp [UInt8.lt_iff_toNat_lt]; omega
  split
  · simp only [candidate, List.cons_append, List.nil_append]
    rw [if_neg, if_neg, if_pos]
    · simp; omega
    · simp [UInt8.lt_iff_toNat_lt]; omega
    · simp [UInt8.lt_iff_toNat_lt]; omega
    · simp [UInt8.lt_iff_toNat_lt]; omega
  · simp only [candidate, List.cons_append, List.nil_append]
    rw [if_neg, if_neg, if_neg]
    · simp; omega
    · simp [UInt8.lt_iff_toNat_lt]; omega
    · simp [UInt8.lt_iff_toNat_lt]; omega
    · simp [UInt8.lt_iff_toNat_lt]; omega

/-- A character that was encoded is read again, whatever follows it. -/
theorem leading_append (c : Char) (rest : Text) :
    leading (String.utf8EncodeChar c ++ rest) = some c := by
  simp [leading, candidate_append]

theorem encode_decodeFrom (skip : Nat) (t : Text) :
    encode (decodeFrom skip t) = t.drop skip := by
  induction t generalizing skip with
  | nil => simp [decodeFrom, encode]
  | cons b rest ih =>
    cases skip with
    | succ skip => simp [decodeFrom, ih]
    | zero =>
      simp only [decodeFrom]
      split
      · next c hc =>
        have hp := isPrefix_of_leading hc
        obtain ⟨tail, htail⟩ := hp
        have hne : String.utf8EncodeChar c ≠ [] := by simp
        obtain ⟨first, others, hcode⟩ := List.exists_cons_of_ne_nil hne
        simp only [encode, List.flatMap_cons, bytes] at ih ⊢
        rw [ih, hcode]
        rw [hcode] at htail
        simp only [List.cons_append, List.cons.injEq] at htail
        obtain ⟨rfl, rfl⟩ := htail
        simp
      · simp only [encode, List.flatMap_cons, bytes] at ih ⊢
        simp [ih]

theorem decodeFrom_eq_decode_drop (skip : Nat) (t : Text) :
    decodeFrom skip t = decode (t.drop skip) := by
  induction t generalizing skip with
  | nil => simp [decode, decodeFrom]
  | cons b rest ih =>
    cases skip with
    | zero => rfl
    | succ skip => simp [decodeFrom, ih]

/-- A character at the head of a text is its first symbol. -/
theorem decode_char_append (c : Char) (rest : Text) :
    decode (String.utf8EncodeChar c ++ rest) = scalar c :: decode rest := by
  have hne : String.utf8EncodeChar c ≠ [] := by simp
  obtain ⟨first, others, hcode⟩ := List.exists_cons_of_ne_nil hne
  have hlead := leading_append c rest
  rw [hcode, List.cons_append] at hlead ⊢
  rw [decode, decodeFrom, hlead]
  simp only
  rw [decodeFrom_eq_decode_drop, hcode]
  simp

/-- Reading loses nothing. -/
@[simp] theorem encode_decode (t : Text) : encode (decode t) = t := by
  simp [decode, encode_decodeFrom]

end Symbol

end SdkBindings
