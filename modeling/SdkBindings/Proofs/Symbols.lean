import SdkBindings.Proofs.Utf8Sequence
import SdkBindings.Shown

/-!
Text is read and shown piece by piece.  Two texts put together are read as each of them
on its own, unless a character stands across the border between them, and none does
before a byte that can begin a character.  Main statements: text with a byte of ASCII in
it is shown as the text before it, the byte and the text behind, and a text that is UTF-8
is shown as it is.
-/

namespace SdkBindings

namespace Symbol

/-- An encoding is one byte of ASCII, or it holds none. -/
theorem encode_cases (c : Char) :
    (∃ b < 0x80, String.utf8EncodeChar c = [b]) ∨ ∀ b ∈ String.utf8EncodeChar c, 0x80 ≤ b := by
  have hsequence := Utf8Sequence.of_encode c
  generalize String.utf8EncodeChar c = s at hsequence ⊢
  cases hsequence with
  | one ascii => exact .inl ⟨_, ascii, rfl⟩
  | two lead second =>
      have hfirst := UInt8.le_trans (by decide : (0x80 : UInt8) ≤ 0xc2) lead.1
      exact .inr (by simp [hfirst, second.1])
  | three lead second third =>
      have hfirst := UInt8.le_trans (by decide : (0x80 : UInt8) ≤ 0xe0) lead.1
      exact .inr (by simp [hfirst, second.1, third.1])
  | four lead second third fourth =>
      have hfirst := UInt8.le_trans (by decide : (0x80 : UInt8) ≤ 0xf0) lead.1
      exact .inr (by simp [hfirst, second.1, third.1, fourth.1])

/-- A character at the head of a text is the one that is read there. -/
theorem leading_of_isPrefix {t : Text} {c : Char} (h : String.utf8EncodeChar c <+: t) :
    leading t = some c := by
  obtain ⟨rest, rfl⟩ := h
  exact leading_append c rest

/-- A byte at which no character begins is a symbol of its own. -/
theorem decode_raw {b : UInt8} {rest : Text} (h : leading (b :: rest) = none) :
    decode (b :: rest) = raw b :: decode rest := by
  rw [decode, decodeFrom, h]
  rfl

/-- Reading takes one character at a time, or one byte at which no character begins. -/
theorem reading_induction {motive : Text → Prop} (nil : motive [])
    (scalar : ∀ c rest, motive rest → motive (String.utf8EncodeChar c ++ rest))
    (raw : ∀ b rest, leading (b :: rest) = none → motive rest → motive (b :: rest)) (t : Text) :
    motive t := by
  induction hn : t.length using Nat.strongRecOn generalizing t with
  | ind n ih =>
      cases t with
      | nil => exact nil
      | cons b rest =>
          cases hlead : leading (b :: rest) with
          | none => exact raw b rest hlead (ih rest.length (by simp [← hn]) rest rfl)
          | some c =>
              obtain ⟨behind, hbehind⟩ := isPrefix_of_leading hlead
              have hlength : behind.length < n := by
                have hpos : 0 < (String.utf8EncodeChar c).length :=
                  List.length_pos_iff.mpr (by simp)
                rw [← hn, ← hbehind, List.length_append]
                omega
              exact hbehind ▸ scalar c behind (ih _ hlength behind rfl)

/-- A character stands across the border between two texts. -/
def Straddles (t rest : Text) : Prop :=
  ∃ c left right, String.utf8EncodeChar c = left ++ right ∧ left ≠ [] ∧ right ≠ [] ∧
    left <:+ t ∧ right <+: rest

theorem Straddles.of_append {t rest : Text} (h : Straddles t rest) (before : Text) :
    Straddles (before ++ t) rest := by
  obtain ⟨c, left, right, hcode, hleft, hright, hsuffix, hprefix⟩ := h
  exact ⟨c, left, right, hcode, hleft, hright, hsuffix.trans (List.suffix_append ..), hprefix⟩

theorem not_straddles_nil (t : Text) : ¬ Straddles t [] := by
  rintro ⟨c, left, right, -, -, hright, -, hprefix⟩
  exact hright (List.prefix_nil.mp hprefix)

/-- A byte that can begin a character ends what stands before it. -/
theorem not_straddles_cons {x : UInt8} (hx : ¬ IsContinuation x) (t rest : Text) :
    ¬ Straddles t (x :: rest) := by
  rintro ⟨c, left, right, hcode, hleft, hright, -, hprefix⟩
  obtain ⟨lead, tail, hsequence, -, htail⟩ := (Utf8Sequence.of_encode c).exists_cons
  obtain ⟨first, left, rfl⟩ := List.exists_cons_of_ne_nil hleft
  obtain ⟨y, right, rfl⟩ := List.exists_cons_of_ne_nil hright
  obtain ⟨rfl, -⟩ := List.cons_prefix_cons.mp hprefix
  rw [hsequence, List.cons_append, List.cons.injEq] at hcode
  exact hx (htail y (by simp [hcode.2]))

/-- The symbols of two texts are those of the one and those of the other. -/
theorem decode_append {t rest : Text} (h : ¬ Straddles t rest) :
    decode (t ++ rest) = decode t ++ decode rest := by
  induction t using reading_induction with
  | nil => rfl
  | scalar c t ih =>
      rw [List.append_assoc, decode_char_append, decode_char_append, List.cons_append,
        ih fun hstraddles => h (hstraddles.of_append _)]
  | raw b t hlead ih =>
      have hwhole : leading (b :: t ++ rest) = none := by
        cases hwhole : leading (b :: t ++ rest) with
        | none => rfl
        | some c =>
            -- The character ends in the first text, where it would be read, or goes across.
            obtain ⟨behind, hbehind⟩ := isPrefix_of_leading hwhole
            rcases List.append_eq_append_iff.mp hbehind with
              ⟨others, hinside, -⟩ | ⟨right, hcode, hrest⟩
            · rw [leading_of_isPrefix ⟨others, hinside.symm⟩] at hlead
              contradiction
            · cases right with
              | nil =>
                  rw [List.append_nil] at hcode
                  rw [← hcode, leading_of_isPrefix List.prefix_rfl] at hlead
                  contradiction
              | cons y right =>
                  have hright : y :: right <+: rest := ⟨_, hrest.symm⟩
                  exact absurd ⟨c, _, _, hcode, by simp, by simp, List.suffix_rfl, hright⟩ h
      rw [List.cons_append] at hwhole ⊢
      rw [decode_raw hwhole, decode_raw hlead, List.cons_append,
        ih fun hstraddles => h (hstraddles.of_append [b])]

theorem not_isContinuation_of_ascii {b : UInt8} (hb : b < 0x80) : ¬ IsContinuation b :=
  fun h => absurd h.1 (UInt8.not_le.mpr hb)

theorem encode_ascii {b : UInt8} (hb : b < 0x80) :
    String.utf8EncodeChar (Char.ofNat b.toNat) = [b] := by
  have hlt : b.toNat < 0x80 := UInt8.lt_iff_toNat_lt.mp hb
  rw [encode_ofNat (.inl (by omega)), if_pos (by omega), UInt8.ofNat_toNat]

/-- A byte at which no character begins is no byte of ASCII. -/
theorem le_of_leading_eq_none {b : UInt8} {rest : Text} (h : leading (b :: rest) = none) :
    0x80 ≤ b := by
  refine UInt8.not_lt.mp fun hb => ?_
  have hread := leading_append (Char.ofNat b.toNat) rest
  rw [encode_ascii hb, List.singleton_append, h] at hread
  contradiction

/-- Two characters with one encoding are the same. -/
theorem encode_injective {c d : Char} (h : String.utf8EncodeChar c = String.utf8EncodeChar d) :
    c = d := by
  have hread := leading_append c []
  rw [h, leading_append] at hread
  exact (Option.some.inj hread).symm

/-- A byte of ASCII stands in the encoding of its own character only. -/
theorem not_mem_encode {b : UInt8} (hb : b < 0x80) {c d : Char}
    (hcode : String.utf8EncodeChar d = [b]) (hne : c ≠ d) : b ∉ String.utf8EncodeChar c := by
  intro hmem
  rcases encode_cases c with ⟨e, -, hsingle⟩ | hhigh
  · rw [hsingle, List.mem_singleton] at hmem
    subst hmem
    exact hne (encode_injective (hsingle.trans hcode.symm))
  · exact absurd (hhigh b hmem) (UInt8.not_le.mpr hb)

end Symbol

/-- A character is shown as it is, -/
theorem shown_char_append (c : Char) (rest : Text) :
    shown (String.utf8EncodeChar c ++ rest) = String.utf8EncodeChar c ++ shown rest := by
  rw [shown, Symbol.decode_char_append]
  rfl

/-- and a byte at which none begins by its escape. -/
theorem shown_raw {b : UInt8} {rest : Text} (h : Symbol.leading (b :: rest) = none) :
    shown (b :: rest) = byteEscape b ++ shown rest := by
  rw [shown, Symbol.decode_raw h]
  rfl

/-- Two texts are shown as each of them on its own. -/
theorem shown_append {t rest : Text} (h : ¬ Symbol.Straddles t rest) :
    shown (t ++ rest) = shown t ++ shown rest := by
  rw [shown, Symbol.decode_append h, List.flatMap_append]
  rfl

/-- A text of ASCII, as the words of the program are. -/
def Text.IsAscii (t : Text) : Prop :=
  ∀ b ∈ t, b < 0x80

instance : DecidablePred Text.IsAscii :=
  fun t => decidable_of_iff (t.all (· < 0x80) = true) (by simp [Text.IsAscii])

theorem Text.IsAscii.append {t rest : Text} : IsAscii t → IsAscii rest → IsAscii (t ++ rest) :=
  fun h hrest => List.forall_mem_append.mpr ⟨h, hrest⟩

theorem shown_ascii {t : Text} (h : t.IsAscii) (rest : Text) :
    shown (t ++ rest) = t ++ shown rest := by
  induction t with
  | nil => rfl
  | cons b t ih =>
      have hchar := shown_char_append (Char.ofNat b.toNat) (t ++ rest)
      rw [Symbol.encode_ascii (h b (List.mem_cons_self ..))] at hchar
      rw [List.cons_append, List.cons_append, ← ih fun b hb => h b (List.mem_cons_of_mem _ hb)]
      exact hchar

/-- A byte of ASCII is shown as it is, between the texts on both of its sides. -/
theorem shown_append_ascii {b : UInt8} (hb : b < 0x80) (t rest : Text) :
    shown (t ++ b :: rest) = shown t ++ b :: shown rest := by
  have hlead := Symbol.not_isContinuation_of_ascii hb
  rw [shown_append (Symbol.not_straddles_cons hlead t rest)]
  exact congrArg _ (shown_ascii (List.forall_mem_singleton.mpr hb) rest)

/-- A text that is read as characters only. -/
def Text.IsUtf8 (t : Text) : Prop :=
  ∃ s : String, t = Text.ofString s

namespace Text.IsUtf8

theorem ofString (s : String) : IsUtf8 (Text.ofString s) := ⟨s, rfl⟩

theorem nil : IsUtf8 [] := ofString ""

theorem encode (c : Char) : IsUtf8 (String.utf8EncodeChar c) :=
  ⟨String.ofList [c], by simp [Text.ofString]⟩

theorem ascii {b : UInt8} (hb : b < 0x80) : IsUtf8 [b] :=
  Symbol.encode_ascii hb ▸ encode (Char.ofNat b.toNat)

theorem append {t rest : Text} : IsUtf8 t → IsUtf8 rest → IsUtf8 (t ++ rest) := by
  rintro ⟨s, rfl⟩ ⟨s', rfl⟩
  exact ⟨s ++ s', by simp [Text.ofString]⟩

theorem flatMap {α : Type} {f : α → Text} (items : List α) (h : ∀ item ∈ items, IsUtf8 (f item)) :
    IsUtf8 (items.flatMap f) := by
  induction items with
  | nil => exact nil
  | cons item items ih =>
      rw [List.flatMap_cons]
      exact (h item (List.mem_cons_self ..)).append
        (ih fun other hother => h other (List.mem_cons_of_mem _ hother))

end Text.IsUtf8

/-- There is nothing to escape in a text that is UTF-8. -/
theorem shown_of_isUtf8 {t : Text} (h : t.IsUtf8) : shown t = t := by
  obtain ⟨s, rfl⟩ := h
  unfold Text.ofString
  generalize s.toList = chars
  induction chars with
  | nil => rfl
  | cons c chars ih => rw [List.flatMap_cons, shown_char_append, ih]

end SdkBindings
