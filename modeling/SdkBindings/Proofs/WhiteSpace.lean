import Mathlib.Data.List.DropRight
import SdkBindings.Blank
import SdkBindings.Proofs.Symbols

/-!
White space around a text, told by its bytes.  A text is white space if its characters
are, so that a stray byte never is, nor a byte that another character ends with.  Main
statements: stripping takes white space off the two ends of a text and leaves none there,
and no other text stands in it like this between white space.
-/

namespace SdkBindings

/-- The characters of white space by their code points: the controls that move the cursor,
the information separators and the blanks of every width. -/
def IsWhiteSpace (c : Char) : Prop :=
  0x09 ≤ c.toNat ∧ c.toNat ≤ 0x0d ∨ 0x1c ≤ c.toNat ∧ c.toNat ≤ 0x20 ∨ c.toNat = 0x85 ∨
    c.toNat = 0xa0 ∨ c.toNat = 0x1680 ∨ 0x2000 ≤ c.toNat ∧ c.toNat ≤ 0x200a ∨
      c.toNat = 0x2028 ∨ c.toNat = 0x2029 ∨ c.toNat = 0x202f ∨ c.toNat = 0x205f ∨
        c.toNat = 0x3000

/-- A text of white space only. -/
def Text.IsBlank (t : Text) : Prop :=
  ∃ s : List Char, (∀ c ∈ s, IsWhiteSpace c) ∧ t = s.flatMap String.utf8EncodeChar

/-- A text that neither begins nor ends with white space. -/
def Text.IsBare (t : Text) : Prop :=
  ∀ c, IsWhiteSpace c → ¬ String.utf8EncodeChar c <+: t ∧ ¬ String.utf8EncodeChar c <:+ t

namespace Symbol

theorem isBlank_scalar_iff {c : Char} : (scalar c).isBlank = true ↔ IsWhiteSpace c := by
  simp only [isBlank, whiteSpace, IsWhiteSpace, List.contains_eq_mem, List.mem_cons,
    List.not_mem_nil, or_false, decide_eq_true_eq]
  omega

/-- A symbol of white space is a character of white space, never a stray byte. -/
theorem exists_char {symbol : Symbol} (h : symbol.isBlank = true) :
    ∃ c, IsWhiteSpace c ∧ symbol = scalar c := by
  cases symbol with
  | scalar c => exact ⟨c, isBlank_scalar_iff.mp h, rfl⟩
  | raw b => simp [isBlank] at h

theorem exists_chars {symbols : List Symbol} (h : ∀ symbol ∈ symbols, symbol.isBlank = true) :
    ∃ s : List Char, (∀ c ∈ s, IsWhiteSpace c) ∧ symbols = s.map scalar := by
  induction symbols with
  | nil => exact ⟨[], by simp⟩
  | cons symbol symbols ih =>
      obtain ⟨s, hs, rfl⟩ := ih fun other hother => h other (List.mem_cons_of_mem _ hother)
      obtain ⟨c, hc, rfl⟩ := exists_char (h symbol (List.mem_cons_self ..))
      exact ⟨c :: s, List.forall_mem_cons.mpr ⟨hc, hs⟩, rfl⟩

theorem isBlank_of_mem_map {s : List Char} (h : ∀ c ∈ s, IsWhiteSpace c) :
    ∀ symbol ∈ s.map scalar, symbol.isBlank = true := by
  intro symbol hsymbol
  obtain ⟨c, hc, rfl⟩ := List.mem_map.mp hsymbol
  exact isBlank_scalar_iff.mpr (h c hc)

theorem encode_append (symbols others : List Symbol) :
    encode (symbols ++ others) = encode symbols ++ encode others :=
  List.flatMap_append

theorem encode_map_scalar (s : List Char) :
    encode (s.map scalar) = s.flatMap String.utf8EncodeChar := by
  rw [encode, List.flatMap_map]
  rfl

/-- Characters are read again before a text, -/
theorem decode_chars_append (s : List Char) (rest : Text) :
    decode (s.flatMap String.utf8EncodeChar ++ rest) = s.map scalar ++ decode rest := by
  induction s with
  | nil => rfl
  | cons c s ih =>
      rw [List.flatMap_cons, List.append_assoc, decode_char_append, ih, List.map_cons,
        List.cons_append]

/-- and behind a text, since their first byte begins a character. -/
theorem decode_append_chars (t : Text) (s : List Char) :
    decode (t ++ s.flatMap String.utf8EncodeChar) = decode t ++ s.map scalar := by
  have hborder : ¬ Straddles t (s.flatMap String.utf8EncodeChar) := by
    cases s with
    | nil => exact not_straddles_nil t
    | cons c s =>
        obtain ⟨lead, tail, hcode, hlead, -⟩ := (Utf8Sequence.of_encode c).exists_cons
        rw [List.flatMap_cons, hcode]
        exact not_straddles_cons hlead t _
  have hchars := decode_chars_append s []
  rw [List.append_nil] at hchars
  rw [decode_append hborder, hchars]
  simp [decode, decodeFrom]

/-- Symbols of which neither the first nor the last is white space. -/
structure IsTrimmed (symbols : List Symbol) : Prop where
  first : ∀ {symbol rest}, symbols = symbol :: rest → symbol.isBlank = false
  last : ∀ {rest symbol}, symbols = rest ++ [symbol] → symbol.isBlank = false

theorem trim_eq (symbols : List Symbol) :
    trim symbols = (symbols.dropWhile isBlank).rdropWhile isBlank := rfl

theorem isTrimmed_trim (symbols : List Symbol) : IsTrimmed (trim symbols) where
  first := by
    intro symbol rest htrim
    obtain ⟨after, hafter⟩ := List.rdropWhile_prefix isBlank (symbols.dropWhile isBlank)
    have hfirst := List.head?_dropWhile_not isBlank symbols
    rw [← hafter, ← trim_eq, htrim] at hfirst
    exact hfirst
  last := by
    intro rest symbol htrim
    rw [trim_eq] at htrim
    have hlast := List.rdropWhile_last_not isBlank (symbols.dropWhile isBlank) (by simp [htrim])
    simpa [htrim] using hlast

/-- What trimming leaves away are characters of white space. -/
theorem exists_trim (symbols : List Symbol) : ∃ s s' : List Char,
    (∀ c ∈ s, IsWhiteSpace c) ∧ (∀ c ∈ s', IsWhiteSpace c) ∧
      symbols = s.map scalar ++ trim symbols ++ s'.map scalar := by
  have hbefore : ∀ symbol ∈ symbols.takeWhile isBlank, symbol.isBlank = true :=
    fun symbol => List.mem_takeWhile_imp
  have hafter : ∀ symbol ∈ (symbols.dropWhile isBlank).rtakeWhile isBlank,
      symbol.isBlank = true :=
    fun symbol => List.mem_rtakeWhile_imp
  obtain ⟨s, hs, hchars⟩ := exists_chars hbefore
  obtain ⟨s', hs', hchars'⟩ := exists_chars hafter
  refine ⟨s, s', hs, hs', ?_⟩
  rw [← hchars, ← hchars', trim_eq, List.append_assoc, List.rdropWhile_append_rtakeWhile,
    List.takeWhile_append_dropWhile]

/-- Trimming finds what stands between white space. -/
theorem IsTrimmed.trim_append {before middle after : List Symbol} (h : IsTrimmed middle)
    (hbefore : ∀ symbol ∈ before, symbol.isBlank = true)
    (hafter : ∀ symbol ∈ after, symbol.isBlank = true) :
    trim (before ++ middle ++ after) = middle := by
  rw [trim_eq, List.append_assoc, List.dropWhile_append_of_pos hbefore]
  cases middle with
  | nil =>
      -- The white space behind is in front, too, and goes with the first pass.
      rw [List.nil_append, List.dropWhile_eq_nil_iff.mpr hafter]
      rfl
  | cons symbol rest =>
      have hfirst : ¬ symbol.isBlank = true := by simp [h.first rfl]
      have hlast : (symbol :: rest).rdropWhile isBlank = symbol :: rest := by
        refine List.rdropWhile_eq_self_iff.mpr fun hne => ?_
        rw [h.last (List.dropLast_append_getLast hne).symm]
        decide
      rw [List.cons_append, List.dropWhile_cons_of_neg hfirst, ← List.cons_append,
        List.rdropWhile, List.reverse_append, List.dropWhile_append_of_pos (by simpa using hafter)]
      exact hlast

/-- White space at the ends of a text is white space at the ends of its symbols. -/
theorem isTrimmed_decode_iff {t : Text} : IsTrimmed (decode t) ↔ t.IsBare := by
  constructor
  · intro h c hc
    have hblank := isBlank_scalar_iff.mpr hc
    constructor
    · rintro ⟨rest, rfl⟩
      rw [h.first (decode_char_append c rest)] at hblank
      contradiction
    · rintro ⟨before, rfl⟩
      have hlast := decode_append_chars before [c]
      rw [List.flatMap_singleton] at hlast
      rw [h.last hlast] at hblank
      contradiction
  · intro h
    constructor
    · intro symbol rest hdecode
      refine Bool.eq_false_iff.mpr fun hblank => ?_
      obtain ⟨c, hc, rfl⟩ := exists_char hblank
      refine (h c hc).1 ⟨encode rest, ?_⟩
      rw [← encode_decode t, hdecode]
      rfl
    · intro rest symbol hdecode
      refine Bool.eq_false_iff.mpr fun hblank => ?_
      obtain ⟨c, hc, rfl⟩ := exists_char hblank
      refine (h c hc).2 ⟨encode rest, ?_⟩
      rw [← encode_decode t, hdecode, encode_append]
      simp [encode, bytes]

end Symbol

namespace Text

theorem IsBlank.nil : IsBlank [] := ⟨[], by simp⟩

theorem IsBlank.append {t rest : Text} : IsBlank t → IsBlank rest → IsBlank (t ++ rest) := by
  rintro ⟨s, hs, rfl⟩ ⟨s', hs', rfl⟩
  refine ⟨s ++ s', fun c hc => ?_, List.flatMap_append.symm⟩
  exact (List.mem_append.mp hc).elim (hs c) (hs' c)

theorem IsBare.nil : IsBare [] := by
  intro c hc
  simp

/-- A text is what is left of it between white space, and so are its symbols. -/
theorem exists_chars_strip (t : Text) : ∃ s s' : List Char,
    (∀ c ∈ s, IsWhiteSpace c) ∧ (∀ c ∈ s', IsWhiteSpace c) ∧
      t = s.flatMap String.utf8EncodeChar ++ t.strip ++ s'.flatMap String.utf8EncodeChar ∧
      Symbol.decode t
        = s.map .scalar ++ Symbol.trim (Symbol.decode t) ++ s'.map .scalar := by
  obtain ⟨s, s', hs, hs', htrim⟩ := Symbol.exists_trim (Symbol.decode t)
  refine ⟨s, s', hs, hs', ?_, htrim⟩
  calc t = Symbol.encode (Symbol.decode t) := (Symbol.encode_decode t).symm
    _ = Symbol.encode (s.map .scalar ++ Symbol.trim (Symbol.decode t) ++ s'.map .scalar) :=
      congrArg _ htrim
    _ = _ := by
      rw [Symbol.encode_append, Symbol.encode_append, Symbol.encode_map_scalar,
        Symbol.encode_map_scalar, strip]

/-- What is stripped off is white space. -/
theorem exists_strip (t : Text) :
    ∃ before after, IsBlank before ∧ IsBlank after ∧ t = before ++ t.strip ++ after := by
  obtain ⟨s, s', hs, hs', hwhole, -⟩ := exists_chars_strip t
  exact ⟨_, _, ⟨s, hs, rfl⟩, ⟨s', hs', rfl⟩, hwhole⟩

/-- What is left is read as it was read before. -/
theorem decode_strip (t : Text) : Symbol.decode t.strip = Symbol.trim (Symbol.decode t) := by
  obtain ⟨s, s', -, -, hwhole, htrim⟩ := exists_chars_strip t
  have hread : Symbol.decode t = s.map .scalar ++ Symbol.decode t.strip ++ s'.map .scalar := by
    rw [← Symbol.decode_chars_append, ← Symbol.decode_append_chars, ← hwhole]
  rw [htrim] at hread
  simpa using hread.symm

theorem isBare_strip (t : Text) : IsBare t.strip := by
  rw [← Symbol.isTrimmed_decode_iff, decode_strip]
  exact Symbol.isTrimmed_trim _

/-- Stripping finds what stands between white space. -/
theorem strip_append {before name after : Text} (hbefore : IsBlank before) (hname : IsBare name)
    (hafter : IsBlank after) : (before ++ name ++ after).strip = name := by
  obtain ⟨s, hs, rfl⟩ := hbefore
  obtain ⟨s', hs', rfl⟩ := hafter
  have htrimmed := Symbol.isTrimmed_decode_iff.mpr hname
  rw [strip, Symbol.decode_append_chars, Symbol.decode_chars_append,
    htrimmed.trim_append (Symbol.isBlank_of_mem_map hs) (Symbol.isBlank_of_mem_map hs'),
    Symbol.encode_decode]

theorem strip_eq_self_iff {t : Text} : t.strip = t ↔ IsBare t := by
  constructor
  · intro h
    rw [← h]
    exact isBare_strip t
  · intro h
    simpa using strip_append .nil h .nil

/-- Nothing is left exactly of white space. -/
theorem strip_eq_nil_iff {t : Text} : t.strip = [] ↔ IsBlank t := by
  constructor
  · intro h
    obtain ⟨before, after, hbefore, hafter, hwhole⟩ := exists_strip t
    rw [hwhole, h, List.append_nil]
    exact hbefore.append hafter
  · intro h
    simpa using strip_append h .nil .nil

instance : DecidablePred IsBlank := fun _ => decidable_of_iff _ strip_eq_nil_iff

instance : DecidablePred IsBare := fun _ => decidable_of_iff _ strip_eq_self_iff

end Text

end SdkBindings
