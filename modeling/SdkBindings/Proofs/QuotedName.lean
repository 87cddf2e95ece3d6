import Mathlib.Algebra.GroupWithZero.Nat
import SdkBindings.Proofs.StrayBytes
import SdkBindings.Quoted

/-!
Quoted names read back.  The first byte is the quote; up to the next one a backslash takes
from the bytes behind it what they mean elsewhere, and a number stands for a character or
for a stray byte.  Main statement: a quoted name is read back, byte by byte.
-/

namespace SdkBindings

/-- What the next byte of a quoted name means. -/
inductive Unquoting where
  | plain
  | behindBackslash
  /-- A digit of a number, with so many left. -/
  | number (left value : Nat)
  | closed
  | malformed
  deriving DecidableEq, Repr

/-- A reader in the middle of a quoted name: how it is quoted, what has been read of it, and
what comes next. -/
structure NameReader where
  quote : UInt8
  name : Text
  mode : Unquoting
  deriving DecidableEq, Repr

namespace NameReader

def singleQuote : UInt8 := 39

def doubleQuote : UInt8 := 34

/-- The byte that a backslash and another byte stand for. -/
def escaped? (b : UInt8) : Option UInt8 :=
  if b = Escape.backslash ∨ b = singleQuote ∨ b = doubleQuote then some b
  else if b = 116 then some 9
  else if b = 110 then some Text.newline
  else if b = 114 then some 13
  else none

/-- How many digits a number has behind a backslash and a letter. -/
def width? (letter : UInt8) : Option Nat :=
  if letter = 120 then some 2
  else if letter = 117 then some 4
  else if letter = 85 then some 8
  else none

/-- What a number stands for: the surrogates at the end of the lower half for the bytes that
belong to no character, and every other number for its character. -/
def codePoint (n : Nat) : Text :=
  if 0xdc80 ≤ n ∧ n ≤ 0xdcff then [UInt8.ofNat (n - 0xdc00)]
  else String.utf8EncodeChar (Char.ofNat n)

/-- Reads one byte. -/
def step (reader : NameReader) (b : UInt8) : NameReader :=
  match reader.mode with
  | .plain =>
    if b = reader.quote then { reader with mode := .closed }
    else if b = Escape.backslash then { reader with mode := .behindBackslash }
    else { reader with name := reader.name ++ [b] }
  | .behindBackslash =>
    match width? b with
    | some width => { reader with mode := .number width 0 }
    | none =>
      match escaped? b with
      | some c => { reader with name := reader.name ++ [c], mode := .plain }
      | none => { reader with mode := .malformed }
  | .number left value =>
    match digitValue? b with
    | some digit =>
      if left ≤ 1 then
        { reader with name := reader.name ++ codePoint (16 * value + digit), mode := .plain }
      else { reader with mode := .number (left - 1) (16 * value + digit) }
    | none => { reader with mode := .malformed }
  | .closed | .malformed => { reader with mode := .malformed }

/-- Reads a text byte by byte. -/
def run (reader : NameReader) (t : Text) : NameReader :=
  t.foldl step reader

@[simp] theorem run_nil (reader : NameReader) : reader.run [] = reader := rfl

@[simp] theorem run_cons (reader : NameReader) (b : UInt8) (t : Text) :
    reader.run (b :: t) = (reader.step b).run t := rfl

@[simp] theorem run_append (reader : NameReader) (t rest : Text) :
    reader.run (t ++ rest) = (reader.run t).run rest :=
  List.foldl_append

/-- The name, if its quotes are closed and nothing stands behind them. -/
def finish (reader : NameReader) : Option Text :=
  if reader.mode = .closed then some reader.name else none

end NameReader

/-- The name in a pair of quotes. -/
def readQuoted : Text → Option Text
  | [] => none
  | quote :: rest =>
    if quote = NameReader.singleQuote ∨ quote = NameReader.doubleQuote then
      (NameReader.run ⟨quote, [], .plain⟩ rest).finish
    else none

namespace NameReader

variable {quote : UInt8}

/-- Bytes without a meaning of their own are read as they are. -/
theorem run_plain {t : Text} (h : ∀ b ∈ t, b ≠ quote ∧ b ≠ Escape.backslash) (name : Text) :
    run ⟨quote, name, .plain⟩ t = ⟨quote, name ++ t, .plain⟩ := by
  induction t generalizing name with
  | nil => simp
  | cons b t ih =>
      obtain ⟨⟨hquote, hbackslash⟩, hrest⟩ := List.forall_mem_cons.mp h
      have hstep : step ⟨quote, name, .plain⟩ b = ⟨quote, name ++ [b], .plain⟩ := by
        rw [step]
        simp only
        rw [if_neg hquote, if_neg hbackslash]
      rw [run_cons, hstep, ih hrest]
      simp

/-- A digit before the last one. -/
theorem step_digit (name : Text) (left value : Nat) {n : Nat} (h : n < 16) :
    step ⟨quote, name, .number (left + 2) value⟩ (hexDigit n) =
      ⟨quote, name, .number (left + 1) (16 * value + n)⟩ := by
  rw [step]
  simp [digitValue?_hexDigit n h]

/-- The last digit. -/
theorem step_last_digit (name : Text) (value : Nat) {n : Nat} (h : n < 16) :
    step ⟨quote, name, .number 1 value⟩ (hexDigit n) =
      ⟨quote, name ++ codePoint (16 * value + n), .plain⟩ := by
  rw [step]
  simp [digitValue?_hexDigit n h]

/-- The digits before the last one. -/
theorem run_hexDigits (name : Text) (width left value n : Nat) :
    run ⟨quote, name, .number (width + left + 1) value⟩ (hexDigits width n) =
      ⟨quote, name, .number (left + 1) (16 ^ width * value + n % 16 ^ width)⟩ := by
  induction width generalizing left n with
  | zero => simp [hexDigits, Nat.mod_one]
  | succ width ih =>
      have hlast : n % 16 < 16 := Nat.mod_lt _ (by decide)
      have hwidth : width + 1 + left + 1 = width + (left + 1) + 1 := by omega
      have hvalue : 16 * (16 ^ width * value + n / 16 % 16 ^ width) + n % 16 =
          16 ^ (width + 1) * value + n % 16 ^ (width + 1) := by
        have hsplit : n % 16 ^ (width + 1) = n % 16 + 16 * (n / 16 % 16 ^ width) := by
          rw [Nat.pow_succ, Nat.mul_comm, Nat.mod_mul]
        have hscale : 16 ^ (width + 1) * value = 16 * (16 ^ width * value) := by
          rw [Nat.pow_succ, Nat.mul_comm (16 ^ width), Nat.mul_assoc]
        omega
      rw [hexDigits, run_append, hwidth, ih, run_cons, run_nil, step_digit _ _ _ hlast, hvalue]

/-- A number that fits its width is read. -/
theorem run_number (name : Text) (width : Nat) {n : Nat} (h : n < 16 ^ (width + 1)) :
    run ⟨quote, name, .number (width + 1) 0⟩ (hexDigits (width + 1) n) =
      ⟨quote, name ++ codePoint n, .plain⟩ := by
  have hlast : n % 16 < 16 := Nat.mod_lt _ (by decide)
  have hfits : n / 16 < 16 ^ width := by
    rw [Nat.pow_succ] at h
    omega
  have hrun := @run_hexDigits quote name width 0 0 (n / 16)
  simp only [Nat.mul_zero, Nat.zero_add, Nat.add_zero, Nat.mod_eq_of_lt hfits] at hrun
  rw [hexDigits, run_append, hrun, run_cons, run_nil, step_last_digit _ _ hlast,
    Nat.div_add_mod]

/-- A number is read at each of the three widths. -/
theorem run_numbered (hquote : quote ≠ Escape.backslash) (name : Text) {n : Nat}
    (h : n < 16 ^ 8) :
    run ⟨quote, name, .plain⟩ (Quoted.numbered n) = ⟨quote, name ++ codePoint n, .plain⟩ := by
  have hopen : ∀ letter width, width? letter = some width →
      run ⟨quote, name, .plain⟩ [Escape.backslash, letter] = ⟨quote, name, .number width 0⟩ := by
    intro letter width hwidth
    simp [step, Ne.symm hquote, hwidth]
  unfold Quoted.numbered
  split
  · next hsmall =>
    have hescape : Quoted.escaped 'x' = [Escape.backslash, 120] := by decide
    rw [hescape, run_append, hopen 120 2 rfl]
    exact run_number name 1 hsmall
  split
  · next hsmall =>
    have hescape : Quoted.escaped 'u' = [Escape.backslash, 117] := by decide
    rw [hescape, run_append, hopen 117 4 rfl]
    exact run_number name 3 hsmall
  · have hescape : Quoted.escaped 'U' = [Escape.backslash, 85] := by decide
    rw [hescape, run_append, hopen 85 8 rfl]
    exact run_number name 7 h

theorem codePoint_toNat (c : Char) : codePoint c.toNat = String.utf8EncodeChar c := by
  have hvalid := c.valid
  simp only [UInt32.isValidChar, Nat.isValidChar] at hvalid
  have hnumber : c.val.toNat = c.toNat := rfl
  rw [codePoint, if_neg (by omega), Char.ofNat_toNat]

theorem codePoint_stray {b : UInt8} (h : 0x80 ≤ b) : codePoint (0xdc00 + b.toNat) = [b] := by
  have hlow : 0x80 ≤ b.toNat := UInt8.le_iff_toNat_le.mp h
  have hhigh := b.toNat_lt
  rw [codePoint, if_pos (by omega), Nat.add_sub_cancel_left, UInt8.ofNat_toNat]

/-- The quotes that a name can stand between, as a character and as a byte. -/
inductive IsQuote : Char → UInt8 → Prop where
  | single : IsQuote Quoted.singleQuote singleQuote
  | double : IsQuote Quoted.doubleQuote doubleQuote

theorem IsQuote.encode {q : Char} (h : IsQuote q quote) : String.utf8EncodeChar q = [quote] := by
  cases h <;> decide

theorem IsQuote.kind {q : Char} (h : IsQuote q quote) :
    quote = singleQuote ∨ quote = doubleQuote := by
  cases h with
  | single => exact .inl rfl
  | double => exact .inr rfl

theorem IsQuote.ascii {q : Char} (h : IsQuote q quote) : quote < 0x80 := by
  cases h <;> decide

theorem IsQuote.ne_backslash {q : Char} (h : IsQuote q quote) : quote ≠ Escape.backslash := by
  cases h <;> decide

/-- A character is read, escaped or as it is. -/
theorem run_scalar {q : Char} (hq : IsQuote q quote) (name : Text) (c : Char) :
    run ⟨quote, name, .plain⟩ (Quoted.symbol q (.scalar c)) =
      ⟨quote, name ++ String.utf8EncodeChar c, .plain⟩ := by
  have hescape : ∀ letter b, width? letter = none → escaped? letter = some b →
      run ⟨quote, name, .plain⟩ [Escape.backslash, letter] = ⟨quote, name ++ [b], .plain⟩ := by
    intro letter b hwidth hescaped
    simp [step, Ne.symm hq.ne_backslash, hwidth, hescaped]
  unfold Quoted.symbol
  simp only
  split
  · next hspecial =>
    rcases hspecial with rfl | rfl
    · cases hq with
      | single => exact hescape singleQuote _ rfl rfl
      | double => exact hescape doubleQuote _ rfl rfl
    · exact hescape Escape.backslash _ rfl rfl
  split
  · next htab => exact htab ▸ hescape 116 9 rfl rfl
  split
  · next hnewline => exact hnewline ▸ hescape 110 _ rfl rfl
  split
  · next hreturn => exact hreturn ▸ hescape 114 13 rfl rfl
  split
  · have hfits : c.toNat < 16 ^ 8 := c.val.toNat_lt
    rw [run_numbered hq.ne_backslash name hfits, codePoint_toNat]
  · next hspecial _ _ _ _ =>
    rw [not_or] at hspecial
    have hbackslash : Escape.backslash ∉ String.utf8EncodeChar c :=
      Symbol.not_mem_encode (by decide) (by decide : String.utf8EncodeChar '\\' = _) hspecial.2
    have hquote : quote ∉ String.utf8EncodeChar c :=
      Symbol.not_mem_encode hq.ascii hq.encode hspecial.1
    refine run_plain (fun b hb => ⟨?_, ?_⟩) name
    · rintro rfl
      exact hquote hb
    · rintro rfl
      exact hbackslash hb

/-- Between its quotes a name is read byte by byte. -/
theorem run_symbols {q : Char} (hq : IsQuote q quote) (read t : Text) :
    run ⟨quote, read, .plain⟩ ((Symbol.decode t).flatMap (Quoted.symbol q)) =
      ⟨quote, read ++ t, .plain⟩ := by
  induction t using Symbol.reading_induction generalizing read with
  | nil => simp [Symbol.decode, Symbol.decodeFrom]
  | scalar c rest ih =>
      rw [Symbol.decode_char_append, List.flatMap_cons, run_append, run_scalar hq, ih,
        List.append_assoc]
  | raw b rest hlead ih =>
      have hfits : 0xdc00 + b.toNat < 16 ^ 8 := by
        have hbyte := b.toNat_lt
        omega
      have hstray : Quoted.symbol q (.raw b) = Quoted.numbered (0xdc00 + b.toNat) := rfl
      rw [Symbol.decode_raw hlead, List.flatMap_cons, run_append, hstray,
        run_numbered hq.ne_backslash read hfits,
        codePoint_stray (Symbol.le_of_leading_eq_none hlead), ih, List.append_assoc]
      rfl

theorem isQuote_delimiter (symbols : List Symbol) :
    ∃ quote, IsQuote (Quoted.delimiter symbols) quote := by
  unfold Quoted.delimiter
  split
  · exact ⟨_, .double⟩
  · exact ⟨_, .single⟩

end NameReader

/-- A quoted name is read back. -/
theorem readQuoted_quoted (name : Text) : readQuoted (quoted name) = some name := by
  obtain ⟨quote, hq⟩ := NameReader.isQuote_delimiter (Symbol.decode name)
  have hclose : NameReader.step ⟨quote, name, .plain⟩ quote = ⟨quote, name, .closed⟩ := by
    simp [NameReader.step]
  unfold quoted
  simp only [hq.encode, List.cons_append, List.nil_append, readQuoted]
  rw [if_pos hq.kind, NameReader.run_append, NameReader.run_symbols hq, List.nil_append,
    NameReader.run_cons, hclose]
  rfl

end SdkBindings
