import SdkBindings.ShellWord

/-!
A command line as a shell splits it.  Blanks part the words, and single quotes, double
quotes and a backslash take from the bytes behind them what these mean elsewhere.  Main
statement: words that were written as one command line are read back, each of them whole
and none of them joined with its neighbour.
-/

namespace SdkBindings

/-- What the next byte of a command line means.  A word that has begun is there, even if it
is empty so far: quotes with nothing between them are a word. -/
inductive Quoting where
  | outside (word : Option Text)
  | behindBackslash (word : Option Text)
  | single (word : Text)
  | double (word : Text)
  | doubleBehindBackslash (word : Text)
  deriving DecidableEq, Repr

/-- A reader in the middle of a command line: the words that are complete, and what it is
reading. -/
structure ShellReader where
  words : List Text
  quoting : Quoting
  deriving DecidableEq, Repr

namespace ShellReader

def doubleQuote : UInt8 := 34

def backslash : UInt8 := 92

/-- A blank, a tab or a newline. -/
def isSeparator (b : UInt8) : Bool :=
  b = Text.blank ∨ b = 9 ∨ b = Text.newline

/-- Between double quotes, a backslash takes the meaning from these bytes only.  Before any
other byte it stands for itself. -/
def isSpecialInDouble (b : UInt8) : Bool :=
  b = 36 ∨ b = 96 ∨ b = doubleQuote ∨ b = backslash

/-- Reads one byte. -/
def step (reader : ShellReader) (b : UInt8) : ShellReader :=
  match reader.quoting with
  | .outside word =>
    if isSeparator b then ⟨reader.words ++ word.toList, .outside none⟩
    else if b = ShellWord.quote then { reader with quoting := .single (word.getD []) }
    else if b = doubleQuote then { reader with quoting := .double (word.getD []) }
    else if b = backslash then { reader with quoting := .behindBackslash word }
    else { reader with quoting := .outside (some (word.getD [] ++ [b])) }
  | .behindBackslash word =>
    -- A backslash at the end of a line joins it to the next one.
    if b = Text.newline then { reader with quoting := .outside word }
    else { reader with quoting := .outside (some (word.getD [] ++ [b])) }
  | .single word =>
    if b = ShellWord.quote then { reader with quoting := .outside (some word) }
    else { reader with quoting := .single (word ++ [b]) }
  | .double word =>
    if b = doubleQuote then { reader with quoting := .outside (some word) }
    else if b = backslash then { reader with quoting := .doubleBehindBackslash word }
    else { reader with quoting := .double (word ++ [b]) }
  | .doubleBehindBackslash word =>
    if b = Text.newline then { reader with quoting := .double word }
    else if isSpecialInDouble b then { reader with quoting := .double (word ++ [b]) }
    else { reader with quoting := .double (word ++ [backslash, b]) }

/-- Reads a text byte by byte. -/
def run (reader : ShellReader) (t : Text) : ShellReader :=
  t.foldl step reader

/-- The words at the end of a command line.  It may not end between quotes or with a
backslash. -/
def finish (reader : ShellReader) : Option (List Text) :=
  match reader.quoting with
  | .outside word => some (reader.words ++ word.toList)
  | _ => none

@[simp] theorem run_nil (reader : ShellReader) : reader.run [] = reader := rfl

@[simp] theorem run_cons (reader : ShellReader) (b : UInt8) (t : Text) :
    reader.run (b :: t) = (reader.step b).run t := rfl

@[simp] theorem run_append (reader : ShellReader) (t rest : Text) :
    reader.run (t ++ rest) = (reader.run t).run rest :=
  List.foldl_append

end ShellReader

/-- The words of a command line, unless it is incomplete. -/
def readCommand (t : Text) : Option (List Text) :=
  ((⟨[], .outside none⟩ : ShellReader).run t).finish

namespace ShellReader

/-- A harmless byte has no meaning of its own. -/
theorem step_of_isHarmless {b : UInt8} (h : ShellWord.isHarmless b = true) (words : List Text)
    (word : Option Text) :
    step ⟨words, .outside word⟩ b = ⟨words, .outside (some (word.getD [] ++ [b]))⟩ := by
  have hne : ∀ {special : UInt8}, ShellWord.isHarmless special = false → b ≠ special := by
    rintro special hspecial rfl
    rw [h] at hspecial
    contradiction
  have hseparator : isSeparator b = false := by
    have hblank : b ≠ Text.blank := hne (by decide)
    have htab : b ≠ 9 := hne (by decide)
    have hnewline : b ≠ Text.newline := hne (by decide)
    simp [isSeparator, hblank, htab, hnewline]
  have hquote : b ≠ ShellWord.quote := hne (by decide)
  have hdouble : b ≠ doubleQuote := hne (by decide)
  have hbackslash : b ≠ backslash := hne (by decide)
  simp [step, hseparator, hquote, hdouble, hbackslash]

theorem run_of_harmless {t : Text} (h : t.all ShellWord.isHarmless = true) (words : List Text)
    (word : Text) :
    run ⟨words, .outside (some word)⟩ t = ⟨words, .outside (some (word ++ t))⟩ := by
  induction t generalizing word with
  | nil => simp
  | cons b t ih =>
      simp only [List.all_cons, Bool.and_eq_true] at h
      rw [run_cons, step_of_isHarmless h.1, ih h.2]
      simp

/-- A byte between single quotes is read as it is, also the single quote. -/
theorem run_guarded (b : UInt8) (words : List Text) (word : Text) :
    run ⟨words, .single word⟩ (ShellWord.guarded b) = ⟨words, .single (word ++ [b])⟩ := by
  by_cases hb : b = ShellWord.quote
  · -- Out of the single quotes, in and out of the double ones, and back in.
    subst hb
    rfl
  · rw [ShellWord.guarded, if_neg hb, run_cons, run_nil, step]
    simp only
    rw [if_neg hb]

theorem run_flatMap_guarded (t : Text) (words : List Text) (word : Text) :
    run ⟨words, .single word⟩ (t.flatMap ShellWord.guarded) = ⟨words, .single (word ++ t)⟩ := by
  induction t generalizing word with
  | nil => simp
  | cons b t ih =>
      rw [List.flatMap_cons, run_append, run_guarded, ih]
      simp

/-- A word is read whole, with or without its quotes. -/
theorem run_ofText (t : Text) (words : List Text) :
    run ⟨words, .outside none⟩ (ShellWord.ofText t) = ⟨words, .outside (some t)⟩ := by
  unfold ShellWord.ofText
  split
  · next hbare =>
    obtain ⟨hne, hall⟩ := hbare
    cases t with
    | nil => contradiction
    | cons b t =>
        simp only [List.all_cons, Bool.and_eq_true] at hall
        rw [run_cons, step_of_isHarmless hall.1, run_of_harmless hall.2]
        rfl
  · have hopen : step ⟨words, .outside none⟩ ShellWord.quote = ⟨words, .single []⟩ := rfl
    have hclose : step ⟨words, .single t⟩ ShellWord.quote = ⟨words, .outside (some t)⟩ := rfl
    rw [List.cons_append, run_cons, hopen, run_append, run_flatMap_guarded, List.nil_append,
      run_cons, hclose, run_nil]

theorem run_blank (words : List Text) (word : Text) :
    run ⟨words, .outside (some word)⟩ [Text.blank] = ⟨words ++ [word], .outside none⟩ := rfl

theorem finish_run_shellCommand (commands words : List Text) :
    (run ⟨words, .outside none⟩ (shellCommand commands)).finish = some (words ++ commands) := by
  induction commands generalizing words with
  | nil => rfl
  | cons word others ih =>
      cases others with
      | nil =>
          have honly : shellCommand [word] = ShellWord.ofText word := rfl
          rw [honly, run_ofText]
          rfl
      | cons next others =>
          have hsplit : shellCommand (word :: next :: others)
              = ShellWord.ofText word ++ [Text.blank] ++ shellCommand (next :: others) := rfl
          rw [hsplit, run_append, run_append, run_ofText, run_blank, ih]
          simp

end ShellReader

/-- A shell splits a command line into the words that it was made from. -/
theorem readCommand_shellCommand (words : List Text) :
    readCommand (shellCommand words) = some words :=
  ShellReader.finish_run_shellCommand words []

/-- A quote between two letters, an empty word and a newline. -/
example : readCommand (shellCommand [[97, ShellWord.quote, 98], [], [Text.newline]])
    = some [[97, ShellWord.quote, 98], [], [Text.newline]] := by decide

end SdkBindings
