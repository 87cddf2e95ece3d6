import SdkBindings.Text

/-!
Words for a shell.  A word of harmless bytes stands for itself; any other goes
between single quotes, and a single quote inside it between double ones.
-/

namespace SdkBindings

namespace ShellWord

/-- The punctuation that no shell gives a meaning to inside a word. -/
def harmlessPunctuation : Text := "@%+=:,./_-"

/-- Letters, digits and harmless punctuation need no quotes. -/
def isHarmless (b : UInt8) : Bool :=
  (97 ≤ b && b ≤ 122) || (65 ≤ b && b ≤ 90) || (48 ≤ b && b ≤ 57) ||
    harmlessPunctuation.contains b

def quote : UInt8 := 39

/-- A byte between single quotes: a single quote closes them, stands between
double quotes and opens them again. -/
def guarded (b : UInt8) : Text :=
  if b = quote then [quote, 34, quote, 34, quote] else [b]

/-- A text as one word of a shell command. -/
def ofText (t : Text) : Text :=
  if t ≠ [] ∧ t.all isHarmless then t
  else quote :: t.flatMap guarded ++ [quote]

end ShellWord

/-- A command line that a shell splits into the given words. -/
def shellCommand (words : List Text) : Text :=
  Text.joinWith [Text.blank] (words.map ShellWord.ofText)

end SdkBindings
