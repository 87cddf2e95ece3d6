import SdkBindings.Symbol

/-!
White space, and text without the white space around it.  A stray byte is never
white space, whatever its value: only characters are.
-/

namespace SdkBindings

/-- The code points that count as white space: the controls that move the
cursor, the information separators, and the blanks of every width. -/
def whiteSpace : List Nat :=
  [0x09, 0x0a, 0x0b, 0x0c, 0x0d, 0x1c, 0x1d, 0x1e, 0x1f, 0x20, 0x85, 0xa0, 0x1680,
   0x2000, 0x2001, 0x2002, 0x2003, 0x2004, 0x2005, 0x2006, 0x2007, 0x2008, 0x2009,
   0x200a, 0x2028, 0x2029, 0x202f, 0x205f, 0x3000]

namespace Symbol

def isBlank : Symbol → Bool
  | scalar c => whiteSpace.contains c.toNat
  | raw _ => false

/-- The symbols from the first to the last that is not white space. -/
def trim (symbols : List Symbol) : List Symbol :=
  ((symbols.dropWhile isBlank).reverse.dropWhile isBlank).reverse

end Symbol

/-- Text without the white space at its two ends. -/
def Text.strip (t : Text) : Text :=
  Symbol.encode (Symbol.trim (Symbol.decode t))

theorem isBlank_of_isWhitespace {c : Char} (h : c.isWhitespace = true) :
    (Symbol.scalar c).isBlank = true := by
  simp only [Char.isWhitespace, Bool.or_eq_true, decide_eq_true_eq] at h
  rcases h with ((h | h) | h) | h <;> subst h <;> decide

end SdkBindings
