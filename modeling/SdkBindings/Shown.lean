import SdkBindings.Hex
import SdkBindings.Symbol

/-!
Text made fit for a terminal.  Every character stays, and a byte that belongs to
no character is shown as a backslash, an `x` and its two hexadecimal digits, so
that what is printed is always valid UTF-8.
-/

namespace SdkBindings

/-- A byte as `\xNN`. -/
def byteEscape (b : UInt8) : Text :=
  92 :: 120 :: hexDigits 2 b.toNat

/-- A symbol as a terminal can show it. -/
def Symbol.shown : Symbol → Text
  | .scalar c => String.utf8EncodeChar c
  | .raw b => byteEscape b

/-- Text with its stray bytes escaped. -/
def shown (t : Text) : Text :=
  (Symbol.decode t).flatMap Symbol.shown

@[simp] theorem shown_nil : shown [] = [] := rfl

end SdkBindings
