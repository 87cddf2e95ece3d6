import SdkBindings.Text

/-!
Integers in decimal: plain, or with a comma between groups of three digits, and
the padding that lines up a column.
-/

namespace SdkBindings

namespace Decimal

/-- The decimal digits of a natural number, most significant first. -/
def ofNat (n : Nat) : Text :=
  (Nat.toDigits 10 n).map fun c => UInt8.ofNat c.toNat

/-- A minus sign stands before the digits of a negative number. -/
def ofInt : Int → Text
  | .ofNat n => ofNat n
  | .negSucc n => Text.dash :: ofNat (n + 1)

def comma : UInt8 := 44

/-- Digits given least significant first, with a comma after every third one
that has a successor. -/
def separate : Text → Text
  | a :: b :: c :: d :: rest => a :: b :: c :: comma :: separate (d :: rest)
  | digits => digits

/-- Digits in groups of three, counted from the right. -/
def groupedNat (n : Nat) : Text :=
  (separate (ofNat n).reverse).reverse

def grouped : Int → Text
  | .ofNat n => groupedNat n
  | .negSucc n => Text.dash :: groupedNat (n + 1)

end Decimal

namespace Text

/-- Blanks before the text until it is `width` bytes wide. -/
def padLeft (width : Nat) (t : Text) : Text :=
  List.replicate (width - t.length) blank ++ t

end Text

end SdkBindings
