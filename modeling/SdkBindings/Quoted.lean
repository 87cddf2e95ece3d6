import SdkBindings.Hex
import SdkBindings.Invisible

/-!
Names quoted in diagnostics.  The quote is single unless the name holds a single
quote and no double one.  The quote, the backslash and everything without a
visible shape are escaped, a stray byte `NN` as `\udcNN`, so that one name has
one quoted form.
-/

namespace SdkBindings

namespace Quoted

def singleQuote : Char := Char.ofNat 39

def doubleQuote : Char := Char.ofNat 34

/-- The quote that needs fewer escapes; the single one wins a tie. -/
def delimiter (symbols : List Symbol) : Char :=
  if symbols.contains (.scalar singleQuote) && !symbols.contains (.scalar doubleQuote) then
    doubleQuote
  else
    singleQuote

/-- A backslash before a character. -/
def escaped (c : Char) : Text :=
  92 :: String.utf8EncodeChar c

/-- A code point by its number, at the least of the three widths that holds it. -/
def numbered (n : Nat) : Text :=
  if n < 0x100 then escaped 'x' ++ hexDigits 2 n
  else if n < 0x10000 then escaped 'u' ++ hexDigits 4 n
  else escaped 'U' ++ hexDigits 8 n

/-- A symbol between quotes of the given kind. -/
def symbol (quote : Char) : Symbol → Text
  | .raw b => numbered (0xdc00 + b.toNat)
  | .scalar c =>
    if c = quote ∨ c = '\\' then escaped c
    else if c = '\t' then escaped 't'
    else if c = '\n' then escaped 'n'
    else if c = '\r' then escaped 'r'
    else if isInvisible c then numbered c.toNat
    else String.utf8EncodeChar c

end Quoted

/-- A name between quotes, on one line and without invisible characters. -/
def quoted (name : Text) : Text :=
  let symbols := Symbol.decode name
  let quote := Quoted.delimiter symbols
  String.utf8EncodeChar quote ++ symbols.flatMap (Quoted.symbol quote)
    ++ String.utf8EncodeChar quote

end SdkBindings
