import SdkBindings.Path

/-!
The first line of a script, as the system reads it: two marks, the path of an
interpreter, and all that follows as one argument for it.  Only the beginning of a
file is looked at, so a line can be cut off.  An argument may be, and a path that
may have been is not taken.
-/

namespace SdkBindings

/-- What a script asks to be run by. -/
structure Interpreter where
  path : Text
  argument : Option Text
  deriving DecidableEq, Repr

namespace Interpreter

/-- The marks at the beginning of a script. -/
def marks : Text := "#!"

/-- How much of a file is looked at. -/
def headSize : Nat := 256

/-- The beginning of a file.  A shorter file is filled up with zero bytes. -/
def head (content : Text) : Text :=
  (content ++ List.replicate headSize 0).take headSize

@[simp] theorem length_head (content : Text) : (head content).length = headSize := by
  simp [head]

/-- A blank or a tab. -/
def isGap (b : UInt8) : Bool :=
  b = Text.blank || b = 9

/-- What a path cannot go on after. -/
def endsPath (b : UInt8) : Bool :=
  isGap b || b = 0

/-- The text without gaps at its two ends. -/
def trim (t : Text) : Text :=
  ((t.dropWhile isGap).reverse.dropWhile isGap).reverse

/-- What follows the marks: the rest of the line, or where no end of it is seen,
all but the last byte of the head, if its first word is known to have an end. -/
def order? (head : Text) : Option Text :=
  let line := head.takeWhile fun b => b ≠ Text.newline ∧ b ≠ 0
  let rest := head.drop marks.length
  if (head.drop line.length).head? = some Text.newline then some (line.drop marks.length)
  else if (rest.dropWhile isGap).any endsPath then some rest.dropLast
  else none

/-- The path and the argument that an order holds, if there is anything in it.  A
zero byte ends each of them, and an empty path is the working directory. -/
def ofOrder? (order : Text) : Option Interpreter :=
  let order := trim order
  let path := order.takeWhile (!endsPath ·)
  let rest := order.drop path.length
  let argument := (rest.dropWhile isGap).takeWhile (· ≠ 0)
  if order = [] then none
  else some {
    path := if path = [] then Path.here else path
    argument := if rest.head?.any isGap then some argument else none }

/-- The interpreter that the content of a file asks for, if it is a script. -/
def ofContent? (content : Text) : Option Interpreter :=
  let head := head content
  if marks.isPrefixOf head then (order? head).bind ofOrder? else none

end Interpreter

end SdkBindings
