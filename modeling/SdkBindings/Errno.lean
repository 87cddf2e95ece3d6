/-!
The reasons for which the system refuses a call, each with its number and its
message.  A missing permission is a reason to refuse the start of a program only.
-/

namespace SdkBindings

/-- Why a system call failed. -/
inductive Errno where
  | noEntry
  | argumentListTooLong
  | execFormat
  | permission
  | entryExists
  | notDirectory
  | isDirectory
  | noSpace
  | nameTooLong
  | tooManyLinks
  deriving DecidableEq, Repr

namespace Errno

/-- The system's number for the reason. -/
def number : Errno → Nat
  | noEntry => 2
  | argumentListTooLong => 7
  | execFormat => 8
  | permission => 13
  | entryExists => 17
  | notDirectory => 20
  | isDirectory => 21
  | noSpace => 28
  | nameTooLong => 36
  | tooManyLinks => 40

/-- The system's words for the reason. -/
def message : Errno → String
  | noEntry => "No such file or directory"
  | argumentListTooLong => "Argument list too long"
  | execFormat => "Exec format error"
  | permission => "Permission denied"
  | entryExists => "File exists"
  | notDirectory => "Not a directory"
  | isDirectory => "Is a directory"
  | noSpace => "No space left on device"
  | nameTooLong => "File name too long"
  | tooManyLinks => "Too many levels of symbolic links"

/-- A question about a path that fails for one of these reasons has the answer
no: nothing is there.  Any other failure leaves the question open. -/
def meansAbsent : Errno → Bool
  | noEntry | notDirectory | tooManyLinks => true
  | _ => false

end Errno

end SdkBindings
