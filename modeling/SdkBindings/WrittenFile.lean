import SdkBindings.Canonical
import SdkBindings.Fault

/-!
The description of a file that was written: its canonical path, and how many
lines and bytes it holds now.
-/

namespace SdkBindings

/-- A written file as the summary reports it. -/
structure WrittenFile where
  filename : Text
  path : Path
  lineCount : Int
  byteCount : Int
  deriving DecidableEq, Repr

namespace FileSystem

/-- The canonical path of what may be missing.  A path that ends in a loop of
links has none.  Behind a loop the text is taken as it stands, so that a zero byte
in it is met only when the result is looked up. -/
def canonicalPath (fs : FileSystem) (directory : WorkingDirectory) (path : Path) :
    Except Fault Path :=
  match fs.resolve false directory path.text with
  | .error .embeddedNul => .error .embeddedNul
  | .error .loop => .error (.linkLoop path.text)
  | .error (.system reason) => .error (.system reason none)
  | .ok resolved =>
    if resolved.text.hasNul then .error .embeddedNul
    else match fs.stat directory resolved.text with
      | .error .tooManyLinks => .error (.linkLoop resolved.text)
      | _ => .ok resolved

/-- Reads a file again and describes what is there. -/
def describe (fs : FileSystem) (directory : WorkingDirectory) (path : Path) :
    Except Fault WrittenFile := do
  let resolved ← fs.canonicalPath directory path
  match fs.read directory resolved.text with
  | .error (.refused reason) => .error (.onPath resolved.text reason)
  | .error .endless => .error (.endless resolved.text)
  | .ok content =>
    .ok {
      filename := resolved.name
      path := resolved
      lineCount := content.newlines
      byteCount := content.length }

end FileSystem

end SdkBindings
