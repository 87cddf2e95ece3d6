import SdkBindings.Listing
import SdkBindings.Run

/-!
The command line.  The machine is listed on the standard input, and the run takes
place on it: what it prints is printed, and its exit status is the exit status.
-/

namespace SdkBindings

namespace Machine

/-- A machine at its root, on which every executable file is a generator that
writes its own content. -/
def listed : Machine where
  directory := .ofPlace []
  searchPath := "/bin"
  programs := fun content => some {
    output := []
    complaint := fun _ => []
    emission := fun _ => some content
    ending := .exited 0 }

end Machine

/-- Where things are kept on a listed machine. -/
def Places.listed : Places where
  home := Path.ofText "/home"
  project := Path.ofText "/project"

/-- Everything that a stream still holds, after what has been read. -/
partial def readText (input : IO.FS.Stream) (before : Text) : IO Text := do
  let line ← input.getLine
  if line.isEmpty then return before
  readText input (before ++ Text.ofString line)

/-- Writes bytes to a stream at once. -/
def writeText (output : IO.FS.Stream) (t : Text) : IO Unit := do
  output.write ⟨t.toArray⟩
  output.flush

end SdkBindings

open SdkBindings in
def main (arguments : List String) : IO UInt32 := do
  let listing ← readText (← IO.getStdin) []
  let files := FileSystem.ofLines (Text.fields Text.newline listing)
  let argv := arguments.map Text.ofString
  let stage := Stage.runCommandLine Machine.listed Places.listed argv
  let (outcome, world) := stage.runIn (World.initial files)
  writeText (← IO.getStdout) world.output
  writeText (← IO.getStderr) world.errors
  match outcome with
  | .ok (.exited status) => return UInt32.ofNat (status % 256).toNat
  | .ok (.escaped fault) | .error fault =>
    writeText (← IO.getStderr) (shown fault.message ++ [Text.newline])
    return 1
