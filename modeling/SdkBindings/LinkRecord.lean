import SdkBindings.Machine
import SdkBindings.Sdk
import SdkBindings.WrittenFile

/-!
The record of the library directory for the build: the directory as it was
spelled and a newline, in a file beside the crate.
-/

namespace SdkBindings

/-- The content of the sidecar file. -/
def linkRecord (libraryDir : Text) : Text :=
  libraryDir ++ [Text.newline]

/-- What the build tells the linker, given the library directory. -/
def linkDirectives (libraryDir : Text) : List Text :=
  ["cargo:rerun-if-changed=libdir",
   "cargo:rustc-link-lib=dylib=" ++ linkedLibrary,
   "cargo:rustc-link-search=native=" ++ libraryDir]

namespace Stage

/-- Overwrites a file. -/
def write (directory : WorkingDirectory) (path : Path) (content : Text) : Stage Unit := do
  if path.text.hasNul then throw .embeddedNul
  match (← files).write directory path.text content with
  | .ok fs => setFiles fs
  | .error (.opening reason) => throw (.onPath path.text reason)
  | .error (.storing reason) => throw (.system reason none)

/-- Records the library directory and describes the record. -/
def recordLibraryDir (directory : WorkingDirectory) (libraryDir : Text) (sidecar : Path) :
    Stage WrittenFile := do
  write directory sidecar (linkRecord libraryDir)
  check fun fs => fs.describe directory sidecar

end Stage

end SdkBindings
