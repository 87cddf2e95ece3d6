import SdkBindings.Production

/-!
The preview of a run: the configuration, the command that would be run, and what
the build would tell the linker.  The checks are those of the run itself, and
nothing is written.
-/

namespace SdkBindings

/-- A line two columns to the right. -/
def indented (line : Text) : Text :=
  "  " ++ line

/-- The lines of the preview, for the header that was found. -/
def previewLines (config : Configuration) (header : Path) : List Text :=
  let argv := (GeneratorOptions.forOutput config.output).argv config.generator header
  let libraryDir := config.sdk.libraryDir.text
  ["Header:      " ++ header.text,
   "Library dir: " ++ libraryDir,
   "Sidecar:     " ++ config.sidecar.text,
   "Output:      " ++ config.output.text,
   [],
   "Command:",
   indented (shellCommand argv),
   [],
   "Link directives:"]
    ++ (linkDirectives libraryDir).map indented

/-- Checks the library and prints the preview. -/
def Stage.preview (machine : Machine) (config : Configuration) : Stage Unit := do
  let header ← header machine config
  libraryCheck machine config
  say (Text.joinWith [Text.newline] (previewLines config header))

end SdkBindings
