import SdkBindings.Generator

/-!
The pipeline: check the library, record its directory, generate the bindings.
Nothing is written before the checks have passed, and the record stays when the
generator fails.
-/

namespace SdkBindings

/-- What one successful run has produced. -/
structure Production where
  header : Path
  libraryDir : Text
  sidecarPath : Path
  sidecar : WrittenFile
  bindings : WrittenFile
  deriving DecidableEq, Repr

namespace Stage

/-- The header of a configuration. -/
def header (machine : Machine) (config : Configuration) : Stage Path :=
  check fun fs => fs.findHeader machine.directory config.sdk.includeDir libraryHeader

/-- The check of the library directory, if it was asked for. -/
def libraryCheck (machine : Machine) (config : Configuration) : Stage Unit := do
  if config.checkLibraryDir then
    let _ ← check fun fs => fs.checkLibraryDir machine.directory config.sdk.libraryDir

/-- All stages in their order, each announced when it is done and the first
before it begins. -/
def produce (machine : Machine) (config : Configuration) : Stage Production := do
  let libraryDir := config.sdk.libraryDir.text
  say ("Resolving: " ++ (config.sdk.includeDir.child libraryHeader).text)
  let header ← header machine config
  say ("  Header: " ++ header.text)
  libraryCheck machine config
  if config.checkLibraryDir then
    say ("  Library: " ++ libraryDir ++ " (checked)")
  let sidecar ← recordLibraryDir machine.directory libraryDir config.sidecar
  say ("  Link dir: " ++ libraryDir ++ " -> " ++ sidecar.path.text)
  let bindings ← generate machine header (.forOutput config.output) config.generator
  say ("  Written: " ++ Decimal.ofInt bindings.lineCount ++ " lines to " ++ bindings.path.text)
  return {
    header, libraryDir, sidecar, bindings
    sidecarPath := config.sidecar }

end Stage

end SdkBindings
