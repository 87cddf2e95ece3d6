import SdkBindings.Blank
import SdkBindings.CommandLine
import SdkBindings.Fault

/-!
The configuration of a run: where the library was installed, where the files go
and which generator to start.  Paths are taken as they are; only a generator
without a name is refused.
-/

namespace SdkBindings

/-- Where the library was installed.  The library directory stays as it was
spelled, since it is recorded byte for byte. -/
structure Installation where
  includeDir : Path
  libraryDir : Operand Text
  deriving DecidableEq, Repr

/-- Everything that a run is told. -/
structure Configuration where
  sdk : Installation
  output : Path
  sidecar : Path
  generator : Text
  checkLibraryDir : Bool
  showConfig : Bool
  deriving DecidableEq, Repr

/-- Where a user keeps things: the defaults depend on it. -/
structure Places where
  home : Path
  project : Path
  deriving DecidableEq, Repr

namespace Places

/-- Where the library is installed unless an option says otherwise. -/
def sdkRoot (places : Places) : Path :=
  (places.home.child "Vimba_6_0").child "VimbaC"

def includeDir (places : Places) : Path :=
  places.sdkRoot.child "Include"

def libraryDir (places : Places) : Text :=
  ((places.sdkRoot.child "DynamicLib").child "x86_64bit").text

def output (places : Places) : Path :=
  (places.project.child "src").child "vimba_sys.rs"

def sidecar (places : Places) : Path :=
  places.project.child "libdir"

end Places

/-- The generator that is started unless an option names another. -/
def defaultGenerator : Text := "bindgen"

/-- The values of the options that a command line leaves out. -/
def Arguments.defaults (places : Places) : Arguments where
  includeDir := .given places.includeDir
  libraryDir := .given places.libraryDir
  output := .given places.output
  sidecar := .given places.sidecar
  generator := .given defaultGenerator
  checkLibraryDir := false
  showConfig := false

namespace ConfigurationError

def blankGenerator : ConfigurationError where
  code := .invalidGenerator
  message := "--bindgen must name an executable."
  suggestion := some
    "Install it with `cargo install bindgen-cli` or pass --bindgen /path/to/bindgen."

end ConfigurationError

namespace Operand

/-- The path that an operand gives. -/
def path : Operand Path → Except Fault Path
  | given path => .ok path
  | nothing => .error .noPathOperand

end Operand

namespace Configuration

/-- The name of the generator without white space around it. -/
def generatorName : Operand Text → Except Fault Text
  | .nothing => .error .noNameOperand
  | .given spelled =>
    if spelled.strip = [] then .error (.config .blankGenerator) else .ok spelled.strip

/-- The configuration that the values of the options make. -/
def ofArguments (arguments : Arguments) : Except Fault Configuration := do
  let generator ← generatorName arguments.generator
  let includeDir ← arguments.includeDir.path
  let output ← arguments.output.path
  let sidecar ← arguments.sidecar.path
  return {
    sdk := { includeDir, libraryDir := arguments.libraryDir }
    output, sidecar, generator
    checkLibraryDir := arguments.checkLibraryDir
    showConfig := arguments.showConfig }

end Configuration

end SdkBindings
