import SdkBindings.DecimalDigit
import SdkBindings.Path
import SdkBindings.Quoted

/-!
The command line.  Every argument is first told apart on its own: an option,
perhaps abbreviated or with its value after an equals sign, an operand, or an
option that does not exist.  Then the arguments are read from left to right, a
value option taking the operand after it.  The last occurrence of an option
counts, help ends the reading where it stands, and what nothing takes is an
error at the end.

The rules are those of the option parser in its early releases 3.11.  There a value
after an equals sign that is the divider itself is taken away, and the option is left
without an operand; the parser of release 3.11.10 keeps such a value.
-/

namespace SdkBindings

/-- The options that take a value. -/
inductive ValueOption where
  | includeDir
  | libraryDir
  | output
  | sidecar
  | generator
  deriving DecidableEq, Repr

/-- The options that are given or not. -/
inductive Flag where
  | checkLibraryDir
  | showConfig
  deriving DecidableEq, Repr

/-- What an option does. -/
inductive CommandOption where
  | help
  | value (option : ValueOption)
  | flag (option : Flag)
  deriving DecidableEq, Repr

namespace ValueOption

def text : ValueOption → Text
  | includeDir => "--include-dir"
  | libraryDir => "--library-dir"
  | output => "--output"
  | sidecar => "--sidecar"
  | generator => "--bindgen"

end ValueOption

namespace Flag

def text : Flag → Text
  | checkLibraryDir => "--check-library-dir"
  | showConfig => "--show-config"

end Flag

namespace CommandOption

/-- The option with all its spellings, as error messages name it. -/
def text : CommandOption → Text
  | help => "-h/--help"
  | value option => option.text
  | flag option => option.text

end CommandOption

/-- One way to write an option. -/
structure Spelling where
  text : Text
  option : CommandOption
  deriving DecidableEq, Repr

namespace Spelling

/-- The letter after a single dash that asks for help. -/
def helpLetter : UInt8 := 104

/-- The one spelling with a single dash. -/
def shortHelp : Spelling where
  text := [Text.dash, helpLetter]
  option := .help

/-- Every spelling, in the order in which ambiguous ones are listed. -/
def all : List Spelling :=
  [shortHelp,
   ⟨"--help", .help⟩,
   ⟨ValueOption.includeDir.text, .value .includeDir⟩,
   ⟨ValueOption.libraryDir.text, .value .libraryDir⟩,
   ⟨ValueOption.output.text, .value .output⟩,
   ⟨ValueOption.sidecar.text, .value .sidecar⟩,
   ⟨ValueOption.generator.text, .value .generator⟩,
   ⟨Flag.checkLibraryDir.text, .flag .checkLibraryDir⟩,
   ⟨Flag.showConfig.text, .flag .showConfig⟩]

/-- The spelling that is exactly this text. -/
def spelled? (t : Text) : Option Spelling :=
  all.find? fun spelling => spelling.text = t

/-- The spellings that an argument may abbreviate, each with the value that the
argument gives it.  After two dashes an equals sign ends the abbreviation; after
one dash the letter may stand with its value behind it. -/
def abbreviated (t : Text) : List (Spelling × Option Text) :=
  if t.take 2 = [Text.dash, Text.dash] then
    let (name, value) := Text.cut Text.equalsSign t
    (all.filter fun spelling => name.isPrefixOf spelling.text).map fun spelling =>
      (spelling, value)
  else
    all.filterMap fun spelling =>
      if spelling.text = t.take 2 then some (spelling, some (t.drop 2))
      else if t.isPrefixOf spelling.text then some (spelling, none)
      else none

end Spelling

/-- Why a command line cannot be read. -/
inductive Misuse where
  | ambiguous (argument : Text) (candidates : List Text)
  | missingValue (option : ValueOption)
  | unusedValue (option : CommandOption) (value : Text)
  | unrecognized (arguments : List Text)
  deriving DecidableEq, Repr

namespace Misuse

def message : Misuse → Text
  | ambiguous argument candidates =>
    "ambiguous option: " ++ argument ++ " could match " ++ Text.joinWith ", " candidates
  | missingValue option => "argument " ++ option.text ++ ": expected one argument"
  | unusedValue option value =>
    "argument " ++ option.text ++ ": ignored explicit argument " ++ quoted value
  | unrecognized arguments =>
    "unrecognized arguments: " ++ Text.joinWith [Text.blank] arguments

end Misuse

/-- What an argument is taken for before its neighbours are looked at. -/
inductive Reading where
  | operand
  /-- Two dashes alone: there are no options after them. -/
  | divider
  | option (spelling : Spelling) (value : Option Text)
  | unknownOption
  deriving DecidableEq, Repr

/-- An argument and what it is taken for. -/
structure Argument where
  text : Text
  reading : Reading
  deriving DecidableEq, Repr

namespace Argument

/-- Two dashes alone. -/
def dividerText : Text := [Text.dash, Text.dash]

/-- A text that is no option and begins with a dash is an operand if it looks
like a negative number or holds a blank. -/
def readDashed (t : Text) : Reading :=
  if looksNegative t ∨ t.contains Text.blank then .operand else .unknownOption

/-- An argument read on its own. -/
def read (t : Text) : Except Misuse Reading :=
  if t.head? ≠ some Text.dash then .ok .operand
  else match Spelling.spelled? t with
    | some spelling => .ok (.option spelling none)
    | none =>
      if t = [Text.dash] then .ok .operand
      else
        let (name, value) := Text.cut Text.equalsSign t
        match value, Spelling.spelled? name with
        | some value, some spelling => .ok (.option spelling (some value))
        | _, _ =>
          match Spelling.abbreviated t with
          | [] => .ok (readDashed t)
          | [(spelling, value)] => .ok (.option spelling value)
          | candidates => .error (.ambiguous t (candidates.map fun c => c.1.text))

/-- All arguments read one by one, as far as the divider; those after it are
operands. -/
def readAll : List Text → Except Misuse (List Argument)
  | [] => .ok []
  | t :: rest =>
    if t = dividerText then .ok (⟨t, .divider⟩ :: rest.map fun u => ⟨u, .operand⟩)
    else match read t with
      | .error misuse => .error misuse
      | .ok reading =>
        match readAll rest with
        | .error misuse => .error misuse
        | .ok arguments => .ok (⟨t, reading⟩ :: arguments)

end Argument

/-- The value of an option.  Two dashes written as an explicit value are dropped,
and leave the option with nothing. -/
inductive Operand (α : Type) where
  | given (value : α)
  | nothing
  deriving DecidableEq, Repr

namespace Operand

def map {α β : Type} (f : α → β) : Operand α → Operand β
  | given value => given (f value)
  | nothing => nothing

/-- The operand in a message. -/
def text : Operand Text → Text
  | given value => value
  | nothing => "[]"

/-- The operand after an equals sign.  The divider there counts as none. -/
def ofExplicit (t : Text) : Operand Text :=
  if t = Argument.dividerText then nothing else given t

end Operand

/-- The values of all options. -/
structure Arguments where
  includeDir : Operand Path
  libraryDir : Operand Text
  output : Operand Path
  sidecar : Operand Path
  generator : Operand Text
  checkLibraryDir : Bool
  showConfig : Bool
  deriving DecidableEq, Repr

namespace Arguments

def setValue (arguments : Arguments) (operand : Operand Text) : ValueOption → Arguments
  | .includeDir => { arguments with includeDir := operand.map Path.ofText }
  | .libraryDir => { arguments with libraryDir := operand }
  | .output => { arguments with output := operand.map Path.ofText }
  | .sidecar => { arguments with sidecar := operand.map Path.ofText }
  | .generator => { arguments with generator := operand }

def setFlag (arguments : Arguments) : Flag → Arguments
  | .checkLibraryDir => { arguments with checkLibraryDir := true }
  | .showConfig => { arguments with showConfig := true }

end Arguments

/-- Why a reading ends without values. -/
inductive Stop where
  | help
  | misuse (misuse : Misuse)
  deriving DecidableEq, Repr

namespace CommandLine

/-- An option that takes no value, with one given to it.  Only help letters may
follow the short help option, and they ask for help once more. -/
def stopAtValue (spelling : Spelling) (value : Text) : Stop :=
  if spelling = Spelling.shortHelp ∧ value ≠ [] then
    match value.dropWhile (· = Spelling.helpLetter) with
    | [] => .help
    | unused => .misuse (.unusedValue .help unused)
  else .misuse (.unusedValue spelling.option value)

/-- The arguments from left to right; `stray` are those that nothing took. -/
def consume : Arguments → List Text → List Argument → Except Stop Arguments
  | values, stray, [] =>
    if stray = [] then .ok values else .error (.misuse (.unrecognized stray))
  | values, stray, ⟨_, .option ⟨_, .value option⟩ (some value)⟩ :: rest =>
    consume (values.setValue (.ofExplicit value) option) stray rest
  | values, stray, ⟨_, .option ⟨_, .value option⟩ none⟩ :: ⟨value, .operand⟩ :: rest =>
    consume (values.setValue (.given value) option) stray rest
  | _, _, ⟨_, .option ⟨_, .value option⟩ none⟩ :: _ =>
    .error (.misuse (.missingValue option))
  | _, _, ⟨_, .option spelling (some value)⟩ :: _ => .error (stopAtValue spelling value)
  | _, _, ⟨_, .option ⟨_, .help⟩ none⟩ :: _ => .error .help
  | values, stray, ⟨_, .option ⟨_, .flag option⟩ none⟩ :: rest =>
    consume (values.setFlag option) stray rest
  | values, stray, ⟨t, .operand⟩ :: rest
  | values, stray, ⟨t, .divider⟩ :: rest
  | values, stray, ⟨t, .unknownOption⟩ :: rest => consume values (stray ++ [t]) rest

/-- The values that a command line gives to the options, over their defaults. -/
def parse (defaults : Arguments) (argv : List Text) : Except Stop Arguments :=
  match Argument.readAll argv with
  | .error misuse => .error (.misuse misuse)
  | .ok arguments => consume defaults [] arguments

end CommandLine

end SdkBindings
