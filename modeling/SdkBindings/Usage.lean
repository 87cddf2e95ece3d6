import SdkBindings.CommandLine

/-!
What the command line says about itself: its usage, its help, and the report of
a misuse.  Usage and help are wrapped for a terminal of 80 columns.
-/

namespace SdkBindings

namespace Usage

/-- The name under which the program reports. -/
def programName : String := "vimba_bindgen.py"

def usageLines : List String :=
  ["usage: vimba_bindgen.py [-h] [--include-dir INCLUDE_DIR]",
   "                        [--library-dir LIBRARY_DIR] [--output OUTPUT]",
   "                        [--sidecar SIDECAR] [--bindgen BINDGEN]",
   "                        [--check-library-dir] [--show-config]"]

def helpLines : List String :=
  ["",
   "Generate Rust FFI bindings for the Vimba C SDK",
   "",
   "options:",
   "  -h, --help            show this help message and exit",
   "  --include-dir INCLUDE_DIR",
   "  --library-dir LIBRARY_DIR",
   "  --output OUTPUT",
   "  --sidecar SIDECAR",
   "  --bindgen BINDGEN",
   "  --check-library-dir",
   "  --show-config"]

def lines (all : List String) : Text :=
  all.flatMap fun line => Text.ofString line ++ [Text.newline]

def usage : Text :=
  lines usageLines

def help : Text :=
  lines (usageLines ++ helpLines)

/-- A symbol as the error stream takes it: a stray byte `NN` is written `\udcNN`. -/
def symbol : Symbol → Text
  | .scalar c => String.utf8EncodeChar c
  | .raw b => Quoted.numbered (0xdc00 + b.toNat)

/-- The report of a misuse, under the usage. -/
def report (misuse : Misuse) : Text :=
  usage ++ Text.ofString programName ++ ": error: " ++
    (Symbol.decode misuse.message).flatMap symbol ++ [Text.newline]

/-- The exit statuses of help and of a misuse. -/
def helpStatus : Int := 0

def misuseStatus : Int := 2

end Usage

end SdkBindings
