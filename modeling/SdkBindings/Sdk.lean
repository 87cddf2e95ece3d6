import SdkBindings.Canonical
import SdkBindings.Configuration

/-!
The checks of the installed library: its header is a regular file, named by its
canonical path, and, where that is asked for, its directory of libraries holds
one for some platform.
-/

namespace SdkBindings

/-- The header that the bindings are generated from. -/
def libraryHeader : Text := "VimbaC.h"

/-- The library that the bindings are linked with. -/
def linkedLibrary : Text := "VimbaC"

/-- The library's file on each platform. -/
def libraryFiles : List Text :=
  ["lib" ++ linkedLibrary ++ ".so", "lib" ++ linkedLibrary ++ ".dylib", linkedLibrary ++ ".dll"]

namespace ConfigurationError

def headerNotFound (headerName : Text) (includeDir : Path) : ConfigurationError where
  code := .headerNotFound
  message := headerName ++ " in directory '" ++ includeDir.text ++ "' couldn't be found"
  suggestion := some "Install the Vimba SDK or pass --include-dir /path/to/VimbaC/Include"

def libraryDirNotFound (libraryDir : Text) : ConfigurationError where
  code := .libraryDirNotFound
  message := "Library directory does not exist: " ++ libraryDir
  suggestion := some "Pass --library-dir pointing at VimbaC/DynamicLib/<arch>."

def libraryNotFound (libraryDir : Text) : ConfigurationError where
  code := .libraryNotFound
  message := "No " ++ linkedLibrary ++ " library in directory: " ++ libraryDir
  suggestion := some ("Expected one of: " ++ Text.joinWith ", " libraryFiles ++ ".")

end ConfigurationError

namespace FileSystem

/-- Whether a path leads to a node of a kind; a refused question names the path. -/
def leadsTo (fs : FileSystem) (directory : WorkingDirectory) (path : Path) (kind : Node → Bool) :
    Except Fault Bool :=
  match fs.asks directory path.text kind with
  | .ok answer => .ok answer
  | .error reason => .error (.onPath path.text reason)

/-- The canonical path of a header in a directory, with room for that many walks inside
each other.  A walk that needs more room finds none, as one that comes to a loop. -/
def findHeaderWithin (fs : FileSystem) (room : Nat) (directory : WorkingDirectory)
    (includeDir : Path) (headerName : Text) : Except Fault Path :=
  let notFound := Fault.config (.headerNotFound headerName includeDir)
  match fs.resolveWithin room true directory (includeDir.child headerName).text with
  | .error .embeddedNul => .error .embeddedNul
  | .error _ => .error notFound
  | .ok resolved => do
    if ← fs.leadsTo directory resolved Node.isFile then return resolved
    else throw notFound

/-- The canonical path of a header for an interpreter that has room for every walk. -/
def findHeader (fs : FileSystem) (directory : WorkingDirectory) (includeDir : Path)
    (headerName : Text) : Except Fault Path :=
  fs.findHeaderWithin fs.nestingBound directory includeDir headerName

/-- Whether a directory holds one of some files, asked in their order. -/
def holdsFile (fs : FileSystem) (directory : WorkingDirectory) (path : Path) :
    List Text → Except Fault Bool
  | [] => .ok false
  | name :: others => do
    if ← fs.leadsTo directory (path.child name) Node.isFile then return true
    else fs.holdsFile directory path others

/-- The directory of libraries, if it holds a library of some platform. -/
def checkLibraryDir (fs : FileSystem) (directory : WorkingDirectory) (libraryDir : Operand Text) :
    Except Fault Path :=
  match libraryDir with
  | .nothing => .error .noPathOperand
  | .given spelled => do
    let path := Path.ofText spelled
    if !(← fs.leadsTo directory path Node.isDirectory) then
      throw (.config (.libraryDirNotFound spelled))
    if !(← fs.holdsFile directory path libraryFiles) then
      throw (.config (.libraryNotFound spelled))
    return path

end FileSystem

end SdkBindings
