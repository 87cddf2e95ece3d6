import SdkBindings.FileAccess

/-!
Laying out a file system entry by entry, also while a program works in it, and
telling two file systems apart.  An entry whose parents are missing brings them
along; one that cannot be made is left out.
-/

namespace SdkBindings

/-- An instruction for laying out a file system. -/
inductive LayoutEntry where
  | directory (path : Text)
  | file (path : Text) (executable : Bool) (content : Text)
  | link (path : Text) (target : Text)
  | pipe (path : Text)
  /-- Takes away what the path names, with everything below it. -/
  | removed (path : Text)
  deriving DecidableEq, Repr

namespace FileSystem

/-- Only the root. -/
def empty : FileSystem where
  entries := []

/-- Sets the permission to execute of the file that a path leads to. -/
def setExecutable (fs : FileSystem) (directory : WorkingDirectory) (t : Text) (executable : Bool) :
    FileSystem :=
  match fs.locate .follow directory t with
  | .found place =>
    match fs.get? place with
    | some (.file _ content) => fs.replace place (.file executable content)
    | _ => fs
  | _ => fs

/-- A new entry where there is none. -/
def add (fs : FileSystem) (directory : WorkingDirectory) (t : Text) (node : Node) : FileSystem :=
  match fs.locate .keep directory t with
  | .vacant parent name => fs.create (name :: parent) node
  | _ => fs

/-- The place of the entry that a path names, be it a link. -/
def entryPlace? (fs : FileSystem) (directory : WorkingDirectory) (t : Text) : Option Place :=
  match fs.locate .keep directory t with
  | .found place => some place
  | _ => none

/-- Takes away the entry that a path names. -/
def discard (fs : FileSystem) (directory : WorkingDirectory) (t : Text) : FileSystem :=
  match fs.entryPlace? directory t with
  | some place => fs.remove place
  | none => fs

/-- The directory above a path, made if it is missing. -/
def withParent (fs : FileSystem) (directory : WorkingDirectory) (t : Text) : FileSystem :=
  (fs.ensureDirectory directory (Path.ofText t).parent).1

/-- One entry laid out in a directory. -/
def layOut (directory : WorkingDirectory) (fs : FileSystem) : LayoutEntry → FileSystem
  | .directory path => (fs.ensureDirectory directory (Path.ofText path)).1
  | .file path executable content =>
    match (fs.withParent directory path).write directory path content with
    | .ok written => written.setExecutable directory path executable
    | .error _ => fs.withParent directory path
  | .link path target =>
    if h : isTarget target then
      (fs.withParent directory path).add directory path (.link ⟨target, h⟩)
    else fs.withParent directory path
  | .pipe path => (fs.withParent directory path).add directory path .pipe
  | .removed path => fs.discard directory path

/-- Entries laid out one after the other. -/
def layOutAll (directory : WorkingDirectory) (fs : FileSystem) (entries : List LayoutEntry) :
    FileSystem :=
  entries.foldl (layOut directory) fs

/-- Every place that has an entry in one of two file systems. -/
def placesOf (before after : FileSystem) : List Place :=
  ((before.entries ++ after.entries).map Prod.fst).eraseDups

/-- The places at which two file systems differ, with what stands there in the
second. -/
def changes (before after : FileSystem) : List (Place × Option Node) :=
  ((placesOf before after).filter fun place => before.get? place != after.get? place).map
    fun place => (place, after.get? place)

end FileSystem

/-- A file system, and the directory in it where a program works. -/
structure Workplace where
  files : FileSystem
  directory : WorkingDirectory
  deriving DecidableEq, Repr

namespace Workplace

/-- One entry laid out from a base directory.  What is taken away may be the
directory where the program works. -/
def layOut (base : WorkingDirectory) (workplace : Workplace) (entry : LayoutEntry) :
    Workplace where
  files := workplace.files.layOut base entry
  directory :=
    match entry with
    | .removed path =>
      match workplace.files.entryPlace? base path with
      | some place => workplace.directory.without place
      | none => workplace.directory
    | _ => workplace.directory

/-- Entries laid out one after the other. -/
def layOutAll (base : WorkingDirectory) (workplace : Workplace) (entries : List LayoutEntry) :
    Workplace :=
  entries.foldl (layOut base) workplace

/-- The file system is laid out as if no program worked in it. -/
theorem files_layOutAll (base : WorkingDirectory) (workplace : Workplace)
    (entries : List LayoutEntry) :
    (workplace.layOutAll base entries).files = workplace.files.layOutAll base entries := by
  induction entries generalizing workplace with
  | nil => rfl
  | cons entry rest ih => exact ih (workplace.layOut base entry)

end Workplace

end SdkBindings
