import SdkBindings.Lookup

/-!
What a program can do to a file system from its working directory: ask what a
path leads to, read a file, overwrite or make one, and make directories.  A
reading answers from the file system; a writing gives back the new one, also
when it fails, since a failure can come after a part of the work.

Nobody else changes the file system meanwhile.  At the other end of a pipe somebody
reads, and nobody writes.
-/

namespace SdkBindings

namespace Node

def isDirectory : Node → Bool
  | directory => true
  | _ => false

def isFile : Node → Bool
  | file _ _ => true
  | _ => false

end Node

namespace FileSystem

/-- What a path leads to, or why it leads nowhere. -/
def node (fs : FileSystem) (aim : Aim) (directory : WorkingDirectory) (t : Text) :
    Except Errno Node :=
  match fs.locate aim directory t with
  | .found place =>
    match fs.get? place with
    | some node => .ok node
    | none => .error .noEntry
  | .vacant _ _ => .error .noEntry
  | .removed => .ok .directory
  | .failed reason => .error reason

/-- What a path leads to, links followed. -/
def stat (fs : FileSystem) : WorkingDirectory → Text → Except Errno Node :=
  fs.node .follow

/-- The entry that a path names, be it a link. -/
def linkStat (fs : FileSystem) : WorkingDirectory → Text → Except Errno Node :=
  fs.node .keep

/-- Why a reading gives no bytes: it was refused, or it never comes to an end. -/
inductive ReadFault where
  | refused (reason : Errno)
  | endless
  deriving DecidableEq, Repr

/-- The bytes of a file.  The sink has none to offer.  A full device gives zeros for
ever, and a pipe, to which nobody writes, keeps its reader waiting. -/
def read (fs : FileSystem) (directory : WorkingDirectory) (t : Text) : Except ReadFault Text :=
  match fs.stat directory t with
  | .ok (.file _ content) => .ok content
  | .ok .directory => .error (.refused .isDirectory)
  | .ok .pipe | .ok .fullDevice => .error .endless
  | .ok _ => .ok []
  | .error reason => .error (.refused reason)

/-- A failed writing: the path could not be opened, or it could and the bytes
found no room. -/
inductive WriteFault where
  | opening (reason : Errno)
  | storing (reason : Errno)
  deriving DecidableEq, Repr

/-- Puts bytes into the file that a path leads to, and makes it where it is
missing.  A file that is there keeps its permission, and a pipe takes the bytes. -/
def write (fs : FileSystem) (directory : WorkingDirectory) (t : Text) (content : Text) :
    Except WriteFault FileSystem :=
  match fs.locate .make directory t with
  | .vacant parent name => .ok (fs.create (name :: parent) (.file false content))
  | .removed => .error (.opening .isDirectory)
  | .failed reason => .error (.opening reason)
  | .found place =>
    match fs.get? place with
    | some (.file executable _) => .ok (fs.replace place (.file executable content))
    | some .directory => .error (.opening .isDirectory)
    | some .fullDevice => if content = [] then .ok fs else .error (.storing .noSpace)
    | some _ => .ok fs
    | none => .error (.opening .noEntry)

/-- Makes the directory that a path names in a directory that is there. -/
def makeDirectory (fs : FileSystem) (directory : WorkingDirectory) (t : Text) :
    Except Errno FileSystem :=
  match fs.locate .keep directory t with
  | .found _ | .removed => .error .entryExists
  | .vacant parent name => .ok (fs.create (name :: parent) .directory)
  | .failed reason => .error reason

/-- Asks what a path leads to.  A path that cannot be looked up leads to nothing
of the kind, except where the system gave up on its length. -/
def asks (fs : FileSystem) (directory : WorkingDirectory) (t : Text) (kind : Node → Bool) :
    Except Errno Bool :=
  if t.hasNul then .ok false
  else match fs.stat directory t with
    | .ok node => .ok (kind node)
    | .error reason => if reason.meansAbsent then .ok false else .error reason

/-- A directory at a path whose parent is there.  One that is there already will
do, also behind a link. -/
def ensureLast (fs : FileSystem) (directory : WorkingDirectory) (t : Text) :
    Except Errno FileSystem :=
  match fs.makeDirectory directory t with
  | .ok made => .ok made
  | .error .noEntry => .error .noEntry
  | .error reason =>
    match fs.asks directory t Node.isDirectory with
    | .ok true => .ok fs
    | .ok false => .error reason
    | .error unanswered => .error unanswered

/-- A refused path, and the reason. -/
structure Refusal where
  path : Path
  reason : Errno
  deriving DecidableEq, Repr

/-- A directory at the path with these components, innermost first, and where an
ancestor is missing, that ancestor before.  What was made stays when a later
directory cannot be made.  Every missing ancestor takes one more call inside the
others; an interpreter that bounds their depth gives up at about a thousand, which
this one does not. -/
def ensureParts (fs : FileSystem) (directory : WorkingDirectory) (root : PathRoot) :
    List Text → FileSystem × Except Refusal Unit
  | [] =>
    let path : Path := ⟨root, []⟩
    match fs.ensureLast directory path.text with
    | .ok made => (made, .ok ())
    | .error reason => (fs, .error ⟨path, reason⟩)
  | part :: outer =>
    let path : Path := ⟨root, (part :: outer).reverse⟩
    match fs.ensureLast directory path.text with
    | .ok made => (made, .ok ())
    | .error .noEntry =>
      match fs.ensureParts directory root outer with
      | (above, .error refusal) => (above, .error refusal)
      | (above, .ok ()) =>
        match above.ensureLast directory path.text with
        | .ok made => (made, .ok ())
        | .error reason => (above, .error ⟨path, reason⟩)
    | .error reason => (fs, .error ⟨path, reason⟩)

/-- A directory at a path, with its missing ancestors. -/
def ensureDirectory (fs : FileSystem) (directory : WorkingDirectory) (path : Path) :
    FileSystem × Except Refusal Unit :=
  fs.ensureParts directory path.root path.parts.reverse

end FileSystem

end SdkBindings
