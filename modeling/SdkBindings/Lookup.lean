import SdkBindings.Errno
import SdkBindings.WorkingDirectory

/-!
How the system looks up a path: step by step from the root or the working
directory, each symbolic link replaced by the steps of its target.  A link costs
one from a budget of forty, and between two links the walk is a recursion on the
steps that are left.  From a working directory that was taken away, only two dots
lead anywhere.
-/

namespace SdkBindings

/-- One step of a path as the system takes it. -/
inductive Step where
  /-- A single dot, or an empty component between slashes. -/
  | stay
  /-- Two dots. -/
  | up
  /-- An entry of the directory that was reached. -/
  | enter (name : Name)
  /-- A component that is longer than any name. -/
  | overlong
  /-- A slash after the last component: what it names has to be a directory. -/
  | close
  deriving DecidableEq, Repr

namespace Step

/-- The step that a component between slashes stands for. -/
def ofPart (part : Text) : Step :=
  if part = Path.here then stay
  else if part = Path.up then up
  else if h : isName part then enter ⟨part, h⟩
  else overlong

/-- The steps of a text: one for each component that is not empty, and one more
for a slash at the end. -/
def ofText (t : Text) : List Step :=
  ((Text.fields Text.slash t).filter (· ≠ [])).map ofPart
    ++ if t.getLast? = some Text.slash then [close] else []

/-- Whether all that is left are slashes at the end. -/
def onlyClose (rest : List Step) : Bool :=
  rest ≠ [] ∧ rest.all (· = close)

end Step

/-- Whether a text starts at the root. -/
def isAbsolute (t : Text) : Bool :=
  t.head? = some Text.slash

/-- The place from which a text is walked in the directory at a place. -/
def startFrom (directory : Place) (t : Text) : Place :=
  if isAbsolute t then [] else directory

/-- What a lookup asks for at its last component. -/
inductive Aim where
  /-- What the path leads to, links included. -/
  | follow
  /-- The entry itself, be it a link. -/
  | keep
  /-- A file to be opened, or made where it is missing. -/
  | make
  deriving DecidableEq, Repr

/-- Where a lookup ends. -/
inductive Landing where
  /-- An entry stands at the place. -/
  | found (place : Place)
  /-- The directory is there, and has no entry of that name. -/
  | vacant (directory : Place) (name : Name)
  /-- The end is a directory that was taken away. -/
  | removed
  | failed (reason : Errno)
  deriving DecidableEq, Repr

namespace FileSystem

/-- The walk over given steps.  At a link it goes on as `onLink` says, from the
directory of the link with the steps of the target before those left. -/
def scan (fs : FileSystem) (aim : Aim) (onLink : Place → List Step → Landing) :
    Place → List Step → Landing
  | place, [] => .found place
  | place, step :: rest =>
    match fs.get? place with
    | none => .failed .noEntry
    | some .directory =>
      match step with
      | .stay | .close => scan fs aim onLink place rest
      | .up => scan fs aim onLink place.tail rest
      | .overlong =>
        .failed (if aim = .make ∧ Step.onlyClose rest then .isDirectory else .nameTooLong)
      | .enter name =>
        if aim = .make ∧ Step.onlyClose rest then .failed .isDirectory
        else match fs.get? (name :: place) with
          | none =>
            if rest = [] ∨ Step.onlyClose rest then .vacant place name else .failed .noEntry
          | some (.link target) =>
            if aim = .keep ∧ rest = [] then .found (name :: place)
            else onLink (startFrom place target.text) (Step.ofText target.text ++ rest)
          | some _ => scan fs aim onLink (name :: place) rest
    | some _ => .failed .notDirectory

/-- The walk with a budget of links. -/
def walk (fs : FileSystem) (aim : Aim) : Nat → Place → List Step → Landing
  | 0 => fs.scan aim fun _ _ => .failed .tooManyLinks
  | budget + 1 => fs.scan aim (fs.walk aim budget)

/-- How many links one lookup may follow. -/
def linkBudget : Nat := 40

/-- The walk from a directory that many levels below a place, each of them taken
away.  They are empty: no name leads anywhere, and two dots lead one level up. -/
def climb (fs : FileSystem) (aim : Aim) (place : Place) : Nat → List Step → Landing
  | 0, steps => fs.walk aim linkBudget place steps
  | _ + 1, [] => .removed
  | levels + 1, step :: rest =>
    match step with
    | .stay | .close => climb fs aim place (levels + 1) rest
    | .up => climb fs aim place levels rest
    | .enter _ | .overlong =>
      .failed (if aim = .make ∧ Step.onlyClose rest then .isDirectory else .noEntry)

/-- The system's lookup of a path from a working directory. -/
def locate (fs : FileSystem) (aim : Aim) (directory : WorkingDirectory) (t : Text) : Landing :=
  if pathLimit < t.length then .failed .nameTooLong
  else if t = [] then .failed .noEntry
  else if isAbsolute t then fs.walk aim linkBudget [] (Step.ofText t)
  else fs.climb aim directory.place directory.removedLevels (Step.ofText t)

/-- The lookup from a directory that is there. -/
theorem locate_ofPlace (fs : FileSystem) (aim : Aim) (place : Place) (t : Text) :
    fs.locate aim (.ofPlace place) t =
      if pathLimit < t.length then .failed .nameTooLong
      else if t = [] then .failed .noEntry
      else fs.walk aim linkBudget (startFrom place t) (Step.ofText t) := by
  by_cases h : isAbsolute t = true <;>
    simp [locate, startFrom, WorkingDirectory.ofPlace, climb, h]

end FileSystem

end SdkBindings
