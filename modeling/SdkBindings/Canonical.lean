import SdkBindings.FileAccess

/-!
Canonical paths.  A path is walked by its spelling: a route from the root, or
from the working directory with some levels up, on which no component is a link
as far as the system can tell.  A link is replaced by the route to what it leads
to, found once and remembered.  A link met again while its own target is being
walked is a loop; a strict walk refuses it, and a lenient one takes the rest of
the text as it stands.

The walk over the target of a link takes place inside the walk that met the link.  An
interpreter that gives each of them a frame of its stack has room for about a thousand
inside each other, and refuses one more in the way in which it refuses a loop.  How many
there is room for is a parameter here; `resolve` is the case of an interpreter that has
room for as many as there are.
-/

namespace SdkBindings

/-- The spelling of what has been walked so far; names are innermost first. -/
inductive Route where
  | fromRoot (names : List Text)
  | fromHere (levelsUp : Nat) (names : List Text)
  deriving DecidableEq, Repr

namespace Route

/-- The text of a route.  The route that has not moved has the empty text. -/
def text : Route → Text
  | fromRoot names => Text.slash :: Text.joinWith [Text.slash] names.reverse
  | fromHere levelsUp names =>
    Text.joinWith [Text.slash] (List.replicate levelsUp Path.up ++ names.reverse)

/-- Where the walk over a text begins that is met on a route. -/
def startOf (route : Route) (t : Text) : Route :=
  if isAbsolute t then fromRoot [] else route

/-- One component further. -/
def enter (name : Text) : Route → Route
  | fromRoot names => fromRoot (name :: names)
  | fromHere levelsUp names => fromHere levelsUp (name :: names)

/-- One component back.  Above the working directory levels are counted, and
above the root there is nothing. -/
def back : Route → Route
  | fromRoot names => fromRoot names.tail
  | fromHere levelsUp [] => fromHere (levelsUp + 1) []
  | fromHere levelsUp (_ :: names) => fromHere levelsUp names

end Route

/-- Where a walk by spelling ends. -/
inductive Course where
  /-- Everything was walked. -/
  | reached (route : Route)
  /-- A loop was met, and the text is what was left of the path. -/
  | lost (text : Text)
  deriving DecidableEq, Repr

/-- Why a walk by spelling cannot go on. -/
inductive Obstacle where
  | system (reason : Errno)
  | loop
  | embeddedNul
  deriving DecidableEq, Repr

/-- The links met so far, by the spelling under which they were met, with the
route to what they lead to once it is known. -/
abbrev LinksMet := List (Route × Option Route)

/-- A text put after another with one slash between them; an absolute one
replaces it. -/
def appendText (before after : Text) : Text :=
  if isAbsolute after then after
  else if before = [] ∨ before.getLast? = some Text.slash then before ++ after
  else before ++ Text.slash :: after

/-- The components still to be walked, as one text. -/
def remainder (parts : List Text) : Text :=
  Text.joinWith [Text.slash] parts

namespace Canonical

/-- What a walk needs to know of the world: what stands at the end of a spelling,
and whether failures end the walk. -/
structure Survey where
  look : Text → Except Errno Node
  strict : Bool

/-- A result and the links met until then. -/
abbrev Outcome := Except Obstacle (Course × LinksMet)

/-- How a walk ends, and the texts that were looked up on the way. -/
structure Journey where
  outcome : Outcome
  looked : List Text

namespace Journey

/-- A journey that is over before anything is looked up. -/
def ended (outcome : Outcome) : Journey where
  outcome := outcome
  looked := []

/-- A text is looked up before a journey. -/
def after (t : Text) (journey : Journey) : Journey where
  outcome := journey.outcome
  looked := t :: journey.looked

/-- A journey, and another one that begins where it ends. -/
def onward (first : Journey) (go : Outcome → Journey) : Journey where
  outcome := (go first.outcome).outcome
  looked := first.looked ++ (go first.outcome).looked

end Journey

/-- The walk over given components; `onLink` walks the target of a link. -/
def tour (survey : Survey) (onLink : Route → Text → LinksMet → Journey) :
    Route → LinksMet → List Text → Journey
  | route, met, [] => .ended (.ok (.reached route, met))
  | route, met, part :: rest =>
    if part = [] ∨ part = Path.here then tour survey onLink route met rest
    else if part = Path.up then tour survey onLink route.back met rest
    else if part.hasNul then .ended (.error .embeddedNul)
    else
      let next := route.enter part
      .after next.text <|
        match survey.look next.text with
        | .error reason =>
          if survey.strict then .ended (.error (.system reason))
          else tour survey onLink next met rest
        | .ok (.link target) =>
          match met.lookup next with
          | some (some known) => tour survey onLink known met rest
          | some none =>
            if survey.strict then .ended (.error .loop)
            else .ended (.ok (.lost (appendText next.text (remainder rest)), met))
          | none =>
            (onLink route target.text ((next, none) :: met)).onward fun
              | .error obstacle => .ended (.error obstacle)
              | .ok (.lost text, met') =>
                .ended (.ok (.lost (appendText text (remainder rest)), met'))
              | .ok (.reached known, met') =>
                tour survey onLink known ((next, some known) :: met') rest
        | .ok _ => tour survey onLink next met rest

/-- The walk over a text from a route.  The number is the room for walks inside each
other, this one and those over the targets of links; without any left it ends as at
a loop. -/
def journey (survey : Survey) : Nat → Route → Text → LinksMet → Journey
  | 0, _, _, _ => .ended (.error .loop)
  | room + 1, route, t, met =>
    tour survey (journey survey room) (route.startOf t) met (Text.fields Text.slash t)

/-- Where the walk over a text ends. -/
def follow (survey : Survey) (room : Nat) (route : Route) (t : Text) (met : LinksMet) : Outcome :=
  (journey survey room route t met).outcome

end Canonical

/-- An absolute path without two dots, by its text.  A relative text needs a
working directory that was not taken away. -/
def WorkingDirectory.absolute (directory : WorkingDirectory) (t : Text) : Except Obstacle Path :=
  if isAbsolute t then .ok (Path.ofText t).collapse
  else match directory.path? with
    | some path => .ok (path ++ Path.ofText t).collapse
    | none => .error (.system .noEntry)

namespace FileSystem

/-- The canonical path of a text, links and two dots replaced by what they lead to,
with room for that many walks inside each other.  A lenient walk takes what is
missing as it is spelled. -/
def resolveWithin (fs : FileSystem) (room : Nat) (strict : Bool) (directory : WorkingDirectory)
    (t : Text) : Except Obstacle Path :=
  match Canonical.follow ⟨fs.linkStat directory, strict⟩ room (.fromHere 0 []) t [] with
  | .ok (.reached route, _) => directory.absolute route.text
  | .ok (.lost text, _) => directory.absolute text
  | .error obstacle => .error obstacle

/-- A room that no walk exceeds.  A link is entered once for each spelling of it, and
a spelling within the path limit goes up less than a third of the limit in levels.  An
interpreter that bounds the depth of its recursion has as much for shallow nesting only. -/
def nestingBound (fs : FileSystem) : Nat :=
  fs.linkCount * (pathLimit / 3 + 1) + 1

/-- The canonical path of a text for an interpreter that has room for every walk. -/
def resolve (fs : FileSystem) (strict : Bool) (directory : WorkingDirectory) (t : Text) :
    Except Obstacle Path :=
  fs.resolveWithin fs.nestingBound strict directory t

end FileSystem

end SdkBindings
