import SdkBindings.Canonical
import SdkBindings.Interpreter
import SdkBindings.Machine

/-!
Starting a program.  A name with a slash is a path; any other is tried in each
directory of the search path.  A script is run by the interpreter that it asks
for, which may be a script in turn.  Of several refusals the first that means more
than a missing file is the one reported, and otherwise the last one.
-/

namespace SdkBindings

/-- A program as it is started: with its arguments, the name before them left out. -/
structure Execution where
  program : Program
  arguments : List Text

namespace FileSystem

/-- The content of a file that may be executed. -/
def executable (fs : FileSystem) (directory : WorkingDirectory) (t : Text) :
    Except Errno Text :=
  match fs.stat directory t with
  | .ok (.file true content) => .ok content
  | .ok _ => .error .permission
  | .error reason => .error reason

end FileSystem

namespace Machine

/-- The longest text that can be handed to a program, its end included. -/
def handedLimit : Nat := 131072

/-- The room for everything that is handed to a program. -/
def handedSpace : Nat := 2097152

/-- What is handed to a program: its name and arguments, and the search path as the
one text of its environment. -/
def handed (machine : Machine) (argv : List Text) : List Text :=
  argv ++ ["PATH=" ++ machine.searchPath]

/-- Whether there is room for what is handed to a program at a path.  Each text
takes its length and one byte, and a word that points to it. -/
def hasRoom (machine : Machine) (argv : List Text) (path : Text) : Bool :=
  let texts := machine.handed argv
  let sizes := (path :: texts).map fun t => t.length + 1
  texts.all (·.length < handedLimit) &&
    sizes.foldr (· + ·) 0 + 8 * texts.length ≤ handedSpace

/-- How many files one start may lead through, the shell that runs a program at its
end among them. -/
def startBound : Nat := 6

/-- The program that runs the file at a path, with what is put before the arguments
on the way there.  The number is that of the files that may still be led through. -/
def loadWithin (machine : Machine) (fs : FileSystem) :
    Nat → Text → List Text → Except Errno Execution
  | 0, path, _ =>
    match fs.executable machine.directory path with
    | .error reason => .error reason
    | .ok _ => .error .tooManyLinks
  | bound + 1, path, arguments =>
    match fs.executable machine.directory path with
    | .error reason => .error reason
    | .ok content =>
      match machine.programs content, Interpreter.ofContent? content with
      | some program, _ =>
        if bound = 0 then .error .tooManyLinks else .ok ⟨program, arguments⟩
      | none, none => .error .execFormat
      | none, some interpreter =>
        loadWithin machine fs bound interpreter.path
          (interpreter.argument.toList ++ path :: arguments)

/-- What is put before the arguments on the way leaves the last of them last. -/
theorem getLast?_of_loadWithin {machine : Machine} {fs : FileSystem} {bound : Nat} {path : Text}
    {arguments : List Text} {execution : Execution} (hne : arguments ≠ [])
    (h : machine.loadWithin fs bound path arguments = .ok execution) :
    execution.arguments.getLast? = arguments.getLast? := by
  induction bound generalizing path arguments with
  | zero =>
    unfold loadWithin at h
    split at h <;> simp at h
  | succ bound ih =>
    unfold loadWithin at h
    split at h
    · simp at h
    · split at h
      · split at h
        · simp at h
        · injection h with h
          rw [← h]
      · simp at h
      · rw [ih (by simp) h, List.getLast?_append, List.getLast?_cons,
          List.getLast?_eq_some_getLast hne]
        simp

theorem programs_of_loadWithin {machine : Machine} {fs : FileSystem} {bound : Nat} {path : Text}
    {arguments : List Text} {execution : Execution}
    (h : machine.loadWithin fs bound path arguments = .ok execution) :
    ∃ content, machine.programs content = some execution.program := by
  induction bound generalizing path arguments with
  | zero =>
    unfold loadWithin at h
    split at h <;> simp at h
  | succ bound ih =>
    unfold loadWithin at h
    split at h
    · simp at h
    · next content _ =>
      split at h
      · next program _ hprogram =>
        split at h
        · simp at h
        · obtain rfl := Except.ok.inj h
          exact ⟨content, hprogram⟩
      · simp at h
      · exact ih h

/-- The program that runs the file at a path for a command line. -/
def load (machine : Machine) (fs : FileSystem) (argv : List Text) (path : Text) :
    Except Errno Execution :=
  match fs.executable machine.directory path with
  | .error reason => .error reason
  | .ok _ =>
    if machine.hasRoom argv path then machine.loadWithin fs startBound path argv.tail
    else .error .argumentListTooLong

/-- The paths under which a program is looked for. -/
def candidates (machine : Machine) (name : Text) : List Text :=
  if name.contains Text.slash then [name]
  else (Text.fields Text.colon machine.searchPath).map fun dir => appendText dir name

/-- The refusal to report of those that were met, in their order. -/
def reported (reasons : List Errno) : Errno :=
  match reasons.find? fun reason => reason ≠ .noEntry ∧ reason ≠ .notDirectory with
  | some reason => reason
  | none => reasons.getLastD .noEntry

/-- The first program that can be started under a name. -/
def find (machine : Machine) (fs : FileSystem) (name : Text) (argv : List Text) :
    Except Errno Execution :=
  let attempts := (machine.candidates name).map (machine.load fs argv)
  match attempts.findSome? Except.toOption with
  | some execution => .ok execution
  | none => .error (reported (attempts.filterMap refusal?))
where
  /-- Why an attempt failed. -/
  refusal? : Except Errno Execution → Option Errno
    | .ok _ => none
    | .error reason => some reason

end Machine

/-- The file system after a program has written what it writes to the file named by its
last argument.  A writing that fails leaves no trace. -/
def Execution.emitted (execution : Execution) (directory : WorkingDirectory)
    (fs : FileSystem) : FileSystem :=
  match execution.program.emission execution.arguments, execution.arguments.getLast? with
  | some content, some last =>
    match fs.write directory last content with
    | .ok written => written
    | .error _ => fs
  | _, _ => fs

/-- The file system after a program has run. -/
def Execution.effect (execution : Execution) (directory : WorkingDirectory)
    (fs : FileSystem) : FileSystem :=
  execution.program.aftermath directory execution.arguments (execution.emitted directory fs)

end SdkBindings
