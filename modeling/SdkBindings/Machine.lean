import SdkBindings.Fault
import SdkBindings.Shown

/-!
The machine that a run meets, and what a run does to the world: it changes files,
writes to its two streams and starts programs.  What a run prints is held back from
the standard output until it is flushed, or until the run is over, while a program
writes there at once.  A stage that fails keeps what it has done so far.
-/

namespace SdkBindings

/-- What an executable file does when it is run: it writes to the two streams,
may overwrite the file named by its last argument and do anything else to the files,
and ends. -/
structure Program where
  output : Text
  /-- What goes to the error stream, by the directory where it is started. -/
  complaint : WorkingDirectory → Text
  /-- The bytes for the last argument's file, by the arguments; or it is left
  alone. -/
  emission : List Text → Option Text
  ending : Ending
  /-- What else becomes of the files, by the directory where it is started and its
  arguments. -/
  aftermath : WorkingDirectory → List Text → FileSystem → FileSystem := fun _ _ fs => fs

/-- What a shell says before it runs a script.  It wants to know the path of its
working directory, and goes on without one. -/
def shellComplaint (directory : WorkingDirectory) : Text :=
  match directory.path? with
  | some _ => []
  | none => "sh: 0: getcwd() failed: No such file or directory" ++ [Text.newline]

/-- What stays the same during a run. -/
structure Machine where
  /-- The working directory. -/
  directory : WorkingDirectory
  /-- Directories in which programs are looked for, with colons between them. -/
  searchPath : Text
  /-- The programs of this machine, by the content of their files.  They are scripts
  that its shell runs. -/
  programs : Text → Option Program

/-- A program that was started, the file system it found, and its arguments with
its name before them. -/
structure Launch where
  arguments : List Text
  files : FileSystem
  deriving DecidableEq, Repr

/-- What a run changes. -/
structure World where
  files : FileSystem
  /-- What the standard output has received. -/
  written : Text
  /-- What was printed and is held back from it. -/
  buffer : Text
  errors : Text
  launches : List Launch
  deriving DecidableEq, Repr

namespace World

/-- A world in which nothing has been written or started yet. -/
def initial (files : FileSystem) : World where
  files := files
  written := []
  buffer := []
  errors := []
  launches := []

/-- The standard output if the run is over: what is held back follows then. -/
def output (world : World) : Text :=
  world.written ++ world.buffer

/-- The world after more has been printed. -/
def withPrinted (world : World) (t : Text) : World :=
  { world with buffer := world.buffer ++ t }

/-- The world when nothing is held back any more. -/
def flushed (world : World) : World :=
  { world with written := world.written ++ world.buffer, buffer := [] }

/-- The world after a program has written to the standard output. -/
def withProgramOutput (world : World) (t : Text) : World :=
  { world with written := world.written ++ t }

@[simp] theorem output_withPrinted (world : World) (t : Text) :
    (world.withPrinted t).output = world.output ++ t :=
  (List.append_assoc _ _ _).symm

@[simp] theorem output_flushed (world : World) : world.flushed.output = world.output :=
  List.append_nil _

/-- What a program writes comes before what is held back. -/
theorem output_withProgramOutput {world : World} (h : world.buffer = []) (t : Text) :
    (world.withProgramOutput t).output = world.output ++ t := by
  simp [output, withProgramOutput, h]

end World

/-- A stage of a run: a result or a fault, and in both cases the world after it. -/
abbrev Stage := ExceptT Fault (StateM World)

namespace Stage

/-- What a stage gives in a world, and the world after it. -/
def runIn {α : Type} (stage : Stage α) (world : World) : Except Fault α × World :=
  ExceptT.run stage world

/-- The file system as the stage finds it. -/
def files : Stage FileSystem := do
  return (← get).files

def setFiles (fs : FileSystem) : Stage Unit :=
  modify fun world => { world with files := fs }

/-- Bytes for the standard output, as they are. -/
def emit (t : Text) : Stage Unit :=
  modify fun world => world.withPrinted t

/-- Hands on what was held back from the standard output. -/
def flush : Stage Unit :=
  modify World.flushed

/-- Bytes on the standard error stream, as they are. -/
def emitError (t : Text) : Stage Unit :=
  modify fun world => { world with errors := world.errors ++ t }

/-- A line for the standard output. -/
def say (t : Text) : Stage Unit :=
  emit (shown t ++ [Text.newline])

/-- A line on the standard error stream. -/
def complain (t : Text) : Stage Unit :=
  emitError (shown t ++ [Text.newline])

/-- A check of the file system, which changes nothing. -/
def check {α : Type} (question : FileSystem → Except Fault α) : Stage α := do
  match question (← files) with
  | .ok answer => return answer
  | .error fault => throw fault

variable {α β : Type}

@[simp] theorem runIn_pure (a : α) (world : World) :
    (pure a : Stage α).runIn world = (.ok a, world) := rfl

@[simp] theorem runIn_throw (fault : Fault) (world : World) :
    (throw fault : Stage α).runIn world = (.error fault, world) := rfl

/-- A stage after another one starts in the world that the other leaves, and does
not start after a fault. -/
theorem runIn_bind (stage : Stage α) (next : α → Stage β) (world : World) :
    (stage >>= next).runIn world =
      match stage.runIn world with
      | (.ok a, after) => (next a).runIn after
      | (.error fault, after) => (.error fault, after) := by
  show (ExceptT.bind stage next : StateM World (Except Fault β)) world = _
  simp only [runIn, ExceptT.bind, ExceptT.mk, ExceptT.run, bind, StateT.bind]
  rcases (stage : StateM World (Except Fault α)) world with ⟨a | a, after⟩ <;> rfl

@[simp] theorem runIn_files (world : World) : files.runIn world = (.ok world.files, world) := rfl

@[simp] theorem runIn_setFiles (fs : FileSystem) (world : World) :
    (setFiles fs).runIn world = (.ok (), { world with files := fs }) := rfl

@[simp] theorem runIn_emit (t : Text) (world : World) :
    (emit t).runIn world = (.ok (), world.withPrinted t) := rfl

@[simp] theorem runIn_flush (world : World) : flush.runIn world = (.ok (), world.flushed) := rfl

@[simp] theorem runIn_emitError (t : Text) (world : World) :
    (emitError t).runIn world = (.ok (), { world with errors := world.errors ++ t }) := rfl

@[simp] theorem runIn_say (t : Text) (world : World) :
    (say t).runIn world = (.ok (), world.withPrinted (shown t ++ [Text.newline])) := rfl

@[simp] theorem runIn_complain (t : Text) (world : World) :
    (complain t).runIn world =
      (.ok (), { world with errors := world.errors ++ (shown t ++ [Text.newline]) }) := rfl

/-- A check leaves the world as it is, whatever its answer. -/
@[simp] theorem runIn_check (question : FileSystem → Except Fault α) (world : World) :
    (check question).runIn world = (question world.files, world) := by
  simp only [check, runIn_bind, runIn_files]
  cases question world.files <;> rfl

/-- Handling a fault starts in the world in which it came up. -/
theorem runIn_tryCatch (stage : Stage α) (handle : Fault → Stage α) (world : World) :
    (tryCatch stage handle).runIn world =
      match stage.runIn world with
      | (.ok a, after) => (.ok a, after)
      | (.error fault, after) => (handle fault).runIn after := by
  simp only [runIn, tryCatch, tryCatchThe, MonadExceptOf.tryCatch, ExceptT.tryCatch, ExceptT.run,
    ExceptT.mk, bind, StateT.bind]
  rcases (stage : StateM World (Except Fault α)) world with ⟨a | a, after⟩ <;> rfl

end Stage

end SdkBindings
