import SdkBindings.Execution
import SdkBindings.GeneratorOptions
import SdkBindings.LinkRecord

/-!
Running the generator: the directory for its output is made, the command line is
announced and run, and the file that it has to have written is described.
-/

namespace SdkBindings

namespace Stage

/-- Makes a directory and its missing ancestors. -/
def ensureDirectory (directory : WorkingDirectory) (path : Path) : Stage Unit := do
  if path.text.hasNul then throw .embeddedNul
  let (fs, made) := (← files).ensureDirectory directory path
  setFiles fs
  match made with
  | .ok () => return
  | .error refusal => throw (.onPath refusal.path.text refusal.reason)

/-- Runs a program to its end.  What it writes to the standard output is there before
anything that is still held back. -/
def runProgram (machine : Machine) (execution : Execution) (argv : List Text) :
    Stage Ending := do
  let fs ← files
  modify fun world => { world with launches := world.launches ++ [⟨argv, fs⟩] }
  modify fun world => world.withProgramOutput execution.program.output
  emitError (execution.program.complaint machine.directory)
  setFiles (execution.effect machine.directory fs)
  return execution.program.ending

/-- Finds the program that a command line names, and runs it. -/
def runCommand (machine : Machine) (name : Text) (argv : List Text) : Stage Ending := do
  if argv.any Text.hasNul then throw .embeddedNul
  match machine.find (← files) name argv with
  | .ok execution => runProgram machine execution argv
  | .error .noEntry => throw (.generator (.notFound name))
  | .error .permission => throw (.generator (.notExecutable name))
  | .error reason => throw (.onPath name reason)

/-- Runs the generator for a header and describes the file that it has to have
written.  The announcement does not wait for the end of the run. -/
def generate (machine : Machine) (header : Path) (config : GeneratorOptions)
    (generator : Text) : Stage WrittenFile := do
  let argv := config.argv generator header
  ensureDirectory machine.directory config.output.parent
  say ("  Running: " ++ shellCommand argv)
  flush
  let ending ← runCommand machine generator argv
  if ending.status ≠ 0 then throw (.generator (.unsuccessful generator ending))
  check fun fs => fs.describe machine.directory config.output

end Stage

end SdkBindings
