import SdkBindings.Preview
import SdkBindings.Summary
import SdkBindings.Usage

/-!
A whole run, from a command line to an exit status.  Configuration errors,
failures of the generator and refused system calls are reported on the error
stream and end the run with a status; the remaining faults are not expected and
leave it as they are, without a status.
-/

namespace SdkBindings

/-- How a run ends: with a status, or without one in a fault that nothing reports. -/
inductive RunEnd where
  | exited (status : Int)
  | escaped (fault : Fault)
  deriving DecidableEq, Repr

namespace Stage

/-- Reports a configuration error, with its hint if there is one. -/
def tellConfigurationError (error : ConfigurationError) : Stage Unit := do
  complain ("Config error [" ++ error.code.text ++ "]: " ++ error.message)
  match error.suggestion with
  | none | some [] => return
  | some suggestion => complain ("Hint: " ++ suggestion)

/-- Reports a fault that a run is prepared for, and gives the exit status. -/
def reportFault : Fault → Stage RunEnd
  | .config error => do
    tellConfigurationError error
    return .exited GeneratorFailure.refusedStatus
  | .generator failure => do
    complain ("Generator error: " ++ failure.message)
    return .exited failure.exitStatus
  | .system reason file => do
    complain ("Error: " ++ systemMessage reason file)
    return .exited GeneratorFailure.refusedStatus
  | fault => return .escaped fault

/-- What a configuration asks for: the preview, or the pipeline and its summary. -/
def runConfiguration (machine : Machine) (config : Configuration) : Stage RunEnd := do
  if config.showConfig then preview machine config
  else
    let result ← produce machine config
    printSummary result
  return .exited 0

/-- Help goes to the output, the report of a misuse to the error stream. -/
def reportStop : Stop → Stage RunEnd
  | .help => do
    emit Usage.help
    return .exited Usage.helpStatus
  | .misuse misuse => do
    emitError (Usage.report misuse)
    return .exited Usage.misuseStatus

/-- A run with a command line. -/
def runCommandLine (machine : Machine) (places : Places) (argv : List Text) : Stage RunEnd :=
  match CommandLine.parse (.defaults places) argv with
  | .error stop => reportStop stop
  | .ok arguments =>
    tryCatch (do
      match Configuration.ofArguments arguments with
      | .ok config => runConfiguration machine config
      | .error fault => throw fault) reportFault

end Stage

end SdkBindings
