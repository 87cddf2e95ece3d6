import SdkBindings.Decimal
import SdkBindings.FileAccess
import SdkBindings.Quoted

/-!
What can go wrong, by its cause, and the words in which it is told.  A
configuration error carries one of four codes and a hint, a generator failure
the exit status that a shell would report, and a refused system call the name of
the file as the caller spelled it.
-/

namespace SdkBindings

/-- The kinds of configuration error. -/
inductive ErrorCode where
  | headerNotFound
  | libraryDirNotFound
  | libraryNotFound
  | invalidGenerator
  deriving DecidableEq, Repr

namespace ErrorCode

def text : ErrorCode → Text
  | headerNotFound => "HEADER_NOT_FOUND"
  | libraryDirNotFound => "LIBRARY_DIR_NOT_FOUND"
  | libraryNotFound => "LIBRARY_NOT_FOUND"
  | invalidGenerator => "INVALID_GENERATOR"

/-- Every code, in the order of the texts. -/
def all : List ErrorCode :=
  [headerNotFound, invalidGenerator, libraryDirNotFound, libraryNotFound]

/-- The code that a text spells. -/
def ofText? (t : Text) : Option ErrorCode :=
  all.find? fun code => code.text = t

end ErrorCode

/-- A configuration that the run cannot start from. -/
structure ConfigurationError where
  code : ErrorCode
  message : Text
  suggestion : Option Text
  deriving DecidableEq, Repr

/-- What is said of a text that spells no code. -/
def unknownCodeMessage (t : Text) : Text :=
  "Unknown config error code: " ++ t

/-- The exit status that a shell reports: the status itself, and 128 and the
signal for a process that a signal ended, whose status is minus that signal. -/
def shellStatus (status : Int) : Int :=
  if status < 0 then 128 - status else status

/-- A signal that can end a process.  Zero asks whether a process is there, and ends
none. -/
structure Signal where
  number : Nat
  positive : 0 < number
  deriving DecidableEq, Repr

/-- How a process ended.  An exit status is one byte. -/
inductive Ending where
  | exited (status : UInt8)
  | killed (signal : Signal)
  deriving DecidableEq, Repr

namespace Ending

/-- The signals that do not end a process which has made no arrangements for them:
no signal at all, those that it is not told of, and those that would only stop it at
a terminal. -/
def harmless : List Nat :=
  [0, 17, 18, 20, 21, 22, 23, 28]

theorem pos_of_not_mem_harmless {signal : Nat} (h : signal ∉ harmless) : 0 < signal := by
  rcases Nat.eq_zero_or_pos signal with rfl | hpos
  · exact absurd (by decide) h
  · exact hpos

/-- The ending of a process whose last act is to send itself a signal. -/
def ofSignal (signal : Nat) : Ending :=
  if h : signal ∈ harmless then exited 0 else killed ⟨signal, pos_of_not_mem_harmless h⟩

/-- The ending as one number, signals below zero. -/
def status : Ending → Int
  | exited status => status.toNat
  | killed signal => -signal.number

/-- The names of the signals that have one of their own; the real-time signals
between the first and the last do not. -/
def signalNames : List (Nat × String) :=
  [(1, "SIGHUP"), (2, "SIGINT"), (3, "SIGQUIT"), (4, "SIGILL"), (5, "SIGTRAP"),
   (6, "SIGABRT"), (7, "SIGBUS"), (8, "SIGFPE"), (9, "SIGKILL"), (10, "SIGUSR1"),
   (11, "SIGSEGV"), (12, "SIGUSR2"), (13, "SIGPIPE"), (14, "SIGALRM"), (15, "SIGTERM"),
   (16, "SIGSTKFLT"), (17, "SIGCHLD"), (18, "SIGCONT"), (19, "SIGSTOP"), (20, "SIGTSTP"),
   (21, "SIGTTIN"), (22, "SIGTTOU"), (23, "SIGURG"), (24, "SIGXCPU"), (25, "SIGXFSZ"),
   (26, "SIGVTALRM"), (27, "SIGPROF"), (28, "SIGWINCH"), (29, "SIGIO"), (30, "SIGPWR"),
   (31, "SIGSYS"), (34, "SIGRTMIN"), (64, "SIGRTMAX")]

/-- The ending in words. -/
def words : Ending → Text
  | exited status => "exited with code " ++ Decimal.ofNat status.toNat
  | killed signal =>
    match signalNames.lookup signal.number with
    | some name => "killed by " ++ Text.ofString name
    | none => "killed by signal " ++ Decimal.ofNat signal.number

end Ending

/-- The report of a refused system call. -/
def systemMessage (reason : Errno) (file : Option Text) : Text :=
  "[Errno " ++ Decimal.ofNat reason.number ++ "] " ++ Text.ofString reason.message ++
    match file with
    | some name => ": " ++ quoted name
    | none => []

/-- Why there is no generated file. -/
inductive GeneratorFailure where
  /-- No program of that name was found. -/
  | notFound (generator : Text)
  /-- There is a file of that name, and it may not be executed. -/
  | notExecutable (generator : Text)
  /-- The generator ran and did not succeed. -/
  | unsuccessful (generator : Text) (ending : Ending)
  deriving DecidableEq, Repr

namespace GeneratorFailure

def refusedStatus : Int := 1

def notExecutableStatus : Int := 126

def notFoundStatus : Int := 127

/-- The status with which the run ends in turn. -/
def exitStatus : GeneratorFailure → Int
  | notFound _ => notFoundStatus
  | notExecutable _ => notExecutableStatus
  | unsuccessful _ ending => shellStatus ending.status

def couldNotStart (generator : Text) (reason : Errno) : Text :=
  "Binding generator '" ++ generator ++ "' could not be executed: " ++
    systemMessage reason (some generator)

def message : GeneratorFailure → Text
  | notFound generator => couldNotStart generator .noEntry
  | notExecutable generator => couldNotStart generator .permission
  | unsuccessful generator ending => generator ++ " " ++ ending.words

end GeneratorFailure

/-- What ends a stage early. -/
inductive Fault where
  | config (error : ConfigurationError)
  | generator (failure : GeneratorFailure)
  /-- The system refused a call, on a file if it names one. -/
  | system (reason : Errno) (file : Option Text)
  /-- A path or an argument holds the byte that ends a text for the system. -/
  | embeddedNul
  /-- A path stands for a link that leads back to itself. -/
  | linkLoop (path : Text)
  /-- A path option was given no operand. -/
  | noPathOperand
  /-- The generator option was given no operand. -/
  | noNameOperand
  /-- A file that is read back has no end, so that the run does not come past it. -/
  | endless (path : Text)
  deriving DecidableEq, Repr

namespace Fault

def message : Fault → Text
  | config error => error.message
  | generator failure => failure.message
  | system reason file => systemMessage reason file
  | embeddedNul => "embedded null byte"
  | linkLoop path => "Symlink loop from " ++ quoted path
  | noPathOperand => "expected str, bytes or os.PathLike object, not list"
  | noNameOperand => "'list' object has no attribute 'strip'"
  | endless _ => []

/-- A fault in a file system call on a given path. -/
def onPath (path : Text) (reason : Errno) : Fault :=
  system reason (some path)

end Fault

end SdkBindings
