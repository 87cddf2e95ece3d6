import SdkBindings.Run

/-!
The pipeline as a machine of milestones.  `Reached` says which milestone a run has
passed and what the world is like there, `Stopped` says which fault ends the run
after a milestone and what it leaves behind.  Main statements: a run of the
pipeline gives a result exactly if it reaches the last milestone, and fails
exactly if it is stopped after the last one that it reached.
-/

namespace SdkBindings

instance decidableEqOutcome {ε α : Type} [DecidableEq ε] [DecidableEq α] :
    DecidableEq (Except ε α)
  | .ok a, .ok b => decidable_of_iff (a = b) ⟨congrArg _, Except.ok.inj⟩
  | .error a, .error b => decidable_of_iff (a = b) ⟨congrArg _, Except.error.inj⟩
  | .ok _, .error _ => isFalse nofun
  | .error _, .ok _ => isFalse nofun

namespace World

/-- The world after one more line on the standard output. -/
def withLine (world : World) (t : Text) : World :=
  world.withPrinted (shown t ++ [Text.newline])

@[simp] theorem files_withLine (world : World) (t : Text) :
    (world.withLine t).files = world.files := rfl

@[simp] theorem errors_withLine (world : World) (t : Text) :
    (world.withLine t).errors = world.errors := rfl

@[simp] theorem launches_withLine (world : World) (t : Text) :
    (world.withLine t).launches = world.launches := rfl

def withFiles (world : World) (fs : FileSystem) : World :=
  { world with files := fs }

@[simp] theorem output_withFiles (world : World) (fs : FileSystem) :
    (world.withFiles fs).output = world.output := rfl

/-- The world after a program has run to its end. -/
def withLaunch (world : World) (machine : Machine) (execution : Execution)
    (argv : List Text) : World where
  files := execution.effect machine.directory world.files
  written := world.written ++ execution.program.output
  buffer := world.buffer
  errors := world.errors ++ execution.program.complaint machine.directory
  launches := world.launches ++ [⟨argv, world.files⟩]

theorem output_withLaunch {world : World} (h : world.buffer = []) (machine : Machine)
    (execution : Execution) (argv : List Text) :
    (world.withLaunch machine execution argv).output = world.output ++ execution.program.output :=
  output_withProgramOutput h _

end World

/-- The command line of the generator for the header that was found. -/
def Configuration.command (config : Configuration) (header : Path) : List Text :=
  (GeneratorOptions.forOutput config.output).argv config.generator header

/-- How far a run of the pipeline has come. -/
inductive Milestone where
  | announced
  | located (header : Path)
  | checked (header : Path)
  | recorded (header : Path) (sidecar : WrittenFile)
  | prepared (header : Path) (sidecar : WrittenFile)
  | generated (header : Path) (sidecar : WrittenFile) (ending : Ending)
  | finished (result : Production)

/-- How many stages are left after a milestone. -/
@[simp] def Milestone.remaining : Milestone → Nat
  | announced => 6
  | located _ => 5
  | checked _ => 4
  | recorded _ _ => 3
  | prepared _ _ => 2
  | generated _ _ _ => 1
  | finished _ => 0

/-- The world at a milestone of a run that began in the world `start`. -/
inductive Reached (machine : Machine) (config : Configuration) (start : World) :
    Milestone → World → Prop where
  | announced :
      Reached machine config start .announced
        (start.withLine ("Resolving: " ++ (config.sdk.includeDir.child libraryHeader).text))
  | located {world header} :
      Reached machine config start .announced world →
      world.files.findHeader machine.directory config.sdk.includeDir libraryHeader
        = .ok header →
      Reached machine config start (.located header)
        (world.withLine ("  Header: " ++ header.text))
  | unchecked {world header} :
      Reached machine config start (.located header) world →
      config.checkLibraryDir = false →
      Reached machine config start (.checked header) world
  | checked {world header libraryDir} :
      Reached machine config start (.located header) world →
      config.checkLibraryDir = true →
      world.files.checkLibraryDir machine.directory config.sdk.libraryDir = .ok libraryDir →
      Reached machine config start (.checked header)
        (world.withLine ("  Library: " ++ config.sdk.libraryDir.text ++ " (checked)"))
  | recorded {world header fs sidecar} :
      Reached machine config start (.checked header) world →
      config.sidecar.text.hasNul = false →
      world.files.write machine.directory config.sidecar.text
        (linkRecord config.sdk.libraryDir.text) = .ok fs →
      fs.describe machine.directory config.sidecar = .ok sidecar →
      Reached machine config start (.recorded header sidecar)
        ((world.withFiles fs).withLine
          ("  Link dir: " ++ config.sdk.libraryDir.text ++ " -> " ++ sidecar.path.text))
  | prepared {world header sidecar fs} :
      Reached machine config start (.recorded header sidecar) world →
      config.output.parent.text.hasNul = false →
      world.files.ensureDirectory machine.directory config.output.parent = (fs, .ok ()) →
      Reached machine config start (.prepared header sidecar)
        ((world.withFiles fs).withLine
          ("  Running: " ++ shellCommand (config.command header))).flushed
  | generated {world header sidecar execution} :
      Reached machine config start (.prepared header sidecar) world →
      (config.command header).any Text.hasNul = false →
      machine.find world.files config.generator (config.command header) = .ok execution →
      Reached machine config start (.generated header sidecar execution.program.ending)
        (world.withLaunch machine execution (config.command header))
  | finished {world header sidecar ending bindings} :
      Reached machine config start (.generated header sidecar ending) world →
      ending.status = 0 →
      world.files.describe machine.directory config.output = .ok bindings →
      Reached machine config start
        (.finished {
          header, sidecar, bindings
          libraryDir := config.sdk.libraryDir.text
          sidecarPath := config.sidecar })
        (world.withLine
          ("  Written: " ++ Decimal.ofInt bindings.lineCount ++ " lines to "
            ++ bindings.path.text))

/-- When the program starts, all lines until then are on the standard output. -/
theorem Reached.buffer_eq_nil {machine : Machine} {config : Configuration} {start world : World}
    {header : Path} {sidecar : WrittenFile}
    (h : Reached machine config start (.prepared header sidecar) world) : world.buffer = [] := by
  cases h
  rfl

/-- The fault of a generator that could not be started, by the refusal that the
search for it reports. -/
def startFault (generator : Text) : Errno → Fault
  | .noEntry => .generator (.notFound generator)
  | .permission => .generator (.notExecutable generator)
  | reason => .onPath generator reason

/-- The fault of a file that could not be overwritten. -/
def writeFault (path : Path) : FileSystem.WriteFault → Fault
  | .opening reason => .onPath path.text reason
  | .storing reason => .system reason none

/-- A fault that ends a run after a milestone, and the world that it leaves.  No
fault changes anything but the files: a record that cannot be read back has been
written, and of several directories the first ones may have been made. -/
inductive Stopped (machine : Machine) (config : Configuration) :
    Milestone → World → Fault → World → Prop where
  | header {world fault} :
      world.files.findHeader machine.directory config.sdk.includeDir libraryHeader
        = .error fault →
      Stopped machine config .announced world fault world
  | library {world header fault} :
      config.checkLibraryDir = true →
      world.files.checkLibraryDir machine.directory config.sdk.libraryDir = .error fault →
      Stopped machine config (.located header) world fault world
  | recordNul {world header} :
      config.sidecar.text.hasNul = true →
      Stopped machine config (.checked header) world .embeddedNul world
  | record {world header fault} :
      config.sidecar.text.hasNul = false →
      world.files.write machine.directory config.sidecar.text
        (linkRecord config.sdk.libraryDir.text) = .error fault →
      Stopped machine config (.checked header) world (writeFault config.sidecar fault) world
  | recordLost {world header fs fault} :
      config.sidecar.text.hasNul = false →
      world.files.write machine.directory config.sidecar.text
        (linkRecord config.sdk.libraryDir.text) = .ok fs →
      fs.describe machine.directory config.sidecar = .error fault →
      Stopped machine config (.checked header) world fault (world.withFiles fs)
  | directoryNul {world header sidecar} :
      config.output.parent.text.hasNul = true →
      Stopped machine config (.recorded header sidecar) world .embeddedNul world
  | directory {world header sidecar fs refusal} :
      config.output.parent.text.hasNul = false →
      world.files.ensureDirectory machine.directory config.output.parent
        = (fs, .error refusal) →
      Stopped machine config (.recorded header sidecar) world
        (.onPath refusal.path.text refusal.reason) (world.withFiles fs)
  | commandNul {world header sidecar} :
      (config.command header).any Text.hasNul = true →
      Stopped machine config (.prepared header sidecar) world .embeddedNul world
  | start {world header sidecar reason} :
      (config.command header).any Text.hasNul = false →
      machine.find world.files config.generator (config.command header) = .error reason →
      Stopped machine config (.prepared header sidecar) world
        (startFault config.generator reason) world
  | unsuccessful {world header sidecar ending} :
      ending.status ≠ 0 →
      Stopped machine config (.generated header sidecar ending) world
        (.generator (.unsuccessful config.generator ending)) world
  | outputLost {world header sidecar ending fault} :
      ending.status = 0 →
      world.files.describe machine.directory config.output = .error fault →
      Stopped machine config (.generated header sidecar ending) world fault world

namespace Stage

variable {α : Type}

/-- What a run still has to do after a milestone. -/
def resume (machine : Machine) (config : Configuration) : Milestone → Stage Production
  | .announced => do
    let header ← header machine config
    say ("  Header: " ++ header.text)
    resume machine config (.located header)
  | .located header => do
    libraryCheck machine config
    if config.checkLibraryDir then
      say ("  Library: " ++ config.sdk.libraryDir.text ++ " (checked)")
    resume machine config (.checked header)
  | .checked header => do
    let sidecar ← recordLibraryDir machine.directory config.sdk.libraryDir.text config.sidecar
    say ("  Link dir: " ++ config.sdk.libraryDir.text ++ " -> " ++ sidecar.path.text)
    resume machine config (.recorded header sidecar)
  | .recorded header sidecar => do
    ensureDirectory machine.directory config.output.parent
    say ("  Running: " ++ shellCommand (config.command header))
    flush
    resume machine config (.prepared header sidecar)
  | .prepared header sidecar => do
    let ending ← runCommand machine config.generator (config.command header)
    resume machine config (.generated header sidecar ending)
  | .generated header sidecar ending => do
    if ending.status ≠ 0 then throw (.generator (.unsuccessful config.generator ending))
    else do
      let bindings ← check fun fs => fs.describe machine.directory config.output
      say ("  Written: " ++ Decimal.ofInt bindings.lineCount ++ " lines to " ++ bindings.path.text)
      resume machine config (.finished {
        header, sidecar, bindings
        libraryDir := config.sdk.libraryDir.text
        sidecarPath := config.sidecar })
  | .finished result => return result
termination_by milestone => milestone.remaining
decreasing_by all_goals simp

theorem runIn_write (directory : WorkingDirectory) (path : Path) (content : Text)
    (world : World) :
    (write directory path content).runIn world =
      if path.text.hasNul then (.error .embeddedNul, world)
      else match world.files.write directory path.text content with
        | .ok fs => (.ok (), world.withFiles fs)
        | .error fault => (.error (writeFault path fault), world) := by
  unfold write
  cases path.text.hasNul with
  | true => rfl
  | false =>
      simp only [Bool.false_eq_true, ↓reduceIte, runIn_bind, runIn_files]
      rcases world.files.write directory path.text content with ⟨reason | reason⟩ | fs <;> rfl

theorem runIn_recordLibraryDir (directory : WorkingDirectory) (libraryDir : Text)
    (sidecar : Path) (world : World) :
    (recordLibraryDir directory libraryDir sidecar).runIn world =
      if sidecar.text.hasNul then (.error .embeddedNul, world)
      else match world.files.write directory sidecar.text (linkRecord libraryDir) with
        | .ok fs => (fs.describe directory sidecar, world.withFiles fs)
        | .error fault => (.error (writeFault sidecar fault), world) := by
  rw [recordLibraryDir, runIn_bind, runIn_write]
  cases sidecar.text.hasNul with
  | true => rfl
  | false =>
      simp only [Bool.false_eq_true, ↓reduceIte]
      rcases world.files.write directory sidecar.text (linkRecord libraryDir) with fault | fs
      · rfl
      · exact runIn_check _ _

theorem runIn_ensureDirectory (directory : WorkingDirectory) (path : Path) (world : World) :
    (ensureDirectory directory path).runIn world =
      if path.text.hasNul then (.error .embeddedNul, world)
      else match world.files.ensureDirectory directory path with
        | (fs, .ok ()) => (.ok (), world.withFiles fs)
        | (fs, .error refusal) =>
          (.error (.onPath refusal.path.text refusal.reason), world.withFiles fs) := by
  unfold ensureDirectory
  cases path.text.hasNul with
  | true => rfl
  | false =>
      simp only [Bool.false_eq_true, ↓reduceIte, runIn_bind, runIn_files]
      rcases world.files.ensureDirectory directory path with ⟨fs, refusal | ⟨⟩⟩ <;> rfl

theorem runIn_runCommand (machine : Machine) (name : Text) (argv : List Text)
    (world : World) :
    (runCommand machine name argv).runIn world =
      if argv.any Text.hasNul then (.error .embeddedNul, world)
      else match machine.find world.files name argv with
        | .ok execution =>
          (.ok execution.program.ending, world.withLaunch machine execution argv)
        | .error reason => (.error (startFault name reason), world) := by
  unfold runCommand
  cases argv.any Text.hasNul with
  | true => rfl
  | false =>
      simp only [Bool.false_eq_true, ↓reduceIte, runIn_bind, runIn_files]
      rcases machine.find world.files name argv with reason | execution
      · cases reason <;> rfl
      · rfl

theorem runIn_libraryCheck (machine : Machine) (config : Configuration) (world : World) :
    (libraryCheck machine config).runIn world =
      if config.checkLibraryDir then
        match world.files.checkLibraryDir machine.directory config.sdk.libraryDir with
        | .ok _ => (.ok (), world)
        | .error fault => (.error fault, world)
      else (.ok (), world) := by
  unfold libraryCheck
  cases config.checkLibraryDir with
  | false => rfl
  | true =>
      simp only [↓reduceIte, runIn_bind, runIn_check]
      rcases world.files.checkLibraryDir machine.directory config.sdk.libraryDir with
        fault | libraryDir <;> rfl

theorem generate_bind (machine : Machine) (header : Path) (config : GeneratorOptions)
    (generator : Text) (next : WrittenFile → Stage α) :
    generate machine header config generator >>= next = (do
      ensureDirectory machine.directory config.output.parent
      say ("  Running: " ++ shellCommand (config.argv generator header))
      flush
      let ending ← runCommand machine generator (config.argv generator header)
      if ending.status ≠ 0 then throw (.generator (.unsuccessful generator ending))
      else check (fun fs => fs.describe machine.directory config.output) >>= next) := by
  simp only [generate, bind_assoc]
  refine bind_congr fun _ => bind_congr fun _ => bind_congr fun _ => bind_congr fun ending => ?_
  split <;> rfl

/-- The pipeline is its first line and then the stages one after the other. -/
theorem produce_eq_resume (machine : Machine) (config : Configuration) :
    produce machine config = (do
      say ("Resolving: " ++ (config.sdk.includeDir.child libraryHeader).text)
      resume machine config .announced) := by
  simp only [produce, resume, generate_bind, Configuration.command]
  rfl

/-- One stage further along a run, nothing has been forgotten: what is left to do
from the next milestone gives what was left to do from the one before. -/
theorem runIn_produce_of_reached {machine : Machine} {config : Configuration}
    {start world : World} {milestone : Milestone}
    (h : Reached machine config start milestone world) :
    (produce machine config).runIn start = (resume machine config milestone).runIn world := by
  induction h with
  | announced =>
      rw [produce_eq_resume, runIn_bind, runIn_say]
      rfl
  | located _ hheader ih =>
      rw [ih, resume, header, runIn_bind, runIn_check, hheader]
      rfl
  | unchecked _ hcheck ih =>
      rw [ih, resume, runIn_bind, runIn_libraryCheck, hcheck]
      rfl
  | checked _ hcheck hlibrary ih =>
      rw [ih, resume, runIn_bind, runIn_libraryCheck, hcheck, hlibrary]
      rfl
  | recorded _ hnul hwrite hread ih =>
      rw [ih, resume, runIn_bind, runIn_recordLibraryDir, hnul, hwrite]
      simp only [Bool.false_eq_true, ↓reduceIte, hread]
      rfl
  | prepared _ hnul hmade ih =>
      rw [ih, resume, runIn_bind, runIn_ensureDirectory, hnul, hmade]
      rfl
  | generated _ hnul hfound ih =>
      rw [ih, resume, runIn_bind, runIn_runCommand, hnul, hfound]
      rfl
  | finished _ hstatus hread ih =>
      rw [ih, resume, if_neg (fun hne => hne hstatus), runIn_bind, runIn_check, hread]
      rfl

/-- A run that is stopped gives the fault and the world that it leaves. -/
theorem runIn_resume_of_stopped {machine : Machine} {config : Configuration}
    {world after : World} {milestone : Milestone} {fault : Fault}
    (h : Stopped machine config milestone world fault after) :
    (resume machine config milestone).runIn world = (.error fault, after) := by
  cases h with
  | header hheader =>
      rw [resume, header, runIn_bind, runIn_check, hheader]
  | library hcheck hlibrary =>
      rw [resume, runIn_bind, runIn_libraryCheck, hcheck, hlibrary]
      rfl
  | recordNul hnul =>
      rw [resume, runIn_bind, runIn_recordLibraryDir, hnul]
      rfl
  | record hnul hwrite =>
      rw [resume, runIn_bind, runIn_recordLibraryDir, hnul, hwrite]
      rfl
  | recordLost hnul hwrite hread =>
      rw [resume, runIn_bind, runIn_recordLibraryDir, hnul, hwrite]
      simp only [Bool.false_eq_true, ↓reduceIte, hread]
  | directoryNul hnul =>
      rw [resume, runIn_bind, runIn_ensureDirectory, hnul]
      rfl
  | directory hnul hmade =>
      rw [resume, runIn_bind, runIn_ensureDirectory, hnul, hmade]
      rfl
  | commandNul hnul =>
      rw [resume, runIn_bind, runIn_runCommand, hnul]
      rfl
  | start hnul hfound =>
      rw [resume, runIn_bind, runIn_runCommand, hnul, hfound]
      rfl
  | unsuccessful hstatus =>
      rw [resume, if_pos hstatus]
      rfl
  | outputLost hstatus hread =>
      rw [resume, if_neg (fun hne => hne hstatus), runIn_bind, runIn_check, hread]

/-- At every milestone but the last a run goes on to the next one or is stopped. -/
theorem reached_next_or_stopped {machine : Machine} {config : Configuration}
    {start world : World} {milestone : Milestone}
    (h : Reached machine config start milestone world) :
    (∃ result, milestone = .finished result) ∨
      (∃ fault after, Stopped machine config milestone world fault after) ∨
      ∃ next after, Reached machine config start next after ∧
        next.remaining < milestone.remaining := by
  cases milestone with
  | announced =>
      cases hheader : world.files.findHeader machine.directory config.sdk.includeDir
          libraryHeader with
      | error fault => exact .inr (.inl ⟨fault, world, .header hheader⟩)
      | ok header => exact .inr (.inr ⟨_, _, h.located hheader, by simp⟩)
  | located header =>
      cases hcheck : config.checkLibraryDir with
      | false => exact .inr (.inr ⟨_, _, h.unchecked hcheck, by simp⟩)
      | true =>
          cases hlibrary : world.files.checkLibraryDir machine.directory
              config.sdk.libraryDir with
          | error fault => exact .inr (.inl ⟨fault, world, .library hcheck hlibrary⟩)
          | ok libraryDir => exact .inr (.inr ⟨_, _, h.checked hcheck hlibrary, by simp⟩)
  | checked header =>
      cases hnul : config.sidecar.text.hasNul with
      | true => exact .inr (.inl ⟨_, _, .recordNul hnul⟩)
      | false =>
          cases hwrite : world.files.write machine.directory config.sidecar.text
              (linkRecord config.sdk.libraryDir.text) with
          | error fault => exact .inr (.inl ⟨_, _, .record hnul hwrite⟩)
          | ok fs =>
              cases hread : fs.describe machine.directory config.sidecar with
              | error fault => exact .inr (.inl ⟨_, _, .recordLost hnul hwrite hread⟩)
              | ok sidecar =>
                  exact .inr (.inr ⟨_, _, h.recorded hnul hwrite hread, by simp⟩)
  | recorded header sidecar =>
      cases hnul : config.output.parent.text.hasNul with
      | true => exact .inr (.inl ⟨_, _, .directoryNul hnul⟩)
      | false =>
          rcases hmade : world.files.ensureDirectory machine.directory config.output.parent
            with ⟨fs, refusal | ⟨⟩⟩
          · exact .inr (.inl ⟨_, _, .directory hnul hmade⟩)
          · exact .inr (.inr ⟨_, _, h.prepared hnul hmade, by simp⟩)
  | prepared header sidecar =>
      cases hnul : (config.command header).any Text.hasNul with
      | true => exact .inr (.inl ⟨_, _, .commandNul hnul⟩)
      | false =>
          cases hfound : machine.find world.files config.generator (config.command header) with
          | error reason => exact .inr (.inl ⟨_, _, .start hnul hfound⟩)
          | ok execution => exact .inr (.inr ⟨_, _, h.generated hnul hfound, by simp⟩)
  | generated header sidecar ending =>
      by_cases hstatus : ending.status = 0
      · cases hread : world.files.describe machine.directory config.output with
        | error fault => exact .inr (.inl ⟨_, _, .outputLost hstatus hread⟩)
        | ok bindings => exact .inr (.inr ⟨_, _, h.finished hstatus hread, by simp⟩)
      · exact .inr (.inl ⟨_, _, .unsuccessful hstatus⟩)
  | finished result => exact .inl ⟨result, rfl⟩

theorem finished_or_stopped {machine : Machine} {config : Configuration}
    {start world : World} {milestone : Milestone}
    (h : Reached machine config start milestone world) :
    (∃ result after, Reached machine config start (.finished result) after) ∨
      ∃ last mid fault after, Reached machine config start last mid ∧
        Stopped machine config last mid fault after := by
  induction hn : milestone.remaining using Nat.strongRecOn generalizing milestone world with
  | ind n ih =>
      rcases reached_next_or_stopped h with ⟨result, rfl⟩ | ⟨fault, after, hstop⟩ |
        ⟨next, after, hnext, hlt⟩
      · exact .inl ⟨result, world, h⟩
      · exact .inr ⟨milestone, world, fault, after, h, hstop⟩
      · exact ih next.remaining (hn ▸ hlt) hnext rfl

/-- A run gives a result exactly if it reaches the last milestone. -/
theorem runIn_produce_eq_ok_iff {machine : Machine} {config : Configuration}
    {start world : World} {result : Production} :
    (produce machine config).runIn start = (.ok result, world) ↔
      Reached machine config start (.finished result) world := by
  constructor
  · intro hrun
    rcases finished_or_stopped (@Reached.announced machine config start) with
      ⟨result', after, hfinished⟩ | ⟨last, mid, fault, after, hreached, hstopped⟩
    · rw [runIn_produce_of_reached hfinished, resume, runIn_pure] at hrun
      simp only [Prod.mk.injEq, Except.ok.injEq] at hrun
      rw [← hrun.1, ← hrun.2]
      exact hfinished
    · rw [runIn_produce_of_reached hreached, runIn_resume_of_stopped hstopped] at hrun
      simp at hrun
  · intro hfinished
    rw [runIn_produce_of_reached hfinished, resume, runIn_pure]

/-- A run fails exactly if it is stopped after a milestone that it reached. -/
theorem runIn_produce_eq_error_iff {machine : Machine} {config : Configuration}
    {start world : World} {fault : Fault} :
    (produce machine config).runIn start = (.error fault, world) ↔
      ∃ milestone mid, Reached machine config start milestone mid ∧
        Stopped machine config milestone mid fault world := by
  constructor
  · intro hrun
    rcases finished_or_stopped (@Reached.announced machine config start) with
      ⟨result, after, hfinished⟩ | ⟨last, mid, fault', after, hreached, hstopped⟩
    · rw [runIn_produce_of_reached hfinished, resume, runIn_pure] at hrun
      simp at hrun
    · rw [runIn_produce_of_reached hreached, runIn_resume_of_stopped hstopped] at hrun
      simp only [Prod.mk.injEq, Except.error.injEq] at hrun
      rw [← hrun.1, ← hrun.2]
      exact ⟨last, mid, hreached, hstopped⟩
  · rintro ⟨milestone, mid, hreached, hstopped⟩
    rw [runIn_produce_of_reached hreached, runIn_resume_of_stopped hstopped]

end Stage

end SdkBindings
