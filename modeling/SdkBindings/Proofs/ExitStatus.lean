import SdkBindings.Proofs.Faults
import SdkBindings.Proofs.Milestones

/-!
The exit status of a run.  `Concluded` lists the causes that can end a run with a
status: for each the status, and the world in which the run stops.  Main statement:
a run exits with a status exactly if one of these causes ends it, it exits with
zero only after help, a preview or a whole production, and never after a generator
that failed.
-/

namespace SdkBindings

/-- The world after some lines on the standard error stream. -/
def World.withComplaints (world : World) (lines : List Text) : World :=
  { world with errors := world.errors ++ lines.flatMap fun t => shown t ++ [Text.newline] }

/-- The lines that report a fault.  A fault that no run is prepared for is not
reported. -/
def Fault.report : Fault → List Text
  | .config error =>
    ("Config error [" ++ error.code.text ++ "]: " ++ error.message) ::
      match error.suggestion with
      | none | some [] => []
      | some suggestion => ["Hint: " ++ suggestion]
  | .generator failure => ["Generator error: " ++ failure.message]
  | .system reason file => ["Error: " ++ systemMessage reason file]
  | .embeddedNul | .linkLoop _ | .noPathOperand | .noNameOperand | .endless _ => []

/-- How a run ends that came to a fault. -/
def Fault.runEnd : Fault → RunEnd
  | .config _ | .system _ _ => .exited 1
  | .generator failure => .exited failure.exitStatus
  | .embeddedNul => .escaped .embeddedNul
  | .linkLoop path => .escaped (.linkLoop path)
  | .noPathOperand => .escaped .noPathOperand
  | .noNameOperand => .escaped .noNameOperand
  | .endless path => .escaped (.endless path)

/-- A command line that makes a configuration. -/
def Configured (places : Places) (argv : List Text) (config : Configuration) : Prop :=
  ∃ arguments, CommandLine.parse (.defaults places) argv = .ok arguments ∧
    Configuration.ofArguments arguments = .ok config

/-- The checks of the installed library pass, and the header is found. -/
def ChecksPass (machine : Machine) (config : Configuration) (files : FileSystem)
    (header : Path) : Prop :=
  files.findHeader machine.directory config.sdk.includeDir libraryHeader = .ok header ∧
    (config.checkLibraryDir = true →
      ∃ libraryDir, files.checkLibraryDir machine.directory config.sdk.libraryDir
        = .ok libraryDir)

/-- The first check of the installed library that does not pass gives a fault. -/
def ChecksFail (machine : Machine) (config : Configuration) (files : FileSystem)
    (fault : Fault) : Prop :=
  files.findHeader machine.directory config.sdk.includeDir libraryHeader = .error fault ∨
    (∃ header, files.findHeader machine.directory config.sdk.includeDir libraryHeader
      = .ok header) ∧
    config.checkLibraryDir = true ∧
    files.checkLibraryDir machine.directory config.sdk.libraryDir = .error fault

/-- A fault that ends a run, and the world in which the run stops. -/
inductive Faulted (machine : Machine) (places : Places) (argv : List Text)
    (files : FileSystem) : Fault → World → Prop where
  | arguments {arguments fault} :
      CommandLine.parse (.defaults places) argv = .ok arguments →
      Configuration.ofArguments arguments = .error fault →
      Faulted machine places argv files fault (World.initial files)
  | previewed {config fault} :
      Configured places argv config →
      config.showConfig = true →
      ChecksFail machine config files fault →
      Faulted machine places argv files fault (World.initial files)
  | produced {config milestone mid fault world} :
      Configured places argv config →
      config.showConfig = false →
      Reached machine config (World.initial files) milestone mid →
      Stopped machine config milestone mid fault world →
      Faulted machine places argv files fault world

/-- What can end a run with an exit status, and the world in which it ends.  A run of
the pipeline is stopped after the last milestone that it reached, so that nothing of
the stages behind it is in the world. -/
inductive Concluded (machine : Machine) (places : Places) (argv : List Text)
    (files : FileSystem) : Int → World → Prop where
  | help :
      CommandLine.parse (.defaults places) argv = .error .help →
      Concluded machine places argv files 0
        ((World.initial files).withPrinted Usage.help)
  | misuse {misuse} :
      CommandLine.parse (.defaults places) argv = .error (.misuse misuse) →
      Concluded machine places argv files 2
        { World.initial files with errors := Usage.report misuse }
  | blankGenerator {arguments spelled} :
      CommandLine.parse (.defaults places) argv = .ok arguments →
      arguments.generator = .given spelled →
      spelled.strip = [] →
      Concluded machine places argv files 1
        ((World.initial files).withComplaints (Fault.config .blankGenerator).report)
  | previewed {config header} :
      Configured places argv config →
      config.showConfig = true →
      ChecksPass machine config files header →
      Concluded machine places argv files 0
        ((World.initial files).withLine
          (Text.joinWith [Text.newline] (previewLines config header)))
  | previewConfig {config error} :
      Configured places argv config →
      config.showConfig = true →
      ChecksFail machine config files (.config error) →
      Concluded machine places argv files 1
        ((World.initial files).withComplaints (Fault.config error).report)
  | previewSystem {config reason file} :
      Configured places argv config →
      config.showConfig = true →
      ChecksFail machine config files (.system reason file) →
      Concluded machine places argv files 1
        ((World.initial files).withComplaints (Fault.system reason file).report)
  | stoppedConfig {config milestone mid world error} :
      Configured places argv config →
      config.showConfig = false →
      Reached machine config (World.initial files) milestone mid →
      Stopped machine config milestone mid (.config error) world →
      Concluded machine places argv files 1 (world.withComplaints (Fault.config error).report)
  | stoppedSystem {config milestone mid world reason file} :
      Configured places argv config →
      config.showConfig = false →
      Reached machine config (World.initial files) milestone mid →
      Stopped machine config milestone mid (.system reason file) world →
      Concluded machine places argv files 1
        (world.withComplaints (Fault.system reason file).report)
  | notFound {config header sidecar world} :
      Configured places argv config →
      config.showConfig = false →
      Reached machine config (World.initial files) (.prepared header sidecar) world →
      (config.command header).any Text.hasNul = false →
      machine.find world.files config.generator (config.command header) = .error .noEntry →
      Concluded machine places argv files 127
        (world.withComplaints (Fault.generator (.notFound config.generator)).report)
  | notExecutable {config header sidecar world} :
      Configured places argv config →
      config.showConfig = false →
      Reached machine config (World.initial files) (.prepared header sidecar) world →
      (config.command header).any Text.hasNul = false →
      machine.find world.files config.generator (config.command header)
        = .error .permission →
      Concluded machine places argv files 126
        (world.withComplaints (Fault.generator (.notExecutable config.generator)).report)
  | failed {config header sidecar world} {status : UInt8} :
      Configured places argv config →
      config.showConfig = false →
      Reached machine config (World.initial files)
        (.generated header sidecar (.exited status)) world →
      status ≠ 0 →
      Concluded machine places argv files status.toNat
        (world.withComplaints
          (Fault.generator (.unsuccessful config.generator (.exited status))).report)
  | killed {config header sidecar world} {signal : Signal} :
      Configured places argv config →
      config.showConfig = false →
      Reached machine config (World.initial files)
        (.generated header sidecar (.killed signal)) world →
      Concluded machine places argv files (128 + signal.number)
        (world.withComplaints
          (Fault.generator (.unsuccessful config.generator (.killed signal))).report)
  | produced {config result world} :
      Configured places argv config →
      config.showConfig = false →
      Reached machine config (World.initial files) (.finished result) world →
      Concluded machine places argv files 0
        (world.withPrinted (shown result.summary))

namespace Ending

/-- Only a process that exits with zero has the status zero. -/
theorem status_eq_zero_iff (ending : Ending) : ending.status = 0 ↔ ending = .exited 0 := by
  cases ending with
  | exited code =>
      rw [Ending.status, exited.injEq, Int.natCast_eq_zero]
      exact ⟨fun h => UInt8.toNat_inj.mp h, fun h => h ▸ rfl⟩
  | killed signal =>
      have hpos := signal.positive
      simp only [Ending.status, reduceCtorEq, iff_false]
      omega

theorem shellStatus_exited (code : UInt8) :
    shellStatus (Ending.exited code).status = code.toNat := by
  simp only [shellStatus, Ending.status]
  exact if_neg (Int.not_lt.mpr (Int.natCast_nonneg _))

theorem shellStatus_killed (signal : Signal) :
    shellStatus (Ending.killed signal).status = 128 + signal.number := by
  have hpos := signal.positive
  have hneg : (Ending.killed signal).status < 0 := by
    simp only [Ending.status]
    omega
  rw [shellStatus, if_pos hneg, Ending.status]
  omega

end Ending

namespace Stage

theorem runIn_reportFault (fault : Fault) (world : World) :
    (reportFault fault).runIn world =
      (.ok fault.runEnd, world.withComplaints fault.report) := by
  cases fault with
  | config error =>
      obtain ⟨code, message, suggestion⟩ := error
      rcases suggestion with - | - | ⟨b, rest⟩ <;>
        simp [reportFault, tellConfigurationError, runIn_bind, Fault.report, Fault.runEnd,
          World.withComplaints, GeneratorFailure.refusedStatus, -bind_pure_comp]
  | _ =>
      simp [reportFault, runIn_bind, Fault.report, Fault.runEnd, World.withComplaints,
        GeneratorFailure.refusedStatus, -bind_pure_comp]

theorem runIn_preview_of_pass {machine : Machine} {config : Configuration} {world : World}
    {header : Path} (h : ChecksPass machine config world.files header) :
    (preview machine config).runIn world =
      (.ok (), world.withLine (Text.joinWith [Text.newline] (previewLines config header))) := by
  obtain ⟨hheader, hlibrary⟩ := h
  simp only [preview, Stage.header, runIn_bind, runIn_check, hheader, runIn_libraryCheck]
  cases hcheck : config.checkLibraryDir with
  | false => rfl
  | true =>
      obtain ⟨libraryDir, hdir⟩ := hlibrary hcheck
      simp only [↓reduceIte, hdir]
      rfl

theorem runIn_preview_of_fail {machine : Machine} {config : Configuration} {world : World}
    {fault : Fault} (h : ChecksFail machine config world.files fault) :
    (preview machine config).runIn world = (.error fault, world) := by
  rcases h with hheader | ⟨⟨header, hheader⟩, hcheck, hlibrary⟩
  · simp only [preview, Stage.header, runIn_bind, runIn_check, hheader]
  · simp only [preview, Stage.header, runIn_bind, runIn_check, hheader, runIn_libraryCheck,
      hcheck, ↓reduceIte, hlibrary]

theorem checksPass_or_checksFail (machine : Machine) (config : Configuration)
    (files : FileSystem) :
    (∃ header, ChecksPass machine config files header) ∨
      ∃ fault, ChecksFail machine config files fault := by
  cases hheader : files.findHeader machine.directory config.sdk.includeDir libraryHeader with
  | error fault => exact .inr ⟨fault, .inl hheader⟩
  | ok header =>
      cases hcheck : config.checkLibraryDir with
      | false => exact .inl ⟨header, hheader, by simp [hcheck]⟩
      | true =>
          cases hlibrary : files.checkLibraryDir machine.directory config.sdk.libraryDir with
          | error fault => exact .inr ⟨fault, .inr ⟨⟨header, hheader⟩, hcheck, hlibrary⟩⟩
          | ok libraryDir => exact .inl ⟨header, hheader, fun _ => ⟨libraryDir, hlibrary⟩⟩

/-- A run with a configuration, from its production or preview. -/
theorem runIn_runCommandLine_of_configured {machine : Machine} {places : Places}
    {argv : List Text} {config : Configuration} (h : Configured places argv config)
    (world : World) :
    (runCommandLine machine places argv).runIn world =
      match (runConfiguration machine config).runIn world with
      | (.ok ending, after) => (.ok ending, after)
      | (.error fault, after) => (.ok fault.runEnd, after.withComplaints fault.report) := by
  obtain ⟨arguments, hparse, hconfig⟩ := h
  simp only [runCommandLine, hparse, hconfig, runIn_tryCatch, runIn_reportFault]
  rcases (runConfiguration machine config).runIn world with ⟨fault | ending, after⟩ <;> rfl

theorem runIn_runConfiguration_of_preview {machine : Machine} {config : Configuration}
    (h : config.showConfig = true) (world : World) :
    (runConfiguration machine config).runIn world =
      match (preview machine config).runIn world with
      | (.ok _, after) => (.ok (.exited 0), after)
      | (.error fault, after) => (.error fault, after) := by
  simp only [runConfiguration, h, ↓reduceIte, runIn_bind]
  rcases (preview machine config).runIn world with ⟨fault | _, after⟩ <;> rfl

theorem runIn_runConfiguration_of_produce {machine : Machine} {config : Configuration}
    (h : config.showConfig = false) (world : World) :
    (runConfiguration machine config).runIn world =
      match (produce machine config).runIn world with
      | (.ok result, after) =>
        (.ok (.exited 0), after.withPrinted (shown result.summary))
      | (.error fault, after) => (.error fault, after) := by
  simp only [runConfiguration, h, Bool.false_eq_true, ↓reduceIte, runIn_bind]
  rcases (produce machine config).runIn world with ⟨fault | result, after⟩ <;> rfl

/-- Stated for any text, since that of the help is long to look into. -/
theorem runIn_emit_exited (t : Text) (status : Int) (fs : FileSystem) :
    (do emit t; return .exited status : Stage RunEnd).runIn (World.initial fs) =
      (.ok (.exited status), (World.initial fs).withPrinted t) := by
  rfl

theorem runIn_runCommandLine_of_help {machine : Machine} {places : Places}
    {argv : List Text} {files : FileSystem}
    (hparse : CommandLine.parse (.defaults places) argv = .error .help) :
    (runCommandLine machine places argv).runIn (World.initial files) =
      (.ok (.exited 0), (World.initial files).withPrinted Usage.help) := by
  rw [runCommandLine, hparse]
  exact runIn_emit_exited Usage.help 0 files

theorem runIn_runCommandLine_of_misuse {machine : Machine} {places : Places}
    {argv : List Text} {files : FileSystem} {misuse : Misuse}
    (hparse : CommandLine.parse (.defaults places) argv = .error (.misuse misuse)) :
    (runCommandLine machine places argv).runIn (World.initial files) =
      (.ok (.exited 2), { World.initial files with errors := Usage.report misuse }) := by
  simp only [runCommandLine, hparse]
  rfl

/-- A run whose command line makes no configuration ends where the fault says. -/
theorem runIn_runCommandLine_of_arguments {machine : Machine} {places : Places}
    {argv : List Text} {arguments : Arguments} {fault : Fault}
    (hparse : CommandLine.parse (.defaults places) argv = .ok arguments)
    (hconfig : Configuration.ofArguments arguments = .error fault) (world : World) :
    (runCommandLine machine places argv).runIn world =
      (.ok fault.runEnd, world.withComplaints fault.report) := by
  simp only [runCommandLine, hparse, hconfig, runIn_tryCatch, runIn_throw, runIn_reportFault]

/-- A run that is stopped in the pipeline ends where its fault says. -/
theorem runIn_runCommandLine_of_stopped {machine : Machine} {places : Places}
    {argv : List Text} {config : Configuration} {start mid after : World}
    {milestone : Milestone} {fault : Fault} (hconfig : Configured places argv config)
    (hshow : config.showConfig = false) (hreached : Reached machine config start milestone mid)
    (hstopped : Stopped machine config milestone mid fault after) :
    (runCommandLine machine places argv).runIn start =
      (.ok fault.runEnd, after.withComplaints fault.report) := by
  have hproduce := runIn_produce_eq_error_iff.mpr ⟨milestone, mid, hreached, hstopped⟩
  rw [runIn_runCommandLine_of_configured hconfig, runIn_runConfiguration_of_produce hshow,
    hproduce]

theorem runIn_runCommandLine_of_checksFail {machine : Machine} {places : Places}
    {argv : List Text} {config : Configuration} {files : FileSystem} {fault : Fault}
    (hconfig : Configured places argv config) (hshow : config.showConfig = true)
    (hfail : ChecksFail machine config files fault) :
    (runCommandLine machine places argv).runIn (World.initial files) =
      (.ok fault.runEnd, (World.initial files).withComplaints fault.report) := by
  have hpreview := @runIn_preview_of_fail machine config (World.initial files) fault hfail
  rw [runIn_runCommandLine_of_configured hconfig, runIn_runConfiguration_of_preview hshow,
    hpreview]

end Stage

theorem ChecksFail.ne_generator {machine : Machine} {config : Configuration}
    {files : FileSystem} {failure : GeneratorFailure} :
    ¬ ChecksFail machine config files (.generator failure) := by
  rintro (hheader | ⟨-, -, hlibrary⟩)
  · have := FileSystem.findHeaderWithin_error hheader
    simp [Fault.onPath] at this
  · have := FileSystem.checkLibraryDir_error hlibrary
    simp [Fault.onPath] at this

theorem FileSystem.describe_ne_generator {fs : FileSystem} {directory : WorkingDirectory}
    {path : Path} {failure : GeneratorFailure} :
    fs.describe directory path ≠ .error (.generator failure) := by
  intro h
  rcases FileSystem.describe_error h with hcanonical | hread
  · have := FileSystem.canonicalPath_error hcanonical
    simp at this
  · simp [Fault.onPath] at hread

/-- Only the start of the generator and its end give a generator failure. -/
theorem Stopped.generator_cases {machine : Machine} {config : Configuration}
    {milestone : Milestone} {mid after : World} {failure : GeneratorFailure}
    (h : Stopped machine config milestone mid (.generator failure) after) :
    after = mid ∧
      ((∃ header sidecar reason, milestone = .prepared header sidecar ∧
          (config.command header).any Text.hasNul = false ∧
          machine.find mid.files config.generator (config.command header) = .error reason ∧
          (reason = .noEntry ∧ failure = .notFound config.generator ∨
            reason = .permission ∧ failure = .notExecutable config.generator)) ∨
        ∃ header sidecar ending, milestone = .generated header sidecar ending ∧
          ending ≠ .exited 0 ∧ failure = .unsuccessful config.generator ending) := by
  generalize hfault : Fault.generator failure = fault at h
  cases h with
  | header hheader =>
      have := FileSystem.findHeaderWithin_error (hfault ▸ hheader)
      simp [Fault.onPath] at this
  | library hcheck hlibrary =>
      have := FileSystem.checkLibraryDir_error (hfault ▸ hlibrary)
      simp [Fault.onPath] at this
  | recordNul | directoryNul | commandNul => simp at hfault
  | @record world header fault hnul hwrite =>
      cases fault <;> simp [writeFault, Fault.onPath] at hfault
  | recordLost hnul hwrite hread => exact absurd (hfault ▸ hread) FileSystem.describe_ne_generator
  | directory hnul hmade => simp [Fault.onPath] at hfault
  | @start world header sidecar reason hnul hfound =>
      refine ⟨rfl, .inl ⟨header, sidecar, reason, rfl, hnul, hfound, ?_⟩⟩
      cases reason <;> simp_all [startFault, Fault.onPath]
  | @unsuccessful world header sidecar ending hstatus =>
      refine ⟨rfl, .inr ⟨header, sidecar, ending, rfl, ?_, Fault.generator.inj hfault⟩⟩
      exact mt (Ending.status_eq_zero_iff ending).mpr hstatus
  | outputLost hstatus hread => exact absurd (hfault ▸ hread) FileSystem.describe_ne_generator

/-- The world and the status in which a cause ends the run are those of the run. -/
theorem runIn_of_concluded {machine : Machine} {places : Places} {argv : List Text}
    {files : FileSystem} {status : Int} {world : World}
    (h : Concluded machine places argv files status world) :
    (Stage.runCommandLine machine places argv).runIn (World.initial files) =
      (.ok (.exited status), world) := by
  cases h with
  | help hparse => exact Stage.runIn_runCommandLine_of_help hparse
  | misuse hparse => exact Stage.runIn_runCommandLine_of_misuse hparse
  | blankGenerator hparse hgenerator hblank =>
      exact Stage.runIn_runCommandLine_of_arguments hparse
        (Configuration.ofArguments_of_blank hgenerator hblank) _
  | @previewed config header hconfig hshow hpass =>
      have hpreview := @Stage.runIn_preview_of_pass machine config (World.initial files) header hpass
      rw [Stage.runIn_runCommandLine_of_configured hconfig,
        Stage.runIn_runConfiguration_of_preview hshow, hpreview]
  | previewConfig hconfig hshow hfail =>
      exact Stage.runIn_runCommandLine_of_checksFail hconfig hshow hfail
  | previewSystem hconfig hshow hfail =>
      exact Stage.runIn_runCommandLine_of_checksFail hconfig hshow hfail
  | stoppedConfig hconfig hshow hreached hstopped =>
      exact Stage.runIn_runCommandLine_of_stopped hconfig hshow hreached hstopped
  | stoppedSystem hconfig hshow hreached hstopped =>
      exact Stage.runIn_runCommandLine_of_stopped hconfig hshow hreached hstopped
  | notFound hconfig hshow hreached hnul hfound =>
      exact Stage.runIn_runCommandLine_of_stopped hconfig hshow hreached (.start hnul hfound)
  | notExecutable hconfig hshow hreached hnul hfound =>
      exact Stage.runIn_runCommandLine_of_stopped hconfig hshow hreached (.start hnul hfound)
  | failed hconfig hshow hreached hstatus =>
      have hne := mt (Ending.status_eq_zero_iff _).mp
        (fun hzero => hstatus (Ending.exited.inj hzero))
      have hrun := Stage.runIn_runCommandLine_of_stopped hconfig hshow hreached
        (.unsuccessful hne)
      rw [hrun, Fault.runEnd, GeneratorFailure.exitStatus, Ending.shellStatus_exited]
  | @killed config header sidecar mid signal hconfig hshow hreached =>
      have hne : (Ending.killed signal).status ≠ 0 :=
        mt (Ending.status_eq_zero_iff _).mp (by simp)
      have hrun := Stage.runIn_runCommandLine_of_stopped hconfig hshow hreached
        (.unsuccessful hne)
      rw [hrun, Fault.runEnd, GeneratorFailure.exitStatus, Ending.shellStatus_killed]
  | produced hconfig hshow hreached =>
      rw [Stage.runIn_runCommandLine_of_configured hconfig,
        Stage.runIn_runConfiguration_of_produce hshow,
        Stage.runIn_produce_eq_ok_iff.mpr hreached]

/-- A run of the pipeline that is stopped and exits was ended by one of the causes. -/
theorem concluded_of_stopped {machine : Machine} {places : Places} {argv : List Text}
    {files : FileSystem} {config : Configuration} {milestone : Milestone} {mid after : World}
    {fault : Fault} {status : Int} (hconfig : Configured places argv config)
    (hshow : config.showConfig = false)
    (hreached : Reached machine config (World.initial files) milestone mid)
    (hstopped : Stopped machine config milestone mid fault after)
    (hend : fault.runEnd = .exited status) :
    Concluded machine places argv files status (after.withComplaints fault.report) := by
  cases fault with
  | config error =>
      obtain rfl : 1 = status := by simpa [Fault.runEnd] using hend
      exact .stoppedConfig hconfig hshow hreached hstopped
  | system reason file =>
      obtain rfl : 1 = status := by simpa [Fault.runEnd] using hend
      exact .stoppedSystem hconfig hshow hreached hstopped
  | generator failure =>
      have hstatus : failure.exitStatus = status := by simpa [Fault.runEnd] using hend
      obtain ⟨rfl, ⟨header, sidecar, reason, rfl, hnul, hfound, hreason⟩ |
        ⟨header, sidecar, ending, rfl, hending, rfl⟩⟩ := hstopped.generator_cases
      · rcases hreason with ⟨rfl, rfl⟩ | ⟨rfl, rfl⟩
        · exact hstatus ▸ .notFound hconfig hshow hreached hnul hfound
        · exact hstatus ▸ .notExecutable hconfig hshow hreached hnul hfound
      · cases ending with
        | exited code =>
            rw [GeneratorFailure.exitStatus, Ending.shellStatus_exited] at hstatus
            exact hstatus ▸ .failed hconfig hshow hreached fun hzero => hending (hzero ▸ rfl)
        | killed signal =>
            rw [GeneratorFailure.exitStatus, Ending.shellStatus_killed] at hstatus
            exact hstatus ▸ .killed hconfig hshow hreached
  | embeddedNul | linkLoop | noPathOperand | noNameOperand | endless =>
      simp [Fault.runEnd] at hend

/-- A preview that is refused and exits was ended by one of the causes. -/
theorem concluded_of_checksFail {machine : Machine} {places : Places} {argv : List Text}
    {files : FileSystem} {config : Configuration} {fault : Fault} {status : Int}
    (hconfig : Configured places argv config) (hshow : config.showConfig = true)
    (hfail : ChecksFail machine config files fault) (hend : fault.runEnd = .exited status) :
    Concluded machine places argv files status
      ((World.initial files).withComplaints fault.report) := by
  cases fault with
  | config error =>
      obtain rfl : 1 = status := by simpa [Fault.runEnd] using hend
      exact .previewConfig hconfig hshow hfail
  | system reason file =>
      obtain rfl : 1 = status := by simpa [Fault.runEnd] using hend
      exact .previewSystem hconfig hshow hfail
  | generator failure => exact absurd hfail ChecksFail.ne_generator
  | embeddedNul | linkLoop | noPathOperand | noNameOperand | endless =>
      simp [Fault.runEnd] at hend

/-- A fault ends the run as it says, and its report is the last thing that the run
does. -/
theorem runIn_of_faulted {machine : Machine} {places : Places} {argv : List Text}
    {files : FileSystem} {fault : Fault} {world : World}
    (h : Faulted machine places argv files fault world) :
    (Stage.runCommandLine machine places argv).runIn (World.initial files) =
      (.ok fault.runEnd, world.withComplaints fault.report) := by
  cases h with
  | arguments hparse hconfig => exact Stage.runIn_runCommandLine_of_arguments hparse hconfig _
  | previewed hconfig hshow hfail =>
      exact Stage.runIn_runCommandLine_of_checksFail hconfig hshow hfail
  | produced hconfig hshow hreached hstopped =>
      exact Stage.runIn_runCommandLine_of_stopped hconfig hshow hreached hstopped

/-- A fault that ends a run with a status is one of the causes. -/
theorem concluded_of_faulted {machine : Machine} {places : Places} {argv : List Text}
    {files : FileSystem} {fault : Fault} {world : World} {status : Int}
    (h : Faulted machine places argv files fault world) (hend : fault.runEnd = .exited status) :
    Concluded machine places argv files status (world.withComplaints fault.report) := by
  cases h with
  | arguments hparse hconfig =>
      rcases Configuration.ofArguments_error hconfig with ⟨rfl, -⟩ |
        ⟨spelled, hgenerator, ⟨rfl, hblank⟩ | ⟨rfl, -, -⟩⟩
      · simp [Fault.runEnd] at hend
      · obtain rfl : 1 = status := by simpa [Fault.runEnd] using hend
        exact .blankGenerator hparse hgenerator hblank
      · simp [Fault.runEnd] at hend
  | previewed hconfig hshow hfail => exact concluded_of_checksFail hconfig hshow hfail hend
  | produced hconfig hshow hreached hstopped =>
      exact concluded_of_stopped hconfig hshow hreached hstopped hend

/-- A run is ended by one of the causes or by a fault. -/
theorem concluded_or_faulted (machine : Machine) (places : Places) (argv : List Text)
    (files : FileSystem) :
    (∃ status world, Concluded machine places argv files status world) ∨
      ∃ fault world, Faulted machine places argv files fault world := by
  cases hparse : CommandLine.parse (.defaults places) argv with
  | error stop =>
      cases stop with
      | help => exact .inl ⟨_, _, .help hparse⟩
      | misuse misuse => exact .inl ⟨_, _, .misuse hparse⟩
  | ok arguments =>
      cases hconfig : Configuration.ofArguments arguments with
      | error fault => exact .inr ⟨_, _, .arguments hparse hconfig⟩
      | ok config =>
          have hconfigured : Configured places argv config := ⟨arguments, hparse, hconfig⟩
          cases hshow : config.showConfig with
          | true =>
              rcases Stage.checksPass_or_checksFail machine config files with
                ⟨header, hpass⟩ | ⟨fault, hfail⟩
              · exact .inl ⟨_, _, .previewed hconfigured hshow hpass⟩
              · exact .inr ⟨_, _, .previewed hconfigured hshow hfail⟩
          | false =>
              rcases Stage.finished_or_stopped (@Reached.announced machine config
                (World.initial files)) with
                ⟨result, after, hfinished⟩ | ⟨last, mid, fault, after, hreached, hstopped⟩
              · exact .inl ⟨_, _, .produced hconfigured hshow hfinished⟩
              · exact .inr ⟨_, _, .produced hconfigured hshow hreached hstopped⟩

/-- A run that exits was ended by one of the causes. -/
theorem concluded_of_runIn {machine : Machine} {places : Places} {argv : List Text}
    {files : FileSystem} {status : Int} {world : World}
    (h : (Stage.runCommandLine machine places argv).runIn (World.initial files) =
      (.ok (.exited status), world)) :
    Concluded machine places argv files status world := by
  rcases concluded_or_faulted machine places argv files with
    ⟨status', world', hconcluded⟩ | ⟨fault, stop, hfaulted⟩
  · rw [runIn_of_concluded hconcluded, Prod.mk.injEq, Except.ok.injEq, RunEnd.exited.injEq] at h
    obtain ⟨rfl, rfl⟩ := h
    exact hconcluded
  · rw [runIn_of_faulted hfaulted, Prod.mk.injEq, Except.ok.injEq] at h
    obtain ⟨hend, rfl⟩ := h
    exact concluded_of_faulted hfaulted hend

/-- What had to succeed for a run to exit with zero. -/
theorem Concluded.of_zero {machine : Machine} {places : Places} {argv : List Text}
    {files : FileSystem} {world : World} (h : Concluded machine places argv files 0 world) :
    CommandLine.parse (.defaults places) argv = .error .help ∨
      (∃ config header, Configured places argv config ∧ config.showConfig = true ∧
        ChecksPass machine config files header ∧
        world = (World.initial files).withLine
          (Text.joinWith [Text.newline] (previewLines config header))) ∨
      ∃ config header sidecar bindings mid, Configured places argv config ∧
        config.showConfig = false ∧
        Reached machine config (World.initial files)
          (.generated header sidecar (.exited 0)) mid ∧
        mid.files.describe machine.directory config.output = .ok bindings := by
  generalize hstatus : (0 : Int) = status at h
  cases h with
  | help hparse => exact .inl hparse
  | previewed hconfig hshow hpass => exact .inr (.inl ⟨_, _, hconfig, hshow, hpass, rfl⟩)
  | produced hconfig hshow hreached =>
      cases hreached with
      | @finished mid header sidecar ending bindings hgenerated hending hread =>
          rw [Ending.status_eq_zero_iff] at hending
          subst hending
          exact .inr (.inr ⟨_, header, sidecar, bindings, mid, hconfig, hshow, hgenerated, hread⟩)
  | misuse | blankGenerator | previewConfig | previewSystem | stoppedConfig | stoppedSystem
  | notFound | notExecutable => simp at hstatus
  | failed _ _ _ hne =>
      exact absurd (UInt8.toNat_inj.mp (Int.ofNat.inj hstatus.symm)) hne
  | @killed _ _ _ _ signal => omega

/-- The status of a run after a generator that failed is that of the shell, and it is
not zero. -/
theorem runIn_of_failing_generator {machine : Machine} {places : Places} {argv : List Text}
    {start mid : World} {config : Configuration} {header : Path} {sidecar : WrittenFile}
    {ending : Ending} (hconfig : Configured places argv config)
    (hshow : config.showConfig = false)
    (hreached : Reached machine config start (.generated header sidecar ending) mid)
    (hending : ending ≠ .exited 0) :
    shellStatus ending.status ≠ 0 ∧
      ((Stage.runCommandLine machine places argv).runIn start).1 =
        .ok (.exited (shellStatus ending.status)) := by
  have hne := mt (Ending.status_eq_zero_iff ending).mp hending
  rw [Stage.runIn_runCommandLine_of_stopped hconfig hshow hreached (.unsuccessful hne)]
  refine ⟨?_, rfl⟩
  rw [shellStatus]
  split <;> omega

/-- A run exits with a status exactly if the first cause that stops it gives this
status, and then its world is the one in which it was stopped.  It exits with zero
only after help, a preview, or a production in which every stage succeeded, and a
generator that fails is never followed by zero. -/
theorem exited_iff_concluded (machine : Machine) (places : Places) (argv : List Text)
    (files : FileSystem) :
    (∀ status world,
      (Stage.runCommandLine machine places argv).runIn (World.initial files)
        = (.ok (.exited status), world) ↔
      Concluded machine places argv files status world) ∧
    (∀ world,
      (Stage.runCommandLine machine places argv).runIn (World.initial files)
        = (.ok (.exited 0), world) →
      CommandLine.parse (.defaults places) argv = .error .help ∨
        (∃ config header, Configured places argv config ∧ config.showConfig = true ∧
          ChecksPass machine config files header ∧
          world = (World.initial files).withLine
            (Text.joinWith [Text.newline] (previewLines config header))) ∨
        ∃ config header sidecar bindings mid, Configured places argv config ∧
          config.showConfig = false ∧
          Reached machine config (World.initial files)
            (.generated header sidecar (.exited 0)) mid ∧
          mid.files.describe machine.directory config.output = .ok bindings) ∧
    ∀ config header sidecar ending mid, Configured places argv config →
      config.showConfig = false →
      Reached machine config (World.initial files) (.generated header sidecar ending) mid →
      ending ≠ .exited 0 →
      ∃ status ≠ 0, ((Stage.runCommandLine machine places argv).runIn (World.initial files)).1
        = .ok (.exited status) := by
  refine ⟨?_, ?_, ?_⟩
  · intro status world
    exact ⟨concluded_of_runIn, runIn_of_concluded⟩
  · intro world hrun
    exact (concluded_of_runIn hrun).of_zero
  · intro config header sidecar ending mid hconfig hshow hreached hending
    exact ⟨_, runIn_of_failing_generator hconfig hshow hreached hending⟩

end SdkBindings
