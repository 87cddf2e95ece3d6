import SdkBindings.Layout
import SdkBindings.Proofs.ExitStatus
import SdkBindings.Proofs.LenientWalk

/-!
The faults that no run is prepared for.  `Escapes` lists their causes: an option that was
given no operand, and a file that is read back, behind a loop of links or without an end.
Main statement: without zero bytes on the command line, a run exits with a status exactly
if none of these causes ends it.

An interpreter that bounds the depth of its recursion has one cause more: about a thousand
links that are met inside each other in the path of a file that is read back, or as many
directories that are missing above the output.  The statement is exact for the runs that
stay below that bound.
-/

namespace SdkBindings

/-- Why a file that is read back leaves a run as it is.  The links and two dots of its path
are replaced, and what this gives is a path on which the system still meets too many links,
or one that leads to what can be read for ever. -/
inductive FileSystem.Unreadable (fs : FileSystem) (directory : WorkingDirectory) (path : Path) :
    Fault → Prop where
  | loop {resolved} :
      fs.resolve false directory path.text = .ok resolved →
      fs.stat directory resolved.text = .error .tooManyLinks →
      Unreadable fs directory path (.linkLoop resolved.text)
  | endless {resolved} :
      fs.resolve false directory path.text = .ok resolved →
      fs.stat directory resolved.text = .ok .pipe ∨
        fs.stat directory resolved.text = .ok .fullDevice →
      Unreadable fs directory path (.endless resolved.text)

/-- A fault that leaves a run as it is, by its cause, and the world in which it ends the
run. -/
inductive Escapes (machine : Machine) (places : Places) (argv : List Text)
    (files : FileSystem) : Fault → World → Prop where
  | noGenerator {arguments} :
      CommandLine.parse (.defaults places) argv = .ok arguments →
      arguments.generator = .nothing →
      Escapes machine places argv files .noNameOperand (World.initial files)
  | noPath {arguments spelled} :
      CommandLine.parse (.defaults places) argv = .ok arguments →
      arguments.generator = .given spelled →
      spelled.strip ≠ [] →
      arguments.includeDir = .nothing ∨ arguments.output = .nothing ∨
        arguments.sidecar = .nothing →
      Escapes machine places argv files .noPathOperand (World.initial files)
  | previewNoLibrary {config header} :
      Configured places argv config →
      config.showConfig = true →
      files.findHeader machine.directory config.sdk.includeDir libraryHeader = .ok header →
      config.checkLibraryDir = true →
      config.sdk.libraryDir = .nothing →
      Escapes machine places argv files .noPathOperand (World.initial files)
  | noLibrary {config header world} :
      Configured places argv config →
      config.showConfig = false →
      Reached machine config (World.initial files) (.located header) world →
      config.checkLibraryDir = true →
      config.sdk.libraryDir = .nothing →
      Escapes machine places argv files .noPathOperand world
  | record {config header world fs fault} :
      Configured places argv config →
      config.showConfig = false →
      Reached machine config (World.initial files) (.checked header) world →
      world.files.write machine.directory config.sidecar.text
        (linkRecord config.sdk.libraryDir.text) = .ok fs →
      fs.Unreadable machine.directory config.sidecar fault →
      Escapes machine places argv files fault (world.withFiles fs)
  | output {config header sidecar world fault} :
      Configured places argv config →
      config.showConfig = false →
      Reached machine config (World.initial files)
        (.generated header sidecar (.exited 0)) world →
      world.files.Unreadable machine.directory config.output fault →
      Escapes machine places argv files fault world

/-- A run is not prepared for the fault. -/
def Fault.Unprepared (fault : Fault) : Prop :=
  fault.runEnd = .escaped fault

namespace Fault

theorem runEnd_eq_escaped_iff {fault other : Fault} :
    fault.runEnd = .escaped other ↔ fault.Unprepared ∧ fault = other := by
  cases fault <;> simp [Unprepared, runEnd]

theorem not_unprepared_config (error : ConfigurationError) : ¬ (config error).Unprepared := by
  simp [Unprepared, runEnd]

theorem not_unprepared_onPath (file : Text) (reason : Errno) :
    ¬ (onPath file reason).Unprepared := by
  simp [Unprepared, runEnd, onPath]

theorem not_unprepared_writeFault (path : Path) (fault : FileSystem.WriteFault) :
    ¬ (writeFault path fault).Unprepared := by
  cases fault <;> simp [Unprepared, runEnd, writeFault, onPath]

theorem not_unprepared_startFault (generator : Text) (reason : Errno) :
    ¬ (startFault generator reason).Unprepared := by
  cases reason <;> simp [Unprepared, runEnd, startFault, onPath]

theorem report_of_unprepared {fault : Fault} (h : fault.Unprepared) : fault.report = [] := by
  cases fault with
  | config | generator | system => simp [Unprepared, runEnd] at h
  | embeddedNul | linkLoop | noPathOperand | noNameOperand | endless => rfl

end Fault

theorem World.withComplaints_nil (world : World) : world.withComplaints [] = world := by
  simp [withComplaints]

namespace FileSystem

variable {fs : FileSystem} {directory : WorkingDirectory}

/-- The search for the header prepares for everything but zero bytes. -/
theorem not_unprepared_of_findHeader {includeDir : Path} {headerName : Text} {fault : Fault}
    (hdir : includeDir.NulFree) (hname : 0 ∉ headerName)
    (h : fs.findHeader directory includeDir headerName = .error fault) : ¬ fault.Unprepared := by
  rcases findHeaderWithin_error h with rfl | ⟨-, hnul⟩ | ⟨file, reason, rfl⟩
  · exact Fault.not_unprepared_config _
  · exact absurd hnul (resolveWithin_nulFree (hdir.child hname).text).1
  · exact Fault.not_unprepared_onPath _ _

/-- The check of the library directory needs one to be named. -/
theorem nothing_of_checkLibraryDir {libraryDir : Operand Text} {fault : Fault}
    (h : fs.checkLibraryDir directory libraryDir = .error fault) (hunprepared : fault.Unprepared) :
    fault = .noPathOperand ∧ libraryDir = .nothing := by
  rcases checkLibraryDir_error h with hnothing | ⟨error, rfl⟩ | ⟨file, reason, rfl⟩
  · exact hnothing
  · exact absurd hunprepared (Fault.not_unprepared_config error)
  · exact absurd hunprepared (Fault.not_unprepared_onPath file reason)

/-- Reading back a file whose path has no zero byte fails unprepared at a loop or at what
has no end only. -/
theorem unreadable_of_describe {path : Path} {fault : Fault} (hpath : path.NulFree)
    (h : fs.describe directory path = .error fault) (hunprepared : fault.Unprepared) :
    fs.Unreadable directory path fault := by
  rcases describe_error h with hcanonical | ⟨file, reason, rfl⟩ |
    ⟨resolved, hcanonical, hread, rfl⟩
  · rcases canonicalPath_error hcanonical with rfl | ⟨reason, rfl⟩ | ⟨file, rfl⟩
    · exact absurd hcanonical (canonicalPath_ne_embeddedNul hpath)
    · simp [Fault.Unprepared, Fault.runEnd] at hunprepared
    · obtain ⟨resolved, hresolve, hstat, rfl⟩ :=
        (canonicalPath_eq_linkLoop_iff hpath).mp hcanonical
      exact .loop hresolve hstat
  · exact absurd hunprepared (Fault.not_unprepared_onPath file reason)
  · exact .endless (canonicalPath_eq_ok_iff.mp hcanonical).1 (read_eq_endless_iff.mp hread)

theorem describe_of_unreadable {path : Path} {fault : Fault} (hpath : path.NulFree)
    (h : fs.Unreadable directory path fault) :
    fs.describe directory path = .error fault ∧ fault.Unprepared := by
  cases h with
  | loop hresolve hstat =>
      have hcanonical :=
        (canonicalPath_eq_linkLoop_iff hpath).mpr ⟨_, hresolve, hstat, rfl⟩
      exact ⟨by simp [describe, hcanonical, bind, Except.bind], rfl⟩
  | endless hresolve hstat =>
      obtain ⟨-, hresolved⟩ := @resolveWithin_nulFree fs directory _ false _ hpath.text
      have hclean := Text.hasNul_eq_false_iff.mpr (hresolved _ hresolve).text
      have hcanonical := canonicalPath_eq_ok_iff.mpr
        ⟨hresolve, hclean, by rcases hstat with hstat | hstat <;> simp [hstat]⟩
      have hread := read_eq_endless_iff.mpr hstat
      exact ⟨by simp [describe, hcanonical, hread, bind, Except.bind], rfl⟩

end FileSystem

section

variable {machine : Machine} {places : Places} {argv : List Text} {files : FileSystem}
  {config : Configuration} {fault : Fault} {world : World}

/-- The configuration of a command line without zero bytes has none. -/
theorem Configured.nulFree (hplaces : places.NulFree) (hargv : ∀ t ∈ argv, 0 ∉ t)
    (h : Configured places argv config) : config.NulFree := by
  obtain ⟨arguments, hparse, hconfig⟩ := h
  exact Configuration.nulFree_of_ofArguments (CommandLine.nulFree_of_parse hplaces hargv hparse)
    hconfig

/-- A production that is stopped unprepared is stopped by one of the causes. -/
theorem escapes_of_stopped (hconfig : Configured places argv config)
    (hshow : config.showConfig = false) (hnul : config.NulFree) {milestone : Milestone}
    {mid : World} (hreached : Reached machine config (World.initial files) milestone mid)
    (hstopped : Stopped machine config milestone mid fault world)
    (hunprepared : fault.Unprepared) : Escapes machine places argv files fault world := by
  cases hstopped with
  | header hheader =>
      have hprepared := FileSystem.not_unprepared_of_findHeader hnul.includeDir (by decide) hheader
      exact absurd hunprepared hprepared
  | library hcheck hlibrary =>
      obtain ⟨rfl, hnothing⟩ := FileSystem.nothing_of_checkLibraryDir hlibrary hunprepared
      exact .noLibrary hconfig hshow hreached hcheck hnothing
  | recordNul hholds =>
      have hclean := Text.hasNul_eq_false_iff.mpr hnul.sidecar.text
      exact absurd (hclean.symm.trans hholds) (by simp)
  | record => exact absurd hunprepared (Fault.not_unprepared_writeFault _ _)
  | recordLost _ hwrite hread =>
      exact .record hconfig hshow hreached hwrite
        (FileSystem.unreadable_of_describe hnul.sidecar hread hunprepared)
  | directoryNul hholds =>
      have hclean := Text.hasNul_eq_false_iff.mpr hnul.output.parent.text
      exact absurd (hclean.symm.trans hholds) (by simp)
  | directory => exact absurd hunprepared (Fault.not_unprepared_onPath _ _)
  | commandNul hholds =>
      have hclean := hnul.command (hreached.header_nulFree hnul)
      exact absurd (hclean.symm.trans hholds) (by simp)
  | start => exact absurd hunprepared (Fault.not_unprepared_startFault _ _)
  | unsuccessful => simp [Fault.Unprepared, Fault.runEnd] at hunprepared
  | outputLost hstatus hread =>
      rw [Ending.status_eq_zero_iff] at hstatus
      subst hstatus
      exact .output hconfig hshow hreached
        (FileSystem.unreadable_of_describe hnul.output hread hunprepared)

/-- A fault that a run is not prepared for has one of the causes. -/
theorem escapes_of_faulted (hplaces : places.NulFree) (hargv : ∀ t ∈ argv, 0 ∉ t)
    (h : Faulted machine places argv files fault world) (hunprepared : fault.Unprepared) :
    Escapes machine places argv files fault world := by
  cases h with
  | arguments hparse hconfig =>
      rcases Configuration.ofArguments_error hconfig with ⟨rfl, hnothing⟩ |
        ⟨spelled, hgenerator, ⟨rfl, -⟩ | ⟨rfl, hname, hpath⟩⟩
      · exact .noGenerator hparse hnothing
      · exact absurd hunprepared (Fault.not_unprepared_config _)
      · exact .noPath hparse hgenerator hname hpath
  | previewed hconfig hshow hfail =>
      have hnul := hconfig.nulFree hplaces hargv
      rcases hfail with hheader | ⟨⟨header, hheader⟩, hcheck, hlibrary⟩
      · have hprepared :=
          FileSystem.not_unprepared_of_findHeader hnul.includeDir (by decide) hheader
        exact absurd hunprepared hprepared
      · obtain ⟨rfl, hnothing⟩ := FileSystem.nothing_of_checkLibraryDir hlibrary hunprepared
        exact .previewNoLibrary hconfig hshow hheader hcheck hnothing
  | produced hconfig hshow hreached hstopped =>
      exact escapes_of_stopped hconfig hshow (hconfig.nulFree hplaces hargv) hreached hstopped
        hunprepared

/-- Each of the causes ends a run in a fault that it is not prepared for. -/
theorem faulted_of_escapes (hplaces : places.NulFree) (hargv : ∀ t ∈ argv, 0 ∉ t)
    (h : Escapes machine places argv files fault world) :
    Faulted machine places argv files fault world ∧ fault.Unprepared := by
  have hlibrary : ∀ {fs : FileSystem} {libraryDir : Operand Text}, libraryDir = .nothing →
      fs.checkLibraryDir machine.directory libraryDir = .error .noPathOperand := by
    rintro fs _ rfl
    rfl
  cases h with
  | noGenerator hparse hnothing =>
      exact ⟨.arguments hparse (Configuration.ofArguments_of_noName hnothing), rfl⟩
  | noPath hparse hgenerator hname hpath =>
      exact ⟨.arguments hparse (Configuration.ofArguments_of_noPath hgenerator hname hpath), rfl⟩
  | previewNoLibrary hconfig hshow hheader hcheck hnothing =>
      exact ⟨.previewed hconfig hshow (.inr ⟨⟨_, hheader⟩, hcheck, hlibrary hnothing⟩), rfl⟩
  | noLibrary hconfig hshow hreached hcheck hnothing =>
      exact ⟨.produced hconfig hshow hreached (.library hcheck (hlibrary hnothing)), rfl⟩
  | record hconfig hshow hreached hwrite hunreadable =>
      have hsidecar := (hconfig.nulFree hplaces hargv).sidecar
      have hclean := Text.hasNul_eq_false_iff.mpr hsidecar.text
      obtain ⟨hlost, hunprepared⟩ := FileSystem.describe_of_unreadable hsidecar hunreadable
      exact ⟨.produced hconfig hshow hreached (.recordLost hclean hwrite hlost), hunprepared⟩
  | output hconfig hshow hreached hunreadable =>
      have houtput := (hconfig.nulFree hplaces hargv).output
      obtain ⟨hlost, hunprepared⟩ := FileSystem.describe_of_unreadable houtput hunreadable
      exact ⟨.produced hconfig hshow hreached (.outputLost rfl hlost), hunprepared⟩

/-- Without zero bytes on the command line, a run ends in a fault that it is not prepared
for exactly if one of the causes ends it, and it exits with a status exactly if none of
them does. -/
theorem escaped_iff_escapes (hplaces : places.NulFree) (hargv : ∀ t ∈ argv, 0 ∉ t) :
    (∀ fault world,
      (Stage.runCommandLine machine places argv).runIn (World.initial files)
        = (.ok (.escaped fault), world) ↔
      Escapes machine places argv files fault world) ∧
    ((∃ status world,
      (Stage.runCommandLine machine places argv).runIn (World.initial files)
        = (.ok (.exited status), world)) ↔
      ∀ fault world, ¬ Escapes machine places argv files fault world) := by
  have hescapes : ∀ {fault world}, Escapes machine places argv files fault world →
      (Stage.runCommandLine machine places argv).runIn (World.initial files)
        = (.ok (.escaped fault), world) := by
    intro fault world h
    obtain ⟨hfaulted, hunprepared⟩ := faulted_of_escapes hplaces hargv h
    rw [runIn_of_faulted hfaulted, hunprepared, Fault.report_of_unprepared hunprepared,
      World.withComplaints_nil]
  constructor
  · intro fault world
    refine ⟨?_, hescapes⟩
    intro hrun
    rcases concluded_or_faulted machine places argv files with
      ⟨status, after, hconcluded⟩ | ⟨other, after, hfaulted⟩
    · rw [runIn_of_concluded hconcluded] at hrun
      simp at hrun
    · rw [runIn_of_faulted hfaulted, Prod.mk.injEq, Except.ok.injEq,
        Fault.runEnd_eq_escaped_iff] at hrun
      obtain ⟨⟨hunprepared, rfl⟩, rfl⟩ := hrun
      rw [Fault.report_of_unprepared hunprepared, World.withComplaints_nil]
      exact escapes_of_faulted hplaces hargv hfaulted hunprepared
  · constructor
    · rintro ⟨status, world, hrun⟩ fault after h
      rw [hescapes h] at hrun
      simp at hrun
    · intro hnone
      rcases concluded_or_faulted machine places argv files with
        ⟨status, after, hconcluded⟩ | ⟨fault, after, hfaulted⟩
      · exact ⟨status, after, runIn_of_concluded hconcluded⟩
      · cases hend : fault.runEnd with
        | exited status => exact ⟨status, _, hend ▸ runIn_of_faulted hfaulted⟩
        | escaped other =>
            have hunprepared := (Fault.runEnd_eq_escaped_iff.mp hend).1
            exact absurd (escapes_of_faulted hplaces hargv hfaulted hunprepared) (hnone _ _)

end

namespace SelfLink

/-- A machine with one program, which succeeds without a trace. -/
def machine : Machine where
  directory := .ofPlace []
  searchPath := []
  programs := fun _ => some {
    output := []
    complaint := fun _ => []
    emission := fun _ => none
    ending := .exited 0 }

def places : Places where
  home := .ofText "/home"
  project := .ofText "/crate"

/-- A header, the program, and a link that leads to itself. -/
def files : FileSystem :=
  FileSystem.empty.layOutAll (.ofPlace [])
    [.file "/sdk/VimbaC.h" false [], .file "/bindgen" true [], .link "/loop" "loop"]

def argv : List Text :=
  ["--include-dir=/sdk", "--library-dir=/lib", "--output=/loop", "--sidecar=/libdir",
   "--bindgen=/bindgen"]

end SelfLink

open SelfLink in
/-- A link to itself as the output lets a run escape after a generator that succeeded. -/
theorem escaped_iff_escapes_selfLink : ∃ world,
    Escapes machine places argv files (.linkLoop "/loop") world ∧
    (Stage.runCommandLine machine places argv).runIn (World.initial files)
      = (.ok (.escaped (.linkLoop "/loop")), world) := by
  have hescaped : ((Stage.runCommandLine machine places argv).runIn (World.initial files)).1
      = .ok (.escaped (.linkLoop "/loop")) := by
    decide +kernel
  have hplaces : places.NulFree :=
    ⟨Path.nulFree_ofText (by decide), Path.nulFree_ofText (by decide)⟩
  have hargv : ∀ t ∈ argv, 0 ∉ t := by
    decide
  obtain ⟨hiff, -⟩ := @escaped_iff_escapes machine places argv files hplaces hargv
  generalize hrun : (Stage.runCommandLine machine places argv).runIn (World.initial files) = run
    at hescaped hiff
  obtain ⟨outcome, world⟩ := run
  subst hescaped
  exact ⟨world, (hiff _ _).mp rfl, rfl⟩

end SdkBindings
