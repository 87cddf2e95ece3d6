import SdkBindings.Proofs.LibraryCheck
import SdkBindings.Proofs.Rewriting
import SdkBindings.Proofs.SecondStart
import SdkBindings.Proofs.Success

/-!
Running the pipeline twice.  Main statement: a run with a result can be repeated, with the
same result and the same output, and leaves the files as they are.  The one exception is a
question of the library check that had the answer no and is refused now, since a directory
that the first run made has given the system a name to look at that is too long.
-/

namespace SdkBindings

/-- A run with a result, and what is asked of its generator, its record and its bindings
for it to be repeated. -/
structure Repeatable (machine : Machine) (config : Configuration) (files : FileSystem)
    (world : World) (record bindings : Place) : Prop where
  /-- The record and the bindings are regular files, and not the same one. -/
  recordFile : world.files.ReachesFile machine.directory config.sidecar record
  bindingsFile : world.files.ReachesFile machine.directory config.output bindings
  distinct : record ≠ bindings
  /-- The program that was started writes to its output only, whenever it is run. -/
  quiet : ∀ launch ∈ world.launches, ∀ execution,
    machine.find launch.files config.generator launch.arguments = .ok execution →
    ∀ fs, execution.Quiet machine.directory fs
  /-- The search for the program does not try to execute the bindings. -/
  untried : ∀ path ∈ machine.tried world.files config.generator,
    world.files.locate .follow machine.directory path ≠ .found bindings
  /-- No path that is looked up for the description of the record is too long. -/
  short : ∀ recorded, files.write machine.directory config.sidecar.text
      (linkRecord config.sdk.libraryDir.text) = .ok recorded →
    recorded.WithinLimit machine.directory config.sidecar.text

section

variable {machine : Machine} {config : Configuration} {files : FileSystem} {world : World}
  {record bindings : Place} {result : Production} {recorded prepared : FileSystem}
  {execution : Execution}

/-- Nothing is lost on the way. -/
theorem Succeeds.extends {final : FileSystem}
    (h : Succeeds machine config files result recorded prepared final execution)
    (hquiet : execution.Quiet machine.directory prepared) :
    final = execution.emitted machine.directory prepared ∧
      FileSystem.Extends files final ∧ FileSystem.Extends recorded final ∧
      FileSystem.Extends prepared final := by
  have hfinal := h.effect.trans hquiet
  have hgrows := FileSystem.grows_of_ensureDirectory h.made
  have hemitted : FileSystem.Extends prepared final :=
    hfinal ▸ execution.extends_emitted machine.directory prepared
  have hextends := hgrows.extends.trans hemitted
  exact ⟨hfinal, (FileSystem.extends_of_write h.written).trans hextends, hextends, hemitted⟩

/-- The record is settled when it is written, and stays so. -/
theorem Succeeds.settled
    (h : Succeeds machine config files result recorded prepared world.files execution)
    (hquiet : execution.Quiet machine.directory prepared)
    (hrepeatable : Repeatable machine config files world record bindings) :
    recorded.locate .follow machine.directory config.sidecar.text = .found record ∧
      ∃ executable,
        recorded.Settled record (.file executable (linkRecord config.sdk.libraryDir.text)) ∧
        world.files.Settled record (.file executable (linkRecord config.sdk.libraryDir.text)) := by
  obtain ⟨hfiles, -, hextends, -⟩ := h.extends hquiet
  obtain ⟨hopens, ⟨mode, hholds⟩, hfound, -⟩ :=
    FileSystem.holds_of_write h.written hextends hrepeatable.recordFile.1 hrepeatable.recordFile.2
  obtain ⟨executable, hsettled⟩ :=
    FileSystem.settled_of_write h.written hopens ⟨mode, _, hholds⟩
  have hother : (execution.emitted machine.directory prepared).locate .follow machine.directory
      config.output.text ≠ .found record := by
    rw [← hfiles, hrepeatable.bindingsFile.1]
    intro hsame
    exact hrepeatable.distinct (Landing.found.inj hsame).symm
  have hprepared := hsettled.ensureDirectory machine.directory config.output.parent
  rw [h.made] at hprepared
  refine ⟨hfound, executable, hsettled, ?_⟩
  exact hfiles ▸ hprepared.emitted rfl (config.getLast?_of_find h.found) hother

/-- After a run that succeeds every stage passes on the files that it leaves behind and
changes nothing, the library check apart. -/
theorem Succeeds.again
    (h : Succeeds machine config files result recorded prepared world.files execution)
    (hquiet : ∀ fs, execution.Quiet machine.directory fs)
    (hrepeatable : Repeatable machine config files world record bindings)
    (hlibrary : config.checkLibraryDir = true → ∃ libraryDir,
      world.files.checkLibraryDir machine.directory config.sdk.libraryDir = .ok libraryDir) :
    Succeeds machine config world.files result world.files world.files world.files execution := by
  obtain ⟨hfiles, hstart, hextends, hemitted⟩ := h.extends (hquiet prepared)
  obtain ⟨hfound, executable, hsettled, hfinal⟩ := h.settled (hquiet prepared) hrepeatable
  have hlast := config.getLast?_of_find h.found
  have hreaches := hrepeatable.bindingsFile
  rw [hfiles] at hreaches
  have hparent : world.files.stat machine.directory config.output.parent.text = .ok .directory := by
    obtain ⟨node, hnode, hover⟩ :=
      FileSystem.node_of_extends hemitted (FileSystem.stat_of_ensureDirectory h.made)
    cases hover
    exact hnode
  -- Since the search for the program only the bindings have changed.
  have hdiffers : prepared.DiffersAt world.files bindings := by
    refine ⟨hrepeatable.bindingsFile.2, ?_⟩
    intro q hq
    rw [hfiles]
    exact Execution.get?_emitted hlast hreaches.1 hreaches.2 hq
  have hagain : execution.effect machine.directory world.files = world.files := by
    refine (hquiet world.files).trans ?_
    rw [hfiles]
    exact Execution.emitted_again hlast hreaches.1 hreaches.2
  exact {
    header := FileSystem.findHeader_of_extends hstart h.header
    library := hlibrary
    sidecarClean := h.sidecarClean
    written := FileSystem.write_again h.written hextends hrepeatable.recordFile.1 hfinal
    sidecar := FileSystem.describe_of_extends hextends hfound (hrepeatable.short _ h.written)
      ⟨_, hsettled.1⟩ ⟨_, hfinal.1⟩ h.sidecar
    parentClean := h.parentClean
    made := FileSystem.ensureDirectory_of_stat h.parentClean hparent
    commandClean := h.commandClean
    found := Machine.find_of_differsAt hdiffers hemitted hrepeatable.untried h.found
    ended := h.ended
    effect := hagain.symm
    bindings := h.bindings
    reported := h.reported }

end

/-- A run with a result, repeated on the files that it has left behind, gives the same
result, writes the same to the two streams, and leaves the files as they are, except where
the library was to be checked and a question of the check is now refused for a name that
is too long: there it fails with that refusal, and leaves the files as they are. -/
theorem rerun_of_produce {machine : Machine} {config : Configuration} {files : FileSystem}
    {result : Production} {world : World} {record bindings : Place}
    (hrun : (Stage.produce machine config).runIn (.initial files) = (.ok result, world))
    (hrepeatable : Repeatable machine config files world record bindings) :
    ((config.checkLibraryDir = true → ∀ file, ¬ world.files.Overlong machine.directory
        (.ofText config.sdk.libraryDir.text) libraryFiles file) →
      ∃ again, (Stage.produce machine config).runIn (.initial world.files) = (.ok result, again) ∧
        again.output = world.output ∧ again.errors = world.errors ∧ again.files = world.files) ∧
    (config.checkLibraryDir = true → ∀ file, world.files.Overlong machine.directory
        (.ofText config.sdk.libraryDir.text) libraryFiles file →
      ∃ again, (Stage.produce machine config).runIn (.initial world.files)
          = (.error (.onPath file .nameTooLong), again) ∧ again.files = world.files) := by
  obtain ⟨recorded, prepared, execution, hsucceeds, houtput, herrors, hlaunches⟩ :=
    (Stage.runIn_produce_eq_ok_iff.mp hrun).succeeds
  have hquiet : ∀ fs, execution.Quiet machine.directory fs := by
    refine hrepeatable.quiet ⟨config.command result.header, prepared⟩ ?_ execution hsucceeds.found
    rw [hlaunches]
    exact List.mem_append_right _ (List.mem_singleton_self _)
  obtain ⟨-, hextends, -, -⟩ := hsucceeds.extends (hquiet prepared)
  constructor
  · intro hnone
    have hlibrary : config.checkLibraryDir = true → ∃ libraryDir,
        world.files.checkLibraryDir machine.directory config.sdk.libraryDir = .ok libraryDir := by
      intro hcheck
      rcases FileSystem.checkLibraryDir_of_extends hextends (hsucceeds.library hcheck) with
        ⟨-, hpasses⟩ | ⟨file, hsome, -⟩
      · exact hpasses
      · exact absurd hsome (hnone hcheck file)
    have hagain := hsucceeds.again hquiet hrepeatable hlibrary
    obtain ⟨again, hreached, hfiles, houtput', herrors', -⟩ :=
      @Succeeds.reached machine config (.initial world.files) result _ _ _ _ hagain
    exact ⟨again, Stage.runIn_produce_eq_ok_iff.mpr hreached, houtput'.trans houtput.symm,
      herrors'.trans herrors.symm, hfiles⟩
  · intro hcheck file hsome
    rcases FileSystem.checkLibraryDir_of_extends hextends (hsucceeds.library hcheck) with
      ⟨hnone, -⟩ | ⟨file', hsome', hrefused⟩
    · exact absurd hsome (hnone file)
    · obtain rfl := hsome.unique hsome'
      have hheader := FileSystem.findHeader_of_extends hextends hsucceeds.header
      have hlocated := (@Reached.announced machine config (.initial world.files)).located hheader
      exact ⟨_, Stage.runIn_produce_eq_error_iff.mpr ⟨_, _, hlocated, .library hcheck hrefused⟩,
        rfl⟩

namespace Sample

theorem repeatable {world : World} (hfinal : world.files = final) :
    Repeatable machine configuration files world record bindings where
  recordFile := ⟨by rw [hfinal]; decide +kernel, false, _, by rw [hfinal]; rfl⟩
  bindingsFile := ⟨by rw [hfinal]; decide +kernel, false, _, by rw [hfinal]; rfl⟩
  distinct := by decide
  quiet := fun _ _ _ hfind _ => Sample.quiet hfind
  untried := by
    rw [hfinal]
    decide +kernel
  short := by
    have hwrite : files.write machine.directory configuration.sidecar.text
        (linkRecord configuration.sdk.libraryDir.text) = .ok recorded := by
      decide +kernel
    intro after hafter
    obtain rfl := Except.ok.inj (hwrite.symm.trans hafter)
    decide +kernel

end Sample

namespace LongName

/-- The library for one platform, and for another one a link that leads to nothing yet.  In
the directory for the bindings the name that it leads to is too long. -/
def files : FileSystem :=
  FileSystem.empty.layOutAll (.ofPlace [])
    [.file "/sdk/VimbaC.h" false [], .file "/bindgen" true "generator",
     .file "/lib/libVimbaC.dylib" false [],
     .link "/lib/libVimbaC.so" (("/out/" : Text) ++ List.replicate 300 120)]

def configuration : Configuration where
  sdk := { includeDir := .ofText "/sdk", libraryDir := .given "/lib" }
  output := .ofText "/out/sys.rs"
  sidecar := .ofText "/libdir"
  generator := "/bindgen"
  checkLibraryDir := true
  showConfig := false

def record : Place := [⟨"libdir", by decide⟩]

/-- The files after the record has been written. -/
def recorded : FileSystem where
  entries := files.entries ++ [(record, .file false ("/lib" ++ [Text.newline]))]

/-- The files after the first run. -/
def final : FileSystem where
  entries := recorded.entries ++
    [(Sample.bindings.tail, .directory),
     (Sample.bindings, .file false ("mod sys;" ++ [Text.newline]))]

def result : Production where
  header := .ofText "/sdk/VimbaC.h"
  libraryDir := "/lib"
  sidecarPath := configuration.sidecar
  sidecar := { filename := "libdir", path := .ofText "/libdir", lineCount := 1, byteCount := 5 }
  bindings := Sample.result.bindings

theorem repeatable {world : World} (hfinal : world.files = final) :
    Repeatable Sample.machine configuration files world record Sample.bindings where
  recordFile := ⟨by rw [hfinal]; decide +kernel, false, linkRecord "/lib",
    by rw [hfinal]; decide +kernel⟩
  bindingsFile := ⟨by rw [hfinal]; decide +kernel, false, "mod sys;" ++ [Text.newline],
    by rw [hfinal]; decide +kernel⟩
  distinct := by decide
  quiet := fun _ _ _ hfind _ => Sample.quiet hfind
  untried := by
    rw [hfinal]
    decide +kernel
  short := by
    have hwrite : files.write Sample.machine.directory configuration.sidecar.text
        (linkRecord configuration.sdk.libraryDir.text) = .ok recorded := by
      decide +kernel
    intro after hafter
    obtain rfl := Except.ok.inj (hwrite.symm.trans hafter)
    decide +kernel

end LongName

/-- One run that can be repeated, and one after which the library check is refused. -/
theorem rerun_of_produce_samples :
    (∃ result world again,
      (Stage.produce Sample.machine Sample.configuration).runIn (.initial Sample.files)
        = (.ok result, world) ∧
      (Stage.produce Sample.machine Sample.configuration).runIn (.initial world.files)
        = (.ok result, again) ∧
      again.output = world.output ∧ again.files = world.files) ∧
    ∃ result world again,
      (Stage.produce Sample.machine LongName.configuration).runIn (.initial LongName.files)
        = (.ok result, world) ∧
      (Stage.produce Sample.machine LongName.configuration).runIn (.initial world.files)
        = (.error (.onPath "/lib/libVimbaC.so" .nameTooLong), again) := by
  constructor
  · have hresult : ((Stage.produce Sample.machine Sample.configuration).runIn
        (.initial Sample.files)).1 = .ok Sample.result := by
      decide +kernel
    have hfinal : ((Stage.produce Sample.machine Sample.configuration).runIn
        (.initial Sample.files)).2.files = Sample.final := by
      decide +kernel
    generalize hrun : (Stage.produce Sample.machine Sample.configuration).runIn
      (.initial Sample.files) = run at hresult hfinal
    obtain ⟨outcome, world⟩ := run
    subst hresult
    obtain ⟨hsame, -⟩ := rerun_of_produce hrun (Sample.repeatable hfinal)
    obtain ⟨again, hagain, houtput, -, hfiles⟩ := hsame (fun hcheck => nomatch hcheck)
    exact ⟨Sample.result, world, again, rfl, hagain, houtput, hfiles⟩
  · have hresult : ((Stage.produce Sample.machine LongName.configuration).runIn
        (.initial LongName.files)).1 = .ok LongName.result := by
      decide +kernel
    have hfinal : ((Stage.produce Sample.machine LongName.configuration).runIn
        (.initial LongName.files)).2.files = LongName.final := by
      decide +kernel
    generalize hrun : (Stage.produce Sample.machine LongName.configuration).runIn
      (.initial LongName.files) = run at hresult hfinal
    obtain ⟨outcome, world⟩ := run
    subst hresult
    replace hfinal : world.files = LongName.final := hfinal
    have hask : world.files.asks Sample.machine.directory
        ((Path.ofText "/lib").child "libVimbaC.so").text Node.isFile = .error .nameTooLong := by
      rw [hfinal]
      decide +kernel
    obtain ⟨-, hrefused⟩ := rerun_of_produce hrun (LongName.repeatable hfinal)
    obtain ⟨again, hagain, -⟩ := hrefused rfl _ (.first hask)
    exact ⟨LongName.result, world, again, rfl, hagain⟩

end SdkBindings
