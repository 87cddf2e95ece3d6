import SdkBindings.Proofs.FurnishedWalk
import SdkBindings.Proofs.Rerun

/-!
Another generator, after one that could not be started.  Everything until the start of the
generator finds what the first run has left behind just as it found what was there before.
Main statement: the run with the other generator is the one that there would have been
without the first run.  The one exception is a question of the library check that had the
answer no and is refused now, since a directory that the first run made has given the system
a name to look at that is too long.
-/

namespace SdkBindings

/-- The same configuration with another generator. -/
def Configuration.withGenerator (config : Configuration) (generator : Text) : Configuration :=
  { config with generator := generator }

/-- The stages before the generator pass: with the record written the files are `recorded`,
and with the directory for the bindings `prepared`. -/
structure Prepares (machine : Machine) (config : Configuration) (files : FileSystem)
    (header : Path) (sidecar : WrittenFile) (recorded prepared : FileSystem) : Prop where
  passes : ChecksPass machine config files header
  sidecarClean : config.sidecar.text.hasNul = false
  written : files.write machine.directory config.sidecar.text
    (linkRecord config.sdk.libraryDir.text) = .ok recorded
  sidecar : recorded.describe machine.directory config.sidecar = .ok sidecar
  parentClean : config.output.parent.text.hasNul = false
  made : recorded.ensureDirectory machine.directory config.output.parent = (prepared, .ok ())

section

variable {machine : Machine} {config : Configuration} {start world : World} {header : Path}
  {sidecar : WrittenFile} {files files' recorded recorded' prepared : FileSystem}

theorem Reached.prepares (h : Reached machine config start (.prepared header sidecar) world) :
    ∃ recorded, Prepares machine config start.files header sidecar recorded world.files := by
  cases h with
  | @prepared before _ _ prepared hrecorded hparent hmade =>
    cases hrecorded with
    | @recorded _ _ recorded _ hchecked hsidecar hwrite hread =>
      obtain ⟨hfiles, -⟩ := hchecked.effects
      rw [hfiles] at hwrite
      exact ⟨recorded, (checksPass_iff_reached start).mpr ⟨_, hchecked⟩, hsidecar, hwrite, hread,
        hparent, hmade⟩

/-- The generator is not asked for before it is started. -/
theorem Prepares.withGenerator
    (h : Prepares machine config files header sidecar recorded prepared) (generator : Text) :
    Prepares machine (config.withGenerator generator) files header sidecar recorded prepared :=
  ⟨h.passes, h.sidecarClean, h.written, h.sidecar, h.parentClean, h.made⟩

/-- When nothing is held back any more, it makes no difference when it was handed on. -/
theorem World.flushed_congr {world world' : World} (hfiles : world.files = world'.files)
    (houtput : world.output = world'.output) (herrors : world.errors = world'.errors)
    (hlaunches : world.launches = world'.launches) : world.flushed = world'.flushed := by
  simp only [World.output] at houtput
  simp only [World.flushed, hfiles, houtput, herrors, hlaunches]

/-- Until the record is written, what a run prints and starts does not depend on the files. -/
theorem Reached.prints_eq {files' : FileSystem} {world' : World}
    (h : Reached machine config (.initial files) (.checked header) world)
    (h' : Reached machine config (.initial files') (.checked header) world') :
    world.output = world'.output ∧ world.errors = world'.errors ∧
      world.launches = world'.launches := by
  obtain ⟨houtput, herrors⟩ := h.output_checked
  obtain ⟨houtput', herrors'⟩ := h'.output_checked
  obtain ⟨-, hlaunches⟩ := h.effects
  obtain ⟨-, hlaunches'⟩ := h'.effects
  rw [houtput, houtput', herrors, herrors', hlaunches, hlaunches']
  exact ⟨rfl, rfl, rfl⟩

/-- Where the stages pass, a run gets to the generator, and has only printed in between. -/
theorem Prepares.reached
    (h : Prepares machine config start.files header sidecar recorded prepared) :
    ∃ mid, Reached machine config start (.checked header) mid ∧
      Reached machine config start (.prepared header sidecar)
        (((mid.withFiles prepared).withLine
          ("  Link dir: " ++ config.sdk.libraryDir.text ++ " -> " ++ sidecar.path.text)).withLine
          ("  Running: " ++ shellCommand (config.command header))).flushed := by
  obtain ⟨mid, hmid⟩ := (checksPass_iff_reached start).mp h.passes
  obtain ⟨hfiles, -⟩ := hmid.effects
  have hrecorded := hmid.recorded h.sidecarClean (hfiles ▸ h.written) h.sidecar
  exact ⟨mid, hmid, hrecorded.prepared h.parentClean h.made⟩

/-- Two runs that prepare the same files for the generator are the same from there on. -/
theorem Prepares.runIn_eq (h : Prepares machine config files header sidecar recorded prepared)
    (h' : Prepares machine config files' header sidecar recorded' prepared) :
    (Stage.produce machine config).runIn (.initial files') =
      (Stage.produce machine config).runIn (.initial files) := by
  obtain ⟨mid, hmid, hreached⟩ := @Prepares.reached _ _ (.initial files) _ _ _ _ h
  obtain ⟨mid', hmid', hreached'⟩ := @Prepares.reached _ _ (.initial files') _ _ _ _ h'
  obtain ⟨houtput, herrors, hlaunches⟩ := hmid'.prints_eq hmid
  rw [Stage.runIn_produce_of_reached hreached, Stage.runIn_produce_of_reached hreached']
  refine congrArg _ (World.flushed_congr rfl ?_ herrors hlaunches)
  rw [World.output_withLine, World.output_withLine, World.output_withLine, World.output_withLine,
    World.output_withFiles, World.output_withFiles, houtput]

end

/-- What has passed the checks passes them in an extension, unless a question of the library
check is refused now. -/
theorem ChecksPass.of_extends {machine : Machine} {config : Configuration}
    {before after : FileSystem} {header : Path} (h : ChecksPass machine config before header)
    (hextends : FileSystem.Extends before after)
    (hnone : config.checkLibraryDir = true → ∀ file, ¬ after.Overlong machine.directory
      (.ofText config.sdk.libraryDir.text) libraryFiles file) :
    ChecksPass machine config after header := by
  refine ⟨FileSystem.findHeader_of_extends hextends h.1, ?_⟩
  intro hcheck
  rcases FileSystem.checkLibraryDir_of_extends hextends (h.2 hcheck) with
    ⟨-, hpasses⟩ | ⟨file, hsome, -⟩
  · exact hpasses
  · exact absurd hsome (hnone hcheck file)

/-- Where a question of the library check is refused now, a run ends with that refusal. -/
theorem ChecksPass.runIn_of_overlong {machine : Machine} {config : Configuration}
    {before after : FileSystem} {header : Path} (h : ChecksPass machine config before header)
    (hextends : FileSystem.Extends before after) (hcheck : config.checkLibraryDir = true)
    {file : Text} (hsome : after.Overlong machine.directory
      (.ofText config.sdk.libraryDir.text) libraryFiles file) :
    ∃ world, (Stage.produce machine config).runIn (.initial after)
      = (.error (.onPath file .nameTooLong), world) ∧ world.files = after := by
  rcases FileSystem.checkLibraryDir_of_extends hextends (h.2 hcheck) with
    ⟨hnone, -⟩ | ⟨file', hsome', hrefused⟩
  · exact absurd hsome (hnone file)
  · obtain rfl := hsome.unique hsome'
    have hlocated := (@Reached.announced machine config (.initial after)).located
      (FileSystem.findHeader_of_extends hextends h.1)
    exact ⟨_, Stage.runIn_produce_eq_error_iff.mpr ⟨_, _, hlocated, .library hcheck hrefused⟩, rfl⟩

section

variable {machine : Machine} {config : Configuration} {files : FileSystem} {header : Path}
  {sidecar : WrittenFile} {recorded prepared : FileSystem}

/-- Nothing is lost on the way. -/
theorem Prepares.extends (h : Prepares machine config files header sidecar recorded prepared) :
    FileSystem.Extends files prepared :=
  (FileSystem.extends_of_write h.written).trans
    (FileSystem.grows_of_ensureDirectory h.made).extends

/-- If the checks pass again on the files that are left behind, the other stages do so as
well, and change nothing. -/
theorem Prepares.again (h : Prepares machine config files header sidecar recorded prepared)
    (hpasses : ChecksPass machine config prepared header) :
    Prepares machine config prepared header sidecar prepared prepared := by
  have hfurnished := recorded.furnished_ensureDirectory machine.directory config.output.parent
  rw [h.made] at hfurnished
  have hstart : isAbsolute config.sidecar.text = true ∨
      recorded.get? machine.directory.place ≠ none := by
    refine (FileSystem.get?_of_write h.written).imp_right fun hlive => ?_
    obtain ⟨node, hnode⟩ := Option.ne_none_iff_exists'.mp hlive
    obtain ⟨node', hnode', -⟩ := FileSystem.extends_of_write h.written _ _ hnode
    simp [hnode']
  exact {
    passes := hpasses
    sidecarClean := h.sidecarClean
    written := FileSystem.write_of_ensureDirectory h.written h.made
    sidecar := FileSystem.describe_of_furnished hfurnished hstart h.sidecar
    parentClean := h.parentClean
    made := FileSystem.ensureDirectory_of_stat h.parentClean
      (FileSystem.stat_of_ensureDirectory h.made) }

end

/-- After a run whose generator could not be started, a run with another generator is the
same, in all that it gives, prints and leaves, as without the first run, except where the
library is to be checked and a question of the check is now refused for a name that is too
long: there it fails with that refusal, and leaves the files as they are. -/
theorem retry_of_unstarted {machine : Machine} {config : Configuration} {files : FileSystem}
    {failure : GeneratorFailure} {world : World}
    (hrun : (Stage.produce machine config).runIn (.initial files)
      = (.error (.generator failure), world))
    (hunstarted : failure = .notFound config.generator ∨ failure = .notExecutable config.generator)
    (generator : Text) :
    ((config.checkLibraryDir = true → ∀ file, ¬ world.files.Overlong machine.directory
        (.ofText config.sdk.libraryDir.text) libraryFiles file) →
      (Stage.produce machine (config.withGenerator generator)).runIn (.initial world.files) =
        (Stage.produce machine (config.withGenerator generator)).runIn (.initial files)) ∧
    (config.checkLibraryDir = true → ∀ file, world.files.Overlong machine.directory
        (.ofText config.sdk.libraryDir.text) libraryFiles file →
      ∃ again, (Stage.produce machine (config.withGenerator generator)).runIn
          (.initial world.files) = (.error (.onPath file .nameTooLong), again) ∧
        again.files = world.files) := by
  obtain ⟨milestone, mid, hreached, hstopped⟩ := Stage.runIn_produce_eq_error_iff.mp hrun
  obtain ⟨rfl, ⟨header, sidecar, -, rfl, -⟩ | ⟨_, _, _, -, -, hended⟩⟩ := hstopped.generator_cases
  · obtain ⟨recorded, hprepares⟩ := hreached.prepares
    have hother := hprepares.withGenerator generator
    constructor
    · intro hnone
      exact hother.runIn_eq (hother.again (hother.passes.of_extends hother.extends hnone))
    · intro hcheck file hsome
      exact hother.passes.runIn_of_overlong hother.extends hcheck hsome
  · rcases hunstarted with rfl | rfl <;> simp at hended

/-- A run after one without its generator, and one in which the library check is refused. -/
theorem retry_of_unstarted_samples :
    (∃ world, (Stage.produce Sample.machine (Sample.configuration.withGenerator "./none")).runIn
        (.initial Sample.files) = (.error (.generator (.notFound "./none")), world) ∧
      (Stage.produce Sample.machine Sample.configuration).runIn (.initial world.files) =
        (Stage.produce Sample.machine Sample.configuration).runIn (.initial Sample.files)) ∧
    ∃ world again,
      (Stage.produce Sample.machine (LongName.configuration.withGenerator "/none")).runIn
        (.initial LongName.files) = (.error (.generator (.notFound "/none")), world) ∧
      (Stage.produce Sample.machine LongName.configuration).runIn (.initial world.files)
        = (.error (.onPath "/lib/libVimbaC.so" .nameTooLong), again) := by
  constructor
  · have hfailed : ((Stage.produce Sample.machine
        (Sample.configuration.withGenerator "./none")).runIn (.initial Sample.files)).1 =
          .error (.generator (.notFound "./none")) := by
      decide +kernel
    generalize hrun : (Stage.produce Sample.machine
      (Sample.configuration.withGenerator "./none")).runIn (.initial Sample.files) = run at hfailed
    obtain ⟨outcome, world⟩ := run
    subst hfailed
    obtain ⟨hsame, -⟩ := retry_of_unstarted hrun (.inl rfl) "./bindgen"
    exact ⟨world, rfl, hsame fun hcheck => nomatch hcheck⟩
  · have hfailed : ((Stage.produce Sample.machine
        (LongName.configuration.withGenerator "/none")).runIn (.initial LongName.files)).1 =
          .error (.generator (.notFound "/none")) := by
      decide +kernel
    have hask : (((Stage.produce Sample.machine
        (LongName.configuration.withGenerator "/none")).runIn
          (.initial LongName.files)).2.files.asks Sample.machine.directory
        ((Path.ofText "/lib").child "libVimbaC.so").text Node.isFile) = .error .nameTooLong := by
      decide +kernel
    generalize hrun : (Stage.produce Sample.machine
      (LongName.configuration.withGenerator "/none")).runIn (.initial LongName.files) = run
      at hfailed hask
    obtain ⟨outcome, world⟩ := run
    subst hfailed
    obtain ⟨-, hrefused⟩ := retry_of_unstarted hrun (.inl rfl) "/bindgen"
    obtain ⟨again, hagain, -⟩ := hrefused rfl _ (.first hask)
    exact ⟨world, again, rfl, hagain⟩

end SdkBindings
