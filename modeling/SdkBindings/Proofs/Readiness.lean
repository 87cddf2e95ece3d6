import SdkBindings.Proofs.MadeDirectories
import SdkBindings.Proofs.ProducedFiles

/-!
What a generator finds when it is started.  Main statement: it is given the canonical
path of the header and the path of its output, whose directory is there, and the record
has been written; and a generator that writes to nothing but its output leaves the
record as it is, whatever comes of the run.
-/

namespace SdkBindings

section

variable {machine : Machine} {config : Configuration}

/-- The stages before a program that was started. -/
structure Started (machine : Machine) (config : Configuration) (files : FileSystem)
    (launch : Launch) (header : Path) (recorded : FileSystem) (execution : Execution) :
    Prop where
  located : files.findHeader machine.directory config.sdk.includeDir libraryHeader = .ok header
  written : files.write machine.directory config.sidecar.text
    (linkRecord config.sdk.libraryDir.text) = .ok recorded
  made : recorded.ensureDirectory machine.directory config.output.parent = (launch.files, .ok ())
  found : machine.find launch.files config.generator launch.arguments = .ok execution
  command : launch.arguments = config.command header

/-- A program is started after all the stages before it, and nothing happens to the files
after it has ended. -/
theorem Reached.started {start world : World} {milestone : Milestone} {launch : Launch}
    (h : Reached machine config start milestone world) (hnone : start.launches = [])
    (hlaunch : launch ∈ world.launches) :
    ∃ header recorded execution,
      Started machine config start.files launch header recorded execution ∧
        world.files = execution.effect machine.directory launch.files := by
  have heffects := h.effects
  have hheader := h.findHeader
  have hsilent : world.launches ≠ start.launches := by
    intro hsame
    simp [hsame, hnone] at hlaunch
  cases milestone with
  | announced | located | checked => exact absurd heffects.2 hsilent
  | recorded => exact absurd heffects.2.2 hsilent
  | prepared =>
      obtain ⟨-, -, -, -, hsame⟩ := heffects
      exact absurd hsame hsilent
  | generated | finished =>
      obtain ⟨recorded, prepared, execution, hwrite, -, hmade, hfound, hfiles, hlaunches⟩ :=
        heffects
      rw [hlaunches, hnone, List.nil_append, List.mem_singleton] at hlaunch
      subst hlaunch
      exact ⟨_, recorded, execution, ⟨hheader, hwrite, hmade, hfound, rfl⟩, hfiles⟩

/-- Where a run is stopped after it has started a program, the stop changes nothing. -/
theorem Stopped.unchanged {start mid world : World} {milestone : Milestone} {fault : Fault}
    {launch : Launch} (h : Stopped machine config milestone mid fault world)
    (hreached : Reached machine config start milestone mid) (hnone : start.launches = [])
    (hlaunch : launch ∈ world.launches) : world = mid := by
  have heffects := hreached.effects
  cases h with
  | header | library | recordNul | record | directoryNul | commandNul | start | unsuccessful
  | outputLost => rfl
  | recordLost =>
      have hsame : mid.launches = [] := heffects.2.trans hnone
      simp [World.withFiles, hsame] at hlaunch
  | directory =>
      have hsame : mid.launches = [] := heffects.2.2.trans hnone
      simp [World.withFiles, hsame] at hlaunch

/-- Whatever comes of a run, the program that it has started was started after all the
stages before it. -/
theorem started_of_produce {files : FileSystem} {outcome : Except Fault Production}
    {world : World} {launch : Launch}
    (hrun : (Stage.produce machine config).runIn (.initial files) = (outcome, world))
    (hlaunch : launch ∈ world.launches) :
    ∃ header recorded execution,
      Started machine config files launch header recorded execution ∧
        world.files = execution.effect machine.directory launch.files := by
  cases outcome with
  | ok result => exact (Stage.runIn_produce_eq_ok_iff.mp hrun).started rfl hlaunch
  | error fault =>
      obtain ⟨milestone, mid, hreached, hstopped⟩ := Stage.runIn_produce_eq_error_iff.mp hrun
      obtain rfl := hstopped.unchanged hreached rfl hlaunch
      exact hreached.started rfl hlaunch

end

namespace FileSystem

variable {before after : FileSystem} {directory : WorkingDirectory}

/-- Nothing has changed but the file that a path opens. -/
structure OnlyOpened (before : FileSystem) (directory : WorkingDirectory) (t : Text)
    (after : FileSystem) : Prop where
  kept : Extends before after
  elsewhere : ∀ place, ¬ before.Opens directory t place → after.get? place = before.get? place

/-- A writing changes nothing but the file that it opens. -/
theorem onlyOpened_of_write {t content : Text}
    (h : before.write directory t content = .ok after) : before.OnlyOpened directory t after := by
  refine ⟨extends_of_write h, ?_⟩
  intro place hplace
  rcases write_ok h with ⟨opened, _, hopens, -, hother, -⟩ | ⟨rfl, -⟩
  · exact hother place fun heq => hplace (heq ▸ hopens)
  · rfl

/-- A file that a path opens for writing, and that is there, is what the path leads to. -/
theorem locate_of_opens_node {t : Text} {place : Place} {node : Node}
    (hopens : before.Opens directory t place) (hnode : before.get? place = some node) :
    before.locate .follow directory t = .found place := by
  unfold Opens at hopens
  cases hlanding : before.locate .make directory t with
  | found opened =>
      rw [hlanding] at hopens
      obtain rfl : opened = place := hopens
      exact locate_follow_of_extends (Extends.refl before) (by decide) hnode hlanding
  | vacant parent name =>
      rw [hlanding] at hopens
      obtain ⟨-, rfl⟩ := hopens
      simp [(vacant_of_locate hlanding).2] at hnode
  | removed | failed => simp [hlanding, Landing.LandsAt] at hopens

/-- What stands elsewhere than where a path leads is left alone by a writing to it. -/
theorem OnlyOpened.get? {t : Text} {place : Place} {node : Node}
    (h : before.OnlyOpened directory t after) (hnode : before.get? place = some node)
    (hfound : before.locate .follow directory t ≠ .found place) :
    after.get? place = some node := by
  rw [h.elsewhere place, hnode]
  intro hopens
  exact hfound (locate_of_opens_node hopens hnode)

/-- A path that leads to a file or to nothing is written to a place, and leads there
afterwards. -/
theorem holds_of_write_file {t content : Text}
    (hfile : ∀ node, before.stat directory t = .ok node → node.isFile = true)
    (hwrite : before.write directory t content = .ok after) :
    ∃ place, after.locate .follow directory t = .found place ∧ after.Holds place content := by
  rcases write_ok hwrite with ⟨place, executable, hopens, hnode, -, hgrown⟩ |
    ⟨rfl, place, node, hlanding, hnode, hnofile⟩
  · exact ⟨place, locate_of_opens hgrown hopens hnode rfl, executable, hnode⟩
  · have hfound := locate_follow_of_extends (Extends.refl after) (by decide) hnode hlanding
    have hstat : after.stat directory t = .ok node := by
      simp [stat, FileSystem.node, hfound, hnode]
    simp [hfile node hstat] at hnofile

end FileSystem

/-- A program that does no more than write to the file named by its last argument. -/
theorem Execution.Quiet.onlyOpened {execution : Execution} {directory : WorkingDirectory}
    {fs : FileSystem} {last : Text} (h : execution.Quiet directory fs)
    (hlast : execution.arguments.getLast? = some last) :
    fs.OnlyOpened directory last (execution.effect directory fs) := by
  rw [h]
  rcases Execution.emitted_cases directory fs hlast with hsame | ⟨content, -, hwrite⟩
  · rw [hsame]
    exact ⟨FileSystem.Extends.refl fs, fun _ _ => rfl⟩
  · exact FileSystem.onlyOpened_of_write hwrite

/-- What a program finds that is started as the generator: a header and a directory for
its output, and the record in place. -/
structure Launch.Ready (launch : Launch) (machine : Machine) (config : Configuration)
    (record : Place) : Prop where
  /-- The first argument is the canonical path of a regular file. -/
  header : ∃ path place content, launch.arguments[1]? = some path.text ∧
    launch.files.Names path place ∧ launch.files.Holds place content
  /-- The output is named last. -/
  output : ∃ options, launch.arguments =
    options ++ [GeneratorOptions.outputOption, config.output.text]
  directory : launch.files.stat machine.directory config.output.parent.text = .ok .directory
  recordPath : launch.files.locate .follow machine.directory config.sidecar.text = .found record
  recorded : launch.files.Holds record (config.sdk.libraryDir.text ++ [Text.newline])

theorem Started.ready {machine : Machine} {config : Configuration} {files : FileSystem}
    {launch : Launch} {header : Path} {recorded : FileSystem} {execution : Execution}
    (h : Started machine config files launch header recorded execution)
    (hsidecar : ∀ node, files.stat machine.directory config.sidecar.text = .ok node →
      node.isFile = true) :
    ∃ record, launch.Ready machine config record := by
  obtain ⟨record, hfound, executable, hrecord⟩ :=
    FileSystem.holds_of_write_file hsidecar h.written
  have hgrows := FileSystem.grows_of_ensureDirectory h.made
  -- The header was found before the record was written, and may be the file that holds it.
  obtain ⟨place, headerExecutable, old, hplace, hregular⟩ :=
    FileSystem.file_of_findHeader (by decide) (by decide) (by decide) h.located
  obtain ⟨content, hregular'⟩ :=
    ((FileSystem.extends_of_write h.written).trans hgrows.extends).file hregular
  exact ⟨record, {
    header := by
      refine ⟨header, place, content, ?_, hplace ▸ FileSystem.names_path hregular', _, hregular'⟩
      simp [h.command, Configuration.command, GeneratorOptions.argv]
    output := ⟨_, h.command⟩
    directory := FileSystem.stat_of_ensureDirectory h.made
    recordPath := FileSystem.locate_follow_of_extends hgrows.extends (by decide) hrecord hfound
    recorded := ⟨executable, hgrows record _ hrecord⟩ }⟩

/-- The generator is started with everything in place, and one that writes to nothing but
its output leaves the record as it was, however it ends. -/
theorem ready_of_produce {machine : Machine} {config : Configuration} {files : FileSystem}
    {outcome : Except Fault Production} {world : World} {launch : Launch}
    (hrun : (Stage.produce machine config).runIn (.initial files) = (outcome, world))
    (hsidecar : ∀ node, files.stat machine.directory config.sidecar.text = .ok node →
      node.isFile = true)
    (hlaunch : launch ∈ world.launches) :
    ∃ record, launch.Ready machine config record ∧ ∃ execution,
      machine.find launch.files config.generator launch.arguments = .ok execution ∧
        (launch.files.OnlyOpened machine.directory config.output.text
            (execution.effect machine.directory launch.files) →
          launch.files.locate .follow machine.directory config.output.text ≠ .found record →
          world.files.locate .follow machine.directory config.sidecar.text = .found record ∧
            world.files.Holds record (config.sdk.libraryDir.text ++ [Text.newline])) := by
  obtain ⟨header, recorded, execution, hstarted, hfiles⟩ := started_of_produce hrun hlaunch
  obtain ⟨record, hready⟩ := hstarted.ready hsidecar
  refine ⟨record, hready, execution, hstarted.found, ?_⟩
  intro honly hother
  obtain ⟨executable, hrecord⟩ := hready.recorded
  rw [hfiles]
  constructor
  · exact FileSystem.locate_follow_of_extends honly.kept (by decide) hrecord hready.recordPath
  · exact ⟨executable, honly.get? hrecord hother⟩

namespace Sample

/-- The machine on which the program is killed when it has written its line. -/
def deadlyMachine : Machine where
  directory := machine.directory
  searchPath := machine.searchPath
  programs := fun content =>
    (machine.programs content).map fun program => { program with ending := .ofSignal 9 }

/-- The files that the program finds. -/
def prepared : FileSystem where
  entries := recorded.entries ++ [(bindings.tail, .directory)]

theorem deadly_quiet {fs fs' : FileSystem} {name : Text} {arguments : List Text}
    {execution : Execution} (h : deadlyMachine.find fs name arguments = .ok execution) :
    execution.Quiet deadlyMachine.directory fs' := by
  obtain ⟨content, hprogram⟩ := Machine.programs_of_find h
  obtain ⟨program, arguments⟩ := execution
  simp only [deadlyMachine, machine, Option.map_eq_some_iff] at hprogram
  obtain ⟨_, hprogram, rfl⟩ := hprogram
  split at hprogram
  · obtain rfl := Option.some.inj hprogram
    rfl
  · simp at hprogram

end Sample

open Sample in
theorem ready_of_produce_killed : ∃ world launch,
    (Stage.produce deadlyMachine configuration).runIn (.initial files) =
        (.error (.generator (.unsuccessful "./bindgen" (.ofSignal 9))), world) ∧
      launch ∈ world.launches ∧ launch.Ready deadlyMachine configuration record ∧
      world.files.Holds record ("/lib" ++ [Text.newline]) := by
  have houtcome : ((Stage.produce deadlyMachine configuration).runIn (.initial files)).1 =
      .error (.generator (.unsuccessful "./bindgen" (.ofSignal 9))) := by
    decide +kernel
  have hlaunches : ((Stage.produce deadlyMachine configuration).runIn (.initial files)).2.launches =
      [⟨configuration.command (.ofText "/sdk/VimbaC.h"), prepared⟩] := by
    decide +kernel
  generalize hrun : (Stage.produce deadlyMachine configuration).runIn (.initial files) = run
    at houtcome hlaunches
  obtain ⟨outcome, world⟩ := run
  subst houtcome
  have hlaunch := hlaunches ▸ List.mem_singleton_self _
  have hvacant : ∀ node, files.stat deadlyMachine.directory configuration.sidecar.text ≠ .ok node := by
    have hmissing : files.stat deadlyMachine.directory configuration.sidecar.text =
        .error .noEntry := by
      decide +kernel
    simp [hmissing]
  obtain ⟨place, hready, execution, hfound, hkept⟩ :=
    ready_of_produce hrun (fun node hnode => absurd hnode (hvacant node)) hlaunch
  obtain rfl : record = place := Landing.found.inj <|
    (by decide +kernel : prepared.locate .follow deadlyMachine.directory
      configuration.sidecar.text = .found record).symm.trans hready.recordPath
  have hlast := configuration.getLast?_of_find hfound
  obtain ⟨-, hholds⟩ := hkept ((deadly_quiet hfound).onlyOpened hlast) (by decide +kernel)
  exact ⟨world, _, rfl, hlaunch, hready, hholds⟩

end SdkBindings
