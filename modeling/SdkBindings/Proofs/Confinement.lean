import SdkBindings.Proofs.Effects
import SdkBindings.Proofs.MadeDirectories
import SdkBindings.Proofs.ProducedFiles

/-!
Where a run leaves traces.  Main statement: whatever comes of a run whose generator writes
to no file but its output, every place is as it was, or it holds a file with what was
written to the record or to the bindings, or a new directory on the way to the bindings.
-/

namespace SdkBindings

/-- What may become of a place, given what may be written there and whether it lies on the
way to a directory that is needed. -/
inductive Permitted (written : Text → Prop) (onTheWay : Prop) :
    Option Node → Option Node → Prop where
  | same {node} : Permitted written onTheWay node node
  | rewritten {executable old content} :
      written content →
      Permitted written onTheWay (some (.file executable old)) (some (.file executable content))
  | added {content} :
      written content →
      Permitted written onTheWay none (some (.file false content))
  | furnished :
      onTheWay →
      Permitted written onTheWay none (some .directory)

theorem Permitted.trans {written : Text → Prop} {onTheWay : Prop} {first second third : Option Node}
    (h : Permitted written onTheWay first second) (h' : Permitted written onTheWay second third) :
    Permitted written onTheWay first third := by
  cases h with
  | same => exact h'
  | rewritten hold =>
      cases h' with
      | same => exact .rewritten hold
      | rewritten hnew => exact .rewritten hnew
  | added hold =>
      cases h' with
      | same => exact .added hold
      | rewritten hnew => exact .added hnew
  | furnished hway =>
      cases h' with
      | same => exact .furnished hway

/-- What a run that ended in a world has written to a place: the record, or what the
generator wrote to its output.  The path that was opened leads to the place in the end. -/
inductive WrittenAt (machine : Machine) (config : Configuration) (before : FileSystem)
    (world : World) (place : Place) : Text → Prop where
  | record :
      before.Opens machine.directory config.sidecar.text place →
      world.files.locate .follow machine.directory config.sidecar.text = .found place →
      WrittenAt machine config before world place
        (config.sdk.libraryDir.text ++ [Text.newline])
  | output {launch execution content} :
      launch ∈ world.launches →
      machine.find launch.files config.generator launch.arguments = .ok execution →
      execution.arguments.getLast? = some config.output.text →
      execution.program.emission execution.arguments = some content →
      launch.files.Opens machine.directory config.output.text place →
      world.files.locate .follow machine.directory config.output.text = .found place →
      WrittenAt machine config before world place content

/-- A place to which the beginning of a path leads. -/
def FileSystem.OnTheWay (fs : FileSystem) (directory : WorkingDirectory) (path : Path)
    (place : Place) : Prop :=
  ∃ above : Path, above.Begins path ∧ fs.locate .follow directory above.text = .found place

/-- A run that ended in a world has done to the files what its configuration asks for, and
nothing else. -/
def Confined (machine : Machine) (config : Configuration) (before : FileSystem)
    (world : World) : Prop :=
  ∀ place, Permitted (WrittenAt machine config before world place)
    (world.files.OnTheWay machine.directory config.output.parent place)
    (before.get? place) (world.files.get? place)

namespace FileSystem

variable {before after final : FileSystem} {directory : WorkingDirectory} {t content : Text}
  {written : Text → Prop} {onTheWay : Prop}

/-- A writing changes the content of the file that it opens, or makes it, and the path
leads there ever after. -/
theorem permitted_of_write (h : before.write directory t content = .ok after)
    (hextends : Extends after final) (place : Place)
    (hwritten : before.Opens directory t place →
      final.locate .follow directory t = .found place → written content) :
    Permitted written onTheWay (before.get? place) (after.get? place) := by
  have hbefore := (extends_of_write h).trans hextends
  have hleads : ∀ {executable}, before.Opens directory t place →
      after.get? place = some (.file executable content) → written content := by
    intro executable hopens hnode
    obtain ⟨content', hfinal⟩ := hextends.file hnode
    exact hwritten hopens (locate_of_opens hbefore hopens hfinal rfl)
  cases wrote_of_write h with
  | made hopens hparent hfree =>
      rw [get?_create hparent hfree] at hleads ⊢
      split
      · next hplace =>
          subst hplace
          rw [hfree]
          exact .added (hleads hopens (if_pos rfl))
      · exact .same
  | overwrote hopens hold =>
      rw [get?_overwrite hold] at hleads ⊢
      split
      · next hplace =>
          subst hplace
          rw [hold]
          exact .rewritten (hleads hopens (if_pos rfl))
      · exact .same
  | swallowed => exact .same

/-- Directories on the way are new, and nothing else is. -/
theorem permitted_of_furnished {path : Path} (h : Furnished directory path before after)
    (hextends : Extends after final) (place : Place) :
    Permitted written (final.OnTheWay directory path place) (before.get? place)
      (after.get? place) := by
  cases hnode : before.get? place with
  | some node =>
      rw [h.grows place node hnode]
      exact .same
  | none =>
      cases hnew : after.get? place with
      | none => exact .same
      | some node =>
          obtain ⟨rfl, above, hbegins, hfound⟩ := h.added place node hnode hnew
          exact .furnished ⟨above, hbegins, hfound final hextends⟩

end FileSystem

section

variable {machine : Machine} {config : Configuration} {start world : World}

/-- The record is written where its path leads, and is found there in the end. -/
theorem permitted_of_recorded {recorded : FileSystem} {onTheWay : Prop}
    (hwrite : start.files.write machine.directory config.sidecar.text
      (linkRecord config.sdk.libraryDir.text) = .ok recorded)
    (hextends : FileSystem.Extends recorded world.files) (place : Place) :
    Permitted (WrittenAt machine config start.files world place) onTheWay
      (start.files.get? place) (recorded.get? place) :=
  FileSystem.permitted_of_write hwrite hextends place .record

/-- The generator writes where the path of its output leads. -/
theorem permitted_of_emitted {before : FileSystem} {onTheWay : Prop} {launch : Launch}
    {execution : Execution} (hlaunch : launch ∈ world.launches)
    (hfind : machine.find launch.files config.generator launch.arguments = .ok execution)
    (hlast : execution.arguments.getLast? = some config.output.text)
    (hfiles : world.files = execution.emitted machine.directory launch.files) (place : Place) :
    Permitted (WrittenAt machine config before world place) onTheWay
      (launch.files.get? place) (world.files.get? place) := by
  rcases Execution.emitted_cases machine.directory launch.files hlast with
    hsame | ⟨content, hemission, hwrite⟩
  · rw [hfiles, hsame]
    exact .same
  · rw [← hfiles] at hwrite
    exact FileSystem.permitted_of_write hwrite (FileSystem.Extends.refl _) place
      (.output hlaunch hfind hlast hemission)

/-- Wherever the pipeline was stopped, it has left no other traces. -/
theorem confined_of_touched (h : Touched machine config start world)
    (hquiet : ∀ launch ∈ world.launches, ∀ execution,
      machine.find launch.files config.generator launch.arguments = .ok execution →
      execution.Quiet machine.directory launch.files) :
    Confined machine config start.files world := by
  intro place
  cases h with
  | nothing hfiles _ => exact hfiles ▸ .same
  | recorded hwrite _ =>
      exact permitted_of_recorded hwrite (FileSystem.Extends.refl _) place
  | @prepared recorded hwrite hfiles _ =>
      have hmade := recorded.furnished_ensureDirectory machine.directory config.output.parent
      rw [← hfiles] at hmade
      refine (permitted_of_recorded hwrite hmade.grows.extends place).trans ?_
      exact FileSystem.permitted_of_furnished hmade (FileSystem.Extends.refl _) place
  | @generated header recorded prepared execution hwrite hmade hfind hfiles hlaunches =>
      have hlaunch : ⟨config.command header, prepared⟩ ∈ world.launches := by
        rw [hlaunches]
        exact List.mem_append_right _ (List.mem_singleton_self _)
      have hlast := config.getLast?_of_find hfind
      replace hfiles : world.files = execution.emitted machine.directory prepared :=
        hfiles.trans (hquiet _ hlaunch execution hfind)
      have hfurnished := recorded.furnished_ensureDirectory machine.directory config.output.parent
      rw [hmade] at hfurnished
      have hemitted : FileSystem.Extends prepared world.files :=
        hfiles ▸ execution.extends_emitted machine.directory prepared
      -- A path that has led to a place when it was written leads there in the end.
      have hextends := hfurnished.grows.extends.trans hemitted
      refine (permitted_of_recorded hwrite hextends place).trans ?_
      refine (FileSystem.permitted_of_furnished hfurnished hemitted place).trans ?_
      exact permitted_of_emitted hlaunch hfind hlast hfiles place

end

/-- Whatever comes of a run, it leaves no traces but the record, the bindings and the
directories on the way to them.  Without a configuration it leaves none. -/
theorem confined_of_runCommandLine {machine : Machine} {places : Places} {argv : List Text}
    {files : FileSystem} {outcome : Except Fault RunEnd} {world : World}
    (hrun : (Stage.runCommandLine machine places argv).runIn (.initial files) = (outcome, world))
    (hquiet : ∀ config, Configured places argv config → ∀ launch ∈ world.launches,
      ∀ execution, machine.find launch.files config.generator launch.arguments = .ok execution →
      execution.Quiet machine.directory launch.files) :
    (∀ config, Configured places argv config → Confined machine config files world) ∧
      ((¬ ∃ config, Configured places argv config) → world.files = files) := by
  obtain rfl : ((Stage.runCommandLine machine places argv).runIn (.initial files)).2 = world := by
    rw [hrun]
  constructor
  · intro config hconfig
    cases hshow : config.showConfig with
    | true =>
        intro place
        rw [(files_of_preview hconfig hshow _).1]
        exact .same
    | false =>
        have htouched := touched_of_produce machine config (.initial files)
        obtain ⟨hfiles, hlaunches⟩ := files_of_produce hconfig hshow (.initial files)
        exact confined_of_touched (htouched.congr hfiles hlaunches) (hquiet config hconfig)
  · intro hnone
    exact (files_of_unconfigured hnone files).1

namespace Sample

def places : Places where
  home := .ofText "/home"
  project := .ofText "/crate"

/-- The command line of the configuration. -/
def argv : List Text :=
  ["--include-dir=/sdk", "--library-dir=/lib", "--output=out/sys.rs",
   "--sidecar=sdk/../libdir", "--bindgen=./bindgen"]

end Sample

open Sample in
/-- A run that makes the record behind a link, the bindings and a directory. -/
theorem confined_of_runCommandLine_sample : ∃ world,
    (Stage.runCommandLine machine places argv).runIn (.initial files) = (.ok (.exited 0), world) ∧
      world.files = final ∧ Configured places argv configuration ∧
      Confined machine configuration files world := by
  have hconfig : Configured places argv configuration := by
    refine ⟨(Arguments.defaults places).setValue (.given "/sdk") .includeDir
      |>.setValue (.given "/lib") .libraryDir |>.setValue (.given "out/sys.rs") .output
      |>.setValue (.given "sdk/../libdir") .sidecar |>.setValue (.given "./bindgen") .generator,
      ?_, ?_⟩
    · decide +kernel
    · decide +kernel
  have hend : ((Stage.runCommandLine machine places argv).runIn (.initial files)).1
      = .ok (.exited 0) := by
    decide +kernel
  have hfinal : ((Stage.runCommandLine machine places argv).runIn (.initial files)).2.files
      = final := by
    decide +kernel
  generalize hrun : (Stage.runCommandLine machine places argv).runIn (.initial files) = run
    at hend hfinal
  obtain ⟨outcome, world⟩ := run
  have hconfined := confined_of_runCommandLine hrun
    (fun _ _ _ _ _ hfind => Sample.quiet hfind)
  exact ⟨world, by rw [← hend], hfinal, hconfig, hconfined.1 _ hconfig⟩

end SdkBindings
