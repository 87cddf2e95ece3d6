import SdkBindings.Layout
import SdkBindings.Proofs.CanonicalWalk
import SdkBindings.Proofs.Extension
import SdkBindings.Proofs.Success

/-!
What a run with a result leaves behind.  Main statement: the record and the bindings are
where the result says that they are, under canonical paths, with as many bytes and lines
as it says, and the header is a regular file.
-/

namespace SdkBindings

/-- The last argument of the generator is its output. -/
theorem Configuration.getLast?_command (config : Configuration) (header : Path) :
    (config.command header).tail.getLast? = some config.output.text := by
  simp [command, GeneratorOptions.argv, GeneratorOptions.forOutput, GeneratorOptions.switch,
    GeneratorOptions.defaultHeadLines]

namespace Machine

variable {machine : Machine} {fs : FileSystem} {name : Text} {argv : List Text}
  {execution : Execution}

/-- A program that was found is one that a file under the name leads to. -/
theorem loadWithin_of_find (h : machine.find fs name argv = .ok execution) :
    ∃ path, machine.loadWithin fs startBound path argv.tail = .ok execution := by
  rw [find] at h
  cases hfirst : ((machine.candidates name).map (machine.load fs argv)).findSome? Except.toOption with
  | none => simp [hfirst] at h
  | some found =>
      simp only [hfirst, Except.ok.injEq] at h
      subst h
      obtain ⟨attempt, hattempt, hok⟩ := List.exists_of_findSome?_eq_some hfirst
      obtain ⟨path, -, rfl⟩ := List.mem_map.mp hattempt
      cases hload : machine.load fs argv path with
      | error reason => simp [hload, Except.toOption] at hok
      | ok loaded =>
          rw [hload, Except.toOption, Option.some.injEq] at hok
          subst hok
          rw [load] at hload
          split at hload
          · simp at hload
          · split at hload
            · exact ⟨path, hload⟩
            · simp at hload

/-- A program that was found is run with the last argument that it was given. -/
theorem getLast?_of_find (h : machine.find fs name argv = .ok execution) (hargv : argv.tail ≠ []) :
    execution.arguments.getLast? = argv.tail.getLast? := by
  obtain ⟨path, hload⟩ := loadWithin_of_find h
  exact getLast?_of_loadWithin hargv hload

/-- Only the programs of a machine are found on it. -/
theorem programs_of_find (h : machine.find fs name argv = .ok execution) :
    ∃ content, machine.programs content = some execution.program := by
  obtain ⟨path, hload⟩ := loadWithin_of_find h
  exact programs_of_loadWithin hload

end Machine

/-- The generator that was found is run with its output as the last argument. -/
theorem Configuration.getLast?_of_find {machine : Machine} {fs : FileSystem} {header : Path}
    {execution : Execution} (config : Configuration)
    (h : machine.find fs config.generator (config.command header) = .ok execution) :
    execution.arguments.getLast? = some config.output.text := by
  rw [Machine.getLast?_of_find h, config.getLast?_command]
  simp [command, GeneratorOptions.argv]

namespace FileSystem

variable {fs before after : FileSystem} {directory : WorkingDirectory}

/-- A path leads to a regular file at a place. -/
def ReachesFile (fs : FileSystem) (directory : WorkingDirectory) (path : Path) (place : Place) :
    Prop :=
  fs.locate .follow directory path.text = .found place ∧
    ∃ executable content, fs.get? place = some (.file executable content)

/-- A place holds a regular file with this content. -/
def Holds (fs : FileSystem) (place : Place) (content : Text) : Prop :=
  ∃ executable, fs.get? place = some (.file executable content)

/-- A path names an entry of a directory by the names on the way to it: it is absolute,
goes up nowhere, and passes through directories, none of them behind a link. -/
structure Names (fs : FileSystem) (path : Path) (place : Place) : Prop where
  spelled : path = place.path
  absolute : path.root = .one
  straight : Path.up ∉ path.parts
  through : ∀ above, place.isWithin above = true → above ≠ place → fs.get? above = some .directory

theorem names_path {place : Place} {node : Node} (h : fs.get? place = some node) :
    fs.Names place.path place where
  spelled := rfl
  absolute := rfl
  straight := by
    intro hup
    simp only [Place.path, List.mem_reverse, List.mem_map] at hup
    obtain ⟨name, -, hname⟩ := hup
    exact name.text_ne_up hname
  through := by
    intro above habove hne
    induction place generalizing node with
    | nil =>
        obtain ⟨names, hnames⟩ := Place.isWithin_iff.mp habove
        exact absurd (List.append_eq_nil_iff.mp hnames.symm).2 hne
    | cons name place ih =>
        have hplace := get?_parent h
        rcases Place.isWithin_cons.mp habove with hsame | hbelow
        · exact absurd hsame.symm hne
        · by_cases heq : above = place
          · exact heq ▸ hplace
          · exact ih hplace hbelow heq

/-- The description of a regular file that a path leads to. -/
theorem describe_of_locate {path : Path} {place : Place} {executable : Bool} {content : Text}
    {written : WrittenFile} (hfound : fs.locate .follow directory path.text = .found place)
    (hfile : fs.get? place = some (.file executable content))
    (hlimit : fs.WithinLimit directory path.text)
    (h : fs.describe directory path = .ok written) :
    written.path = place.path ∧ written.byteCount = content.length ∧
      written.lineCount = content.newlines := by
  obtain ⟨resolved, content', hcanonical, hread, rfl⟩ := describe_eq_ok_iff.mp h
  obtain rfl := resolve_of_locate hfound hlimit (canonicalPath_eq_ok_iff.mp hcanonical).1
  rw [read] at hread
  cases hstat : fs.stat directory place.path.text with
  | error reason => simp [hstat] at hread
  | ok node =>
      have hpath : fs.stat directory _ = _ := stat_path hfile rfl (length_le_of_node hstat)
      simp only [hpath, Except.ok.injEq] at hread
      subst hread
      exact ⟨rfl, rfl, rfl⟩

/-- A path that leads to a regular file after the writing has been written to. -/
theorem holds_of_write {t content : Text} {place : Place} {final : FileSystem}
    (hwrite : before.write directory t content = .ok after) (hextends : Extends after final)
    (hfound : final.locate .follow directory t = .found place)
    (hfile : ∃ executable old, final.get? place = some (.file executable old)) :
    before.Opens directory t place ∧ after.Holds place content ∧
      after.locate .follow directory t = .found place ∧
      ∀ q, q ≠ place → after.get? q = before.get? q := by
  rcases write_ok hwrite with ⟨opened, executable, hopens, hnode, hother, hgrown⟩ |
    ⟨rfl, opened, node, hlanding, hnode, hnofile⟩
  · have hafter := locate_of_opens hgrown hopens hnode rfl
    have hfinal := locate_follow_of_extends hextends (by decide) hnode hafter
    obtain rfl := Landing.found.inj (hfinal.symm.trans hfound)
    exact ⟨hopens, ⟨executable, hnode⟩, hafter, hother⟩
  · have hfinal := locate_follow_of_extends hextends (by decide) hnode hlanding
    obtain rfl := Landing.found.inj (hfinal.symm.trans hfound)
    obtain ⟨node', hnode', hover⟩ := hextends _ _ hnode
    obtain ⟨executable, old, hold⟩ := hfile
    rw [hold, Option.some.injEq] at hnode'
    subst hnode'
    cases hover <;> simp [Node.isFile] at hnofile

end FileSystem

/-- What a program writes, by the last argument that it was given. -/
theorem Execution.emitted_eq {execution : Execution} {directory : WorkingDirectory}
    {fs : FileSystem} {last : Text} (hlast : execution.arguments.getLast? = some last) :
    execution.emitted directory fs =
      match execution.program.emission execution.arguments with
      | none => fs
      | some content =>
        match fs.write directory last content with
        | .ok written => written
        | .error _ => fs := by
  rw [emitted, hlast]
  cases execution.program.emission execution.arguments with
  | none => rfl
  | some content => rfl

/-- A program writes nothing, or what it has for its arguments to where the last of them
leads. -/
theorem Execution.emitted_cases {execution : Execution} (directory : WorkingDirectory)
    (fs : FileSystem) {last : Text} (hlast : execution.arguments.getLast? = some last) :
    execution.emitted directory fs = fs ∨
      ∃ content, execution.program.emission execution.arguments = some content ∧
        fs.write directory last content = .ok (execution.emitted directory fs) := by
  rw [emitted_eq hlast]
  cases hemission : execution.program.emission execution.arguments with
  | none => exact .inl rfl
  | some content =>
      cases hwrite : fs.write directory last content with
      | error fault => exact .inl (by simp only [hwrite])
      | ok written => exact .inr ⟨content, rfl, by simp only [hwrite]⟩

theorem Execution.extends_emitted (execution : Execution) (directory : WorkingDirectory)
    (fs : FileSystem) : FileSystem.Extends fs (execution.emitted directory fs) := by
  rw [emitted]
  split
  · split
    · next hwrite => exact FileSystem.extends_of_write hwrite
    · exact FileSystem.Extends.refl fs
  · exact FileSystem.Extends.refl fs

/-- A program writes to no place but the one that its last argument leads to. -/
theorem Execution.get?_emitted {execution : Execution} {directory : WorkingDirectory}
    {fs : FileSystem} {last : Text} {place : Place}
    (hlast : execution.arguments.getLast? = some last)
    (hfound : (execution.emitted directory fs).locate .follow directory last = .found place)
    (hfile : ∃ executable old, (execution.emitted directory fs).get? place =
      some (.file executable old)) {q : Place} (hq : q ≠ place) :
    (execution.emitted directory fs).get? q = fs.get? q := by
  rcases emitted_cases directory fs hlast with hsame | ⟨content, -, hwrite⟩
  · rw [hsame]
  · obtain ⟨-, -, -, hother⟩ :=
      FileSystem.holds_of_write hwrite (FileSystem.Extends.refl _) hfound hfile
    exact hother q hq

/-- A program does nothing to the files but write to the one named by its last argument. -/
def Execution.Quiet (execution : Execution) (directory : WorkingDirectory) (fs : FileSystem) :
    Prop :=
  execution.effect directory fs = execution.emitted directory fs

/-- What is true of the files when a run has given a result.  The record stands at one
place and the bindings at another. -/
structure Production.Describes (result : Production) (machine : Machine)
    (config : Configuration) (world : World) (record bindings : Place) : Prop where
  /-- The record holds the library directory and a newline. -/
  recorded : world.files.Holds record (config.sdk.libraryDir.text ++ [Text.newline])
  recordPath : world.files.Names result.sidecar.path record
  recordBytes : result.sidecar.byteCount = config.sdk.libraryDir.text.length + 1
  recordLines : result.sidecar.lineCount = config.sdk.libraryDir.text.newlines + 1
  bindingsPath : world.files.Names result.bindings.path bindings
  /-- The bindings hold now what was counted. -/
  counted : ∃ content, world.files.Holds bindings content ∧
    result.bindings.byteCount = content.length ∧ result.bindings.lineCount = content.newlines
  /-- One program was started, and if its writing succeeded, it wrote the bindings. -/
  emitted : ∃ launch, world.launches = [launch] ∧ ∃ execution,
    machine.find launch.files config.generator launch.arguments = .ok execution ∧
      ∀ content written, execution.program.emission execution.arguments = some content →
        launch.files.write machine.directory config.output.text content = .ok written →
        world.files = written ∧ launch.files.Opens machine.directory config.output.text bindings ∧
          world.files.Holds bindings content
  /-- The header is a regular file under a path without links. -/
  header : ∃ place content, world.files.Names result.header place ∧
    world.files.Holds place content

/-- A run with a result tells the truth about the files that it leaves behind. -/
theorem describes_of_produce {machine : Machine} {config : Configuration} {files : FileSystem}
    {result : Production} {world : World} {record bindings : Place}
    (hrun : (Stage.produce machine config).runIn (.initial files) = (.ok result, world))
    (hrecord : world.files.ReachesFile machine.directory config.sidecar record)
    (hbindings : world.files.ReachesFile machine.directory config.output bindings)
    (hne : record ≠ bindings)
    (hquiet : ∀ launch ∈ world.launches, ∀ execution,
      machine.find launch.files config.generator launch.arguments = .ok execution →
      execution.Quiet machine.directory launch.files)
    (hshort : ∀ recorded, files.write machine.directory config.sidecar.text
        (linkRecord config.sdk.libraryDir.text) = .ok recorded →
      recorded.WithinLimit machine.directory config.sidecar.text)
    (hshort' : world.files.WithinLimit machine.directory config.output.text) :
    result.Describes machine config world record bindings := by
  obtain ⟨recorded, prepared, execution, hheader, hwrite, hsidecar, hmade, hfind, hfiles,
    hlaunches, hdescribe⟩ := (Stage.runIn_produce_eq_ok_iff.mp hrun).stages
  have hlast : execution.arguments.getLast? = some config.output.text := by
    rw [Machine.getLast?_of_find hfind, config.getLast?_command]
    simp [Configuration.command, GeneratorOptions.argv]
  have hlaunch : ⟨config.command result.header, prepared⟩ ∈ world.launches := by
    rw [hlaunches]
    exact List.mem_append_right _ (List.mem_singleton_self _)
  replace hfiles : world.files = execution.emitted machine.directory prepared :=
    hfiles.trans (hquiet _ hlaunch execution hfind)
  -- What is there at one stage is there at every later one.
  have hgrows : FileSystem.Grows recorded prepared := by
    have hparents := recorded.grows_ensureDirectory machine.directory config.output.parent
    rwa [hmade] at hparents
  have hextends : FileSystem.Extends recorded world.files :=
    hgrows.extends.trans (hfiles ▸ execution.extends_emitted machine.directory prepared)
  obtain ⟨-, ⟨executable, hwritten⟩, hfound, -⟩ :=
    FileSystem.holds_of_write hwrite hextends hrecord.1 hrecord.2
  obtain ⟨hpath, hbytes, hlines⟩ :=
    FileSystem.describe_of_locate hfound hwritten (hshort recorded hwrite) hsidecar
  obtain ⟨executable', content, hcontent⟩ := hbindings.2
  obtain ⟨hpath', hbytes', hlines'⟩ :=
    FileSystem.describe_of_locate hbindings.1 hcontent hshort' hdescribe
  have hkept : world.files.get? record = some (.file executable (linkRecord config.sdk.libraryDir.text)) := by
    have hother := Execution.get?_emitted hlast (hfiles ▸ hbindings.1) (hfiles ▸ hbindings.2) hne
    rw [hfiles, hother]
    exact hgrows _ _ hwritten
  obtain ⟨place, headerExecutable, headerContent, hplace, hregular⟩ :=
    FileSystem.file_of_findHeader (by decide) (by decide) (by decide) hheader
  have hstart : FileSystem.Extends files world.files :=
    (FileSystem.extends_of_write hwrite).trans hextends
  obtain ⟨headerContent', hregular'⟩ := hstart.file hregular
  exact {
    recorded := ⟨executable, hkept⟩
    recordPath := hpath ▸ FileSystem.names_path hkept
    recordBytes := by simp [hbytes, linkRecord]
    recordLines := by simp [hlines, linkRecord, Text.newlines]
    bindingsPath := hpath' ▸ FileSystem.names_path hcontent
    counted := ⟨content, ⟨executable', hcontent⟩, hbytes', hlines'⟩
    emitted := by
      refine ⟨_, hlaunches, execution, hfind, ?_⟩
      intro emission written hemission hwrote
      have hworld : world.files = written := by
        rw [hfiles, Execution.emitted_eq hlast, hemission]
        simp only [hwrote]
      obtain ⟨hopens, hholds, -, -⟩ := FileSystem.holds_of_write hwrote
        (FileSystem.Extends.refl written) (hworld ▸ hbindings.1) (hworld ▸ hbindings.2)
      exact ⟨hworld, hopens, hworld ▸ hholds⟩
    header := ⟨place, headerContent', hplace ▸ FileSystem.names_path hregular',
      headerExecutable, hregular'⟩ }

namespace Sample

/-- A machine with one program, which writes a line to the file named last. -/
def machine : Machine where
  directory := .ofPlace []
  searchPath := []
  programs := fun content =>
    if content = "generator" then some {
      output := []
      complaint := fun _ => []
      emission := fun _ => some ("mod sys;" ++ [Text.newline])
      ending := .exited 0 }
    else none

/-- A header in a directory, the program, and a link to a file that is not there yet. -/
def files : FileSystem :=
  FileSystem.empty.layOutAll (.ofPlace [])
    [.file "/sdk/VimbaC.h" false [], .file "/bindgen" true "generator",
     .link "/libdir" "sdk/../record"]

def configuration : Configuration where
  sdk := { includeDir := .ofText "/sdk", libraryDir := .given "/lib" }
  output := .ofText "out/sys.rs"
  sidecar := .ofText "sdk/../libdir"
  generator := "./bindgen"
  checkLibraryDir := false
  showConfig := false

def record : Place := [⟨"record", by decide⟩]

def bindings : Place := [⟨"sys.rs", by decide⟩, ⟨"out", by decide⟩]

/-- The files after the record has been written. -/
def recorded : FileSystem where
  entries := files.entries ++ [(record, .file false ("/lib" ++ [Text.newline]))]

/-- The files after the run. -/
def final : FileSystem where
  entries := recorded.entries ++
    [([⟨"out", by decide⟩], .directory),
     (bindings, .file false ("mod sys;" ++ [Text.newline]))]

def result : Production where
  header := .ofText "/sdk/VimbaC.h"
  libraryDir := "/lib"
  sidecarPath := configuration.sidecar
  sidecar := { filename := "record", path := .ofText "/record", lineCount := 1, byteCount := 5 }
  bindings := { filename := "sys.rs", path := .ofText "/out/sys.rs", lineCount := 1, byteCount := 9 }

theorem quiet {fs fs' : FileSystem} {name : Text} {arguments : List Text} {execution : Execution}
    (h : machine.find fs name arguments = .ok execution) :
    execution.Quiet machine.directory fs' := by
  obtain ⟨content, hprogram⟩ := Machine.programs_of_find h
  simp only [machine] at hprogram
  split at hprogram
  · obtain ⟨program, arguments⟩ := execution
    obtain rfl := Option.some.inj hprogram
    rfl
  · simp at hprogram

end Sample

open Sample in
theorem describes_of_produce_sample : ∃ world,
    (Stage.produce machine configuration).runIn (.initial files) = (.ok result, world) ∧
      result.Describes machine configuration world record bindings := by
  have hresult : ((Stage.produce machine configuration).runIn (.initial files)).1 = .ok result := by
    decide +kernel
  have hfinal : ((Stage.produce machine configuration).runIn (.initial files)).2.files = final := by
    decide +kernel
  have hwrite : files.write machine.directory configuration.sidecar.text
      (linkRecord configuration.sdk.libraryDir.text) = .ok recorded := by
    decide +kernel
  generalize hrun : (Stage.produce machine configuration).runIn (.initial files) = run
    at hresult hfinal
  obtain ⟨outcome, world⟩ := run
  subst hresult
  replace hfinal : world.files = final := hfinal
  refine ⟨world, rfl, describes_of_produce hrun ?_ ?_ (by decide) ?_ ?_ ?_⟩
  · exact ⟨by rw [hfinal]; decide +kernel, false, _, by rw [hfinal]; rfl⟩
  · exact ⟨by rw [hfinal]; decide +kernel, false, _, by rw [hfinal]; rfl⟩
  · intro launch _ execution hfind
    exact Sample.quiet hfind
  · intro after hafter
    obtain rfl := Except.ok.inj (hwrite.symm.trans hafter)
    decide +kernel
  · rw [hfinal]
    decide +kernel

end SdkBindings
