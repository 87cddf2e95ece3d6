import SdkBindings.Layout
import SdkBindings.Proofs.ExitStatus
import SdkBindings.Proofs.Extension
import SdkBindings.Proofs.NulFree

/-!
A generator that cannot be started.  A shell tells a program that is not there from one
that cannot be executed, by two statuses.  Main statement: a run ends with the status of
the shell exactly if the refusals can be told apart in this way, and what happens where
they cannot.
-/

namespace SdkBindings

namespace Machine

variable {machine : Machine} {fs : FileSystem} {name : Text} {argv : List Text}

/-- No attempt to start a program under a name succeeds. -/
def Unstartable (machine : Machine) (fs : FileSystem) (name : Text) (argv : List Text) : Prop :=
  ∀ path ∈ machine.candidates name, ∃ reason, machine.load fs argv path = .error reason

/-- The refusals that the attempts meet, in their order. -/
def refusals (machine : Machine) (fs : FileSystem) (name : Text) (argv : List Text) : List Errno :=
  ((machine.candidates name).map (machine.load fs argv)).filterMap find.refusal?

/-- Whether there is anything under the name of a program. -/
def hasEntry (machine : Machine) (fs : FileSystem) (name : Text) : Bool :=
  (machine.candidates name).any fun path => (fs.stat machine.directory path).isOk

/-- The status by which a shell tells what it has found. -/
def shellTells (found : Bool) : Int :=
  if found then GeneratorFailure.notExecutableStatus else GeneratorFailure.notFoundStatus

/-- The first refusal that means more than a missing file is the missing permission of an
entry, or there is no entry, no such refusal, and a missing file last. -/
def Telling (machine : Machine) (fs : FileSystem) (name : Text) (argv : List Text) : Prop :=
  if machine.hasEntry fs name then
    (machine.refusals fs name argv).find? (fun reason => reason ≠ .noEntry ∧ reason ≠ .notDirectory)
      = some .permission
  else
    (∀ reason ∈ machine.refusals fs name argv, reason = .noEntry ∨ reason = .notDirectory) ∧
      (machine.refusals fs name argv).getLast? = some .noEntry

instance decidableTelling (machine : Machine) (fs : FileSystem) (name : Text)
    (argv : List Text) : Decidable (machine.Telling fs name argv) := by
  unfold Telling
  infer_instance

theorem candidates_ne_nil (machine : Machine) (name : Text) : machine.candidates name ≠ [] := by
  rw [candidates]
  split
  · simp
  · simpa using Text.fields_ne_nil Text.colon machine.searchPath

theorem find_of_unstartable (h : machine.Unstartable fs name argv) :
    machine.find fs name argv = .error (reported (machine.refusals fs name argv)) := by
  have hnone : ((machine.candidates name).map (machine.load fs argv)).findSome?
      Except.toOption = none := by
    rw [List.findSome?_eq_none_iff]
    intro attempt hattempt
    obtain ⟨path, hpath, rfl⟩ := List.mem_map.mp hattempt
    obtain ⟨reason, hreason⟩ := h path hpath
    rw [hreason]
    rfl
  rw [find, hnone, refusals]

theorem mem_refusals {reason : Errno} (h : machine.Unstartable fs name argv) :
    reason ∈ machine.refusals fs name argv ↔
      ∃ path ∈ machine.candidates name, machine.load fs argv path = .error reason := by
  rw [refusals, List.mem_filterMap]
  constructor
  · rintro ⟨attempt, hattempt, hrefusal⟩
    obtain ⟨path, hpath, rfl⟩ := List.mem_map.mp hattempt
    obtain ⟨reason', hreason⟩ := h path hpath
    rw [hreason, find.refusal?, Option.some.injEq] at hrefusal
    exact ⟨path, hpath, hrefusal ▸ hreason⟩
  · rintro ⟨path, hpath, hreason⟩
    exact ⟨_, List.mem_map_of_mem hpath, by rw [hreason, find.refusal?]⟩

theorem refusals_ne_nil (h : machine.Unstartable fs name argv) :
    machine.refusals fs name argv ≠ [] := by
  obtain ⟨path, hpath⟩ := List.exists_mem_of_ne_nil _ (machine.candidates_ne_nil name)
  obtain ⟨reason, hreason⟩ := h path hpath
  exact List.ne_nil_of_mem ((mem_refusals h).mpr ⟨path, hpath, hreason⟩)

/-- Without an entry under the name, no permission is missing. -/
theorem permission_not_mem_refusals (h : machine.Unstartable fs name argv)
    (hentry : machine.hasEntry fs name = false) : .permission ∉ machine.refusals fs name argv := by
  rw [mem_refusals h]
  rintro ⟨path, hpath, hload⟩
  have habsent := List.any_eq_false.mp hentry path hpath
  cases hstat : fs.stat machine.directory path with
  | ok node => simp [hstat, Except.isOk, Except.toBool] at habsent
  | error reason =>
      simp only [load, FileSystem.executable, hstat, Except.error.injEq] at hload
      exact fs.stat_ne_permission machine.directory path (hload ▸ hstat)

/-- A missing permission is reported if it is the first refusal that means more than a
missing file. -/
theorem reported_eq_permission_iff {reasons : List Errno} : reported reasons = .permission ↔
    reasons.find? (fun reason => reason ≠ .noEntry ∧ reason ≠ .notDirectory) = some .permission := by
  rw [reported]
  cases hfirst : reasons.find? fun reason => reason ≠ .noEntry ∧ reason ≠ .notDirectory with
  | some reason => simp
  | none =>
      simp only [reduceCtorEq, iff_false]
      rw [List.find?_eq_none] at hfirst
      rw [List.getLastD_eq_getLast?]
      cases hlast : reasons.getLast? with
      | none => simp
      | some last =>
          have hmissing := hfirst last (List.mem_of_getLast? hlast)
          rintro rfl
          simp at hmissing

/-- A missing file is reported if nothing else was met, and it was met last. -/
theorem reported_eq_noEntry_iff {reasons : List Errno} (hne : reasons ≠ []) :
    reported reasons = .noEntry ↔
      (∀ reason ∈ reasons, reason = .noEntry ∨ reason = .notDirectory) ∧
        reasons.getLast? = some .noEntry := by
  rw [reported]
  cases hfirst : reasons.find? fun reason => reason ≠ .noEntry ∧ reason ≠ .notDirectory with
  | some reason =>
      have hmeans := List.find?_some hfirst
      have hmem := List.mem_of_find?_eq_some hfirst
      simp only [decide_eq_true_eq] at hmeans
      constructor
      · exact fun h => absurd h hmeans.1
      · rintro ⟨hall, -⟩
        rcases hall reason hmem with h | h
        · exact absurd h hmeans.1
        · exact absurd h hmeans.2
  | none =>
      rw [List.find?_eq_none] at hfirst
      have hall : ∀ reason ∈ reasons, reason = .noEntry ∨ reason = .notDirectory := by
        intro reason hreason
        have := hfirst reason hreason
        by_cases hnone : reason = .noEntry
        · exact .inl hnone
        · simp_all
      simp only [List.getLastD_eq_getLast?, List.getLast?_eq_some_getLast hne, Option.getD_some,
        Option.some.injEq]
      exact ⟨fun h => ⟨hall, h⟩, fun h => h.2⟩

theorem hasEntry_of_permission (h : machine.Unstartable fs name argv)
    (hreported : reported (machine.refusals fs name argv) = .permission) :
    machine.hasEntry fs name = true := by
  rw [reported_eq_permission_iff] at hreported
  have hmem := List.mem_of_find?_eq_some hreported
  cases hentry : machine.hasEntry fs name with
  | true => rfl
  | false => exact absurd hmem (permission_not_mem_refusals h hentry)

/-- The search reports what a shell would tell, or it cannot be told from its report. -/
theorem telling_iff (h : machine.Unstartable fs name argv) :
    machine.Telling fs name argv ↔
      reported (machine.refusals fs name argv) =
        if machine.hasEntry fs name then .permission else .noEntry := by
  rw [Telling]
  split
  · exact reported_eq_permission_iff.symm
  · exact (reported_eq_noEntry_iff (refusals_ne_nil h)).symm

end Machine

/-- The exit status after a generator that could not be started. -/
def startStatus : Errno → Int
  | .noEntry => GeneratorFailure.notFoundStatus
  | .permission => GeneratorFailure.notExecutableStatus
  | _ => GeneratorFailure.refusedStatus

theorem runEnd_startFault (generator : Text) (reason : Errno) :
    (startFault generator reason).runEnd = .exited (startStatus reason) := by
  cases reason <;> rfl

/-- Of the refusals that are reported, one goes with an entry and one with none. -/
theorem startFault_tells_iff (generator : Text) {reason : Errno} {found : Bool}
    (h : reason = .permission → found = true) :
    (∃ failure, startFault generator reason = .generator failure ∧
        failure.exitStatus = startStatus reason ∧ startStatus reason = Machine.shellTells found) ↔
      reason = if found then .permission else .noEntry := by
  cases reason with
  | permission =>
      rw [h rfl]
      exact ⟨fun _ => rfl, fun _ => ⟨_, rfl, rfl, rfl⟩⟩
  | noEntry =>
      cases found with
      | false => exact ⟨fun _ => rfl, fun _ => ⟨_, rfl, rfl, rfl⟩⟩
      | true =>
          simp only [↓reduceIte, reduceCtorEq, iff_false]
          rintro ⟨_, -, -, htells⟩
          exact absurd htells (by decide)
  | argumentListTooLong | execFormat | entryExists | notDirectory | isDirectory | noSpace
  | nameTooLong | tooManyLinks =>
      constructor
      · rintro ⟨failure, hfault, -⟩
        simp [startFault, Fault.onPath] at hfault
      · cases found <;> simp

theorem startFault_of_not_telling (generator : Text) {reason : Errno} {found : Bool}
    (h : reason = .permission → found = true)
    (hne : reason ≠ if found then .permission else .noEntry) :
    (∃ other, startFault generator reason = .onPath generator other) ∧ startStatus reason = 1 ∨
      startFault generator reason = .generator (.notFound generator) ∧
        startStatus reason = 127 ∧ found = true := by
  cases reason with
  | permission =>
      rw [h rfl] at hne
      exact absurd rfl hne
  | noEntry =>
      cases found with
      | false => exact absurd rfl hne
      | true => exact .inr ⟨rfl, rfl, rfl⟩
  | argumentListTooLong | execFormat | entryExists | notDirectory | isDirectory | noSpace
  | nameTooLong | tooManyLinks => exact .inl ⟨⟨_, rfl⟩, rfl⟩

section

variable {machine : Machine} {places : Places} {argv : List Text} {config : Configuration}
  {files : FileSystem} {start world : World} {header : Path} {sidecar : WrittenFile}

/-- The last stage before the generator is started. -/
theorem Reached.of_prepared (h : Reached machine config start (.prepared header sidecar) world) :
    ∃ before fs, Reached machine config start (.recorded header sidecar) before ∧
      config.output.parent.text.hasNul = false ∧
      before.files.ensureDirectory machine.directory config.output.parent = (fs, .ok ()) ∧
      world = ((before.withFiles fs).withLine
        ("  Running: " ++ shellCommand (config.command header))).flushed := by
  cases h with
  | prepared hbefore hnul hmade => exact ⟨_, _, hbefore, hnul, hmade, rfl⟩

/-- Running the generator, when it cannot be started, ends in the fault that the search
for it reports. -/
theorem Stage.runIn_generate_of_refused {before : World} {fs : FileSystem} {reason : Errno}
    (hparent : config.output.parent.text.hasNul = false)
    (hmade : before.files.ensureDirectory machine.directory config.output.parent = (fs, .ok ()))
    (hnul : (config.command header).any Text.hasNul = false)
    (hfind : machine.find fs config.generator (config.command header) = .error reason) :
    (generate machine header (.forOutput config.output) config.generator).runIn before =
      (.error (startFault config.generator reason),
        ((before.withFiles fs).withLine
          ("  Running: " ++ shellCommand (config.command header))).flushed) := by
  have hstages : generate machine header (.forOutput config.output) config.generator = (do
      ensureDirectory machine.directory config.output.parent
      say ("  Running: " ++ shellCommand (config.command header))
      flush
      let ending ← runCommand machine config.generator (config.command header)
      if ending.status ≠ 0 then throw (.generator (.unsuccessful config.generator ending))
      check fun fs => fs.describe machine.directory config.output) := rfl
  have hfirst : (ensureDirectory machine.directory config.output.parent).runIn before =
      (.ok (), before.withFiles fs) := by
    rw [runIn_ensureDirectory, hparent, hmade]
    rfl
  have hlast : ∀ world : World, world.files = fs →
      (runCommand machine config.generator (config.command header)).runIn world =
        (.error (startFault config.generator reason), world) := by
    intro world hfiles
    rw [runIn_runCommand, hnul, hfiles, hfind]
    rfl
  rw [hstages, runIn_bind, hfirst]
  simp only [runIn_bind, runIn_say, runIn_flush]
  rw [hlast _ rfl]
  rfl

/-- A run that comes to the start of the generator, and cannot start it, ends with the
status of the shell exactly if the refusals tell what a shell tells.  Otherwise it is a
refused system call that ends the run with one, or a file is there and the run ends as if
there were none. -/
theorem exited_iff_telling (hconfig : Configured places argv config)
    (hshow : config.showConfig = false) (hnul : config.NulFree)
    (hreached : Reached machine config (.initial files) (.prepared header sidecar) world)
    (hrefused : machine.Unstartable world.files config.generator (config.command header)) :
    ∃ fault status before,
      Reached machine config (.initial files) (.recorded header sidecar) before ∧
      (Stage.generate machine header (.forOutput config.output) config.generator).runIn before
        = (.error fault, world) ∧
      (Stage.runCommandLine machine places argv).runIn (.initial files)
        = (.ok (.exited status), world.withComplaints fault.report) ∧
      ((∃ failure, fault = .generator failure ∧ failure.exitStatus = status ∧
          status = Machine.shellTells (machine.hasEntry world.files config.generator)) ↔
        machine.Telling world.files config.generator (config.command header)) ∧
      (¬ machine.Telling world.files config.generator (config.command header) →
        (∃ reason, fault = .onPath config.generator reason) ∧ status = 1 ∨
          fault = .generator (.notFound config.generator) ∧ status = 127 ∧
            machine.hasEntry world.files config.generator = true) := by
  have hclean := hnul.command (hreached.header_nulFree hnul)
  have hfind := Machine.find_of_unstartable hrefused
  have htelling := Machine.telling_iff hrefused
  obtain ⟨before, fs, hrecorded, hparent, hmade, hworld⟩ := hreached.of_prepared
  obtain rfl : world.files = fs := by
    rw [hworld]
    rfl
  have hgenerate := Stage.runIn_generate_of_refused hparent hmade hclean hfind
  rw [← hworld] at hgenerate
  have hrun := Stage.runIn_runCommandLine_of_stopped hconfig hshow hreached
    (.start hclean hfind)
  rw [runEnd_startFault] at hrun
  have hpermission := Machine.hasEntry_of_permission hrefused
  refine ⟨_, _, before, hrecorded, hgenerate, hrun, ?_, ?_⟩
  · rw [htelling]
    exact startFault_tells_iff config.generator hpermission
  · rw [htelling]
    exact startFault_of_not_telling config.generator hpermission

end

namespace PlainFile

/-- A machine without programs. -/
def machine : Machine where
  directory := .ofPlace []
  searchPath := []
  programs := fun _ => none

def places : Places where
  home := .ofText "/home"
  project := .ofText "/crate"

/-- A header, and a file that may be executed and is no program. -/
def files : FileSystem :=
  FileSystem.empty.layOutAll (.ofPlace [])
    [.file "/sdk/VimbaC.h" false [], .file "/bindgen" true "no program"]

def argv : List Text :=
  ["--include-dir=/sdk", "--library-dir=/lib", "--output=/sys.rs", "--sidecar=/libdir",
   "--bindgen=/bindgen"]

def configuration : Configuration where
  sdk := { includeDir := .ofText "/sdk", libraryDir := .given "/lib" }
  output := .ofText "/sys.rs"
  sidecar := .ofText "/libdir"
  generator := "/bindgen"
  checkLibraryDir := false
  showConfig := false

def recorded : FileSystem :=
  files.layOutAll (.ofPlace []) [.file "/libdir" false ("/lib" ++ [Text.newline])]

def header : Path := .ofText "/sdk/VimbaC.h"

def sidecar : WrittenFile where
  filename := "libdir"
  path := .ofText "/libdir"
  lineCount := 1
  byteCount := 5

theorem configured : Configured places argv configuration := by
  refine ⟨(Arguments.defaults places).setValue (.given "/sdk") .includeDir
    |>.setValue (.given "/lib") .libraryDir |>.setValue (.given "/sys.rs") .output
    |>.setValue (.given "/libdir") .sidecar |>.setValue (.given "/bindgen") .generator, ?_, ?_⟩
  · decide +kernel
  · decide +kernel

theorem prepared : ∃ world,
    Reached machine configuration (.initial files) (.prepared header sidecar) world ∧
      world.files = recorded := by
  have hheader : files.findHeader machine.directory configuration.sdk.includeDir libraryHeader
      = .ok header := by
    decide +kernel
  have hwrite : files.write machine.directory configuration.sidecar.text
      (linkRecord configuration.sdk.libraryDir.text) = .ok recorded := by
    decide +kernel
  have hread : recorded.describe machine.directory configuration.sidecar = .ok sidecar := by
    decide +kernel
  have hmade : recorded.ensureDirectory machine.directory configuration.output.parent
      = (recorded, .ok ()) := by
    decide +kernel
  have hlocated : Reached machine configuration (.initial files) (.located header) _ :=
    Reached.announced.located hheader
  have hrecorded := (hlocated.unchecked rfl).recorded (by decide +kernel) hwrite hread
  exact ⟨_, hrecorded.prepared (by decide +kernel) hmade, rfl⟩

theorem nulFree : configuration.NulFree := by
  constructor
  · exact Path.nulFree_ofText (by decide)
  · exact Path.nulFree_ofText (by decide)
  · exact Path.nulFree_ofText (by decide)
  · decide

/-- The only attempt to start the program is refused. -/
theorem refused : machine.Unstartable recorded configuration.generator
    (configuration.command header) := by
  intro path hpath
  have hpaths : machine.candidates configuration.generator = [configuration.generator] := by
    decide +kernel
  rw [hpaths, List.mem_singleton] at hpath
  subst hpath
  have hload : (machine.load recorded (configuration.command header)
      configuration.generator).isOk = false := by
    decide +kernel
  cases hattempt : machine.load recorded (configuration.command header)
      configuration.generator with
  | error reason => exact ⟨reason, rfl⟩
  | ok execution =>
      rw [hattempt] at hload
      cases hload

end PlainFile

open PlainFile in
/-- A file that may be executed and is no program ends the run with one. -/
theorem exited_iff_telling_plainFile : ∃ fault world before,
    (Stage.generate machine header (.forOutput configuration.output)
      configuration.generator).runIn before = (.error fault, world) ∧
    (Stage.runCommandLine machine places argv).runIn (.initial files)
      = (.ok (.exited 1), world.withComplaints fault.report) ∧
    machine.hasEntry world.files configuration.generator = true ∧
    ∀ failure, fault ≠ .generator failure := by
  obtain ⟨world, hreached, hfiles⟩ := prepared
  have hnot : ¬ machine.Telling world.files configuration.generator
      (configuration.command header) := by
    rw [hfiles]
    decide +kernel
  obtain ⟨fault, status, before, -, hgenerate, hrun, -, hother⟩ :=
    exited_iff_telling configured rfl nulFree hreached (hfiles ▸ refused)
  have hstatus : ((Stage.runCommandLine machine places argv).runIn (.initial files)).1
      = .ok (.exited 1) := by
    decide +kernel
  rw [hrun, Except.ok.injEq, RunEnd.exited.injEq] at hstatus
  subst hstatus
  refine ⟨fault, world, before, hgenerate, hrun, ?_, ?_⟩
  · rw [hfiles]
    decide +kernel
  · rintro failure rfl
    rcases hother hnot with ⟨⟨reason, hreason⟩, -⟩ | ⟨-, hfound, -⟩
    · cases hreason
    · cases hfound

end SdkBindings
