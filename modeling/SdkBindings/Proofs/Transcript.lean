import Mathlib.Data.Option.Basic
import SdkBindings.Proofs.Confinement
import SdkBindings.Proofs.Symbols

/-!
What a run writes to the standard output.  Each stage has a text of its own, which is
printed when the stage has passed.  Main statement: the output is those texts one after
the other until the first stage that has not passed, for every run of the pipeline.
-/

namespace SdkBindings

/-- The texts before the first one that is missing, one after the other. -/
def untilMissing : List (Option Text) → Text
  | some t :: rest => t ++ untilMissing rest
  | none :: _ | [] => []

@[simp] theorem untilMissing_nil : untilMissing [] = [] := rfl

@[simp] theorem untilMissing_none (rest : List (Option Text)) :
    untilMissing (none :: rest) = [] := rfl

@[simp] theorem untilMissing_some (t : Text) (rest : List (Option Text)) :
    untilMissing (some t :: rest) = t ++ untilMissing rest := rfl

/-- A text behind all the others is printed if none of them is missing. -/
theorem untilMissing_append (texts : List (Option Text)) (last : Option Text) :
    untilMissing (texts ++ [last]) = untilMissing texts ++
      if texts.all Option.isSome then last.getD [] else [] := by
  induction texts with
  | nil => cases last <;> simp
  | cons text texts ih =>
      cases text with
      | none => simp
      | some t => simp [ih]

namespace Configuration

section

variable (machine : Machine) (config : Configuration) (files : FileSystem)

/-- The header, if it is found. -/
def header? : Option Path :=
  (files.findHeader machine.directory config.sdk.includeDir libraryHeader).toOption

/-- The files with the record in them and its description, if it is written and read
back. -/
def recorded? : Option (FileSystem × WrittenFile) := do
  guard (config.sidecar.text.hasNul = false)
  let recorded ← (files.write machine.directory config.sidecar.text
    (linkRecord config.sdk.libraryDir.text)).toOption
  let sidecar ← (recorded.describe machine.directory config.sidecar).toOption
  return (recorded, sidecar)

/-- The files when the directory for the output is there. -/
def prepared? : Option FileSystem := do
  let (recorded, _) ← recorded? machine config files
  guard (config.output.parent.text.hasNul = false)
  match recorded.ensureDirectory machine.directory config.output.parent with
  | (prepared, .ok ()) => some prepared
  | (_, .error _) => none

/-- The files that the generator finds, and the program that it is. -/
def started? : Option (FileSystem × Execution) := do
  let header ← header? machine config files
  let prepared ← prepared? machine config files
  guard ((config.command header).any Text.hasNul = false)
  let execution ← (machine.find prepared config.generator (config.command header)).toOption
  return (prepared, execution)

/-- The result, if the generator ends well and its output is read back. -/
def result? : Option Production := do
  let header ← header? machine config files
  let (_, sidecar) ← recorded? machine config files
  let (prepared, execution) ← started? machine config files
  guard (execution.program.ending.status = 0)
  let bindings ←
    ((execution.effect machine.directory prepared).describe machine.directory
      config.output).toOption
  return {
    header, sidecar, bindings
    libraryDir := config.sdk.libraryDir.text
    sidecarPath := config.sidecar }

/-- What the check of the library prints, if it is passed or not asked for. -/
def libraryLine? : Option Text :=
  if config.checkLibraryDir then
    (files.checkLibraryDir machine.directory config.sdk.libraryDir).toOption.map fun _ =>
      printedLine ("  Library: " ++ config.sdk.libraryDir.text ++ " (checked)")
  else some []

/-- The texts of the stages in their order, each of them there if its stage passes. -/
def progress : List (Option Text) :=
  [some (printedLine ("Resolving: " ++ (config.sdk.includeDir.child libraryHeader).text)),
   (header? machine config files).map fun header => printedLine ("  Header: " ++ header.text),
   libraryLine? machine config files,
   (recorded? machine config files).map fun (_, sidecar) =>
     printedLine ("  Link dir: " ++ config.sdk.libraryDir.text ++ " -> " ++ sidecar.path.text),
   (prepared? machine config files).bind fun _ => (header? machine config files).map fun header =>
     printedLine ("  Running: " ++ shellCommand (config.command header)),
   (started? machine config files).map fun (_, execution) => execution.program.output,
   (result? machine config files).map fun result =>
     printedLine ("  Written: " ++ Decimal.ofInt result.bindings.lineCount ++ " lines to "
       ++ result.bindings.path.text)]

/-- Everything that a run prints: the texts of its stages and the lines of the summary. -/
def transcript : Text :=
  untilMissing (progress machine config files ++
    [(result? machine config files).map fun result =>
      (Summary.lines result).flatMap printedLine])

end

section

variable {machine : Machine} {config : Configuration} {files : FileSystem}

theorem toOption_eq_some_iff {ε α : Type} {outcome : Except ε α} {a : α} :
    outcome.toOption = some a ↔ outcome = .ok a := by
  cases outcome <;> simp [Except.toOption]

theorem header?_eq_some_iff {header : Path} :
    header? machine config files = some header ↔
      files.findHeader machine.directory config.sdk.includeDir libraryHeader = .ok header := by
  rw [header?, toOption_eq_some_iff]

theorem recorded?_eq_some_iff {recorded : FileSystem} {sidecar : WrittenFile} :
    recorded? machine config files = some (recorded, sidecar) ↔
      config.sidecar.text.hasNul = false ∧
        files.write machine.directory config.sidecar.text
          (linkRecord config.sdk.libraryDir.text) = .ok recorded ∧
        recorded.describe machine.directory config.sidecar = .ok sidecar := by
  simp only [recorded?, bind, Option.bind_eq_some_iff, pure, Option.some.injEq, Prod.mk.injEq,
    Option.guard_eq_some', toOption_eq_some_iff]
  constructor
  · rintro ⟨-, hnul, _, hwrite, _, hread, rfl, rfl⟩
    exact ⟨hnul, hwrite, hread⟩
  · rintro ⟨hnul, hwrite, hread⟩
    exact ⟨(), hnul, _, hwrite, _, hread, rfl, rfl⟩

theorem prepared?_eq_some_iff {prepared : FileSystem} :
    prepared? machine config files = some prepared ↔ ∃ recorded sidecar,
      recorded? machine config files = some (recorded, sidecar) ∧
        config.output.parent.text.hasNul = false ∧
        recorded.ensureDirectory machine.directory config.output.parent = (prepared, .ok ()) := by
  simp only [prepared?, bind, Option.bind_eq_some_iff, Prod.exists, Option.guard_eq_some']
  constructor
  · rintro ⟨recorded, sidecar, hrecorded, -, hnul, hmade⟩
    refine ⟨recorded, sidecar, hrecorded, hnul, ?_⟩
    split at hmade
    · next made hensured => exact Option.some.inj hmade ▸ hensured
    · simp at hmade
  · rintro ⟨recorded, sidecar, hrecorded, hnul, hmade⟩
    exact ⟨recorded, sidecar, hrecorded, (), hnul, by rw [hmade]⟩

theorem started?_eq_some_iff {prepared : FileSystem} {execution : Execution} :
    started? machine config files = some (prepared, execution) ↔ ∃ header,
      header? machine config files = some header ∧
        prepared? machine config files = some prepared ∧
        (config.command header).any Text.hasNul = false ∧
        machine.find prepared config.generator (config.command header) = .ok execution := by
  simp only [started?, bind, Option.bind_eq_some_iff, pure, Option.some.injEq, Prod.mk.injEq,
    Option.guard_eq_some', toOption_eq_some_iff]
  constructor
  · rintro ⟨header, hheader, _, hprepared, -, hnul, _, hfound, rfl, rfl⟩
    exact ⟨header, hheader, hprepared, hnul, hfound⟩
  · rintro ⟨header, hheader, hprepared, hnul, hfound⟩
    exact ⟨header, hheader, _, hprepared, (), hnul, _, hfound, rfl, rfl⟩

theorem result?_eq_some_iff {result : Production} :
    result? machine config files = some result ↔ ∃ recorded prepared execution,
      header? machine config files = some result.header ∧
        recorded? machine config files = some (recorded, result.sidecar) ∧
        started? machine config files = some (prepared, execution) ∧
        execution.program.ending.status = 0 ∧
        (execution.effect machine.directory prepared).describe machine.directory config.output
          = .ok result.bindings ∧
        result.libraryDir = config.sdk.libraryDir.text ∧ result.sidecarPath = config.sidecar := by
  simp only [result?, bind, Option.bind_eq_some_iff, pure, Option.some.injEq, Prod.exists,
    Option.guard_eq_some', toOption_eq_some_iff]
  constructor
  · rintro ⟨header, hheader, recorded, sidecar, hrecorded, prepared, execution, hstarted, -,
      hstatus, bindings, hread, rfl⟩
    exact ⟨recorded, prepared, execution, hheader, hrecorded, hstarted, hstatus, hread, rfl, rfl⟩
  · rintro ⟨recorded, prepared, execution, hheader, hrecorded, hstarted, hstatus, hread, hdir,
      hpath⟩
    refine ⟨_, hheader, recorded, _, hrecorded, prepared, execution, hstarted, (), hstatus, _,
      hread, ?_⟩
    rw [← hdir, ← hpath]

end

end Configuration

section

open SdkBindings.Configuration

variable {machine : Machine} {config : Configuration} {start world : World}

/-- What has passed at a milestone, and what the files are there. -/
def Milestone.Passed (machine : Machine) (config : Configuration) (files : FileSystem) :
    Milestone → FileSystem → Prop
  | announced, fs => fs = files
  | located header, fs | checked header, fs =>
    fs = files ∧ header? machine config files = some header
  | recorded header sidecar, fs =>
    header? machine config files = some header ∧
      recorded? machine config files = some (fs, sidecar)
  | prepared header sidecar, fs =>
    header? machine config files = some header ∧
      (∃ recorded, recorded? machine config files = some (recorded, sidecar)) ∧
      prepared? machine config files = some fs
  | generated header sidecar ending, fs =>
    header? machine config files = some header ∧
      (∃ recorded, recorded? machine config files = some (recorded, sidecar)) ∧
      ∃ prepared execution, started? machine config files = some (prepared, execution) ∧
        execution.program.ending = ending ∧ fs = execution.effect machine.directory prepared
  | finished result, _ => result? machine config files = some result

theorem Reached.passed {milestone : Milestone}
    (h : Reached machine config start milestone world) :
    milestone.Passed machine config start.files world.files := by
  induction h with
  | announced => exact rfl
  | located _ hheader ih =>
      rw [Milestone.Passed] at ih
      exact ⟨ih, header?_eq_some_iff.mpr (ih ▸ hheader)⟩
  | unchecked _ _ ih => exact ih
  | checked _ _ _ ih => exact ih
  | recorded _ hnul hwrite hread ih =>
      obtain ⟨hfiles, hheader⟩ := ih
      exact ⟨hheader, recorded?_eq_some_iff.mpr ⟨hnul, hfiles ▸ hwrite, hread⟩⟩
  | prepared _ hnul hmade ih =>
      obtain ⟨hheader, hrecorded⟩ := ih
      exact ⟨hheader, ⟨_, hrecorded⟩, prepared?_eq_some_iff.mpr ⟨_, _, hrecorded, hnul, hmade⟩⟩
  | generated _ hnul hfound ih =>
      obtain ⟨hheader, hrecorded, hprepared⟩ := ih
      exact ⟨hheader, hrecorded, _, _,
        started?_eq_some_iff.mpr ⟨_, hheader, hprepared, hnul, hfound⟩, rfl, rfl⟩
  | finished _ hstatus hread ih =>
      obtain ⟨hheader, ⟨recorded, hrecorded⟩, prepared, execution, hstarted, rfl, hfiles⟩ := ih
      exact result?_eq_some_iff.mpr ⟨recorded, prepared, execution, hheader, hrecorded, hstarted,
        hstatus, hfiles ▸ hread, rfl, rfl⟩

/-- The texts that are still to come after a milestone. -/
def Milestone.comingTexts (machine : Machine) (config : Configuration) (files : FileSystem)
    (milestone : Milestone) : List (Option Text) :=
  (progress machine config files).drop (7 - milestone.remaining)

/-- At a milestone, the texts of the stages until then have been printed. -/
theorem Reached.output_eq {milestone : Milestone}
    (h : Reached machine config start milestone world) :
    start.output ++ untilMissing (progress machine config start.files) =
      world.output ++ untilMissing (milestone.comingTexts machine config start.files) := by
  induction h with
  | announced => simp [progress, Milestone.comingTexts, World.output_withLine]
  | located hbefore hheader ih =>
      have hpassed := (hbefore.located hheader).passed
      rw [ih, World.output_withLine]
      simp [progress, Milestone.comingTexts, hpassed.2]
  | unchecked hbefore hcheck ih =>
      rw [ih]
      simp [progress, Milestone.comingTexts, libraryLine?, hcheck]
  | checked hbefore hcheck hlibrary ih =>
      rw [hbefore.passed.1] at hlibrary
      rw [ih, World.output_withLine]
      simp [progress, Milestone.comingTexts, libraryLine?, hcheck, hlibrary, Except.toOption]
  | recorded hbefore hnul hwrite hread ih =>
      have hpassed := (hbefore.recorded hnul hwrite hread).passed
      rw [ih, World.output_withLine]
      simp [progress, Milestone.comingTexts, hpassed.2]
  | prepared hbefore hnul hmade ih =>
      have hpassed := (hbefore.prepared hnul hmade).passed
      rw [ih, World.output_flushed, World.output_withLine]
      simp [progress, Milestone.comingTexts, hpassed.1, hpassed.2.2]
  | generated hbefore hnul hfound ih =>
      obtain ⟨hheader, -, hprepared⟩ := hbefore.passed
      have hstarted := started?_eq_some_iff.mpr ⟨_, hheader, hprepared, hnul, hfound⟩
      rw [ih, World.output_withLaunch hbefore.buffer_eq_nil]
      simp [progress, Milestone.comingTexts, hstarted]
  | finished hbefore hstatus hread ih =>
      have hpassed : result? machine config start.files = some _ :=
        (hbefore.finished hstatus hread).passed
      rw [ih, World.output_withLine]
      simp [progress, Milestone.comingTexts, hpassed]

/-- Where a run is stopped, the next text is missing. -/
theorem Stopped.head?_comingTexts {milestone : Milestone} {mid after : World} {fault : Fault}
    (h : Stopped machine config milestone mid fault after)
    (hreached : Reached machine config start milestone mid) :
    (milestone.comingTexts machine config start.files).head? = some none := by
  have hpassed := hreached.passed
  cases h with
  | header hfault =>
      have hnone : header? machine config start.files = none := by
        rw [← hpassed, header?, hfault]
        rfl
      simp [progress, Milestone.comingTexts, hnone]
  | library hcheck hfault =>
      have hnone : libraryLine? machine config start.files = none := by
        rw [libraryLine?, if_pos hcheck, ← hpassed.1, hfault]
        rfl
      simp [progress, Milestone.comingTexts, hnone]
  | recordNul hnul =>
      have hnone : recorded? machine config start.files = none := by simp [recorded?, hnul]
      simp [progress, Milestone.comingTexts, hnone]
  | record hnul hfault =>
      rw [hpassed.1] at hfault
      have hnone : recorded? machine config start.files = none := by
        simp [recorded?, hfault, Except.toOption]
      simp [progress, Milestone.comingTexts, hnone]
  | recordLost hnul hwrite hfault =>
      rw [hpassed.1] at hwrite
      have hnone : recorded? machine config start.files = none := by
        simp [recorded?, hwrite, hfault, Except.toOption]
      simp [progress, Milestone.comingTexts, hnone]
  | directoryNul hnul =>
      have hnone : prepared? machine config start.files = none := by
        simp [prepared?, hpassed.2, hnul]
      simp [progress, Milestone.comingTexts, hnone]
  | directory hnul hfault =>
      have hnone : prepared? machine config start.files = none := by
        simp [prepared?, hpassed.2, hfault]
      simp [progress, Milestone.comingTexts, hnone]
  | commandNul hnul =>
      have hnone : started? machine config start.files = none := by
        simp [started?, hpassed.1, hpassed.2.2, hnul, -List.any_eq_false]
      simp [progress, Milestone.comingTexts, hnone]
  | start hnul hfault =>
      have hnone : started? machine config start.files = none := by
        simp [started?, hpassed.1, hpassed.2.2, hfault, Except.toOption]
      simp [progress, Milestone.comingTexts, hnone]
  | unsuccessful hstatus =>
      obtain ⟨hheader, ⟨_, hrecorded⟩, _, _, hstarted, rfl, -⟩ := hpassed
      have hnone : result? machine config start.files = none := by
        simp [result?, hheader, hrecorded, hstarted, hstatus]
      simp [progress, Milestone.comingTexts, hnone]
  | outputLost hstatus hfault =>
      obtain ⟨hheader, ⟨_, hrecorded⟩, _, _, hstarted, rfl, hfiles⟩ := hpassed
      rw [hfiles] at hfault
      have hnone : result? machine config start.files = none := by
        simp [result?, hheader, hrecorded, hstarted, hfault, Except.toOption]
      simp [progress, Milestone.comingTexts, hnone]

/-- A run that comes to its end has all its texts. -/
theorem Reached.all_isSome_progress {result : Production}
    (h : Reached machine config start (.finished result) world) :
    (progress machine config start.files).all Option.isSome = true := by
  obtain ⟨recorded, prepared, execution, hheader, hrecorded, hstarted, -⟩ :=
    result?_eq_some_iff.mp h.passed
  obtain ⟨-, -, hprepared, -⟩ := started?_eq_some_iff.mp hstarted
  have hlibrary : (libraryLine? machine config start.files).isSome = true := by
    obtain ⟨_, _, _, hsucceeds, -⟩ := h.succeeds
    rw [libraryLine?]
    split
    · next hcheck =>
        obtain ⟨libraryDir, hdir⟩ := hsucceeds.library hcheck
        simp [hdir, Except.toOption]
    · rfl
  have hresult : result? machine config start.files = some result := h.passed
  simp [progress, hheader, hrecorded, hprepared, hstarted, hresult, hlibrary]

theorem Stopped.all_isSome_progress {milestone : Milestone} {mid after : World} {fault : Fault}
    (h : Stopped machine config milestone mid fault after)
    (hreached : Reached machine config start milestone mid) :
    (progress machine config start.files).all Option.isSome = false := by
  have hmissing := List.mem_of_head? (h.head?_comingTexts hreached)
  rw [List.all_eq_false]
  exact ⟨none, List.mem_of_mem_drop hmissing, by simp⟩

/-- A fault prints nothing to the standard output. -/
theorem Stopped.output_eq {milestone : Milestone} {mid after : World} {fault : Fault}
    (h : Stopped machine config milestone mid fault after) : after.output = mid.output := by
  cases h <;> rfl

/-- The pipeline prints the texts of its stages until one has not passed. -/
theorem output_of_produce (machine : Machine) (config : Configuration) (start : World) :
    ((Stage.produce machine config).runIn start).2.output =
      start.output ++ untilMissing (progress machine config start.files) := by
  rcases Stage.finished_or_stopped (@Reached.announced machine config start) with
    ⟨result, after, hfinished⟩ | ⟨last, mid, fault, after, hreached, hstopped⟩
  · rw [Stage.runIn_produce_eq_ok_iff.mpr hfinished, hfinished.output_eq]
    simp [progress, Milestone.comingTexts]
  · rw [Stage.runIn_produce_eq_error_iff.mpr ⟨last, mid, hreached, hstopped⟩, hreached.output_eq,
      hstopped.output_eq]
    have hhead := hstopped.head?_comingTexts hreached
    obtain ⟨rest, hrest⟩ := List.head?_eq_some_iff.mp hhead
    simp [hrest]

end

/-- Lines of text are shown line by line. -/
theorem shown_flatMap_lines (lines : List Text) :
    shown (lines.flatMap fun line => line ++ [Text.newline]) = lines.flatMap printedLine := by
  induction lines with
  | nil => rfl
  | cons line lines ih =>
      rw [List.flatMap_cons, List.flatMap_cons, List.append_assoc, List.singleton_append,
        shown_append_ascii (by decide), ih, printedLine, List.append_assoc]
      rfl

section

variable {machine : Machine} {config : Configuration} {files : FileSystem} {after : World}

theorem output_of_runIn {outcome : Except Fault Production}
    (hrun : (Stage.produce machine config).runIn (.initial files) = (outcome, after)) :
    after.output = untilMissing (config.progress machine files) := by
  have houtput := output_of_produce machine config (.initial files)
  rw [hrun] at houtput
  exact houtput

/-- A run with a result has a transcript that ends with the summary. -/
theorem transcript_of_ok {result : Production}
    (hrun : (Stage.produce machine config).runIn (.initial files) = (.ok result, after)) :
    config.transcript machine files =
      after.output ++ (Summary.lines result).flatMap printedLine := by
  have hfinished := Stage.runIn_produce_eq_ok_iff.mp hrun
  have hall : (config.progress machine files).all Option.isSome = true :=
    hfinished.all_isSome_progress
  have hresult : config.result? machine files = some result := hfinished.passed
  rw [Configuration.transcript, untilMissing_append, if_pos hall, hresult, output_of_runIn hrun]
  rfl

theorem transcript_of_error {fault : Fault}
    (hrun : (Stage.produce machine config).runIn (.initial files) = (.error fault, after)) :
    config.transcript machine files = after.output := by
  obtain ⟨milestone, mid, hreached, hstopped⟩ := Stage.runIn_produce_eq_error_iff.mp hrun
  have hall := hstopped.all_isSome_progress hreached
  rw [World.initial] at hall
  rw [Configuration.transcript, untilMissing_append, hall, output_of_runIn hrun]
  simp

end

/-- The standard output of a run that is not a preview. -/
theorem output_of_runCommandLine {machine : Machine} {places : Places} {argv : List Text}
    {config : Configuration} (hconfig : Configured places argv config)
    (hshow : config.showConfig = false) (files : FileSystem) :
    ((Stage.runCommandLine machine places argv).runIn (.initial files)).2.output =
      config.transcript machine files := by
  rw [Stage.runIn_runCommandLine_of_configured hconfig,
    Stage.runIn_runConfiguration_of_produce hshow]
  rcases hrun : (Stage.produce machine config).runIn (.initial files) with ⟨fault | result, after⟩
  · rw [transcript_of_error hrun]
    rfl
  · rw [transcript_of_ok hrun, ← shown_flatMap_lines]
    exact World.output_withPrinted after _

namespace Sample

/-- The machine on which the program fails with a byte that is no text. -/
def loudMachine : Machine where
  directory := machine.directory
  searchPath := machine.searchPath
  programs := fun content =>
    (machine.programs content).map fun program =>
      { program with output := [255, Text.newline], ending := .exited 3 }

theorem configured_argv : Configured places argv configuration := by
  refine ⟨(Arguments.defaults places).setValue (.given "/sdk") .includeDir
    |>.setValue (.given "/lib") .libraryDir |>.setValue (.given "out/sys.rs") .output
    |>.setValue (.given "sdk/../libdir") .sidecar |>.setValue (.given "./bindgen") .generator,
    ?_, ?_⟩
  · decide +kernel
  · decide +kernel

end Sample

open Sample in
theorem output_of_runCommandLine_loud :
    Configured places argv configuration ∧ configuration.showConfig = false ∧
      ((Stage.runCommandLine loudMachine places argv).runIn (.initial files)).2.output =
        printedLine "Resolving: /sdk/VimbaC.h" ++ printedLine "  Header: /sdk/VimbaC.h" ++
          printedLine "  Link dir: /lib -> /record" ++
          printedLine ("  Running: " ++
            shellCommand (configuration.command (.ofText "/sdk/VimbaC.h"))) ++
          [255, Text.newline] := by
  refine ⟨configured_argv, rfl, ?_⟩
  rw [output_of_runCommandLine configured_argv rfl]
  decide +kernel

end SdkBindings
