import SdkBindings.Proofs.Checks

/-!
Runs of the pipeline that give a result.  `Succeeds` says what such a run has found and
done, in terms of the files alone.  Main statements: a run gives a result exactly if it
succeeds, and what it writes to the two streams depends on the configuration, the result
and the program that was found, and on nothing else.
-/

namespace SdkBindings

/-- All stages pass: with the record written the files are `recorded`, with the directory
for the bindings `prepared`, and after the program `final`. -/
structure Succeeds (machine : Machine) (config : Configuration) (files : FileSystem)
    (result : Production) (recorded prepared final : FileSystem) (execution : Execution) :
    Prop where
  header : files.findHeader machine.directory config.sdk.includeDir libraryHeader
    = .ok result.header
  library : config.checkLibraryDir = true →
    ∃ libraryDir, files.checkLibraryDir machine.directory config.sdk.libraryDir = .ok libraryDir
  sidecarClean : config.sidecar.text.hasNul = false
  written : files.write machine.directory config.sidecar.text
    (linkRecord config.sdk.libraryDir.text) = .ok recorded
  sidecar : recorded.describe machine.directory config.sidecar = .ok result.sidecar
  parentClean : config.output.parent.text.hasNul = false
  made : recorded.ensureDirectory machine.directory config.output.parent = (prepared, .ok ())
  commandClean : (config.command result.header).any Text.hasNul = false
  found : machine.find prepared config.generator (config.command result.header) = .ok execution
  ended : execution.program.ending.status = 0
  effect : final = execution.effect machine.directory prepared
  bindings : final.describe machine.directory config.output = .ok result.bindings
  reported : result.libraryDir = config.sdk.libraryDir.text ∧ result.sidecarPath = config.sidecar

/-- A line as it is printed. -/
def printedLine (t : Text) : Text :=
  shown t ++ [Text.newline]

/-- Everything that a run with a result writes to the standard output. -/
def Production.transcript (result : Production) (config : Configuration) (printed : Text) : Text :=
  printedLine ("Resolving: " ++ (config.sdk.includeDir.child libraryHeader).text) ++
    printedLine ("  Header: " ++ result.header.text) ++
    (if config.checkLibraryDir then
      printedLine ("  Library: " ++ config.sdk.libraryDir.text ++ " (checked)") else []) ++
    printedLine
      ("  Link dir: " ++ config.sdk.libraryDir.text ++ " -> " ++ result.sidecar.path.text) ++
    printedLine ("  Running: " ++ shellCommand (config.command result.header)) ++
    printed ++
    printedLine
      ("  Written: " ++ Decimal.ofInt result.bindings.lineCount ++ " lines to "
        ++ result.bindings.path.text)

section

variable {machine : Machine} {config : Configuration} {start world : World} {result : Production}

theorem World.output_withLine (world : World) (t : Text) :
    (world.withLine t).output = world.output ++ printedLine t :=
  World.output_withPrinted world _

/-- The output until the checks have passed. -/
theorem Reached.output_checked {header : Path}
    (h : Reached machine config start (.checked header) world) :
    world.output = start.output ++
      (printedLine ("Resolving: " ++ (config.sdk.includeDir.child libraryHeader).text) ++
        printedLine ("  Header: " ++ header.text) ++
        (if config.checkLibraryDir then
          printedLine ("  Library: " ++ config.sdk.libraryDir.text ++ " (checked)") else [])) ∧
      world.errors = start.errors := by
  have hlocated : ∀ {before}, Reached machine config start (.located header) before →
      before.output = start.output ++
        (printedLine ("Resolving: " ++ (config.sdk.includeDir.child libraryHeader).text) ++
          printedLine ("  Header: " ++ header.text)) ∧ before.errors = start.errors := by
    intro before hbefore
    cases hbefore with
    | located hannounced _ =>
        cases hannounced
        refine ⟨?_, rfl⟩
        rw [World.output_withLine, World.output_withLine, List.append_assoc]
  cases h with
  | unchecked hbefore hcheck =>
      obtain ⟨houtput, herrors⟩ := hlocated hbefore
      rw [houtput, if_neg (by simp [hcheck]), List.append_nil]
      exact ⟨rfl, herrors⟩
  | checked hbefore hcheck _ =>
      obtain ⟨houtput, herrors⟩ := hlocated hbefore
      rw [World.output_withLine, houtput, if_pos hcheck, List.append_assoc]
      exact ⟨rfl, herrors⟩

/-- A run with a result has succeeded, and has said so. -/
theorem Reached.succeeds (h : Reached machine config start (.finished result) world) :
    ∃ recorded prepared execution,
      Succeeds machine config start.files result recorded prepared world.files execution ∧
      world.output = start.output ++ result.transcript config execution.program.output ∧
      world.errors = start.errors ++ execution.program.complaint machine.directory ∧
      world.launches = start.launches ++ [⟨config.command result.header, prepared⟩] := by
  cases h with
  | @finished _ header sidecar ending bindings hgenerated hstatus hbindings =>
    cases hgenerated with
    | @generated _ _ _ execution hprepared hclean hfound =>
      cases hprepared with
      | @prepared before _ _ prepared hrecorded hparent hmade =>
        cases hrecorded with
        | @recorded _ _ recorded _ hchecked hsidecar hwrite hread =>
          obtain ⟨hfiles, hlaunches⟩ := hchecked.effects
          obtain ⟨hheader, hlibrary⟩ := (checksPass_iff_reached start).mpr ⟨_, hchecked⟩
          obtain ⟨houtput, herrors⟩ := hchecked.output_checked
          rw [hfiles] at hwrite
          refine ⟨recorded, prepared, execution, ?_, ?_, ?_, ?_⟩
          · exact {
              header := hheader
              library := hlibrary
              sidecarClean := hsidecar
              written := hwrite
              sidecar := hread
              parentClean := hparent
              made := hmade
              commandClean := hclean
              found := hfound
              ended := hstatus
              effect := rfl
              bindings := hbindings
              reported := ⟨rfl, rfl⟩ }
          · rw [World.output_withLine, World.output_withLaunch]
            · simp only [World.output_flushed, World.output_withLine, World.output_withFiles,
                houtput, Production.transcript, List.append_assoc]
            · rfl
          · rw [← herrors]
            rfl
          · rw [← hlaunches]
            rfl

/-- What a run with a result has done, stage by stage. -/
theorem Reached.stages (h : Reached machine config start (.finished result) world) :
    ∃ recorded prepared execution,
      start.files.findHeader machine.directory config.sdk.includeDir libraryHeader
        = .ok result.header ∧
      start.files.write machine.directory config.sidecar.text
        (linkRecord config.sdk.libraryDir.text) = .ok recorded ∧
      recorded.describe machine.directory config.sidecar = .ok result.sidecar ∧
      recorded.ensureDirectory machine.directory config.output.parent = (prepared, .ok ()) ∧
      machine.find prepared config.generator (config.command result.header) = .ok execution ∧
      world.files = execution.effect machine.directory prepared ∧
      world.launches = start.launches ++ [⟨config.command result.header, prepared⟩] ∧
      world.files.describe machine.directory config.output = .ok result.bindings := by
  obtain ⟨recorded, prepared, execution, hsucceeds, -, -, hlaunches⟩ := h.succeeds
  exact ⟨recorded, prepared, execution, hsucceeds.header, hsucceeds.written, hsucceeds.sidecar,
    hsucceeds.made, hsucceeds.found, hsucceeds.effect, hlaunches, hsucceeds.bindings⟩

/-- The files at the start and the result determine the rest. -/
theorem Succeeds.unique {files recorded recorded' prepared prepared' final final' : FileSystem}
    {execution execution' : Execution}
    (h : Succeeds machine config files result recorded prepared final execution)
    (h' : Succeeds machine config files result recorded' prepared' final' execution') :
    recorded = recorded' ∧ prepared = prepared' ∧ execution = execution' ∧ final = final' := by
  obtain rfl := Except.ok.inj (h.written.symm.trans h'.written)
  obtain ⟨rfl, -⟩ := Prod.mk.inj (h.made.symm.trans h'.made)
  obtain rfl := Except.ok.inj (h.found.symm.trans h'.found)
  exact ⟨rfl, rfl, rfl, h.effect.trans h'.effect.symm⟩

/-- A run that succeeds has the result, and says so. -/
theorem Succeeds.reached {recorded prepared final : FileSystem} {execution : Execution}
    (h : Succeeds machine config start.files result recorded prepared final execution) :
    ∃ world, Reached machine config start (.finished result) world ∧ world.files = final ∧
      world.output = start.output ++ result.transcript config execution.program.output ∧
      world.errors = start.errors ++ execution.program.complaint machine.directory ∧
      world.launches = start.launches ++ [⟨config.command result.header, prepared⟩] := by
  have hfinished : ∃ world, Reached machine config start (.finished result) world := by
    obtain ⟨mid, hmid⟩ := (checksPass_iff_reached start).mp ⟨h.header, h.library⟩
    obtain ⟨hfiles, -⟩ := hmid.effects
    have hrecorded := hmid.recorded h.sidecarClean (hfiles ▸ h.written) h.sidecar
    have hgenerated := (hrecorded.prepared h.parentClean h.made).generated h.commandClean h.found
    have hlast := hgenerated.finished h.ended (h.effect ▸ h.bindings)
    obtain ⟨hdir, hpath⟩ := h.reported
    rw [← hdir, ← hpath] at hlast
    exact ⟨_, hlast⟩
  obtain ⟨world, hworld⟩ := hfinished
  obtain ⟨recorded', prepared', execution', hagain, houtput, herrors, hlaunches⟩ := hworld.succeeds
  obtain ⟨-, rfl, rfl, hfinal⟩ := h.unique hagain
  exact ⟨world, hworld, hfinal.symm, houtput, herrors, hlaunches⟩

end

end SdkBindings
