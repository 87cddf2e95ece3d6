import SdkBindings.Proofs.ExitStatus

/-!
What a run does to the files and which program it starts.  Main statements: at each
milestone the files are those at the start after the stages until then, the end of a run
is one of four such states, and of a whole run only the pipeline has effects.
-/

namespace SdkBindings

section

variable {machine : Machine} {config : Configuration} {start world : World}

/-- What has been done to the files, and which program has been started, at a milestone. -/
def Milestone.Effects (machine : Machine) (config : Configuration) (start world : World) :
    Milestone → Prop
  | announced | located _ | checked _ =>
    world.files = start.files ∧ world.launches = start.launches
  | recorded _ sidecar =>
    start.files.write machine.directory config.sidecar.text
      (linkRecord config.sdk.libraryDir.text) = .ok world.files ∧
    world.files.describe machine.directory config.sidecar = .ok sidecar ∧
    world.launches = start.launches
  | prepared _ sidecar => ∃ recorded,
    start.files.write machine.directory config.sidecar.text
      (linkRecord config.sdk.libraryDir.text) = .ok recorded ∧
    recorded.describe machine.directory config.sidecar = .ok sidecar ∧
    recorded.ensureDirectory machine.directory config.output.parent = (world.files, .ok ()) ∧
    world.launches = start.launches
  | generated header sidecar _ | finished { header, sidecar, .. } =>
    ∃ recorded prepared execution,
      start.files.write machine.directory config.sidecar.text
        (linkRecord config.sdk.libraryDir.text) = .ok recorded ∧
      recorded.describe machine.directory config.sidecar = .ok sidecar ∧
      recorded.ensureDirectory machine.directory config.output.parent = (prepared, .ok ()) ∧
      machine.find prepared config.generator (config.command header) = .ok execution ∧
      world.files = execution.effect machine.directory prepared ∧
      world.launches = start.launches ++ [⟨config.command header, prepared⟩]

/-- One stage has the effects of that stage, after those of the stages before it. -/
theorem Reached.effects {milestone : Milestone}
    (h : Reached machine config start milestone world) :
    milestone.Effects machine config start world := by
  induction h with
  | announced => exact ⟨rfl, rfl⟩
  | located _ _ ih => exact ih
  | unchecked _ _ ih => exact ih
  | checked _ _ _ ih => exact ih
  | recorded _ _ hwrite hread ih =>
      obtain ⟨hfiles, hlaunches⟩ := ih
      rw [hfiles] at hwrite
      exact ⟨hwrite, hread, hlaunches⟩
  | @prepared before _ _ _ _ _ hmade ih =>
      obtain ⟨hwrite, hread, hlaunches⟩ := ih
      exact ⟨before.files, hwrite, hread, hmade, hlaunches⟩
  | @generated before _ _ execution _ _ hfound ih =>
      obtain ⟨recorded, hwrite, hread, hmade, hlaunches⟩ := ih
      refine ⟨recorded, before.files, execution, hwrite, hread, hmade, hfound, rfl, ?_⟩
      rw [← hlaunches]
      rfl
  | finished _ _ _ ih => exact ih

/-- The header at a milestone is the one that was found at the start. -/
theorem Reached.findHeader {milestone : Milestone}
    (h : Reached machine config start milestone world) :
    match milestone with
    | .announced => True
    | .located header | .checked header | .recorded header _ | .prepared header _
    | .generated header _ _ | .finished { header, .. } =>
      start.files.findHeader machine.directory config.sdk.includeDir libraryHeader
        = .ok header := by
  induction h with
  | announced => trivial
  | located hbefore hheader =>
      cases hbefore
      exact hheader
  | unchecked _ _ ih | checked _ _ _ ih | recorded _ _ _ _ ih | prepared _ _ _ ih
  | generated _ _ _ ih | finished _ _ _ ih => exact ih

/-- What a run of the pipeline has done in the end, wherever it was stopped.  The
directories may be some of those that are needed. -/
inductive Touched (machine : Machine) (config : Configuration) (start after : World) :
    Prop where
  | nothing :
      after.files = start.files →
      after.launches = start.launches →
      Touched machine config start after
  | recorded :
      start.files.write machine.directory config.sidecar.text
        (linkRecord config.sdk.libraryDir.text) = .ok after.files →
      after.launches = start.launches →
      Touched machine config start after
  | prepared {recorded} :
      start.files.write machine.directory config.sidecar.text
        (linkRecord config.sdk.libraryDir.text) = .ok recorded →
      after.files = (recorded.ensureDirectory machine.directory config.output.parent).1 →
      after.launches = start.launches →
      Touched machine config start after
  | generated {header recorded prepared execution} :
      start.files.write machine.directory config.sidecar.text
        (linkRecord config.sdk.libraryDir.text) = .ok recorded →
      recorded.ensureDirectory machine.directory config.output.parent = (prepared, .ok ()) →
      machine.find prepared config.generator (config.command header) = .ok execution →
      after.files = execution.effect machine.directory prepared →
      after.launches = start.launches ++ [⟨config.command header, prepared⟩] →
      Touched machine config start after

/-- Only the files and the programs that were started count. -/
theorem Touched.congr {after : World} (h : Touched machine config start after)
    (hfiles : world.files = after.files) (hlaunches : world.launches = after.launches) :
    Touched machine config start world := by
  cases h with
  | nothing hsame hnone => exact .nothing (hfiles.trans hsame) (hlaunches.trans hnone)
  | recorded hwrite hnone => exact .recorded (hfiles ▸ hwrite) (hlaunches.trans hnone)
  | prepared hwrite hmade hnone =>
      exact .prepared hwrite (hfiles.trans hmade) (hlaunches.trans hnone)
  | generated hwrite hmade hfind heffect hlaunch =>
      exact .generated hwrite hmade hfind (hfiles.trans heffect) (hlaunches.trans hlaunch)

theorem Reached.touched {milestone : Milestone}
    (h : Reached machine config start milestone world) : Touched machine config start world := by
  have heffects := h.effects
  cases milestone with
  | announced | located | checked => exact .nothing heffects.1 heffects.2
  | recorded => exact .recorded heffects.1 heffects.2.2
  | prepared =>
      obtain ⟨recorded, hwrite, -, hmade, hlaunches⟩ := heffects
      exact .prepared hwrite (by rw [hmade]) hlaunches
  | generated | finished =>
      obtain ⟨recorded, prepared, execution, hwrite, -, hmade, hfound, hfiles, hlaunches⟩ :=
        heffects
      exact .generated hwrite hmade hfound hfiles hlaunches

theorem touched_of_stopped {milestone : Milestone} {mid : World} {fault : Fault}
    (hreached : Reached machine config start milestone mid)
    (hstopped : Stopped machine config milestone mid fault world) :
    Touched machine config start world := by
  have heffects := hreached.effects
  cases hstopped with
  | header | library | recordNul | record | directoryNul | commandNul | start | unsuccessful
  | outputLost => exact hreached.touched
  | recordLost _ hwrite _ =>
      obtain ⟨hfiles, hlaunches⟩ := heffects
      rw [hfiles] at hwrite
      exact .recorded hwrite hlaunches
  | directory _ hmade =>
      obtain ⟨hwrite, -, hlaunches⟩ := heffects
      exact .prepared hwrite (by rw [hmade]; rfl) hlaunches

/-- A run of the pipeline has done no more than that. -/
theorem touched_of_produce (machine : Machine) (config : Configuration) (start : World) :
    Touched machine config start ((Stage.produce machine config).runIn start).2 := by
  rcases Stage.finished_or_stopped (@Reached.announced machine config start) with
    ⟨result, after, hfinished⟩ | ⟨last, mid, fault, after, hreached, hstopped⟩
  · rw [Stage.runIn_produce_eq_ok_iff.mpr hfinished]
    exact hfinished.touched
  · rw [Stage.runIn_produce_eq_error_iff.mpr ⟨last, mid, hreached, hstopped⟩]
    exact touched_of_stopped hreached hstopped

end

/-- The reports and the summary leave the files as the pipeline has left them. -/
theorem files_of_produce {machine : Machine} {places : Places} {argv : List Text}
    {config : Configuration} (hconfig : Configured places argv config)
    (hshow : config.showConfig = false) (start : World) :
    ((Stage.runCommandLine machine places argv).runIn start).2.files =
        ((Stage.produce machine config).runIn start).2.files ∧
      ((Stage.runCommandLine machine places argv).runIn start).2.launches =
        ((Stage.produce machine config).runIn start).2.launches := by
  rw [Stage.runIn_runCommandLine_of_configured hconfig,
    Stage.runIn_runConfiguration_of_produce hshow]
  rcases (Stage.produce machine config).runIn start with ⟨fault | result, after⟩
  · exact ⟨rfl, rfl⟩
  · exact ⟨rfl, rfl⟩

/-- A preview has no effects, whatever comes of it. -/
theorem files_of_preview {machine : Machine} {places : Places} {argv : List Text}
    {config : Configuration} (hconfig : Configured places argv config)
    (hshow : config.showConfig = true) (start : World) :
    ((Stage.runCommandLine machine places argv).runIn start).2.files = start.files ∧
      ((Stage.runCommandLine machine places argv).runIn start).2.launches = start.launches := by
  rw [Stage.runIn_runCommandLine_of_configured hconfig,
    Stage.runIn_runConfiguration_of_preview hshow]
  rcases Stage.checksPass_or_checksFail machine config start.files with
    ⟨header, hpass⟩ | ⟨fault, hfail⟩
  · rw [Stage.runIn_preview_of_pass hpass]
    exact ⟨rfl, rfl⟩
  · rw [Stage.runIn_preview_of_fail hfail]
    exact ⟨rfl, rfl⟩

/-- A command line that makes no configuration has no effects. -/
theorem files_of_unconfigured {machine : Machine} {places : Places} {argv : List Text}
    (hnone : ¬ ∃ config, Configured places argv config) (files : FileSystem) :
    ((Stage.runCommandLine machine places argv).runIn (.initial files)).2.files = files ∧
      ((Stage.runCommandLine machine places argv).runIn (.initial files)).2.launches = [] := by
  cases hparse : CommandLine.parse (.defaults places) argv with
  | error stop =>
      cases stop with
      | help =>
          rw [Stage.runIn_runCommandLine_of_help hparse]
          exact ⟨rfl, rfl⟩
      | misuse misuse =>
          rw [Stage.runIn_runCommandLine_of_misuse hparse]
          exact ⟨rfl, rfl⟩
  | ok arguments =>
      cases hconfig : Configuration.ofArguments arguments with
      | error fault =>
          rw [Stage.runIn_runCommandLine_of_arguments hparse hconfig]
          exact ⟨rfl, rfl⟩
      | ok config => exact absurd ⟨config, arguments, hparse, hconfig⟩ hnone

end SdkBindings
