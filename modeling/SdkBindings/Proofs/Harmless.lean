import SdkBindings.Proofs.Checks

/-!
Runs that leave everything as it was.  `Harmless` lists the ways in which a run ends
before anything is written.  Main statement: such a run changes no file and starts no
program, and every other run has passed all checks and has written the record.
-/

namespace SdkBindings

/-- The ways in which a run ends before anything is written. -/
inductive Harmless (machine : Machine) (places : Places) (argv : List Text)
    (files : FileSystem) : Prop where
  /-- The command line asks for help, or cannot be read. -/
  | stopped {stop} :
      CommandLine.parse (.defaults places) argv = .error stop →
      Harmless machine places argv files
  /-- Only a preview is asked for, whatever comes of it. -/
  | previewed {arguments} :
      CommandLine.parse (.defaults places) argv = .ok arguments →
      arguments.showConfig = true →
      Harmless machine places argv files
  /-- A configuration error ends the run, wherever that is. -/
  | refused {error world} :
      Faulted machine places argv files (.config error) world →
      Harmless machine places argv files
  /-- The values of the options make no configuration. -/
  | unconfigured {arguments fault} :
      CommandLine.parse (.defaults places) argv = .ok arguments →
      Configuration.ofArguments arguments = .error fault →
      Harmless machine places argv files
  /-- A check of the installed library fails, for whatever reason. -/
  | unchecked {config milestone mid fault world} :
      Configured places argv config →
      config.showConfig = false →
      Reached machine config (World.initial files) milestone mid →
      milestone.BeforeRecord →
      Stopped machine config milestone mid fault world →
      Harmless machine places argv files
  /-- The record cannot be written. -/
  | unrecorded {config header mid} :
      Configured places argv config →
      config.showConfig = false →
      Reached machine config (World.initial files) (.checked header) mid →
      (config.sidecar.text.hasNul = true ∨
        ∃ fault, mid.files.write machine.directory config.sidecar.text
          (linkRecord config.sdk.libraryDir.text) = .error fault) →
      Harmless machine places argv files

section

variable {machine : Machine} {places : Places} {argv : List Text} {files : FileSystem}
  {config : Configuration} {milestone : Milestone} {mid after : World} {fault : Fault}

/-- A run of the pipeline that fails in the checks has no effects. -/
theorem files_of_unchecked (hconfig : Configured places argv config)
    (hshow : config.showConfig = false)
    (hreached : Reached machine config (World.initial files) milestone mid)
    (hbefore : milestone.BeforeRecord)
    (hstopped : Stopped machine config milestone mid fault after) :
    ((Stage.runCommandLine machine places argv).runIn (.initial files)).2.files = files ∧
      ((Stage.runCommandLine machine places argv).runIn (.initial files)).2.launches = [] := by
  obtain rfl := hstopped.eq_of_beforeRecord hbefore
  rw [Stage.runIn_runCommandLine_of_stopped hconfig hshow hreached hstopped]
  exact hreached.files_of_beforeRecord hbefore

/-- A run that cannot write the record has no effects. -/
theorem files_of_unrecorded {header : Path} (hconfig : Configured places argv config)
    (hshow : config.showConfig = false)
    (hreached : Reached machine config (World.initial files) (.checked header) mid)
    (hrecord : config.sidecar.text.hasNul = true ∨
      ∃ fault, mid.files.write machine.directory config.sidecar.text
        (linkRecord config.sdk.libraryDir.text) = .error fault) :
    ((Stage.runCommandLine machine places argv).runIn (.initial files)).2.files = files ∧
      ((Stage.runCommandLine machine places argv).runIn (.initial files)).2.launches = [] := by
  have hstopped : ∃ fault, Stopped machine config (.checked header) mid fault mid := by
    cases hnul : config.sidecar.text.hasNul with
    | true => exact ⟨_, .recordNul hnul⟩
    | false =>
        obtain ⟨fault, hwrite⟩ := hrecord.resolve_left (by simp [hnul])
        exact ⟨_, .record hnul hwrite⟩
  obtain ⟨fault, hstopped⟩ := hstopped
  rw [Stage.runIn_runCommandLine_of_stopped hconfig hshow hreached hstopped]
  exact hreached.effects

theorem files_of_harmless (h : Harmless machine places argv files) :
    ((Stage.runCommandLine machine places argv).runIn (.initial files)).2.files = files ∧
      ((Stage.runCommandLine machine places argv).runIn (.initial files)).2.launches = [] := by
  have hunconfigured : ∀ {arguments fault},
      CommandLine.parse (.defaults places) argv = .ok arguments →
      Configuration.ofArguments arguments = .error fault →
      ¬ ∃ config, Configured places argv config := by
    rintro arguments fault hparse hfault ⟨config, other, hother, hconfig⟩
    obtain rfl := Except.ok.inj (hparse.symm.trans hother)
    rw [hfault] at hconfig
    simp at hconfig
  cases h with
  | @stopped stop hparse =>
      refine files_of_unconfigured ?_ files
      rintro ⟨config, arguments, hother, -⟩
      rw [hparse] at hother
      simp at hother
  | @previewed arguments hparse hshow =>
      cases hconfig : Configuration.ofArguments arguments with
      | error fault => exact files_of_unconfigured (hunconfigured hparse hconfig) files
      | ok config =>
          obtain ⟨-, -, -, -, -, -, hsame⟩ := Configuration.ofArguments_ok hconfig
          exact files_of_preview ⟨arguments, hparse, hconfig⟩ (hsame.symm.trans hshow) _
  | refused hfaulted =>
      cases hfaulted with
      | arguments hparse hconfig => exact files_of_unconfigured (hunconfigured hparse hconfig) files
      | previewed hconfig hshow => exact files_of_preview hconfig hshow _
      | produced hconfig hshow hreached hstopped =>
          exact files_of_unchecked hconfig hshow hreached hstopped.beforeRecord_of_config hstopped
  | unconfigured hparse hconfig => exact files_of_unconfigured (hunconfigured hparse hconfig) files
  | unchecked hconfig hshow hreached hbefore hstopped =>
      exact files_of_unchecked hconfig hshow hreached hbefore hstopped
  | unrecorded hconfig hshow hreached hrecord =>
      exact files_of_unrecorded hconfig hshow hreached hrecord

/-- A pipeline that does not end before anything is written has passed the checks and
written the record. -/
theorem harmless_or_recorded_of_produce (hconfig : Configured places argv config)
    (hshow : config.showConfig = false) :
    Harmless machine places argv files ∨
      ∃ header recorded, ChecksPass machine config files header ∧
        files.write machine.directory config.sidecar.text
          (linkRecord config.sdk.libraryDir.text) = .ok recorded := by
  rcases Stage.checksPass_or_checksFail machine config files with ⟨header, hpass⟩ | ⟨fault, hfail⟩
  · obtain ⟨mid, hreached⟩ := (checksPass_iff_reached (World.initial files)).mp hpass
    obtain ⟨hfiles, -⟩ := hreached.effects
    cases hnul : config.sidecar.text.hasNul with
    | true => exact .inl (.unrecorded hconfig hshow hreached (.inl hnul))
    | false =>
        cases hwrite : mid.files.write machine.directory config.sidecar.text
            (linkRecord config.sdk.libraryDir.text) with
        | error fault => exact .inl (.unrecorded hconfig hshow hreached (.inr ⟨fault, hwrite⟩))
        | ok recorded =>
            rw [hfiles] at hwrite
            exact .inr ⟨header, recorded, hpass, hwrite⟩
  · obtain ⟨milestone, mid, after, hbefore, hreached, hstopped⟩ :=
      (checksFail_iff_stopped (World.initial files)).mp hfail
    exact .inl (.unchecked hconfig hshow hreached hbefore hstopped)

end

/-- A run that ends before anything is written leaves the files exactly as they were and
starts no program.  Any other run is one of the pipeline in which all checks have passed
and the record has been written. -/
theorem unchanged_of_harmless (machine : Machine) (places : Places) (argv : List Text)
    (files : FileSystem) :
    (Harmless machine places argv files →
      ((Stage.runCommandLine machine places argv).runIn (.initial files)).2.files = files ∧
      ((Stage.runCommandLine machine places argv).runIn (.initial files)).2.launches = []) ∧
    (Harmless machine places argv files ∨
      ∃ config header recorded, Configured places argv config ∧ config.showConfig = false ∧
        ChecksPass machine config files header ∧
        files.write machine.directory config.sidecar.text
          (linkRecord config.sdk.libraryDir.text) = .ok recorded) := by
  refine ⟨files_of_harmless, ?_⟩
  by_cases hconfigured : ∃ config, Configured places argv config
  · obtain ⟨config, arguments, hparse, hconfig⟩ := hconfigured
    cases hshow : config.showConfig with
    | true =>
        obtain ⟨-, -, -, -, -, -, hsame⟩ := Configuration.ofArguments_ok hconfig
        exact .inl (.previewed hparse (hsame.trans hshow))
    | false =>
        have hpipeline : Configured places argv config := ⟨arguments, hparse, hconfig⟩
        refine (harmless_or_recorded_of_produce hpipeline hshow).imp_right ?_
        rintro ⟨header, recorded, hpass, hwrite⟩
        exact ⟨config, header, recorded, hpipeline, hshow, hpass, hwrite⟩
  · left
    cases hparse : CommandLine.parse (.defaults places) argv with
    | error stop => exact .stopped hparse
    | ok arguments =>
        cases hconfig : Configuration.ofArguments arguments with
        | error fault => exact .unconfigured hparse hconfig
        | ok config => exact absurd ⟨config, arguments, hparse, hconfig⟩ hconfigured

end SdkBindings
