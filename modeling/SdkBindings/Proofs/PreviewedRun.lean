import SdkBindings.Proofs.Harmless

/-!
The preview foretells the run.  Main statement: the preview is refused exactly if the
pipeline is refused in its checks, for the same reason, and otherwise the header, the
command line and the library directory that it shows are those that the pipeline uses.
-/

namespace SdkBindings

/-- The lines of a preview show a header, a command line and a directory for the linker. -/
structure Shows (lines : List Text) (header : Path) (argv : List Text) (libraryDir : Text) :
    Prop where
  header : lines[0]? = some ("Header:      " ++ header.text)
  command : lines[6]? = some ("  " ++ shellCommand argv)
  linkSearch : lines.getLast? = some ("  cargo:rustc-link-search=native=" ++ libraryDir)

/-- A run of the pipeline uses a header, a command line and a library directory, however
far it comes. -/
structure Uses (machine : Machine) (config : Configuration) (start : World) (header : Path)
    (argv : List Text) (libraryDir : Text) : Prop where
  /-- The checks pass. -/
  checked : ∃ mid, Reached machine config start (.checked header) mid
  /-- The first argument of the generator is the header. -/
  argument : argv[1]? = some header.text
  /-- A run that comes to the generator has announced the command line, and it has written
  the directory and a newline to the record before that. -/
  prepared : ∀ header' sidecar mid,
    Reached machine config start (.prepared header' sidecar) mid →
    header' = header ∧
      (∃ before : World,
        mid = (before.withLine ("  Running: " ++ shellCommand argv)).flushed) ∧
      ∃ recorded, start.files.write machine.directory config.sidecar.text
        (libraryDir ++ [Text.newline]) = .ok recorded ∧
        recorded.describe machine.directory config.sidecar = .ok sidecar
  /-- A generator that has run was given the command line. -/
  generated : ∀ header' sidecar ending mid,
    Reached machine config start (.generated header' sidecar ending) mid →
    ∃ files, mid.launches = start.launches ++ [⟨argv, files⟩]
  /-- Whatever comes of the run, no program is started with other arguments. -/
  started : ∀ outcome after, (Stage.produce machine config).runIn start = (outcome, after) →
    after.launches = start.launches ∨
      ∃ files, after.launches = start.launches ++ [⟨argv, files⟩]

section

variable {machine : Machine} {config : Configuration} {start : World} {header : Path}

theorem shows_previewLines (config : Configuration) (header : Path) :
    Shows (previewLines config header) header (config.command header)
      config.sdk.libraryDir.text where
  header := rfl
  command := rfl
  linkSearch := rfl

/-- A preview is refused in the first check that does not pass. -/
theorem Stage.runIn_preview_eq_error_iff {fault : Fault} :
    ((preview machine config).runIn start).1 = .error fault ↔
      ChecksFail machine config start.files fault := by
  rcases checksPass_or_checksFail machine config start.files with ⟨header, hpass⟩ | ⟨other, hfail⟩
  · rw [runIn_preview_of_pass hpass]
    simp only [reduceCtorEq, false_iff]
    obtain ⟨hheader, hlibrary⟩ := hpass
    rintro (hmissing | ⟨-, hcheck, hrefused⟩)
    · rw [hheader] at hmissing
      simp at hmissing
    · obtain ⟨libraryDir, hdir⟩ := hlibrary hcheck
      rw [hdir] at hrefused
      simp at hrefused
  · constructor
    · intro herror
      rw [runIn_preview_of_fail hfail, Except.error.injEq] at herror
      exact herror ▸ hfail
    · intro hother
      rw [runIn_preview_of_fail hother]

/-- The argument after the generator's name is the header. -/
theorem Configuration.command_header (config : Configuration) (header : Path) :
    (config.command header)[1]? = some header.text := rfl

/-- The pipeline uses the header that was found and what the configuration says. -/
theorem uses_of_checksPass (h : ChecksPass machine config start.files header) :
    Uses machine config start header (config.command header) config.sdk.libraryDir.text := by
  have hunique : ∀ {other}, start.files.findHeader machine.directory config.sdk.includeDir
      libraryHeader = .ok other → other = header := by
    intro other hother
    exact Except.ok.inj (hother.symm.trans h.1)
  refine ⟨(checksPass_iff_reached start).mp h, config.command_header header, ?_, ?_, ?_⟩
  · intro header' sidecar mid hreached
    obtain rfl := hunique hreached.findHeader
    obtain ⟨recorded, hwrite, hread, -, -⟩ := hreached.effects
    cases hreached with
    | prepared _ _ _ => exact ⟨rfl, ⟨_, rfl⟩, recorded, hwrite, hread⟩
  · intro header' sidecar ending mid hreached
    obtain rfl := hunique hreached.findHeader
    obtain ⟨_, prepared, _, -, -, -, -, -, hlaunches⟩ := hreached.effects
    exact ⟨prepared, hlaunches⟩
  · intro outcome after hrun
    have hheader : ∀ {milestone mid}, Reached machine config start milestone mid →
        mid.launches = start.launches ∨
          ∃ files, mid.launches = start.launches ++ [⟨config.command header, files⟩] := by
      intro milestone mid hreached
      have hfound := hreached.findHeader
      have heffects := hreached.effects
      cases milestone with
      | announced | located | checked => exact .inl heffects.2
      | recorded => exact .inl heffects.2.2
      | prepared =>
          obtain ⟨_, -, -, -, hlaunches⟩ := heffects
          exact .inl hlaunches
      | generated | finished =>
          obtain rfl := hunique hfound
          obtain ⟨_, prepared, _, -, -, -, -, -, hlaunches⟩ := heffects
          exact .inr ⟨prepared, hlaunches⟩
    cases outcome with
    | ok result => exact hheader (Stage.runIn_produce_eq_ok_iff.mp hrun)
    | error fault =>
        obtain ⟨milestone, mid, hreached, hstopped⟩ := Stage.runIn_produce_eq_error_iff.mp hrun
        have hsame : after.launches = mid.launches := by
          cases hstopped <;> rfl
        rw [hsame]
        exact hheader hreached

end

/-- The preview and the pipeline of a configuration, begun in the same world, agree.  The
preview fails exactly if the pipeline fails with the same fault before it is going to write
the record.  Otherwise the preview shows what the pipeline uses. -/
theorem preview_agrees_with_produce (machine : Machine) (config : Configuration)
    (start : World) :
    (∀ fault, ((Stage.preview machine config).runIn start).1 = .error fault ↔
      ∃ milestone mid after, milestone.BeforeRecord ∧
        Reached machine config start milestone mid ∧
        Stopped machine config milestone mid fault after ∧
        (Stage.produce machine config).runIn start = (.error fault, after)) ∧
    (∀ world, (Stage.preview machine config).runIn start = (.ok (), world) →
      ∃ lines header argv libraryDir,
        world = start.withLine (Text.joinWith [Text.newline] lines) ∧
        Shows lines header argv libraryDir ∧
        Uses machine config start header argv libraryDir) := by
  constructor
  · intro fault
    rw [Stage.runIn_preview_eq_error_iff, checksFail_iff_stopped start]
    constructor
    · rintro ⟨milestone, mid, after, hbefore, hreached, hstopped⟩
      have hrun := Stage.runIn_produce_eq_error_iff.mpr ⟨milestone, mid, hreached, hstopped⟩
      exact ⟨milestone, mid, after, hbefore, hreached, hstopped, hrun⟩
    · rintro ⟨milestone, mid, after, hbefore, hreached, hstopped, -⟩
      exact ⟨milestone, mid, after, hbefore, hreached, hstopped⟩
  · intro world hpreview
    rcases Stage.checksPass_or_checksFail machine config start.files with
      ⟨header, hpass⟩ | ⟨fault, hfail⟩
    · rw [Stage.runIn_preview_of_pass hpass, Prod.mk.injEq] at hpreview
      exact ⟨_, header, config.command header, _, hpreview.2.symm,
        shows_previewLines config header, uses_of_checksPass hpass⟩
    · rw [Stage.runIn_preview_of_fail hfail] at hpreview
      simp at hpreview

end SdkBindings
