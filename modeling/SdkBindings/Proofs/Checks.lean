import SdkBindings.Proofs.Effects

/-!
The checks of the installed library, which come before anything is written.  Main
statements: the pipeline gets past them exactly if they pass, it is stopped in them
exactly if one fails, for the same reason, and until then it only writes lines.
-/

namespace SdkBindings

/-- The milestones before the record is going to be written. -/
def Milestone.BeforeRecord : Milestone → Prop
  | announced | located _ => True
  | checked _ | recorded _ _ | prepared _ _ | generated _ _ _ | finished _ => False

section

variable {machine : Machine} {config : Configuration} {start mid after : World}
  {milestone : Milestone} {header : Path} {fault : Fault}

/-- A failing check does nothing. -/
theorem Stopped.eq_of_beforeRecord (h : Stopped machine config milestone mid fault after)
    (hbefore : milestone.BeforeRecord) : after = mid := by
  cases h with
  | header | library => rfl
  | recordNul | record | recordLost | directoryNul | directory | commandNul | start
  | unsuccessful | outputLost => exact hbefore.elim

/-- Only the checks end in a configuration error. -/
theorem Stopped.beforeRecord_of_config {error : ConfigurationError}
    (h : Stopped machine config milestone mid (.config error) after) :
    milestone.BeforeRecord := by
  have hread : ∀ {fs : FileSystem} {path : Path},
      fs.describe machine.directory path ≠ .error (.config error) := by
    intro fs path hdescribe
    rcases FileSystem.describe_error hdescribe with hcanonical | hread
    · have := FileSystem.canonicalPath_error hcanonical
      simp at this
    · simp [Fault.onPath] at hread
  generalize hfault : Fault.config error = fault at h
  cases h with
  | header | library => trivial
  | recordNul | directoryNul | commandNul | unsuccessful => simp at hfault
  | @record _ _ reason => cases reason <;> simp [writeFault, Fault.onPath] at hfault
  | recordLost _ _ hlost | outputLost _ hlost => exact absurd (hfault ▸ hlost) hread
  | directory => simp [Fault.onPath] at hfault
  | @start _ _ _ reason => cases reason <;> simp [startFault, Fault.onPath] at hfault

/-- Until the record is written, a run only writes lines. -/
theorem Reached.files_of_beforeRecord
    (h : Reached machine config start milestone mid) (hbefore : milestone.BeforeRecord) :
    mid.files = start.files ∧ mid.launches = start.launches := by
  have heffects := h.effects
  cases milestone with
  | announced | located => exact heffects
  | checked | recorded | prepared | generated | finished => exact hbefore.elim

/-- The pipeline gets past the checks exactly if they pass. -/
theorem checksPass_iff_reached (start : World) :
    ChecksPass machine config start.files header ↔
      ∃ mid, Reached machine config start (.checked header) mid := by
  constructor
  · rintro ⟨hheader, hlibrary⟩
    have hlocated := (@Reached.announced machine config start).located hheader
    cases hcheck : config.checkLibraryDir with
    | false => exact ⟨_, hlocated.unchecked hcheck⟩
    | true =>
        obtain ⟨libraryDir, hdir⟩ := hlibrary hcheck
        exact ⟨_, hlocated.checked hcheck hdir⟩
  · rintro ⟨mid, hreached⟩
    refine ⟨hreached.findHeader, ?_⟩
    intro hcheck
    cases hreached with
    | unchecked _ hunchecked => simp [hcheck] at hunchecked
    | checked hlocated _ hlibrary =>
        obtain ⟨hfiles, -⟩ := hlocated.effects
        exact ⟨_, hfiles ▸ hlibrary⟩

/-- The pipeline is stopped in its checks for the reason that the first of them has. -/
theorem checksFail_iff_stopped (start : World) {fault : Fault} :
    ChecksFail machine config start.files fault ↔
      ∃ milestone mid after, milestone.BeforeRecord ∧
        Reached machine config start milestone mid ∧
        Stopped machine config milestone mid fault after := by
  constructor
  · have hannounced := @Reached.announced machine config start
    rintro (hheader | ⟨⟨header, hheader⟩, hcheck, hlibrary⟩)
    · exact ⟨.announced, _, _, trivial, hannounced, .header hheader⟩
    · exact ⟨.located header, _, _, trivial, hannounced.located hheader,
        .library hcheck hlibrary⟩
  · rintro ⟨milestone, mid, after, hbefore, hreached, hstopped⟩
    have hfiles := (hreached.files_of_beforeRecord hbefore).1
    have hheader := hreached.findHeader
    cases hstopped with
    | header hmissing => exact .inl (hfiles ▸ hmissing)
    | @library _ header _ hcheck hrefused =>
        exact .inr ⟨⟨header, hheader⟩, hcheck, hfiles ▸ hrefused⟩
    | recordNul | record | recordLost | directoryNul | directory | commandNul | start
    | unsuccessful | outputLost => exact hbefore.elim

end

end SdkBindings
