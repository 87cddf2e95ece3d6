import SdkBindings.Run

/-!
Which faults the values of the options, the checks of the library and the reading
back of a file can give.  None of them is a failure of the generator, and a loop of
links is met only where a file is read back.
-/

namespace SdkBindings

namespace Configuration

/-- A generator name of white space is refused before any path is looked at. -/
theorem ofArguments_of_blank {arguments : Arguments} {spelled : Text}
    (hgenerator : arguments.generator = .given spelled) (hblank : spelled.strip = []) :
    ofArguments arguments = .error (.config .blankGenerator) := by
  simp only [ofArguments, hgenerator, generatorName, if_pos hblank, bind, Except.bind]

theorem ofArguments_of_noName {arguments : Arguments}
    (hgenerator : arguments.generator = .nothing) :
    ofArguments arguments = .error .noNameOperand := by
  simp only [ofArguments, hgenerator, generatorName, bind, Except.bind]

theorem ofArguments_of_noPath {arguments : Arguments} {spelled : Text}
    (hgenerator : arguments.generator = .given spelled) (hname : spelled.strip ≠ [])
    (hpath : arguments.includeDir = .nothing ∨ arguments.output = .nothing ∨
      arguments.sidecar = .nothing) :
    ofArguments arguments = .error .noPathOperand := by
  simp only [ofArguments, hgenerator, generatorName, if_neg hname, bind, Except.bind]
  rcases hinclude : arguments.includeDir with includeDir | _
  · rcases houtput : arguments.output with output | _
    · rcases hsidecar : arguments.sidecar with sidecar | _
      · simp [hinclude, houtput, hsidecar] at hpath
      · rfl
    · rfl
  · rfl

/-- An option without an operand is the only other reason for which the values of the
options make no configuration. -/
theorem ofArguments_error {arguments : Arguments} {fault : Fault}
    (h : ofArguments arguments = .error fault) :
    fault = .noNameOperand ∧ arguments.generator = .nothing ∨
      ∃ spelled, arguments.generator = .given spelled ∧
        (fault = .config .blankGenerator ∧ spelled.strip = [] ∨
          fault = .noPathOperand ∧ spelled.strip ≠ [] ∧
            (arguments.includeDir = .nothing ∨ arguments.output = .nothing ∨
              arguments.sidecar = .nothing)) := by
  cases hgenerator : arguments.generator with
  | nothing =>
      rw [ofArguments_of_noName hgenerator, Except.error.injEq] at h
      exact .inl ⟨h.symm, rfl⟩
  | given spelled =>
      refine .inr ⟨spelled, rfl, ?_⟩
      by_cases hblank : spelled.strip = []
      · rw [ofArguments_of_blank hgenerator hblank, Except.error.injEq] at h
        exact .inl ⟨h.symm, hblank⟩
      · by_cases hpath : arguments.includeDir = .nothing ∨ arguments.output = .nothing ∨
          arguments.sidecar = .nothing
        · rw [ofArguments_of_noPath hgenerator hblank hpath, Except.error.injEq] at h
          exact .inr ⟨h.symm, hblank, hpath⟩
        · rcases hinclude : arguments.includeDir with includeDir | _ <;>
            rcases houtput : arguments.output with output | _ <;>
              rcases hsidecar : arguments.sidecar with sidecar | _ <;>
                simp [hinclude, houtput, hsidecar] at hpath
          simp [ofArguments, hgenerator, generatorName, hblank, hinclude, houtput, hsidecar,
            Operand.path, bind, Except.bind, pure, Except.pure] at h

/-- What the values of the options are, if they make a configuration. -/
theorem ofArguments_ok {arguments : Arguments} {config : Configuration}
    (h : ofArguments arguments = .ok config) :
    (∃ spelled, arguments.generator = .given spelled ∧ spelled.strip ≠ [] ∧
        config.generator = spelled.strip) ∧
      arguments.includeDir = .given config.sdk.includeDir ∧
      arguments.libraryDir = config.sdk.libraryDir ∧
      arguments.output = .given config.output ∧ arguments.sidecar = .given config.sidecar ∧
      arguments.checkLibraryDir = config.checkLibraryDir ∧
      arguments.showConfig = config.showConfig := by
  cases hgenerator : arguments.generator with
  | nothing =>
      rw [ofArguments_of_noName hgenerator] at h
      simp at h
  | given spelled =>
      by_cases hblank : spelled.strip = []
      · rw [ofArguments_of_blank hgenerator hblank] at h
        simp at h
      · by_cases hpath : arguments.includeDir = .nothing ∨ arguments.output = .nothing ∨
          arguments.sidecar = .nothing
        · rw [ofArguments_of_noPath hgenerator hblank hpath] at h
          simp at h
        · rcases hinclude : arguments.includeDir with includeDir | _ <;>
            rcases houtput : arguments.output with output | _ <;>
              rcases hsidecar : arguments.sidecar with sidecar | _ <;>
                simp [hinclude, houtput, hsidecar] at hpath
          simp only [ofArguments, hgenerator, generatorName, if_neg hblank, hinclude, houtput,
            hsidecar, Operand.path, bind, Except.bind, pure, Except.pure, Except.ok.injEq] at h
          subst h
          exact ⟨⟨spelled, rfl, hblank, rfl⟩, rfl, rfl, rfl, rfl, rfl, rfl⟩

end Configuration

namespace FileSystem

variable {fs : FileSystem} {directory : WorkingDirectory}

theorem leadsTo_error {path : Path} {kind : Node → Bool} {fault : Fault}
    (h : fs.leadsTo directory path kind = .error fault) :
    ∃ reason, fault = .onPath path.text reason := by
  unfold leadsTo at h
  cases hasks : fs.asks directory path.text kind with
  | ok answer => simp [hasks] at h
  | error reason =>
      simp only [hasks, Except.error.injEq] at h
      exact ⟨reason, h.symm⟩

theorem holdsFile_error {path : Path} {names : List Text} {fault : Fault}
    (h : fs.holdsFile directory path names = .error fault) :
    ∃ file reason, fault = .onPath file reason := by
  induction names with
  | nil => simp [holdsFile] at h
  | cons name others ih =>
      unfold holdsFile at h
      cases hleads : fs.leadsTo directory (path.child name) Node.isFile with
      | error fault' =>
          simp only [hleads, bind, Except.bind, Except.error.injEq] at h
          obtain ⟨reason, hreason⟩ := leadsTo_error hleads
          exact ⟨_, reason, h ▸ hreason⟩
      | ok answer =>
          cases answer with
          | true => simp [hleads, bind, Except.bind, pure, Except.pure] at h
          | false => exact ih (by simpa [hleads, bind, Except.bind] using h)

/-- A header that is not found is a configuration error, unless a text cannot be
handed to the system. -/
theorem findHeaderWithin_error {room : Nat} {includeDir : Path} {headerName : Text} {fault : Fault}
    (h : fs.findHeaderWithin room directory includeDir headerName = .error fault) :
    fault = .config (.headerNotFound headerName includeDir) ∨
      fault = .embeddedNul ∧
        fs.resolveWithin room true directory (includeDir.child headerName).text
          = .error .embeddedNul ∨
      ∃ file reason, fault = .onPath file reason := by
  unfold findHeaderWithin at h
  rcases hresolve : fs.resolveWithin room true directory (includeDir.child headerName).text with
    (reason | _ | _) | resolved
  · simp only [hresolve, Except.error.injEq] at h
    exact .inl h.symm
  · simp only [hresolve, Except.error.injEq] at h
    exact .inl h.symm
  · simp only [hresolve, Except.error.injEq] at h
    exact .inr (.inl ⟨h.symm, rfl⟩)
  · cases hleads : fs.leadsTo directory resolved Node.isFile with
    | error fault' =>
        simp only [hresolve, hleads, bind, Except.bind, Except.error.injEq] at h
        obtain ⟨reason, hreason⟩ := leadsTo_error hleads
        exact .inr (.inr ⟨_, reason, h ▸ hreason⟩)
    | ok answer =>
        cases answer with
        | true => simp [hresolve, hleads, bind, Except.bind, pure, Except.pure] at h
        | false =>
            simp only [hresolve, hleads, bind, Except.bind, Bool.false_eq_true, ↓reduceIte,
              throw, throwThe, MonadExceptOf.throw, Except.error.injEq] at h
            exact .inl h.symm

theorem checkLibraryDir_error {libraryDir : Operand Text} {fault : Fault}
    (h : fs.checkLibraryDir directory libraryDir = .error fault) :
    fault = .noPathOperand ∧ libraryDir = .nothing ∨
      (∃ error, fault = .config error) ∨ ∃ file reason, fault = .onPath file reason := by
  cases libraryDir with
  | nothing =>
      simp only [checkLibraryDir, Except.error.injEq] at h
      exact .inl ⟨h.symm, rfl⟩
  | given spelled =>
      unfold checkLibraryDir at h
      simp only [bind, Except.bind] at h
      cases hleads : fs.leadsTo directory (Path.ofText spelled) Node.isDirectory with
      | error fault' =>
          obtain ⟨reason, rfl⟩ := leadsTo_error hleads
          simp only [hleads, Except.error.injEq] at h
          exact .inr (.inr ⟨_, reason, h.symm⟩)
      | ok answer =>
          cases hholds : fs.holdsFile directory (Path.ofText spelled) libraryFiles with
          | error fault' =>
              obtain ⟨file, reason, rfl⟩ := holdsFile_error hholds
              cases answer with
              | false =>
                  simp [hleads, throw, throwThe, MonadExceptOf.throw] at h
                  exact .inr (.inl ⟨_, h.symm⟩)
              | true =>
                  simp [hleads, hholds] at h
                  exact .inr (.inr ⟨file, reason, h.symm⟩)
          | ok holds =>
              cases answer <;> cases holds <;>
                simp [hleads, hholds, throw, throwThe, MonadExceptOf.throw, pure,
                  Except.pure] at h
              all_goals exact .inr (.inl ⟨_, h.symm⟩)

/-- What can keep a file from being described. -/
theorem describe_error {path : Path} {fault : Fault}
    (h : fs.describe directory path = .error fault) :
    fs.canonicalPath directory path = .error fault ∨
      (∃ file reason, fault = .onPath file reason) ∨
      ∃ resolved, fs.canonicalPath directory path = .ok resolved ∧
        fs.read directory resolved.text = .error .endless ∧ fault = .endless resolved.text := by
  unfold describe at h
  cases hcanonical : fs.canonicalPath directory path with
  | error fault' =>
      simp only [hcanonical, bind, Except.bind, Except.error.injEq] at h
      exact .inl (h ▸ rfl)
  | ok resolved =>
      cases hread : fs.read directory resolved.text with
      | error unread =>
          simp only [hcanonical, hread, bind, Except.bind] at h
          cases unread with
          | refused reason => exact .inr (.inl ⟨_, reason, (Except.error.inj h).symm⟩)
          | endless => exact .inr (.inr ⟨resolved, rfl, hread, (Except.error.inj h).symm⟩)
      | ok content => simp [hcanonical, hread, bind, Except.bind] at h

/-- What can keep a path from having a canonical one. -/
theorem canonicalPath_error {path : Path} {fault : Fault}
    (h : fs.canonicalPath directory path = .error fault) :
    fault = .embeddedNul ∨ (∃ reason, fault = .system reason none) ∨
      ∃ file, fault = .linkLoop file := by
  unfold canonicalPath at h
  split at h
  · exact .inl (Except.error.inj h).symm
  · exact .inr (.inr ⟨_, (Except.error.inj h).symm⟩)
  · exact .inr (.inl ⟨_, (Except.error.inj h).symm⟩)
  · split at h
    · exact .inl (Except.error.inj h).symm
    · split at h
      · exact .inr (.inr ⟨_, (Except.error.inj h).symm⟩)
      · simp at h

end FileSystem

end SdkBindings
