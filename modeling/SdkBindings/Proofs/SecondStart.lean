import SdkBindings.Execution
import SdkBindings.Proofs.Lookups

/-!
Starting the same program twice.  Main statement: if two file systems differ in one file
only, and the search for a program tries to execute that file under none of its paths, the
search finds the same program in both.
-/

namespace SdkBindings

namespace FileSystem

variable {before after : FileSystem} {place : Place}

/-- Two file systems differ in one place at most, where the second one has a file. -/
structure DiffersAt (before after : FileSystem) (place : Place) : Prop where
  file : ∃ executable content, after.get? place = some (.file executable content)
  elsewhere : ∀ q, q ≠ place → after.get? q = before.get? q

theorem scan_of_differsAt (h : before.DiffersAt after place) {goal : Place} (hgoal : goal ≠ place)
    {onLink onLink' : Place → List Step → Landing}
    (honLink : ∀ start steps, onLink start steps = .found goal → onLink' start steps = .found goal)
    (start : Place) (steps : List Step)
    (hfound : after.scan .follow onLink start steps = .found goal) :
    before.scan .follow onLink' start steps = .found goal := by
  obtain ⟨executable, content, hfile⟩ := h.file
  induction steps generalizing start with
  | nil => exact hfound
  | cons step rest ih =>
      unfold scan at hfound ⊢
      have hstart : start ≠ place := by
        rintro rfl
        simp [hfile] at hfound
      rw [← h.elsewhere start hstart]
      cases hnode : after.get? start with
      | none => simp [hnode] at hfound
      | some node =>
          cases node <;> simp only [hnode, reduceCtorEq] at hfound
          cases step with
          | stay | close | up => exact ih _ hfound
          | overlong => simp at hfound
          | enter name =>
              simp only [reduceCtorEq, false_and, ↓reduceIte] at hfound ⊢
              by_cases hnext : name :: start = place
              · -- A walk cannot go on behind the file.
                simp only [hnext, hfile] at hfound
                cases rest with
                | nil => exact absurd (Landing.found.inj hfound).symm hgoal
                | cons => simp [scan, hfile] at hfound
              · rw [← h.elsewhere _ hnext]
                cases hentry : after.get? (name :: start) with
                | none =>
                    simp only [hentry] at hfound
                    split at hfound <;> simp at hfound
                | some entry =>
                    simp only [hentry] at hfound
                    cases entry with
                    | link target => exact honLink _ _ hfound
                    | directory | file | pipe | sink | fullDevice => exact ih _ hfound

/-- A path that does not lead to that place leads nowhere else before. -/
theorem locate_of_differsAt (h : before.DiffersAt after place) {goal : Place}
    (hgoal : goal ≠ place) {directory : WorkingDirectory} {t : Text}
    (hfound : after.locate .follow directory t = .found goal) :
    before.locate .follow directory t = .found goal :=
  locate_related
    (fun landing landing' => landing = .found goal → landing' = .found goal)
    (fun _ _ _ hfailed => by simp at hfailed) (fun hremoved => by simp at hremoved)
    (fun _ _ honLink start steps => scan_of_differsAt h hgoal honLink start steps)
    directory t hfound

/-- The content of a file that may be executed is where its path leads. -/
theorem executable_eq_ok_iff {fs : FileSystem} {directory : WorkingDirectory} {t content : Text} :
    fs.executable directory t = .ok content ↔
      ∃ place, fs.locate .follow directory t = .found place ∧
        fs.get? place = some (.file true content) := by
  unfold executable stat node
  cases fs.locate .follow directory t with
  | vacant | removed | failed => simp
  | found place =>
      cases hnode : fs.get? place with
      | none => simp [hnode]
      | some node =>
          cases node with
          | directory | link | pipe | sink | fullDevice => simp [hnode]
          | file executable old => cases executable <;> simp [hnode]

/-- Both files may be executed, and hold the same, or neither may. -/
theorem executable_of_differsAt (h : before.DiffersAt after place)
    (hextends : Extends before after) {directory : WorkingDirectory} {t : Text}
    (hother : after.locate .follow directory t ≠ .found place) :
    (∃ content, after.executable directory t = .ok content ∧
        before.executable directory t = .ok content) ∨
      ∃ reason reason', after.executable directory t = .error reason ∧
        before.executable directory t = .error reason' := by
  have hsame : ∀ content, after.executable directory t = .ok content ↔
      before.executable directory t = .ok content := by
    intro content
    simp only [executable_eq_ok_iff]
    constructor
    · rintro ⟨goal, hfound, hnode⟩
      have hgoal : goal ≠ place := by
        rintro rfl
        exact hother hfound
      exact ⟨goal, locate_of_differsAt h hgoal hfound, h.elsewhere goal hgoal ▸ hnode⟩
    · rintro ⟨goal, hfound, hnode⟩
      have hafter : after.locate .follow directory t = .found goal :=
        locate_follow_of_extends hextends (by decide) hnode hfound
      have hgoal : goal ≠ place := by
        rintro rfl
        exact hother hafter
      exact ⟨goal, hafter, (h.elsewhere goal hgoal).trans hnode⟩
  cases hafter : after.executable directory t with
  | ok content => exact .inl ⟨content, rfl, (hsame content).mp hafter⟩
  | error reason =>
      cases hbefore : before.executable directory t with
      | ok content =>
          rw [← hsame, hafter] at hbefore
          simp at hbefore
      | error reason' => exact .inr ⟨reason, reason', rfl, rfl⟩

end FileSystem

namespace Machine

/-- The paths of the files that are executed to start the program at a path: that of the
program, and where it is a script, those for its interpreter.  The number is that of the
files that may still be led through. -/
def executedWithin (machine : Machine) (fs : FileSystem) : Nat → Text → List Text
  | 0, path => [path]
  | bound + 1, path =>
    path ::
      match fs.executable machine.directory path with
      | .error _ => []
      | .ok content =>
        match machine.programs content, Interpreter.ofContent? content with
        | none, some interpreter => executedWithin machine fs bound interpreter.path
        | _, _ => []

/-- Every path that the search for a program tries to execute. -/
def tried (machine : Machine) (fs : FileSystem) (name : Text) : List Text :=
  (machine.candidates name).flatMap (machine.executedWithin fs startBound)

variable {machine : Machine} {before after : FileSystem} {place : Place} {name : Text}
  {argv : List Text}

/-- The refusals may differ. -/
theorem loadWithin_of_differsAt (h : before.DiffersAt after place)
    (hextends : FileSystem.Extends before after) {bound : Nat} {path : Text}
    {arguments : List Text}
    (hother : ∀ tried ∈ machine.executedWithin after bound path,
      after.locate .follow machine.directory tried ≠ .found place) :
    (machine.loadWithin after bound path arguments).toOption
      = (machine.loadWithin before bound path arguments).toOption := by
  induction bound generalizing path arguments with
  | zero =>
      have hpath : path ∈ machine.executedWithin after 0 path := by simp [executedWithin]
      rcases FileSystem.executable_of_differsAt h hextends (hother path hpath) with
        ⟨content, hafter, hbefore⟩ | ⟨reason, reason', hafter, hbefore⟩
      · simp only [loadWithin, hafter, hbefore]
      · simp only [loadWithin, hafter, hbefore]
        rfl
  | succ bound ih =>
      have hpath : path ∈ machine.executedWithin after (bound + 1) path := by
        simp [executedWithin]
      rcases FileSystem.executable_of_differsAt h hextends (hother path hpath) with
        ⟨content, hafter, hbefore⟩ | ⟨reason, reason', hafter, hbefore⟩
      · simp only [loadWithin, hafter, hbefore]
        cases hprogram : machine.programs content with
        | some program => rfl
        | none =>
            cases hinterpreter : Interpreter.ofContent? content with
            | none => rfl
            | some interpreter =>
                apply ih
                intro tried htried
                apply hother tried
                rw [executedWithin, hafter]
                simp only [hprogram, hinterpreter]
                exact List.mem_cons_of_mem path htried
      · simp only [loadWithin, hafter, hbefore]
        rfl

theorem load_of_differsAt (h : before.DiffersAt after place)
    (hextends : FileSystem.Extends before after) {path : Text}
    (hother : ∀ tried ∈ machine.executedWithin after startBound path,
      after.locate .follow machine.directory tried ≠ .found place) :
    (machine.load after argv path).toOption = (machine.load before argv path).toOption := by
  have hpath : path ∈ machine.executedWithin after startBound path := by
    simp [startBound, executedWithin]
  rcases FileSystem.executable_of_differsAt h hextends (hother path hpath) with
    ⟨content, hafter, hbefore⟩ | ⟨reason, reason', hafter, hbefore⟩
  · simp only [load, hafter, hbefore]
    split
    · exact loadWithin_of_differsAt h hextends hother
    · rfl
  · simp only [load, hafter, hbefore]
    rfl

/-- The same program is found in both. -/
theorem find_of_differsAt (h : before.DiffersAt after place)
    (hextends : FileSystem.Extends before after)
    (hother : ∀ path ∈ machine.tried after name,
      after.locate .follow machine.directory path ≠ .found place) {execution : Execution}
    (hfind : machine.find before name argv = .ok execution) :
    machine.find after name argv = .ok execution := by
  have hloads : (machine.candidates name).map (Except.toOption ∘ machine.load after argv) =
      (machine.candidates name).map (Except.toOption ∘ machine.load before argv) := by
    apply List.map_congr_left
    intro path hpath
    apply load_of_differsAt h hextends
    intro tried htried
    exact hother tried (List.mem_flatMap.mpr ⟨path, hpath, htried⟩)
  have hfirst : ∀ fs, ((machine.candidates name).map (machine.load fs argv)).findSome?
      Except.toOption = ((machine.candidates name).map
        (Except.toOption ∘ machine.load fs argv)).findSome? id := by
    intro fs
    rw [List.findSome?_map, List.findSome?_map, Function.id_comp]
  rw [find, hfirst] at hfind ⊢
  rw [hloads]
  cases hsome : ((machine.candidates name).map
      (Except.toOption ∘ machine.load before argv)).findSome? id with
  | some found => simpa only [hsome] using hfind
  | none => simp [hsome] at hfind

end Machine

end SdkBindings
