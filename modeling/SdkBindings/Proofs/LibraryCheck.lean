import SdkBindings.Proofs.SteadyWalk

/-!
The questions of the library check, and the check on a file system that was extended.  Main
statements: a question is answered unless something on the way to the file it asks for is too
long, and a directory that has passed the check passes it again, unless a question that was
answered no is refused now.
-/

namespace SdkBindings

namespace FileSystem

/-- Of the questions for files of some names in a directory, all are answered no until one
is refused, since something on the way is too long. -/
inductive Overlong (fs : FileSystem) (directory : WorkingDirectory) (path : Path) :
    List Text → Text → Prop where
  | first {name others} :
      fs.asks directory (path.child name).text Node.isFile = .error .nameTooLong →
      Overlong fs directory path (name :: others) (path.child name).text
  | later {name others file} :
      fs.asks directory (path.child name).text Node.isFile = .ok false →
      Overlong fs directory path others file →
      Overlong fs directory path (name :: others) file

variable {fs before after : FileSystem} {directory : WorkingDirectory} {path : Path}
  {names : List Text}

theorem Overlong.unique {file file' : Text} (h : fs.Overlong directory path names file)
    (h' : fs.Overlong directory path names file') : file = file' := by
  induction h with
  | first hrefused =>
      cases h' with
      | first => rfl
      | later hfalse => simp [hrefused] at hfalse
  | later hfalse _ ih =>
      cases h' with
      | first hrefused => simp [hfalse] at hrefused
      | later _ hlater => exact ih hlater

/-- A question is answered, or refused since something is too long. -/
theorem leadsTo_cases (fs : FileSystem) (directory : WorkingDirectory) (path : Path)
    (kind : Node → Bool) :
    (∃ answer, fs.asks directory path.text kind = .ok answer ∧
        fs.leadsTo directory path kind = .ok answer) ∨
      fs.asks directory path.text kind = .error .nameTooLong ∧
        fs.leadsTo directory path kind = .error (.onPath path.text .nameTooLong) := by
  cases hask : fs.asks directory path.text kind with
  | ok answer => exact .inl ⟨answer, rfl, leadsTo_eq_ok_iff.mpr hask⟩
  | error reason =>
      obtain rfl := asks_error hask
      exact .inr ⟨rfl, by rw [leadsTo, hask]⟩

/-- Whether there is a file of one of the names is answered, unless a question is refused. -/
theorem holdsFile_cases (fs : FileSystem) (directory : WorkingDirectory) (path : Path)
    (names : List Text) :
    (∀ file, ¬ fs.Overlong directory path names file) ∧
        (∃ answer, fs.holdsFile directory path names = .ok answer) ∨
      ∃ file, fs.Overlong directory path names file ∧
        fs.holdsFile directory path names = .error (.onPath file .nameTooLong) := by
  induction names with
  | nil => exact .inl ⟨nofun, false, rfl⟩
  | cons name others ih =>
      rw [holdsFile]
      rcases leadsTo_cases fs directory (path.child name) Node.isFile with
        ⟨answer, hask, hleads⟩ | ⟨hask, hleads⟩
      · rw [hleads]
        cases answer with
        | true =>
            refine .inl ⟨?_, true, rfl⟩
            rintro file (hrefused | ⟨hfalse, -⟩)
            · simp [hask] at hrefused
            · simp [hask] at hfalse
        | false =>
            rcases ih with ⟨hnone, hanswer⟩ | ⟨file, hsome, hrest⟩
            · refine .inl ⟨?_, hanswer⟩
              rintro file (hrefused | ⟨-, hlater⟩)
              · simp [hask] at hrefused
              · exact hnone file hlater
            · exact .inr ⟨file, .later hask hsome, hrest⟩
      · rw [hleads]
        exact .inr ⟨_, .first hask, rfl⟩

/-- A library that was found is not missed in an extension. -/
theorem holdsFile_eq_true_of_extends (h : Extends before after)
    (hbefore : before.holdsFile directory path names = .ok true) {answer : Bool}
    (hafter : after.holdsFile directory path names = .ok answer) : answer = true := by
  induction names with
  | nil => simp [holdsFile] at hbefore
  | cons name others ih =>
      obtain ⟨held, hheld, hbefore⟩ := except_bind_eq_ok_iff.mp hbefore
      obtain ⟨holds, hholds, hafter⟩ := except_bind_eq_ok_iff.mp hafter
      cases held with
      | true =>
          -- What was answered yes is answered yes again.
          have hstill := leadsTo_of_extends h (fun _ _ hover => hover.isFile_eq) hheld
          obtain rfl := Except.ok.inj (hstill.symm.trans hholds)
          exact (Except.ok.inj hafter).symm
      | false =>
          cases holds with
          | true => exact (Except.ok.inj hafter).symm
          | false => exact ih hbefore hafter

/-- A library that was found is found in an extension, unless a question before it is
refused now. -/
theorem holdsFile_of_extends (h : Extends before after)
    (hholds : before.holdsFile directory path names = .ok true) :
    ((∀ file, ¬ after.Overlong directory path names file) ∧
        after.holdsFile directory path names = .ok true) ∨
      ∃ file, after.Overlong directory path names file ∧
        after.holdsFile directory path names = .error (.onPath file .nameTooLong) := by
  rcases holdsFile_cases after directory path names with ⟨hnone, answer, hanswer⟩ | hrefused
  · obtain rfl := holdsFile_eq_true_of_extends h hholds hanswer
    exact .inl ⟨hnone, hanswer⟩
  · exact .inr hrefused

/-- A library directory that passed the check passes it in an extension, with the same
exception. -/
theorem checkLibraryDir_of_extends (h : Extends before after) {libraryDir : Operand Text}
    (hcheck : ∃ found, before.checkLibraryDir directory libraryDir = .ok found) :
    ((∀ file, ¬ after.Overlong directory (.ofText libraryDir.text) libraryFiles file) ∧
        ∃ found, after.checkLibraryDir directory libraryDir = .ok found) ∨
      ∃ file, after.Overlong directory (.ofText libraryDir.text) libraryFiles file ∧
        after.checkLibraryDir directory libraryDir = .error (.onPath file .nameTooLong) := by
  obtain ⟨found, hcheck⟩ := hcheck
  cases libraryDir with
  | nothing => simp [checkLibraryDir] at hcheck
  | given spelled =>
      obtain ⟨rfl, hleads, hholds⟩ := checkLibraryDir_eq_ok_iff.mp hcheck
      have hstill := leadsTo_of_extends h (fun _ _ hover => hover.isDirectory_eq) hleads
      rcases holdsFile_of_extends h hholds with ⟨hnone, hrest⟩ | ⟨file, hsome, hrest⟩
      · exact .inl ⟨hnone, _, checkLibraryDir_eq_ok_iff.mpr ⟨rfl, hstill, hrest⟩⟩
      · refine .inr ⟨file, hsome, ?_⟩
        simp only [checkLibraryDir, hstill, hrest, bind, Except.bind]
        rfl

end FileSystem

end SdkBindings
