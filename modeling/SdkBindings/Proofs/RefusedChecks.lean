import SdkBindings.Layout
import SdkBindings.Proofs.LibraryCheck
import SdkBindings.Proofs.NaiveWalk
import SdkBindings.Proofs.NulFree

/-!
How the checks of the installed library fail.  A check asks what some paths lead to, and a
question that the system refuses passes through it as it is.  Main statement: a check gives
its answer or its configuration error unless one of its questions is refused, and the only
reason for that is that something on the way is too long.
-/

namespace SdkBindings

namespace FileSystem

/-- The question for the canonical path of a header is refused, in a room for walks inside
each other. -/
def HeaderRefusedWithin (fs : FileSystem) (room : Nat) (directory : WorkingDirectory)
    (includeDir : Path) (headerName file : Text) : Prop :=
  ∃ resolved,
    fs.resolveWithin room true directory (includeDir.child headerName).text = .ok resolved ∧
      fs.asks directory resolved.text Node.isFile = .error .nameTooLong ∧ file = resolved.text

/-- The question for the canonical path of a header is refused. -/
def HeaderRefused (fs : FileSystem) (directory : WorkingDirectory) (includeDir : Path)
    (headerName file : Text) : Prop :=
  fs.HeaderRefusedWithin fs.nestingBound directory includeDir headerName file

/-- The question for a directory of libraries is refused, or, where it is one, a question
for a library in it. -/
inductive LibraryRefused (fs : FileSystem) (directory : WorkingDirectory) (spelled : Text) :
    Text → Prop where
  | directory :
      fs.asks directory (Path.ofText spelled).text Node.isDirectory = .error .nameTooLong →
      LibraryRefused fs directory spelled (Path.ofText spelled).text
  | library {file} :
      fs.asks directory (Path.ofText spelled).text Node.isDirectory = .ok true →
      fs.Overlong directory (.ofText spelled) libraryFiles file →
      LibraryRefused fs directory spelled file

variable {fs : FileSystem} {directory : WorkingDirectory}

/-- A header is found, or not, unless the question for its canonical path is refused. -/
theorem findHeaderWithin_cases (room : Nat) {includeDir : Path} {headerName : Text}
    (hdir : includeDir.NulFree) (hname : 0 ∉ headerName) :
    (∀ file, ¬ fs.HeaderRefusedWithin room directory includeDir headerName file) ∧
        ((∃ header, fs.findHeaderWithin room directory includeDir headerName = .ok header) ∨
          fs.findHeaderWithin room directory includeDir headerName =
            .error (.config (.headerNotFound headerName includeDir))) ∨
      ∃ file, fs.HeaderRefusedWithin room directory includeDir headerName file ∧
        fs.findHeaderWithin room directory includeDir headerName =
          .error (.onPath file .nameTooLong) := by
  have hclean := (@resolveWithin_nulFree fs directory room true _ (hdir.child hname).text).1
  rw [findHeaderWithin]
  cases hresolve : fs.resolveWithin room true directory (includeDir.child headerName).text with
  | error obstacle =>
      refine .inl ⟨?_, .inr ?_⟩
      · rintro file ⟨resolved, hother, -⟩
        simp [hresolve] at hother
      · cases obstacle with
        | embeddedNul => exact absurd hresolve hclean
        | system reason => rfl
        | loop => rfl
  | ok resolved =>
      rcases leadsTo_cases fs directory resolved Node.isFile with
        ⟨answer, hask, hleads⟩ | ⟨hask, hleads⟩
      · refine .inl ⟨?_, ?_⟩
        · rintro file ⟨other, hother, hrefused, -⟩
          obtain rfl := Except.ok.inj (hresolve.symm.trans hother)
          simp [hask] at hrefused
        · simp only [hleads]
          cases answer with
          | true => exact .inl ⟨resolved, rfl⟩
          | false => exact .inr rfl
      · refine .inr ⟨_, ⟨resolved, hresolve, hask, rfl⟩, ?_⟩
        simp only [hleads]
        rfl

/-- A directory of libraries is accepted, or not, unless a question is refused. -/
theorem checkLibraryDir_cases (fs : FileSystem) (directory : WorkingDirectory) (spelled : Text) :
    (∀ file, ¬ fs.LibraryRefused directory spelled file) ∧
        ((∃ found, fs.checkLibraryDir directory (.given spelled) = .ok found) ∨
          fs.checkLibraryDir directory (.given spelled) =
            .error (.config (.libraryDirNotFound spelled)) ∨
          fs.checkLibraryDir directory (.given spelled) =
            .error (.config (.libraryNotFound spelled))) ∨
      ∃ file, fs.LibraryRefused directory spelled file ∧
        fs.checkLibraryDir directory (.given spelled) = .error (.onPath file .nameTooLong) := by
  rw [checkLibraryDir]
  rcases leadsTo_cases fs directory (.ofText spelled) Node.isDirectory with
    ⟨answer, hask, hleads⟩ | ⟨hask, hleads⟩
  · simp only [hleads]
    cases answer with
    | false =>
        refine .inl ⟨?_, .inr (.inl rfl)⟩
        rintro file (hrefused | ⟨htrue, -⟩)
        · simp [hask] at hrefused
        · simp [hask] at htrue
    | true =>
        rcases holdsFile_cases fs directory (.ofText spelled) libraryFiles with
          ⟨hnone, answer, hholds⟩ | ⟨file, hsome, hholds⟩
        · refine .inl ⟨?_, ?_⟩
          · rintro file (hrefused | ⟨-, hsome⟩)
            · simp [hask] at hrefused
            · exact hnone file hsome
          · simp only [hholds]
            cases answer with
            | true => exact .inl ⟨_, rfl⟩
            | false => exact .inr (.inr rfl)
        · refine .inr ⟨file, .library hask hsome, ?_⟩
          simp only [hholds]
          rfl
  · refine .inr ⟨_, .directory hask, ?_⟩
    simp only [hleads]
    rfl

/-- From a working directory that is there, the question for a header is refused exactly if
its canonical path is longer than the system takes. -/
theorem headerRefusedWithin_iff (hlive : fs.get? directory.place = some .directory)
    {room : Nat} {includeDir : Path} {headerName file : Text} (hdir : includeDir.NulFree)
    (hname : 0 ∉ headerName) :
    fs.HeaderRefusedWithin room directory includeDir headerName file ↔
      ∃ resolved,
        fs.resolveWithin room true directory (includeDir.child headerName).text = .ok resolved ∧
          pathLimit < resolved.text.length ∧ file = resolved.text := by
  refine exists_congr fun resolved => and_congr_right fun hresolve => and_congr_left fun _ => ?_
  obtain ⟨place, node, rfl, hnode, hlink⟩ := node_of_resolve (.inl hlive) hresolve
  have hclean := Text.hasNul_eq_false_iff.mpr
    ((@resolveWithin_nulFree fs directory room true _ (hdir.child hname).text).2 _ hresolve).text
  constructor
  · intro hrefused
    refine Nat.lt_of_not_le fun hlength => ?_
    have hstat : fs.stat directory place.path.text = .ok node := stat_path hnode hlink hlength
    simp [asks, hclean, hstat] at hrefused
  · intro hlength
    have hstat : fs.stat directory place.path.text = .error .nameTooLong := by
      rw [stat, FileSystem.node, locate, if_pos hlength]
    simp [asks, hclean, hstat, Errno.meansAbsent]

/-- A check of the installed library gives its answer or one of its configuration errors,
unless a question of it is refused: then that is what it fails with. -/
theorem checks_cases (fs : FileSystem) (directory : WorkingDirectory) {includeDir : Path}
    {headerName : Text} (spelled : Text) (hdir : includeDir.NulFree) (hname : 0 ∉ headerName) :
    ((∀ file, ¬ fs.HeaderRefused directory includeDir headerName file) ∧
          ((∃ header, fs.findHeader directory includeDir headerName = .ok header) ∨
            fs.findHeader directory includeDir headerName =
              .error (.config (.headerNotFound headerName includeDir))) ∨
        ∃ file, fs.HeaderRefused directory includeDir headerName file ∧
          fs.findHeader directory includeDir headerName = .error (.onPath file .nameTooLong)) ∧
      ((∀ file, ¬ fs.LibraryRefused directory spelled file) ∧
          ((∃ found, fs.checkLibraryDir directory (.given spelled) = .ok found) ∨
            fs.checkLibraryDir directory (.given spelled) =
              .error (.config (.libraryDirNotFound spelled)) ∨
            fs.checkLibraryDir directory (.given spelled) =
              .error (.config (.libraryNotFound spelled))) ∨
        ∃ file, fs.LibraryRefused directory spelled file ∧
          fs.checkLibraryDir directory (.given spelled) = .error (.onPath file .nameTooLong)) :=
  ⟨findHeaderWithin_cases fs.nestingBound hdir hname, checkLibraryDir_cases fs directory spelled⟩

namespace LongDirectory

def files : FileSystem :=
  FileSystem.empty.layOutAll (.ofPlace []) [.file "/sdk/VimbaC.h" false []]

/-- A directory of libraries with a name that is too long. -/
def spelled : Text := List.replicate 300 97

end LongDirectory

open LongDirectory in
/-- The header is found, and the check of the libraries fails with what the system says. -/
theorem checks_cases_longDirectory :
    ((Path.ofText "/sdk").NulFree ∧ 0 ∉ libraryHeader) ∧
      (∃ header, files.findHeader (.ofPlace []) (.ofText "/sdk") libraryHeader = .ok header) ∧
      files.checkLibraryDir (.ofPlace []) (.given spelled) =
        .error (.onPath spelled .nameTooLong) := by
  have hheader : files.findHeader (.ofPlace []) (.ofText "/sdk") libraryHeader
      = .ok (.ofText "/sdk/VimbaC.h") := by
    decide +kernel
  have hspelled : (Path.ofText spelled).text = spelled := by
    decide +kernel
  have hask : files.asks (.ofPlace []) (Path.ofText spelled).text Node.isDirectory
      = .error .nameTooLong := by
    decide +kernel
  have hdir : (Path.ofText "/sdk").NulFree := Path.nulFree_ofText (by decide)
  have hname : 0 ∉ libraryHeader := by decide
  refine ⟨⟨hdir, hname⟩, ⟨_, hheader⟩, ?_⟩
  obtain ⟨-, ⟨hnone, -⟩ | ⟨file, hrefused, hcheck⟩⟩ :=
    checks_cases files (.ofPlace []) spelled hdir hname
  · exact absurd (.directory hask) (hnone _)
  · rcases hrefused with - | ⟨hanswered, -⟩
    · rw [hspelled] at hcheck
      exact hcheck
    · simp [hask] at hanswered

end FileSystem

end SdkBindings
