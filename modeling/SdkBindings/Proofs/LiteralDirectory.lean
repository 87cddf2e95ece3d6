import SdkBindings.Proofs.NormalLookup

/-!
The check of the library directory, told by the text that is recorded.  What is asked is
the path that the text spells and the names inside that path, and the record holds the text
itself.  Main statement: unless something is too long for the system, the check passes
exactly if the system, looking up the text as it stands, comes to a directory with a
library, and otherwise says which of the two is missing.
-/

namespace SdkBindings

namespace FileSystem

variable {fs : FileSystem} {directory : WorkingDirectory} {path : Path} {names : List Text}

/-- Whether a text leads to a node of a kind. -/
def isAt (fs : FileSystem) (directory : WorkingDirectory) (t : Text) (kind : Node → Bool) : Bool :=
  match fs.stat directory t with
  | .ok node => kind node
  | .error _ => false

theorem isAt_eq_true_iff {t : Text} {kind : Node → Bool} :
    fs.isAt directory t kind = true ↔ ∃ node, fs.stat directory t = .ok node ∧ kind node = true := by
  unfold isAt
  cases fs.stat directory t <;> simp

theorem isAt_isDirectory_iff {t : Text} :
    fs.isAt directory t Node.isDirectory = true ↔ fs.stat directory t = .ok .directory := by
  rw [isAt_eq_true_iff]
  constructor
  · rintro ⟨node, hstat, hnode⟩
    cases node with
    | directory => exact hstat
    | file | link | pipe | sink | fullDevice => simp [Node.isDirectory] at hnode
  · exact fun hstat => ⟨_, hstat, rfl⟩

theorem isAt_isFile_iff {t : Text} :
    fs.isAt directory t Node.isFile = true ↔
      ∃ executable content, fs.stat directory t = .ok (.file executable content) := by
  rw [isAt_eq_true_iff]
  constructor
  · rintro ⟨node, hstat, hnode⟩
    cases node with
    | file executable content => exact ⟨executable, content, hstat⟩
    | directory | link | pipe | sink | fullDevice => simp [Node.isFile] at hnode
  · rintro ⟨executable, content, hstat⟩
    exact ⟨_, hstat, rfl⟩

/-- A question is answered by what the text leads to, unless something is too long. -/
theorem asks_eq_isAt {t : Text} (hclean : 0 ∉ t)
    (hshort : fs.stat directory t ≠ .error .nameTooLong) (kind : Node → Bool) :
    fs.asks directory t kind = .ok (fs.isAt directory t kind) := by
  rw [asks, if_neg (by simp [Text.hasNul_eq_false_iff.mpr hclean]), isAt]
  cases hstat : fs.stat directory t with
  | ok node => rfl
  | error reason =>
      have hreason := mem_of_stat_error hstat
      simp only [List.mem_cons, List.not_mem_nil, or_false] at hreason
      rcases hreason with rfl | rfl | rfl | rfl
      · rfl
      · rfl
      · exact absurd hstat hshort
      · rfl

/-- Files of some names are asked for in their order, and one that is there will do. -/
theorem holdsFile_of_answers {answer : Text → Bool}
    (h : ∀ name ∈ names,
      fs.asks directory (path.child name).text Node.isFile = .ok (answer name)) :
    fs.holdsFile directory path names = .ok (names.any answer) := by
  induction names with
  | nil => rfl
  | cons name others ih =>
      have hfirst := leadsTo_eq_ok_iff.mpr (h name List.mem_cons_self)
      rw [holdsFile, hfirst, List.any_cons]
      cases answer name with
      | true => rfl
      | false => exact ih fun other hother => h other (List.mem_cons_of_mem _ hother)

end FileSystem

/-- A text with a name inside it. -/
def Text.inside (spelled name : Text) : Text :=
  spelled ++ slash :: name

namespace FileSystem

variable {fs : FileSystem} {directory : WorkingDirectory} {spelled : Text}

theorem length_le_of_short {t : Text} (hshort : fs.stat directory t ≠ .error .nameTooLong) :
    t.length ≤ pathLimit := by
  refine Nat.le_of_not_lt fun hlong => hshort ?_
  rw [stat, FileSystem.node, locate, if_pos hlong]

/-- The question for a file inside a path is answered by what its spelling leads to. -/
theorem asks_child {name : Text} (hname : isName name = true) (hne : spelled ≠ [])
    (hclean : 0 ∉ spelled) (hshort : fs.stat directory (spelled.inside name) ≠ .error .nameTooLong)
    (kind : Node → Bool) :
    fs.asks directory ((Path.ofText spelled).child name).text kind =
      .ok (fs.isAt directory (spelled.inside name) kind) := by
  have hkeeps : Path.keeps name = true := Name.keeps_text ⟨name, hname⟩
  have hslash : Text.slash ∉ name := Name.slash_not_mem ⟨name, hname⟩
  have hplain : 0 ∉ ((Path.ofText spelled).child name).text :=
    ((Path.nulFree_ofText hclean).child (Name.zero_not_mem ⟨name, hname⟩)).text
  have hstat := fs.stat_child directory hkeeps hslash hne (length_le_of_short hshort)
  have hsame : fs.isAt directory ((Path.ofText spelled).child name).text kind =
      fs.isAt directory (spelled.inside name) kind := by
    rw [isAt, hstat]
    rfl
  rw [← hsame]
  exact asks_eq_isAt hplain (hstat ▸ hshort) kind

/-- The question for the directory is answered by what its spelling leads to. -/
theorem asks_text (hne : spelled ≠ []) (hclean : 0 ∉ spelled)
    (hshort : fs.stat directory spelled ≠ .error .nameTooLong) :
    fs.asks directory (Path.ofText spelled).text Node.isDirectory =
      .ok (fs.isAt directory spelled Node.isDirectory) := by
  have hlimit := length_le_of_short hshort
  have hsame : fs.isAt directory (Path.ofText spelled).text Node.isDirectory =
      fs.isAt directory spelled Node.isDirectory := by
    rw [Bool.eq_iff_iff, isAt_isDirectory_iff, isAt_isDirectory_iff]
    exact fs.stat_text_eq_directory_iff directory hne hlimit
  rw [← hsame]
  exact asks_eq_isAt (Path.nulFree_ofText hclean).text
    (fun hlong => hshort (fs.stat_text_error directory hne hlimit hlong)) _

/-- The check of a library directory, told by what the text itself leads to. -/
theorem checkLibraryDir_eq_ite (hne : spelled ≠ []) (hclean : 0 ∉ spelled)
    (hshort : fs.stat directory spelled ≠ .error .nameTooLong)
    (hinside : fs.stat directory spelled = .ok .directory →
      ∀ name ∈ libraryFiles, fs.stat directory (spelled.inside name) ≠ .error .nameTooLong) :
    fs.checkLibraryDir directory (.given spelled) =
      if fs.isAt directory spelled Node.isDirectory then
        if libraryFiles.any fun name => fs.isAt directory (spelled.inside name) Node.isFile then
          .ok (.ofText spelled)
        else .error (.config (.libraryNotFound spelled))
      else .error (.config (.libraryDirNotFound spelled)) := by
  have hplain : ∀ name ∈ libraryFiles, isName name = true := by decide
  rw [checkLibraryDir, leadsTo_eq_ok_iff.mpr (asks_text hne hclean hshort)]
  cases hdirectory : fs.isAt directory spelled Node.isDirectory with
  | false => rfl
  | true =>
      have hthere := hinside (isAt_isDirectory_iff.mp hdirectory)
      have hholds := holdsFile_of_answers fun name hname =>
        asks_child (hplain name hname) hne hclean (hthere name hname) Node.isFile
      simp only [bind, Except.bind, hholds]
      cases libraryFiles.any fun name => fs.isAt directory (spelled.inside name) Node.isFile <;> rfl

/-- Unless something on the way is too long, the check of a library directory succeeds exactly
if the text as it stands leads to a directory, and a library inside it to a regular file.
That there is no directory, and that there is no library in it, are reported exactly then. -/
theorem checkLibraryDir_spelled (hne : spelled ≠ []) (hclean : 0 ∉ spelled)
    (hshort : fs.stat directory spelled ≠ .error .nameTooLong)
    (hinside : fs.stat directory spelled = .ok .directory →
      ∀ name ∈ libraryFiles, fs.stat directory (spelled.inside name) ≠ .error .nameTooLong) :
    (fs.checkLibraryDir directory (.given spelled) = .ok (.ofText spelled) ↔
      fs.stat directory spelled = .ok .directory ∧
        ∃ name ∈ libraryFiles, ∃ executable content,
          fs.stat directory (spelled.inside name) = .ok (.file executable content)) ∧
    (fs.checkLibraryDir directory (.given spelled) =
        .error (.config (.libraryDirNotFound spelled)) ↔
      fs.stat directory spelled ≠ .ok .directory) ∧
    (fs.checkLibraryDir directory (.given spelled) =
        .error (.config (.libraryNotFound spelled)) ↔
      fs.stat directory spelled = .ok .directory ∧
        ∀ name ∈ libraryFiles, ∀ executable content,
          fs.stat directory (spelled.inside name) ≠ .ok (.file executable content)) := by
  have hcheck := checkLibraryDir_eq_ite hne hclean hshort hinside
  have hdirectory : fs.isAt directory spelled Node.isDirectory = true ↔
      fs.stat directory spelled = .ok .directory := isAt_isDirectory_iff
  have hlibrary : (libraryFiles.any fun name =>
      fs.isAt directory (spelled.inside name) Node.isFile) = true ↔
      ∃ name ∈ libraryFiles, ∃ executable content,
        fs.stat directory (spelled.inside name) = .ok (.file executable content) := by
    simp only [List.any_eq_true, isAt_isFile_iff]
  have hdistinct : ConfigurationError.libraryDirNotFound spelled ≠ .libraryNotFound spelled := by
    simp [ConfigurationError.libraryDirNotFound, ConfigurationError.libraryNotFound]
  have hnone : (∀ name ∈ libraryFiles, ∀ executable content,
      fs.stat directory (spelled.inside name) ≠ .ok (.file executable content)) ↔
      ¬ (libraryFiles.any fun name =>
        fs.isAt directory (spelled.inside name) Node.isFile) = true := by
    rw [hlibrary]
    simp only [not_exists, not_and, ne_eq]
  rw [hcheck, hnone, ← hlibrary, ne_eq, ← hdirectory]
  cases fs.isAt directory spelled Node.isDirectory with
  | false => simp [hdistinct]
  | true =>
      cases libraryFiles.any fun name => fs.isAt directory (spelled.inside name) Node.isFile with
      | false => simp [hdistinct.symm]
      | true => simp

end FileSystem

namespace Installed

/-- A library behind two links, and a text that spells the way to its directory with slashes
and dots to spare. -/
def files : FileSystem :=
  FileSystem.empty.layOutAll (.ofPlace [])
    [.file "/opt/lib/x64/libVimbaC.so" false [], .link "/sdk" "opt/./lib//",
     .link "/opt/lib/VimbaC.dll" "x64/libVimbaC.so"]

def spelled : Text := "//sdk/.//./"

end Installed

open Installed FileSystem in
theorem checkLibraryDir_spelled_links :
    files.stat (.ofPlace []) spelled = .ok .directory ∧
      files.stat (.ofPlace []) (spelled.inside "VimbaC.dll") = .ok (.file false []) ∧
      files.checkLibraryDir (.ofPlace []) (.given spelled) = .ok (.ofText spelled) := by
  have hdirectory : files.stat (.ofPlace []) spelled = .ok .directory := by decide +kernel
  have hfile : files.stat (.ofPlace []) (spelled.inside "VimbaC.dll") = .ok (.file false []) := by
    decide +kernel
  refine ⟨hdirectory, hfile, (checkLibraryDir_spelled (by decide) (by decide) ?_ fun _ => ?_).1.mpr
    ⟨hdirectory, "VimbaC.dll", by decide, false, [], hfile⟩⟩
  · simp [hdirectory]
  · decide +kernel

end SdkBindings
