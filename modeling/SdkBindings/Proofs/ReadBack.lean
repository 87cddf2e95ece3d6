import SdkBindings.Proofs.HeaderSearch
import SdkBindings.Proofs.Readiness
import SdkBindings.Proofs.Rewriting

/-!
A file that was written is read back.  The writing goes where the system's own lookup goes,
and the description takes the canonical path.  Main statements: the description of a file
that a path leads to names that file by its path from the root, and says so again when it
is asked for this path; and a record of the library directory is either not begun, or it is
made where its path leads and described.  Only in a working directory that was taken away
a file can be there and have no path.
-/

namespace SdkBindings

namespace Route

/-- One component further for each name, outermost first. -/
def enterAll (route : Route) (names : List Name) : Route :=
  names.foldl (fun before name => before.enter name.text) route

theorem length_text_le_enterAll (route : Route) (names : List Name) :
    route.text.length ≤ (route.enterAll names).text.length := by
  induction names generalizing route with
  | nil => exact Nat.le_refl _
  | cons name names ih => exact Nat.le_trans (length_text_le_enter route name.text) (ih _)

theorem enterAll_fromRoot (names : List Name) (above : List Text) :
    (fromRoot above).enterAll names = fromRoot ((names.map Name.text).reverse ++ above) := by
  induction names generalizing above with
  | nil => rfl
  | cons name names ih =>
      have hfirst : (fromRoot above).enterAll (name :: names)
          = (fromRoot (name.text :: above)).enterAll names := rfl
      rw [hfirst, ih]
      simp

end Route

/-- What is reported of a file at a place with some content. -/
def WrittenFile.ofPlace (place : Place) (content : Text) : WrittenFile where
  filename := place.path.name
  path := place.path
  lineCount := content.newlines
  byteCount := content.length

namespace FileSystem

variable {fs : FileSystem} {directory : WorkingDirectory} {path : Path} {place : Place}
  {content : Text} {executable : Bool}

/-- There is no link above what is there. -/
theorem node_of_below {names : List Name} {node : Node}
    (h : fs.get? (names ++ place) = some node) (hlink : node.isLink = false) :
    ∃ above, fs.get? place = some above ∧ above.isLink = false := by
  induction names generalizing node with
  | nil => exact ⟨node, h, hlink⟩
  | cons name names ih => exact ih (get?_parent h) rfl

/-- On the way down to what is there, no text is looked up that is longer than the last one. -/
theorem length_of_looked_names {strict : Bool}
    {onLink : Route → Text → LinksMet → Canonical.Journey} {met : LinksMet} {names : List Name}
    {node : Node} {route : Route} (hat : fs.At directory route (.ofPlace place))
    (hnode : fs.get? (names.reverse ++ place) = some node) (hlink : node.isLink = false)
    (hlimit : (route.enterAll names).text.length ≤ pathLimit) :
    ∀ looked ∈ (Canonical.tour ⟨fs.linkStat directory, strict⟩ onLink route met
      (names.map Name.text)).looked, looked.length ≤ pathLimit := by
  induction names generalizing route place with
  | nil => simp [Canonical.tour]
  | cons name names ih =>
      rw [List.reverse_cons, List.append_assoc, List.singleton_append] at hnode
      obtain ⟨next, hnext, hnolink⟩ := node_of_below hnode hlink
      have hshort : (route.enter name.text).text.length ≤ pathLimit :=
        Nat.le_trans (Route.length_text_le_enterAll _ names) hlimit
      have hlook : fs.linkStat directory (route.enter name.text).text = .ok next :=
        linkStat_enter hat hnext hshort
      rw [List.map_cons, Canonical.tour_enter name.keeps_text name.text_ne_up
        name.hasNul_text hlook hnolink, Canonical.Journey.looked_after]
      intro looked hlooked
      rcases List.mem_cons.mp hlooked with rfl | hlater
      · exact hshort
      · exact ih (.enter hat rfl hnext hnolink) hnode hlimit looked hlater

/-- The canonical path of a place asks for nothing longer than the path. -/
theorem withinLimit_path {node : Node} (h : fs.get? place = some node)
    (hlink : node.isLink = false) (hlimit : place.path.text.length ≤ pathLimit) :
    fs.WithinLimit directory place.path.text := by
  obtain ⟨room, hroom⟩ : ∃ room, fs.nestingBound = room + 1 := ⟨_, rfl⟩
  have htext : place.path.text
      = Text.slash :: Text.joinWith [Text.slash] (place.reverse.map Name.text) := by
    rw [List.map_reverse]
    rfl
  have hroute : ((Route.fromRoot []).enterAll place.reverse).text = place.path.text := by
    rw [Route.enterAll_fromRoot, List.map_reverse, List.reverse_reverse, List.append_nil]
    rfl
  have habsolute : isAbsolute place.path.text = true := Route.isAbsolute_fromRoot _
  unfold WithinLimit Inspectable
  rw [hroom, Canonical.journey_succ, Route.startOf, if_pos habsolute, htext, Text.fields_cons_sep,
    Canonical.tour_stay (.inl rfl)]
  cases place with
  | nil =>
      rw [List.reverse_nil, List.map_nil, Text.joinWith, Text.fields_nil,
        Canonical.tour_stay (.inl rfl)]
      simp [Canonical.tour]
  | cons name place =>
      have hparts : (name :: place).reverse.map Name.text ≠ [] := by simp
      rw [Text.fields_joinWith hparts]
      · exact length_of_looked_names .root (by simpa using h) hlink (hroute ▸ hlimit)
      · intro part hpart
        obtain ⟨entry, -, rfl⟩ := List.mem_map.mp hpart
        exact entry.slash_not_mem

/-- The description of a regular file where a walk ends. -/
theorem describe_of_ends (hlive : fs.get? directory.place = some .directory)
    (hlimit : fs.WithinLimit directory path.text) {anchored : Bool}
    (hends : fs.Ends (.start directory path.text) (.ofPlace place) anchored)
    (hfile : fs.get? place = some (.file executable content))
    (hshort : anchored = true ∨ directory.removedLevels = 0 →
      place.path.text.length ≤ pathLimit) :
    fs.describe directory path =
      if anchored = true ∨ directory.removedLevels = 0 then .ok (.ofPlace place content)
      else .error (.system .noEntry none) := by
  have hresolve : fs.resolve false directory path.text = _ :=
    resolve_of_ends hlive hlimit (.inr (Nat.le_refl _)) hends
  split
  · next hanchored =>
      rw [if_pos hanchored] at hresolve
      have hstat : fs.stat directory place.path.text = .ok (.file executable content) :=
        stat_path hfile rfl (hshort hanchored)
      have hclean := Text.hasNul_eq_false_iff.mpr (Place.nulFree_path place).text
      have hcanonical := canonicalPath_eq_ok_iff.mpr ⟨hresolve, hclean, by simp [hstat]⟩
      exact describe_eq_ok_iff.mpr ⟨place.path, content, hcanonical, by rw [read, hstat], rfl⟩
  · next hanchored =>
      rw [if_neg hanchored] at hresolve
      rw [describe, canonicalPath, hresolve]
      rfl

/-- The description of a file by its path from the root. -/
theorem describe_path (hlive : fs.get? directory.place = some .directory)
    (hfile : fs.get? place = some (.file executable content))
    (hshort : place.path.text.length ≤ pathLimit) :
    fs.describe directory place.path = .ok (.ofPlace place content) := by
  have hfound : fs.locate .follow directory place.path.text = .found place :=
    locate_path (by decide) hfile rfl hshort
  obtain ⟨anchored, n, hends⟩ := ends_of_locate hfound
  have hanchored : anchored = true := hends.stays_anchored rfl
  rw [describe_of_ends hlive (withinLimit_path hfile rfl hshort) ⟨n, hends⟩ hfile
    fun _ => hshort, if_pos (.inl hanchored)]

/-- A description in which nothing is too long for the system, neither on the way nor in the
end. -/
structure Describable (fs : FileSystem) (directory : WorkingDirectory) (path : Path) : Prop where
  inspectable : fs.WithinLimit directory path.text
  short : ∀ resolved, fs.resolve false directory path.text = .ok resolved →
    resolved.text.length ≤ pathLimit

/-- A file that a path leads to is described by its path from the root and by its content, and
its path from the root is described alike.  The path is not known, and there is no description,
exactly if the working directory was taken away and the walk neither begins at the root nor
meets a link that leads there. -/
theorem describe_of_stat (hlive : fs.get? directory.place = some .directory)
    (hdescribable : fs.Describable directory path)
    (hstat : fs.stat directory path.text = .ok (.file executable content)) :
    ∃ place anchored, fs.locate .follow directory path.text = .found place ∧
      fs.get? place = some (.file executable content) ∧ fs.Names place.path place ∧
      fs.Ends (.start directory path.text) (.ofPlace place) anchored ∧
      (anchored = true ∨ directory.removedLevels = 0 →
        fs.describe directory path = .ok (.ofPlace place content) ∧
        fs.describe directory (WrittenFile.ofPlace place content).path
          = .ok (.ofPlace place content)) ∧
      (¬ (anchored = true ∨ directory.removedLevels = 0) →
        fs.describe directory path = .error (.system .noEntry none)) := by
  rcases node_eq_ok_iff.mp hstat with ⟨place, hfound, hfile⟩ | ⟨-, hdirectory⟩
  · obtain ⟨anchored, hends⟩ := ends_of_locate hfound
    have hresolve : fs.resolve false directory path.text = _ :=
      resolve_of_ends hlive hdescribable.inspectable (.inr (Nat.le_refl _)) hends
    have hshort : anchored = true ∨ directory.removedLevels = 0 →
        place.path.text.length ≤ pathLimit := fun hanchored =>
      hdescribable.short _ (hresolve.trans (if_pos hanchored))
    have hdescribe := describe_of_ends hlive hdescribable.inspectable hends hfile hshort
    refine ⟨place, anchored, hfound, hfile, names_path hfile, hends, fun hanchored => ?_,
      fun hanchored => hdescribe.trans (if_neg hanchored)⟩
    exact ⟨hdescribe.trans (if_pos hanchored), describe_path hlive hfile (hshort hanchored)⟩
  · simp at hdirectory

/-- A path that leads to a file or to nothing is not opened for writing, or it is written to. -/
theorem opening_of_write {t : Text} {fault : WriteFault}
    (hfile : ∀ node, fs.stat directory t = .ok node → node.isFile = true)
    (h : fs.write directory t content = .error fault) : ∃ reason, fault = .opening reason := by
  unfold write at h
  cases hlanding : fs.locate .make directory t with
  | vacant parent name => simp [hlanding] at h
  | removed | failed =>
      simp only [hlanding, Except.error.injEq] at h
      exact ⟨_, h.symm⟩
  | found place =>
      simp only [hlanding] at h
      cases hnode : fs.get? place with
      | none =>
          simp only [hnode, Except.error.injEq] at h
          exact ⟨_, h.symm⟩
      | some node =>
          have hfound := locate_follow_of_extends (Extends.refl fs) (by decide) hnode hlanding
          have hstat : fs.stat directory t = .ok node := by
            simp [stat, FileSystem.node, hfound, hnode]
          cases node with
          | directory | fullDevice | link | pipe | sink =>
              exact absurd (hfile _ hstat) (by simp [Node.isFile])
          | file => simp [hnode] at h

end FileSystem

/-- A record that was written is described. -/
theorem Stage.runIn_recordLibraryDir_of_write {directory : WorkingDirectory} {libraryDir : Text}
    {sidecar : Path} {world : World} {recorded : FileSystem} (hclean : 0 ∉ sidecar.text)
    (hwrite : world.files.write directory sidecar.text (linkRecord libraryDir) = .ok recorded) :
    (recordLibraryDir directory libraryDir sidecar).runIn world =
      (recorded.describe directory sidecar, world.withFiles recorded) := by
  have hnul : ¬ sidecar.text.hasNul = true := by
    simp [Text.hasNul_eq_false_iff.mpr hclean]
  rw [runIn_recordLibraryDir, if_neg hnul, hwrite]

/-- The record of the library directory at a path that leads to a regular file or to nothing
is not begun, or it is written where the path leads and nowhere else, and described; and to
record the same again changes nothing.  The description, and it alone, is missing if the
working directory was taken away and the walk to the record neither begins at the root nor
meets a link that leads there. -/
theorem records_libraryDir {directory : WorkingDirectory} {libraryDir : Text} {sidecar : Path}
    {world : World} (hlive : world.files.get? directory.place = some .directory)
    (hclean : 0 ∉ sidecar.text)
    (hfile : ∀ node, world.files.stat directory sidecar.text = .ok node → node.isFile = true)
    (hdescribable : ∀ recorded, world.files.write directory sidecar.text (linkRecord libraryDir)
      = .ok recorded → recorded.Describable directory sidecar) :
    (∃ reason, world.files.write directory sidecar.text (linkRecord libraryDir)
          = .error (.opening reason) ∧
        (Stage.recordLibraryDir directory libraryDir sidecar).runIn world
          = (.error (.onPath sidecar.text reason), world)) ∨
      ∃ recorded place written anchored,
        world.files.write directory sidecar.text (linkRecord libraryDir) = .ok recorded ∧
        world.files.Opens directory sidecar.text place ∧
        recorded.locate .follow directory sidecar.text = .found place ∧
        recorded.Holds place (libraryDir ++ [Text.newline]) ∧
        (∀ other, other ≠ place → recorded.get? other = world.files.get? other) ∧
        recorded.Names place.path place ∧
        recorded.Ends (.start directory sidecar.text) (.ofPlace place) anchored ∧
        written = {
          filename := place.path.name
          path := place.path
          lineCount := libraryDir.newlines + 1
          byteCount := libraryDir.length + 1 : WrittenFile } ∧
        (anchored = true ∨ directory.removedLevels = 0 →
          (Stage.recordLibraryDir directory libraryDir sidecar).runIn world
            = (.ok written, world.withFiles recorded) ∧
          (Stage.recordLibraryDir directory libraryDir sidecar).runIn (world.withFiles recorded)
            = (.ok written, world.withFiles recorded)) ∧
        (¬ (anchored = true ∨ directory.removedLevels = 0) →
          (Stage.recordLibraryDir directory libraryDir sidecar).runIn world
            = (.error (.system .noEntry none), world.withFiles recorded)) := by
  cases hwrite : world.files.write directory sidecar.text (linkRecord libraryDir) with
  | error fault =>
      obtain ⟨reason, rfl⟩ := FileSystem.opening_of_write hfile hwrite
      refine .inl ⟨reason, rfl, ?_⟩
      rw [Stage.runIn_recordLibraryDir, Text.hasNul_eq_false_iff.mpr hclean, hwrite]
      rfl
  | ok recorded =>
      right
      obtain ⟨place, hfound, executable, hnode⟩ := FileSystem.holds_of_write_file hfile hwrite
      obtain ⟨hopens, hholds, -, hother⟩ := FileSystem.holds_of_write hwrite
        (FileSystem.Extends.refl recorded) hfound ⟨_, _, hnode⟩
      have hlive' := (FileSystem.extends_of_write hwrite).directory hlive
      have hstat : recorded.stat directory sidecar.text
          = .ok (.file executable (linkRecord libraryDir)) := by
        simp [FileSystem.stat, FileSystem.node, hfound, hnode]
      obtain ⟨place', anchored, hfound', -, hnames, hends, hknown, hunknown⟩ :=
        FileSystem.describe_of_stat hlive' (hdescribable recorded hwrite) hstat
      obtain rfl := Landing.found.inj (hfound.symm.trans hfound')
      obtain ⟨_, hsettled⟩ := FileSystem.settled_of_write hwrite hopens ⟨_, _, hnode⟩
      have hagain : (world.withFiles recorded).files.write directory sidecar.text
          (linkRecord libraryDir) = .ok recorded :=
        FileSystem.write_again hwrite (FileSystem.Extends.refl recorded) hfound hsettled
      refine ⟨recorded, place, .ofPlace place (linkRecord libraryDir), anchored, rfl, hopens,
        hfound, hholds, hother, hnames, hends, ?_, fun hanchored => ⟨?_, ?_⟩, fun hanchored => ?_⟩
      · simp [WrittenFile.ofPlace, linkRecord, Text.newlines]
      · rw [Stage.runIn_recordLibraryDir_of_write hclean hwrite, (hknown hanchored).1]
      · rw [Stage.runIn_recordLibraryDir_of_write hclean hagain, (hknown hanchored).1]
        rfl
      · rw [Stage.runIn_recordLibraryDir_of_write hclean hwrite, hunknown hanchored]

namespace Kept

/-- Bindings behind a link, and a link to a record that is missing. -/
def files : FileSystem :=
  FileSystem.empty.layOutAll (.ofPlace [])
    [.file "/opt/sys.rs" false [109, Text.newline], .link "/out" "opt",
     .link "/record" "./out//libdir"]

def optDirectory : Place := [⟨"opt", by decide⟩]

def bindings : Place := ⟨"sys.rs", .refl true⟩ :: optDirectory

def record : Place := ⟨"libdir", .refl true⟩ :: optDirectory

/-- The files with the record of a directory. -/
def recorded : FileSystem :=
  files.create record (.file false (linkRecord "/lib"))

/-- A working directory that was taken away from the root. -/
def removed : WorkingDirectory :=
  (WorkingDirectory.ofPlace [⟨"work", by decide⟩]).without [⟨"work", by decide⟩]

end Kept

open Kept in
/-- Bindings behind a link are described by the path of the file itself. -/
theorem describe_of_stat_link :
    files.Describable (.ofPlace []) (.ofText "out/sys.rs") ∧
      files.describe (.ofPlace []) (.ofText "out/sys.rs")
        = .ok ⟨"sys.rs", .ofText "/opt/sys.rs", 1, 2⟩ := by
  have hresolve : files.resolve false (.ofPlace []) (Path.ofText "out/sys.rs").text
      = .ok bindings.path := by decide +kernel
  have hdescribable : files.Describable (.ofPlace []) (.ofText "out/sys.rs") := by
    refine ⟨by decide +kernel, ?_⟩
    rw [hresolve]
    rintro _ ⟨⟩
    decide
  have hstat : files.stat (.ofPlace []) (Path.ofText "out/sys.rs").text
      = .ok (.file false [109, Text.newline]) := by decide +kernel
  have hlocate : files.locate .follow (.ofPlace []) (Path.ofText "out/sys.rs").text
      = .found bindings := by decide +kernel
  obtain ⟨place, anchored, hfound, -, -, -, hknown, -⟩ :=
    FileSystem.describe_of_stat (by rfl) hdescribable hstat
  obtain rfl := Landing.found.inj (hlocate.symm.trans hfound)
  exact ⟨hdescribable, (hknown (.inr rfl)).1⟩

open Kept in
/-- From a working directory that was taken away, the system finds a file by way of two dots,
and there is no description of it. -/
theorem describe_of_removed :
    files.get? removed.place = some .directory ∧
      files.Describable removed (.ofText "../out/sys.rs") ∧
      files.stat removed (Path.ofText "../out/sys.rs").text
        = .ok (.file false [109, Text.newline]) ∧
      files.describe removed (.ofText "../out/sys.rs") = .error (.system .noEntry none) := by
  have hresolve : files.resolve false removed (Path.ofText "../out/sys.rs").text
      = .error (.system .noEntry) := by decide +kernel
  refine ⟨by decide +kernel, ⟨by decide +kernel, ?_⟩, by decide +kernel, by decide +kernel⟩
  rw [hresolve]
  nofun

open Kept in
/-- A record is made behind a link that led nowhere, and once more. -/
theorem records_libraryDir_link :
    files.stat (.ofPlace []) (Path.ofText "record").text = .error .noEntry ∧
      recorded.Describable (.ofPlace []) (.ofText "record") ∧
      ∀ world ∈ [World.initial files, (World.initial files).withFiles recorded],
        (Stage.recordLibraryDir (.ofPlace []) "/lib" (.ofText "record")).runIn world
          = (.ok ⟨"libdir", .ofText "/opt/libdir", 1, 5⟩,
            (World.initial files).withFiles recorded) := by
  have hstat : files.stat (.ofPlace []) (Path.ofText "record").text = .error .noEntry := by
    decide +kernel
  have hwrite : files.write (.ofPlace []) (Path.ofText "record").text (linkRecord "/lib")
      = .ok recorded := by decide +kernel
  have hlocate : recorded.locate .follow (.ofPlace []) (Path.ofText "record").text
      = .found record := by decide +kernel
  have hresolve : recorded.resolve false (.ofPlace []) (Path.ofText "record").text
      = .ok record.path := by decide +kernel
  have hdescribable : recorded.Describable (.ofPlace []) (.ofText "record") := by
    refine ⟨by decide +kernel, ?_⟩
    rw [hresolve]
    rintro _ ⟨⟩
    decide
  have hfile : ∀ node, files.stat (.ofPlace []) (Path.ofText "record").text = .ok node →
      node.isFile = true := by
    intro node hnode
    rw [hstat] at hnode
    simp at hnode
  have hdescribable' : ∀ other, files.write (.ofPlace []) (Path.ofText "record").text
      (linkRecord "/lib") = .ok other → other.Describable (.ofPlace []) (.ofText "record") := by
    intro other hother
    rw [hwrite] at hother
    exact Except.ok.inj hother ▸ hdescribable
  rcases @records_libraryDir (.ofPlace []) "/lib" (.ofText "record") (.initial files) rfl
    (by decide) hfile hdescribable' with
    ⟨reason, hrefused, -⟩ |
    ⟨other, place, written, anchored, hother, -, hfound, -, -, -, -, hwritten, hknown, -⟩
  · exact absurd (hwrite.symm.trans hrefused) nofun
  · obtain rfl := Except.ok.inj (hwrite.symm.trans hother)
    obtain rfl := Landing.found.inj (hlocate.symm.trans hfound)
    have hreport : written = ⟨"libdir", .ofText "/opt/libdir", 1, 5⟩ :=
      hwritten.trans (by decide +kernel)
    subst hreport
    obtain ⟨hfirst, hagain⟩ := hknown (.inr rfl)
    refine ⟨hstat, hdescribable, fun world hworld => ?_⟩
    simp only [List.mem_cons, List.not_mem_nil, or_false] at hworld
    rcases hworld with rfl | rfl
    · exact hfirst
    · exact hagain

open Kept in
/-- In a working directory that was taken away, a record is made and the stage fails. -/
theorem records_removed :
    files.get? removed.place = some .directory ∧
      files.stat removed (Path.ofText "../libdir").text = .error .noEntry ∧
      ((Stage.recordLibraryDir removed "/lib" (.ofText "../libdir")).runIn (.initial files)).1
        = .error (.system .noEntry none) ∧
      ((Stage.recordLibraryDir removed "/lib" (.ofText "../libdir")).runIn (.initial files)).2.files
        ≠ files := by
  refine ⟨by decide +kernel, by decide +kernel, by decide +kernel, by decide +kernel⟩

end SdkBindings
