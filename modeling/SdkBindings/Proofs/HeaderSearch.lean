import SdkBindings.Layout
import SdkBindings.Proofs.CanonicalWalk
import SdkBindings.Proofs.RefusedChecks

/-!
The search for a header, told by the walk over components.  Main statement: a header is
found exactly if the walk over the components of its name in its directory ends at a
regular file, and the path found is that of the place where it ends.  There has to be room
for the links inside each other, and in a working directory that was taken away the walk
has to begin at the root or to meet a link that leads there.
-/

namespace SdkBindings

namespace Path

theorem isAbsolute_iff {t : Text} : isAbsolute t = true ↔ PathRoot.ofText t ≠ .relative := by
  cases t with
  | nil => decide
  | cons b rest =>
      by_cases hb : b = Text.slash
      · subst hb
        simp only [isAbsolute, List.head?_cons, PathRoot.ofText, List.takeWhile_cons, decide_true,
          ↓reduceIte, List.length_cons, true_iff]
        split <;> simp_all
      · simp [isAbsolute, PathRoot.ofText, hb]

theorem isAbsolute_text {p : Path} (hp : p.IsNormal) :
    isAbsolute p.text = true ↔ p.root ≠ .relative := by
  have hroot : PathRoot.ofText p.text = p.root := congrArg root (ofText_text hp)
  rw [isAbsolute_iff, hroot]

theorem isAbsolute_appendText {after : Text} (h : isAbsolute after = false) (before : Text) :
    isAbsolute (appendText before after) = isAbsolute before := by
  rw [appendText, if_neg (by simp [h])]
  cases before with
  | nil => simpa [isAbsolute] using h
  | cons b rest => split <;> rfl

/-- A relative text put after another one adds its components. -/
theorem parts_appendText {after : Text} (h : isAbsolute after = false) (before : Text) :
    (ofText (appendText before after)).parts = (ofText before).parts ++ (ofText after).parts := by
  rw [appendText, if_neg (by simp [h])]
  split
  · next hjoined =>
      rcases hjoined with rfl | hlast
      · rfl
      · obtain ⟨front, rfl⟩ := List.getLast?_eq_some_iff.mp hlast
        simp [ofText, Text.fields_append_cons, keeps]
  · simp [ofText, Text.fields_append_cons]

/-- A text put after another one spells the path of the one inside the other. -/
theorem child_ofText (before after : Text) :
    ((ofText before).child after).parts = (ofText (appendText before after)).parts ∧
      (((ofText before).child after).root ≠ .relative ↔
        isAbsolute (appendText before after) = true) := by
  have hchild : (ofText before).child after = append (ofText before) (ofText after) := rfl
  rw [hchild, append]
  cases habsolute : isAbsolute after with
  | true =>
      have hroot : (ofText after).root ≠ .relative := isAbsolute_iff.mp habsolute
      rw [if_neg hroot, appendText, if_pos habsolute]
      exact ⟨rfl, isAbsolute_iff.symm⟩
  | false =>
      have hroot : (ofText after).root = .relative := Decidable.byContradiction fun hroot =>
        absurd (isAbsolute_iff.mpr hroot) (by simp [habsolute])
      rw [if_pos hroot, parts_appendText habsolute, isAbsolute_appendText habsolute]
      exact ⟨rfl, isAbsolute_iff.symm⟩

end Path

namespace FileSystem

variable {fs : FileSystem} {directory : WorkingDirectory}

/-- The absolute path of a route is known from the root, or from a working directory that has
one. -/
theorem exists_absolute_iff {route : Route} {spot : WorkingDirectory}
    (h : fs.At directory route spot) :
    (∃ path, directory.absolute route.text = .ok path) ↔
      route.isRooted = true ∨ directory.removedLevels = 0 := by
  have hnormal := h.isNormal
  cases route with
  | fromRoot names => simp [WorkingDirectory.absolute, Route.isAbsolute_fromRoot, Route.isRooted]
  | fromHere levels names =>
      rw [WorkingDirectory.absolute, if_neg (by simp [Route.isAbsolute_fromHere hnormal]),
        WorkingDirectory.path?]
      by_cases hremoved : directory.removedLevels = 0
      · simp [hremoved]
      · simp [hremoved, Route.isRooted]

/-- The path of what is found is known, or the directory that it is relative to has none. -/
theorem absolute_error {t : Text} {obstacle : Obstacle}
    (h : directory.absolute t = .error obstacle) : obstacle = .system .noEntry := by
  unfold WorkingDirectory.absolute at h
  split at h
  · simp at h
  · split at h
    · simp at h
    · exact (Except.error.inj h).symm

/-- The walk over the components of a text ends, and all its walks over targets of links, with
itself, have room inside each other. -/
def Fits (fs : FileSystem) (room : Nat) (directory : WorkingDirectory) (t : Text) : Prop :=
  ∃ levels n goal, levels < room ∧
    fs.Traces Anywhere levels n (directory.startOf t) (Text.fields Text.slash t) goal

/-- The canonical path of a text is that of the place where the walk over its components ends,
or there is none, since the place cannot be told from the root. -/
theorem resolve_of_ends (hlive : fs.get? directory.place = some .directory) {room : Nat}
    {strict : Bool} {t : Text} (hlimit : fs.Inspectable room strict directory t)
    (hroom : fs.Fits room directory t ∨ fs.nestingBound ≤ room) {place : Place} {anchored : Bool}
    (hends : fs.Ends (.start directory t) (.ofPlace place) anchored) :
    fs.resolveWithin room strict directory t =
      if anchored = true ∨ directory.removedLevels = 0 then .ok place.path
      else .error (.system .noEntry) := by
  obtain ⟨n, hends⟩ := hends
  obtain ⟨depth, htraces, hroom⟩ : ∃ depth, fs.Traces Anywhere depth n (directory.startOf t)
      (Text.fields Text.slash t) (.ofPlace place) ∧ (depth < room ∨ fs.nestingBound ≤ room) := by
    obtain ⟨depth, htraces⟩ := hends.traces
    rcases hroom with ⟨levels, m, goal, hlevels, htraces'⟩ | hroom
    · obtain ⟨rfl, rfl⟩ := htraces'.unique htraces
      exact ⟨levels, htraces', .inl hlevels⟩
    · exact ⟨depth, htraces, .inr hroom⟩
  have hstart : fs.Stays directory (.fromHere 0 []) directory := ⟨⟨.inr hlive, _, .here⟩, .here⟩
  obtain ⟨last, met, hlast, hpasses, hreached⟩ :=
    follow_of_traces tracks_stays hstart htraces hroom hlimit
  obtain ⟨goal, -, -, hadvances⟩ := stays_of_passes tells_shows hpasses
    (fun _ => Text.sep_not_mem_of_mem_fields) (hstart.startOf t)
  rw [Route.isRooted_startOf] at hadvances
  obtain ⟨-, -, rfl⟩ := hends.unique hadvances
  have hresolve : fs.resolveWithin room strict directory t = directory.absolute last.text := by
    simp only [resolveWithin, hreached]
  have hknown := exists_absolute_iff hlast.stands
  rw [hresolve]
  cases habsolute : directory.absolute last.text with
  | ok path =>
      obtain ⟨-, rfl⟩ := absolute_of_at hlast.stands habsolute
      rw [if_pos (hknown.mp ⟨_, habsolute⟩)]
      rfl
  | error obstacle =>
      obtain rfl := absolute_error habsolute
      rw [if_neg fun hanchored => ?_]
      obtain ⟨path, hpath⟩ := hknown.mpr hanchored
      simp [habsolute] at hpath

/-- A strict canonical path is that of the place where the walk over the components ends, and
that place can be told from the root.  No link stands there. -/
theorem ends_of_resolve (hlive : fs.get? directory.place = some .directory) {room : Nat}
    {t : Text} {resolved : Path} (h : fs.resolveWithin room true directory t = .ok resolved) :
    ∃ place node, resolved = Place.path place ∧
      (∃ anchored, fs.Ends (.start directory t) (.ofPlace place) anchored ∧
        (anchored = true ∨ directory.removedLevels = 0)) ∧
      fs.get? place = some node ∧ node.isLink = false := by
  obtain ⟨-, n, ⟨place, levels⟩, last, hlast, -, hadvances, habsolute⟩ :=
    reached_of_resolve (.inl hlive) h
  obtain ⟨hlevels, rfl⟩ := absolute_of_at hlast.stands habsolute
  simp only at hlevels
  subst hlevels
  obtain ⟨node, hnode, hlink⟩ := hlast.grounded.node hlast.stands
  have hknown := (exists_absolute_iff hlast.stands).mp ⟨_, habsolute⟩
  exact ⟨place, node, rfl, ⟨_, ⟨n, hadvances⟩, hknown⟩, hnode, hlink⟩

theorem startOf_congr (directory : WorkingDirectory) {t t' : Text}
    (hroot : isAbsolute t = isAbsolute t') : directory.startOf t = directory.startOf t' := by
  rw [WorkingDirectory.startOf, WorkingDirectory.startOf, hroot]

/-- Two texts with the same components, both absolute or both relative, lead to the same
spots. -/
theorem ends_start_congr {t t' : Text} (hroot : isAbsolute t = isAbsolute t')
    (hparts : (Path.ofText t).parts = (Path.ofText t').parts) {goal : WorkingDirectory}
    {anchored : Bool} :
    fs.Ends (.start directory t) goal anchored ↔ fs.Ends (.start directory t') goal anchored := by
  have hfilter : (Text.fields Text.slash t).filter Path.keeps =
      (Text.fields Text.slash t').filter Path.keeps := hparts
  rw [Walker.start, Walker.start, ← ends_filter, ← @ends_filter _ _ _ (Text.fields _ t'),
    startOf_congr directory hroot, hfilter, hroot]

theorem Fits.congr {room : Nat} {t t' : Text} (hroot : isAbsolute t = isAbsolute t')
    (hparts : (Path.ofText t).parts = (Path.ofText t').parts) (h : fs.Fits room directory t) :
    fs.Fits room directory t' := by
  obtain ⟨levels, n, goal, hlevels, htraces⟩ := h
  have hfilter : (Text.fields Text.slash t).filter Path.keeps =
      (Text.fields Text.slash t').filter Path.keeps := hparts
  obtain ⟨m, hkept⟩ := exists_traces_filter.mpr ⟨n, htraces⟩
  obtain ⟨k, htraces'⟩ := exists_traces_filter.mp ⟨m, hfilter ▸ hkept⟩
  exact ⟨levels, k, goal, hlevels, startOf_congr directory hroot ▸ htraces'⟩

/-- The path of a name in a directory spells the components of both texts. -/
theorem spells_child (before after : Text) :
    isAbsolute ((Path.ofText before).child after).text = isAbsolute (appendText before after) ∧
      (Path.ofText ((Path.ofText before).child after).text).parts =
        (Path.ofText (appendText before after)).parts := by
  obtain ⟨hparts, hroot⟩ := Path.child_ofText before after
  have hnormal : ((Path.ofText before).child after).IsNormal :=
    fun part hpart => Path.isNormal_ofText _ part (hparts ▸ hpart)
  refine ⟨?_, ?_⟩
  · rw [Bool.eq_iff_iff, Path.isAbsolute_text hnormal, hroot]
  · rw [Path.ofText_text hnormal, hparts]

/-- The components of the path of a name in a directory lead where those of both texts do. -/
theorem ends_start_child {before after : Text} {goal : WorkingDirectory} {anchored : Bool} :
    fs.Ends (.start directory ((Path.ofText before).child after).text) goal anchored ↔
      fs.Ends (.start directory (appendText before after)) goal anchored :=
  ends_start_congr (spells_child before after).1 (spells_child before after).2

theorem Fits.child {room : Nat} {before after : Text}
    (h : fs.Fits room directory (appendText before after)) :
    fs.Fits room directory ((Path.ofText before).child after).text :=
  h.congr (spells_child before after).1.symm (spells_child before after).2.symm

/-- A question about the path of a place is answered by what stands there. -/
theorem leadsTo_path {place : Place} {node : Node} (h : fs.get? place = some node)
    (hlink : node.isLink = false) (hlength : place.path.text.length ≤ pathLimit)
    (kind : Node → Bool) : fs.leadsTo directory place.path kind = .ok (kind node) := by
  have hclean := Text.hasNul_eq_false_iff.mpr (Place.nulFree_path place).text
  have hstat : fs.stat directory place.path.text = .ok node := stat_path h hlink hlength
  rw [leadsTo_eq_ok_iff, asks, if_neg (by simp [hclean]), hstat]

/-- The walk over the components of a text ends at a regular file, and the way there from the
root is known: the working directory has a path, or the walk begins at the root or meets a
link that leads there. -/
structure HeaderAt (fs : FileSystem) (directory : WorkingDirectory) (t : Text) (place : Place) :
    Prop where
  ends : ∃ anchored, fs.Ends (.start directory t) (.ofPlace place) anchored ∧
    (anchored = true ∨ directory.removedLevels = 0)
  file : ∃ executable content, fs.get? place = some (.file executable content)

/-- A search for a header in which nothing is too long for the system. -/
structure Searchable (fs : FileSystem) (room : Nat) (directory : WorkingDirectory)
    (includeText headerName : Text) : Prop where
  live : fs.get? directory.place = some .directory
  plain : 0 ∉ includeText ∧ 0 ∉ headerName
  inspectable : fs.Inspectable room true directory ((Path.ofText includeText).child headerName).text
  short : ∀ resolved,
    fs.resolveWithin room true directory ((Path.ofText includeText).child headerName).text
      = .ok resolved → resolved.text.length ≤ pathLimit

variable {room : Nat} {includeText headerName : Text}

/-- A header that is found is the regular file at which the walk ends, whatever room there
was. -/
theorem headerAt_of_findHeader (hlive : fs.get? directory.place = some .directory) {header : Path}
    (h : fs.findHeaderWithin room directory (.ofText includeText) headerName = .ok header) :
    ∃ place, header = place.path ∧
      fs.HeaderAt directory (appendText includeText headerName) place := by
  obtain ⟨hresolve, hleads⟩ := findHeaderWithin_eq_ok_iff.mp h
  obtain ⟨place, node, rfl, ⟨anchored, hends, hanchored⟩, hnode, hlink⟩ :=
    ends_of_resolve hlive hresolve
  exact ⟨place, rfl, ⟨anchored, ends_start_child.mp hends, hanchored⟩,
    file_of_leadsTo hnode hlink hleads⟩

/-- Where the walk ends at a regular file, it is found, if there is room. -/
theorem findHeader_of_headerAt (h : fs.Searchable room directory includeText headerName)
    (hroom : fs.Fits room directory (appendText includeText headerName) ∨ fs.nestingBound ≤ room)
    {place : Place} (hat : fs.HeaderAt directory (appendText includeText headerName) place) :
    fs.findHeaderWithin room directory (.ofText includeText) headerName = .ok place.path := by
  obtain ⟨⟨anchored, hends, hanchored⟩, executable, content, hnode⟩ := hat
  have hresolve : fs.resolveWithin room true directory
      ((Path.ofText includeText).child headerName).text = .ok place.path := by
    rw [resolve_of_ends h.live h.inspectable (hroom.imp_left Fits.child)
      (ends_start_child.mpr hends), if_pos hanchored]
  exact findHeaderWithin_eq_ok_iff.mpr
    ⟨hresolve, leadsTo_path hnode rfl (h.short _ hresolve) Node.isFile⟩

/-- That no header is found is the only way to fail. -/
theorem findHeader_not_found (h : fs.Searchable room directory includeText headerName)
    (hnone : ∀ header,
      fs.findHeaderWithin room directory (.ofText includeText) headerName ≠ .ok header) :
    fs.findHeaderWithin room directory (.ofText includeText) headerName =
      .error (.config (.headerNotFound headerName (.ofText includeText))) := by
  have hdir : (Path.ofText includeText).NulFree := Path.nulFree_ofText h.plain.1
  rcases @findHeaderWithin_cases fs directory room _ _ hdir h.plain.2 with
    ⟨-, ⟨header, hfound⟩ | hnotFound⟩ | ⟨file, hrefused, -⟩
  · exact absurd hfound (hnone header)
  · exact hnotFound
  · obtain ⟨resolved, hresolve, hlong, -⟩ :=
      (headerRefusedWithin_iff h.live hdir h.plain.2).mp hrefused
    exact absurd (h.short resolved hresolve) (Nat.not_le.mpr hlong)

/-- A header that is found in some room is found in the room of the file system. -/
theorem findHeader_of_findHeaderWithin {header : Path}
    (h : fs.findHeaderWithin room directory (.ofText includeText) headerName = .ok header) :
    fs.findHeader directory (.ofText includeText) headerName = .ok header := by
  obtain ⟨hresolve, hleads⟩ := findHeaderWithin_eq_ok_iff.mp h
  exact findHeader_eq_ok_iff.mpr ⟨resolve_of_extends (.refl fs) hresolve true, hleads⟩

/-- Where the system's own lookup of a text ends, the walk over its components ends. -/
theorem ends_of_locate {t : Text} {place : Place}
    (h : fs.locate .follow directory t = .found place) :
    ∃ anchored, fs.Ends (.start directory t) (.ofPlace place) anchored := by
  obtain ⟨n, htraces⟩ := traces_of_locate h
  obtain ⟨anchored, hends⟩ := htraces.advances (isAbsolute t)
  exact ⟨anchored, n, hends⟩

/-- It meets no more links inside each other than the system follows. -/
theorem fits_of_locate {t : Text} {place : Place}
    (h : fs.locate .follow directory t = .found place) (hroom : linkBudget < room) :
    fs.Fits room directory t := by
  obtain ⟨n, htraces⟩ := traces_of_locate h
  exact ⟨linkBudget, n, _, hroom, htraces.anywhere⟩

/-- Above a place there are directories. -/
theorem node_of_isWithin {place above : Place} {node : Node} (hnode : fs.get? place = some node)
    (hlink : node.isLink = false) (habove : place.isWithin above = true) :
    ∃ node, fs.get? above = some node ∧ node.isLink = false := by
  obtain ⟨names, rfl⟩ := Place.isWithin_iff.mp habove
  cases names with
  | nil => exact ⟨node, hnode, hlink⟩
  | cons name names =>
      have hparent := get?_parent hnode
      exact ⟨_, get?_of_isWithin hparent (Place.isWithin_iff.mpr ⟨names, rfl⟩), rfl⟩

/-- A header that is found, in whatever room, is the regular file at which the walk over the
components of its name in its directory ends, and the way there from the root is known.  In a
room for the links inside each other, or in one for as many as there are, all such files are
found, and without one the header is not found.  Its path goes down from the root through
directories to the file.  What the system finds the walk ends at, with no more links inside
each other than the system follows, and beyond the room of the file system none is needed. -/
theorem findHeader_spec (h : fs.Searchable room directory includeText headerName) :
    (∀ header, fs.findHeaderWithin room directory (.ofText includeText) headerName = .ok header →
      ∃ place, header = Place.path place ∧
        fs.HeaderAt directory (appendText includeText headerName) place) ∧
    (fs.Fits room directory (appendText includeText headerName) ∨ fs.nestingBound ≤ room →
      ∀ header, fs.findHeaderWithin room directory (.ofText includeText) headerName = .ok header ↔
        ∃ place, header = Place.path place ∧
          fs.HeaderAt directory (appendText includeText headerName) place) ∧
    ((∀ header, fs.findHeaderWithin room directory (.ofText includeText) headerName ≠ .ok header) →
      fs.findHeaderWithin room directory (.ofText includeText) headerName =
        .error (.config (.headerNotFound headerName (.ofText includeText)))) ∧
    (∀ place, fs.HeaderAt directory (appendText includeText headerName) place →
      place.path.root = .one ∧
        (∀ part ∈ place.path.parts, Path.keeps part = true ∧ part ≠ Path.up ∧
          Text.slash ∉ part) ∧
        ∀ above, place.isWithin above = true →
          ∃ node, fs.get? above = some node ∧ node.isLink = false) ∧
    (∀ place executable content,
      fs.locate .follow directory (appendText includeText headerName) = .found place →
      fs.get? place = some (.file executable content) →
      ∃ anchored, fs.Ends (.start directory (appendText includeText headerName)) (.ofPlace place)
          anchored ∧
        (anchored = true ∨ directory.removedLevels = 0 → linkBudget < room →
          fs.findHeaderWithin room directory (.ofText includeText) headerName = .ok place.path)) ∧
    (∀ header, fs.findHeaderWithin room directory (.ofText includeText) headerName = .ok header →
      fs.findHeader directory (.ofText includeText) headerName = .ok header) ∧
    ∀ larger, fs.nestingBound ≤ larger →
      fs.findHeaderWithin larger directory (.ofText includeText) headerName =
        fs.findHeader directory (.ofText includeText) headerName := by
  refine ⟨fun header => headerAt_of_findHeader h.live, ?_, findHeader_not_found h, ?_, ?_,
    fun header => findHeader_of_findHeaderWithin,
    fun larger hlarger => fs.findHeaderWithin_of_nestingBound_le directory _ _ hlarger⟩
  · intro hroom header
    constructor
    · exact headerAt_of_findHeader h.live
    · rintro ⟨place, rfl, hat⟩
      exact findHeader_of_headerAt h hroom hat
  · rintro place ⟨-, executable, content, hnode⟩
    refine ⟨rfl, ?_, fun above => node_of_isWithin hnode rfl⟩
    intro part hpart
    simp only [Place.path, List.mem_reverse, List.mem_map] at hpart
    obtain ⟨name, -, rfl⟩ := hpart
    exact ⟨name.keeps_text, name.text_ne_up, name.slash_not_mem⟩
  · intro place executable content hlocate hnode
    obtain ⟨anchored, hends⟩ := ends_of_locate hlocate
    refine ⟨anchored, hends, fun hanchored hroom => ?_⟩
    exact findHeader_of_headerAt h (.inl (fits_of_locate hlocate hroom))
      ⟨⟨anchored, hends, hanchored⟩, executable, content, hnode⟩

namespace Sought

/-- A header, a link to its directory, and a link to itself. -/
def files : FileSystem :=
  FileSystem.empty.layOutAll (.ofPlace [])
    [.file "/sdk/VimbaC.h" false [], .link "/inc" "sdk", .link "/loop" "loop"]

def place : Place := [⟨libraryHeader, by decide⟩, ⟨"sdk", by decide⟩]

/-- A directory that was taken away from the root. -/
def removed : WorkingDirectory := ⟨[], 1⟩

theorem searchable {room : Nat} {directory : WorkingDirectory} {includeText : Text}
    {outcome : Except Obstacle Path} (hlive : files.get? directory.place = some .directory)
    (hplain : 0 ∉ includeText)
    (hlooked : files.Inspectable room true directory
      ((Path.ofText includeText).child libraryHeader).text)
    (hresolve : files.resolveWithin room true directory
      ((Path.ofText includeText).child libraryHeader).text = outcome)
    (hshort : ∀ resolved, outcome = .ok resolved → resolved.text.length ≤ pathLimit) :
    files.Searchable room directory includeText libraryHeader where
  live := hlive
  plain := ⟨hplain, by decide⟩
  inspectable := hlooked
  short := by
    rw [hresolve]
    exact hshort

/-- The walk through the link ends at the header. -/
theorem headerAt :
    files.HeaderAt (.ofPlace []) (appendText "inc" libraryHeader) place where
  ends := ⟨false, ⟨3, .step rfl (.step rfl (.step rfl (.refl _)))⟩, .inr rfl⟩
  file := ⟨false, [], by decide +kernel⟩

/-- The walk meets one link, and none inside it. -/
theorem fits : files.Fits 2 (.ofPlace []) (appendText "inc" libraryHeader) := by
  have hlink : files.get? [⟨"inc", by decide⟩] = some (.link ⟨"sdk", by decide⟩) := by
    decide +kernel
  have htarget : files.Traces Anywhere 0 1 (.ofPlace []) ["sdk"] (.ofPlace [⟨"sdk", by decide⟩]) :=
    .enter rfl rfl rfl .done
  have hbehind : files.Traces Anywhere 1 1 (.ofPlace [⟨"sdk", by decide⟩]) [libraryHeader]
      (.ofPlace place) := .enter rfl rfl rfl .done
  exact ⟨1, 3, _, by decide, .link rfl hlink htarget hbehind⟩

/-- The walk through the link to itself never ends. -/
theorem not_headerAt (place : Place) :
    ¬ files.HeaderAt (.ofPlace []) (appendText "loop" libraryHeader) place := by
  rintro ⟨⟨anchored, hends, -⟩, -⟩
  have hround : files.Advances 1 (.start (.ofPlace []) (appendText "loop" libraryHeader))
      (.start (.ofPlace []) (appendText "loop" libraryHeader)) := .step rfl (.refl _)
  exact hround.not_ends _ _ hends

end Sought

open Sought in
/-- In a room for two walks a header behind a link is found, and none behind a link to
itself. -/
theorem findHeader_spec_links :
    files.Searchable 2 (.ofPlace []) "inc" libraryHeader ∧
      files.Searchable 2 (.ofPlace []) "loop" libraryHeader ∧
      files.Fits 2 (.ofPlace []) (appendText "inc" libraryHeader) ∧
      files.findHeaderWithin 2 (.ofPlace []) (.ofText "inc") libraryHeader = .ok place.path ∧
      files.findHeaderWithin 2 (.ofPlace []) (.ofText "loop") libraryHeader =
        .error (.config (.headerNotFound libraryHeader (.ofText "loop"))) := by
  have hresolved : files.resolveWithin 2 true (.ofPlace [])
      ((Path.ofText "inc").child libraryHeader).text = .ok place.path := by
    decide +kernel
  have hlooped : files.resolveWithin 2 true (.ofPlace [])
      ((Path.ofText "loop").child libraryHeader).text = .error .loop := by
    decide +kernel
  have hfound : files.Searchable 2 (.ofPlace []) "inc" libraryHeader := by
    refine searchable (by decide +kernel) (by decide) (by decide +kernel) hresolved ?_
    rintro _ ⟨⟩
    decide +kernel
  have hlost : files.Searchable 2 (.ofPlace []) "loop" libraryHeader :=
    searchable (by decide +kernel) (by decide) (by decide +kernel) hlooped nofun
  refine ⟨hfound, hlost, fits, ?_, ?_⟩
  · exact ((findHeader_spec hfound).2.1 (.inl fits) _).mpr ⟨place, rfl, headerAt⟩
  · refine (findHeader_spec hlost).2.2.1 fun header hheader => ?_
    obtain ⟨place, -, hplace⟩ := (findHeader_spec hlost).1 header hheader
    exact not_headerAt place hplace

open Sought in
/-- From a working directory that was taken away, the walk over two dots ends at a regular
file, the system finds it too, and yet the header is not found.  Nor is the one behind the
link found where there is room for one walk only. -/
theorem findHeader_removed :
    (files.Searchable files.nestingBound removed "../sdk" libraryHeader ∧
      (∃ anchored, files.Ends (.start removed (appendText "../sdk" libraryHeader)) (.ofPlace place)
        anchored) ∧
      files.locate .follow removed (appendText "../sdk" libraryHeader) = .found place ∧
      (∃ executable content, files.get? place = some (.file executable content)) ∧
      files.findHeader removed (.ofText "../sdk") libraryHeader =
        .error (.config (.headerNotFound libraryHeader (.ofText "../sdk")))) ∧
    files.Searchable 1 (.ofPlace []) "inc" libraryHeader ∧
      files.HeaderAt (.ofPlace []) (appendText "inc" libraryHeader) place ∧
      files.findHeaderWithin 1 (.ofPlace []) (.ofText "inc") libraryHeader =
        .error (.config (.headerNotFound libraryHeader (.ofText "inc"))) := by
  refine ⟨⟨?_, ⟨false, 3, .step rfl (.step rfl (.step rfl (.refl _)))⟩, ?_, ⟨false, [], ?_⟩, ?_⟩,
    ?_, headerAt, ?_⟩
  · have hresolved : files.resolveWithin files.nestingBound true removed
        ((Path.ofText "../sdk").child libraryHeader).text = .error (.system .noEntry) := by
      decide +kernel
    exact searchable (by decide +kernel) (by decide) (by decide +kernel) hresolved nofun
  · decide +kernel
  · decide +kernel
  · decide +kernel
  · have hresolved : files.resolveWithin 1 true (.ofPlace [])
        ((Path.ofText "inc").child libraryHeader).text = .error .loop := by
      decide +kernel
    exact searchable (by decide +kernel) (by decide) (by decide +kernel) hresolved nofun
  · decide +kernel

end FileSystem

end SdkBindings
