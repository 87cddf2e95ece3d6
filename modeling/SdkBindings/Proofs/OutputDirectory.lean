import SdkBindings.Proofs.HeaderSearch
import SdkBindings.Proofs.MadeDirectories
import SdkBindings.Proofs.ProducedFiles

/-!
The directory for the output.  It is asked for first, where an ancestor is missing that
ancestor before it, and then it is asked for once more.  Main statements: there are at most
two attempts for each component; what is new in the end are directories on the way, one
inside the other unless the path goes up; and where the directory cannot be made, nothing
is announced and nothing is started.
-/

namespace SdkBindings

theorem Path.IsNormal.of_begins {above path : Path} (h : path.IsNormal)
    (hbegins : above.Begins path) : above.IsNormal :=
  fun part hpart => h part (hbegins.2.subset hpart)

namespace Place

theorem isWithin_trans {inner place top : Place} (h : inner.isWithin place = true)
    (h' : place.isWithin top = true) : inner.isWithin top = true := by
  simp only [isWithin, List.isSuffixOf_iff_suffix] at h h' ⊢
  exact h'.trans h

theorem isWithin_below (name : Name) (place : Place) : isWithin (name :: place) place = true :=
  isWithin_iff.mpr ⟨[name], rfl⟩

end Place

namespace FileSystem

/-- The making of a directory, attempt by attempt.  The components are innermost first, and
the number counts the attempts. -/
inductive Attempts (directory : WorkingDirectory) (root : PathRoot) :
    Nat → FileSystem → List Text → FileSystem → Except Refusal Unit → Prop where
  /-- The directory is there, or it can be made at once. -/
  | made {before parts after} :
      before.ensureLast directory (Path.mk root parts.reverse).text = .ok after →
      Attempts directory root 1 before parts after (.ok ())
  /-- It cannot be made, and no ancestor is missing, or there is none. -/
  | refused {before parts reason} :
      before.ensureLast directory (Path.mk root parts.reverse).text = .error reason →
      reason ≠ .noEntry ∨ parts = [] →
      Attempts directory root 1 before parts before (.error ⟨⟨root, parts.reverse⟩, reason⟩)
  /-- An ancestor is missing, and that cannot be made. -/
  | lacking {n before part outer after refusal} :
      before.ensureLast directory (Path.mk root (part :: outer).reverse).text = .error .noEntry →
      Attempts directory root n before outer after (.error refusal) →
      Attempts directory root (n + 1) before (part :: outer) after (.error refusal)
  /-- With its ancestors made, the directory is asked for once more. -/
  | again {n before part outer mid after} :
      before.ensureLast directory (Path.mk root (part :: outer).reverse).text = .error .noEntry →
      Attempts directory root n before outer mid (.ok ()) →
      mid.ensureLast directory (Path.mk root (part :: outer).reverse).text = .ok after →
      Attempts directory root (n + 2) before (part :: outer) after (.ok ())
  | lost {n before part outer mid reason} :
      before.ensureLast directory (Path.mk root (part :: outer).reverse).text = .error .noEntry →
      Attempts directory root n before outer mid (.ok ()) →
      mid.ensureLast directory (Path.mk root (part :: outer).reverse).text = .error reason →
      Attempts directory root (n + 2) before (part :: outer) mid
        (.error ⟨⟨root, (part :: outer).reverse⟩, reason⟩)

/-- The attempts come to an end, on the way out to the ancestors and on the way back. -/
theorem exists_attempts (fs : FileSystem) (directory : WorkingDirectory) (root : PathRoot)
    (parts : List Text) :
    ∃ n ≤ 2 * parts.length + 1, Attempts directory root n fs parts
      (fs.ensureParts directory root parts).1 (fs.ensureParts directory root parts).2 := by
  induction parts with
  | nil =>
      refine ⟨1, Nat.le_refl 1, ?_⟩
      unfold ensureParts
      simp only
      split
      · next hmade => exact .made hmade
      · next hrefused => exact .refused hrefused (.inr rfl)
  | cons part outer ih =>
      obtain ⟨n, hn, houter⟩ := ih
      have hfew : n + 2 ≤ 2 * (part :: outer).length + 1 := by
        rw [List.length_cons]
        omega
      unfold ensureParts
      simp only
      split
      · next hmade => exact ⟨1, by omega, .made hmade⟩
      · next hmissing =>
        split
        · next habove =>
            rw [habove] at houter
            exact ⟨n + 1, by omega, .lacking hmissing houter⟩
        · next habove =>
            rw [habove] at houter
            split
            · next hmade => exact ⟨n + 2, hfew, .again hmissing houter hmade⟩
            · next hlost => exact ⟨n + 2, hfew, .lost hmissing houter hlost⟩
      · next hother hrefused => exact ⟨1, by omega, .refused hrefused (.inl hother)⟩

variable {fs before after : FileSystem} {directory : WorkingDirectory} {parts : List Text}

/-- Something stands at a place where nothing stood before. -/
def Appears (before after : FileSystem) (place : Place) (node : Node) : Prop :=
  before.get? place = none ∧ after.get? place = some node

/-- What stands below a new entry is new as well. -/
theorem Appears.below {place inner : Place} {node node' : Node}
    (h : before.Appears after place node) (hwithin : inner.isWithin place = true)
    (hinner : after.get? inner = some node') : before.Appears after inner node' :=
  ⟨get?_eq_none_of_isWithin h.1 hwithin, hinner⟩

/-- The system's lookup of a path ends where the walk over its components does. -/
theorem ends_of_locate_text {path : Path} (hnormal : path.IsNormal) {place : Place}
    (h : fs.locate .follow directory path.text = .found place) :
    ∃ anchored, fs.Ends ⟨directory.startOf path.text, path.parts, isAbsolute path.text⟩
      (.ofPlace place) anchored := by
  obtain ⟨anchored, hends⟩ := ends_of_locate h
  have hparts : (Text.fields Text.slash path.text).filter Path.keeps = path.parts :=
    congrArg Path.parts (Path.ofText_text hnormal)
  rw [Walker.start, ← ends_filter, hparts] at hends
  exact ⟨anchored, hends⟩

/-- Below a place without links, names lead down. -/
theorem isWithin_of_ends {place goal : Place} {anchored anchored' : Bool}
    (hlinks : ∀ inner node, inner.isWithin place = true → fs.get? inner = some node →
      node.isLink = false)
    (hup : Path.up ∉ parts)
    (hends : fs.Ends ⟨.ofPlace place, parts, anchored⟩ (.ofPlace goal) anchored') :
    goal.isWithin place = true := by
  induction parts generalizing place with
  | nil =>
      obtain ⟨n, hadvances⟩ := hends
      obtain ⟨-, hsame⟩ := hadvances.of_nil
      obtain rfl : goal = place := congrArg (fun walker => walker.spot.place) hsame
      exact Place.isWithin_self goal
  | cons part rest ih =>
      simp only [List.mem_cons, not_or] at hup
      obtain ⟨n, hadvances⟩ := hends
      cases hadvances with
      | step hnext hrest =>
          rcases advance_cases hnext with
            ⟨-, rfl⟩ | ⟨hpart, -⟩ | ⟨start, name, node, hspot, rfl, hnode⟩
          · exact ih hlinks hup.2 ⟨_, hrest⟩
          · exact absurd hpart.symm hup.1
          · obtain rfl : place = start := congrArg WorkingDirectory.place hspot
            have hbelow := Place.isWithin_below name place
            rw [advance_enter hnode (hlinks _ _ hbelow hnode), Option.some.injEq] at hnext
            subst hnext
            have hgoal : goal.isWithin (name :: place) = true := by
              refine ih (fun inner node hinner => ?_) hup.2 ⟨_, hrest⟩
              exact hlinks inner node (Place.isWithin_trans hinner hbelow)
            exact Place.isWithin_trans hgoal hbelow

/-- What has been made of the directories along a path. -/
structure Makes (directory : WorkingDirectory) (path : Path) (before after : FileSystem) :
    Prop where
  kept : ∀ place node, before.get? place = some node → after.get? place = some node
  /-- A new entry is a directory, and there is nothing in it that is not new. -/
  appears : ∀ place node, before.Appears after place node → node = .directory ∧
    ∀ inner node', inner.isWithin place = true → after.get? inner = some node' →
      before.Appears after inner node'
  /-- It is what some ancestor leads to. -/
  reached : ∀ place node, before.Appears after place node → ∃ above : Path,
    above.Begins path ∧ after.locate .follow directory above.text = .found place
  /-- A path that does not go up makes one chain of directories. -/
  chain : path.IsNormal → Path.up ∉ path.parts → ∀ place node place' node',
    before.Appears after place node → before.Appears after place' node' →
    place.isWithin place' = true ∨ place'.isWithin place = true

theorem Furnished.appears {path : Path} (h : Furnished directory path before after)
    {place : Place} {node : Node} (hnew : before.Appears after place node) :
    node = .directory ∧ ∃ above : Path, above.Begins path ∧
      after.locate .follow directory above.text = .found place := by
  obtain ⟨hdirectory, above, habove, hfound⟩ := h.added place node hnew.1 hnew.2
  exact ⟨hdirectory, above, habove, hfound after (Extends.refl after)⟩

/-- Of two beginnings of a path, the longer one leads on from where the shorter one leads, and
down, if it leads to something new. -/
theorem Furnished.isWithin_of_prefix {path above below : Path}
    (h : Furnished directory path before after) (hnormal : below.IsNormal)
    (hup : Path.up ∉ below.parts) (hbegins : above.Begins below) {place goal : Place}
    {node : Node} (hnew : before.Appears after place node)
    (habove : after.locate .follow directory above.text = .found place)
    (hbelow : after.locate .follow directory below.text = .found goal) :
    goal.isWithin place = true := by
  have hnormal' := hnormal.of_begins hbegins
  obtain ⟨anchored, hends⟩ := ends_of_locate_text hnormal' habove
  obtain ⟨anchored', hends'⟩ := ends_of_locate_text hnormal hbelow
  obtain ⟨hroot, rest, hparts⟩ := hbegins
  have habsolute : isAbsolute above.text = isAbsolute below.text := by
    rw [Bool.eq_iff_iff, Path.isAbsolute_text hnormal', Path.isAbsolute_text hnormal, hroot]
  have hstart : directory.startOf above.text = directory.startOf below.text := by
    rw [WorkingDirectory.startOf, WorkingDirectory.startOf, habsolute]
  rw [← hparts, ends_append, ← hstart, ← habsolute] at hends'
  obtain ⟨mid, between, ⟨n, hfirst⟩, hlast⟩ := hends'
  obtain ⟨m, hadvances⟩ := hends
  obtain ⟨-, rfl, rfl⟩ := hadvances.unique hfirst
  refine isWithin_of_ends (fun inner node' hinner hnode' => ?_) (fun hmem => ?_) hlast
  · rw [(h.appears (hnew.below hinner hnode')).1]
    rfl
  · exact hup (hparts ▸ List.mem_append_right _ hmem)

theorem Furnished.makes {path : Path} (h : Furnished directory path before after) :
    Makes directory path before after where
  kept := h.grows
  appears place node hnew :=
    ⟨(h.appears hnew).1, fun _ _ hwithin hinner => hnew.below hwithin hinner⟩
  reached place node hnew := (h.appears hnew).2
  chain := by
    intro hnormal hup place node place' node' hnew hnew'
    obtain ⟨-, above, habove, hfound⟩ := h.appears hnew
    obtain ⟨-, above', habove', hfound'⟩ := h.appears hnew'
    have hstays : ∀ {ancestor : Path}, ancestor.Begins path → Path.up ∉ ancestor.parts :=
      fun hbegins hmem => hup (hbegins.2.subset hmem)
    rcases List.prefix_or_prefix_of_prefix habove.2 habove'.2 with hprefix | hprefix
    · exact .inr <| h.isWithin_of_prefix (hnormal.of_begins habove') (hstays habove')
        ⟨habove.1.trans habove'.1.symm, hprefix⟩ hnew hfound hfound'
    · exact .inl <| h.isWithin_of_prefix (hnormal.of_begins habove) (hstays habove)
        ⟨habove'.1.trans habove.1.symm, hprefix⟩ hnew' hfound' hfound

end FileSystem

/-- The directory for the output is made in a bounded number of attempts.  Whatever comes of
them, nothing that was there changes, and what is new are directories with nothing but new
directories in them, each of them what an ancestor of the output leads to.  After a success
the parent of the output leads to a directory, and where it did so before, nothing is made.
After a failure the generator is not started, nothing is printed, and only the files are
those that the attempts have left. -/
theorem makes_outputDirectory (machine : Machine) (header : Path) (config : GeneratorOptions)
    (generator : Text) (hclean : config.output.NulFree) (world : World) :
    ∃ after outcome,
      world.files.ensureDirectory machine.directory config.output.parent = (after, outcome) ∧
      (∃ n ≤ 2 * config.output.parent.parts.length + 1,
        FileSystem.Attempts machine.directory config.output.parent.root n world.files
          config.output.parent.parts.reverse after outcome) ∧
      FileSystem.Makes machine.directory config.output.parent world.files after ∧
      (outcome = .ok () →
        after.stat machine.directory config.output.parent.text = .ok .directory) ∧
      (world.files.stat machine.directory config.output.parent.text = .ok .directory →
        outcome = .ok () ∧ after = world.files) ∧
      ∀ refusal, outcome = .error refusal →
        (Stage.generate machine header config generator).runIn world =
          (.error (.onPath refusal.path.text refusal.reason), world.withFiles after) := by
  have hnul : config.output.parent.text.hasNul = false :=
    Text.hasNul_eq_false_iff.mpr hclean.parent.text
  obtain ⟨n, hn, hattempts⟩ := world.files.exists_attempts machine.directory
    config.output.parent.root config.output.parent.parts.reverse
  have hmakes := (FileSystem.furnished_ensureDirectory world.files machine.directory
    config.output.parent).makes
  rw [List.length_reverse] at hn
  cases hmade : world.files.ensureDirectory machine.directory config.output.parent with
  | mk after outcome =>
      rw [FileSystem.ensureDirectory] at hmade
      rw [hmade] at hattempts
      rw [FileSystem.ensureDirectory, hmade] at hmakes
      refine ⟨after, outcome, rfl, ⟨n, hn, hattempts⟩, hmakes, ?_, ?_, ?_⟩
      · rintro rfl
        exact FileSystem.stat_of_ensureDirectory hmade
      · intro hthere
        have hsame := FileSystem.ensureDirectory_of_stat hnul hthere
        rw [FileSystem.ensureDirectory, hmade, Prod.mk.injEq] at hsame
        exact ⟨hsame.2, hsame.1⟩
      · rintro refusal rfl
        have hstage := Stage.runIn_ensureDirectory machine.directory config.output.parent world
        rw [hnul, FileSystem.ensureDirectory, hmade] at hstage
        rw [Stage.generate, Stage.runIn_bind, hstage]
        rfl

namespace Blocked

/-- A file where a directory is needed. -/
def files : FileSystem :=
  FileSystem.empty.layOutAll (.ofPlace []) [.file "/plain" false []]

/-- The way to the output goes through two directories that are missing, back up, and on
through the file. -/
def options : GeneratorOptions :=
  .forOutput (.ofText "new/sub/../../plain/deep/sys.rs")

def new : Place := [⟨"new", by decide⟩]

def sub : Place := ⟨"sub", by decide⟩ :: new

end Blocked

open Blocked in
/-- The directories on the way are made before the file is met, and they stay. -/
theorem makes_outputDirectory_blocked :
    options.output.NulFree ∧ ∃ after,
      files.Appears after new .directory ∧ files.Appears after sub .directory ∧
      FileSystem.Makes Sample.machine.directory options.output.parent files after ∧
      (Stage.generate Sample.machine (.ofText "/sdk/VimbaC.h") options "bindgen").runIn
          (.initial files) =
        (.error (.onPath "new/sub/../../plain" .entryExists), (World.initial files).withFiles after)
      := by
  have hclean : options.output.NulFree := Path.nulFree_ofText (by decide)
  have hrefused : (files.ensureDirectory Sample.machine.directory options.output.parent).2 =
      .error ⟨.ofText "new/sub/../../plain", .entryExists⟩ := by
    decide +kernel
  have hnew : (files.ensureDirectory Sample.machine.directory options.output.parent).1.get? new =
      some .directory := by
    decide +kernel
  have hsub : (files.ensureDirectory Sample.machine.directory options.output.parent).1.get? sub =
      some .directory := by
    decide +kernel
  obtain ⟨after, outcome, hmade, -, hmakes, -, -, hfailed⟩ :=
    makes_outputDirectory Sample.machine (.ofText "/sdk/VimbaC.h") options "bindgen" hclean
      (.initial files)
  have hfiles : (World.initial files).files = files := rfl
  rw [hfiles] at hmade hmakes
  rw [hmade] at hrefused hnew hsub
  exact ⟨hclean, after, ⟨by decide +kernel, hnew⟩, ⟨by decide +kernel, hsub⟩, hmakes,
    hfailed _ hrefused⟩

end SdkBindings
