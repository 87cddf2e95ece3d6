import SdkBindings.Proofs.MadeDirectories
import SdkBindings.Proofs.SteadyWalk
import SdkBindings.Proofs.WalkBound

/-!
The lenient walk by spelling after directories have been made.  It goes on behind what is
missing in the same way as behind a directory, and no link is new, so it meets the same
links as before.  Main statement: a file that could be described is described in the same
way after directories have been made, however long the paths on the way are.
-/

namespace SdkBindings

namespace FileSystem

variable {before after : FileSystem} {directory : WorkingDirectory} {t : Text}

/-- A route from the root, or from a working directory that is there. -/
def Anchored (fs : FileSystem) (directory : WorkingDirectory) (route : Route) : Prop :=
  route.isRooted = true ∨ fs.get? directory.place ≠ none

/-- A route that stands at something old stood there before. -/
theorem At.of_grows (hgrows : Grows before after) {route : Route} {spot : WorkingDirectory}
    (h : after.At directory route spot) (hanchored : before.Anchored directory route)
    (hspot : before.get? spot.place ≠ none) : before.At directory route spot := by
  induction h with
  | root => exact .root
  | here => exact .here
  | @up levels spot hbelow hstands ih =>
      have hlive := hanchored.resolve_left (by simp [Route.isRooted])
      have hbelow' : before.get? spot.place ≠ none :=
        fun hnone => hlive (get?_eq_none_of_isWithin hnone hbelow.isWithin)
      refine .up (ih (.inr hlive) hbelow') ?_
      intro hremoved
      obtain ⟨node, hnode⟩ := Option.ne_none_iff_exists'.mp hbelow'
      obtain rfl := Option.some.inj ((hgrows _ _ hnode).symm.trans (hstands hremoved))
      exact hnode
  | @enter route next place node name _ hnext hnode hlink ih =>
      subst hnext
      obtain ⟨old, hold⟩ := Option.ne_none_iff_exists'.mp hspot
      obtain rfl := Option.some.inj ((hgrows _ _ hold).symm.trans hnode)
      have hparent : before.get? place = some .directory := get?_parent hold
      have hat := ih (by simpa [Anchored] using hanchored)
        (by simp [WorkingDirectory.ofPlace, hparent])
      exact .enter hat rfl hold hlink

theorem node_of_grows (h : Grows before after) {aim : Aim} {node : Node}
    (hnode : before.node aim directory t = .ok node) : after.node aim directory t = .ok node := by
  have hsame := @locate_of_extends before after h.extends aim directory t
  rcases node_eq_ok_iff.mp hnode with ⟨place, hfound, hplace⟩ | ⟨hremoved, rfl⟩
  · rw [hfound] at hsame
    exact node_eq_ok_iff.mpr (.inl ⟨place, hsame trivial, h _ _ hplace⟩)
  · rw [hremoved] at hsame
    exact node_eq_ok_iff.mpr (.inr ⟨hsame trivial, rfl⟩)

theorem read_of_grows (h : Grows before after) {content : Text}
    (hread : before.read directory t = .ok content) : after.read directory t = .ok content := by
  unfold read at hread ⊢
  cases hstat : before.stat directory t with
  | error reason => simp [hstat] at hread
  | ok node =>
      have hstat' : after.stat directory t = .ok node := node_of_grows h hstat
      rw [hstat']
      rwa [hstat] at hread

/-- A directory that was made is no link. -/
theorem Furnished.link {path : Path} (h : Furnished directory path before after) {place : Place}
    {target : Target} (hnode : after.get? place = some (.link target)) :
    before.get? place = some (.link target) := by
  cases hold : before.get? place with
  | none =>
      obtain ⟨hdirectory, -⟩ := h.added place _ hold hnode
      simp at hdirectory
  | some old => rw [← h.grows _ _ hold, hnode]

theorem kept_anchored (before after : FileSystem) (directory : WorkingDirectory) :
    Canonical.Kept ⟨after.linkStat directory, false⟩
      (fun route => after.Clear directory route ∧ before.Anchored directory route)
      fun _ => True where
  root := ⟨(kept_clear false).root, .inl rfl⟩
  back := fun ⟨hclear, hanchored⟩ => ⟨hclear.back, by simpa [Anchored] using hanchored⟩
  enter := fun ⟨hclear, hanchored⟩ hplain hkeeps hup hslash hlook hlink =>
    ⟨(kept_clear false).enter hclear hplain hkeeps hup hslash hlook hlink,
      by simpa [Anchored] using hanchored⟩
  missing := fun hlenient ⟨hclear, hanchored⟩ hplain hkeeps hup hslash hlook =>
    ⟨(kept_clear false).missing hlenient hclear hplain hkeeps hup hslash hlook,
      by simpa [Anchored] using hanchored⟩
  spelled := fun _ _ _ => trivial
  append := fun _ _ => trivial
  fields := fun _ _ => trivial
  target := fun _ => trivial

/-- Where directories were made, no other links are met. -/
theorem alike_of_furnished {path : Path} (h : Furnished directory path before after) :
    Canonical.Alike ⟨after.linkStat directory, false⟩ ⟨before.linkStat directory, false⟩
      fun route => after.Clear directory route ∧ before.Anchored directory route where
  strict := rfl
  look := by
    rintro route part ⟨hclear, hanchored⟩ hkeeps hup hslash
    have hfound : ∀ {node}, before.linkStat directory (route.enter part).text = .ok node →
        after.linkStat directory (route.enter part).text = .ok node := node_of_grows h.grows
    by_cases hlink : ∃ target,
        after.linkStat directory (route.enter part).text = .ok (.link target)
    · obtain ⟨target, hlook⟩ := hlink
      obtain ⟨place, name, hat, rfl, hnode, -⟩ :=
        exists_link_of_clear hclear hkeeps hup hslash hlook
      have hold := h.link hnode
      have hparent : before.get? place = some .directory := get?_parent hold
      have hat' := hat.of_grows h.grows hanchored (by simp [WorkingDirectory.ofPlace, hparent])
      exact .inl ((linkStat_enter hat' hold (length_le_of_node hlook)).trans hlook.symm)
    · refine .inr ⟨rfl, fun target => ⟨fun hlook => hlink ⟨target, hlook⟩, fun hlook => ?_⟩⟩
      exact hlink ⟨target, hfound hlook⟩

/-- After directories have been made, a text has the same lenient canonical path. -/
theorem resolve_of_furnished {path : Path} (h : Furnished directory path before after)
    (hstart : isAbsolute t = true ∨ before.get? directory.place ≠ none) :
    after.resolve false directory t = before.resolve false directory t := by
  have hroute : after.Clear directory ((Route.fromHere 0 []).startOf t) ∧
      before.Anchored directory ((Route.fromHere 0 []).startOf t) := by
    unfold Route.startOf
    split
    · exact ⟨.root, .inl rfl⟩
    · next hrelative => exact ⟨.here 0, .inr (hstart.resolve_left hrelative)⟩
  -- In a room that is large enough for both file systems, the walks are the same.
  have hafter := after.journey_of_nestingBound_le directory false t
    (Nat.le_max_left after.nestingBound before.nestingBound)
  have hbefore := before.journey_of_nestingBound_le directory false t
    (Nat.le_max_right after.nestingBound before.nestingBound)
  have hroom : ∀ nested, Canonical.Nested ⟨after.linkStat directory, false⟩ (fun route =>
      after.Clear directory route ∧ before.Anchored directory route) nested →
      nested.length < ([] : List Route).length + max after.nestingBound before.nestingBound := by
    intro nested hnested
    have hbound := length_lt_nestingBound (hnested.mono fun _ hgood => hgood.1)
    exact Nat.lt_of_lt_of_le hbound (Nat.le_trans (Nat.le_max_left _ _) (Nat.le_add_left _ _))
  have hsame := Canonical.journey_agrees (kept_anchored before after directory)
    (alike_of_furnished h) hroom hroom hroute trivial Canonical.nested_nil Canonical.remembers_nil
  rw [resolve, resolve, resolveWithin, resolveWithin, Canonical.follow, Canonical.follow, ← hafter,
    ← hbefore, hsame]

/-- After directories have been made, a file is described in the same way. -/
theorem describe_of_furnished {path above : Path} (h : Furnished directory above before after)
    (hstart : isAbsolute path.text = true ∨ before.get? directory.place ≠ none)
    {written : WrittenFile} (hdescribe : before.describe directory path = .ok written) :
    after.describe directory path = .ok written := by
  obtain ⟨resolved, content, hcanonical, hread, rfl⟩ := describe_eq_ok_iff.mp hdescribe
  obtain ⟨hresolve, hclean, -⟩ := canonicalPath_eq_ok_iff.mp hcanonical
  have hread' := read_of_grows h.grows hread
  have hstat : after.stat directory resolved.text ≠ .error .tooManyLinks := by
    intro hstat
    simp [read, hstat] at hread'
  exact describe_eq_ok_iff.mpr ⟨resolved, content,
    canonicalPath_eq_ok_iff.mpr ⟨(resolve_of_furnished h hstart).trans hresolve, hclean, hstat⟩,
    hread', rfl⟩

/-- A lookup that begins at nothing comes to nothing. -/
theorem climb_of_none {fs : FileSystem} (aim : Aim) {place : Place} (hplace : fs.get? place = none)
    (levels : Nat) (steps : List Step) :
    fs.climb aim place levels steps = .found place ∨ fs.climb aim place levels steps = .removed ∨
      ∃ reason, fs.climb aim place levels steps = .failed reason := by
  induction steps generalizing levels with
  | nil =>
      cases levels with
      | zero => exact .inl rfl
      | succ levels => exact .inr (.inl rfl)
  | cons step rest ih =>
      cases levels with
      | zero => exact .inr (.inr (fs.climb_of_not_directory aim (by simp [hplace]) step rest))
      | succ levels =>
          cases step with
          | stay | close => exact ih (levels + 1)
          | up => exact ih levels
          | enter | overlong => exact .inr (.inr ⟨_, rfl⟩)

/-- What is written under a relative path is written from a working directory that is
there. -/
theorem get?_of_write {content : Text} (h : before.write directory t content = .ok after) :
    isAbsolute t = true ∨ before.get? directory.place ≠ none := by
  by_cases habsolute : isAbsolute t = true
  · exact .inl habsolute
  · refine .inr fun hnone => ?_
    have hlanding : before.locate .make directory t = .found directory.place ∨
        before.locate .make directory t = .removed ∨
          ∃ reason, before.locate .make directory t = .failed reason := by
      unfold locate
      split
      · exact .inr (.inr ⟨_, rfl⟩)
      split
      · exact .inr (.inr ⟨_, rfl⟩)
      exact climb_of_none .make hnone _ _
    rcases hlanding with hlanding | hlanding | ⟨reason, hlanding⟩ <;>
      simp [write, hlanding, hnone] at h

end FileSystem

end SdkBindings
