import SdkBindings.Proofs.CanonicalWalk
import SdkBindings.Proofs.Lookups

/-!
What was found is found again when entries were added and contents have changed.  Main
statements: a strict walk that ends is repeated in every extension, as a lenient walk as
well, and with it the header that is found and the description of a file that still holds
the same.
-/

namespace SdkBindings

namespace Canonical

/-- Whatever the first question finds, the second one finds, up to contents. -/
def Confirms (look look' : Text → Except Errno Node) : Prop :=
  ∀ t node, look t = .ok node → ∃ node', look' t = .ok node' ∧ node.Overwritten node'

theorem Bears.confirmed {look look' : Text → Except Errno Node} (hlook : Confirms look look')
    {route : Route} {part : Text} {bearing : Bearing} (h : Bears (Finds look) route part bearing) :
    Bears (Finds look') route part bearing := by
  cases h with
  | stay hstay => exact .stay hstay
  | up => exact .up
  | enter hkeeps hup hnul hnode hlink =>
      obtain ⟨node', hnode', hover⟩ := hlook _ _ hnode
      exact .enter hkeeps hup hnul hnode' (by rw [hover.isLink_eq, hlink])
  | link hkeeps hup hnul hnode =>
      obtain ⟨node', hnode', hover⟩ := hlook _ _ hnode
      cases hover
      exact .link hkeeps hup hnul hnode'

/-- The forgetful walk is repeated. -/
theorem Passes.confirmed {look look' : Text → Except Errno Node} (hlook : Confirms look look')
    {depth n : Nat} {route last : Route} {parts : List Text}
    (h : Passes (Finds look) depth n route parts last) :
    Passes (Finds look') depth n route parts last := by
  induction h with
  | done => exact .done
  | on hbears _ ih => exact .on (hbears.confirmed hlook) ih
  | into hbears _ _ ihtarget ih => exact .into (hbears.confirmed hlook) ihtarget ih

end Canonical

theorem Node.Overwritten.isFile_eq {before after : Node} (h : before.Overwritten after) :
    after.isFile = before.isFile := by
  cases h <;> rfl

theorem Node.Overwritten.isDirectory_eq {before after : Node} (h : before.Overwritten after) :
    after.isDirectory = before.isDirectory := by
  cases h <;> rfl

namespace FileSystem

variable {before after : FileSystem} {directory : WorkingDirectory} {t : Text}

/-- What a path leads to, it leads to in an extension. -/
theorem node_of_extends (h : Extends before after) {aim : Aim} {node : Node}
    (hnode : before.node aim directory t = .ok node) :
    ∃ node', after.node aim directory t = .ok node' ∧ node.Overwritten node' := by
  have hsame := @locate_of_extends before after h aim directory t
  rcases node_eq_ok_iff.mp hnode with ⟨place, hfound, hplace⟩ | ⟨hremoved, rfl⟩
  · rw [hfound] at hsame
    obtain ⟨node', hplace', hover⟩ := h _ _ hplace
    exact ⟨node', node_eq_ok_iff.mpr (.inl ⟨place, hsame trivial, hplace'⟩), hover⟩
  · rw [hremoved] at hsame
    exact ⟨_, node_eq_ok_iff.mpr (.inr ⟨hsame trivial, rfl⟩), .same⟩

/-- A canonical path without anything missing is canonical in an extension, be the walk strict
or lenient and however much room there was for walks inside each other. -/
theorem resolve_of_extends (h : Extends before after) {room : Nat} {path : Path}
    (hresolve : before.resolveWithin room true directory t = .ok path) (strict : Bool) :
    after.resolve strict directory t = .ok path := by
  have hlook : Canonical.Confirms (before.linkStat directory) (after.linkStat directory) :=
    fun _ _ hnode => node_of_extends h hnode
  rw [resolveWithin] at hresolve
  cases hwalked : Canonical.follow ⟨before.linkStat directory, true⟩ room (.fromHere 0 []) t [] with
  | error obstacle => simp [hwalked] at hresolve
  | ok walked =>
      obtain ⟨course, met⟩ := walked
      obtain ⟨depth, n, last, rfl, hpasses, -⟩ :=
        Canonical.retraces_journey room Canonical.recalls_nil course met hwalked
      obtain ⟨met', hreached⟩ := follow_of_passes (Canonical.reveals_finds _)
        (hpasses.confirmed hlook) (.inr (Nat.le_refl after.nestingBound)) strict fun _ _ => trivial
      rw [resolve, resolveWithin]
      simpa only [hwalked, hreached strict] using hresolve

theorem leadsTo_of_extends (h : Extends before after) {path : Path} {kind : Node → Bool}
    (hkind : ∀ node node' : Node, node.Overwritten node' → kind node' = kind node)
    (hleads : before.leadsTo directory path kind = .ok true) :
    after.leadsTo directory path kind = .ok true := by
  rw [leadsTo_eq_ok_iff, asks_eq_true_iff] at hleads ⊢
  obtain ⟨hnul, node, hstat, hnode⟩ := hleads
  obtain ⟨node', hstat', hover⟩ := node_of_extends h hstat
  exact ⟨hnul, node', hstat', (hkind _ _ hover).trans hnode⟩

/-- The header that was found is found in an extension. -/
theorem findHeader_of_extends (h : Extends before after) {includeDir header : Path}
    {headerName : Text} (hheader : before.findHeader directory includeDir headerName = .ok header) :
    after.findHeader directory includeDir headerName = .ok header := by
  rw [findHeader_eq_ok_iff] at hheader ⊢
  exact ⟨resolve_of_extends h hheader.1 true,
    leadsTo_of_extends h (fun _ _ hover => hover.isFile_eq) hheader.2⟩

/-- A file that holds the same is described in the same way in an extension. -/
theorem describe_of_extends (h : Extends before after) {path : Path} {place : Place}
    {content : Text} (hfound : before.locate .follow directory path.text = .found place)
    (hlimit : before.WithinLimit directory path.text)
    (hholds : ∃ executable, before.get? place = some (.file executable content))
    (hholds' : ∃ executable, after.get? place = some (.file executable content))
    {written : WrittenFile} (hdescribe : before.describe directory path = .ok written) :
    after.describe directory path = .ok written := by
  obtain ⟨executable, hnode⟩ := hholds
  obtain ⟨executable', hnode'⟩ := hholds'
  obtain ⟨resolved, content', hcanonical, hread, rfl⟩ := describe_eq_ok_iff.mp hdescribe
  obtain ⟨hresolve, hclean, -⟩ := canonicalPath_eq_ok_iff.mp hcanonical
  have hagain := resolve_of_extends h (resolve_strict_of_locate hfound hlimit hresolve) false
  obtain rfl := resolve_of_locate hfound hlimit hresolve
  rw [read] at hread
  cases hstat : before.stat directory place.path.text with
  | error reason => simp [hstat] at hread
  | ok node =>
      have hlength := length_le_of_node hstat
      have hfirst : before.stat directory _ = _ := stat_path hnode rfl hlength
      have hsecond : after.stat directory _ = _ := stat_path hnode' rfl hlength
      simp only [hfirst, Except.ok.injEq] at hread
      subst hread
      refine describe_eq_ok_iff.mpr ⟨place.path, content, ?_, ?_, rfl⟩
      · exact canonicalPath_eq_ok_iff.mpr ⟨hagain, hclean, by simp [hsecond]⟩
      · simp only [read, hsecond]

end FileSystem

end SdkBindings
