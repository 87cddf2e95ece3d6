import SdkBindings.Proofs.MadeDirectories
import SdkBindings.Proofs.ProducedFiles

/-!
Writing again what was written.  A place is settled if there is no doubt about its node in
the list of entries.  Main statements: what was written is settled and stays so while other
places change, and writing the same to a settled file leaves the file system as it is, down
to the list of entries.
-/

namespace SdkBindings

namespace FileSystem

/-- Every entry that was made for a place is the node that stands there. -/
def Settled (fs : FileSystem) (place : Place) (node : Node) : Prop :=
  fs.get? place = some node ∧ ∀ entry ∈ fs.entries, entry.1 = place → entry.2 = node

variable {fs before after final : FileSystem} {directory : WorkingDirectory} {t content : Text}
  {place : Place} {node : Node}

theorem Settled.replace_eq (h : fs.Settled place node) : fs.replace place node = fs := by
  obtain ⟨entries⟩ := fs
  rw [replace, FileSystem.mk.injEq]
  have hsame : ∀ entry ∈ entries, (if entry.1 = place then (place, node) else entry) = id entry := by
    intro entry hentry
    split
    · next hplace => exact Prod.ext hplace.symm (h.2 entry hentry hplace).symm
    · rfl
  rw [List.map_congr_left hsame, List.map_id]

theorem settled_create {name : Name} {parent : Place}
    (hparent : fs.get? parent = some .directory) (hfree : fs.get? (name :: parent) = none) :
    (fs.create (name :: parent) node).Settled (name :: parent) node := by
  refine ⟨by rw [get?_create hparent hfree, if_pos rfl], ?_⟩
  intro entry hentry hplace
  rw [create, List.mem_append, List.mem_singleton] at hentry
  rcases hentry with hold | rfl
  · simp only [remove, List.mem_filter, hplace, Place.isWithin_self] at hold
    simp at hold
  · rfl

/-- A new entry elsewhere. -/
theorem Settled.create (h : fs.Settled place node) {name : Name} {parent : Place} {new : Node}
    (hparent : fs.get? parent = some .directory) (hfree : fs.get? (name :: parent) = none) :
    (fs.create (name :: parent) new).Settled place node := by
  have hne : place ≠ name :: parent := by
    rintro rfl
    rw [h.1] at hfree
    simp at hfree
  refine ⟨by rw [get?_create hparent hfree, if_neg hne, h.1], ?_⟩
  intro entry hentry hplace
  rw [FileSystem.create, List.mem_append, List.mem_singleton] at hentry
  rcases hentry with hold | rfl
  · exact h.2 entry (List.mem_filter.mp hold).1 hplace
  · exact absurd hplace.symm hne

theorem settled_overwrite {executable : Bool} {old : Text}
    (hold : fs.get? place = some (.file executable old)) :
    (fs.replace place (.file executable content)).Settled place (.file executable content) := by
  refine ⟨by rw [get?_overwrite hold, if_pos rfl], ?_⟩
  intro entry hentry hplace
  obtain ⟨first, -, rfl⟩ := List.mem_map.mp hentry
  by_cases hfirst : first.1 = place
  · rw [if_pos hfirst]
  · rw [if_neg hfirst] at hplace
    exact absurd hplace hfirst

/-- Another content elsewhere. -/
theorem Settled.overwrite (h : fs.Settled place node) {other : Place} (hne : place ≠ other)
    {executable : Bool} {old : Text} (hold : fs.get? other = some (.file executable old)) :
    (fs.replace other (.file executable content)).Settled place node := by
  refine ⟨by rw [get?_overwrite hold, if_neg hne, h.1], ?_⟩
  intro entry hentry hplace
  obtain ⟨first, hmem, rfl⟩ := List.mem_map.mp hentry
  by_cases hfirst : first.1 = other
  · rw [if_pos hfirst] at hplace
    exact absurd hplace.symm hne
  · rw [if_neg hfirst] at hplace ⊢
    exact h.2 first hmem hplace

theorem Opens.unique {other : Place} (h : fs.Opens directory t place)
    (h' : fs.Opens directory t other) : place = other := by
  unfold Opens at h h'
  cases hlanding : fs.locate .make directory t with
  | failed | removed => simp [hlanding, Landing.LandsAt] at h
  | vacant parent name =>
      rw [hlanding] at h h'
      exact h.2.symm.trans h'.2
  | found opened =>
      rw [hlanding] at h h'
      exact Eq.trans (Eq.symm h) h'

/-- What was written to a file is settled. -/
theorem settled_of_write (h : before.write directory t content = .ok after)
    (hopens : before.Opens directory t place)
    (hfile : ∃ executable old, after.get? place = some (.file executable old)) :
    ∃ executable, after.Settled place (.file executable content) := by
  cases wrote_of_write h with
  | made hopened hparent hfree =>
      obtain rfl := hopens.unique hopened
      exact ⟨false, settled_create hparent hfree⟩
  | overwrote hopened hold =>
      obtain rfl := hopens.unique hopened
      exact ⟨_, settled_overwrite hold⟩
  | swallowed hfound hnode hnofile =>
      obtain ⟨executable, old, hfile⟩ := hfile
      rw [Opens, hfound] at hopens
      obtain rfl : _ = place := hopens
      rw [hfile, Option.some.injEq] at hnode
      subst hnode
      simp [Node.isFile] at hnofile

/-- A writing settles nothing anew but what it opens. -/
theorem Settled.write (h : before.Settled place node)
    (hwrite : before.write directory t content = .ok after)
    (hother : ¬ before.Opens directory t place) : after.Settled place node := by
  cases wrote_of_write hwrite with
  | made _ hparent hfree => exact h.create hparent hfree
  | overwrote hopens hold =>
      refine h.overwrite ?_ hold
      rintro rfl
      exact hother hopens
  | swallowed => exact h

/-- Directories are made elsewhere. -/
theorem Settled.ensureDirectory (h : fs.Settled place node) (directory : WorkingDirectory)
    (path : Path) : (fs.ensureDirectory directory path).1.Settled place node := by
  refine ensureParts_induction (motive := fun mid => mid.Settled place node)
    path.parts.reverse ?_ h
  intro outer mid made _ hmade hmid
  obtain ⟨parent, name, hvacant, rfl⟩ := makeDirectory_ok hmade
  obtain ⟨hparent, hfree⟩ := vacant_of_locate hvacant
  exact hmid.create hparent hfree

theorem write_of_settled {executable : Bool}
    (hlanding : fs.locate .make directory t = .found place)
    (hsettled : fs.Settled place (.file executable content)) :
    fs.write directory t content = .ok fs := by
  simp only [write, hlanding, hsettled.1, hsettled.replace_eq]

/-- What was written is written again without a trace, if it is still settled. -/
theorem write_again (hwrite : before.write directory t content = .ok after)
    (hextends : Extends after final)
    (hfound : final.locate .follow directory t = .found place) {executable : Bool}
    (hsettled : final.Settled place (.file executable content)) :
    final.write directory t content = .ok final := by
  have hfinal := (extends_of_write hwrite).trans hextends
  obtain ⟨hopens, -, -, -⟩ := holds_of_write hwrite hextends hfound ⟨_, _, hsettled.1⟩
  have hlanding : final.locate .make directory t = .found place :=
    locate_lands_of_extends hfinal (fun _ => ⟨_, hsettled.1, rfl⟩) (by decide) (.inr rfl) hopens
  exact write_of_settled hlanding hsettled

/-- What was written is written again without a trace after directories have been made. -/
theorem write_of_ensureDirectory {path : Path}
    (hwrite : before.write directory t content = .ok after)
    (hmade : after.ensureDirectory directory path = (final, .ok ())) :
    final.write directory t content = .ok final := by
  have hgrows := grows_of_ensureDirectory hmade
  rcases write_ok hwrite with ⟨place, _, hopens, hnode, -, hextends⟩ |
    ⟨rfl, place, node, hlanding, hnode, hnofile⟩
  · obtain ⟨executable, hsettled⟩ := settled_of_write hwrite hopens ⟨_, _, hnode⟩
    have hsettled' := hsettled.ensureDirectory directory path
    rw [hmade] at hsettled'
    have hfound := locate_of_opens (hextends.trans hgrows.extends) hopens hsettled'.1 rfl
    exact write_again hwrite hgrows.extends hfound hsettled'
  -- The bytes were swallowed, and are swallowed again.
  · have hlanding' : final.locate .make directory t = .found place := by
      rw [locate_of_extends hgrows.extends (by rw [hlanding]; trivial), hlanding]
    unfold write at hwrite ⊢
    simp only [hlanding, hnode] at hwrite
    simp only [hlanding', hgrows _ _ hnode]
    cases node with
    | file => simp [Node.isFile] at hnofile
    | directory => simp at hwrite
    | fullDevice =>
        by_cases hempty : content = []
        · simp only [hempty, ↓reduceIte]
        · simp [hempty] at hwrite
    | link | pipe | sink => rfl

end FileSystem

variable {execution : Execution} {directory : WorkingDirectory} {fs : FileSystem} {last : Text}
  {place : Place}

/-- What a program writes is written again without a trace. -/
theorem Execution.emitted_again (hlast : execution.arguments.getLast? = some last)
    (hfound : (execution.emitted directory fs).locate .follow directory last = .found place)
    (hfile : ∃ executable old, (execution.emitted directory fs).get? place =
      some (.file executable old)) :
    execution.emitted directory (execution.emitted directory fs) =
      execution.emitted directory fs := by
  rcases emitted_cases directory fs hlast with hsame | ⟨content, hemission, hwrite⟩
  · rw [hsame, hsame]
  · obtain ⟨hopens, -⟩ :=
      FileSystem.holds_of_write hwrite (FileSystem.Extends.refl _) hfound hfile
    obtain ⟨executable, hsettled⟩ := FileSystem.settled_of_write hwrite hopens hfile
    have hagain := FileSystem.write_again hwrite (FileSystem.Extends.refl _) hfound hsettled
    rw [emitted_eq hlast]
    simp only [hemission, hagain]

/-- A program settles nothing anew but the file to which its last argument leads. -/
theorem FileSystem.Settled.emitted {node : Node} (h : fs.Settled place node)
    (hlink : node.isLink = false) (hlast : execution.arguments.getLast? = some last)
    (hother : (execution.emitted directory fs).locate .follow directory last ≠ .found place) :
    (execution.emitted directory fs).Settled place node := by
  rcases Execution.emitted_cases directory fs hlast with hsame | ⟨content, -, hwrite⟩
  · rwa [hsame]
  · apply h.write hwrite
    intro hopens
    obtain ⟨node', hnode', hover⟩ := extends_of_write hwrite place node h.1
    -- A link would lead the lookup on, and another file would be opened.
    have hlink' : node'.isLink = false := by rw [hover.isLink_eq, hlink]
    exact hother (locate_of_opens (extends_of_write hwrite) hopens hnode' hlink')

end SdkBindings
