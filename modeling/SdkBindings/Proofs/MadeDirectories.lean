import SdkBindings.Proofs.Answered
import SdkBindings.Proofs.Lookups

/-!
Making a directory with its missing ancestors.  Main statements: nothing that was there
changes, and what is new are directories to which the path or its beginning leads, also
when the making fails half-way; after a success the path leads to a directory; and where
it led to one before, nothing is made.
-/

namespace SdkBindings

/-- A path, or what is left of it without some components at its end. -/
def Path.Begins (above path : Path) : Prop :=
  above.root = path.root ∧ above.parts <+: path.parts

namespace FileSystem

variable {fs before mid after : FileSystem} {directory : WorkingDirectory} {t : Text} {path : Path}

theorem makeDirectory_ok (h : before.makeDirectory directory t = .ok after) :
    ∃ parent name, before.locate .keep directory t = .vacant parent name ∧
      after = before.create (name :: parent) .directory := by
  unfold makeDirectory at h
  cases hlanding : before.locate .keep directory t with
  | found | removed | failed => simp [hlanding] at h
  | vacant parent name =>
      simp only [hlanding, Except.ok.injEq] at h
      exact ⟨parent, name, rfl, h.symm⟩

theorem ensureLast_ok (h : before.ensureLast directory t = .ok after) :
    before.makeDirectory directory t = .ok after ∨
      after = before ∧ before.asks directory t Node.isDirectory = .ok true := by
  unfold ensureLast at h
  split at h
  · next made hmade => exact .inl (Except.ok.inj h ▸ hmade)
  · simp at h
  · split at h
    · next hdirectory => exact .inr ⟨(Except.ok.inj h).symm, hdirectory⟩
    · simp at h
    · simp at h

/-- The directories on the way along a path have been made, some or all of them. -/
structure Furnished (directory : WorkingDirectory) (path : Path) (before after : FileSystem) :
    Prop where
  grows : Grows before after
  /-- A new entry is a directory, and the path begins with a path to it. -/
  added : ∀ place node, before.get? place = none → after.get? place = some node →
    node = .directory ∧ ∃ above : Path, above.Begins path ∧
      ∀ final, Extends after final → final.locate .follow directory above.text = .found place

theorem Furnished.refl (directory : WorkingDirectory) (path : Path) (fs : FileSystem) :
    Furnished directory path fs fs where
  grows := Grows.refl fs
  added := by
    intro place node hnone hnode
    simp [hnone] at hnode

/-- One more directory on the way. -/
theorem Furnished.make (h : Furnished directory path before mid) {above : Path}
    (habove : above.Begins path) (hmade : mid.makeDirectory directory above.text = .ok after) :
    Furnished directory path before after := by
  have hgrows := grows_of_makeDirectory hmade
  obtain ⟨parent, name, hvacant, rfl⟩ := makeDirectory_ok hmade
  obtain ⟨hparent, hfree⟩ := vacant_of_locate hvacant
  refine ⟨h.grows.trans hgrows, ?_⟩
  intro place node hnone hnode
  rw [get?_create hparent hfree] at hnode
  split at hnode
  · next hplace =>
      obtain rfl := hplace
      refine ⟨(Option.some.inj hnode).symm, above, habove, ?_⟩
      intro final hfinal
      have hnew : final.get? (name :: parent) = some .directory := by
        apply hfinal.directory
        rw [get?_create hparent hfree, if_pos rfl]
      exact locate_made_of_vacant (hgrows.extends.trans hfinal) hnew hvacant
  · obtain ⟨hdirectory, earlier, hearlier, hfound⟩ := h.added place node hnone hnode
    exact ⟨hdirectory, earlier, hearlier, fun final hfinal =>
      hfound final (hgrows.extends.trans hfinal)⟩

/-- What holds at the start and after each directory that is made on the way holds in the
end, whether all of them could be made or not. -/
theorem ensureParts_induction {root : PathRoot} {motive : FileSystem → Prop} (parts : List Text)
    (hmake : ∀ outer fs made, outer <:+ parts →
      fs.makeDirectory directory (Path.mk root outer.reverse).text = .ok made →
      motive fs → motive made)
    (hstart : motive fs) : motive (fs.ensureParts directory root parts).1 := by
  have hlast : ∀ outer fs made, outer <:+ parts →
      fs.ensureLast directory (Path.mk root outer.reverse).text = .ok made →
      motive fs → motive made := by
    intro outer fs made hsuffix hensured hfs
    rcases ensureLast_ok hensured with hmade | ⟨rfl, -⟩
    · exact hmake outer fs made hsuffix hmade hfs
    · exact hfs
  -- From here on only `ensureLast` counts, for the last name first and then outwards.
  clear hmake
  induction parts generalizing fs with
  | nil =>
      unfold ensureParts
      simp only
      split
      · next made hmade => exact hlast [] fs made List.suffix_rfl hmade hstart
      · exact hstart
  | cons part outer ih =>
      have houter : motive (fs.ensureParts directory root outer).1 :=
        ih hstart fun inner fs made hsuffix =>
          hlast inner fs made (hsuffix.trans (List.suffix_cons part outer))
      unfold ensureParts
      simp only
      split
      · next made hmade => exact hlast _ fs made List.suffix_rfl hmade hstart
      · split
        · next above refusal habove => exact habove ▸ houter
        · next above habove =>
            rw [habove] at houter
            split
            · next made hmade => exact hlast _ above made List.suffix_rfl hmade houter
            · exact houter
      · exact hstart

/-- Only directories on the way are made, whatever comes of it. -/
theorem furnished_ensureDirectory (fs : FileSystem) (directory : WorkingDirectory) (path : Path) :
    Furnished directory path fs (fs.ensureDirectory directory path).1 := by
  apply ensureParts_induction path.parts.reverse ?_ (Furnished.refl directory path fs)
  intro outer mid made hsuffix hmade hmid
  have hbegins : (Path.mk path.root outer.reverse).Begins path :=
    ⟨rfl, by simpa using List.reverse_prefix.mpr hsuffix⟩
  exact hmid.make hbegins hmade

theorem stat_of_ensureLast (h : before.ensureLast directory t = .ok after) :
    after.stat directory t = .ok .directory := by
  rcases ensureLast_ok h with hmade | ⟨rfl, hasks⟩
  · have hgrows := grows_of_makeDirectory hmade
    obtain ⟨parent, name, hvacant, rfl⟩ := makeDirectory_ok hmade
    obtain ⟨hparent, hfree⟩ := vacant_of_locate hvacant
    have hnew : (before.create (name :: parent) .directory).get? (name :: parent) =
        some .directory := by
      rw [get?_create hparent hfree, if_pos rfl]
    rw [stat, node, locate_made_of_vacant hgrows.extends hnew hvacant]
    simp only [hnew]
  · obtain ⟨-, node, hstat, hdirectory⟩ := asks_eq_true_iff.mp hasks
    cases node with
    | directory => exact hstat
    | file | link | pipe | sink | fullDevice => simp [Node.isDirectory] at hdirectory

/-- After a success the path leads to a directory. -/
theorem stat_of_ensureDirectory (h : before.ensureDirectory directory path = (after, .ok ())) :
    after.stat directory path.text = .ok .directory := by
  obtain ⟨root, parts⟩ := path
  unfold ensureDirectory at h
  generalize hreverse : parts.reverse = reversed at h
  obtain rfl := List.reverse_eq_iff.mp hreverse
  cases reversed with
  | nil =>
      unfold ensureParts at h
      simp only at h
      split at h
      · next made hmade =>
          rw [Prod.mk.injEq] at h
          exact h.1 ▸ stat_of_ensureLast hmade
      · simp at h
  | cons part outer =>
      unfold ensureParts at h
      simp only at h
      split at h
      · next made hmade =>
          rw [Prod.mk.injEq] at h
          exact h.1 ▸ stat_of_ensureLast hmade
      · split at h
        · simp at h
        · split at h
          · next made hmade =>
              rw [Prod.mk.injEq] at h
              exact h.1 ▸ stat_of_ensureLast hmade
          · simp at h
      · simp at h

theorem ensureLast_of_stat (hnul : t.hasNul = false) (h : fs.stat directory t = .ok .directory) :
    fs.ensureLast directory t = .ok fs := by
  have hmake : fs.makeDirectory directory t = .error .entryExists := by
    have hfollow : fs.makeDirectory directory t = .error .entryExists ∨
        fs.locate .keep directory t = fs.locate .follow directory t := by
      rcases fs.locate_keep_eq_or_found directory t with hsame | ⟨goal, hfound⟩
      · exact .inr hsame
      · exact .inl (by simp [makeDirectory, hfound])
    rcases hfollow with hexists | hsame
    · exact hexists
    · rw [stat, node] at h
      rw [makeDirectory, hsame]
      cases hlanding : fs.locate .follow directory t with
      | found | removed => rfl
      | vacant | failed => simp [hlanding] at h
  have hasks : fs.asks directory t Node.isDirectory = .ok true :=
    asks_eq_true_iff.mpr ⟨hnul, .directory, h, rfl⟩
  simp [ensureLast, hmake, hasks]

/-- Where the path leads to a directory, nothing is made. -/
theorem ensureDirectory_of_stat (hnul : path.text.hasNul = false)
    (h : fs.stat directory path.text = .ok .directory) :
    fs.ensureDirectory directory path = (fs, .ok ()) := by
  have hlast := ensureLast_of_stat hnul h
  obtain ⟨root, parts⟩ := path
  unfold ensureDirectory
  generalize hreverse : parts.reverse = reversed
  obtain rfl := List.reverse_eq_iff.mp hreverse
  cases reversed with
  | nil =>
      unfold ensureParts
      rw [List.reverse_nil] at hlast
      simp only [hlast]
  | cons part outer =>
      unfold ensureParts
      simp only [hlast]

end FileSystem

end SdkBindings
