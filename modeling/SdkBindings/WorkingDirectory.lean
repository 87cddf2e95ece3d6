import SdkBindings.FileSystem

/-!
The directory in which a program works.  It is a directory that was entered once,
and not a place to be looked up again.  When it is taken away, alone or together
with directories above it, the program goes on working in it: it is empty and has
no path any more, nothing can be made in it, and two dots still lead up to what it
was in.
-/

namespace SdkBindings

/-- The directory in which a program works. -/
structure WorkingDirectory where
  /-- The place of the directory, or of the nearest one above it that has not been
  taken away. -/
  place : Place
  /-- How many directories below that place have been taken away on the way to this
  one. -/
  removedLevels : Nat
  deriving DecidableEq, Repr

namespace WorkingDirectory

/-- The directory at a place, there to be worked in. -/
def ofPlace (place : Place) : WorkingDirectory where
  place := place
  removedLevels := 0

/-- The absolute path of the directory, if it still has one. -/
def path? (directory : WorkingDirectory) : Option Path :=
  if directory.removedLevels = 0 then some directory.place.path else none

/-- The same directory after what is at or below a place has been taken away.  The
root stays. -/
def without (directory : WorkingDirectory) (removed : Place) : WorkingDirectory :=
  if directory.place.isWithin removed then {
    place := removed.tail
    removedLevels :=
      directory.removedLevels + (directory.place.length - removed.tail.length) }
  else directory

@[simp] theorem path?_ofPlace (place : Place) : (ofPlace place).path? = some place.path := rfl

/-- What is taken away elsewhere does not matter. -/
theorem without_of_not_isWithin {directory : WorkingDirectory} {removed : Place}
    (h : ¬ directory.place.isWithin removed = true) : directory.without removed = directory := by
  simp [without, h]

/-- A directory that was taken away, or lies below one, has no path. -/
theorem path?_without {directory : WorkingDirectory} {name : Name} {parent : Place}
    (h : directory.place.isWithin (name :: parent) = true) :
    (directory.without (name :: parent)).path? = none := by
  obtain ⟨names, hplace⟩ := Place.isWithin_iff.mp h
  have hlength : parent.length < directory.place.length := by
    simp only [hplace, List.length_append, List.length_cons]
    omega
  simp only [without, h, if_true, path?, List.tail_cons]
  rw [if_neg (by omega)]

/-- Two dots lead to the root in as many steps as before. -/
theorem depth_without (directory : WorkingDirectory) (removed : Place) :
    (directory.without removed).place.length + (directory.without removed).removedLevels =
      directory.place.length + directory.removedLevels := by
  unfold without
  split
  · next h =>
    obtain ⟨names, hplace⟩ := Place.isWithin_iff.mp h
    simp only [hplace, List.length_append, List.length_tail]
    omega
  · rfl

end WorkingDirectory

end SdkBindings
