import SdkBindings.Path

/-!
File systems as finite lists of entries.  An entry is seen only if every place
above it is a directory, so a list with stray entries is still a file system,
and the one view of it is `get?`.  Writing and removing are described by what
they do to that view.

The file system is that of a privileged user: no lookup, no opening of a file and no
making of a directory is refused for want of a permission.  The one permission that
counts is that of a file to be executed, which such a user needs as well.
-/

namespace SdkBindings

/-- The longest name that a directory can hold. -/
def nameLimit : Nat := 255

/-- Texts that can name an entry of a directory. -/
def isName (t : Text) : Bool :=
  t ≠ [] ∧ t ≠ Path.here ∧ t ≠ Path.up ∧ Text.slash ∉ t ∧ 0 ∉ t ∧ t.length ≤ nameLimit

/-- The name of an entry in its directory. -/
structure Name where
  text : Text
  valid : isName text = true
  deriving DecidableEq, Repr

/-- Where an entry is: the names on the way to it, innermost first.  The root is
the empty place, and the directory of `name :: place` is `place`. -/
abbrev Place := List Name

/-- The longest path that the system accepts, in bytes. -/
def pathLimit : Nat := 4095

/-- Texts that a symbolic link can hold. -/
def isTarget (t : Text) : Bool :=
  t ≠ [] ∧ 0 ∉ t ∧ t.length ≤ pathLimit

/-- What a symbolic link holds. -/
structure Target where
  text : Text
  valid : isTarget text = true
  deriving DecidableEq, Repr

/-- What can stand at a place.  The sink swallows what is written to it, and the
full device has no room for it. -/
inductive Node where
  | directory
  | file (executable : Bool) (content : Text)
  | link (target : Target)
  | pipe
  | sink
  | fullDevice
  deriving DecidableEq, Repr

/-- A file system, as the entries that were made in it. -/
structure FileSystem where
  entries : List (Place × Node)
  deriving DecidableEq, Repr

namespace Place

/-- The absolute path of a place. -/
def path (place : Place) : Path where
  root := .one
  parts := (place.map Name.text).reverse

/-- Whether a place lies at or below another one. -/
def isWithin (place top : Place) : Bool :=
  top.isSuffixOf place

@[simp] theorem isWithin_self (place : Place) : place.isWithin place = true := by
  simp [isWithin]

theorem isWithin_iff {place top : Place} :
    place.isWithin top = true ↔ ∃ names, place = names ++ top := by
  simp only [isWithin, List.isSuffixOf_iff_suffix]
  exact ⟨fun ⟨names, h⟩ => ⟨names, h.symm⟩, fun ⟨names, h⟩ => ⟨names, h.symm⟩⟩

/-- Below a place, or the place itself. -/
theorem isWithin_cons {name : Name} {place top : Place} :
    isWithin (name :: place) top = true ↔ name :: place = top ∨ place.isWithin top = true := by
  simp only [isWithin, List.isSuffixOf_iff_suffix, List.suffix_cons_iff]
  exact or_congr_left eq_comm

end Place

namespace FileSystem

/-- The node of the first entry made for a place, seen or not. -/
def entryAt (fs : FileSystem) (place : Place) : Option Node :=
  (fs.entries.find? fun e => e.1 = place).map Prod.snd

/-- What stands at a place.  The root is always a directory, and there is
nothing below a place that is no directory. -/
def get? (fs : FileSystem) : Place → Option Node
  | [] => some .directory
  | name :: place =>
    match fs.get? place with
    | some .directory => fs.entryAt (name :: place)
    | _ => none

/-- The file system with another node at a place that has one. -/
def replace (fs : FileSystem) (place : Place) (node : Node) : FileSystem where
  entries := fs.entries.map fun e => if e.1 = place then (place, node) else e

/-- The file system without what is at or below a place. -/
def remove (fs : FileSystem) (place : Place) : FileSystem where
  entries := fs.entries.filter fun e => !e.1.isWithin place

/-- The file system with a new entry at a place that has none.  Nothing is below
it, whatever the list of entries held. -/
def create (fs : FileSystem) (place : Place) (node : Node) : FileSystem where
  entries := (fs.remove place).entries ++ [(place, node)]

/-- How many symbolic links there are. -/
def linkCount (fs : FileSystem) : Nat :=
  fs.entries.countP fun e => match e.2 with
    | .link _ => true
    | _ => false

@[simp] theorem get?_root (fs : FileSystem) : fs.get? [] = some .directory := rfl

theorem get?_cons {fs : FileSystem} {name : Name} {place : Place}
    (h : fs.get? place = some .directory) :
    fs.get? (name :: place) = fs.entryAt (name :: place) := by
  simp [get?, h]

/-- Whatever stands at a place stands in a directory. -/
theorem get?_parent {fs : FileSystem} {name : Name} {place : Place} {node : Node}
    (h : fs.get? (name :: place) = some node) : fs.get? place = some .directory := by
  simp only [get?] at h
  split at h
  · assumption
  · simp at h

theorem entryAt_replace (fs : FileSystem) (place q : Place) (node : Node) :
    (fs.replace place node).entryAt q =
      if q = place then (fs.entryAt place).map fun _ => node else fs.entryAt q := by
  obtain ⟨entries⟩ := fs
  simp only [entryAt, replace]
  induction entries with
  | nil => simp
  | cons e rest ih =>
    by_cases hp : e.1 = place
    · by_cases hq : q = place
      · subst hq; simp [hp]
      · have : ¬ place = q := fun h => hq h.symm
        simp_all
    · by_cases hq : q = place
      · subst hq; simp_all
      · simp_all [List.find?_cons]
        split <;> simp_all

theorem entryAt_remove (fs : FileSystem) (place q : Place) :
    (fs.remove place).entryAt q = if q.isWithin place then none else fs.entryAt q := by
  obtain ⟨entries⟩ := fs
  simp only [entryAt, remove]
  induction entries with
  | nil => simp
  | cons e rest ih =>
    by_cases he : e.1 = q
    · subst he
      by_cases hw : e.1.isWithin place
      · simp only [hw, if_true] at ih ⊢
        simpa [List.filter_cons, hw] using ih
      · simp [hw]
    · by_cases hw : e.1.isWithin place <;> simp_all

theorem entryAt_create (fs : FileSystem) (place q : Place) (node : Node) :
    (fs.create place node).entryAt q =
      if q = place then some node
      else if q.isWithin place then none else fs.entryAt q := by
  have hremove := entryAt_remove fs place q
  simp only [entryAt, create, List.find?_append] at hremove ⊢
  by_cases hq : q = place
  · subst hq
    rw [Place.isWithin_self, if_pos rfl] at hremove
    rw [Option.map_eq_none_iff] at hremove
    simp [hremove]
  · have : ¬ place = q := fun h => hq h.symm
    simp_all

theorem get?_eq_none_of_parent {fs : FileSystem} {name : Name} {place : Place}
    (h : fs.get? place ≠ some .directory) : fs.get? (name :: place) = none := by
  simp only [get?]

/-- Nothing is seen below what is missing. -/
theorem get?_eq_none_of_isWithin {fs : FileSystem} {place q : Place}
    (hplace : fs.get? place = none) (hq : q.isWithin place = true) : fs.get? q = none := by
  induction q with
  | nil =>
    obtain ⟨names, h⟩ := Place.isWithin_iff.mp hq
    obtain ⟨rfl, rfl⟩ := List.append_eq_nil_iff.mp h.symm
    simp at hplace
  | cons name q ih =>
    rcases Place.isWithin_cons.mp hq with rfl | hq
    · exact hplace
    · simp [get?, ih hq]

/-- Replacing the node at a place changes what is seen there and nowhere else, as
long as directories stay directories and other nodes do not become one. -/
theorem get?_replace {fs : FileSystem} {place : Place} {old node : Node}
    (hold : fs.get? place = some old) (hnode : old = .directory ↔ node = .directory)
    (q : Place) :
    (fs.replace place node).get? q = if q = place then some node else fs.get? q := by
  induction q with
  | nil =>
    by_cases hq : [] = place
    · subst hq
      simp only [get?_root, Option.some.injEq] at hold
      simp [hnode.mp hold.symm]
    · simp [hq]
  | cons name q ih =>
    have hdirectory : (fs.replace place node).get? q = some .directory ↔
        fs.get? q = some .directory := by
      rw [ih]
      split
      · next h => subst h; simp [hold, hnode]
      · rfl
    by_cases hd : fs.get? q = some .directory
    · rw [get?_cons (hdirectory.mpr hd), entryAt_replace, ← get?_cons hd]
      split
      · next h =>
        subst h
        rw [get?_cons hd] at hold
        simp [hold]
      · rfl
    · have hd' := mt hdirectory.mp hd
      rw [get?_eq_none_of_parent hd, get?_eq_none_of_parent hd', if_neg]
      rintro rfl
      exact hd (get?_parent hold)

/-- A new entry in a directory is seen at its place, and nothing else changes. -/
theorem get?_create {fs : FileSystem} {name : Name} {parent : Place} {node : Node}
    (hparent : fs.get? parent = some .directory) (hfree : fs.get? (name :: parent) = none)
    (q : Place) :
    (fs.create (name :: parent) node).get? q =
      if q = name :: parent then some node else fs.get? q := by
  induction q with
  | nil => simp
  | cons top q ih =>
    by_cases hq : top :: q = name :: parent
    · obtain ⟨rfl, rfl⟩ := List.cons.inj hq
      have hne : q ≠ top :: q := by simp
      rw [if_neg hne, hparent] at ih
      rw [get?_cons ih, entryAt_create]
      simp
    · rw [if_neg hq]
      by_cases hw : Place.isWithin (top :: q) (name :: parent) = true
      · rw [get?_eq_none_of_isWithin hfree hw]
        simp only [get?]
        split
        · rw [entryAt_create, if_neg hq, if_pos hw]
        · rfl
      · have hqw : q ≠ name :: parent := by
          rintro rfl
          exact hw (Place.isWithin_cons.mpr (.inr (Place.isWithin_self _)))
        rw [if_neg hqw] at ih
        simp only [get?, ih]
        split
        · rw [entryAt_create, if_neg hq, if_neg hw]
        · rfl

end FileSystem

end SdkBindings
