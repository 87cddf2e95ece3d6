/-!
Text as the system hands it over: a list of bytes.  Paths, arguments and file
contents need not be valid UTF-8, so nothing here decodes them.  Fields are cut
at a separator and joined again, and joining undoes cutting.
-/

namespace SdkBindings

/-- A string of bytes: a path, an argument, a line of output, a file's content. -/
abbrev Text := List UInt8

namespace Text

/-- The UTF-8 bytes of a string. -/
def ofString (s : String) : Text :=
  s.toList.flatMap String.utf8EncodeChar

instance : Coe String Text := ⟨ofString⟩

/-- The bytes that carry meaning in paths and command lines. -/
def slash : UInt8 := 47

def dot : UInt8 := 46

def dash : UInt8 := 45

def equalsSign : UInt8 := 61

def colon : UInt8 := 58

def blank : UInt8 := 32

def newline : UInt8 := 10

/-- The pieces of a text between separators.  There is always at least one
piece, and a text without separators is its own only piece. -/
def fields (sep : UInt8) (t : Text) : List Text :=
  t.foldr (fun b pieces =>
    if b = sep then [] :: pieces
    else match pieces with
      | [] => [[b]]
      | first :: others => (b :: first) :: others) [[]]

/-- The pieces put one after the other with a separator between neighbours. -/
def joinWith (sep : Text) : List Text → Text
  | [] => []
  | [piece] => piece
  | piece :: next :: others => piece ++ sep ++ joinWith sep (next :: others)

/-- The part before the first separator, and the part after it if there is one. -/
def cut (sep : UInt8) : Text → Text × Option Text
  | [] => ([], none)
  | b :: rest =>
    if b = sep then ([], some rest)
    else let (before, after) := cut sep rest
      (b :: before, after)

/-- How many lines end in this text. -/
def newlines (t : Text) : Nat :=
  t.count newline

/-- The byte that ends a text for the system; no path or argument may hold it. -/
def hasNul (t : Text) : Bool :=
  t.contains 0

@[simp] theorem fields_nil (sep : UInt8) : fields sep [] = [[]] := rfl

theorem fields_cons_sep (sep : UInt8) (rest : Text) :
    fields sep (sep :: rest) = [] :: fields sep rest := by
  simp [fields]

theorem fields_ne_nil (sep : UInt8) (t : Text) : fields sep t ≠ [] := by
  cases t with
  | nil => simp
  | cons b rest =>
    simp only [fields, List.foldr_cons]
    split
    · simp
    · split <;> simp

theorem fields_cons_of_ne {sep b : UInt8} (h : b ≠ sep) (rest : Text) :
    ∃ first others, fields sep rest = first :: others ∧
      fields sep (b :: rest) = (b :: first) :: others := by
  obtain ⟨first, others, hsplit⟩ := List.exists_cons_of_ne_nil (fields_ne_nil sep rest)
  refine ⟨first, others, hsplit, ?_⟩
  unfold fields at hsplit ⊢
  simp [h, hsplit]

/-- No piece holds the separator. -/
theorem sep_not_mem_of_mem_fields {sep : UInt8} {t piece : Text}
    (h : piece ∈ fields sep t) : sep ∉ piece := by
  induction t generalizing piece with
  | nil => simp_all
  | cons b rest ih =>
    by_cases hb : b = sep
    · subst hb
      rw [fields_cons_sep] at h
      rcases List.mem_cons.mp h with rfl | h
      · simp
      · exact ih h
    · obtain ⟨first, others, hrest, hcons⟩ := fields_cons_of_ne hb rest
      rw [hcons] at h
      rw [hrest] at ih
      rcases List.mem_cons.mp h with rfl | h
      · have := ih (List.mem_cons_self ..)
        simp [this, Ne.symm hb]
      · exact ih (List.mem_cons_of_mem _ h)

/-- Joining the pieces gives the text back. -/
theorem joinWith_fields (sep : UInt8) (t : Text) :
    joinWith [sep] (fields sep t) = t := by
  induction t with
  | nil => rfl
  | cons b rest ih =>
    obtain ⟨first, others, hrest⟩ := List.exists_cons_of_ne_nil (fields_ne_nil sep rest)
    by_cases hb : b = sep
    · subst hb
      rw [fields_cons_sep, hrest, joinWith]
      rw [hrest] at ih
      simp [ih]
    · obtain ⟨first', others', hrest', hcons⟩ := fields_cons_of_ne hb rest
      rw [hcons]
      rw [hrest'] at ih
      cases others' with
      | nil => simp_all [joinWith]
      | cons next others => simp_all [joinWith]

theorem fields_eq_of_not_mem {sep : UInt8} {t : Text} (h : sep ∉ t) : fields sep t = [t] := by
  induction t with
  | nil => rfl
  | cons b rest ih =>
    simp only [List.mem_cons, not_or] at h
    obtain ⟨first, others, hrest, hcons⟩ := fields_cons_of_ne (Ne.symm h.1) rest
    rw [ih h.2] at hrest
    rw [hcons]
    simp_all

theorem fields_append_sep {sep : UInt8} {t : Text} (h : sep ∉ t) (rest : Text) :
    fields sep (t ++ sep :: rest) = t :: fields sep rest := by
  induction t with
  | nil => exact fields_cons_sep sep rest
  | cons b t ih =>
    simp only [List.mem_cons, not_or] at h
    obtain ⟨first, others, hrest, hcons⟩ := fields_cons_of_ne (Ne.symm h.1) (t ++ sep :: rest)
    rw [ih h.2] at hrest
    rw [List.cons_append, hcons]
    simp_all

/-- Cutting undoes joining, for pieces without the separator. -/
theorem fields_joinWith {sep : UInt8} {pieces : List Text} (hne : pieces ≠ [])
    (h : ∀ piece ∈ pieces, sep ∉ piece) : fields sep (joinWith [sep] pieces) = pieces := by
  induction pieces with
  | nil => contradiction
  | cons piece others ih =>
    cases others with
    | nil => exact fields_eq_of_not_mem (h piece (List.mem_cons_self ..))
    | cons next others =>
      rw [joinWith, List.append_assoc, List.singleton_append,
        fields_append_sep (h piece (List.mem_cons_self ..)),
        ih (by simp) fun p hp => h p (List.mem_cons_of_mem _ hp)]

end Text

end SdkBindings
