import SdkBindings.Text

/-!
Paths in normal form: a root of none, one or exactly two slashes, and components
that are neither empty nor a single dot.  Two dots stay, since what they lead to
depends on the links before them.  The text of a path reads back as that path.
-/

namespace SdkBindings

/-- How a path begins.  Two slashes are a root of their own; three or more are
the same as one. -/
inductive PathRoot where
  | relative
  | one
  | two
  deriving DecidableEq, Repr

/-- A path by its root and its components, outermost first. -/
structure Path where
  root : PathRoot
  parts : List Text
  deriving DecidableEq, Repr

namespace PathRoot

def text : PathRoot → Text
  | relative => []
  | one => [Text.slash]
  | two => [Text.slash, Text.slash]

/-- The root of a text, by the number of slashes that it begins with. -/
def ofText (t : Text) : PathRoot :=
  match (t.takeWhile (· = Text.slash)).length with
  | 0 => relative
  | 2 => two
  | _ => one

end PathRoot

namespace Path

/-- Here, and one level up, as components. -/
def here : Text := [Text.dot]

def up : Text := [Text.dot, Text.dot]

/-- Components that lead somewhere: neither empty nor a single dot. -/
def keeps (part : Text) : Bool :=
  part ≠ [] ∧ part ≠ here

/-- The path that a text spells. -/
def ofText (t : Text) : Path where
  root := PathRoot.ofText t
  parts := (Text.fields Text.slash t).filter keeps

/-- The shortest text of a path; the empty relative path is a single dot. -/
def text (p : Path) : Text :=
  if p.root = .relative ∧ p.parts = [] then here
  else p.root.text ++ Text.joinWith [Text.slash] p.parts

instance : Coe Path Text := ⟨text⟩

/-- One path after another; an absolute one starts afresh. -/
def append (p q : Path) : Path :=
  if q.root = .relative then { p with parts := p.parts ++ q.parts } else q

instance : Append Path := ⟨append⟩

/-- A path inside this one, spelled by a text. -/
def child (p : Path) (name : Text) : Path :=
  p ++ ofText name

/-- The path without its last component.  A root, and the empty path, are their
own parents. -/
def parent (p : Path) : Path :=
  { p with parts := p.parts.dropLast }

/-- The last component; empty if there is none. -/
def name (p : Path) : Text :=
  p.parts.getLastD []

/-- The components kept so far, innermost first, after one more: two dots take
back the last one, and nothing at the root. -/
def collapseStep (kept : List Text) (part : Text) : List Text :=
  if part = up then kept.tail else part :: kept

/-- An absolute path without two dots, by its text alone: it is not asked what
the components lead to. -/
def collapse (p : Path) : Path :=
  { p with parts := (p.parts.foldl collapseStep []).reverse }

/-- Components as a text can spell them: they lead somewhere and hold no slash. -/
def IsNormal (p : Path) : Prop :=
  ∀ part ∈ p.parts, keeps part = true ∧ Text.slash ∉ part

theorem isNormal_ofText (t : Text) : (ofText t).IsNormal := by
  intro part hpart
  simp only [ofText, List.mem_filter] at hpart
  exact ⟨hpart.2, Text.sep_not_mem_of_mem_fields hpart.1⟩

theorem head?_joinWith_ne_slash {parts : List Text}
    (h : ∀ part ∈ parts, keeps part = true ∧ Text.slash ∉ part) :
    (Text.joinWith [Text.slash] parts).head? ≠ some Text.slash := by
  cases parts with
  | nil => simp [Text.joinWith]
  | cons part others =>
    obtain ⟨hkeeps, hslash⟩ := h part (List.mem_cons_self ..)
    have hne : part ≠ [] := by
      rintro rfl
      simp [keeps] at hkeeps
    obtain ⟨b, rest, rfl⟩ := List.exists_cons_of_ne_nil hne
    simp only [List.mem_cons, not_or] at hslash
    cases others <;> simp [Text.joinWith, Ne.symm hslash.1]

theorem takeWhile_slash_eq_nil {t : Text} (h : t.head? ≠ some Text.slash) :
    t.takeWhile (· = Text.slash) = [] := by
  cases t with
  | nil => rfl
  | cons b rest => simp_all

theorem filter_fields_joinWith {parts : List Text}
    (h : ∀ part ∈ parts, keeps part = true ∧ Text.slash ∉ part) :
    (Text.fields Text.slash (Text.joinWith [Text.slash] parts)).filter keeps = parts := by
  cases parts with
  | nil => simp [Text.joinWith, keeps]
  | cons part others =>
    rw [Text.fields_joinWith (by simp) fun p hp => (h p hp).2]
    exact List.filter_eq_self.mpr fun p hp => (h p hp).1

/-- A path in normal form is read from its own text. -/
theorem ofText_text {p : Path} (hp : p.IsNormal) : ofText p.text = p := by
  obtain ⟨root, parts⟩ := p
  have hparts := filter_fields_joinWith hp
  have hroot := takeWhile_slash_eq_nil (head?_joinWith_ne_slash hp)
  cases root with
  | relative =>
    by_cases hempty : parts = []
    · subst hempty
      decide
    · simp only [text, ofText, hempty, and_false, if_false, PathRoot.text, List.nil_append,
        hparts, PathRoot.ofText, hroot, List.length_nil]
  | one =>
    simp [text, ofText, PathRoot.text, PathRoot.ofText, hroot, Text.fields_cons_sep, hparts,
      keeps]
  | two =>
    simp [text, ofText, PathRoot.text, PathRoot.ofText, hroot, Text.fields_cons_sep, hparts,
      keeps]

/-- Normalising twice is normalising once. -/
theorem ofText_text_ofText (t : Text) : ofText (ofText t).text = ofText t :=
  ofText_text (isNormal_ofText t)

end Path

end SdkBindings
