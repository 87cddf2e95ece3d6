import SdkBindings.Proofs.Answered
import SdkBindings.Proofs.Spelling
import SdkBindings.Proofs.WalkInvariant

/-!
The strict walk by spelling.  It goes on only where the system has found something, so it
stands on routes that lead somewhere from a directory: from the root, or from the working
directory if that is there.  Main statements: back on such a route is up from where it
leads, and a strict walk that ends began on such a route, if it went past a name.
-/

namespace SdkBindings

namespace Text

/-- The pieces on both sides of a separator. -/
theorem fields_append_cons (sep : UInt8) (before after : Text) :
    fields sep (before ++ sep :: after) = fields sep before ++ fields sep after := by
  induction before with
  | nil => exact fields_cons_sep sep after
  | cons b before ih =>
      by_cases hb : b = sep
      · subst hb
        rw [List.cons_append, fields_cons_sep, fields_cons_sep, ih, List.cons_append]
      · obtain ⟨first, others, hwhole, hcons⟩ := fields_cons_of_ne hb (before ++ sep :: after)
        obtain ⟨first', others', hbefore, hcons'⟩ := fields_cons_of_ne hb before
        rw [hwhole, hbefore, List.cons_append] at ih
        obtain ⟨rfl, rfl⟩ := List.cons.inj ih
        rw [List.cons_append, hcons, hcons', List.cons_append]

theorem joinWith_append_singleton (sep : UInt8) {pieces : List Text} (hne : pieces ≠ [])
    (last : Text) : joinWith [sep] (pieces ++ [last]) = joinWith [sep] pieces ++ sep :: last := by
  induction pieces with
  | nil => exact absurd rfl hne
  | cons piece pieces ih =>
      cases pieces with
      | nil => simp [joinWith]
      | cons next others =>
          have hrest := ih (by simp)
          rw [List.cons_append] at hrest
          rw [List.cons_append, List.cons_append, joinWith, hrest, joinWith]
          simp only [List.append_assoc]

theorem joinWith_concat (sep : UInt8) (pieces : List Text) (last : Text) :
    joinWith [sep] (pieces ++ [last]) = last ∨
      ∃ before, joinWith [sep] (pieces ++ [last]) = before ++ sep :: last := by
  by_cases hne : pieces = []
  · subst hne
    exact .inl rfl
  · exact .inr ⟨_, joinWith_append_singleton sep hne last⟩

end Text

namespace Path

/-- A name is the last component of the path inside another one. -/
theorem child_eq {name : Text} (hkeeps : keeps name = true) (hslash : Text.slash ∉ name)
    (p : Path) : p.child name = ⟨p.root, p.parts ++ [name]⟩ := by
  have hroot : PathRoot.ofText name = .relative := by
    have hhead : name.head? ≠ some Text.slash := fun hhead => hslash (List.mem_of_head? hhead)
    rw [PathRoot.ofText, takeWhile_slash_eq_nil hhead]
    rfl
  have hname : ofText name = ⟨.relative, [name]⟩ := by
    rw [ofText, hroot, Text.fields_eq_of_not_mem hslash, List.filter_cons_of_pos hkeeps,
      List.filter_nil]
  rw [child, hname]
  rfl

/-- The text of a path inside another one. -/
theorem text_child {name : Text} (hkeeps : keeps name = true) (hslash : Text.slash ∉ name)
    (p : Path) : (p.child name).text =
      if p.parts = [] then p.root.text ++ name else p.text ++ Text.slash :: name := by
  have htext : (p.child name).text =
      p.root.text ++ Text.joinWith [Text.slash] (p.parts ++ [name]) := by
    rw [child_eq hkeeps hslash]
    simp [text]
  rw [htext]
  split
  · next hempty => rw [hempty, List.nil_append, Text.joinWith]
  · next hne =>
      rw [Text.joinWith_append_singleton Text.slash hne, text, if_neg fun hempty => hne hempty.2,
        List.append_assoc]

/-- The name of a path inside another one is a component of its text. -/
theorem mem_fields_child {name : Text} (hkeeps : keeps name = true) (hslash : Text.slash ∉ name)
    (p : Path) : name ∈ Text.fields Text.slash (p.child name).text := by
  have hlast : Text.fields Text.slash name = [name] := Text.fields_eq_of_not_mem hslash
  have hlead : ∀ lead : Text, name ∈ Text.fields Text.slash (lead ++ Text.slash :: name) := by
    intro lead
    rw [Text.fields_append_cons, hlast]
    exact List.mem_append_right _ (List.mem_singleton_self name)
  rw [text_child hkeeps hslash]
  split
  · cases p.root with
    | relative => rw [PathRoot.text, List.nil_append, hlast]; exact List.mem_singleton_self name
    | one => exact hlead []
    | two => exact hlead [Text.slash]
  · exact hlead p.text

end Path

namespace Route

def isRooted : Route → Bool
  | fromRoot _ => true
  | fromHere _ _ => false

@[simp] theorem isRooted_enter (route : Route) (part : Text) :
    (route.enter part).isRooted = route.isRooted := by
  cases route <;> rfl

@[simp] theorem isRooted_back (route : Route) : route.back.isRooted = route.isRooted := by
  cases route with
  | fromRoot names => rfl
  | fromHere levels names => cases names <;> rfl

end Route

namespace FileSystem

variable {fs : FileSystem} {directory : WorkingDirectory}

/-- Up from the working directory one comes to places above it. -/
theorem At.isWithin {levels : Nat} {spot : WorkingDirectory}
    (h : fs.At directory (.fromHere levels []) spot) :
    directory.place.isWithin spot.place = true := by
  induction levels generalizing spot with
  | zero =>
      cases h with
      | here => exact Place.isWithin_self _
      | enter _ hnext => exact absurd hnext.symm (Route.enter_ne_fromHere _ _ _)
  | succ levels ih =>
      cases h with
      | enter _ hnext => exact absurd hnext.symm (Route.enter_ne_fromHere _ _ _)
      | @up _ below hbelow =>
          obtain ⟨place, removed⟩ := below
          obtain ⟨names, hplace⟩ := Place.isWithin_iff.mp (ih hbelow)
          cases removed with
          | succ removed => exact Place.isWithin_iff.mpr ⟨names, hplace⟩
          | zero =>
              cases place with
              | nil => exact Place.isWithin_iff.mpr ⟨names, hplace⟩
              | cons name place =>
                  have habove : directory.place = (names ++ [name]) ++ place := by
                    rw [List.append_assoc, List.singleton_append]
                    exact hplace
                  exact Place.isWithin_iff.mpr ⟨names ++ [name], habove⟩

/-- Above a directory there are directories. -/
theorem get?_of_isWithin {place q : Place} (hplace : fs.get? q = some .directory)
    (hwithin : q.isWithin place = true) : fs.get? place = some .directory := by
  obtain ⟨names, rfl⟩ := Place.isWithin_iff.mp hwithin
  clear hwithin
  induction names with
  | nil => exact hplace
  | cons name names ih => exact ih (get?_parent hplace)

/-- Going up from a working directory that is there, one stands in directories. -/
theorem At.get?_of_fromHere (hlive : fs.get? directory.place = some .directory) {levels : Nat}
    {spot : WorkingDirectory} (h : fs.At directory (.fromHere levels []) spot) :
    fs.get? spot.place = some .directory :=
  get?_of_isWithin hlive h.isWithin

/-- A route that stands somewhere, and leads there from a directory. -/
def Grounded (fs : FileSystem) (directory : WorkingDirectory) (route : Route) : Prop :=
  (route.isRooted = true ∨ fs.get? directory.place = some .directory) ∧
    ∃ spot, fs.At directory route spot

/-- One component back on a grounded route is one level up, whatever stands at its end. -/
theorem Grounded.at_back {route : Route} (h : fs.Grounded directory route)
    {spot : WorkingDirectory} (hat : fs.At directory route spot) :
    fs.At directory route.back spot.up := by
  obtain ⟨hstart, -⟩ := h
  cases hat with
  | root => exact .root
  | here =>
      have hlive := hstart.resolve_left (by simp [Route.isRooted])
      exact .up .here fun _ => hlive
  | up hbelow hstands =>
      have hlive := hstart.resolve_left (by simp [Route.isRooted])
      have hat := At.up hbelow hstands
      exact .up hat fun _ => hat.get?_of_fromHere hlive
  | enter hroute hnext =>
      rw [hnext, Route.back_enter]
      exact hroute

theorem Grounded.back {route : Route} (h : fs.Grounded directory route) :
    fs.Grounded directory route.back := by
  obtain ⟨spot, hat⟩ := h.2
  exact ⟨by simpa using h.1, spot.up, h.at_back hat⟩

/-- Something stands at the end of a grounded route, and it is no link. -/
theorem Grounded.node {route : Route} (h : fs.Grounded directory route) {spot : WorkingDirectory}
    (hat : fs.At directory route spot) :
    ∃ node, fs.get? spot.place = some node ∧ node.isLink = false := by
  obtain ⟨hstart, -⟩ := h
  cases hat with
  | root => exact ⟨.directory, rfl, rfl⟩
  | here => exact ⟨.directory, hstart.resolve_left (by simp [Route.isRooted]), rfl⟩
  | up hbelow hstands =>
      have hlive := hstart.resolve_left (by simp [Route.isRooted])
      exact ⟨.directory, (At.up hbelow hstands).get?_of_fromHere hlive, rfl⟩
  | enter _ _ hnode hlink => exact ⟨_, hnode, hlink⟩

/-- Two dots and a name lead on only from a working directory that is there, or that was
taken away from one. -/
theorem get?_of_climb (aim : Aim) {part : Text} (hkeeps : Path.keeps part = true)
    (hup : part ≠ Path.up) (rest : List Step) (place : Place) (levels k : Nat) :
    fs.get? place = some .directory ∨ ∃ reason,
      fs.climb aim place levels (List.replicate k .up ++ Step.ofPart part :: rest)
        = .failed reason := by
  by_cases hplace : fs.get? place = some .directory
  · exact .inl hplace
  right
  induction levels generalizing k with
  | zero =>
      cases k with
      | zero => exact fs.climb_of_not_directory aim hplace _ _
      | succ k => exact fs.climb_of_not_directory aim hplace _ _
  | succ levels ih =>
      cases k with
      | succ k => exact ih k
      | zero =>
          rcases ofPart_of_keeps hkeeps hup with ⟨name, -, hstep⟩ | hstep
          · rw [hstep]
            exact ⟨_, rfl⟩
          · rw [hstep]
            exact ⟨_, rfl⟩

theorem get?_of_look {levels : Nat} {part : Text} {node : Node} (hkeeps : Path.keeps part = true)
    (hup : part ≠ Path.up) (hslash : Text.slash ∉ part)
    (h : fs.linkStat directory ((Route.fromHere levels []).enter part).text = .ok node) :
    fs.get? directory.place = some .directory := by
  have hnormal : ((Route.fromHere levels []).enter part).path.IsNormal :=
    isNormal_enter (Route.isNormal_fromHere levels) hkeeps hslash
  have hne : ((Route.fromHere levels []).enter part).path.parts ≠ [] := by simp
  have hlimit := length_le_of_node h
  have hdots : Step.ofPart Path.up = .up := rfl
  have hsteps : ((Route.fromHere levels []).enter part).path.parts.map Step.ofPart =
      List.replicate levels .up ++ [Step.ofPart part] := by
    simp [Route.path, Route.enter, hdots]
  have hlanding := fs.get?_of_climb .keep hkeeps hup [] directory.place
    directory.removedLevels levels
  refine hlanding.resolve_right ?_
  rintro ⟨reason, hfailed⟩
  have hlocate := (locate_route hnormal hne hlimit).trans
    ((congrArg (fs.climb .keep directory.place directory.removedLevels) hsteps).trans hfailed)
  rw [linkStat, FileSystem.node, hlocate] at h
  simp at h

/-- A strict walk past a name begins at the root or in a working directory that is
there. -/
theorem get?_of_tour {onLink : Route → Text → LinksMet → Canonical.Journey} {parts : List Text}
    (hslash : ∀ part ∈ parts, Text.slash ∉ part)
    (hname : ∃ part ∈ parts, Path.keeps part = true ∧ part ≠ Path.up) {levels : Nat}
    {met : LinksMet} {walked : Course × LinksMet}
    (h : (Canonical.tour ⟨fs.linkStat directory, true⟩ onLink (.fromHere levels []) met
      parts).outcome = .ok walked) : fs.get? directory.place = some .directory := by
  induction parts generalizing levels met with
  | nil => simp at hname
  | cons part rest ih =>
      obtain ⟨hpart, hrest⟩ := List.forall_mem_cons.mp hslash
      have hlater : Path.keeps part = false ∨ part = Path.up →
          ∃ other ∈ rest, Path.keeps other = true ∧ other ≠ Path.up := by
        intro hdots
        obtain ⟨other, hother, hkeeps, hother'⟩ := hname
        rcases List.mem_cons.mp hother with rfl | hother
        · rcases hdots with hdots | hdots
          · simp [hdots] at hkeeps
          · exact absurd hdots hother'
        · exact ⟨other, hother, hkeeps, hother'⟩
      cases Canonical.turn ⟨fs.linkStat directory, true⟩ (.fromHere levels []) met part with
      | stay hstay =>
          rw [Canonical.tour_stay hstay] at h
          exact ih hrest (hlater (.inl (by rcases hstay with rfl | rfl <;> decide))) h
      | up hup =>
          rw [hup, Canonical.tour_up] at h
          exact @ih hrest (hlater (.inr hup)) (levels + 1) met h
      | nul hkeeps hup hnul =>
          rw [Canonical.tour_nul hkeeps hup hnul] at h
          simp at h
      | missing hkeeps hup hnul hlook =>
          rw [Canonical.tour_missing hkeeps hup hnul hlook] at h
          simp at h
      | enter hkeeps hup _ hlook
      | link hkeeps hup _ hlook
      | loop hkeeps hup _ hlook
      | known hkeeps hup _ hlook => exact get?_of_look hkeeps hup hpart hlook

/-- A strict walk that ends began at the root, or in a working directory that is there if it
went past a name. -/
theorem grounded_startOf {room : Nat} {t : Text} {walked : Course × LinksMet}
    (hlive : fs.get? directory.place = some .directory ∨
      ∃ part ∈ Text.fields Text.slash t, Path.keeps part = true ∧ part ≠ Path.up)
    (h : Canonical.follow ⟨fs.linkStat directory, true⟩ room (.fromHere 0 []) t [] = .ok walked) :
    fs.Grounded directory ((Route.fromHere 0 []).startOf t) := by
  cases room with
  | zero => simp [Canonical.follow, Canonical.journey] at h
  | succ room =>
      rw [Canonical.follow, Canonical.journey_succ] at h
      unfold Route.startOf at h ⊢
      split
      · exact ⟨.inl rfl, _, .root⟩
      · next hrelative =>
          rw [if_neg hrelative] at h
          have hlive := hlive.elim id fun hname =>
            get?_of_tour (fun _ => Text.sep_not_mem_of_mem_fields) hname h
          exact ⟨.inr hlive, _, .here⟩

end FileSystem

end SdkBindings
