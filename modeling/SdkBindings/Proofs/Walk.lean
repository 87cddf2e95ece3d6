import SdkBindings.FileAccess

/-!
Where a path leads, component by component.  A link is replaced by what its target leads
to, and counted is how many links are inside each other.  Two dots go up: in one walk from
a directory, as the system takes them, and in the other from whatever was reached.  Main
statements: a walk leads to one place at most, and wherever the system's own lookup ends,
both walks end as well, with no more links inside each other than the system follows.
-/

namespace SdkBindings

namespace Node

def isLink : Node → Bool
  | link _ => true
  | _ => false

theorem exists_of_isLink {node : Node} (h : node.isLink = true) : ∃ target, node = link target := by
  cases node with
  | link target => exact ⟨target, rfl⟩
  | directory | file | pipe | sink | fullDevice => simp [isLink] at h

end Node

namespace Name

theorem text_ne_nil (name : Name) : name.text ≠ [] := by
  have := name.valid
  simp only [isName, decide_eq_true_eq] at this
  exact this.1

theorem text_ne_here (name : Name) : name.text ≠ Path.here := by
  have := name.valid
  simp only [isName, decide_eq_true_eq] at this
  exact this.2.1

theorem text_ne_up (name : Name) : name.text ≠ Path.up := by
  have := name.valid
  simp only [isName, decide_eq_true_eq] at this
  exact this.2.2.1

theorem slash_not_mem (name : Name) : Text.slash ∉ name.text := by
  have := name.valid
  simp only [isName, decide_eq_true_eq] at this
  exact this.2.2.2.1

theorem zero_not_mem (name : Name) : 0 ∉ name.text := by
  have := name.valid
  simp only [isName, decide_eq_true_eq] at this
  exact this.2.2.2.2.1

theorem keeps_text (name : Name) : Path.keeps name.text = true := by
  simp [Path.keeps, name.text_ne_nil, name.text_ne_here]

theorem hasNul_text (name : Name) : name.text.hasNul = false := by
  simp [Text.hasNul, name.zero_not_mem]

theorem eq_of_text_eq {name other : Name} (h : name.text = other.text) : name = other := by
  cases name
  cases other
  simp_all

end Name

namespace WorkingDirectory

/-- One level up from where a walk stands: at a place, or in a directory that was
taken away. -/
def up (spot : WorkingDirectory) : WorkingDirectory :=
  match spot.removedLevels with
  | 0 => ofPlace spot.place.tail
  | levels + 1 => { spot with removedLevels := levels }

/-- Where the walk over a text begins that is met where a walk stands. -/
def startOf (spot : WorkingDirectory) (t : Text) : WorkingDirectory :=
  if isAbsolute t then ofPlace [] else spot

end WorkingDirectory

namespace FileSystem

/-- A spot from which two dots lead up: a directory, or one that was taken away. -/
def Stands (fs : FileSystem) (spot : WorkingDirectory) : Prop :=
  spot.removedLevels = 0 → fs.get? spot.place = some .directory

/-- The components lead from one spot to another, each of them taken as it is spelled: two
dots go up from a spot that lifts, and a link is replaced by what its target leads to.  The
first number is how many links there may be inside each other, and the second one counts
the components, those of link targets included. -/
inductive Traces (fs : FileSystem) (lifts : WorkingDirectory → Prop) :
    Nat → Nat → WorkingDirectory → List Text → WorkingDirectory → Prop where
  | done {depth spot} : Traces fs lifts depth 0 spot [] spot
  | stay {depth n spot part rest goal} :
      part = [] ∨ part = Path.here →
      Traces fs lifts depth n spot rest goal →
      Traces fs lifts depth (n + 1) spot (part :: rest) goal
  | up {depth n spot part rest goal} :
      part = Path.up →
      lifts spot →
      Traces fs lifts depth n spot.up rest goal →
      Traces fs lifts depth (n + 1) spot (part :: rest) goal
  | enter {depth n place part rest goal} {name : Name} {node : Node} :
      part = name.text →
      fs.get? (name :: place) = some node →
      node.isLink = false →
      Traces fs lifts depth n (.ofPlace (name :: place)) rest goal →
      Traces fs lifts depth (n + 1) (.ofPlace place) (part :: rest) goal
  | link {depth n m place part rest mid goal} {name : Name} {target : Target} :
      part = name.text →
      fs.get? (name :: place) = some (.link target) →
      Traces fs lifts depth n ((WorkingDirectory.ofPlace place).startOf target.text)
        (Text.fields Text.slash target.text) mid →
      Traces fs lifts (depth + 1) m mid rest goal →
      Traces fs lifts (depth + 1) (n + m + 1) (.ofPlace place) (part :: rest) goal

/-- Two dots go up from anywhere, be it a directory or not. -/
def Anywhere (_ : WorkingDirectory) : Prop :=
  True

/-- The components lead from one spot to another as the system takes them, but without a
bound on links.  The number counts the components, those of link targets included. -/
def Leads (fs : FileSystem) (n : Nat) (spot : WorkingDirectory) (parts : List Text)
    (goal : WorkingDirectory) : Prop :=
  ∃ depth, fs.Traces fs.Stands depth n spot parts goal

variable {fs : FileSystem} {lifts lifts' : WorkingDirectory → Prop} {depth depth' : Nat}

theorem Traces.deepen {n : Nat} {spot goal : WorkingDirectory} {parts : List Text}
    (h : fs.Traces lifts depth n spot parts goal) (hdepth : depth ≤ depth') :
    fs.Traces lifts depth' n spot parts goal := by
  induction h generalizing depth' with
  | done => exact .done
  | stay hpart _ ih => exact .stay hpart (ih hdepth)
  | up hpart hlifts _ ih => exact .up hpart hlifts (ih hdepth)
  | enter hpart hnode hlink _ ih => exact .enter hpart hnode hlink (ih hdepth)
  | link hpart hnode _ _ ihtarget ih =>
      obtain ⟨below, rfl⟩ := Nat.exists_eq_add_of_le' (Nat.le_trans (Nat.succ_pos _) hdepth)
      exact .link hpart hnode (ihtarget (Nat.le_of_succ_le_succ hdepth)) (ih hdepth)

theorem Traces.anywhere {n : Nat} {spot goal : WorkingDirectory} {parts : List Text}
    (h : fs.Traces lifts depth n spot parts goal) :
    fs.Traces Anywhere depth n spot parts goal := by
  induction h with
  | done => exact .done
  | stay hpart _ ih => exact .stay hpart ih
  | up hpart _ _ ih => exact .up hpart trivial ih
  | enter hpart hnode hlink _ ih => exact .enter hpart hnode hlink ih
  | link hpart hnode _ _ ihtarget ih => exact .link hpart hnode ihtarget ih

/-- A component is taken in one way only: a walk that goes on behind some components goes on
from where they lead. -/
theorem Traces.rest {n m : Nat} {spot mid goal : WorkingDirectory} {first rest : List Text}
    (h : fs.Traces lifts depth n spot first mid)
    (h' : fs.Traces lifts' depth' m spot (first ++ rest) goal) :
    ∃ k, m = n + k ∧ fs.Traces lifts' depth' k mid rest goal := by
  induction h generalizing m depth' goal rest with
  | done => exact ⟨m, (Nat.zero_add m).symm, h'⟩
  | stay hpart _ ih =>
      rw [List.cons_append] at h'
      cases h' with
      | stay _ hrest =>
          obtain ⟨k, rfl, hlast⟩ := ih hrest
          exact ⟨k, by omega, hlast⟩
      | up hup => rcases hpart with rfl | rfl <;> simp [Path.up, Path.here] at hup
      | @enter _ _ _ _ _ _ name _ hname | @link _ _ _ _ _ _ _ _ name _ hname =>
          rcases hpart with rfl | rfl
          · exact absurd hname.symm name.text_ne_nil
          · exact absurd hname.symm name.text_ne_here
  | up hpart _ _ ih =>
      rw [List.cons_append] at h'
      cases h' with
      | stay hstay => rcases hstay with rfl | rfl <;> simp [Path.up, Path.here] at hpart
      | up _ _ hrest =>
          obtain ⟨k, rfl, hlast⟩ := ih hrest
          exact ⟨k, by omega, hlast⟩
      | @enter _ _ _ _ _ _ name _ hname | @link _ _ _ _ _ _ _ _ name _ hname =>
          exact absurd (hname.symm.trans hpart) name.text_ne_up
  | @enter _ n place part first mid name node hpart hnode hlink _ ih =>
      rw [List.cons_append] at h'
      cases h' with
      | stay hstay =>
          rcases hstay with rfl | rfl
          · exact absurd hpart.symm name.text_ne_nil
          · exact absurd hpart.symm name.text_ne_here
      | up hup => exact absurd (hpart.symm.trans hup) name.text_ne_up
      | enter hname _ _ hrest =>
          obtain rfl := Name.eq_of_text_eq (hpart.symm.trans hname)
          obtain ⟨k, rfl, hlast⟩ := ih hrest
          exact ⟨k, by omega, hlast⟩
      | link hname hnode' =>
          obtain rfl := Name.eq_of_text_eq (hpart.symm.trans hname)
          rw [hnode, Option.some.injEq] at hnode'
          simp [hnode', Node.isLink] at hlink
  | @link _ n l place part first between mid name target hpart hnode _ _ ihtarget ih =>
      rw [List.cons_append] at h'
      cases h' with
      | stay hstay =>
          rcases hstay with rfl | rfl
          · exact absurd hpart.symm name.text_ne_nil
          · exact absurd hpart.symm name.text_ne_here
      | up hup => exact absurd (hpart.symm.trans hup) name.text_ne_up
      | enter hname hnode' hlink =>
          obtain rfl := Name.eq_of_text_eq (hpart.symm.trans hname)
          rw [hnode, Option.some.injEq] at hnode'
          simp [← hnode', Node.isLink] at hlink
      | link hname hnode' htarget hrest =>
          obtain rfl := Name.eq_of_text_eq (hpart.symm.trans hname)
          rw [hnode, Option.some.injEq, Node.link.injEq] at hnode'
          subst hnode'
          rw [← List.append_nil (Text.fields Text.slash target.text)] at htarget
          obtain ⟨a, rfl, hend⟩ := ihtarget htarget
          cases hend
          obtain ⟨k, rfl, hlast⟩ := ih hrest
          exact ⟨k, by omega, hlast⟩

theorem Traces.unique {n m : Nat} {spot goal goal' : WorkingDirectory} {parts : List Text}
    (h : fs.Traces lifts depth n spot parts goal)
    (h' : fs.Traces lifts' depth' m spot parts goal') : n = m ∧ goal = goal' := by
  rw [← List.append_nil parts] at h'
  obtain ⟨k, rfl, hend⟩ := h.rest h'
  cases hend
  exact ⟨rfl, rfl⟩

/-- A walk over two lists of components stands somewhere between them. -/
theorem Traces.split {n : Nat} {spot goal : WorkingDirectory} {first rest : List Text}
    (h : fs.Traces lifts depth n spot (first ++ rest) goal) :
    ∃ a b mid, fs.Traces lifts depth a spot first mid ∧
      fs.Traces lifts depth b mid rest goal := by
  induction first generalizing n spot with
  | nil => exact ⟨0, n, spot, .done, h⟩
  | cons part first ih =>
      rw [List.cons_append] at h
      cases h with
      | stay hpart hrest =>
          obtain ⟨a, b, mid, hfirst, hlast⟩ := ih hrest
          exact ⟨a + 1, b, mid, .stay hpart hfirst, hlast⟩
      | up hpart hlifts hrest =>
          obtain ⟨a, b, mid, hfirst, hlast⟩ := ih hrest
          exact ⟨a + 1, b, mid, .up hpart hlifts hfirst, hlast⟩
      | enter hpart hnode hlink hrest =>
          obtain ⟨a, b, mid, hfirst, hlast⟩ := ih hrest
          exact ⟨a + 1, b, mid, .enter hpart hnode hlink hfirst, hlast⟩
      | link hpart hnode htarget hrest =>
          obtain ⟨a, b, mid, hfirst, hlast⟩ := ih hrest
          exact ⟨_, b, mid, .link hpart hnode htarget hfirst, hlast⟩

theorem Traces.append {n m : Nat} {spot mid goal : WorkingDirectory} {first rest : List Text}
    (h : fs.Traces lifts depth n spot first mid) (h' : fs.Traces lifts depth m mid rest goal) :
    fs.Traces lifts depth (n + m) spot (first ++ rest) goal := by
  induction h with
  | done => rwa [Nat.zero_add]
  | stay hpart _ ih =>
      rw [Nat.add_right_comm]
      exact .stay hpart (ih h')
  | up hpart hlifts _ ih =>
      rw [Nat.add_right_comm]
      exact .up hpart hlifts (ih h')
  | enter hpart hnode hlink _ ih =>
      rw [Nat.add_right_comm]
      exact .enter hpart hnode hlink (ih h')
  | link hpart hnode htarget _ _ ih =>
      rw [Nat.add_right_comm, Nat.add_assoc _ _ m]
      exact .link hpart hnode htarget (ih h')

theorem exists_traces_append {spot goal : WorkingDirectory} {first rest : List Text} :
    (∃ n, fs.Traces lifts depth n spot (first ++ rest) goal) ↔
      ∃ mid, (∃ n, fs.Traces lifts depth n spot first mid) ∧
        ∃ n, fs.Traces lifts depth n mid rest goal := by
  constructor
  · rintro ⟨n, h⟩
    obtain ⟨a, b, mid, hfirst, hlast⟩ := h.split
    exact ⟨mid, ⟨a, hfirst⟩, b, hlast⟩
  · rintro ⟨mid, ⟨a, hfirst⟩, b, hlast⟩
    exact ⟨a + b, hfirst.append hlast⟩

/-- Components that stay make no difference to where the others lead. -/
theorem exists_traces_filter {spot goal : WorkingDirectory} {parts : List Text} :
    (∃ n, fs.Traces lifts depth n spot (parts.filter Path.keeps) goal) ↔
      ∃ n, fs.Traces lifts depth n spot parts goal := by
  induction parts generalizing spot with
  | nil => rfl
  | cons part rest ih =>
      have hsplit : ∀ others, part :: others = [part] ++ others := fun _ => rfl
      by_cases hkeeps : Path.keeps part = true
      · rw [List.filter_cons_of_pos hkeeps, hsplit, hsplit rest, exists_traces_append,
          exists_traces_append]
        simp only [ih]
      · have hstay : part = [] ∨ part = Path.here :=
          Decidable.or_iff_not_imp_left.mpr (by simpa [Path.keeps] using hkeeps)
        have hhere : fs.Traces lifts depth 1 spot [part] spot := .stay hstay .done
        rw [List.filter_cons_of_neg hkeeps, ih, hsplit, exists_traces_append]
        constructor
        · rintro hrest
          exact ⟨spot, ⟨1, hhere⟩, hrest⟩
        · rintro ⟨mid, ⟨n, hfirst⟩, hrest⟩
          obtain ⟨-, rfl⟩ := hhere.unique hfirst
          exact hrest

end FileSystem

namespace Step

/-- The steps that components stand for: an empty component is no step, and slashes
at the end are no component. -/
inductive Spell : List Step → List Text → Prop where
  | nil : Spell [] []
  | empty {steps parts} : Spell steps parts → Spell steps ([] :: parts)
  | close {steps parts} : Spell steps parts → Spell (.close :: steps) parts
  | part {steps part parts} : part ≠ [] → Spell steps parts →
      Spell (ofPart part :: steps) (part :: parts)

theorem Spell.append {steps steps' : List Step} {parts parts' : List Text}
    (h : Spell steps parts) (h' : Spell steps' parts') :
    Spell (steps ++ steps') (parts ++ parts') := by
  induction h with
  | nil => exact h'
  | empty _ ih => exact .empty ih
  | close _ ih => exact .close ih
  | part hpart _ ih => exact .part hpart ih

theorem spell_filter (parts : List Text) :
    Spell ((parts.filter (· ≠ [])).map ofPart) parts := by
  induction parts with
  | nil => exact .nil
  | cons part parts ih =>
      by_cases hpart : part = []
      · subst hpart
        exact .empty (by simpa using ih)
      · rw [List.filter_cons_of_pos (by simpa using hpart), List.map_cons]
        exact .part hpart ih

/-- The steps of a text are those of its components. -/
theorem spell_ofText (t : Text) : Spell (ofText t) (Text.fields Text.slash t) := by
  have hparts := spell_filter (Text.fields Text.slash t)
  unfold ofText
  split
  · have hclose := hparts.append (.close .nil)
    rwa [List.append_nil] at hclose
  · rwa [List.append_nil]

theorem ofPart_name (name : Name) : ofPart name.text = .enter name := by
  rw [ofPart, if_neg name.text_ne_here, if_neg name.text_ne_up, dif_pos name.valid]

end Step

namespace FileSystem

variable {fs : FileSystem}

/-- A step that leads on is one of three. -/
theorem ofPart_cases (part : Text) :
    part = Path.here ∧ Step.ofPart part = .stay ∨ part = Path.up ∧ Step.ofPart part = .up ∨
      (∃ name : Name, part = name.text ∧ Step.ofPart part = .enter name) ∨
        Step.ofPart part = .overlong := by
  unfold Step.ofPart
  split
  · exact .inl ⟨‹_›, rfl⟩
  split
  · exact .inr (.inl ⟨‹_›, rfl⟩)
  split
  · exact .inr (.inr (.inl ⟨⟨part, ‹_›⟩, rfl, rfl⟩))
  · exact .inr (.inr (.inr rfl))

/-- A node that is no link is passed on the way to the next step. -/
theorem scan_pass {aim : Aim} {onLink : Place → List Step → Landing} {place : Place} {name : Name}
    {rest : List Step} (hmake : ¬ (aim = .make ∧ Step.onlyClose rest = true)) {node : Node}
    (hnode : fs.get? (name :: place) = some node) (hlink : node.isLink = false) :
    fs.scan aim onLink place (.enter name :: rest) = fs.scan aim onLink (name :: place) rest := by
  rw [scan, get?_parent hnode]
  simp only [hmake, ↓reduceIte, hnode]
  cases node <;> simp_all [Node.isLink]

theorem scan_enter {aim : Aim} (haim : aim ≠ .make) {onLink : Place → List Step → Landing}
    {place : Place} {name : Name} {node : Node} (hnode : fs.get? (name :: place) = some node)
    (hlink : node.isLink = false) (rest : List Step) :
    fs.scan aim onLink place (.enter name :: rest) = fs.scan aim onLink (name :: place) rest :=
  scan_pass (fun hmake => haim hmake.1) hnode hlink

theorem startFrom_eq_place_startOf (place : Place) (t : Text) :
    (WorkingDirectory.ofPlace place).startOf t = .ofPlace (startFrom place t) := by
  unfold WorkingDirectory.startOf startFrom
  split <;> rfl

/-- Where the lookup ends between two links, the walk ends, if it does so behind the
next link. -/
theorem traces_of_scan {depth : Nat} {onLink : Place → List Step → Landing} {goal : Place}
    (honLink : ∀ place steps parts, Step.Spell steps parts → onLink place steps = .found goal →
      ∃ below n, depth = below + 1 ∧
        fs.Traces fs.Stands below n (.ofPlace place) parts (.ofPlace goal))
    {steps : List Step} {parts : List Text} (hspell : Step.Spell steps parts) {place : Place}
    (h : fs.scan .follow onLink place steps = .found goal) :
    ∃ n, fs.Traces fs.Stands depth n (.ofPlace place) parts (.ofPlace goal) := by
  induction hspell generalizing place with
  | nil =>
      rw [scan, Landing.found.injEq] at h
      exact ⟨0, h ▸ .done⟩
  | empty _ ih =>
      obtain ⟨n, hleads⟩ := ih h
      exact ⟨n + 1, .stay (.inl rfl) hleads⟩
  | @close steps parts _ ih =>
      unfold scan at h
      cases hplace : fs.get? place with
      | none => simp [hplace] at h
      | some node =>
          cases node <;> simp only [hplace, reduceCtorEq] at h
          exact ih h
  | @part steps part parts hpart hspell ih =>
      unfold scan at h
      cases hplace : fs.get? place with
      | none => simp [hplace] at h
      | some node =>
          cases node <;> simp only [hplace, reduceCtorEq] at h
          rcases ofPart_cases part with ⟨hhere, hstep⟩ | ⟨hup, hstep⟩ | ⟨name, hname, hstep⟩ |
            hstep
          · rw [hstep] at h
            obtain ⟨n, hleads⟩ := ih h
            exact ⟨n + 1, .stay (.inr hhere) hleads⟩
          · rw [hstep] at h
            obtain ⟨n, hleads⟩ := ih h
            exact ⟨n + 1, .up hup (fun _ => hplace) hleads⟩
          · simp only [hstep, false_and, ↓reduceIte] at h
            cases hnode : fs.get? (name :: place) with
            | none =>
                simp only [hnode] at h
                split at h <;> simp at h
            | some node =>
                by_cases hlink : node.isLink = true
                · cases node <;> simp only [Node.isLink, Bool.false_eq_true] at hlink
                  next target =>
                    simp only [hnode] at h
                    obtain ⟨below, n, rfl, hleads⟩ := honLink _ _ _
                      ((Step.spell_ofText target.text).append hspell) h
                    obtain ⟨a, b, mid, htarget, hrest⟩ := hleads.split
                    rw [← startFrom_eq_place_startOf] at htarget
                    exact ⟨a + b + 1, .link hname hnode htarget (hrest.deepen (Nat.le_succ _))⟩
                · obtain ⟨n, hleads⟩ := @ih (name :: place) (by
                    cases node <;> simp_all [Node.isLink])
                  exact ⟨n + 1, .enter hname hnode (by simpa using hlink) hleads⟩
          · simp [hstep] at h

/-- The walk goes through no more links than the lookup has a budget for. -/
theorem traces_of_walk {budget : Nat} {steps : List Step} {parts : List Text}
    (hspell : Step.Spell steps parts) {place goal : Place}
    (h : fs.walk .follow budget place steps = .found goal) :
    ∃ n, fs.Traces fs.Stands budget n (.ofPlace place) parts (.ofPlace goal) := by
  induction budget generalizing place steps parts with
  | zero => exact traces_of_scan (fun _ _ _ _ hfound => by simp at hfound) hspell h
  | succ budget ih =>
      apply traces_of_scan _ hspell h
      intro place steps parts hspell' hfound
      obtain ⟨n, hleads⟩ := ih hspell' hfound
      exact ⟨budget, n, rfl, hleads⟩

theorem scan_ne_removed {aim : Aim} {onLink : Place → List Step → Landing}
    (honLink : ∀ place steps, onLink place steps ≠ .removed) (place : Place)
    (steps : List Step) : fs.scan aim onLink place steps ≠ .removed := by
  induction steps generalizing place with
  | nil => simp [scan]
  | cons step rest ih =>
      unfold scan
      split
      · simp
      · split
        · apply ih
        · apply ih
        · apply ih
        · simp
        · split
          · simp
          · split
            · split <;> simp
            · split
              · simp
              · apply honLink
            · apply ih
      · simp

/-- Only from a directory that was taken away one comes to such a directory. -/
theorem walk_ne_removed (aim : Aim) (budget : Nat) (place : Place) (steps : List Step) :
    fs.walk aim budget place steps ≠ .removed := by
  induction budget generalizing place steps with
  | zero => exact scan_ne_removed (fun _ _ => by simp) place steps
  | succ budget ih => exact scan_ne_removed ih place steps

end FileSystem

/-- A lookup ends at a spot: an entry, or some directory that was taken away. -/
def Landing.IsAt (spot : WorkingDirectory) : Landing → Prop
  | found place => spot = .ofPlace place
  | removed => spot.removedLevels ≠ 0
  | vacant _ _ | failed _ => False

namespace FileSystem

variable {fs : FileSystem}

theorem traces_of_walk_isAt {budget : Nat} {steps : List Step} {parts : List Text}
    (hspell : Step.Spell steps parts) {place : Place} {landing : Landing}
    (h : fs.walk .follow budget place steps = landing) {spot : WorkingDirectory}
    (hspot : landing.IsAt spot) :
    ∃ n goal, fs.Traces fs.Stands budget n (.ofPlace place) parts goal ∧ landing.IsAt goal := by
  cases landing with
  | found goal =>
      obtain ⟨n, hleads⟩ := traces_of_walk hspell h
      exact ⟨n, _, hleads, rfl⟩
  | removed => exact absurd h (walk_ne_removed _ _ _ _)
  | vacant | failed => exact hspot.elim

/-- From a directory that was taken away the walk climbs as the lookup does. -/
theorem traces_of_climb {place : Place} {levels : Nat} {steps : List Step} {parts : List Text}
    (hspell : Step.Spell steps parts) {landing : Landing}
    (h : fs.climb .follow place levels steps = landing) {spot : WorkingDirectory}
    (hspot : landing.IsAt spot) :
    ∃ n goal, fs.Traces fs.Stands linkBudget n ⟨place, levels⟩ parts goal ∧ landing.IsAt goal := by
  induction hspell generalizing levels with
  | nil =>
      cases levels with
      | zero => exact traces_of_walk_isAt .nil h hspot
      | succ levels => exact ⟨0, _, .done, h ▸ Nat.succ_ne_zero levels⟩
  | empty _ ih =>
      obtain ⟨n, goal, hleads, hgoal⟩ := ih h
      exact ⟨n + 1, goal, .stay (.inl rfl) hleads, hgoal⟩
  | close hspell ih =>
      cases levels with
      | zero => exact traces_of_walk_isAt (.close hspell) h hspot
      | succ levels => exact ih h
  | @part steps part parts hpart hspell ih =>
      cases levels with
      | zero => exact traces_of_walk_isAt (.part hpart hspell) h hspot
      | succ levels =>
          rcases ofPart_cases part with ⟨hhere, hstep⟩ | ⟨hup, hstep⟩ | ⟨name, -, hstep⟩ | hstep
          · rw [hstep] at h
            obtain ⟨n, goal, hleads, hgoal⟩ := @ih (levels + 1) h
            exact ⟨n + 1, goal, .stay (.inr hhere) hleads, hgoal⟩
          · rw [hstep] at h
            obtain ⟨n, goal, hleads, hgoal⟩ := @ih levels h
            exact ⟨n + 1, goal, .up hup (fun hlevels => by simp at hlevels) hleads, hgoal⟩
          · rw [hstep, climb] at h
            exact (h ▸ hspot : (Landing.failed _).IsAt spot).elim
          · rw [hstep, climb] at h
            exact (h ▸ hspot : (Landing.failed _).IsAt spot).elim

/-- Wherever the system's lookup of a text ends, the walk over its components ends. -/
theorem traces_of_isAt {directory : WorkingDirectory} {t : Text} {landing : Landing}
    (h : fs.locate .follow directory t = landing) {spot : WorkingDirectory}
    (hspot : landing.IsAt spot) :
    ∃ n goal, fs.Traces fs.Stands linkBudget n (directory.startOf t) (Text.fields Text.slash t)
      goal ∧ landing.IsAt goal := by
  unfold locate at h
  split at h
  · exact (h ▸ hspot : (Landing.failed _).IsAt spot).elim
  split at h
  · exact (h ▸ hspot : (Landing.failed _).IsAt spot).elim
  split at h
  · next habsolute =>
      rw [WorkingDirectory.startOf, if_pos habsolute]
      exact traces_of_walk_isAt (Step.spell_ofText t) h hspot
  · next habsolute =>
      rw [WorkingDirectory.startOf, if_neg habsolute]
      exact traces_of_climb (Step.spell_ofText t) h hspot

theorem traces_of_locate {directory : WorkingDirectory} {t : Text} {goal : Place}
    (h : fs.locate .follow directory t = .found goal) :
    ∃ n, fs.Traces fs.Stands linkBudget n (directory.startOf t) (Text.fields Text.slash t)
      (.ofPlace goal) := by
  have hspot : (Landing.found goal).IsAt (.ofPlace goal) := rfl
  obtain ⟨n, spot, hleads, rfl⟩ := traces_of_isAt h hspot
  exact ⟨n, hleads⟩

end FileSystem

end SdkBindings
