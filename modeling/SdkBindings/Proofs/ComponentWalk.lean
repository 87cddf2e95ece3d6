import SdkBindings.Proofs.Walk

/-!
The walk over components as a machine.  A walker takes one component after the other, and
at a link it goes on with the components of the target before those that are left.  Main
statements: a walker ends in one way at most, it takes some components before others as it
takes them alone, and components that stay make no difference to where it ends.
-/

namespace SdkBindings

/-- A walk under way. -/
structure Walker where
  /-- Where the walk stands. -/
  spot : WorkingDirectory
  /-- The components that are left. -/
  parts : List Text
  /-- Whether the walk began at the root or has met a link that leads there. -/
  anchored : Bool
  deriving DecidableEq, Repr

/-- The walk over the components of a text that is met in a working directory. -/
def Walker.start (directory : WorkingDirectory) (t : Text) : Walker where
  spot := directory.startOf t
  parts := Text.fields Text.slash t
  anchored := isAbsolute t

/-- The same walk with more components behind those that are left. -/
def Walker.before (walker : Walker) (rest : List Text) : Walker :=
  { walker with parts := walker.parts ++ rest }

namespace FileSystem

/-- The next component is taken, if it leads anywhere. -/
def advance (fs : FileSystem) : Walker → Option Walker
  | ⟨_, [], _⟩ => none
  | ⟨spot, part :: rest, anchored⟩ =>
    if part = [] ∨ part = Path.here then some ⟨spot, rest, anchored⟩
    else if part = Path.up then some ⟨spot.up, rest, anchored⟩
    else if h : isName part = true ∧ spot.removedLevels = 0 then
      match fs.get? (⟨part, h.1⟩ :: spot.place) with
      | none => none
      | some (.link target) =>
        some ⟨spot.startOf target.text, Text.fields Text.slash target.text ++ rest,
          anchored || isAbsolute target.text⟩
      | some _ => some ⟨.ofPlace (⟨part, h.1⟩ :: spot.place), rest, anchored⟩
    else none

/-- A walk goes on for that many components. -/
inductive Advances (fs : FileSystem) : Nat → Walker → Walker → Prop where
  | refl (walker : Walker) : Advances fs 0 walker walker
  | step {n walker next last} :
      fs.advance walker = some next →
      Advances fs n next last →
      Advances fs (n + 1) walker last

/-- A walk ends at a spot, when all components have been taken. -/
def Ends (fs : FileSystem) (walker : Walker) (goal : WorkingDirectory) (anchored : Bool) : Prop :=
  ∃ n, fs.Advances n walker ⟨goal, [], anchored⟩

variable {fs : FileSystem} {spot : WorkingDirectory} {part : Text} {rest : List Text}
  {anchored : Bool}

theorem advance_stay (h : part = [] ∨ part = Path.here) :
    fs.advance ⟨spot, part :: rest, anchored⟩ = some ⟨spot, rest, anchored⟩ := by
  rw [advance, if_pos h]

theorem advance_up :
    fs.advance ⟨spot, Path.up :: rest, anchored⟩ = some ⟨spot.up, rest, anchored⟩ := by
  rw [advance, if_neg (by decide), if_pos rfl]

/-- A name is looked up in the directory where the walk stands. -/
theorem advance_name (place : Place) (name : Name) :
    fs.advance ⟨.ofPlace place, name.text :: rest, anchored⟩ =
      match fs.get? (name :: place) with
      | none => none
      | some (.link target) =>
        some ⟨(WorkingDirectory.ofPlace place).startOf target.text,
          Text.fields Text.slash target.text ++ rest, anchored || isAbsolute target.text⟩
      | some _ => some ⟨.ofPlace (name :: place), rest, anchored⟩ := by
  have hstay : ¬ (name.text = [] ∨ name.text = Path.here) :=
    fun h => h.elim name.text_ne_nil name.text_ne_here
  rw [advance, if_neg hstay, if_neg name.text_ne_up, dif_pos ⟨name.valid, rfl⟩]
  rfl

theorem advance_enter {place : Place} {name : Name} {node : Node}
    (hnode : fs.get? (name :: place) = some node) (hlink : node.isLink = false) :
    fs.advance ⟨.ofPlace place, name.text :: rest, anchored⟩ =
      some ⟨.ofPlace (name :: place), rest, anchored⟩ := by
  rw [advance_name, hnode]
  cases node with
  | link target => simp [Node.isLink] at hlink
  | directory | file | pipe | sink | fullDevice => rfl

theorem advance_link {place : Place} {name : Name} {target : Target}
    (hnode : fs.get? (name :: place) = some (.link target)) :
    fs.advance ⟨.ofPlace place, name.text :: rest, anchored⟩ =
      some ⟨(WorkingDirectory.ofPlace place).startOf target.text,
        Text.fields Text.slash target.text ++ rest, anchored || isAbsolute target.text⟩ := by
  rw [advance_name, hnode]

/-- What a component can be that leads somewhere. -/
theorem advance_cases {next : Walker} (h : fs.advance ⟨spot, part :: rest, anchored⟩ = some next) :
    ((part = [] ∨ part = Path.here) ∧ next = ⟨spot, rest, anchored⟩) ∨
      (part = Path.up ∧ next = ⟨spot.up, rest, anchored⟩) ∨
      ∃ (place : Place) (name : Name) (node : Node), spot = .ofPlace place ∧ part = name.text ∧
        fs.get? (name :: place) = some node := by
  rw [advance] at h
  split at h
  · next hstay => exact .inl ⟨hstay, (Option.some.inj h).symm⟩
  split at h
  · next hup => exact .inr (.inl ⟨hup, (Option.some.inj h).symm⟩)
  split at h
  · next hname =>
      obtain ⟨place, levels⟩ := spot
      obtain ⟨hvalid, hlevels⟩ := hname
      simp only at hlevels
      subst hlevels
      cases hnode : fs.get? (⟨part, hvalid⟩ :: place) with
      | none => simp [hnode] at h
      | some node => exact .inr (.inr ⟨place, ⟨part, hvalid⟩, node, rfl, rfl, hnode⟩)
  · simp at h

/-- What is taken next does not depend on what stands behind it. -/
theorem advance_before {walker : Walker} (hparts : walker.parts ≠ []) (rest : List Text) :
    fs.advance (walker.before rest) = (fs.advance walker).map (Walker.before · rest) := by
  obtain ⟨spot, parts, anchored⟩ := walker
  cases parts with
  | nil => exact absurd rfl hparts
  | cons part parts =>
      simp only [Walker.before, List.cons_append, advance]
      split
      · rfl
      split
      · rfl
      split
      · split
        · rfl
        · simp [List.append_assoc]
        · rfl
      · rfl

/-- A walk that has been at the root knows the way from there ever after. -/
theorem advance_anchored {walker next : Walker} (h : fs.advance walker = some next)
    (hanchored : walker.anchored = true) : next.anchored = true := by
  obtain ⟨spot, parts, anchored⟩ := walker
  obtain rfl := hanchored
  cases parts with
  | nil => simp [advance] at h
  | cons part rest =>
      rcases advance_cases h with ⟨-, rfl⟩ | ⟨-, rfl⟩ | ⟨place, name, node, rfl, rfl, hnode⟩
      · rfl
      · rfl
      · by_cases hlink : node.isLink = true
        · obtain ⟨target, rfl⟩ := Node.exists_of_isLink hlink
          rw [advance_link hnode, Option.some.injEq] at h
          rw [← h, Bool.true_or]
        · rw [advance_enter hnode (by simpa using hlink), Option.some.injEq] at h
          rw [← h]

theorem Advances.stays_anchored {n : Nat} {walker last : Walker} (h : fs.Advances n walker last)
    (hanchored : walker.anchored = true) : last.anchored = true := by
  induction h with
  | refl => exact hanchored
  | step hnext _ ih => exact ih (advance_anchored hnext hanchored)

theorem Advances.trans {n m : Nat} {walker mid last : Walker} (h : fs.Advances n walker mid)
    (h' : fs.Advances m mid last) : fs.Advances (n + m) walker last := by
  induction h with
  | refl => rwa [Nat.zero_add]
  | step hnext _ ih =>
      rw [Nat.succ_add]
      exact .step hnext (ih h')

/-- A walk that is over goes on no further. -/
theorem Advances.of_nil {n : Nat} {last : Walker}
    (h : fs.Advances n ⟨spot, [], anchored⟩ last) : n = 0 ∧ last = ⟨spot, [], anchored⟩ := by
  cases h with
  | refl => exact ⟨rfl, rfl⟩
  | step hnext => simp [advance] at hnext

theorem Advances.unique {n m : Nat} {walker : Walker} {goal goal' : WorkingDirectory}
    {anchored anchored' : Bool} (h : fs.Advances n walker ⟨goal, [], anchored⟩)
    (h' : fs.Advances m walker ⟨goal', [], anchored'⟩) :
    n = m ∧ goal = goal' ∧ anchored = anchored' := by
  generalize hlast : Walker.mk goal [] anchored = last at h
  induction h generalizing m with
  | refl =>
      subst hlast
      obtain ⟨rfl, hsame⟩ := h'.of_nil
      simp only [Walker.mk.injEq, true_and] at hsame
      exact ⟨rfl, hsame.1.symm, hsame.2.symm⟩
  | step hnext _ ih =>
      cases h' with
      | refl => simp [advance] at hnext
      | step hnext' hrest =>
          obtain rfl := Option.some.inj (hnext.symm.trans hnext')
          obtain ⟨rfl, hsame⟩ := ih hrest hlast
          exact ⟨rfl, hsame⟩

/-- A walk that comes back to where it was does not end. -/
theorem Advances.not_ends {n : Nat} {walker : Walker} (h : fs.Advances (n + 1) walker walker)
    (goal : WorkingDirectory) (anchored : Bool) : ¬ fs.Ends walker goal anchored := by
  rintro ⟨m, hend⟩
  have hlength := (hend.unique (h.trans hend)).1
  omega

/-- Components behind those that are taken stay where they are. -/
theorem Advances.before {n : Nat} {walker last : Walker} (h : fs.Advances n walker last)
    (rest : List Text) : fs.Advances n (walker.before rest) (last.before rest) := by
  induction h with
  | refl => exact .refl _
  | @step _ walker next _ hnext _ ih =>
      have hparts : walker.parts ≠ [] := by
        rintro hnil
        obtain ⟨spot, parts, anchored⟩ := walker
        obtain rfl := hnil
        simp [advance] at hnext
      refine .step ?_ ih
      rw [advance_before hparts, hnext, Option.map_some]

/-- A walk over two lists of components stands somewhere between them. -/
theorem Advances.split {n : Nat} {walker : Walker} {goal : WorkingDirectory}
    (h : fs.Advances n (walker.before rest) ⟨goal, [], anchored⟩) :
    ∃ k m mid between, n = k + m ∧ fs.Advances k walker ⟨mid, [], between⟩ ∧
      fs.Advances m ⟨mid, rest, between⟩ ⟨goal, [], anchored⟩ := by
  induction n generalizing walker with
  | zero =>
      obtain ⟨spot, parts, anchored'⟩ := walker
      generalize hwalker : Walker.before _ rest = whole at h
      cases h with
      | refl =>
          obtain ⟨rfl, hparts, rfl⟩ := Walker.mk.inj hwalker
          obtain ⟨rfl, rfl⟩ := List.append_eq_nil_iff.mp hparts
          exact ⟨0, 0, spot, anchored', rfl, .refl _, .refl _⟩
  | succ n ih =>
      obtain ⟨spot, parts, anchored'⟩ := walker
      cases parts with
      | nil => exact ⟨0, n + 1, spot, anchored', (Nat.zero_add _).symm, .refl _, h⟩
      | cons part parts =>
          cases h with
          | step hnext hrest =>
              rw [advance_before (by simp), Option.map_eq_some_iff] at hnext
              obtain ⟨next, hnext, rfl⟩ := hnext
              obtain ⟨k, m, mid, between, rfl, hfirst, hlast⟩ := ih hrest
              exact ⟨k + 1, m, mid, between, by omega, .step hnext hfirst, hlast⟩

/-- The components lead where the walk over them ends. -/
theorem Traces.advances {lifts : WorkingDirectory → Prop} {depth n : Nat}
    {goal : WorkingDirectory} {parts : List Text}
    (h : fs.Traces lifts depth n spot parts goal) (anchored : Bool) :
    ∃ anchored', fs.Advances n ⟨spot, parts, anchored⟩ ⟨goal, [], anchored'⟩ := by
  induction h generalizing anchored with
  | done => exact ⟨anchored, .refl _⟩
  | stay hpart _ ih =>
      obtain ⟨anchored', hrest⟩ := ih anchored
      exact ⟨anchored', .step (advance_stay hpart) hrest⟩
  | up hpart _ _ ih =>
      obtain ⟨anchored', hrest⟩ := ih anchored
      exact ⟨anchored', .step (hpart ▸ advance_up) hrest⟩
  | enter hpart hnode hlink _ ih =>
      obtain ⟨anchored', hrest⟩ := ih anchored
      exact ⟨anchored', .step (hpart ▸ advance_enter hnode hlink) hrest⟩
  | link hpart hnode _ _ ihtarget ih =>
      obtain ⟨between, htarget⟩ := ihtarget _
      obtain ⟨anchored', hrest⟩ := ih between
      exact ⟨anchored', .step (hpart ▸ advance_link hnode) ((htarget.before _).trans hrest)⟩

/-- The walk over components ends where they lead, with some number of links inside each
other. -/
theorem Advances.traces {n : Nat} {goal : WorkingDirectory} {parts : List Text}
    {anchored' : Bool} (h : fs.Advances n ⟨spot, parts, anchored⟩ ⟨goal, [], anchored'⟩) :
    ∃ depth, fs.Traces Anywhere depth n spot parts goal := by
  induction n using Nat.strongRecOn generalizing spot parts anchored goal anchored' with
  | ind n ih =>
      cases parts with
      | nil =>
          obtain ⟨rfl, hsame⟩ := h.of_nil
          obtain ⟨rfl, -, -⟩ := Walker.mk.inj hsame
          exact ⟨0, .done⟩
      | cons part rest =>
          cases h with
          | @step n _ next _ hnext hrest =>
              rcases advance_cases hnext with
                ⟨hstay, rfl⟩ | ⟨hup, rfl⟩ | ⟨place, name, node, rfl, rfl, hnode⟩
              · obtain ⟨depth, htraces⟩ := ih n (Nat.lt_succ_self n) hrest
                exact ⟨depth, .stay hstay htraces⟩
              · obtain ⟨depth, htraces⟩ := ih n (Nat.lt_succ_self n) hrest
                exact ⟨depth, .up hup trivial htraces⟩
              · by_cases hlink : node.isLink = true
                · obtain ⟨target, rfl⟩ := Node.exists_of_isLink hlink
                  rw [advance_link hnode, Option.some.injEq] at hnext
                  subst hnext
                  obtain ⟨k, m, mid, between, rfl, htarget, hbehind⟩ :=
                    (show fs.Advances n (Walker.before ⟨_, _, _⟩ rest) _ from hrest).split
                  obtain ⟨inner, htarget⟩ := ih k (by omega) htarget
                  obtain ⟨outer, hbehind⟩ := ih m (by omega) hbehind
                  exact ⟨max inner outer + 1, .link rfl hnode
                    (htarget.deepen (Nat.le_max_left _ _))
                    (hbehind.deepen (Nat.le_succ_of_le (Nat.le_max_right _ _)))⟩
                · rw [Bool.not_eq_true] at hlink
                  rw [advance_enter hnode hlink, Option.some.injEq] at hnext
                  subst hnext
                  obtain ⟨depth, htraces⟩ := ih n (Nat.lt_succ_self n) hrest
                  exact ⟨depth, .enter rfl hnode hlink htraces⟩

theorem ends_append {first : List Text} {goal : WorkingDirectory} {anchored' : Bool} :
    fs.Ends ⟨spot, first ++ rest, anchored⟩ goal anchored' ↔
      ∃ mid between, fs.Ends ⟨spot, first, anchored⟩ mid between ∧
        fs.Ends ⟨mid, rest, between⟩ goal anchored' := by
  constructor
  · rintro ⟨n, hend⟩
    obtain ⟨k, m, mid, between, -, hfirst, hlast⟩ :=
      (show fs.Advances n (Walker.before ⟨spot, first, anchored⟩ rest) _ from hend).split
    exact ⟨mid, between, ⟨k, hfirst⟩, m, hlast⟩
  · rintro ⟨mid, between, ⟨k, hfirst⟩, m, hlast⟩
    exact ⟨k + m, (hfirst.before rest).trans hlast⟩

/-- Components that stay make no difference. -/
theorem ends_filter {parts : List Text} {goal : WorkingDirectory} {anchored' : Bool} :
    fs.Ends ⟨spot, parts.filter Path.keeps, anchored⟩ goal anchored' ↔
      fs.Ends ⟨spot, parts, anchored⟩ goal anchored' := by
  induction parts generalizing spot anchored with
  | nil => rfl
  | cons part rest ih =>
      have hsplit : ∀ others, part :: others = [part] ++ others := fun _ => rfl
      by_cases hkeeps : Path.keeps part = true
      · rw [List.filter_cons_of_pos hkeeps, hsplit, hsplit rest, ends_append, ends_append]
        simp only [ih]
      · rw [List.filter_cons_of_neg hkeeps, ih]
        have hstay : part = [] ∨ part = Path.here :=
          Decidable.or_iff_not_imp_left.mpr (by simpa [Path.keeps] using hkeeps)
        constructor
        · rintro ⟨n, hend⟩
          exact ⟨n + 1, .step (advance_stay hstay) hend⟩
        · rintro ⟨n, hend⟩
          cases hend with
          | step hnext hrest =>
              rw [advance_stay hstay, Option.some.injEq] at hnext
              exact ⟨_, hnext ▸ hrest⟩

end FileSystem

end SdkBindings
