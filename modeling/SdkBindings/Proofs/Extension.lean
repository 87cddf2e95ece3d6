import SdkBindings.Proofs.Walk

/-!
What a run does to a file system takes nothing away: files get another content, and
entries are added.  Main statements: overwriting a file and making directories only
extend a file system, a lookup that ends somewhere still ends there in an extension,
and what was opened for writing is found by the same path afterwards.
-/

namespace SdkBindings

/-- A node after it may have been written to. -/
inductive Node.Overwritten : Node → Node → Prop where
  | same {node} : Overwritten node node
  | rewritten {executable before after} :
      Overwritten (.file executable before) (.file executable after)

theorem Node.Overwritten.trans {first second third : Node} (h : first.Overwritten second)
    (h' : second.Overwritten third) : first.Overwritten third := by
  cases h with
  | same => exact h'
  | rewritten =>
      cases h' with
      | same => exact .rewritten
      | rewritten => exact .rewritten

theorem Node.Overwritten.isLink_eq {before after : Node} (h : before.Overwritten after) :
    after.isLink = before.isLink := by
  cases h <;> rfl

/-- A lookup ends at a place: there is an entry, or one can be made there and is to be
made. -/
def Landing.LandsAt (aim : Aim) (goal : Place) : Landing → Prop
  | found place => place = goal
  | vacant parent name => aim = .make ∧ name :: parent = goal
  | removed | failed _ => False

@[simp] theorem Landing.landsAt_failed (aim : Aim) (goal : Place) (reason : Errno) :
    (failed reason).LandsAt aim goal ↔ False := Iff.rfl

namespace FileSystem

/-- A path opens the file at a place for writing, be it there or not yet. -/
def Opens (fs : FileSystem) (directory : WorkingDirectory) (t : Text) (place : Place) : Prop :=
  (fs.locate .make directory t).LandsAt .make place

/-- Every entry is still there, and only contents have changed. -/
def Extends (before after : FileSystem) : Prop :=
  ∀ place node, before.get? place = some node →
    ∃ node', after.get? place = some node' ∧ node.Overwritten node'

/-- Every entry is still there as it was. -/
def Grows (before after : FileSystem) : Prop :=
  ∀ place node, before.get? place = some node → after.get? place = some node

theorem Grows.refl (fs : FileSystem) : Grows fs fs := by
  intro place node hnode
  exact hnode

theorem Grows.trans {first second third : FileSystem} (h : Grows first second)
    (h' : Grows second third) : Grows first third := by
  intro place node hnode
  apply h'
  exact h place node hnode

theorem Grows.extends {before after : FileSystem} (h : Grows before after) :
    Extends before after := by
  intro place node hnode
  exact ⟨node, h place node hnode, .same⟩

theorem Extends.refl (fs : FileSystem) : Extends fs fs :=
  (Grows.refl fs).extends

theorem Extends.trans {first second third : FileSystem} (h : Extends first second)
    (h' : Extends second third) : Extends first third := by
  intro place node hnode
  obtain ⟨node', hnode', hover⟩ := h place node hnode
  obtain ⟨node'', hnode'', hover'⟩ := h' place node' hnode'
  exact ⟨node'', hnode'', hover.trans hover'⟩

variable {fs before after : FileSystem}

theorem Extends.directory (h : Extends before after) {place : Place}
    (hplace : before.get? place = some .directory) : after.get? place = some .directory := by
  obtain ⟨node, hnode, hover⟩ := h place _ hplace
  cases hover
  exact hnode

theorem Extends.link (h : Extends before after) {place : Place} {target : Target}
    (hplace : before.get? place = some (.link target)) :
    after.get? place = some (.link target) := by
  obtain ⟨node, hnode, hover⟩ := h place _ hplace
  cases hover
  exact hnode

theorem Extends.file (h : Extends before after) {place : Place} {executable : Bool}
    {content : Text} (hplace : before.get? place = some (.file executable content)) :
    ∃ content', after.get? place = some (.file executable content') := by
  obtain ⟨node, hnode, hover⟩ := h place _ hplace
  cases hover with
  | same => exact ⟨content, hnode⟩
  | rewritten => exact ⟨_, hnode⟩

theorem grows_create {name : Name} {parent : Place} {node : Node}
    (hparent : fs.get? parent = some .directory) (hfree : fs.get? (name :: parent) = none) :
    Grows fs (fs.create (name :: parent) node) := by
  intro place old hold
  rw [get?_create hparent hfree, if_neg]
  · exact hold
  · rintro rfl
    rw [hfree] at hold
    simp at hold

theorem get?_overwrite {place : Place} {executable : Bool} {old content : Text}
    (hold : fs.get? place = some (.file executable old)) (q : Place) :
    (fs.replace place (.file executable content)).get? q =
      if q = place then some (.file executable content) else fs.get? q :=
  get?_replace hold (by simp) q

theorem extends_overwrite {place : Place} {executable : Bool} {old content : Text}
    (hold : fs.get? place = some (.file executable old)) :
    Extends fs (fs.replace place (.file executable content)) := by
  intro q node hnode
  rw [get?_overwrite hold]
  by_cases hq : q = place
  · subst hq
    rw [hold, Option.some.injEq] at hnode
    rw [if_pos rfl]
    exact ⟨_, rfl, hnode ▸ .rewritten⟩
  · rw [if_neg hq]
    exact ⟨node, hnode, .same⟩

/-- What the end of a lookup says of the file system, and which refusals there are.  Only
a file that is to be made is refused for a slash behind it. -/
def Answers (fs : FileSystem) (aim : Aim) : Landing → Prop
  | .found _ | .removed => True
  | .vacant parent name => fs.get? parent = some .directory ∧ fs.get? (name :: parent) = none
  | .failed reason =>
    reason ∈ [.noEntry, .notDirectory, .nameTooLong, .tooManyLinks] ∨
      aim = .make ∧ reason = .isDirectory

theorem answers_scan {aim : Aim} {onLink : Place → List Step → Landing}
    (honLink : ∀ place steps, fs.Answers aim (onLink place steps)) (place : Place)
    (steps : List Step) : fs.Answers aim (fs.scan aim onLink place steps) := by
  induction steps generalizing place with
  | nil => trivial
  | cons step rest ih =>
      unfold scan
      cases hplace : fs.get? place with
      | none => simp [Answers]
      | some node =>
          cases node with
          | file | link | pipe | sink | fullDevice => simp [Answers]
          | directory =>
              cases step with
              | stay | close | up => exact ih _
              | overlong =>
                  simp only
                  split
                  · next hmake => exact .inr ⟨hmake.1, rfl⟩
                  · exact .inl (by simp)
              | enter name =>
                  simp only
                  split
                  · next hmake => exact .inr ⟨hmake.1, rfl⟩
                  cases hnode : fs.get? (name :: place) with
                  | none =>
                      simp only
                      split
                      · exact ⟨hplace, hnode⟩
                      · simp [Answers]
                  | some node =>
                      cases node with
                      | link target =>
                          simp only
                          split
                          · trivial
                          · exact honLink _ _
                      | directory | file | pipe | sink | fullDevice => exact ih _

theorem answers_walk (fs : FileSystem) (aim : Aim) (budget : Nat) (place : Place)
    (steps : List Step) : fs.Answers aim (fs.walk aim budget place steps) := by
  induction budget generalizing place steps with
  | zero => exact answers_scan (fun _ _ => by simp [Answers]) place steps
  | succ budget ih => exact answers_scan ih place steps

theorem answers_climb (fs : FileSystem) (aim : Aim) (place : Place) (levels : Nat)
    (steps : List Step) : fs.Answers aim (fs.climb aim place levels steps) := by
  induction steps generalizing levels with
  | nil =>
      cases levels with
      | zero => exact answers_walk fs aim _ place []
      | succ levels => trivial
  | cons step rest ih =>
      cases levels with
      | zero => exact answers_walk fs aim _ place _
      | succ levels =>
          cases step with
          | stay | close => exact ih (levels + 1)
          | up => exact ih levels
          | enter | overlong =>
              simp only [climb]
              split
              · next hmake => exact .inr ⟨hmake.1, rfl⟩
              · exact .inl (by simp)

theorem answers_locate (fs : FileSystem) (aim : Aim) (directory : WorkingDirectory) (t : Text) :
    fs.Answers aim (fs.locate aim directory t) := by
  unfold locate
  split
  · simp [Answers]
  split
  · simp [Answers]
  split
  · exact answers_walk fs aim _ _ _
  · exact answers_climb fs aim _ _ _

/-- Where a lookup finds room for an entry, the directory is there and has none. -/
theorem vacant_of_locate {aim : Aim} {directory : WorkingDirectory} {t : Text}
    {parent : Place} {name : Name} (h : fs.locate aim directory t = .vacant parent name) :
    fs.get? parent = some .directory ∧ fs.get? (name :: parent) = none := by
  have hanswers := fs.answers_locate aim directory t
  rwa [h] at hanswers

/-- The reasons for which nothing is found. -/
theorem mem_of_stat_error {directory : WorkingDirectory} {t : Text} {reason : Errno}
    (h : fs.stat directory t = .error reason) :
    reason ∈ [.noEntry, .notDirectory, .nameTooLong, .tooManyLinks] := by
  have hanswers := fs.answers_locate .follow directory t
  rw [stat, FileSystem.node] at h
  cases hlanding : fs.locate .follow directory t with
  | found place =>
      simp only [hlanding] at h
      split at h
      · simp at h
      · exact Except.error.inj h ▸ by simp
  | vacant =>
      simp only [hlanding, Except.error.injEq] at h
      exact h ▸ by simp
  | removed => simp [hlanding] at h
  | failed refused =>
      rw [hlanding] at hanswers
      simp only [hlanding, Except.error.injEq] at h
      subst h
      rcases hanswers with hmem | ⟨hmake, -⟩
      · exact hmem
      · simp at hmake

/-- No permission is asked for on the way to an entry. -/
theorem stat_ne_permission (fs : FileSystem) (directory : WorkingDirectory) (t : Text) :
    fs.stat directory t ≠ .error .permission := by
  intro h
  have hreason := mem_of_stat_error h
  simp at hreason

section

variable {fs fs' : FileSystem} {aim aim' : Aim}

theorem walk_related (related : Landing → Landing → Prop)
    (htired : related (.failed .tooManyLinks) (.failed .tooManyLinks))
    (hscan : ∀ onLink onLink', (∀ place steps, related (onLink place steps) (onLink' place steps)) →
      ∀ place steps, related (fs.scan aim onLink place steps) (fs'.scan aim' onLink' place steps))
    (budget : Nat) (place : Place) (steps : List Step) :
    related (fs.walk aim budget place steps) (fs'.walk aim' budget place steps) := by
  induction budget generalizing place steps with
  | zero => exact hscan _ _ (fun _ _ => htired) place steps
  | succ budget ih => exact hscan _ _ ih place steps

/-- Two lookups of one path side by side, in two file systems or with two aims.  What
holds between two walks, whenever it holds between what they do at links, holds between
the lookups. -/
theorem locate_related (related : Landing → Landing → Prop)
    (hfailed : ∀ reason reason', (aim = aim' ∨ aim ≠ .make ∧ aim' ≠ .make → reason = reason') →
      related (.failed reason) (.failed reason'))
    (hremoved : related .removed .removed)
    (hscan : ∀ onLink onLink', (∀ place steps, related (onLink place steps) (onLink' place steps)) →
      ∀ place steps, related (fs.scan aim onLink place steps) (fs'.scan aim' onLink' place steps))
    (directory : WorkingDirectory) (t : Text) :
    related (fs.locate aim directory t) (fs'.locate aim' directory t) := by
  have hsame : ∀ reason, related (.failed reason) (.failed reason) := by
    intro reason
    exact hfailed reason reason fun _ => rfl
  have hwalk := walk_related related (hsame _) hscan
  have hclimb : ∀ place levels steps,
      related (fs.climb aim place levels steps) (fs'.climb aim' place levels steps) := by
    intro place levels steps
    induction steps generalizing levels with
    | nil =>
        cases levels with
        | zero => exact hwalk _ _ _
        | succ levels => exact hremoved
    | cons step rest ih =>
        cases levels with
        | zero => exact hwalk _ _ _
        | succ levels =>
            cases step with
            | stay | close => exact ih (levels + 1)
            | up => exact ih levels
            | enter | overlong =>
                refine hfailed _ _ ?_
                rintro (rfl | ⟨hplain, hplain'⟩)
                · rfl
                · simp [hplain, hplain']
  unfold locate
  split
  · exact hsame _
  split
  · exact hsame _
  split
  · exact hwalk _ _ _
  · exact hclimb _ _ _

end

/-- Where a lookup lands, it is found in an extension that has an entry there. -/
theorem scan_found_of_extends (h : Extends before after) {goal : Place}
    (hnew : before.get? goal = none → ∃ node, after.get? goal = some node ∧ node.isLink = false)
    {aim aim' : Aim} (haim : aim ≠ .keep) (haim' : aim' = .follow ∨ aim' = aim)
    {onLink onLink' : Place → List Step → Landing}
    (honLink : ∀ place steps, (onLink place steps).LandsAt aim goal →
      onLink' place steps = .found goal)
    (place : Place) (steps : List Step)
    (hlands : (before.scan aim onLink place steps).LandsAt aim goal) :
    after.scan aim' onLink' place steps = .found goal := by
  have hkeep : aim' ≠ .keep := by
    rcases haim' with rfl | rfl
    · decide
    · exact haim
  induction steps generalizing place with
  | nil => rw [scan, hlands]
  | cons step rest ih =>
      unfold scan at hlands
      cases hplace : before.get? place with
      | none => simp [hplace] at hlands
      | some old =>
          cases old <;> simp only [hplace, Landing.landsAt_failed] at hlands
          have hdirectory := h.directory hplace
          cases step with
          | stay | close | up =>
              rw [scan, hdirectory]
              exact ih _ hlands
          | overlong => simp at hlands
          | enter name =>
              simp only at hlands
              split at hlands
              · simp at hlands
              next hmake =>
              have hmake' : ¬ (aim' = .make ∧ Step.onlyClose rest = true) := by
                rcases haim' with rfl | rfl
                · simp
                · exact hmake
              cases hnode : before.get? (name :: place) with
              | none =>
                  simp only [hnode] at hlands
                  split at hlands
                  · next hlast =>
                      obtain ⟨rfl, rfl⟩ := hlands
                      have hrest : rest = [] := hlast.resolve_right fun hclose => hmake ⟨rfl, hclose⟩
                      obtain ⟨new, hgoal, hlink⟩ := hnew hnode
                      rw [scan_pass hmake' hgoal hlink, hrest, scan]
                  · simp at hlands
              | some old =>
                  by_cases hold : old.isLink = true
                  · obtain ⟨target, rfl⟩ := Node.exists_of_isLink hold
                    simp only [hnode, haim, false_and, ↓reduceIte] at hlands
                    rw [scan, hdirectory]
                    simp only [hmake', hkeep, false_and, ↓reduceIte, h.link hnode]
                    exact honLink _ _ hlands
                  · obtain ⟨new, hnew, hover⟩ := h _ _ hnode
                    rw [scan_pass hmake' hnew (by simpa [hover.isLink_eq] using hold)]
                    apply ih
                    cases old <;> simp_all [Node.isLink]

/-- Where a lookup lands, it is found in an extension that has an entry there, also where
that is opened again. -/
theorem locate_lands_of_extends (h : Extends before after) {goal : Place}
    (hnew : before.get? goal = none → ∃ node, after.get? goal = some node ∧ node.isLink = false)
    {aim aim' : Aim} (haim : aim ≠ .keep) (haim' : aim' = .follow ∨ aim' = aim)
    {directory : WorkingDirectory} {t : Text}
    (hlands : (before.locate aim directory t).LandsAt aim goal) :
    after.locate aim' directory t = .found goal :=
  locate_related
    (fun landing landing' => landing.LandsAt aim goal → landing' = .found goal)
    (fun _ _ _ hlost => hlost.elim) (fun hlost => hlost.elim)
    (fun _ _ honLink place steps => scan_found_of_extends h hnew haim haim' honLink place steps)
    directory t hlands

/-- Where a lookup lands, it is found in an extension that has an entry there. -/
theorem locate_found_of_extends (h : Extends before after) {goal : Place}
    (hnew : before.get? goal = none → ∃ node, after.get? goal = some node ∧ node.isLink = false)
    {aim : Aim} (haim : aim ≠ .keep) {directory : WorkingDirectory} {t : Text}
    (hlands : (before.locate aim directory t).LandsAt aim goal) :
    after.locate .follow directory t = .found goal :=
  locate_lands_of_extends h hnew haim (.inl rfl) hlands

/-- A lookup that finds an entry finds it in an extension. -/
theorem locate_follow_of_extends (h : Extends before after) {aim : Aim} (haim : aim ≠ .keep)
    {directory : WorkingDirectory} {t : Text} {goal : Place} {node : Node}
    (hnode : before.get? goal = some node) (hfound : before.locate aim directory t = .found goal) :
    after.locate .follow directory t = .found goal := by
  have hlands : (before.locate aim directory t).LandsAt aim goal := hfound ▸ rfl
  exact locate_found_of_extends h (fun hnone => by simp [hnode] at hnone) haim hlands

/-- What a successful writing does: it makes a file, it overwrites one, or its bytes are
taken by something else and nothing changes. -/
inductive Wrote (before : FileSystem) (directory : WorkingDirectory) (t content : Text) :
    FileSystem → Prop where
  | made {parent name} : before.Opens directory t (name :: parent) →
      before.get? parent = some .directory → before.get? (name :: parent) = none →
      Wrote before directory t content (before.create (name :: parent) (.file false content))
  | overwrote {place executable old} : before.Opens directory t place →
      before.get? place = some (.file executable old) →
      Wrote before directory t content (before.replace place (.file executable content))
  | swallowed {place node} : before.locate .make directory t = .found place →
      before.get? place = some node → node.isFile = false →
      Wrote before directory t content before

theorem wrote_of_write {directory : WorkingDirectory} {t content : Text}
    (h : before.write directory t content = .ok after) :
    before.Wrote directory t content after := by
  unfold write at h
  cases hlanding : before.locate .make directory t with
  | removed | failed => simp [hlanding] at h
  | vacant parent name =>
      simp only [hlanding, Except.ok.injEq] at h
      subst h
      obtain ⟨hparent, hfree⟩ := vacant_of_locate hlanding
      refine .made ?_ hparent hfree
      rw [Opens, hlanding]
      exact ⟨rfl, rfl⟩
  | found place =>
      simp only [hlanding] at h
      cases hnode : before.get? place with
      | none => simp [hnode] at h
      | some node =>
          cases node with
          | directory => simp [hnode] at h
          | file executable old =>
              simp only [hnode, Except.ok.injEq] at h
              subst h
              refine .overwrote ?_ hnode
              rw [Opens, hlanding]
              exact rfl
          | fullDevice =>
              simp only [hnode] at h
              split at h
              · exact Except.ok.inj h ▸ .swallowed hlanding hnode rfl
              · simp at h
          | link | pipe | sink =>
              simp only [hnode, Except.ok.injEq] at h
              exact h ▸ .swallowed hlanding hnode rfl

/-- A successful writing leaves the file that it opened with the new content and everything
else as it was, or it found no file at all and did nothing. -/
theorem write_ok {directory : WorkingDirectory} {t content : Text}
    (h : before.write directory t content = .ok after) :
    (∃ place executable, before.Opens directory t place ∧
        after.get? place = some (.file executable content) ∧
        (∀ q, q ≠ place → after.get? q = before.get? q) ∧ Extends before after) ∨
      after = before ∧ ∃ place node, before.locate .make directory t = .found place ∧
        before.get? place = some node ∧ node.isFile = false := by
  cases wrote_of_write h with
  | made hopens hparent hfree =>
      refine .inl ⟨_, false, hopens, ?_, ?_, (grows_create hparent hfree).extends⟩
      · rw [get?_create hparent hfree, if_pos rfl]
      · intro q hq
        rw [get?_create hparent hfree, if_neg hq]
  | @overwrote place executable _ hopens hold =>
      refine .inl ⟨place, executable, hopens, ?_, ?_, extends_overwrite hold⟩
      · rw [get?_overwrite hold, if_pos rfl]
      · intro q hq
        rw [get?_overwrite hold, if_neg hq]
  | swallowed hfound hnode hnofile => exact .inr ⟨rfl, _, _, hfound, hnode, hnofile⟩

theorem extends_of_write {directory : WorkingDirectory} {t content : Text}
    (h : before.write directory t content = .ok after) : Extends before after := by
  rcases write_ok h with ⟨_, _, _, _, _, hextends⟩ | ⟨rfl, -⟩
  · exact hextends
  · exact Extends.refl _

/-- What was opened for writing is found by the same path afterwards. -/
theorem locate_of_opens {directory : WorkingDirectory} {t : Text} {place : Place}
    {node : Node} (h : Extends before after) (hopens : before.Opens directory t place)
    (hnode : after.get? place = some node) (hlink : node.isLink = false) :
    after.locate .follow directory t = .found place :=
  locate_found_of_extends h (fun _ => ⟨node, hnode, hlink⟩) (by decide) hopens

theorem grows_of_makeDirectory {directory : WorkingDirectory} {t : Text}
    (h : before.makeDirectory directory t = .ok after) : Grows before after := by
  unfold makeDirectory at h
  cases hlanding : before.locate .keep directory t with
  | found | removed | failed => simp [hlanding] at h
  | vacant parent name =>
      simp only [hlanding, Except.ok.injEq] at h
      obtain ⟨hparent, hfree⟩ := vacant_of_locate hlanding
      exact h ▸ grows_create hparent hfree

theorem grows_of_ensureLast {directory : WorkingDirectory} {t : Text}
    (h : before.ensureLast directory t = .ok after) : Grows before after := by
  unfold ensureLast at h
  split at h
  · next made hmade =>
      rw [Except.ok.injEq] at h
      exact h ▸ grows_of_makeDirectory hmade
  · simp at h
  · split at h
    · rw [Except.ok.injEq] at h
      exact h ▸ Grows.refl _
    · simp at h
    · simp at h

/-- Making a directory with its ancestors takes nothing away, also where it fails. -/
theorem grows_ensureParts (directory : WorkingDirectory) (root : PathRoot)
    (parts : List Text) (fs : FileSystem) :
    Grows fs (fs.ensureParts directory root parts).1 := by
  induction parts generalizing fs with
  | nil =>
      unfold ensureParts
      simp only
      split
      · next made hmade => exact grows_of_ensureLast hmade
      · exact Grows.refl _
  | cons part outer ih =>
      unfold ensureParts
      simp only
      split
      · next made hmade => exact grows_of_ensureLast hmade
      · have houter := ih fs
        split
        · next above refusal habove => exact habove ▸ houter
        · next above habove =>
            rw [habove] at houter
            split
            · next made hmade => exact houter.trans (grows_of_ensureLast hmade)
            · exact houter
      · exact Grows.refl _

theorem grows_ensureDirectory (fs : FileSystem) (directory : WorkingDirectory) (path : Path) :
    Grows fs (fs.ensureDirectory directory path).1 :=
  grows_ensureParts directory path.root path.parts.reverse fs

theorem grows_of_ensureDirectory {directory : WorkingDirectory} {path : Path}
    {outcome : Except Refusal Unit} (h : before.ensureDirectory directory path = (after, outcome)) :
    Grows before after := by
  have hgrows := before.grows_ensureDirectory directory path
  rwa [h] at hgrows

end FileSystem

end SdkBindings
