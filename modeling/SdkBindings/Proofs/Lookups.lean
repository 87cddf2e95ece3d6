import SdkBindings.Proofs.Extension

/-!
What one lookup of a path tells about another one, in an extension or with another aim.
Main statements: a lookup that arrives does so in every extension; where an entry is
missing, a directory that is made there is found; and what a path names is what it leads
to, unless it is a link.
-/

namespace SdkBindings

/-- A lookup ends at something that is there. -/
def Landing.Arrives : Landing → Prop
  | found _ | removed => True
  | vacant _ _ | failed _ => False

@[simp] theorem Landing.arrives_vacant (parent : Place) (name : Name) :
    (vacant parent name).Arrives ↔ False := Iff.rfl

@[simp] theorem Landing.arrives_failed (reason : Errno) : (failed reason).Arrives ↔ False :=
  Iff.rfl

namespace FileSystem

variable {before after : FileSystem}

theorem scan_of_extends (h : Extends before after) {aim : Aim}
    {onLink onLink' : Place → List Step → Landing}
    (honLink : ∀ place steps, (onLink place steps).Arrives →
      onLink' place steps = onLink place steps)
    (place : Place) (steps : List Step) (harrives : (before.scan aim onLink place steps).Arrives) :
    after.scan aim onLink' place steps = before.scan aim onLink place steps := by
  induction steps generalizing place with
  | nil => rfl
  | cons step rest ih =>
      unfold scan at harrives ⊢
      cases hplace : before.get? place with
      | none => simp [hplace] at harrives
      | some old =>
          cases old <;> simp only [hplace, Landing.arrives_failed] at harrives
          have hdirectory := h.directory hplace
          simp only [hdirectory]
          cases step with
          | stay | close | up => exact ih _ harrives
          | overlong => simp at harrives
          | enter name =>
              by_cases hmake : aim = .make ∧ Step.onlyClose rest
              · simp [hmake] at harrives
              simp only [if_neg hmake] at harrives ⊢
              cases hnode : before.get? (name :: place) with
              | none =>
                  simp only [hnode] at harrives
                  split at harrives <;> simp at harrives
              | some old =>
                  by_cases hold : old.isLink = true
                  · obtain ⟨target, rfl⟩ := Node.exists_of_isLink hold
                    simp only [hnode, h.link hnode] at harrives ⊢
                    by_cases hkeep : aim = .keep ∧ rest = []
                    · rw [if_pos hkeep, if_pos hkeep]
                    · rw [if_neg hkeep] at harrives
                      rw [if_neg hkeep, if_neg hkeep]
                      exact honLink _ _ harrives
                  · obtain ⟨new, hnew, hover⟩ := h _ _ hnode
                    have hlink : ¬ new.isLink = true := by rwa [hover.isLink_eq]
                    simp only [hnode, hnew] at harrives ⊢
                    cases old <;> cases new <;>
                      simp only [Node.isLink, Bool.false_eq_true, not_false_eq_true,
                        not_true_eq_false] at hold hlink harrives ⊢ <;>
                      exact ih _ harrives

/-- A lookup that arrives somewhere arrives there in an extension. -/
theorem locate_of_extends (h : Extends before after) {aim : Aim} {directory : WorkingDirectory}
    {t : Text} (harrives : (before.locate aim directory t).Arrives) :
    after.locate aim directory t = before.locate aim directory t :=
  locate_related
    (fun landing landing' => landing.Arrives → landing' = landing)
    (fun _ _ _ hlost => hlost.elim) (fun _ => rfl)
    (fun _ _ honLink place steps => scan_of_extends h honLink place steps)
    directory t harrives

/-- The steps that are left only ask for a directory. -/
theorem scan_onlyClose {fs : FileSystem} {place : Place} (hplace : fs.get? place = some .directory)
    {onLink : Place → List Step → Landing} {rest : List Step}
    (hrest : rest = [] ∨ Step.onlyClose rest = true) :
    fs.scan .follow onLink place rest = .found place := by
  induction rest with
  | nil => rfl
  | cons step rest ih =>
      simp only [Step.onlyClose, reduceCtorEq, ne_eq, not_false_eq_true, List.all_cons,
        Bool.and_eq_true, decide_eq_true_eq, true_and, false_or] at hrest
      obtain ⟨rfl, hall⟩ := hrest
      rw [scan, hplace]
      apply ih
      cases rest with
      | nil => exact .inl rfl
      | cons => exact .inr (by simpa [Step.onlyClose] using hall)

theorem scan_made_of_vacant (h : Extends before after) {parent : Place} {name : Name}
    (hmade : after.get? (name :: parent) = some .directory) {aim : Aim}
    {onLink onLink' : Place → List Step → Landing}
    (honLink : ∀ place steps, onLink place steps = .vacant parent name →
      onLink' place steps = .found (name :: parent))
    (place : Place) (steps : List Step)
    (hvacant : before.scan aim onLink place steps = .vacant parent name) :
    after.scan .follow onLink' place steps = .found (name :: parent) := by
  induction steps generalizing place with
  | nil => simp [scan] at hvacant
  | cons step rest ih =>
      unfold scan at hvacant
      cases hplace : before.get? place with
      | none => simp [hplace] at hvacant
      | some old =>
          cases old <;> simp only [hplace, reduceCtorEq] at hvacant
          have hdirectory := h.directory hplace
          cases step with
          | stay | close | up =>
              rw [scan, hdirectory]
              exact ih _ hvacant
          | overlong => simp at hvacant
          | enter next =>
              simp only at hvacant
              split at hvacant
              · simp at hvacant
              cases hnode : before.get? (next :: place) with
              | none =>
                  simp only [hnode] at hvacant
                  split at hvacant
                  · next hlast =>
                      -- This is the entry that was missing, and only a slash may follow it.
                      obtain ⟨rfl, rfl⟩ := Landing.vacant.inj hvacant
                      rw [scan_enter (by decide) hmade rfl]
                      exact scan_onlyClose hmade hlast
                  · simp at hvacant
              | some old =>
                  by_cases hold : old.isLink = true
                  · obtain ⟨target, rfl⟩ := Node.exists_of_isLink hold
                    simp only [hnode] at hvacant
                    split at hvacant
                    · simp at hvacant
                    rw [scan, hdirectory]
                    simp only [reduceCtorEq, false_and, ↓reduceIte, h.link hnode]
                    exact honLink _ _ hvacant
                  · obtain ⟨new, hnew, hover⟩ := h _ _ hnode
                    rw [scan_enter (by decide) hnew (by simpa [hover.isLink_eq] using hold)]
                    apply ih
                    cases old <;> simp_all [Node.isLink]

/-- Where a lookup misses an entry, it finds the directory that was made there. -/
theorem locate_made_of_vacant (h : Extends before after) {parent : Place} {name : Name}
    (hmade : after.get? (name :: parent) = some .directory) {aim : Aim}
    {directory : WorkingDirectory} {t : Text}
    (hvacant : before.locate aim directory t = .vacant parent name) :
    after.locate .follow directory t = .found (name :: parent) :=
  locate_related
    (fun landing landing' => landing = .vacant parent name →
      landing' = .found (name :: parent))
    (fun _ _ _ hfailed => by simp at hfailed) (fun hremoved => by simp at hremoved)
    (fun _ _ honLink place steps => scan_made_of_vacant h hmade honLink place steps)
    directory t hvacant

variable {fs : FileSystem}

theorem scan_keep_eq_or_found {onLink onLink' : Place → List Step → Landing}
    (honLink : ∀ place steps, onLink place steps = onLink' place steps ∨
      ∃ goal, onLink place steps = .found goal)
    (place : Place) (steps : List Step) :
    fs.scan .keep onLink place steps = fs.scan .follow onLink' place steps ∨
      ∃ goal, fs.scan .keep onLink place steps = .found goal := by
  induction steps generalizing place with
  | nil => exact .inl rfl
  | cons step rest ih =>
      unfold scan
      cases hplace : fs.get? place with
      | none => exact .inl rfl
      | some node =>
          cases node with
          | file | link | pipe | sink | fullDevice => exact .inl rfl
          | directory =>
              cases step with
              | stay | close | up => exact ih _
              | overlong => exact .inl rfl
              | enter name =>
                  simp only [reduceCtorEq, false_and, ↓reduceIte, true_and]
                  cases hnode : fs.get? (name :: place) with
                  | none => exact .inl rfl
                  | some node =>
                      cases node with
                      | link target =>
                          by_cases hlast : rest = []
                          · exact .inr ⟨name :: place, by simp [hlast]⟩
                          · simp only [hlast, ↓reduceIte]
                            exact honLink _ _
                      | directory | file | pipe | sink | fullDevice => exact ih _

/-- Only a link as the last component makes a difference between what a path names and
what it leads to. -/
theorem locate_keep_eq_or_found (fs : FileSystem) (directory : WorkingDirectory) (t : Text) :
    fs.locate .keep directory t = fs.locate .follow directory t ∨
      ∃ goal, fs.locate .keep directory t = .found goal :=
  locate_related
    (fun landing landing' => landing = landing' ∨ ∃ goal, landing = .found goal)
    (fun _ _ hsame => .inl (congrArg Landing.failed (hsame (by simp)))) (.inl rfl)
    (fun _ _ honLink place steps => scan_keep_eq_or_found honLink place steps) directory t

end FileSystem

end SdkBindings
