import Mathlib.Algebra.GroupWithZero.Nat
import SdkBindings.Proofs.HeaderSearch

/-!
The lookup of a text and of the path that it spells.  A step that stays where it is makes
no difference, except that at the end of a path it asks for a directory.  Main statements:
a path leads where its spelling leads, and where the spelling leads nowhere the path leads
nowhere either, or to something that is no directory; and a name inside a path leads where
it leads inside the spelling.
-/

namespace SdkBindings

namespace Step

/-- Steps that stay in the directory that was reached. -/
def isIdle : Step → Bool
  | stay | close => true
  | up | enter _ | overlong => false

/-- The same steps but for idle ones: an idle step can stand for another one, and can be
left out, at the end only if this is allowed. -/
inductive Tidies (atEnd : Prop) : List Step → List Step → Prop where
  | nil : Tidies atEnd [] []
  | keep {steps tidy} (step : Step) :
      Tidies atEnd steps tidy → Tidies atEnd (step :: steps) (step :: tidy)
  | swap {step step' steps tidy} : step.isIdle = true → step'.isIdle = true →
      Tidies atEnd steps tidy → Tidies atEnd (step :: steps) (step' :: tidy)
  | drop {step steps tidy} : step.isIdle = true → tidy ≠ [] ∨ atEnd →
      Tidies atEnd steps tidy → Tidies atEnd (step :: steps) tidy

variable {atEnd : Prop} {steps tidy : List Step}

theorem Tidies.behind (h : Tidies atEnd steps tidy) (first : List Step) :
    Tidies atEnd (first ++ steps) (first ++ tidy) := by
  induction first with
  | nil => exact h
  | cons step first ih => exact .keep step ih

theorem Tidies.refl (steps : List Step) : Tidies atEnd steps steps := by
  have hnil : Tidies atEnd [] [] := .nil
  simpa using hnil.behind steps

theorem tidies_nil (h : steps.all isIdle = true) : Tidies True steps [] := by
  induction steps with
  | nil => exact .nil
  | cons step steps ih =>
      simp only [List.all_cons, Bool.and_eq_true] at h
      exact .drop h.1 (.inr trivial) (ih h.2)

/-- Of the components between slashes those that lead nowhere are left out. -/
theorem tidies_filter (h : Tidies atEnd steps tidy) (hend : tidy ≠ [] ∨ atEnd)
    (parts : List Text) :
    Tidies atEnd ((parts.filter (· ≠ [])).map ofPart ++ steps)
      ((parts.filter Path.keeps).map ofPart ++ tidy) := by
  induction parts with
  | nil => exact h
  | cons part parts ih =>
      by_cases hempty : part = []
      · subst hempty
        exact ih
      rw [List.filter_cons_of_pos (by simpa using hempty)]
      by_cases hkeeps : Path.keeps part = true
      · rw [List.filter_cons_of_pos hkeeps]
        exact .keep _ ih
      · have hhere : part = Path.here := by simpa [Path.keeps, hempty] using hkeeps
        rw [List.filter_cons_of_neg hkeeps]
        refine .drop (by rw [hhere]; rfl) ?_ ih
        exact hend.imp_left fun hne => List.append_ne_nil_of_right_ne_nil _ hne

end Step

open Step (Tidies)

namespace FileSystem

variable {fs : FileSystem} {atEnd : Prop} {steps tidy : List Step}

/-- What stands where a lookup ends. -/
def nodeAt (fs : FileSystem) : Landing → Except Errno Node
  | .found place =>
    match fs.get? place with
    | some node => .ok node
    | none => .error .noEntry
  | .vacant _ _ => .error .noEntry
  | .removed => .ok .directory
  | .failed reason => .error reason

theorem stat_eq_nodeAt (fs : FileSystem) (directory : WorkingDirectory) (t : Text) :
    fs.stat directory t = fs.nodeAt (fs.locate .follow directory t) := rfl

/-- Two lookups end alike, or something that is no directory is at the end of the second
one, and the first one asks for a directory there. -/
inductive EndsLike (fs : FileSystem) (atEnd : Prop) : Landing → Landing → Prop where
  | same {landing} : EndsLike fs atEnd landing landing
  | nothing {landing landing'} : fs.nodeAt landing = .error .noEntry →
      fs.nodeAt landing' = .error .noEntry → EndsLike fs atEnd landing landing'
  | notDirectory {place node} : atEnd → fs.get? place = some node → node ≠ .directory →
      EndsLike fs atEnd (.failed .notDirectory) (.found place)

theorem EndsLike.nodeAt_eq {landing landing' : Landing} (h : fs.EndsLike atEnd landing landing')
    (hend : ¬ atEnd) : fs.nodeAt landing' = fs.nodeAt landing := by
  cases h with
  | same => rfl
  | nothing hnone hnone' => rw [hnone, hnone']
  | notDirectory htidy => exact absurd htidy hend

theorem EndsLike.directory_iff {landing landing' : Landing}
    (h : fs.EndsLike atEnd landing landing') :
    fs.nodeAt landing' = .ok .directory ↔ fs.nodeAt landing = .ok .directory := by
  cases h with
  | same => rfl
  | nothing hnone hnone' => rw [hnone, hnone']
  | notDirectory _ hnode hne => simp [nodeAt, hnode, hne]

theorem EndsLike.error {landing landing' : Landing} (h : fs.EndsLike atEnd landing landing')
    {reason : Errno} (herror : fs.nodeAt landing' = .error reason) :
    fs.nodeAt landing = .error reason := by
  cases h with
  | same => exact herror
  | nothing hnone hnone' => exact hnone.trans (hnone'.symm.trans herror)
  | notDirectory _ hnode _ => simp [nodeAt, hnode] at herror

section

variable {aim : Aim} {onLink : Place → List Step → Landing} {place : Place} {step : Step}
  {rest : List Step}

/-- No step leads on where nothing is. -/
theorem scan_of_none (h : fs.get? place = none) :
    fs.scan aim onLink place (step :: rest) = .failed .noEntry := by
  unfold scan
  rw [h]

/-- No step leads on from what is no directory. -/
theorem scan_of_not_directory {node : Node} (h : fs.get? place = some node)
    (hne : node ≠ .directory) :
    fs.scan aim onLink place (step :: rest) = .failed .notDirectory := by
  unfold scan
  rw [h]
  cases node with
  | directory => exact absurd rfl hne
  | file | link | pipe | sink | fullDevice => rfl

theorem scan_of_isIdle (h : fs.get? place = some .directory) (hidle : step.isIdle = true) :
    fs.scan aim onLink place (step :: rest) = fs.scan aim onLink place rest := by
  cases step with
  | stay | close => rw [scan, h]
  | up | enter | overlong => simp [Step.isIdle] at hidle

end

theorem scan_tidies {onLink onLink' : Place → List Step → Landing}
    (honLink : ∀ place {steps tidy}, Tidies atEnd steps tidy →
      fs.EndsLike atEnd (onLink place steps) (onLink' place tidy))
    (h : Tidies atEnd steps tidy) (place : Place) :
    fs.EndsLike atEnd (fs.scan .follow onLink place steps)
      (fs.scan .follow onLink' place tidy) := by
  induction h generalizing place with
  | nil => exact .same
  | @keep steps tidy step h ih =>
      unfold scan
      cases hplace : fs.get? place with
      | none => exact .same
      | some node =>
          cases node with
          | file | link | pipe | sink | fullDevice => exact .same
          | directory =>
              cases step with
              | stay | close | up => exact ih _
              | overlong => exact .same
              | enter name =>
                  simp only [reduceCtorEq, false_and, ↓reduceIte]
                  cases hnode : fs.get? (name :: place) with
                  | none =>
                      simp only
                      refine .nothing ?_ ?_ <;> split <;> rfl
                  | some node =>
                      cases node with
                      | link target => exact honLink _ (h.behind _)
                      | directory | file | pipe | sink | fullDevice => exact ih _
  | swap hidle hidle' _ ih =>
      cases hplace : fs.get? place with
      | none =>
          rw [scan_of_none hplace, scan_of_none hplace]
          exact .same
      | some node =>
          by_cases hdirectory : node = .directory
          · subst hdirectory
            rw [scan_of_isIdle hplace hidle, scan_of_isIdle hplace hidle']
            exact ih place
          · rw [scan_of_not_directory hplace hdirectory, scan_of_not_directory hplace hdirectory]
            exact .same
  | @drop step steps tidy hidle hend _ ih =>
      cases hplace : fs.get? place with
      | none =>
          rw [scan_of_none hplace]
          cases tidy with
          | nil => exact .nothing rfl (by simp [scan, nodeAt, hplace])
          | cons =>
              rw [scan_of_none hplace]
              exact .same
      | some node =>
          by_cases hdirectory : node = .directory
          · subst hdirectory
            rw [scan_of_isIdle hplace hidle]
            exact ih place
          · rw [scan_of_not_directory hplace hdirectory]
            cases tidy with
            | nil => exact .notDirectory (hend.resolve_left (by simp)) hplace hdirectory
            | cons =>
                rw [scan_of_not_directory hplace hdirectory]
                exact .same

theorem walk_tidies {budget : Nat} (h : Tidies atEnd steps tidy) (place : Place) :
    fs.EndsLike atEnd (fs.walk .follow budget place steps) (fs.walk .follow budget place tidy) := by
  induction budget generalizing place steps tidy with
  | zero => exact scan_tidies (fun _ _ _ _ => .same) h place
  | succ budget ih => exact scan_tidies (fun place _ _ h => ih h place) h place

/-- In a directory that was taken away idle steps lead nowhere, as elsewhere. -/
theorem climb_tidies (h : Tidies atEnd steps tidy) (place : Place) (levels : Nat) :
    fs.EndsLike atEnd (fs.climb .follow place levels steps)
      (fs.climb .follow place levels tidy) := by
  have hzero : ∀ steps, fs.climb .follow place 0 steps = fs.walk .follow linkBudget place steps :=
    fun steps => by rw [climb]
  have hidle : ∀ {step : Step}, step.isIdle = true → ∀ levels rest,
      fs.climb .follow place (levels + 1) (step :: rest)
        = fs.climb .follow place (levels + 1) rest := by
    intro step hstep levels rest
    cases step with
    | stay | close => rfl
    | up | enter | overlong => simp [Step.isIdle] at hstep
  induction h generalizing levels with
  | nil => exact .same
  | @keep steps tidy step h ih =>
      cases levels with
      | zero => exact walk_tidies (.keep step h) place
      | succ levels =>
          cases step with
          | stay | close => exact ih (levels + 1)
          | up => exact ih levels
          | enter | overlong => exact .nothing rfl rfl
  | swap hstep hstep' h ih =>
      cases levels with
      | zero => exact walk_tidies (.swap hstep hstep' h) place
      | succ levels =>
          rw [hidle hstep, hidle hstep']
          exact ih (levels + 1)
  | drop hstep hend h ih =>
      cases levels with
      | zero =>
          rw [hzero, hzero]
          exact walk_tidies (.drop hstep hend h) place
      | succ levels =>
          rw [hidle hstep]
          exact ih (levels + 1)

/-- Two texts with the same steps, but for idle ones, are looked up alike, unless the first
one is too long. -/
theorem locate_tidies {t t' : Text} (hne : t ≠ []) (hne' : t' ≠ [])
    (hroot : isAbsolute t = isAbsolute t') (hlength : t'.length ≤ t.length)
    (h : Tidies atEnd (Step.ofText t) (Step.ofText t')) (directory : WorkingDirectory)
    (hlimit : t.length ≤ pathLimit) :
    fs.EndsLike atEnd (fs.locate .follow directory t) (fs.locate .follow directory t') := by
  have hlimit' : ¬ pathLimit < t'.length := by omega
  unfold locate
  rw [if_neg (Nat.not_lt.mpr hlimit), if_neg hne, if_neg hlimit', if_neg hne', ← hroot]
  split
  · exact walk_tidies h []
  · exact climb_tidies h _ _

end FileSystem

/-- The bytes of pieces and of a separator behind each of them. -/
def Text.weight (pieces : List Text) : Nat :=
  (pieces.map fun piece => piece.length + 1).sum

namespace Text

@[simp] theorem weight_nil : weight [] = 0 := rfl

@[simp] theorem weight_cons (piece : Text) (pieces : List Text) :
    weight (piece :: pieces) = piece.length + 1 + weight pieces := by
  simp [weight]

theorem weight_append (pieces pieces' : List Text) :
    weight (pieces ++ pieces') = weight pieces + weight pieces' := by
  simp [weight]

theorem weight_filter_le (keeps : Text → Bool) (pieces : List Text) :
    weight (pieces.filter keeps) ≤ weight pieces := by
  induction pieces with
  | nil => exact Nat.le_refl _
  | cons piece pieces ih =>
      rw [List.filter_cons]
      split <;> simp only [weight_cons] <;> omega

theorem length_joinWith (sep : UInt8) {pieces : List Text} (h : pieces ≠ []) :
    (joinWith [sep] pieces).length + 1 = weight pieces := by
  induction pieces with
  | nil => contradiction
  | cons piece pieces ih =>
      cases pieces with
      | nil => simp [joinWith]
      | cons next others =>
          have hrest := ih (by simp)
          rw [joinWith, weight_cons, ← hrest]
          simp
          omega

theorem weight_fields (sep : UInt8) (t : Text) : weight (fields sep t) = t.length + 1 := by
  rw [← length_joinWith sep (fields_ne_nil sep t), joinWith_fields]

end Text

namespace Path

theorem length_rootText_le (root : PathRoot) : root.text.length ≤ 2 := by
  cases root <;> decide

theorem weight_parts_le (t : Text) : Text.weight (ofText t).parts ≤ t.length + 1 :=
  Text.weight_fields Text.slash t ▸ Text.weight_filter_le keeps _

/-- A slash at the head of a text makes no component. -/
theorem parts_slash (rest : Text) : (ofText (Text.slash :: rest)).parts = (ofText rest).parts := by
  rw [ofText, Text.fields_cons_sep]
  rfl

/-- The components that are left out make room for the root. -/
theorem length_root_le (t : Text) :
    (ofText t).root.text.length ≤ t.length ∧
      (ofText t).root.text.length + Text.weight (ofText t).parts ≤ t.length + 1 := by
  cases t with
  | nil => decide
  | cons b t =>
      by_cases hb : b = Text.slash
      · subst hb
        cases t with
        | nil => decide
        | cons c rest =>
            rw [parts_slash]
            by_cases hc : c = Text.slash
            · -- Both slashes of a root of two are followed by a component that is left out.
              subst hc
              have hroot := length_rootText_le (ofText (Text.slash :: Text.slash :: rest)).root
              have hrest := weight_parts_le rest
              rw [parts_slash]
              simp only [List.length_cons]
              omega
            · have hroot : (ofText (Text.slash :: c :: rest)).root.text.length = 1 := by
                simp [ofText, PathRoot.ofText, PathRoot.text, hc]
              have hrest := weight_parts_le (c :: rest)
              simp only [List.length_cons] at hrest ⊢
              omega
      · have hroot : (ofText (b :: t)).root.text.length = 0 := by
          simp [ofText, PathRoot.ofText, PathRoot.text, hb]
        have hrest := weight_parts_le (b :: t)
        simp only [List.length_cons] at hrest ⊢
        omega

theorem text_eq_of_parts {p : Path} (h : p.parts ≠ []) :
    p.text = p.root.text ++ Text.joinWith [Text.slash] p.parts := by
  rw [text, if_neg fun hempty => h hempty.2]

/-- A path is not longer than its spelling. -/
theorem length_text_le {t : Text} (h : t ≠ []) : (ofText t).text.length ≤ t.length := by
  obtain ⟨hroot, hweight⟩ := length_root_le t
  by_cases hparts : (ofText t).parts = []
  · have hpos := List.length_pos_iff.mpr h
    rw [text]
    split
    · exact hpos
    · rw [hparts, Text.joinWith, List.append_nil]
      exact hroot
  · rw [text_eq_of_parts hparts, List.length_append]
    have hlength := Text.length_joinWith Text.slash hparts
    omega

theorem text_ne_nil {p : Path} (hp : p.IsNormal) : p.text ≠ [] := by
  intro hnil
  have hread := ofText_text hp
  rw [hnil] at hread
  subst hread
  exact absurd hnil (by decide)

theorem isAbsolute_text_ofText (t : Text) : isAbsolute (ofText t).text = isAbsolute t := by
  rw [Bool.eq_iff_iff, isAbsolute_text (isNormal_ofText t), isAbsolute_iff]
  rfl

/-- A path inside another one is not longer than its spelling. -/
theorem length_text_child_le {name : Text} (hkeeps : keeps name = true)
    (hslash : Text.slash ∉ name) (t : Text) :
    ((ofText t).child name).text.length ≤ (t ++ Text.slash :: name).length := by
  obtain ⟨-, hweight⟩ := length_root_le t
  have hne : (ofText t).parts ++ [name] ≠ [] := by simp
  have hlength := Text.length_joinWith Text.slash hne
  rw [child_eq hkeeps hslash, text_eq_of_parts hne]
  rw [Text.weight_append, Text.weight_cons, Text.weight_nil] at hlength
  simp only [List.length_append, List.length_cons] at *
  omega

theorem IsNormal.child {p : Path} (hp : p.IsNormal) {name : Text} (hkeeps : keeps name = true)
    (hslash : Text.slash ∉ name) : (p.child name).IsNormal := by
  rw [child_eq hkeeps hslash]
  intro part hpart
  rcases List.mem_append.mp hpart with hpart | hpart
  · exact hp part hpart
  · exact List.mem_singleton.mp hpart ▸ ⟨hkeeps, hslash⟩

/-- Whether a path inside another one is absolute is seen from its spelling. -/
theorem isAbsolute_text_child {name : Text} (hkeeps : keeps name = true)
    (hslash : Text.slash ∉ name) {t : Text} (h : t ≠ []) :
    isAbsolute ((ofText t).child name).text = isAbsolute (t ++ Text.slash :: name) := by
  have hhead : isAbsolute (t ++ Text.slash :: name) = isAbsolute t := by
    obtain ⟨b, rest, rfl⟩ := List.exists_cons_of_ne_nil h
    rfl
  rw [hhead, Bool.eq_iff_iff, isAbsolute_text ((isNormal_ofText t).child hkeeps hslash),
    child_eq hkeeps hslash, isAbsolute_iff]
  rfl

end Path

namespace Step

theorem ofText_of_getLast? {t : Text} (h : t.getLast? ≠ some Text.slash) :
    ofText t = ((Text.fields Text.slash t).filter (· ≠ [])).map ofPart := by
  rw [ofText, if_neg h, List.append_nil]

theorem ofText_ne_nil {t : Text} (h : t ≠ []) : ofText t ≠ [] := by
  induction t with
  | nil => contradiction
  | cons b rest ih =>
      by_cases hb : b = Text.slash
      · subst hb
        by_cases hrest : rest = []
        · subst hrest
          decide
        · have hskip : ofText (Text.slash :: rest) = ofText rest := by
            rw [ofText, Text.fields_cons_sep, List.getLast?_cons_of_ne_nil hrest]
            rfl
          rw [hskip]
          exact ih hrest
      · obtain ⟨first, others, -, hfields⟩ := Text.fields_cons_of_ne hb rest
        simp [ofText, hfields]

theorem Tidies.all_isIdle {steps : List Step} {atEnd : Prop} (h : Tidies atEnd steps []) :
    steps.all isIdle = true := by
  generalize htidy : ([] : List Step) = tidy at h
  induction h with
  | nil => rfl
  | keep | swap => contradiction
  | drop hidle _ _ ih => rw [List.all_cons, hidle, ih htidy, Bool.and_self]

/-- A path has the steps of its spelling, but for idle ones. -/
theorem tidies_text {t : Text} (h : t ≠ []) :
    Tidies True (ofText t) (ofText (Path.ofText t).text) := by
  have hcore : Tidies True (ofText t) ((Path.ofText t).parts.map ofPart) := by
    have hend : Tidies True (if t.getLast? = some Text.slash then [close] else []) [] :=
      tidies_nil (by split <;> rfl)
    have htidy := tidies_filter hend (.inr trivial) (Text.fields Text.slash t)
    rwa [List.append_nil] at htidy
  by_cases hparts : (Path.ofText t).parts = []
  · -- Here and the roots are a single idle step, and the spelling is one or more of them.
    rw [hparts] at hcore
    have hidle := hcore.all_isIdle
    obtain ⟨step, steps, hsteps⟩ := List.exists_cons_of_ne_nil (ofText_ne_nil h)
    rw [hsteps] at hidle ⊢
    simp only [List.all_cons, Bool.and_eq_true] at hidle
    have hend : Tidies True steps [] := tidies_nil hidle.2
    have htext : ∃ step' : Step, step'.isIdle = true ∧ ofText (Path.ofText t).text = [step'] := by
      rw [Path.text, hparts]
      cases (Path.ofText t).root with
      | relative => exact ⟨.stay, rfl, by decide⟩
      | one | two => exact ⟨.close, rfl, by decide⟩
    obtain ⟨step', hidle', hsingle⟩ := htext
    rw [hsingle]
    exact .swap hidle.1 hidle' hend
  · rwa [Path.steps_text (Path.isNormal_ofText t) hparts]

/-- Behind a name nothing is left out. -/
theorem tidies_child {name : Text} (hkeeps : Path.keeps name = true) (hslash : Text.slash ∉ name)
    (t : Text) :
    Tidies False (ofText (t ++ Text.slash :: name)) (ofText ((Path.ofText t).child name).text) := by
  have hne : name ≠ [] := by
    rintro rfl
    simp [Path.keeps] at hkeeps
  have hlast : (t ++ Text.slash :: name).getLast? ≠ some Text.slash := by
    rw [List.append_cons, List.getLast?_append, List.getLast?_eq_some_getLast hne, Option.some_or,
      ← List.getLast?_eq_some_getLast hne]
    exact fun hlast => hslash (List.mem_of_getLast? hlast)
  have hparts : ((Path.ofText t).child name).parts ≠ [] := by
    simp [Path.child_eq hkeeps hslash]
  rw [Path.steps_text ((Path.isNormal_ofText t).child hkeeps hslash) hparts,
    ofText_of_getLast? hlast, Path.child_eq hkeeps hslash, Text.fields_append_cons,
    Text.fields_eq_of_not_mem hslash, List.filter_append, List.map_append, List.map_append,
    List.filter_cons_of_pos (by simpa using hne)]
  exact tidies_filter (.refl _) (.inl (by simp)) (Text.fields Text.slash t)

end Step

namespace FileSystem

variable (fs : FileSystem) (directory : WorkingDirectory) {t : Text}

/-- A path is looked up as its spelling is, unless this is too long. -/
theorem locate_text (h : t ≠ []) (hlimit : t.length ≤ pathLimit) :
    fs.EndsLike True (fs.locate .follow directory t)
      (fs.locate .follow directory (Path.ofText t).text) :=
  locate_tidies h (Path.text_ne_nil (Path.isNormal_ofText t))
    (Path.isAbsolute_text_ofText t).symm (Path.length_text_le h) (Step.tidies_text h) directory
    hlimit

/-- A name inside a path leads to what it leads to inside the spelling. -/
theorem stat_child {name : Text} (hkeeps : Path.keeps name = true) (hslash : Text.slash ∉ name)
    (h : t ≠ []) (hlimit : (t ++ Text.slash :: name).length ≤ pathLimit) :
    fs.stat directory ((Path.ofText t).child name).text =
      fs.stat directory (t ++ Text.slash :: name) := by
  have hnormal := (Path.isNormal_ofText t).child hkeeps hslash
  have hends : fs.EndsLike False (fs.locate .follow directory (t ++ Text.slash :: name))
      (fs.locate .follow directory ((Path.ofText t).child name).text) :=
    locate_tidies (by simp) (Path.text_ne_nil hnormal)
      (Path.isAbsolute_text_child hkeeps hslash h).symm
      (Path.length_text_child_le hkeeps hslash t) (Step.tidies_child hkeeps hslash t) directory
      hlimit
  rw [stat_eq_nodeAt, stat_eq_nodeAt]
  exact hends.nodeAt_eq id

/-- A path leads to a directory if its spelling does. -/
theorem stat_text_eq_directory_iff (h : t ≠ []) (hlimit : t.length ≤ pathLimit) :
    fs.stat directory (Path.ofText t).text = .ok .directory ↔
      fs.stat directory t = .ok .directory := by
  rw [stat_eq_nodeAt, stat_eq_nodeAt]
  exact (fs.locate_text directory h hlimit).directory_iff

/-- A path leads nowhere only for the reason for which its spelling does. -/
theorem stat_text_error (h : t ≠ []) (hlimit : t.length ≤ pathLimit) {reason : Errno}
    (herror : fs.stat directory (Path.ofText t).text = .error reason) :
    fs.stat directory t = .error reason := by
  rw [stat_eq_nodeAt] at herror ⊢
  exact (fs.locate_text directory h hlimit).error herror

end FileSystem

end SdkBindings
