import SdkBindings.Canonical
import SdkBindings.Proofs.Walk

/-!
The spelling of a walk.  A route stands at a spot if its components lead there and none
of them is a link.  Main statements: a route stands at one spot at most, the system looks
up the next component of a route at the spot where the route stands, and the absolute
path of a route is that of its spot.
-/

namespace SdkBindings

namespace Route

/-- A route as a path.  The route that has not moved has another text than its path. -/
def path : Route → Path
  | fromRoot names => ⟨.one, names.reverse⟩
  | fromHere levelsUp names => ⟨.relative, List.replicate levelsUp Path.up ++ names.reverse⟩

/-- The spot from which a route leads on. -/
def origin (directory : WorkingDirectory) : Route → WorkingDirectory
  | fromRoot _ => .ofPlace []
  | fromHere _ _ => directory

@[simp] theorem parts_enter (route : Route) (part : Text) :
    (route.enter part).path.parts = route.path.parts ++ [part] := by
  cases route <;> simp [enter, path]

@[simp] theorem origin_enter (route : Route) (part : Text) (directory : WorkingDirectory) :
    (route.enter part).origin directory = route.origin directory := by
  cases route <;> rfl

@[simp] theorem back_enter (route : Route) (part : Text) : (route.enter part).back = route := by
  cases route <;> rfl

theorem parts_up (levels : Nat) :
    (fromHere (levels + 1) []).path.parts = (fromHere levels []).path.parts ++ [Path.up] := by
  simp [path, List.replicate_succ']

theorem enter_injective {route other : Route} {part part' : Text}
    (h : route.enter part = other.enter part') : route = other ∧ part = part' := by
  have hback := congrArg back h
  rw [back_enter, back_enter] at hback
  subst hback
  cases route <;> simp_all [enter]

theorem enter_ne_root (route : Route) (part : Text) : route.enter part ≠ fromRoot [] := by
  cases route <;> simp [enter]

theorem enter_ne_fromHere (route : Route) (part : Text) (levels : Nat) :
    route.enter part ≠ fromHere levels [] := by
  cases route <;> simp [enter]

theorem isNormal_fromHere (levels : Nat) : (fromHere levels []).path.IsNormal := by
  intro part hpart
  simp only [path, List.reverse_nil, List.append_nil, List.mem_replicate] at hpart
  rw [hpart.2]
  decide

/-- A route that has moved has the text of its path. -/
theorem text_eq {route : Route} (h : route.path.parts ≠ []) : route.text = route.path.text := by
  cases route with
  | fromRoot names => rfl
  | fromHere levelsUp names =>
      rw [Path.text, if_neg fun hempty => h hempty.2]
      rfl

theorem isAbsolute_fromRoot (names : List Text) : isAbsolute (fromRoot names).text = true := rfl

theorem isAbsolute_fromHere {levelsUp : Nat} {names : List Text}
    (h : (fromHere levelsUp names).path.IsNormal) :
    isAbsolute (fromHere levelsUp names).text = false :=
  decide_eq_false (Path.head?_joinWith_ne_slash h)

/-- The text of a route reads back as its path, also where it has not moved. -/
theorem ofText_text {route : Route} (h : route.path.IsNormal) :
    Path.ofText route.text = route.path := by
  by_cases hparts : route.path.parts = []
  · cases route with
    | fromRoot names => exact Path.ofText_text h
    | fromHere levelsUp names =>
        obtain ⟨hlevels, hnames⟩ := List.append_eq_nil_iff.mp hparts
        rw [List.replicate_eq_nil_iff] at hlevels
        rw [List.reverse_eq_nil_iff] at hnames
        subst hlevels hnames
        rfl
  · rw [text_eq hparts, Path.ofText_text h]

end Route

namespace Path

/-- The text of a path in normal form does not end in a slash, unless it is a root. -/
theorem getLast?_joinWith_ne_slash {parts : List Text}
    (h : ∀ part ∈ parts, keeps part = true ∧ Text.slash ∉ part) :
    (Text.joinWith [Text.slash] parts).getLast? ≠ some Text.slash := by
  induction parts with
  | nil => simp [Text.joinWith]
  | cons part others ih =>
      cases others with
      | nil =>
          intro hlast
          exact (h part List.mem_cons_self).2 (List.mem_of_getLast? hlast)
      | cons next others =>
          have hrest : Text.joinWith [Text.slash] (next :: others) ≠ [] := by
            have hnext := (h next (by simp)).1
            cases others <;> simp_all [Text.joinWith, keeps]
          have hlast := ih fun p hp => h p (List.mem_cons_of_mem part hp)
          rw [Text.joinWith, List.getLast?_append, List.getLast?_eq_some_getLast hrest,
            Option.some_or, ← List.getLast?_eq_some_getLast hrest]
          exact hlast

/-- The system takes a path in normal form component by component. -/
theorem steps_text {p : Path} (hp : p.IsNormal) (hne : p.parts ≠ []) :
    Step.ofText p.text = p.parts.map Step.ofPart := by
  obtain ⟨root, parts⟩ := p
  have hlast := getLast?_joinWith_ne_slash hp
  have hfields := Text.fields_joinWith hne fun part hpart => (hp part hpart).2
  have hjoin : Text.joinWith [Text.slash] parts ≠ [] := by
    intro hempty
    rw [hempty] at hfields
    have hpart := (hp [] (hfields ▸ List.mem_singleton_self [])).1
    simp [keeps] at hpart
  have hkept : parts.filter (· ≠ []) = parts := by
    refine List.filter_eq_self.mpr fun part hpart => ?_
    have hkeeps := (hp part hpart).1
    simp_all [keeps]
  have hend : ∀ lead : Text,
      (lead ++ Text.joinWith [Text.slash] parts).getLast? ≠ some Text.slash := by
    intro lead
    rw [List.getLast?_append, List.getLast?_eq_some_getLast hjoin, Option.some_or,
      ← List.getLast?_eq_some_getLast hjoin]
    exact hlast
  have hnormal : (⟨root, parts⟩ : Path).text
      = root.text ++ Text.joinWith [Text.slash] parts := by
    rw [text, if_neg fun hempty => hne hempty.2]
  rw [hnormal, Step.ofText, if_neg (hend root.text), List.append_nil]
  congr 1
  cases root with
  | relative => rw [PathRoot.text, List.nil_append, hfields, hkept]
  | one =>
      rw [PathRoot.text, List.singleton_append, Text.fields_cons_sep, hfields,
        List.filter_cons_of_neg (by simp), hkept]
  | two =>
      rw [PathRoot.text, List.cons_append, List.singleton_append, Text.fields_cons_sep,
        Text.fields_cons_sep, hfields, List.filter_cons_of_neg (by simp),
        List.filter_cons_of_neg (by simp), hkept]

end Path

namespace FileSystem

variable {fs : FileSystem} {directory : WorkingDirectory}

/-- A route stands at a spot. -/
inductive At (fs : FileSystem) (directory : WorkingDirectory) :
    Route → WorkingDirectory → Prop where
  | root : At fs directory (.fromRoot []) (.ofPlace [])
  | here : At fs directory (.fromHere 0 []) directory
  | up {levels spot} :
      At fs directory (.fromHere levels []) spot →
      fs.Stands spot →
      At fs directory (.fromHere (levels + 1) []) spot.up
  | enter {route next place node} {name : Name} :
      At fs directory route (.ofPlace place) →
      next = route.enter name.text →
      fs.get? (name :: place) = some node →
      node.isLink = false →
      At fs directory next (.ofPlace (name :: place))

namespace At

theorem unique {route : Route} {spot spot' : WorkingDirectory}
    (h : fs.At directory route spot) (h' : fs.At directory route spot') : spot = spot' := by
  induction h generalizing spot' with
  | root =>
      cases h' with
      | root => rfl
      | enter _ hnext => exact absurd hnext.symm (Route.enter_ne_root _ _)
  | here =>
      cases h' with
      | here => rfl
      | enter _ hnext => exact absurd hnext.symm (Route.enter_ne_fromHere _ _ _)
  | up _ _ ih =>
      cases h' with
      | up hroute _ => rw [ih hroute]
      | enter _ hnext => exact absurd hnext.symm (Route.enter_ne_fromHere _ _ _)
  | enter _ hnext _ _ ih =>
      cases h' with
      | root => exact absurd hnext.symm (Route.enter_ne_root _ _)
      | here => exact absurd hnext.symm (Route.enter_ne_fromHere _ _ _)
      | up => exact absurd hnext.symm (Route.enter_ne_fromHere _ _ _)
      | enter hroute hnext' =>
          obtain ⟨rfl, hname⟩ := Route.enter_injective (hnext.symm.trans hnext')
          obtain rfl := Name.eq_of_text_eq hname
          have hplace := ih hroute
          simp only [WorkingDirectory.ofPlace, WorkingDirectory.mk.injEq, and_true] at hplace
          rw [hplace]

/-- One component back on a route is one level up. -/
theorem back {route : Route} {spot : WorkingDirectory} (h : fs.At directory route spot)
    (hstands : fs.Stands spot) : fs.At directory route.back spot.up := by
  cases h with
  | root => exact .root
  | here => exact .up .here hstands
  | up hroute hbelow => exact .up (.up hroute hbelow) hstands
  | enter hroute hnext =>
      subst hnext
      rw [Route.back_enter]
      exact hroute

theorem isNormal {route : Route} {spot : WorkingDirectory} (h : fs.At directory route spot) :
    route.path.IsNormal := by
  induction h with
  | root | here => exact fun _ hpart => by simp [Route.path] at hpart
  | up _ _ ih =>
      intro part hpart
      rw [Route.parts_up, List.mem_append, List.mem_singleton] at hpart
      rcases hpart with hpart | rfl
      · exact ih part hpart
      · decide
  | @enter _ _ _ _ name _ hnext _ _ ih =>
      subst hnext
      intro part hpart
      rw [Route.parts_enter, List.mem_append, List.mem_singleton] at hpart
      rcases hpart with hpart | rfl
      · exact ih part hpart
      · exact ⟨name.keeps_text, name.slash_not_mem⟩

/-- The route from the root to an entry that is no link. -/
theorem of_get? {place : Place} {node : Node} (h : fs.get? place = some node)
    (hlink : node.isLink = false) :
    fs.At directory (.fromRoot (place.map Name.text)) (.ofPlace place) := by
  induction place generalizing node with
  | nil => exact .root
  | cons name place ih => exact .enter (ih (get?_parent h) rfl) rfl h hlink

end At

/-- The lookup from a directory that is there, between its first two links. -/
theorem climb_zero (aim : Aim) (place : Place) (steps : List Step) :
    fs.climb aim place 0 steps = fs.scan aim (fs.walk aim 39) place steps := by
  rw [climb]
  rfl

theorem climb_up {aim : Aim} {spot : WorkingDirectory} (h : fs.Stands spot) (rest : List Step) :
    fs.climb aim spot.place spot.removedLevels (.up :: rest) =
      fs.climb aim spot.up.place spot.up.removedLevels rest := by
  obtain ⟨place, levels⟩ := spot
  cases levels with
  | zero =>
      have hplace : fs.get? place = some .directory := h rfl
      have hup : (WorkingDirectory.mk place 0).up = .ofPlace place.tail := rfl
      rw [hup, WorkingDirectory.ofPlace, climb_zero, climb_zero, scan, hplace]
  | succ levels => rfl

theorem climb_enter {aim : Aim} (haim : aim ≠ .make) {place : Place} {name : Name} {node : Node}
    (hnode : fs.get? (name :: place) = some node) (hlink : node.isLink = false)
    (rest : List Step) :
    fs.climb aim place 0 (.enter name :: rest) = fs.climb aim (name :: place) 0 rest := by
  rw [climb_zero, climb_zero]
  exact scan_enter haim hnode hlink rest

/-- The system's lookup passes along a route to its spot. -/
theorem climb_of_at {aim : Aim} (haim : aim ≠ .make) {route : Route} {spot : WorkingDirectory}
    (h : fs.At directory route spot) (rest : List Step) :
    fs.climb aim (route.origin directory).place (route.origin directory).removedLevels
        (route.path.parts.map Step.ofPart ++ rest) =
      fs.climb aim spot.place spot.removedLevels rest := by
  induction h generalizing rest with
  | root | here => rfl
  | up _ hstands ih =>
      rw [Route.parts_up, List.map_append, List.append_assoc]
      exact (ih _).trans (climb_up hstands rest)
  | @enter _ _ _ _ name _ hnext hnode hlink ih =>
      subst hnext
      rw [Route.parts_enter, Route.origin_enter, List.map_append, List.append_assoc,
        List.map_singleton, Step.ofPart_name, ih]
      exact climb_enter haim hnode hlink rest

/-- The lookup of a route that has moved. -/
theorem locate_route {aim : Aim} {route : Route} (hnormal : route.path.IsNormal)
    (hne : route.path.parts ≠ []) (hlimit : route.text.length ≤ pathLimit) :
    fs.locate aim directory route.text =
      fs.climb aim (route.origin directory).place (route.origin directory).removedLevels
        (route.path.parts.map Step.ofPart) := by
  have hsteps : Step.ofText route.text = route.path.parts.map Step.ofPart := by
    rw [Route.text_eq hne, Path.steps_text hnormal hne]
  have htext : route.text ≠ [] := by
    intro hempty
    rw [hempty] at hsteps
    exact hne (List.map_eq_nil_iff.mp hsteps.symm)
  rw [locate, if_neg (Nat.not_lt.mpr hlimit), if_neg htext, hsteps]
  cases route with
  | fromRoot names =>
      rw [if_pos (Route.isAbsolute_fromRoot names), Route.origin, WorkingDirectory.ofPlace, climb]
  | fromHere levelsUp names =>
      rw [if_neg (by simp [Route.isAbsolute_fromHere hnormal]), Route.origin]

theorem isNormal_enter {route : Route} {part : Text} (hroute : route.path.IsNormal)
    (hkeeps : Path.keeps part = true) (hslash : Text.slash ∉ part) :
    (route.enter part).path.IsNormal := by
  intro other hother
  rw [Route.parts_enter, List.mem_append, List.mem_singleton] at hother
  rcases hother with hother | rfl
  · exact hroute other hother
  · exact ⟨hkeeps, hslash⟩

/-- The lookup of a component after a route goes on from the spot of the route. -/
theorem locate_enter {aim : Aim} (haim : aim ≠ .make) {route : Route} {spot : WorkingDirectory}
    {part : Text} (h : fs.At directory route spot) (hkeeps : Path.keeps part = true)
    (hslash : Text.slash ∉ part) (hlimit : (route.enter part).text.length ≤ pathLimit) :
    fs.locate aim directory (route.enter part).text =
      fs.climb aim spot.place spot.removedLevels [Step.ofPart part] := by
  rw [locate_route (isNormal_enter h.isNormal hkeeps hslash) (by simp) hlimit, Route.parts_enter,
    Route.origin_enter, List.map_append, climb_of_at haim h, List.map_singleton]

/-- The entry after a route is found under its spelling. -/
theorem locate_keep_enter {route : Route} {place : Place} {name : Name} {node : Node}
    (h : fs.At directory route (.ofPlace place)) (hnode : fs.get? (name :: place) = some node)
    (hlimit : (route.enter name.text).text.length ≤ pathLimit) :
    fs.locate .keep directory (route.enter name.text).text = .found (name :: place) := by
  rw [locate_enter (by decide) h name.keeps_text name.slash_not_mem hlimit, Step.ofPart_name]
  show fs.scan .keep _ place [.enter name] = _
  rw [scan, get?_parent hnode]
  cases node <;> simp [hnode, scan]

/-- The entry after a route, looked up by its spelling. -/
theorem linkStat_enter {route : Route} {place : Place} {name : Name} {node : Node}
    (h : fs.At directory route (.ofPlace place)) (hnode : fs.get? (name :: place) = some node)
    (hlimit : (route.enter name.text).text.length ≤ pathLimit) :
    fs.linkStat directory (route.enter name.text).text = .ok node := by
  rw [linkStat, FileSystem.node, locate_keep_enter h hnode hlimit]
  simp [hnode]

/-- Whatever is found has a path that is short enough. -/
theorem length_le_of_node {aim : Aim} {t : Text} {node : Node}
    (h : fs.node aim directory t = .ok node) : t.length ≤ pathLimit := by
  refine Nat.le_of_not_lt fun hlong => ?_
  rw [FileSystem.node, locate, if_pos hlong] at h
  simp at h

theorem ofPart_of_keeps {part : Text} (hkeeps : Path.keeps part = true) (hup : part ≠ Path.up) :
    (∃ name : Name, part = name.text ∧ Step.ofPart part = .enter name) ∨
      Step.ofPart part = .overlong := by
  rcases ofPart_cases part with ⟨rfl, -⟩ | ⟨hdots, -⟩ | hname | hlong
  · simp [Path.keeps] at hkeeps
  · exact absurd hdots hup
  · exact .inl hname
  · exact .inr hlong

/-- No step leads on from what is no directory. -/
theorem climb_of_not_directory (aim : Aim) {place : Place} (h : fs.get? place ≠ some .directory)
    (step : Step) (rest : List Step) :
    ∃ reason, fs.climb aim place 0 (step :: rest) = .failed reason := by
  rw [climb_zero]
  unfold scan
  cases hplace : fs.get? place with
  | none => exact ⟨_, rfl⟩
  | some node =>
      cases node with
      | directory => exact absurd hplace h
      | file | link | pipe | sink | fullDevice => exact ⟨_, rfl⟩

/-- A lookup that does not end at its first component has entered the directory there. -/
theorem entry_of_climb {spot : WorkingDirectory} {part : Text} {rest : List Step}
    {landing : Landing} (hkeeps : Path.keeps part = true) (hup : part ≠ Path.up)
    (h : fs.climb .keep spot.place spot.removedLevels (Step.ofPart part :: rest) = landing)
    (hvacant : ∀ above name, landing ≠ .vacant above name)
    (hfailed : ∀ reason, landing ≠ .failed reason) :
    ∃ place name node, spot = .ofPlace place ∧ part = name.text ∧
      fs.get? (name :: place) = some node := by
  obtain ⟨place, levels⟩ := spot
  by_cases hlevels : levels = 0
  · subst hlevels
    by_cases hplace : fs.get? place = some .directory
    · rcases ofPart_of_keeps hkeeps hup with ⟨name, hname, hstep⟩ | hstep
      · refine ⟨place, name, ?_⟩
        simp only [hstep, climb_zero, scan, hplace, reduceCtorEq, false_and, ↓reduceIte] at h
        cases hnode : fs.get? (name :: place) with
        | some node => exact ⟨node, rfl, hname, rfl⟩
        | none =>
            simp only [hnode] at h
            split at h
            · exact absurd h.symm (hvacant _ _)
            · exact absurd h.symm (hfailed _)
      · simp only [hstep, climb_zero, scan, hplace] at h
        exact absurd h.symm (hfailed _)
    · obtain ⟨reason, hreason⟩ := fs.climb_of_not_directory .keep hplace (Step.ofPart part) rest
      exact absurd (h.symm.trans hreason) (hfailed reason)
  · obtain ⟨below, rfl⟩ := Nat.exists_eq_succ_of_ne_zero hlevels
    rcases ofPart_of_keeps hkeeps hup with ⟨name, -, hstep⟩ | hstep
    · rw [hstep] at h
      exact absurd h.symm (hfailed _)
    · rw [hstep] at h
      exact absurd h.symm (hfailed _)

/-- What the spelling of a component after a route is found to be stands there under the
name that the component spells. -/
theorem entry_of_linkStat {route : Route} {spot : WorkingDirectory} {part : Text} {node : Node}
    (h : fs.At directory route spot) (hkeeps : Path.keeps part = true) (hup : part ≠ Path.up)
    (hslash : Text.slash ∉ part) (hlook : fs.linkStat directory (route.enter part).text = .ok node) :
    ∃ place name, spot = .ofPlace place ∧ part = name.text ∧
      fs.get? (name :: place) = some node := by
  have hlimit := length_le_of_node hlook
  have hlocate := locate_enter (by decide : Aim.keep ≠ .make) h hkeeps hslash hlimit
  obtain ⟨place, name, found, rfl, rfl, hfound⟩ := entry_of_climb hkeeps hup hlocate.symm
    (fun above name hvacant => by simp [linkStat, FileSystem.node, hvacant] at hlook)
    (fun reason hfailed => by simp [linkStat, FileSystem.node, hfailed] at hlook)
  rw [linkStat_enter h hfound hlimit, Except.ok.injEq] at hlook
  exact ⟨place, name, rfl, rfl, hlook ▸ hfound⟩

/-- The absolute path of an entry that is no link leads to it, and to nothing else. -/
theorem locate_path {aim : Aim} (haim : aim ≠ .make) {place : Place} {node : Node}
    (h : fs.get? place = some node) (hlink : node.isLink = false)
    (hlimit : place.path.text.length ≤ pathLimit) :
    fs.locate aim directory place.path.text = .found place := by
  have hat : fs.At directory _ _ := .of_get? h hlink
  cases place with
  | nil => rfl
  | cons name place =>
      have hlanding : fs.locate aim directory (Place.path (name :: place)).text = _ :=
        locate_route hat.isNormal (by simp [Route.path]) hlimit
      have hclimb := climb_of_at haim hat []
      rw [List.append_nil] at hclimb
      exact hlanding.trans (hclimb.trans rfl)

theorem stat_path {place : Place} {node : Node} (h : fs.get? place = some node)
    (hlink : node.isLink = false) (hlimit : place.path.text.length ≤ pathLimit) :
    fs.stat directory place.path.text = .ok node := by
  rw [stat, FileSystem.node, locate_path (by decide) h hlink hlimit]
  simp [h]

/-- Taking back components along a route gives the names on the way to its spot. -/
theorem collapse_of_at {route : Route} {spot : WorkingDirectory} (h : fs.At directory route spot)
    (horigin : (route.origin directory).removedLevels = 0) :
    spot.removedLevels = 0 ∧
      route.path.parts.foldl Path.collapseStep ((route.origin directory).place.map Name.text) =
        spot.place.map Name.text := by
  induction h with
  | root => exact ⟨rfl, rfl⟩
  | here => exact ⟨horigin, rfl⟩
  | @up levels spot _ _ ih =>
      obtain ⟨place, removed⟩ := spot
      obtain ⟨rfl, hfold⟩ := ih horigin
      refine ⟨rfl, ?_⟩
      rw [Route.parts_up, List.foldl_append]
      have hstep : (Route.fromHere (levels + 1) []).origin directory =
          (Route.fromHere levels []).origin directory := rfl
      rw [hstep, hfold]
      simp [Path.collapseStep, WorkingDirectory.up, WorkingDirectory.ofPlace, List.map_tail]
  | @enter _ _ _ _ name _ hnext _ _ ih =>
      subst hnext
      rw [Route.origin_enter] at horigin ⊢
      obtain ⟨-, hfold⟩ := ih horigin
      refine ⟨rfl, ?_⟩
      rw [Route.parts_enter, List.foldl_append, hfold]
      simp [Path.collapseStep, name.text_ne_up, WorkingDirectory.ofPlace]

theorem foldl_collapseStep_path (place : Place) :
    place.path.parts.foldl Path.collapseStep [] = place.map Name.text := by
  induction place with
  | nil => rfl
  | cons name place ih =>
      have hparts : Place.path (name :: place) = ⟨.one, (Place.path place).parts ++ [name.text]⟩ := by
        simp [Place.path]
      rw [hparts, List.foldl_append, ih]
      simp [Path.collapseStep, name.text_ne_up]

/-- The absolute path of a route, if it has one, is the path of the place where it
stands. -/
theorem absolute_of_at {route : Route} {spot : WorkingDirectory} {path : Path}
    (h : fs.At directory route spot) (habsolute : directory.absolute route.text = .ok path) :
    spot.removedLevels = 0 ∧ path = spot.place.path := by
  have hnormal := h.isNormal
  cases route with
  | fromRoot names =>
      rw [WorkingDirectory.absolute, if_pos (Route.isAbsolute_fromRoot names),
        Route.ofText_text hnormal, Except.ok.injEq] at habsolute
      obtain ⟨hlevels, hfold⟩ := collapse_of_at h rfl
      refine ⟨hlevels, ?_⟩
      rw [← habsolute, Path.collapse, Place.path, ← hfold]
      rfl
  | fromHere levelsUp names =>
      rw [WorkingDirectory.absolute, if_neg (by simp [Route.isAbsolute_fromHere hnormal]),
        WorkingDirectory.path?] at habsolute
      by_cases hlevels : directory.removedLevels = 0
      · rw [if_pos hlevels] at habsolute
        simp only [Route.ofText_text hnormal, Except.ok.injEq] at habsolute
        obtain ⟨hspot, hfold⟩ := collapse_of_at h hlevels
        refine ⟨hspot, ?_⟩
        have hparts : (directory.place.path ++ (Route.fromHere levelsUp names).path).parts =
            directory.place.path.parts ++ (Route.fromHere levelsUp names).path.parts := rfl
        rw [← habsolute, Path.collapse, hparts, List.foldl_append, foldl_collapseStep_path]
        exact congrArg (Path.mk .one) (congrArg List.reverse hfold)
      · rw [if_neg hlevels] at habsolute
        simp at habsolute

end FileSystem

end SdkBindings
