import SdkBindings.Proofs.NulFree
import SdkBindings.Proofs.StrictWalk

/-!
The lenient walk by spelling.  It goes on behind what is missing, but never past a link,
so that a link that it opens is met at the place that its spelling names.  Main
statement: links opened inside one another are too few to reach the bound of the walk,
and a lenient walk is never refused for a loop.
-/

namespace SdkBindings

namespace Text

theorem length_joinWith_le (sep : Text) (pieces : List Text) (last : Text) :
    (joinWith sep pieces).length ≤ (joinWith sep (pieces ++ [last])).length := by
  induction pieces with
  | nil => simp [joinWith]
  | cons piece others ih =>
      cases others with
      | nil => simp [joinWith]
      | cons next others =>
          simp only [List.cons_append, joinWith, List.length_append] at ih ⊢
          omega

/-- Each two dots with a slash take three bytes, and something stands behind them. -/
theorem length_joinWith_up {rest : List Text} (hne : rest ≠ [])
    (hrest : joinWith [slash] rest ≠ []) (levels : Nat) :
    3 * levels < (joinWith [slash] (List.replicate levels Path.up ++ rest)).length := by
  induction levels with
  | zero => simpa [List.length_pos_iff] using hrest
  | succ levels ih =>
      obtain ⟨next, others, hcons⟩ :
          ∃ next others, List.replicate levels Path.up ++ rest = next :: others := by
        apply List.exists_cons_of_ne_nil
        simp [hne]
      have hdots : Path.up.length = 2 := rfl
      rw [List.replicate_succ, List.cons_append, hcons, joinWith, List.length_append,
        List.length_append, List.length_singleton, hdots, ← hcons]
      omega

end Text

namespace Route

/-- The names on a route, the last one first. -/
def names : Route → List Text
  | fromRoot names => names
  | fromHere _ names => names

/-- A route before its first name. -/
def start : Route → Route
  | fromRoot _ => fromRoot []
  | fromHere levels _ => fromHere levels []

@[simp] theorem names_enter (route : Route) (part : Text) :
    (route.enter part).names = part :: route.names := by
  cases route <;> rfl

@[simp] theorem start_enter (route : Route) (part : Text) :
    (route.enter part).start = route.start := by
  cases route <;> rfl

theorem ext {route other : Route} (hstart : route.start = other.start)
    (hnames : route.names = other.names) : route = other := by
  cases route <;> cases other <;> simp_all [start, names]

theorem length_text_le_enter (route : Route) (part : Text) :
    route.text.length ≤ (route.enter part).text.length := by
  cases route with
  | fromRoot names =>
      simp only [text, enter, List.reverse_cons, List.length_cons]
      exact Nat.succ_le_succ (Text.length_joinWith_le _ _ _)
  | fromHere levels names =>
      simp only [text, enter, List.reverse_cons, ← List.append_assoc]
      exact Text.length_joinWith_le _ _ _

/-- Where the routes start that are within the path limit. -/
def starts : List Route :=
  fromRoot [] :: (List.range (pathLimit / 3)).map fun levels => fromHere levels []

@[simp] theorem length_starts : starts.length = pathLimit / 3 + 1 := by
  simp [starts]

theorem start_mem_starts {route : Route} {part : Text} (hpart : part ≠ [])
    (hlimit : (route.enter part).text.length ≤ pathLimit) : route.start ∈ starts := by
  cases route with
  | fromRoot names => exact List.mem_cons_self
  | fromHere levels names =>
      have hjoin : Text.joinWith [Text.slash] (names.reverse ++ [part]) ≠ [] := by
        have hlast := Text.joinWith_concat Text.slash names.reverse part
        rintro hempty
        rcases hlast with hlast | ⟨before, hlast⟩
        · exact hpart (hlast.symm.trans hempty)
        · simp [hempty] at hlast
      have hlong := Text.length_joinWith_up (by simp) hjoin levels
      simp only [text, enter, List.reverse_cons] at hlimit
      refine List.mem_cons_of_mem _ (List.mem_map.mpr ⟨levels, ?_, rfl⟩)
      rw [List.mem_range]
      simp only [pathLimit] at hlimit ⊢
      omega

end Route

namespace FileSystem

variable {fs : FileSystem} {directory : WorkingDirectory}

/-- A route on which the system knows of no link. -/
inductive Clear (fs : FileSystem) (directory : WorkingDirectory) : Route → Prop where
  | root : Clear fs directory (.fromRoot [])
  | here (levels : Nat) : Clear fs directory (.fromHere levels [])
  | enter {route next part} :
      Clear fs directory route →
      next = route.enter part →
      Path.keeps part = true →
      part ≠ Path.up →
      Text.slash ∉ part →
      (∀ target, fs.linkStat directory next.text ≠ .ok (.link target)) →
      Clear fs directory next

theorem Clear.back {route : Route} (h : fs.Clear directory route) : fs.Clear directory route.back := by
  cases h with
  | root => exact .root
  | here levels => exact .here (levels + 1)
  | enter hroute hnext =>
      subst hnext
      rw [Route.back_enter]
      exact hroute

theorem Clear.isNormal {route : Route} (h : fs.Clear directory route) : route.path.IsNormal := by
  induction h with
  | root => exact fun _ hpart => by simp [Route.path] at hpart
  | here levels => exact Route.isNormal_fromHere levels
  | enter _ hnext hkeeps _ hslash _ ih =>
      subst hnext
      exact isNormal_enter ih hkeeps hslash

/-- From a working directory that is there, one can go up any number of levels. -/
theorem at_fromHere (hlive : fs.get? directory.place = some .directory) (levels : Nat) :
    ∃ spot, fs.At directory (.fromHere levels []) spot := by
  induction levels with
  | zero => exact ⟨_, .here⟩
  | succ levels ih =>
      obtain ⟨spot, hat⟩ := ih
      exact ⟨_, .up hat fun _ => hat.get?_of_fromHere hlive⟩

/-- If something is found behind a route without links, the route stands at a spot. -/
theorem Clear.exists_at {route : Route} (h : fs.Clear directory route)
    (hlimit : route.text.length ≤ pathLimit) {part : Text} {rest : List Step} {last : Place}
    (hkeeps : Path.keeps part = true) (hup : part ≠ Path.up)
    (hfound : fs.climb .keep (route.origin directory).place
      (route.origin directory).removedLevels
      (route.path.parts.map Step.ofPart ++ Step.ofPart part :: rest) = .found last) :
    ∃ spot, fs.At directory route spot := by
  induction h generalizing part rest with
  | root => exact ⟨_, .root⟩
  | here levels =>
      have hdots : (Route.fromHere levels []).path.parts.map Step.ofPart =
          List.replicate levels .up := by
        have hstep : Step.ofPart Path.up = .up := rfl
        simp [Route.path, hstep]
      rw [hdots] at hfound
      rcases fs.get?_of_climb .keep hkeeps hup rest directory.place directory.removedLevels levels
        with hlive | ⟨reason, hfailed⟩
      · exact at_fromHere hlive levels
      · have hcontra := hfound.symm.trans hfailed
        simp at hcontra
  | @enter route _ before _ hnext hkeeps' hup' hslash hclear ih =>
      subst hnext
      rw [Route.parts_enter, Route.origin_enter, List.map_append, List.append_assoc,
        List.map_singleton, List.singleton_append] at hfound
      obtain ⟨spot, hat⟩ := ih (Nat.le_trans (route.length_text_le_enter before) hlimit) hkeeps'
        hup' hfound
      rw [climb_of_at (by decide) hat] at hfound
      obtain ⟨place, name, node, rfl, rfl, hnode⟩ := entry_of_climb hkeeps' hup' hfound
        (by simp) (by simp)
      have hlink : node.isLink = false := by
        cases node with
        | link target => exact absurd (linkStat_enter hat hnode hlimit) (hclear target)
        | directory | file | pipe | sink | fullDevice => rfl
      exact ⟨_, .enter hat rfl hnode hlink⟩

theorem kept_clear (strict : Bool) :
    Canonical.Kept ⟨fs.linkStat directory, strict⟩ (fs.Clear directory) fun _ => True where
  root := .root
  back := Clear.back
  enter := by
    intro route part node hroute _ hkeeps hup hslash hlook hlink
    apply Clear.enter hroute rfl hkeeps hup hslash
    rintro target htarget
    obtain rfl := Except.ok.inj (hlook.symm.trans htarget)
    simp [Node.isLink] at hlink
  missing := by
    intro route part reason _ hroute _ hkeeps hup hslash hlook
    apply Clear.enter hroute rfl hkeeps hup hslash
    intro target htarget
    have hcontra := hlook.symm.trans htarget
    simp at hcontra
  spelled := fun _ _ _ => trivial
  append := fun _ _ => trivial
  fields := fun _ _ => trivial
  target := fun _ => trivial

/-- A route to a spot starts at a spot above it. -/
theorem At.exists_start {route : Route} {spot : WorkingDirectory} (h : fs.At directory route spot) :
    ∃ base, fs.At directory route.start base ∧
      spot.place.map Name.text = route.names ++ base.place.map Name.text := by
  induction h with
  | root => exact ⟨_, .root, rfl⟩
  | here => exact ⟨_, .here, rfl⟩
  | up hroute hstands => exact ⟨_, .up hroute hstands, rfl⟩
  | @enter _ _ _ _ name _ hnext _ _ ih =>
      subst hnext
      obtain ⟨base, hbase, hnames⟩ := ih
      refine ⟨base, by simpa using hbase, ?_⟩
      rw [Route.names_enter, List.cons_append, ← hnames]
      rfl

/-- Two routes to one spot that start in the same way are the same. -/
theorem At.route_unique {route other : Route} {spot : WorkingDirectory}
    (h : fs.At directory route spot) (h' : fs.At directory other spot)
    (hstart : route.start = other.start) : route = other := by
  obtain ⟨base, hbase, hnames⟩ := h.exists_start
  obtain ⟨base', hbase', hnames'⟩ := h'.exists_start
  rw [hstart] at hbase
  obtain rfl := hbase.unique hbase'
  exact Route.ext hstart (List.append_cancel_right (hnames.symm.trans hnames'))

/-- Where there are links. -/
def linkPlaces (fs : FileSystem) : List Place :=
  (fs.entries.filter fun e => e.2.isLink).map Prod.fst

theorem length_linkPlaces (fs : FileSystem) : fs.linkPlaces.length = fs.linkCount := by
  rw [linkPlaces, List.length_map, ← List.countP_eq_length_filter, linkCount]
  apply List.countP_congr
  intro e _
  cases e.2 <;> simp [Node.isLink]

theorem mem_linkPlaces {place : Place} {target : Target}
    (h : fs.get? place = some (.link target)) : place ∈ fs.linkPlaces := by
  cases place with
  | nil => simp at h
  | cons name place =>
      rw [get?_cons (get?_parent h), entryAt, Option.map_eq_some_iff] at h
      obtain ⟨e, hfound, hnode⟩ := h
      have hplace := List.find?_some hfound
      simp only [decide_eq_true_eq] at hplace
      refine List.mem_map.mpr ⟨e, List.mem_filter.mpr ⟨List.mem_of_find?_eq_some hfound, ?_⟩, hplace⟩
      rw [hnode]
      rfl

/-- What tells opened links apart: how the spelling starts, and where the system finds
the link. -/
def linkKey (fs : FileSystem) (directory : WorkingDirectory) (next : Route) : Route × Landing :=
  (next.start, fs.locate .keep directory next.text)

def linkKeys (fs : FileSystem) : List (Route × Landing) :=
  Route.starts.flatMap fun start => fs.linkPlaces.map fun place => (start, .found place)

theorem length_linkKeys (fs : FileSystem) :
    fs.linkKeys.length = fs.linkCount * (pathLimit / 3 + 1) := by
  rw [linkKeys, List.length_flatMap]
  simp only [List.length_map, length_linkPlaces]
  rw [List.map_const', List.sum_replicate_nat, Route.length_starts, Nat.mul_comm]

/-- A link that a walk opens stands behind a route to a spot. -/
theorem exists_link_of_clear {route : Route} {part : Text} {target : Target}
    (h : fs.Clear directory route) (hkeeps : Path.keeps part = true) (hup : part ≠ Path.up)
    (hslash : Text.slash ∉ part)
    (hlook : fs.linkStat directory (route.enter part).text = .ok (.link target)) :
    ∃ place name, fs.At directory route (.ofPlace place) ∧ part = name.text ∧
      fs.get? (name :: place) = some (.link target) ∧
      fs.locate .keep directory (route.enter part).text = .found (name :: place) := by
  have hlimit := length_le_of_node hlook
  obtain ⟨last, hlast⟩ :
      ∃ last, fs.locate .keep directory (route.enter part).text = .found last := by
    rcases node_eq_ok_iff.mp hlook with ⟨last, hlast, -⟩ | ⟨-, hdirectory⟩
    · exact ⟨last, hlast⟩
    · simp at hdirectory
  have hclimb := hlast
  rw [locate_route (isNormal_enter h.isNormal hkeeps hslash) (by simp) hlimit, Route.parts_enter,
    Route.origin_enter, List.map_append, List.map_singleton] at hclimb
  obtain ⟨spot, hat⟩ := h.exists_at (Nat.le_trans (route.length_text_le_enter part) hlimit)
    hkeeps hup hclimb
  obtain ⟨place, name, rfl, rfl, hnode⟩ := entry_of_linkStat hat hkeeps hup hslash hlook
  exact ⟨place, name, hat, rfl, hnode, locate_keep_enter hat hnode hlimit⟩

/-- Links opened inside one another are fewer than the bound counts. -/
theorem length_lt_nestingBound {strict : Bool} {opened : List Route}
    (h : Canonical.Nested ⟨fs.linkStat directory, strict⟩ (fs.Clear directory) opened) :
    opened.length < fs.nestingBound := by
  have hkeys : ((opened.map (fs.linkKey directory))).Nodup := by
    refine List.pairwise_map.mpr (h.nodup.imp_of_mem ?_)
    intro next other hnext hother hne hkey
    obtain ⟨route, part, target, rfl, hroute, hkeeps, hup, hslash, hlook⟩ := h.link next hnext
    obtain ⟨route', part', target', rfl, hroute', hkeeps', hup', hslash', hlook'⟩ :=
      h.link other hother
    obtain ⟨place, name, hat, rfl, -, hfound⟩ :=
      exists_link_of_clear hroute hkeeps hup hslash hlook
    obtain ⟨place', name', hat', rfl, -, hfound'⟩ :=
      exists_link_of_clear hroute' hkeeps' hup' hslash' hlook'
    obtain ⟨hstart, hplace⟩ := Prod.mk.inj hkey
    rw [hfound, hfound', Landing.found.injEq, List.cons.injEq] at hplace
    obtain ⟨rfl, rfl⟩ := hplace
    rw [Route.start_enter, Route.start_enter] at hstart
    exact hne (by rw [hat.route_unique hat' hstart])
  have hsubset : opened.map (fs.linkKey directory) ⊆ fs.linkKeys := by
    intro key hkey
    obtain ⟨next, hnext, rfl⟩ := List.mem_map.mp hkey
    obtain ⟨route, part, target, rfl, hroute, hkeeps, hup, hslash, hlook⟩ := h.link next hnext
    obtain ⟨place, name, -, rfl, hnode, hfound⟩ :=
      exists_link_of_clear hroute hkeeps hup hslash hlook
    have hstart := Route.start_mem_starts name.text_ne_nil (length_le_of_node hlook)
    rw [linkKey, hfound, Route.start_enter]
    exact List.mem_flatMap.mpr ⟨_, hstart, List.mem_map_of_mem (mem_linkPlaces hnode)⟩
  have hlength := hkeys.length_le_of_subset hsubset
  rw [List.length_map, length_linkKeys] at hlength
  exact Nat.lt_succ_of_le hlength

/-- A lenient walk is not refused for a loop. -/
theorem resolve_ne_loop (t : Text) : fs.resolve false directory t ≠ .error .loop := by
  have hends : Canonical.EndsWell ⟨fs.linkStat directory, false⟩ (fs.Clear directory)
      (fun _ => True) [] fs.nestingBound
      (Canonical.follow ⟨fs.linkStat directory, false⟩ fs.nestingBound (.fromHere 0 []) t []) :=
    Canonical.endsWell_follow (kept_clear false) (.here 0) trivial Canonical.nested_nil
      Canonical.remembers_nil
  have hroute : ∀ t', directory.absolute t' ≠ .error .loop := by
    intro t'
    rw [WorkingDirectory.absolute]
    split
    · simp
    · split <;> simp
  rw [resolve, resolveWithin]
  cases houtcome : Canonical.follow ⟨fs.linkStat directory, false⟩ fs.nestingBound
      (.fromHere 0 []) t [] with
  | ok walked =>
      obtain ⟨course, met⟩ := walked
      cases course with
      | reached route => exact hroute _
      | lost text => exact hroute _
  | error obstacle =>
      simp only [ne_eq, Except.error.injEq]
      rintro rfl
      obtain ⟨nested, hnested, hlength⟩ := (hends.loop houtcome).resolve_left (by simp)
      have hbound := length_lt_nestingBound hnested
      rw [hlength, List.length_nil] at hbound
      omega

/-- A path has no canonical one for a loop exactly if its links and two dots are replaced,
and what this gives is a path on which the system still meets too many links. -/
theorem canonicalPath_eq_linkLoop_iff {path : Path} (h : path.NulFree) {file : Text} :
    fs.canonicalPath directory path = .error (.linkLoop file) ↔
      ∃ resolved, fs.resolve false directory path.text = .ok resolved ∧
        fs.stat directory resolved.text = .error .tooManyLinks ∧ file = resolved.text := by
  obtain ⟨hnul, hresolved⟩ :=
    @resolveWithin_nulFree fs directory fs.nestingBound false path.text h.text
  rw [canonicalPath]
  cases hresolve : fs.resolve false directory path.text with
  | error obstacle =>
      cases obstacle with
      | embeddedNul => exact absurd hresolve hnul
      | loop => exact absurd hresolve (resolve_ne_loop _)
      | system => simp
  | ok resolved =>
      have hclean := Text.hasNul_eq_false_iff.mpr (hresolved resolved hresolve).text
      simp only [hclean, Bool.false_eq_true, ↓reduceIte, Except.ok.injEq]
      split
      · next hstat =>
        rw [Except.error.injEq, Fault.linkLoop.injEq]
        constructor
        · rintro rfl
          exact ⟨resolved, rfl, hstat, rfl⟩
        · rintro ⟨_, rfl, -, rfl⟩
          rfl
      · next hstat =>
        simp only [reduceCtorEq, false_iff, not_exists, not_and]
        rintro _ rfl hloop
        exact absurd hloop hstat

end FileSystem

end SdkBindings
