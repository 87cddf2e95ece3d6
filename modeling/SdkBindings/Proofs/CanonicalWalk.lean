import SdkBindings.Proofs.NaiveWalk
import SdkBindings.Proofs.WalkBound

/-!
The walk by spelling reaches what the components lead to.  Where the walk over the
components of a text ends, and no spelling on the way is too long for the system, the walk
by spelling, be it strict or lenient, ends on a route to the same spot, if there is room for
the links inside each other.  Main statement: where the system's own lookup of a text ends,
the canonical path of the text, if there is one, is that of the place where the lookup ends.
-/

namespace SdkBindings

namespace FileSystem

/-- No text that is looked up for a canonical path is too long for the system. -/
def Inspectable (fs : FileSystem) (room : Nat) (strict : Bool) (directory : WorkingDirectory)
    (t : Text) : Prop :=
  ∀ looked ∈ (Canonical.journey ⟨fs.linkStat directory, strict⟩ room (.fromHere 0 []) t []).looked,
    looked.length ≤ pathLimit

instance (fs : FileSystem) (room : Nat) (strict : Bool) (directory : WorkingDirectory) (t : Text) :
    Decidable (fs.Inspectable room strict directory t) :=
  inferInstanceAs (Decidable (∀ _ ∈ _, _))

/-- No text that a lenient walk with room for every other one looks up is too long for the
system. -/
def WithinLimit (fs : FileSystem) (directory : WorkingDirectory) (t : Text) : Prop :=
  fs.Inspectable fs.nestingBound false directory t

instance (fs : FileSystem) (directory : WorkingDirectory) (t : Text) :
    Decidable (fs.WithinLimit directory t) :=
  inferInstanceAs (Decidable (fs.Inspectable _ _ _ _))

/-- An entry stands at the end of a route. -/
def Shows (fs : FileSystem) (directory : WorkingDirectory) (route : Route) (node : Node) : Prop :=
  ∃ before place name, route = before.enter (Name.text name) ∧
    fs.At directory before (.ofPlace place) ∧ fs.get? (name :: place) = some node

/-- A relation between routes and spots that the walks by spelling and over components keep
together, if two dots go up from spots that lift. -/
structure Tracks (fs : FileSystem) (directory : WorkingDirectory)
    (lifts : WorkingDirectory → Prop) (here : Route → WorkingDirectory → Prop) : Prop where
  stands : ∀ {route spot}, here route spot → fs.At directory route spot
  root : here (.fromRoot []) (.ofPlace [])
  back : ∀ {route spot}, here route spot → lifts spot → here route.back spot.up
  enter : ∀ {route place name node}, here route (.ofPlace place) →
    fs.get? (name :: place) = some node → node.isLink = false →
    here (route.enter name.text) (.ofPlace (name :: place))

variable {fs : FileSystem} {directory : WorkingDirectory} {lifts : WorkingDirectory → Prop}
  {here : Route → WorkingDirectory → Prop} {depth n room : Nat} {strict : Bool} {t : Text}

theorem At.shows {route : Route} {place : Place} {name : Name} {node : Node}
    (h : fs.At directory route (.ofPlace place)) (hnode : fs.get? (name :: place) = some node) :
    fs.Shows directory (route.enter name.text) node :=
  ⟨route, place, name, rfl, h, hnode⟩

theorem Shows.unique {route : Route} {node node' : Node} (h : fs.Shows directory route node)
    (h' : fs.Shows directory route node') : node = node' := by
  obtain ⟨before, place, name, rfl, hat, hnode⟩ := h
  obtain ⟨before', place', name', hroute, hat', hnode'⟩ := h'
  obtain ⟨rfl, hname⟩ := Route.enter_injective hroute
  obtain rfl := Name.eq_of_text_eq hname
  obtain rfl := congrArg WorkingDirectory.place (hat.unique hat')
  exact Option.some.inj (hnode.symm.trans hnode')

theorem tells_shows : fs.Tells directory (fs.Shows directory) := by
  rintro route spot part node hat - - - ⟨before, place, name, hroute, hat', hnode⟩
  obtain ⟨rfl, rfl⟩ := Route.enter_injective hroute
  exact ⟨place, name, hat.unique hat', rfl, hnode⟩

theorem Shows.linkStat {route : Route} {node : Node} (h : fs.Shows directory route node)
    (hlimit : route.text.length ≤ pathLimit) : fs.linkStat directory route.text = .ok node := by
  obtain ⟨before, place, name, rfl, hat, hnode⟩ := h
  exact linkStat_enter hat hnode hlimit

theorem reveals_shows :
    Canonical.Reveals (fs.linkStat directory) (·.length ≤ pathLimit) (fs.Shows directory) where
  clearly := fun _ _ _ => Shows.unique
  look := Shows.linkStat

/-- Where a route stands, as the system goes up from directories. -/
theorem tracks_at : fs.Tracks directory fs.Stands (fs.At directory) where
  stands := id
  root := .root
  back := At.back
  enter := fun hat hnode hlink => .enter hat rfl hnode hlink

/-- Where a route stands that leads there from a directory, and up from anywhere. -/
theorem tracks_stays : fs.Tracks directory Anywhere (fs.Stays directory) where
  stands := Stays.stands
  root := .root
  back := fun hstays _ => hstays.back
  enter := Stays.enter

theorem Tracks.startOf (h : fs.Tracks directory lifts here) {route : Route}
    {spot : WorkingDirectory} (hroute : here route spot) (t : Text) :
    here (route.startOf t) (spot.startOf t) := by
  unfold Route.startOf WorkingDirectory.startOf
  split
  · exact h.root
  · exact hroute

/-- The walk over components is the forgetful walk by spelling. -/
theorem passes_of_traces (htracks : fs.Tracks directory lifts here)
    {spot goal : WorkingDirectory} {parts : List Text} (h : fs.Traces lifts depth n spot parts goal)
    {route : Route} (hroute : here route spot) :
    ∃ last, Canonical.Passes (fs.Shows directory) depth n route parts last ∧ here last goal := by
  induction h generalizing route with
  | done => exact ⟨route, .done, hroute⟩
  | stay hstay _ ih =>
      obtain ⟨last, hpasses, hlast⟩ := ih hroute
      exact ⟨last, .on (.stay hstay) hpasses, hlast⟩
  | up hup hlifts _ ih =>
      subst hup
      obtain ⟨last, hpasses, hlast⟩ := ih (htracks.back hroute hlifts)
      exact ⟨last, .on .up hpasses, hlast⟩
  | @enter _ _ _ _ _ _ name _ hpart hnode hlink _ ih =>
      subst hpart
      obtain ⟨last, hpasses, hlast⟩ := ih (htracks.enter hroute hnode hlink)
      have hshows := (htracks.stands hroute).shows hnode
      exact ⟨last, .on (.enter name.keeps_text name.text_ne_up name.hasNul_text hshows hlink)
        hpasses, hlast⟩
  | @link _ _ _ _ _ _ _ _ name target hpart hnode _ _ ihtarget ih =>
      subst hpart
      obtain ⟨mid, htarget, hmid⟩ := ihtarget (htracks.startOf hroute target.text)
      obtain ⟨last, hpasses, hlast⟩ := ih hmid
      have hshows := (htracks.stands hroute).shows hnode
      exact ⟨last, .into (.link name.keeps_text name.text_ne_up name.hasNul_text hshows)
        htarget hpasses, hlast⟩

/-- Where the walk over the components of a text ends, both walks by spelling end, in a room
for the links inside each other or in one for as many as there are. -/
theorem follow_of_traces (htracks : fs.Tracks directory lifts here)
    (hstart : here (.fromHere 0 []) directory) {goal : WorkingDirectory}
    (h : fs.Traces lifts depth n (directory.startOf t) (Text.fields Text.slash t) goal)
    (hroom : depth < room ∨ fs.nestingBound ≤ room)
    (hlimit : fs.Inspectable room strict directory t) :
    ∃ last met, here last goal ∧
      Canonical.Passes (fs.Shows directory) depth n ((Route.fromHere 0 []).startOf t)
        (Text.fields Text.slash t) last ∧
      ∀ strict, Canonical.follow ⟨fs.linkStat directory, strict⟩ room (.fromHere 0 []) t [] =
        .ok (.reached last, met) := by
  obtain ⟨last, hpasses, hlast⟩ := passes_of_traces htracks h (htracks.startOf hstart t)
  obtain ⟨met, hreached⟩ := follow_of_passes reveals_shows hpasses hroom strict hlimit
  exact ⟨last, met, hlast, hpasses, hreached⟩

/-- The system follows fewer links than there is room for inside each other. -/
theorem follow_of_locate {goal : Place} (hfound : fs.locate .follow directory t = .found goal)
    (hroom : linkBudget < room ∨ fs.nestingBound ≤ room)
    (hlimit : fs.Inspectable room strict directory t) :
    ∃ last met, fs.At directory last (.ofPlace goal) ∧
      ∀ strict, Canonical.follow ⟨fs.linkStat directory, strict⟩ room (.fromHere 0 []) t [] =
        .ok (.reached last, met) := by
  obtain ⟨n, htraces⟩ := traces_of_locate hfound
  obtain ⟨last, met, hlast, -, hreached⟩ :=
    follow_of_traces tracks_at .here htraces hroom hlimit
  exact ⟨last, met, hlast, hreached⟩

/-- The canonical path of a text, if there is one, is that of the place where the system's
own lookup ends. -/
theorem resolve_of_locate {goal : Place} {path : Path}
    (hfound : fs.locate .follow directory t = .found goal) (hlimit : fs.WithinLimit directory t)
    (hresolve : fs.resolve false directory t = .ok path) : path = goal.path := by
  obtain ⟨last, met, hlast, hreached⟩ := follow_of_locate hfound (.inr (Nat.le_refl _)) hlimit
  simp only [resolve, resolveWithin, hreached] at hresolve
  exact (absolute_of_at hlast hresolve).2

/-- There a strict walk gives what a lenient one gives. -/
theorem resolve_strict_of_locate {goal : Place} {path : Path}
    (hfound : fs.locate .follow directory t = .found goal) (hlimit : fs.WithinLimit directory t)
    (hresolve : fs.resolve false directory t = .ok path) :
    fs.resolve true directory t = .ok path := by
  obtain ⟨last, met, -, hreached⟩ := follow_of_locate hfound (.inr (Nat.le_refl _)) hlimit
  simp only [resolve, resolveWithin, hreached] at hresolve ⊢
  exact hresolve

end FileSystem

end SdkBindings
