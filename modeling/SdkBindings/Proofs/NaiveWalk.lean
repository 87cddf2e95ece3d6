import SdkBindings.Proofs.ComponentWalk
import SdkBindings.Proofs.ForgetfulWalk
import SdkBindings.Proofs.StrictWalk

/-!
What a strict canonical path says about the files.  The walk by spelling looks up whole
routes and remembers links, but where it ends is where the components lead when they are
taken one by one.  Main statement: the header that is found, in whatever room for walks
inside each other, is the one entry to which the components of its path lead.
-/

namespace SdkBindings

@[simp] theorem Route.isRooted_startOf (route : Route) (t : Text) :
    (route.startOf t).isRooted = (route.isRooted || isAbsolute t) := by
  unfold Route.startOf
  split
  · next habsolute => rw [habsolute, Bool.or_true]; rfl
  · next hrelative => simp [hrelative]

namespace FileSystem

variable {fs : FileSystem} {directory : WorkingDirectory}

/-- A route that leads on from a directory stands at a spot. -/
structure Stays (fs : FileSystem) (directory : WorkingDirectory) (route : Route)
    (spot : WorkingDirectory) : Prop where
  grounded : fs.Grounded directory route
  stands : fs.At directory route spot

theorem Stays.root : fs.Stays directory (.fromRoot []) (.ofPlace []) where
  grounded := ⟨.inl rfl, _, .root⟩
  stands := .root

theorem Stays.back {route : Route} {spot : WorkingDirectory} (h : fs.Stays directory route spot) :
    fs.Stays directory route.back spot.up where
  grounded := h.grounded.back
  stands := h.grounded.at_back h.stands

theorem Stays.enter {route : Route} {place : Place} {name : Name} {node : Node}
    (h : fs.Stays directory route (.ofPlace place)) (hnode : fs.get? (name :: place) = some node)
    (hlink : node.isLink = false) :
    fs.Stays directory (route.enter name.text) (.ofPlace (name :: place)) := by
  have hat := At.enter h.stands rfl hnode hlink
  exact ⟨⟨by simpa using h.grounded.1, _, hat⟩, hat⟩

theorem Stays.startOf {route : Route} {spot : WorkingDirectory} (h : fs.Stays directory route spot)
    (t : Text) : fs.Stays directory (route.startOf t) (spot.startOf t) := by
  unfold Route.startOf WorkingDirectory.startOf
  split
  · exact .root
  · exact h

/-- What is seen at the end of a route is an entry of the directory before it. -/
def Tells (fs : FileSystem) (directory : WorkingDirectory) (sees : Route → Node → Prop) : Prop :=
  ∀ {route : Route} {spot : WorkingDirectory} {part : Text} {node : Node},
    fs.At directory route spot → Path.keeps part = true → part ≠ Path.up → Text.slash ∉ part →
    sees (route.enter part) node → ∃ (place : Place) (name : Name), spot = .ofPlace place ∧
      part = name.text ∧ fs.get? (name :: place) = some node

theorem tells_finds : fs.Tells directory (Canonical.Finds (fs.linkStat directory)) :=
  fun hat hkeeps hup hslash hlook => entry_of_linkStat hat hkeeps hup hslash hlook

/-- The forgetful walk by spelling is the walk over the components, from the spot where its
route stands. -/
theorem stays_of_passes {sees : Route → Node → Prop} (hsees : fs.Tells directory sees)
    {depth n : Nat} {route last : Route} {parts : List Text}
    (h : Canonical.Passes sees depth n route parts last)
    (hslash : ∀ part ∈ parts, Text.slash ∉ part) {spot : WorkingDirectory}
    (hroute : fs.Stays directory route spot) :
    ∃ goal, fs.Stays directory last goal ∧ fs.Traces Anywhere depth n spot parts goal ∧
      fs.Advances n ⟨spot, parts, route.isRooted⟩ ⟨goal, [], last.isRooted⟩ := by
  induction h generalizing spot with
  | done => exact ⟨spot, hroute, .done, .refl _⟩
  | on hbears _ ih =>
      obtain ⟨hpart, hrest⟩ := List.forall_mem_cons.mp hslash
      cases hbears with
      | stay hstay =>
          obtain ⟨goal, hgoal, htraces, hadvances⟩ := ih hrest hroute
          exact ⟨goal, hgoal, .stay hstay htraces, .step (advance_stay hstay) hadvances⟩
      | up =>
          obtain ⟨goal, hgoal, htraces, hadvances⟩ := ih hrest hroute.back
          rw [Route.isRooted_back] at hadvances
          exact ⟨goal, hgoal, .up rfl trivial htraces, .step advance_up hadvances⟩
      | enter hkeeps hup _ hnode hlink =>
          obtain ⟨place, name, rfl, rfl, hentry⟩ := hsees hroute.stands hkeeps hup hpart hnode
          obtain ⟨goal, hgoal, htraces, hadvances⟩ := ih hrest (hroute.enter hentry hlink)
          rw [Route.isRooted_enter] at hadvances
          exact ⟨goal, hgoal, .enter rfl hentry hlink htraces,
            .step (advance_enter hentry hlink) hadvances⟩
  | into hbears _ _ ihtarget ih =>
      obtain ⟨hpart, hrest⟩ := List.forall_mem_cons.mp hslash
      cases hbears with
      | link hkeeps hup _ hnode =>
          obtain ⟨place, name, rfl, rfl, hentry⟩ := hsees hroute.stands hkeeps hup hpart hnode
          obtain ⟨mid, hmid, htarget, hadvances⟩ :=
            ihtarget (fun _ => Text.sep_not_mem_of_mem_fields) (hroute.startOf _)
          obtain ⟨goal, hgoal, htraces, hadvances'⟩ := ih hrest hmid
          rw [Route.isRooted_startOf] at hadvances
          exact ⟨goal, hgoal, .link rfl hentry htarget htraces,
            .step (advance_link hentry) ((hadvances.before _).trans hadvances')⟩

/-- Behind a strict canonical path stands a walk that ended where the components lead, if it
began in a working directory that is there or went past a name. -/
theorem reached_of_resolve {room : Nat} {t : Text} {resolved : Path}
    (hlive : fs.get? directory.place = some .directory ∨
      ∃ part ∈ Text.fields Text.slash t, Path.keeps part = true ∧ part ≠ Path.up)
    (h : fs.resolveWithin room true directory t = .ok resolved) :
    ∃ depth n goal last, fs.Stays directory last goal ∧
      fs.Traces Anywhere depth n (directory.startOf t) (Text.fields Text.slash t) goal ∧
      fs.Advances n (.start directory t) ⟨goal, [], last.isRooted⟩ ∧
      directory.absolute last.text = .ok resolved := by
  rw [resolveWithin] at h
  cases hend : Canonical.follow ⟨fs.linkStat directory, true⟩ room (.fromHere 0 []) t [] with
  | error obstacle => simp [hend] at h
  | ok walked =>
      have hstart : fs.Stays directory ((Route.fromHere 0 []).startOf t) (directory.startOf t) := by
        refine ⟨grounded_startOf hlive hend, ?_⟩
        unfold Route.startOf WorkingDirectory.startOf
        split
        · exact .root
        · exact .here
      obtain ⟨course, met⟩ := walked
      obtain ⟨depth, n, last, rfl, hpasses, -⟩ :=
        Canonical.retraces_journey room Canonical.recalls_nil course met hend
      obtain ⟨goal, hlast, htraces, hadvances⟩ := stays_of_passes tells_finds hpasses
        (fun _ => Text.sep_not_mem_of_mem_fields) hstart
      rw [Route.isRooted_startOf] at hadvances
      simp only [hend] at h
      exact ⟨depth, n, goal, last, hlast, htraces, hadvances, h⟩

/-- A strict canonical path is that of a place with an entry that is no link. -/
theorem node_of_resolve {room : Nat} {t : Text} {resolved : Path}
    (hlive : fs.get? directory.place = some .directory ∨
      ∃ part ∈ Text.fields Text.slash t, Path.keeps part = true ∧ part ≠ Path.up)
    (h : fs.resolveWithin room true directory t = .ok resolved) :
    ∃ place node, resolved = place.path ∧ fs.get? place = some node ∧ node.isLink = false := by
  obtain ⟨-, -, spot, last, hlast, -, -, habsolute⟩ := reached_of_resolve hlive h
  obtain ⟨node, hnode, hlink⟩ := hlast.grounded.node hlast.stands
  exact ⟨spot.place, node, (absolute_of_at hlast.stands habsolute).2, hnode, hlink⟩

/-- A strict canonical path past a name is that of the place to which the components
lead. -/
theorem traces_of_resolve {room : Nat} {t : Text} {resolved : Path}
    (hname : ∃ part ∈ Text.fields Text.slash t, Path.keeps part = true ∧ part ≠ Path.up)
    (h : fs.resolveWithin room true directory t = .ok resolved) :
    ∃ depth n place, resolved = Place.path place ∧
      fs.Traces Anywhere depth n (directory.startOf t) (Text.fields Text.slash t)
        (.ofPlace place) := by
  obtain ⟨depth, n, ⟨place, levels⟩, last, hlast, htraces, -, habsolute⟩ :=
    reached_of_resolve (.inr hname) h
  obtain ⟨hlevels, hpath⟩ := absolute_of_at hlast.stands habsolute
  simp only at hlevels
  subst hlevels
  exact ⟨depth, n, place, hpath, htraces⟩

/-- A path that leads to a regular file, as far as one can ask. -/
theorem stat_of_leadsTo {path : Path} (h : fs.leadsTo directory path Node.isFile = .ok true) :
    ∃ executable content, fs.stat directory path.text = .ok (.file executable content) := by
  obtain ⟨-, node, hstat, hfile⟩ := asks_eq_true_iff.mp (leadsTo_eq_ok_iff.mp h)
  cases node with
  | file executable content => exact ⟨executable, content, hstat⟩
  | directory | link | pipe | sink | fullDevice => simp [Node.isFile] at hfile

/-- What stands at a place whose path leads to a regular file is that file. -/
theorem file_of_leadsTo {place : Place} {node : Node} (hnode : fs.get? place = some node)
    (hlink : node.isLink = false)
    (h : fs.leadsTo directory place.path Node.isFile = .ok true) :
    ∃ executable content, fs.get? place = some (.file executable content) := by
  obtain ⟨executable, content, hstat⟩ := stat_of_leadsTo h
  have hpath : fs.stat directory _ = _ := stat_path hnode hlink (length_le_of_node hstat)
  rw [hpath, Except.ok.injEq] at hstat
  exact ⟨executable, content, hstat ▸ hnode⟩

variable {includeDir header : Path} {headerName : Text}

/-- The header that is found has the path of a place, and a regular file stands there. -/
theorem file_of_findHeader (hkeeps : Path.keeps headerName = true) (hup : headerName ≠ Path.up)
    (hslash : Text.slash ∉ headerName)
    (h : fs.findHeader directory includeDir headerName = .ok header) :
    ∃ place executable content, header = place.path ∧
      fs.get? place = some (.file executable content) := by
  have hname := Path.mem_fields_child hkeeps hslash includeDir
  obtain ⟨hresolve, hleads⟩ := findHeader_eq_ok_iff.mp h
  obtain ⟨place, node, rfl, hnode, hlink⟩ :=
    node_of_resolve (.inr ⟨headerName, hname, hkeeps, hup⟩) hresolve
  obtain ⟨executable, content, hfile⟩ := file_of_leadsTo hnode hlink hleads
  exact ⟨place, executable, content, rfl, hfile⟩

/-- The components of the path of a header that is found lead to it. -/
theorem traces_of_findHeader (hkeeps : Path.keeps headerName = true) (hup : headerName ≠ Path.up)
    (hslash : Text.slash ∉ headerName)
    (h : fs.findHeader directory includeDir headerName = .ok header) :
    ∃ depth n place, header = Place.path place ∧
      fs.Traces Anywhere depth n (directory.startOf (includeDir.child headerName).text)
        (Text.fields Text.slash (includeDir.child headerName).text) (.ofPlace place) := by
  have hname := Path.mem_fields_child hkeeps hslash includeDir
  obtain ⟨hresolve, -⟩ := findHeader_eq_ok_iff.mp h
  exact traces_of_resolve ⟨headerName, hname, hkeeps, hup⟩ hresolve

end FileSystem

end SdkBindings
