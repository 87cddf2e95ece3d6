import SdkBindings.Proofs.ForgetfulWalk
import SdkBindings.Proofs.LenientWalk

/-!
The room for walks inside each other.  Two walks that find the same, in rooms that more
links than there are would have to be opened to fill, end alike and look up the same texts.
Main statement: no walk over a text depends on its room once it is the one of the file
system.
-/

namespace SdkBindings

namespace Canonical

/-- On the way along good routes two surveys find the same, but for what a lenient walk passes
in any case. -/
structure Alike (survey survey' : Survey) (good : Route → Prop) : Prop where
  strict : survey'.strict = survey.strict
  look : ∀ {route part}, good route → Path.keeps part = true → part ≠ Path.up →
    Text.slash ∉ part →
    survey'.look (route.enter part).text = survey.look (route.enter part).text ∨
      survey.strict = false ∧ ∀ target, survey.look (route.enter part).text ≠ .ok (.link target) ∧
        survey'.look (route.enter part).text ≠ .ok (.link target)

theorem Alike.refl (survey : Survey) (good : Route → Prop) : Alike survey survey good where
  strict := rfl
  look := fun _ _ _ _ => .inl rfl

variable {survey survey' : Survey} {good good' : Route → Prop} {plain : Text → Prop}
  {opened : List Route} {depth : Nat}

theorem Nested.mono (h : Nested survey good opened) (hgood : ∀ route, good route → good' route) :
    Nested survey good' opened where
  nodup := h.nodup
  link := fun next hnext =>
    let ⟨route, part, target, hsame, hroute, hrest⟩ := h.link next hnext
    ⟨route, part, target, hsame, hgood route hroute, hrest⟩

theorem Alike.look_link (h : Alike survey survey' good) {route : Route} {part : Text}
    {target : Target} (hroute : good route) (hkeeps : Path.keeps part = true) (hup : part ≠ Path.up)
    (hslash : Text.slash ∉ part) (hlook : survey.look (route.enter part).text = .ok (.link target)) :
    survey'.look (route.enter part).text = .ok (.link target) := by
  rcases h.look hroute hkeeps hup hslash with hsame | ⟨-, hother⟩
  · exact hsame.trans hlook
  · exact absurd hlook (hother target).1

/-- A lenient walk passes whatever is no link, be it there or not. -/
theorem tour_past {onLink : Route → Text → LinksMet → Journey} {route : Route} {met : LinksMet}
    {part : Text} {rest : List Text} (hlenient : survey.strict = false)
    (hkeeps : Path.keeps part = true) (hup : part ≠ Path.up) (hnul : part.hasNul = false)
    (hother : ∀ target, survey.look (route.enter part).text ≠ .ok (.link target)) :
    tour survey onLink route met (part :: rest) =
      .after (route.enter part).text (tour survey onLink (route.enter part) met rest) := by
  cases hlook : survey.look (route.enter part).text with
  | error reason => rw [tour_missing hkeeps hup hnul hlook, if_neg (by simp [hlenient])]
  | ok node =>
      apply tour_enter hkeeps hup hnul hlook
      cases node with
      | link target => exact absurd hlook (hother target)
      | directory | file | pipe | sink | fullDevice => rfl

/-- What the surveys find is the same, or neither finds a link and both walks pass. -/
theorem Alike.look_or_past (h : Alike survey survey' good)
    {onLink onLink' : Route → Text → LinksMet → Journey} {route : Route} {met : LinksMet}
    {part : Text} {rest : List Text} (hroute : good route) (hkeeps : Path.keeps part = true)
    (hup : part ≠ Path.up) (hslash : Text.slash ∉ part) (hnul : part.hasNul = false)
    (hrest : survey.strict = false → tour survey onLink (route.enter part) met rest =
      tour survey' onLink' (route.enter part) met rest) :
    survey'.look (route.enter part).text = survey.look (route.enter part).text ∨
      tour survey onLink route met (part :: rest) =
        tour survey' onLink' route met (part :: rest) := by
  refine (h.look hroute hkeeps hup hslash).imp_right ?_
  rintro ⟨hlenient, hother⟩
  rw [tour_past hlenient hkeeps hup hnul fun target => (hother target).1,
    tour_past (h.strict.trans hlenient) hkeeps hup hnul fun target => (hother target).2,
    hrest hlenient]

/-- Walks over components agree if the walks over the target of a link do. -/
theorem tour_agrees (hkept : Kept survey good plain) (halike : Alike survey survey' good)
    {onLink onLink' : Route → Text → LinksMet → Journey}
    (honLink : ∀ {nested route t met}, good route → plain t → Nested survey good nested →
      nested.length = opened.length + 1 → Remembers good nested met →
      EndsWell survey good plain nested depth (onLink route t met).outcome ∧
        onLink route t met = onLink' route t met)
    {parts : List Text} (hslash : ∀ part ∈ parts, Text.slash ∉ part)
    (hplain : ∀ part ∈ parts, plain part) {route : Route} {met : LinksMet} (hroute : good route)
    (hopened : Nested survey good opened) (hmet : Remembers good opened met) :
    tour survey onLink route met parts = tour survey' onLink' route met parts := by
  induction parts generalizing route met with
  | nil => rfl
  | cons part rest ih =>
      obtain ⟨hname, hslash'⟩ := List.forall_mem_cons.mp hslash
      obtain ⟨hpart, hplain'⟩ := List.forall_mem_cons.mp hplain
      have hrest := @ih hslash' hplain'
      cases turn survey route met part with
      | stay hstay =>
          rw [tour_stay hstay, tour_stay hstay]
          exact hrest hroute hmet
      | up hup =>
          rw [hup, tour_up, tour_up]
          exact hrest (hkept.back hroute) hmet
      | nul hkeeps hup hnul => rw [tour_nul hkeeps hup hnul, tour_nul hkeeps hup hnul]
      | missing hkeeps hup hnul hlook =>
          have hnext := fun hlenient =>
            hrest (hkept.missing hlenient hroute hpart hkeeps hup hname hlook) hmet
          rcases halike.look_or_past hroute hkeeps hup hname hnul hnext with hsame | hpast
          · rw [tour_missing hkeeps hup hnul hlook,
              tour_missing hkeeps hup hnul (hsame.trans hlook), halike.strict]
            cases hstrict : survey.strict with
            | true => rfl
            | false => exact congrArg _ (hnext hstrict)
          · exact hpast
      | enter hkeeps hup hnul hlook hlink =>
          have hnext := hrest (hkept.enter hroute hpart hkeeps hup hname hlook hlink) hmet
          rcases halike.look_or_past hroute hkeeps hup hname hnul fun _ => hnext with
            hsame | hpast
          · rw [tour_enter hkeeps hup hnul hlook hlink,
              tour_enter hkeeps hup hnul (hsame.trans hlook) hlink, hnext]
          · exact hpast
      | @link hkeeps hup hnul target hlook hbefore =>
          have hdeeper := hopened.cons hmet hroute hkeeps hup hname hlook hbefore
          obtain ⟨hends, hsame⟩ := honLink hroute (hkept.target target) hdeeper rfl
            (hmet.open (route.enter part))
          have hlook' := halike.look_link hroute hkeeps hup hname hlook
          rw [tour_link hkeeps hup hnul hlook hbefore, tour_link hkeeps hup hnul hlook' hbefore,
            ← hsame]
          unfold Journey.onward
          rcases houter : (onLink route target.text ((route.enter part, none) :: met)).outcome with
            obstacle | ⟨known | text, met'⟩
          · rfl
          · obtain ⟨hmet', hknown⟩ := hends.course _ _ houter
            have hnew := (List.nodup_cons.mp hdeeper.nodup).1
            simp only [afterLink, hrest hknown (hmet'.close hnew hknown)]
          · rfl
      | loop hkeeps hup hnul hlook hbefore =>
          have hlook' := halike.look_link hroute hkeeps hup hname hlook
          rw [tour_loop hkeeps hup hnul hlook hbefore, tour_loop hkeeps hup hnul hlook' hbefore,
            halike.strict]
      | known hkeeps hup hnul hlook hbefore =>
          have hlook' := halike.look_link hroute hkeeps hup hname hlook
          rw [tour_known hkeeps hup hnul hlook hbefore, tour_known hkeeps hup hnul hlook' hbefore,
            hrest (hmet.known _ _ hbefore) hmet]

/-- Walks over a text agree in rooms that opened links do not fill. -/
theorem journey_agrees (hkept : Kept survey good plain) (halike : Alike survey survey' good)
    {depth' : Nat}
    (hdepth : ∀ nested, Nested survey good nested → nested.length < opened.length + depth)
    (hdepth' : ∀ nested, Nested survey good nested → nested.length < opened.length + depth')
    {route : Route} {t : Text} {met : LinksMet} (hroute : good (route.startOf t)) (htext : plain t)
    (hopened : Nested survey good opened) (hmet : Remembers good opened met) :
    journey survey depth route t met = journey survey' depth' route t met := by
  have hopen := hdepth _ hopened
  have hopen' := hdepth' _ hopened
  induction depth generalizing depth' opened route t met with
  | zero => omega
  | succ depth ih =>
      cases depth' with
      | zero => omega
      | succ depth' =>
          have hdeeper : ∀ {nested route t met}, good route → plain t → Nested survey good nested →
              nested.length = opened.length + 1 → Remembers good nested met →
              EndsWell survey good plain nested depth (follow survey depth route t met) ∧
                journey survey depth route t met = journey survey' depth' route t met := by
            intro nested route t met hroute htext hnested hlength hmet
            have hinner : nested.length + depth = opened.length + (depth + 1) := by
              omega
            have hinner' : nested.length + depth' = opened.length + (depth' + 1) := by
              omega
            rw [← hinner] at hdepth
            rw [← hinner'] at hdepth'
            exact ⟨endsWell_follow hkept hroute htext hnested hmet,
              ih hdepth hdepth' (hkept.startOf hroute t) htext hnested hmet (hdepth _ hnested)
                (hdepth' _ hnested)⟩
          rw [journey_succ, journey_succ]
          exact tour_agrees hkept halike hdeeper (fun _ => Text.sep_not_mem_of_mem_fields)
            (fun _ => hkept.fields htext) hroute hopened hmet

end Canonical

namespace FileSystem

variable {fs : FileSystem}

/-- The room of a file system is as good as any larger one. -/
theorem journey_of_nestingBound_le (fs : FileSystem) (directory : WorkingDirectory) (strict : Bool)
    (t : Text) {room : Nat} (h : fs.nestingBound ≤ room) :
    Canonical.journey ⟨fs.linkStat directory, strict⟩ room (.fromHere 0 []) t [] =
      Canonical.journey ⟨fs.linkStat directory, strict⟩ fs.nestingBound (.fromHere 0 []) t [] := by
  have hhere : fs.Clear directory (.fromHere 0 []) := .here 0
  have hstart := (kept_clear strict).startOf hhere t
  have hroom : ∀ nested, Canonical.Nested ⟨fs.linkStat directory, strict⟩ (fs.Clear directory)
      nested → nested.length < ([] : List Route).length + fs.nestingBound := fun nested hnested =>
    Nat.lt_of_lt_of_le (length_lt_nestingBound hnested) (Nat.le_add_left _ _)
  exact Canonical.journey_agrees (kept_clear strict) (.refl _ _)
    (fun nested hnested => Nat.lt_of_lt_of_le (hroom nested hnested) (Nat.add_le_add_left h _))
    hroom hstart trivial Canonical.nested_nil Canonical.remembers_nil

/-- Where the forgetful walk over the components of a text ends, both walks over the text
end, in a room for the links inside each other or in one for as many as there are. -/
theorem follow_of_passes {directory : WorkingDirectory} {sees : Route → Node → Prop}
    {within : Text → Prop} (hsees : Canonical.Reveals (fs.linkStat directory) within sees)
    {depth n room : Nat} {t : Text} {last : Route}
    (h : Canonical.Passes sees depth n ((Route.fromHere 0 []).startOf t) (Text.fields Text.slash t)
      last)
    (hroom : depth < room ∨ fs.nestingBound ≤ room) (strict : Bool)
    (hwithin : ∀ looked ∈
      (Canonical.journey ⟨fs.linkStat directory, strict⟩ room (.fromHere 0 []) t []).looked,
      within looked) :
    ∃ met, ∀ strict, Canonical.follow ⟨fs.linkStat directory, strict⟩ room (.fromHere 0 []) t [] =
      .ok (.reached last, met) := by
  rcases hroom with hroom | hroom
  · exact Canonical.follow_of_passes hsees h hroom hwithin
  -- A larger room makes no difference, and there is one for the links inside each other.
  · have hsame : ∀ strict,
        Canonical.journey ⟨fs.linkStat directory, strict⟩ room (.fromHere 0 []) t [] =
          Canonical.journey ⟨fs.linkStat directory, strict⟩ (max room (depth + 1))
            (.fromHere 0 []) t [] := by
      intro strict
      have hlarger := fs.journey_of_nestingBound_le directory strict t
        (Nat.le_trans hroom (Nat.le_max_left room (depth + 1)))
      exact (fs.journey_of_nestingBound_le directory strict t hroom).trans hlarger.symm
    rw [hsame] at hwithin
    obtain ⟨met, hreached⟩ := Canonical.follow_of_passes hsees h
      (Nat.lt_of_succ_le (Nat.le_max_right room (depth + 1))) hwithin
    exact ⟨met, fun strict => (congrArg Canonical.Journey.outcome (hsame strict)).trans
      (hreached strict)⟩

/-- A header is found in the room of the file system or in none that is larger. -/
theorem findHeaderWithin_of_nestingBound_le (fs : FileSystem) (directory : WorkingDirectory)
    (includeDir : Path) (headerName : Text) {room : Nat} (h : fs.nestingBound ≤ room) :
    fs.findHeaderWithin room directory includeDir headerName =
      fs.findHeader directory includeDir headerName := by
  rw [findHeader, findHeaderWithin, findHeaderWithin, resolveWithin, resolveWithin,
    Canonical.follow, Canonical.follow, fs.journey_of_nestingBound_le directory true _ h]

end FileSystem

end SdkBindings
