import SdkBindings.Canonical
import SdkBindings.Proofs.Walk

/-!
What a walk by spelling does at each component, and what it keeps true.  A property of
routes and a property of texts that go along with every step hold of what the walk ends
with.  Main statement: wherever a walk ends, it ends on a route with the property, or on a
text with the property if it is lenient.  It stops at a zero byte only if a text with the
property holds one, and a lenient walk stops at a loop only inside as many links as its
bound allows.
-/

namespace SdkBindings

namespace Canonical

namespace Journey

@[simp] theorem outcome_ended (outcome : Outcome) : (ended outcome).outcome = outcome := rfl

@[simp] theorem looked_ended (outcome : Outcome) : (ended outcome).looked = [] := rfl

@[simp] theorem outcome_after (t : Text) (journey : Journey) :
    (after t journey).outcome = journey.outcome := rfl

@[simp] theorem looked_after (t : Text) (journey : Journey) :
    (after t journey).looked = t :: journey.looked := rfl

@[simp] theorem outcome_onward (first : Journey) (go : Outcome → Journey) :
    (first.onward go).outcome = (go first.outcome).outcome := rfl

@[simp] theorem looked_onward (first : Journey) (go : Outcome → Journey) :
    (first.onward go).looked = first.looked ++ (go first.outcome).looked := rfl

end Journey

/-- How a walk goes on behind a link, by the outcome of the walk over its target. -/
def afterLink (next : Route) (rest : List Text) (go : Route → LinksMet → Journey) :
    Outcome → Journey
  | .error obstacle => .ended (.error obstacle)
  | .ok (.lost text, met) => .ended (.ok (.lost (appendText text (remainder rest)), met))
  | .ok (.reached known, met) => go known ((next, some known) :: met)

section

variable {survey : Survey} {onLink : Route → Text → LinksMet → Journey} {route : Route}
  {met : LinksMet} {part : Text} {rest : List Text}

theorem tour_stay (h : part = [] ∨ part = Path.here) :
    tour survey onLink route met (part :: rest) = tour survey onLink route met rest := by
  rw [tour, if_pos h]

theorem tour_up :
    tour survey onLink route met (Path.up :: rest) = tour survey onLink route.back met rest := by
  rw [tour, if_neg (by decide), if_pos rfl]

theorem not_stay_of_keeps (hkeeps : Path.keeps part = true) :
    ¬ (part = [] ∨ part = Path.here) := by
  simpa [Path.keeps] using hkeeps

theorem tour_nul (hkeeps : Path.keeps part = true) (hup : part ≠ Path.up)
    (hnul : part.hasNul = true) :
    tour survey onLink route met (part :: rest) = .ended (.error .embeddedNul) := by
  rw [tour, if_neg (not_stay_of_keeps hkeeps), if_neg hup, if_pos hnul]

theorem tour_missing (hkeeps : Path.keeps part = true) (hup : part ≠ Path.up)
    (hnul : part.hasNul = false) {reason : Errno}
    (hlook : survey.look (route.enter part).text = .error reason) :
    tour survey onLink route met (part :: rest) =
      .after (route.enter part).text
        (if survey.strict then .ended (.error (.system reason))
        else tour survey onLink (route.enter part) met rest) := by
  rw [tour, if_neg (not_stay_of_keeps hkeeps), if_neg hup, if_neg (by simp [hnul])]
  simp only [hlook]

theorem tour_enter (hkeeps : Path.keeps part = true) (hup : part ≠ Path.up)
    (hnul : part.hasNul = false) {node : Node}
    (hlook : survey.look (route.enter part).text = .ok node) (hlink : node.isLink = false) :
    tour survey onLink route met (part :: rest) =
      .after (route.enter part).text (tour survey onLink (route.enter part) met rest) := by
  rw [tour, if_neg (not_stay_of_keeps hkeeps), if_neg hup, if_neg (by simp [hnul])]
  cases node with
  | link target => simp [Node.isLink] at hlink
  | directory | file | pipe | sink | fullDevice => simp only [hlook]

/-- A link that was met before is not walked again. -/
theorem tour_known (hkeeps : Path.keeps part = true) (hup : part ≠ Path.up)
    (hnul : part.hasNul = false) {target : Target} {known : Route}
    (hlook : survey.look (route.enter part).text = .ok (.link target))
    (hmet : met.lookup (route.enter part) = some (some known)) :
    tour survey onLink route met (part :: rest) =
      .after (route.enter part).text (tour survey onLink known met rest) := by
  rw [tour, if_neg (not_stay_of_keeps hkeeps), if_neg hup, if_neg (by simp [hnul])]
  simp only [hlook, hmet]

/-- A link that is met while its own target is being walked is a loop. -/
theorem tour_loop (hkeeps : Path.keeps part = true) (hup : part ≠ Path.up)
    (hnul : part.hasNul = false) {target : Target}
    (hlook : survey.look (route.enter part).text = .ok (.link target))
    (hmet : met.lookup (route.enter part) = some none) :
    tour survey onLink route met (part :: rest) =
      .after (route.enter part).text
        (if survey.strict then .ended (.error .loop)
        else .ended (.ok (.lost (appendText (route.enter part).text (remainder rest)), met))) := by
  rw [tour, if_neg (not_stay_of_keeps hkeeps), if_neg hup, if_neg (by simp [hnul])]
  simp only [hlook, hmet]

theorem tour_link (hkeeps : Path.keeps part = true) (hup : part ≠ Path.up)
    (hnul : part.hasNul = false) {target : Target}
    (hlook : survey.look (route.enter part).text = .ok (.link target))
    (hmet : met.lookup (route.enter part) = none) :
    tour survey onLink route met (part :: rest) =
      .after (route.enter part).text
        ((onLink route target.text ((route.enter part, none) :: met)).onward
          (afterLink (route.enter part) rest
            fun known met' => tour survey onLink known met' rest)) := by
  rw [tour, if_neg (not_stay_of_keeps hkeeps), if_neg hup, if_neg (by simp [hnul])]
  simp only [hlook, hmet]
  rfl

/-- A name is looked up. -/
theorem text_mem_looked (hkeeps : Path.keeps part = true) (hup : part ≠ Path.up)
    (hnul : part.hasNul = false) :
    (route.enter part).text ∈ (tour survey onLink route met (part :: rest)).looked := by
  rw [tour, if_neg (not_stay_of_keeps hkeeps), if_neg hup, if_neg (by simp [hnul])]
  exact List.mem_cons_self

theorem journey_succ (room : Nat) (t : Text) :
    journey survey (room + 1) route t met =
      tour survey (journey survey room) (route.startOf t) met (Text.fields Text.slash t) := rfl

end

/-- What the first component of a walk can be. -/
inductive Turn (survey : Survey) (route : Route) (met : LinksMet) (part : Text) : Prop where
  | stay (stays : part = [] ∨ part = Path.here)
  | up (leaves : part = Path.up)
  | nul (keeps : Path.keeps part = true) (other : part ≠ Path.up) (holds : part.hasNul = true)
  | missing (keeps : Path.keeps part = true) (other : part ≠ Path.up)
      (clean : part.hasNul = false) {reason : Errno}
      (look : survey.look (route.enter part).text = .error reason)
  | enter (keeps : Path.keeps part = true) (other : part ≠ Path.up) (clean : part.hasNul = false)
      {node : Node} (look : survey.look (route.enter part).text = .ok node)
      (unlinked : node.isLink = false)
  /-- A link that is met for the first time. -/
  | link (keeps : Path.keeps part = true) (other : part ≠ Path.up) (clean : part.hasNul = false)
      {target : Target} (look : survey.look (route.enter part).text = .ok (.link target))
      (fresh : met.lookup (route.enter part) = none)
  /-- A link whose target is being walked. -/
  | loop (keeps : Path.keeps part = true) (other : part ≠ Path.up) (clean : part.hasNul = false)
      {target : Target} (look : survey.look (route.enter part).text = .ok (.link target))
      (awaited : met.lookup (route.enter part) = some none)
  | known (keeps : Path.keeps part = true) (other : part ≠ Path.up) (clean : part.hasNul = false)
      {target : Target} (look : survey.look (route.enter part).text = .ok (.link target))
      {known : Route} (remembered : met.lookup (route.enter part) = some (some known))

theorem turn (survey : Survey) (route : Route) (met : LinksMet) (part : Text) :
    Turn survey route met part := by
  by_cases hstay : part = [] ∨ part = Path.here
  · exact .stay hstay
  by_cases hup : part = Path.up
  · exact .up hup
  have hkeeps : Path.keeps part = true := by simpa [Path.keeps] using hstay
  cases hnul : part.hasNul with
  | true => exact .nul hkeeps hup hnul
  | false =>
      cases hlook : survey.look (route.enter part).text with
      | error reason => exact .missing hkeeps hup hnul hlook
      | ok node =>
          cases hlink : node.isLink with
          | false => exact .enter hkeeps hup hnul hlook hlink
          | true =>
              obtain ⟨target, rfl⟩ := Node.exists_of_isLink hlink
              rcases hmet : met.lookup (route.enter part) with _ | _ | known
              · exact .link hkeeps hup hnul hlook hmet
              · exact .loop hkeeps hup hnul hlook hmet
              · exact .known hkeeps hup hnul hlook hmet

/-- A property of routes and a property of texts that a walk keeps. -/
structure Kept (survey : Survey) (good : Route → Prop) (plain : Text → Prop) : Prop where
  root : good (.fromRoot [])
  back : ∀ {route}, good route → good route.back
  enter : ∀ {route part node}, good route → plain part → Path.keeps part = true →
    part ≠ Path.up → Text.slash ∉ part → survey.look (route.enter part).text = .ok node →
    node.isLink = false → good (route.enter part)
  missing : ∀ {route part reason}, survey.strict = false → good route → plain part →
    Path.keeps part = true → part ≠ Path.up → Text.slash ∉ part →
    survey.look (route.enter part).text = .error reason → good (route.enter part)
  spelled : ∀ {route part}, survey.strict = false → good route → plain part →
    plain (route.enter part).text
  append : ∀ {before rest}, plain before → (∀ part ∈ rest, plain part) →
    plain (appendText before (remainder rest))
  fields : ∀ {t part}, plain t → part ∈ Text.fields Text.slash t → plain part
  target : ∀ target : Target, plain target.text

theorem Kept.startOf {survey : Survey} {good : Route → Prop} {plain : Text → Prop}
    (h : Kept survey good plain) {route : Route} (hroute : good route) (t : Text) :
    good (route.startOf t) := by
  unfold Route.startOf
  split
  · exact h.root
  · exact hroute

/-- Links that are good routes but for their last component, each of them once. -/
structure Nested (survey : Survey) (good : Route → Prop) (opened : List Route) : Prop where
  nodup : opened.Nodup
  link : ∀ next ∈ opened, ∃ route part target, next = route.enter part ∧ good route ∧
    Path.keeps part = true ∧ part ≠ Path.up ∧ Text.slash ∉ part ∧
    survey.look next.text = .ok (.link target)

/-- What is remembered of links are good routes, and the opened ones have none yet. -/
structure Remembers (good : Route → Prop) (opened : List Route) (met : LinksMet) : Prop where
  known : ∀ route known, met.lookup route = some (some known) → good known
  opened : ∀ route ∈ opened, met.lookup route = some none

/-- How a walk ends that keeps the properties, inside some opened links and with a bound
on further ones. -/
structure EndsWell (survey : Survey) (good : Route → Prop) (plain : Text → Prop)
    (opened : List Route) (depth : Nat) (outcome : Outcome) : Prop where
  nul : outcome = .error .embeddedNul → ∃ part, plain part ∧ part.hasNul = true
  loop : outcome = .error .loop → survey.strict = true ∨
    ∃ nested, Nested survey good nested ∧ nested.length = opened.length + depth
  course : ∀ course met, outcome = .ok (course, met) → Remembers good opened met ∧
    match course with
    | .reached route => good route
    | .lost text => survey.strict = false ∧ plain text

variable {survey : Survey} {good : Route → Prop} {plain : Text → Prop} {opened : List Route}
  {depth : Nat}

theorem nested_nil : Nested survey good [] where
  nodup := List.nodup_nil
  link := by simp

theorem remembers_nil : Remembers good [] [] where
  known := by simp
  opened := by simp

theorem Nested.cons (h : Nested survey good opened) {met : LinksMet}
    (hmet : Remembers good opened met) {route : Route} {part : Text} {target : Target}
    (hroute : good route) (hkeeps : Path.keeps part = true) (hup : part ≠ Path.up)
    (hslash : Text.slash ∉ part)
    (hlook : survey.look (route.enter part).text = .ok (.link target))
    (hnew : met.lookup (route.enter part) = none) :
    Nested survey good (route.enter part :: opened) where
  nodup := by
    refine List.nodup_cons.mpr ⟨?_, h.nodup⟩
    intro hmem
    have hbefore := hmet.opened _ hmem
    rw [hnew] at hbefore
    simp at hbefore
  link := by
    intro next hnext
    rcases List.mem_cons.mp hnext with rfl | hnext
    · exact ⟨route, part, target, rfl, hroute, hkeeps, hup, hslash, hlook⟩
    · exact h.link next hnext

theorem Remembers.open {met : LinksMet} (h : Remembers good opened met) (route : Route) :
    Remembers good (route :: opened) ((route, none) :: met) where
  known := by
    intro other known hother
    rw [List.lookup_cons] at hother
    split at hother
    · simp at hother
    · exact h.known other known hother
  opened := by
    intro other hother
    rw [List.lookup_cons]
    split
    · rfl
    · next hne =>
      rcases List.mem_cons.mp hother with rfl | hother
      · simp at hne
      · exact h.opened other hother

theorem Remembers.of_cons {route : Route} {met : LinksMet}
    (h : Remembers good (route :: opened) met) : Remembers good opened met where
  known := h.known
  opened := fun other hother => h.opened other (List.mem_cons_of_mem route hother)

theorem Remembers.close {route known : Route} {met : LinksMet}
    (h : Remembers good (route :: opened) met) (hnew : route ∉ opened) (hknown : good known) :
    Remembers good opened ((route, some known) :: met) where
  known := by
    intro other known' hother
    rw [List.lookup_cons] at hother
    split at hother
    · rw [Option.some.injEq, Option.some.injEq] at hother
      exact hother ▸ hknown
    · exact h.known other known' hother
  opened := by
    intro other hother
    rw [List.lookup_cons]
    split
    · next heq =>
      rw [beq_iff_eq] at heq
      exact absurd (heq ▸ hother) hnew
    · exact h.of_cons.opened other hother

theorem endsWell_system (reason : Errno) :
    EndsWell survey good plain opened depth (.error (.system reason)) where
  nul := by simp
  loop := by simp
  course := by simp

theorem endsWell_nul {part : Text} (hplain : plain part) (hnul : part.hasNul = true) :
    EndsWell survey good plain opened depth (.error .embeddedNul) where
  nul := fun _ => ⟨part, hplain, hnul⟩
  loop := by simp
  course := by simp

theorem endsWell_loop (h : survey.strict = true ∨
      ∃ nested, Nested survey good nested ∧ nested.length = opened.length + depth) :
    EndsWell survey good plain opened depth (.error .loop) where
  nul := by simp
  loop := fun _ => h
  course := by simp

theorem endsWell_reached {route : Route} {met : LinksMet} (hroute : good route)
    (hmet : Remembers good opened met) :
    EndsWell survey good plain opened depth (.ok (.reached route, met)) where
  nul := by simp
  loop := by simp
  course := by
    intro course met' hend
    obtain ⟨rfl, rfl⟩ := Prod.mk.inj (Except.ok.inj hend)
    exact ⟨hmet, hroute⟩

theorem endsWell_lost {text : Text} {met : LinksMet} (hlenient : survey.strict = false)
    (htext : plain text) (hmet : Remembers good opened met) :
    EndsWell survey good plain opened depth (.ok (.lost text, met)) where
  nul := by simp
  loop := by simp
  course := by
    intro course met' hend
    obtain ⟨rfl, rfl⟩ := Prod.mk.inj (Except.ok.inj hend)
    exact ⟨hmet, hlenient, htext⟩

/-- A strict walk loses nothing. -/
theorem EndsWell.reached {outcome : Outcome}
    (h : EndsWell survey good plain opened depth outcome) (hstrict : survey.strict = true)
    {course : Course} {met : LinksMet} (hend : outcome = .ok (course, met)) :
    ∃ route, course = .reached route ∧ good route := by
  obtain ⟨-, hcourse⟩ := h.course course met hend
  cases course with
  | reached route => exact ⟨route, rfl, hcourse⟩
  | lost text =>
      rw [hstrict] at hcourse
      exact absurd hcourse.1 (by simp)

/-- Behind a link, the walk ends well if the walk over its target does. -/
theorem endsWell_link (hkept : Kept survey good plain) {next : Route} {rest : List Text}
    {inner : Outcome} {go : Route → LinksMet → Journey}
    (hopened : Nested survey good (next :: opened))
    (hinner : EndsWell survey good plain (next :: opened) depth inner)
    (hrest : ∀ part ∈ rest, plain part)
    (hgo : ∀ {known met'}, good known → Remembers good opened met' →
      EndsWell survey good plain opened (depth + 1) (go known met').outcome) :
    EndsWell survey good plain opened (depth + 1) (afterLink next rest go inner).outcome := by
  cases inner with
  | error obstacle =>
      cases obstacle with
      | system reason => exact endsWell_system reason
      | embeddedNul =>
          obtain ⟨part, hpart, hholds⟩ := hinner.nul rfl
          exact endsWell_nul hpart hholds
      | loop =>
          refine endsWell_loop ((hinner.loop rfl).imp_right ?_)
          rintro ⟨nested, hnested, hlength⟩
          refine ⟨nested, hnested, ?_⟩
          rw [hlength, List.length_cons]
          omega
  | ok walked =>
      obtain ⟨course, met'⟩ := walked
      obtain ⟨hmet', hcourse⟩ := hinner.course course met' rfl
      cases course with
      | lost text => exact endsWell_lost hcourse.1 (hkept.append hcourse.2 hrest) hmet'.of_cons
      | reached known =>
          have hnew := (List.nodup_cons.mp hopened.nodup).1
          exact hgo hcourse (hmet'.close hnew hcourse)

/-- The walk over components keeps the properties, if the walk over the target of a link
does. -/
theorem endsWell_tour (hkept : Kept survey good plain)
    {onLink : Route → Text → LinksMet → Journey}
    (honLink : ∀ {opened route t met}, good route → plain t → Nested survey good opened →
      Remembers good opened met →
      EndsWell survey good plain opened depth (onLink route t met).outcome)
    {parts : List Text} (hslash : ∀ part ∈ parts, Text.slash ∉ part)
    (hplain : ∀ part ∈ parts, plain part) {route : Route} {met : LinksMet} (hroute : good route)
    (hopened : Nested survey good opened) (hmet : Remembers good opened met) :
    EndsWell survey good plain opened (depth + 1) (tour survey onLink route met parts).outcome := by
  induction parts generalizing route met with
  | nil => exact endsWell_reached hroute hmet
  | cons part rest ih =>
      obtain ⟨hname, hslash'⟩ := List.forall_mem_cons.mp hslash
      obtain ⟨hpart, hplain'⟩ := List.forall_mem_cons.mp hplain
      cases turn survey route met part with
      | stay hstay =>
          rw [tour_stay hstay]
          exact ih hslash' hplain' hroute hmet
      | up hup =>
          rw [hup, tour_up]
          exact ih hslash' hplain' (hkept.back hroute) hmet
      | nul hkeeps hup hnul =>
          rw [tour_nul hkeeps hup hnul]
          exact endsWell_nul hpart hnul
      | @missing hkeeps hup hnul reason hlook =>
          rw [tour_missing hkeeps hup hnul hlook]
          cases hstrict : survey.strict with
          | true => exact endsWell_system reason
          | false =>
              have hnext := hkept.missing hstrict hroute hpart hkeeps hup hname hlook
              exact ih hslash' hplain' hnext hmet
      | enter hkeeps hup hnul hlook hlink =>
          rw [tour_enter hkeeps hup hnul hlook hlink]
          have hnext := hkept.enter hroute hpart hkeeps hup hname hlook hlink
          exact ih hslash' hplain' hnext hmet
      | @link hkeeps hup hnul target hlook hbefore =>
          rw [tour_link hkeeps hup hnul hlook hbefore]
          have hdeeper := hopened.cons hmet hroute hkeeps hup hname hlook hbefore
          have hinner := honLink hroute (hkept.target target) hdeeper
            (hmet.open (route.enter part))
          apply endsWell_link hkept hdeeper hinner hplain'
          intro known met' hknown hmet'
          exact ih hslash' hplain' hknown hmet'
      | loop hkeeps hup hnul hlook hbefore =>
          rw [tour_loop hkeeps hup hnul hlook hbefore]
          cases hstrict : survey.strict with
          | true => exact endsWell_loop (.inl hstrict)
          | false =>
              have htext := hkept.spelled hstrict hroute hpart
              exact endsWell_lost hstrict (hkept.append htext hplain') hmet
      | known hkeeps hup hnul hlook hbefore =>
          rw [tour_known hkeeps hup hnul hlook hbefore]
          exact ih hslash' hplain' (hmet.known _ _ hbefore) hmet

/-- A walk over a text keeps the properties. -/
theorem endsWell_follow (hkept : Kept survey good plain) {route : Route} {t : Text}
    {met : LinksMet} (hroute : good route) (htext : plain t)
    (hopened : Nested survey good opened) (hmet : Remembers good opened met) :
    EndsWell survey good plain opened depth (follow survey depth route t met) := by
  induction depth generalizing opened route t met with
  | zero => exact endsWell_loop (.inr ⟨opened, hopened, rfl⟩)
  | succ depth ih =>
      exact endsWell_tour hkept ih (fun _ => Text.sep_not_mem_of_mem_fields)
        (fun _ => hkept.fields htext) (hkept.startOf hroute t) hopened hmet

end Canonical

end SdkBindings
