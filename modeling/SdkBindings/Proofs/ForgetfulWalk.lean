import SdkBindings.Proofs.Spelling
import SdkBindings.Proofs.WalkInvariant

/-!
The walk by spelling without its memory: every link is walked anew, however often it is
met.  It says nothing of loops, since it has no end at one.  Main statements: a walk that
remembers links ends on the route on which the forgetful one ends, if there is room for the
links inside each other, be it strict or lenient; and a strict walk that ends, ends where
the forgetful one does.
-/

namespace SdkBindings

namespace Canonical

/-- Where a component leads on: to a route, or along the target of a link. -/
inductive Bearing where
  | on (next : Route)
  | into (target : Target)

/-- What a component leads to on a route, by the nodes that are seen at the ends of routes. -/
inductive Bears (sees : Route → Node → Prop) (route : Route) : Text → Bearing → Prop where
  | stay {part} : part = [] ∨ part = Path.here → Bears sees route part (.on route)
  | up : Bears sees route Path.up (.on route.back)
  | enter {part node} :
      Path.keeps part = true → part ≠ Path.up → part.hasNul = false →
      sees (route.enter part) node →
      node.isLink = false →
      Bears sees route part (.on (route.enter part))
  | link {part target} :
      Path.keeps part = true → part ≠ Path.up → part.hasNul = false →
      sees (route.enter part) (.link target) →
      Bears sees route part (.into target)

/-- The forgetful walk over components from one route to another.  The first number is how
many links there may be inside each other, and the second one counts the components, those
of link targets included. -/
inductive Passes (sees : Route → Node → Prop) : Nat → Nat → Route → List Text → Route → Prop where
  | done {depth route} : Passes sees depth 0 route [] route
  | on {depth n route part next rest last} :
      Bears sees route part (.on next) →
      Passes sees depth n next rest last →
      Passes sees depth (n + 1) route (part :: rest) last
  | into {depth n m route part target mid rest last} :
      Bears sees route part (.into target) →
      Passes sees depth n (route.startOf target.text) (Text.fields Text.slash target.text) mid →
      Passes sees (depth + 1) m mid rest last →
      Passes sees (depth + 1) (n + m + 1) route (part :: rest) last

/-- At the end of a route one node is seen at most. -/
def Clearly (sees : Route → Node → Prop) : Prop :=
  ∀ route node node', sees route node → sees route node' → node = node'

variable {sees : Route → Node → Prop} {depth depth' n m : Nat} {route last last' : Route}
  {parts rest : List Text} {part : Text}

theorem Bears.unique (hsees : Clearly sees) {bearing bearing' : Bearing}
    (h : Bears sees route part bearing) (h' : Bears sees route part bearing') :
    bearing = bearing' := by
  cases h with
  | stay hstay =>
      cases h' with
      | stay => rfl
      | up => rcases hstay with hstay | hstay <;> simp [Path.up, Path.here] at hstay
      | enter hkeeps | link hkeeps => exact absurd hstay (not_stay_of_keeps hkeeps)
  | up =>
      cases h' with
      | stay hstay => rcases hstay with hstay | hstay <;> simp [Path.up, Path.here] at hstay
      | up => rfl
      | enter _ hup | link _ hup => exact absurd rfl hup
  | enter hkeeps hup _ hnode hlink =>
      cases h' with
      | stay hstay => exact absurd hstay (not_stay_of_keeps hkeeps)
      | up => exact absurd rfl hup
      | enter => rfl
      | link _ _ _ hnode' =>
          obtain rfl := hsees _ _ _ hnode hnode'
          simp [Node.isLink] at hlink
  | link hkeeps hup _ hnode =>
      cases h' with
      | stay hstay => exact absurd hstay (not_stay_of_keeps hkeeps)
      | up => exact absurd rfl hup
      | enter _ _ _ hnode' hlink =>
          obtain rfl := hsees _ _ _ hnode hnode'
          simp [Node.isLink] at hlink
      | link _ _ _ hnode' =>
          obtain rfl := Node.link.inj (hsees _ _ _ hnode hnode')
          rfl

theorem Passes.deepen (h : Passes sees depth n route parts last) (hdepth : depth ≤ depth') :
    Passes sees depth' n route parts last := by
  induction h generalizing depth' with
  | done => exact .done
  | on hbears _ ih => exact .on hbears (ih hdepth)
  | into hbears _ _ ihtarget ih =>
      obtain ⟨below, rfl⟩ := Nat.exists_eq_add_of_le' (Nat.le_trans (Nat.succ_pos _) hdepth)
      exact .into hbears (ihtarget (Nat.le_of_succ_le_succ hdepth)) (ih hdepth)

theorem Passes.unique (hsees : Clearly sees) (h : Passes sees depth n route parts last)
    (h' : Passes sees depth' m route parts last') : n = m ∧ last = last' := by
  induction h generalizing depth' m last' with
  | done =>
      cases h'
      exact ⟨rfl, rfl⟩
  | on hbears _ ih =>
      cases h' with
      | on hbears' hrest =>
          obtain rfl := Bearing.on.inj (hbears.unique hsees hbears')
          obtain ⟨rfl, rfl⟩ := ih hrest
          exact ⟨rfl, rfl⟩
      | into hbears' => exact absurd (hbears.unique hsees hbears') (by simp)
  | into hbears _ _ ihtarget ih =>
      cases h' with
      | on hbears' => exact absurd (hbears.unique hsees hbears') (by simp)
      | into hbears' htarget hrest =>
          obtain rfl := Bearing.into.inj (hbears.unique hsees hbears')
          obtain ⟨rfl, rfl⟩ := ihtarget htarget
          obtain ⟨rfl, rfl⟩ := ih hrest
          exact ⟨rfl, rfl⟩

/-- The forgetful walk over the target of the link at the end of a route. -/
def PassesLink (sees : Route → Node → Prop) (depth n : Nat) (route : Route) (part : Text)
    (last : Route) : Prop :=
  ∃ target, sees (route.enter part) (.link target) ∧
    Passes sees depth n (route.startOf target.text) (Text.fields Text.slash target.text) last

theorem PassesLink.unique (hsees : Clearly sees) (h : PassesLink sees depth n route part last)
    (h' : PassesLink sees depth' m route part last') : n = m ∧ last = last' := by
  obtain ⟨target, hnode, hpasses⟩ := h
  obtain ⟨target', hnode', hpasses'⟩ := h'
  obtain rfl := Node.link.inj (hsees _ _ _ hnode hnode')
  exact hpasses.unique hsees hpasses'

/-- A memory of links: what is known of a link is where the forgetful walk over its target
ends, and no target that is being walked ends after fewer components than that. -/
structure Recalls (sees : Route → Node → Prop) (n : Nat) (met : LinksMet) : Prop where
  known : ∀ {route part known}, met.lookup (route.enter part) = some (some known) →
    ∃ depth m, PassesLink sees depth m route part known
  awaited : ∀ {route part depth m last}, met.lookup (route.enter part) = some none →
    PassesLink sees depth m route part last → n ≤ m

/-- Links whose targets are being walked were being walked before. -/
def StillOpen (before after : LinksMet) : Prop :=
  ∀ next, after.lookup next = some none → before.lookup next = some none

theorem recalls_nil : Recalls sees n [] where
  known := by simp
  awaited := by simp

theorem Recalls.mono {met : LinksMet} (h : Recalls sees n met) (hle : m ≤ n) :
    Recalls sees m met where
  known := h.known
  awaited := fun hmet hpasses => Nat.le_trans hle (h.awaited hmet hpasses)

/-- What is remembered of a link was remembered last, or it was before. -/
theorem lookup_cons_cases {next other : Route} {latest found : Option Route} {met : LinksMet}
    (h : List.lookup other ((next, latest) :: met) = some found) :
    other = next ∧ found = latest ∨ other ≠ next ∧ met.lookup other = some found := by
  by_cases hsame : other = next
  · subst hsame
    exact .inl ⟨rfl, by simpa using h.symm⟩
  · rw [List.lookup_cons, beq_false_of_ne hsame] at h
    exact .inr ⟨hsame, h⟩

/-- A link whose target is going to be walked. -/
theorem Recalls.opened {met : LinksMet} (h : Recalls sees n met) (hle : m ≤ n)
    (hnew : ∀ {depth k last}, PassesLink sees depth k route part last → m ≤ k) :
    Recalls sees m ((route.enter part, none) :: met) where
  known := by
    intro route' part' known hother
    rcases lookup_cons_cases hother with ⟨-, hclosed⟩ | ⟨-, hbefore⟩
    · simp at hclosed
    · exact h.known hbefore
  awaited := by
    intro route' part' depth k last hother hpasses
    rcases lookup_cons_cases hother with ⟨hsame, -⟩ | ⟨-, hbefore⟩
    · obtain ⟨rfl, rfl⟩ := Route.enter_injective hsame
      exact hnew hpasses
    · exact Nat.le_trans hle (h.awaited hbefore hpasses)

/-- A link whose target has been walked. -/
theorem Recalls.closed {met met' : LinksMet} (h : Recalls sees n met) (h' : Recalls sees 0 met')
    (hopen : StillOpen met ((route.enter part, some last) :: met'))
    (hpasses : PassesLink sees depth m route part last) :
    Recalls sees n ((route.enter part, some last) :: met') where
  known := by
    intro route' part' known hother
    rcases lookup_cons_cases hother with ⟨hsame, hlast⟩ | ⟨-, hbefore⟩
    · obtain ⟨rfl, rfl⟩ := Route.enter_injective hsame
      obtain rfl := Option.some.inj hlast
      exact ⟨depth, m, hpasses⟩
    · exact h'.known hbefore
  awaited := fun hother hpasses' => h.awaited (hopen _ hother) hpasses'

theorem stillOpen_opened (next : Route) (met : LinksMet) :
    StillOpen ((next, none) :: met) met := by
  intro other hother
  rw [List.lookup_cons]
  split
  · rfl
  · exact hother

theorem StillOpen.closed {next known : Route} {met met' : LinksMet}
    (h : StillOpen ((next, none) :: met) met') : StillOpen met ((next, some known) :: met') := by
  intro other hother
  rcases lookup_cons_cases hother with ⟨-, hopen⟩ | ⟨hne, hafter⟩
  · simp at hopen
  · rcases lookup_cons_cases (h other hafter) with ⟨hsame, -⟩ | ⟨-, hbefore⟩
    · exact absurd hsame hne
    · exact hbefore

/-- One node is seen at the end of a route at most, and it is found there, if its text is
within what can be looked up. -/
structure Reveals (look : Text → Except Errno Node) (within : Text → Prop)
    (sees : Route → Node → Prop) : Prop where
  clearly : Clearly sees
  look : ∀ {route : Route} {part node}, sees (route.enter part) node →
    within (route.enter part).text → look (route.enter part).text = .ok node

/-- Strict and lenient walks that both end on a route, and remember the same. -/
def Arrive (sees : Route → Node → Prop) (met : LinksMet) (last : Route)
    (outcomes : Bool → Outcome) : Prop :=
  ∃ met', (∀ strict, outcomes strict = .ok (.reached last, met')) ∧ Recalls sees 0 met' ∧
    StillOpen met met'

/-- Walks that have arrived at the end of a target go on behind the link. -/
theorem arrive_afterLink {met : LinksMet} {mid : Route} {inner : Bool → Outcome}
    {go : Bool → Route → LinksMet → Journey} (hmet : Recalls sees n met)
    (hlink : PassesLink sees depth m route part mid)
    (hinner : Arrive sees ((route.enter part, none) :: met) mid inner)
    (hgo : ∀ met', (∀ strict, inner strict = .ok (.reached mid, met')) →
      Recalls sees n ((route.enter part, some mid) :: met') →
      Arrive sees ((route.enter part, some mid) :: met') last
        fun strict => (go strict mid ((route.enter part, some mid) :: met')).outcome) :
    Arrive sees met last
      fun strict => (afterLink (route.enter part) rest (go strict) (inner strict)).outcome := by
  obtain ⟨met', hreached, hknown, hopen⟩ := hinner
  have hopen' : StillOpen met ((route.enter part, some mid) :: met') := hopen.closed
  obtain ⟨met'', hlast, hknown', hopen''⟩ :=
    hgo met' hreached (hmet.closed hknown hopen' hlink)
  refine ⟨met'', fun strict => ?_, hknown', fun other hother => hopen' other (hopen'' other hother)⟩
  simp only [hreached]
  exact hlast strict

/-- Where the forgetful walk ends, a walk with a memory arrives, if no text is looked up that
is not seen.  The induction is on the forgetful walk: a link that is met while its own target
is being walked would be part of its own way, and that way would be longer than itself. -/
theorem arrive_of_passes {look : Text → Except Errno Node} {within : Text → Prop}
    (hsees : Reveals look within sees) (h : Passes sees depth n route parts last)
    {met : LinksMet} (hmet : Recalls sees n met) {strict : Bool}
    (hwithin : ∀ looked ∈ (tour ⟨look, strict⟩ (journey ⟨look, strict⟩ depth) route met
      parts).looked, within looked) :
    Arrive sees met last fun strict =>
      (tour ⟨look, strict⟩ (journey ⟨look, strict⟩ depth) route met parts).outcome := by
  induction h generalizing met with
  | done => exact ⟨met, fun _ => rfl, hmet.mono (Nat.zero_le _), fun _ hother => hother⟩
  | on hbears _ ih =>
      have hmet' := hmet.mono (Nat.le_succ _)
      cases hbears with
      | stay hstay =>
          simp only [tour_stay hstay] at hwithin ⊢
          exact ih hmet' hwithin
      | up =>
          simp only [tour_up] at hwithin ⊢
          exact ih hmet' hwithin
      | enter hkeeps hup hnul hnode hlink =>
          have hfound := hsees.look hnode (hwithin _ (text_mem_looked hkeeps hup hnul))
          have hany : ∀ strict, (Survey.mk look strict).look _ = _ := fun _ => hfound
          simp only [tour_enter hkeeps hup hnul (hany _) hlink, Journey.looked_after,
            List.forall_mem_cons, Journey.outcome_after] at hwithin ⊢
          exact ih hmet' hwithin.2
  | @into depth n m route part target mid rest last hbears htarget _ ihtarget ih =>
      cases hbears with
      | link hkeeps hup hnul hnode =>
          have hlink : PassesLink sees depth n route part mid := ⟨target, hnode, htarget⟩
          have hfound := hsees.look hnode (hwithin _ (text_mem_looked hkeeps hup hnul))
          have hany : ∀ strict, (Survey.mk look strict).look _ = _ := fun _ => hfound
          rcases hbefore : met.lookup (route.enter part) with _ | _ | known
          · simp only [tour_link hkeeps hup hnul (hany _) hbefore, Journey.looked_after,
              Journey.looked_onward, List.forall_mem_cons, List.forall_mem_append,
              Journey.outcome_after, Journey.outcome_onward, journey_succ] at hwithin ⊢
            obtain ⟨-, hinner, hbehind⟩ := hwithin
            apply arrive_afterLink (hmet.mono (by omega : m ≤ n + m + 1)) hlink
            · apply ihtarget (hmet.opened (by omega) fun hother => ?_) hinner
              exact Nat.le_of_eq (hlink.unique hsees.clearly hother).1
            · intro met' hreached hmet'
              rw [hreached] at hbehind
              exact ih hmet' hbehind
          · exact absurd (hmet.awaited hbefore hlink) (by omega)
          · obtain ⟨_, _, hknown⟩ := hmet.known hbefore
            obtain ⟨-, rfl⟩ := hknown.unique hsees.clearly hlink
            simp only [tour_known hkeeps hup hnul (hany _) hbefore, Journey.looked_after,
              List.forall_mem_cons, Journey.outcome_after] at hwithin ⊢
            exact ih (hmet.mono (by omega)) hwithin.2

/-- Where the forgetful walk over the components of a text ends, both walks over the text
end, if there is room for the links inside each other. -/
theorem follow_of_passes {look : Text → Except Errno Node} {within : Text → Prop}
    (hsees : Reveals look within sees) {t : Text}
    (h : Passes sees depth n (route.startOf t) (Text.fields Text.slash t) last)
    {room : Nat} (hroom : depth < room) {strict : Bool}
    (hwithin : ∀ looked ∈ (journey ⟨look, strict⟩ room route t []).looked, within looked) :
    ∃ met, ∀ strict, follow ⟨look, strict⟩ room route t [] = .ok (.reached last, met) := by
  obtain ⟨below, rfl⟩ := Nat.exists_eq_add_of_le' (Nat.zero_lt_of_lt hroom)
  obtain ⟨met, hreached, -, -⟩ :=
    arrive_of_passes hsees (h.deepen (Nat.lt_succ_iff.mp hroom)) recalls_nil hwithin
  exact ⟨met, hreached⟩

/-- A node is found at the end of a route. -/
def Finds (look : Text → Except Errno Node) (route : Route) (node : Node) : Prop :=
  look route.text = .ok node

theorem reveals_finds (look : Text → Except Errno Node) :
    Reveals look (fun _ => True) (Finds look) where
  clearly := fun _ _ _ hnode hnode' => Except.ok.inj (hnode.symm.trans hnode')
  look := fun hnode _ => hnode

/-- A walk that ends has taken the way of the forgetful one, and remembers it. -/
def Retraces (look : Text → Except Errno Node) (route : Route) (parts : List Text)
    (outcome : Outcome) : Prop :=
  ∀ course met, outcome = .ok (course, met) → ∃ depth n last, course = .reached last ∧
    Passes (Finds look) depth n route parts last ∧ Recalls (Finds look) 0 met

variable {look : Text → Except Errno Node}

theorem Retraces.error (obstacle : Obstacle) : Retraces look route parts (.error obstacle) := by
  intro course met hend
  simp at hend

theorem Retraces.on {next : Route} {outcome : Outcome}
    (h : Retraces look next rest outcome) (hbears : Bears (Finds look) route part (.on next)) :
    Retraces look route (part :: rest) outcome := by
  intro course met hend
  obtain ⟨depth, n, last, hlast, hpasses, hmet⟩ := h course met hend
  exact ⟨depth, n + 1, last, hlast, .on hbears hpasses, hmet⟩

theorem Retraces.into {target : Target} {mid : Route} {outcome : Outcome}
    (h : Retraces look mid rest outcome) (hbears : Bears (Finds look) route part (.into target))
    (htarget : Passes (Finds look) depth n (route.startOf target.text)
      (Text.fields Text.slash target.text) mid) :
    Retraces look route (part :: rest) outcome := by
  intro course met hend
  obtain ⟨depth', m, last, hlast, hpasses, hmet⟩ := h course met hend
  exact ⟨max depth depth' + 1, n + m + 1, last, hlast,
    .into hbears (htarget.deepen (Nat.le_max_left _ _))
      (hpasses.deepen (Nat.le_succ_of_le (Nat.le_max_right _ _))), hmet⟩

/-- A strict walk over components retraces the forgetful one, if the walks over the targets of
links do. -/
theorem retraces_tour {onLink : Route → Text → LinksMet → Journey}
    (honLink : ∀ {route t met}, Recalls (Finds look) 0 met →
      Retraces look (route.startOf t) (Text.fields Text.slash t) (onLink route t met).outcome)
    {met : LinksMet} (hmet : Recalls (Finds look) 0 met) :
    Retraces look route parts (tour ⟨look, true⟩ onLink route met parts).outcome := by
  induction parts generalizing route met with
  | nil =>
      intro course met' hend
      obtain ⟨rfl, rfl⟩ := Prod.mk.inj (Except.ok.inj hend)
      exact ⟨0, 0, route, rfl, .done, hmet⟩
  | cons part rest ih =>
      cases turn ⟨look, true⟩ route met part with
      | stay hstay =>
          rw [tour_stay hstay]
          exact (ih hmet).on (.stay hstay)
      | up hup =>
          rw [hup, tour_up]
          exact (ih hmet).on .up
      | nul hkeeps hup hnul =>
          rw [tour_nul hkeeps hup hnul]
          exact .error _
      | missing hkeeps hup hnul hlook =>
          rw [tour_missing hkeeps hup hnul hlook, if_pos rfl]
          exact .error _
      | enter hkeeps hup hnul hlook hlink =>
          rw [tour_enter hkeeps hup hnul hlook hlink]
          exact (ih hmet).on (.enter hkeeps hup hnul hlook hlink)
      | @link hkeeps hup hnul target hlook hbefore =>
          rw [tour_link hkeeps hup hnul hlook hbefore]
          have hopened : Recalls (Finds look) 0 ((route.enter part, none) :: met) :=
            hmet.opened (Nat.zero_le _) fun _ => Nat.zero_le _
          have hinner := @honLink route target.text _ hopened
          rcases houter : (onLink route target.text ((route.enter part, none) :: met)).outcome with
            obstacle | ⟨course, met'⟩
          · simp only [Journey.outcome_after, Journey.outcome_onward, houter]
            exact .error obstacle
          · obtain ⟨depth, n, mid, rfl, htarget, hmet'⟩ := hinner course met' houter
            simp only [Journey.outcome_after, Journey.outcome_onward, houter]
            have hopen : StillOpen met' ((route.enter part, some mid) :: met') :=
              (stillOpen_opened _ _).closed
            exact (ih (hmet'.closed hmet' hopen ⟨target, hlook, htarget⟩)).into
              (.link hkeeps hup hnul hlook) htarget
      | loop hkeeps hup hnul hlook hbefore =>
          rw [tour_loop hkeeps hup hnul hlook hbefore, if_pos rfl]
          exact .error _
      | known hkeeps hup hnul hlook hbefore =>
          rw [tour_known hkeeps hup hnul hlook hbefore]
          obtain ⟨depth, n, target', hlook', htarget⟩ := hmet.known hbefore
          obtain rfl := Node.link.inj (Except.ok.inj (hlook.symm.trans hlook'))
          exact (ih hmet).into (.link hkeeps hup hnul hlook) htarget

/-- A strict walk over a text ends where the forgetful walk over its components does. -/
theorem retraces_journey (room : Nat) {t : Text} {met : LinksMet}
    (hmet : Recalls (Finds look) 0 met) :
    Retraces look (route.startOf t) (Text.fields Text.slash t)
      (journey ⟨look, true⟩ room route t met).outcome := by
  induction room generalizing route t met with
  | zero => exact .error _
  | succ room ih => exact retraces_tour ih hmet

end Canonical

end SdkBindings
