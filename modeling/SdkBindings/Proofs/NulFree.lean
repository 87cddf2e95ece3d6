import SdkBindings.Proofs.Answered
import SdkBindings.Proofs.Effects
import SdkBindings.Proofs.Spelling
import SdkBindings.Proofs.WalkInvariant

/-!
Where no zero byte comes from.  Main statements: a command line without zero bytes makes
a configuration without them, and no path without them is refused for one.
-/

namespace SdkBindings

namespace Text

theorem hasNul_eq_false_iff {t : Text} : t.hasNul = false ↔ 0 ∉ t := by
  simp [hasNul]

theorem mem_joinWith {sep : Text} {pieces : List Text} {b : UInt8} (h : b ∈ joinWith sep pieces) :
    b ∈ sep ∨ ∃ piece ∈ pieces, b ∈ piece := by
  induction pieces with
  | nil => simp [joinWith] at h
  | cons piece others ih =>
      cases others with
      | nil => exact .inr ⟨piece, List.mem_singleton_self piece, h⟩
      | cons next others =>
          rw [joinWith, List.append_assoc, List.mem_append, List.mem_append] at h
          rcases h with hpiece | hsep | hothers
          · exact .inr ⟨piece, List.mem_cons_self, hpiece⟩
          · exact .inl hsep
          · rcases ih hothers with hsep | ⟨other, hother, hb⟩
            · exact .inl hsep
            · exact .inr ⟨other, List.mem_cons_of_mem piece hother, hb⟩

theorem mem_joinWith_of_mem {sep piece : Text} {pieces : List Text} {b : UInt8}
    (hpiece : piece ∈ pieces) (hb : b ∈ piece) : b ∈ joinWith sep pieces := by
  induction pieces with
  | nil => simp at hpiece
  | cons first others ih =>
      cases others with
      | nil =>
          rw [List.mem_singleton] at hpiece
          exact hpiece ▸ hb
      | cons next others =>
          rw [joinWith, List.append_assoc, List.mem_append, List.mem_append]
          rcases List.mem_cons.mp hpiece with rfl | hothers
          · exact .inl hb
          · exact .inr (.inr (ih hothers))

theorem mem_of_mem_fields {sep : UInt8} {t piece : Text} {b : UInt8} (hpiece : piece ∈ fields sep t)
    (hb : b ∈ piece) : b ∈ t := by
  rw [← joinWith_fields sep t]
  exact mem_joinWith_of_mem hpiece hb

/-- What stands before and after a separator stands in the text. -/
theorem mem_of_mem_cut {sep : UInt8} {t : Text} {b : UInt8} :
    (b ∈ (cut sep t).1 → b ∈ t) ∧ ∀ after, (cut sep t).2 = some after → b ∈ after → b ∈ t := by
  induction t with
  | nil => simp [cut]
  | cons c rest ih =>
      rw [cut]
      split
      · constructor
        · intro hb
          simp at hb
        · intro after hafter hb
          obtain rfl := Option.some.inj hafter
          exact List.mem_cons_of_mem c hb
      · constructor
        · intro hb
          rcases List.mem_cons.mp hb with rfl | hb
          · exact List.mem_cons_self
          · exact List.mem_cons_of_mem c (ih.1 hb)
        · intro after hafter hb
          exact List.mem_cons_of_mem c (ih.2 after hafter hb)

theorem mem_of_mem_strip {t : Text} {b : UInt8} (h : b ∈ t.strip) : b ∈ t := by
  rw [strip, Symbol.encode, List.mem_flatMap] at h
  obtain ⟨symbol, hsymbol, hb⟩ := h
  have hmem : symbol ∈ Symbol.decode t := by
    rw [Symbol.trim, List.mem_reverse] at hsymbol
    have hinner := (List.dropWhile_sublist _).mem hsymbol
    rw [List.mem_reverse] at hinner
    exact (List.dropWhile_sublist _).mem hinner
  rw [← Symbol.encode_decode t, Symbol.encode, List.mem_flatMap]
  exact ⟨symbol, hmem, hb⟩

end Text

namespace Path

/-- No component of the path holds a zero byte. -/
def NulFree (p : Path) : Prop :=
  ∀ part ∈ p.parts, 0 ∉ part

theorem NulFree.text {p : Path} (h : p.NulFree) : 0 ∉ p.text := by
  intro hnul
  rw [Path.text] at hnul
  split at hnul
  · exact absurd hnul (by decide)
  · rcases List.mem_append.mp hnul with hroot | hparts
    · cases hp : p.root <;> simp [hp, PathRoot.text, Text.slash] at hroot
    · rcases Text.mem_joinWith hparts with hsep | ⟨part, hpart, hb⟩
      · simp [Text.slash] at hsep
      · exact h part hpart hb

theorem nulFree_ofText {t : Text} (h : 0 ∉ t) : (ofText t).NulFree := by
  intro part hpart hb
  rw [ofText, List.mem_filter] at hpart
  exact h (Text.mem_of_mem_fields hpart.1 hb)

theorem NulFree.append {p q : Path} (hp : p.NulFree) (hq : q.NulFree) : (p ++ q).NulFree := by
  show (Path.append p q).NulFree
  rw [Path.append]
  split
  · intro part hpart
    rcases List.mem_append.mp hpart with hpart | hpart
    · exact hp part hpart
    · exact hq part hpart
  · exact hq

theorem NulFree.child {p : Path} (h : p.NulFree) {name : Text} (hname : 0 ∉ name) :
    (p.child name).NulFree :=
  h.append (nulFree_ofText hname)

theorem NulFree.parent {p : Path} (h : p.NulFree) : p.parent.NulFree := by
  intro part hpart
  exact h part ((List.dropLast_sublist _).mem hpart)

theorem NulFree.collapse {p : Path} (h : p.NulFree) : p.collapse.NulFree := by
  have hfold : ∀ parts kept : List Text, (∀ part ∈ kept, 0 ∉ part) → (∀ part ∈ parts, 0 ∉ part) →
      ∀ part ∈ parts.foldl collapseStep kept, 0 ∉ part := by
    intro parts
    induction parts with
    | nil => exact fun kept hkept _ => hkept
    | cons part rest ih =>
        intro kept hkept hparts
        refine ih _ ?_ fun other hother => hparts other (List.mem_cons_of_mem part hother)
        rw [collapseStep]
        split
        · exact fun other hother => hkept other (List.mem_of_mem_tail hother)
        · intro other hother
          rcases List.mem_cons.mp hother with rfl | hother
          · exact hparts other List.mem_cons_self
          · exact hkept other hother
  intro part hpart
  rw [Path.collapse, List.mem_reverse] at hpart
  exact hfold p.parts [] (by simp) h part hpart

end Path

theorem Place.nulFree_path (place : Place) : place.path.NulFree := by
  intro part hpart
  simp only [path, List.mem_reverse, List.mem_map] at hpart
  obtain ⟨name, -, rfl⟩ := hpart
  exact name.zero_not_mem

/-- No value of an option holds a zero byte. -/
structure Arguments.NulFree (arguments : Arguments) : Prop where
  includeDir : ∀ path, arguments.includeDir = .given path → path.NulFree
  libraryDir : ∀ t, arguments.libraryDir = .given t → 0 ∉ t
  output : ∀ path, arguments.output = .given path → path.NulFree
  sidecar : ∀ path, arguments.sidecar = .given path → path.NulFree
  generator : ∀ t, arguments.generator = .given t → 0 ∉ t

theorem Operand.nulFree_map {operand : Operand Text} (h : ∀ t, operand = .given t → 0 ∉ t)
    {path : Path} (hpath : operand.map Path.ofText = .given path) : path.NulFree := by
  cases operand with
  | nothing => simp [map] at hpath
  | given t =>
      obtain rfl := Operand.given.inj hpath
      exact Path.nulFree_ofText (h t rfl)

theorem Arguments.NulFree.setValue {arguments : Arguments} (h : arguments.NulFree)
    {operand : Operand Text} (hoperand : ∀ t, operand = .given t → 0 ∉ t) (option : ValueOption) :
    (arguments.setValue operand option).NulFree := by
  cases option with
  | includeDir => exact { h with includeDir := fun _ => Operand.nulFree_map hoperand }
  | libraryDir => exact { h with libraryDir := hoperand }
  | output => exact { h with output := fun _ => Operand.nulFree_map hoperand }
  | sidecar => exact { h with sidecar := fun _ => Operand.nulFree_map hoperand }
  | generator => exact { h with generator := hoperand }

theorem Arguments.NulFree.setFlag {arguments : Arguments} (h : arguments.NulFree) (option : Flag) :
    (arguments.setFlag option).NulFree := by
  cases option <;> exact { h with }

/-- Neither an argument nor the value that it gives to an option holds a zero byte. -/
def Argument.NulFree (argument : Argument) : Prop :=
  0 ∉ argument.text ∧
    ∀ spelling value, argument.reading = .option spelling (some value) → 0 ∉ value

theorem Spelling.mem_of_abbreviated {t value : Text} {spelling : Spelling} {b : UInt8}
    (h : (spelling, some value) ∈ abbreviated t) (hb : b ∈ value) : b ∈ t := by
  rw [abbreviated] at h
  split at h
  · simp only [List.mem_map, Prod.mk.injEq] at h
    obtain ⟨_, -, -, hvalue⟩ := h
    exact Text.mem_of_mem_cut.2 value hvalue hb
  · simp only [List.mem_filterMap] at h
    obtain ⟨_, -, hfound⟩ := h
    split at hfound
    · simp only [Option.some.injEq, Prod.mk.injEq] at hfound
      exact List.mem_of_mem_drop (hfound.2 ▸ hb)
    · split at hfound <;> simp at hfound

theorem Argument.nulFree_of_read {t : Text} {reading : Reading} (ht : 0 ∉ t)
    (h : read t = .ok reading) : (⟨t, reading⟩ : Argument).NulFree := by
  refine ⟨ht, ?_⟩
  rintro spelling value rfl hb
  rw [read] at h
  split at h
  · simp at h
  split at h
  · simp at h
  split at h
  · simp at h
  simp only at h
  split at h
  · next hvalue _ =>
    simp only [Except.ok.injEq, Reading.option.injEq, Option.some.injEq] at h
    obtain ⟨-, rfl⟩ := h
    exact ht (Text.mem_of_mem_cut.2 _ hvalue hb)
  · split at h
    · rw [Except.ok.injEq, readDashed] at h
      split at h <;> simp at h
    · next hone =>
      simp only [Except.ok.injEq, Reading.option.injEq] at h
      have hmem : (spelling, some value) ∈ Spelling.abbreviated t := by
        rw [hone, ← h.1, ← h.2]
        exact List.mem_singleton_self _
      exact ht (Spelling.mem_of_abbreviated hmem hb)
    · simp at h

theorem Argument.nulFree_of_readAll {argv : List Text} {arguments : List Argument}
    (hargv : ∀ t ∈ argv, 0 ∉ t) (h : readAll argv = .ok arguments) :
    ∀ argument ∈ arguments, argument.NulFree := by
  induction argv generalizing arguments with
  | nil =>
      obtain rfl := Except.ok.inj h
      simp
  | cons t rest ih =>
      have ht := hargv t List.mem_cons_self
      have hrest : ∀ u ∈ rest, 0 ∉ u := fun u hu => hargv u (List.mem_cons_of_mem t hu)
      rw [readAll] at h
      split at h
      · obtain rfl := Except.ok.inj h
        intro argument hargument
        rcases List.mem_cons.mp hargument with rfl | hargument
        · exact ⟨ht, by simp⟩
        · obtain ⟨u, hu, rfl⟩ := List.mem_map.mp hargument
          exact ⟨hrest u hu, by simp⟩
      · cases hread : read t with
        | error misuse => simp [hread] at h
        | ok reading =>
            cases hothers : readAll rest with
            | error misuse => simp [hread, hothers] at h
            | ok others =>
                simp only [hread, hothers, Except.ok.injEq] at h
                subst h
                intro argument hargument
                rcases List.mem_cons.mp hargument with rfl | hargument
                · exact nulFree_of_read ht hread
                · exact ih hrest hothers argument hargument

theorem Operand.nulFree_ofExplicit {value : Text} (h : 0 ∉ value) :
    ∀ t, ofExplicit value = .given t → 0 ∉ t := by
  intro t ht
  rw [ofExplicit] at ht
  split at ht
  · simp at ht
  · exact Operand.given.inj ht ▸ h

/-- The induction is on the reading from left to right: what is left over is free of zero
bytes as well. -/
theorem CommandLine.nulFree_of_consume {values result : Arguments} {stray : List Text}
    {arguments : List Argument} (hvalues : values.NulFree)
    (harguments : ∀ argument ∈ arguments, argument.NulFree)
    (h : consume values stray arguments = .ok result) : result.NulFree := by
  fun_induction consume values stray arguments with
  | case1 values => exact Except.ok.inj h ▸ hvalues
  | case3 values stray text spelled option value rest ih =>
      have hvalue := (harguments _ List.mem_cons_self).2 _ _ rfl
      exact ih (hvalues.setValue (Operand.nulFree_ofExplicit hvalue) option)
        (fun other hother => harguments other (List.mem_cons_of_mem _ hother)) h
  | case4 values stray text spelled option value rest ih =>
      have hvalue := (harguments ⟨value, .operand⟩ (by simp)).1
      have hgiven : ∀ t, Operand.given value = .given t → 0 ∉ t := by
        intro t ht
        exact Operand.given.inj ht ▸ hvalue
      exact ih (hvalues.setValue hgiven option)
        (fun other hother => harguments other (by simp [hother])) h
  | case8 values stray text spelled option rest ih =>
      exact ih (hvalues.setFlag option)
        (fun other hother => harguments other (List.mem_cons_of_mem _ hother)) h
  | case9 values stray t rest ih | case10 values stray t rest ih | case11 values stray t rest ih =>
      exact ih hvalues (fun other hother => harguments other (List.mem_cons_of_mem _ hother)) h
  | case2 | case5 | case6 | case7 => simp at h

/-- The places of a user are spelled without zero bytes. -/
def Places.NulFree (places : Places) : Prop :=
  places.home.NulFree ∧ places.project.NulFree

theorem Arguments.nulFree_defaults {places : Places} (h : places.NulFree) :
    (defaults places).NulFree := by
  obtain ⟨hhome, hproject⟩ := h
  have hroot : places.sdkRoot.NulFree := (hhome.child (by decide)).child (by decide)
  constructor
  · intro path hpath
    exact Operand.given.inj hpath ▸ hroot.child (by decide)
  · intro t ht
    have hdir := (hroot.child (by decide : 0 ∉ Text.ofString "DynamicLib")).child
      (by decide : 0 ∉ Text.ofString "x86_64bit")
    exact Operand.given.inj ht ▸ hdir.text
  · intro path hpath
    exact Operand.given.inj hpath ▸ (hproject.child (by decide)).child (by decide)
  · intro path hpath
    exact Operand.given.inj hpath ▸ hproject.child (by decide)
  · intro t ht
    exact Operand.given.inj ht ▸ (by decide : 0 ∉ defaultGenerator)

theorem CommandLine.nulFree_of_parse {places : Places} {argv : List Text} {arguments : Arguments}
    (hplaces : places.NulFree) (hargv : ∀ t ∈ argv, 0 ∉ t)
    (h : parse (.defaults places) argv = .ok arguments) : arguments.NulFree := by
  rw [parse] at h
  cases hread : Argument.readAll argv with
  | error misuse => simp [hread] at h
  | ok read =>
      simp only [hread] at h
      exact nulFree_of_consume (Arguments.nulFree_defaults hplaces)
        (Argument.nulFree_of_readAll hargv hread) h

/-- No text of the configuration holds a zero byte. -/
structure Configuration.NulFree (config : Configuration) : Prop where
  includeDir : config.sdk.includeDir.NulFree
  output : config.output.NulFree
  sidecar : config.sidecar.NulFree
  generator : 0 ∉ config.generator

theorem Configuration.nulFree_of_ofArguments {arguments : Arguments} {config : Configuration}
    (harguments : arguments.NulFree) (h : ofArguments arguments = .ok config) : config.NulFree := by
  obtain ⟨⟨spelled, hgenerator, -, hstrip⟩, hinclude, -, houtput, hsidecar, -⟩ := ofArguments_ok h
  constructor
  · exact harguments.includeDir _ hinclude
  · exact harguments.output _ houtput
  · exact harguments.sidecar _ hsidecar
  · intro hnul
    rw [hstrip] at hnul
    exact harguments.generator _ hgenerator (Text.mem_of_mem_strip hnul)

namespace Canonical

variable {survey : Survey}

theorem plain_appendText {before : Text} {rest : List Text} (hbefore : 0 ∉ before)
    (hrest : ∀ part ∈ rest, 0 ∉ part) : 0 ∉ appendText before (remainder rest) := by
  have hremainder : 0 ∉ remainder rest := by
    intro hnul
    rcases Text.mem_joinWith hnul with hsep | ⟨part, hpart, hb⟩
    · simp [Text.slash] at hsep
    · exact hrest part hpart hb
  rw [appendText]
  split
  · exact hremainder
  · split
    · simp [hbefore, hremainder]
    · simp [hbefore, hremainder, Text.slash]

theorem nulFree_back {route : Route} (h : route.path.NulFree) : route.back.path.NulFree := by
  intro part hpart
  cases route with
  | fromRoot names =>
      rw [Route.back, Route.path, List.mem_reverse] at hpart
      exact h part (List.mem_reverse.mpr (List.mem_of_mem_tail hpart))
  | fromHere levels names =>
      cases names with
      | nil =>
          rw [Route.back, Route.parts_up, List.mem_append, List.mem_singleton] at hpart
          rcases hpart with hpart | rfl
          · exact h part hpart
          · decide
      | cons name names =>
          refine h part ?_
          simp only [Route.back, Route.path, List.mem_append, List.mem_reverse] at hpart
          simp only [Route.path, List.reverse_cons, List.mem_append, List.mem_reverse]
          exact hpart.imp_right .inl

theorem nulFree_enter {route : Route} {part : Text} (h : route.path.NulFree) (hpart : 0 ∉ part) :
    (route.enter part).path.NulFree := by
  intro other hother
  rw [Route.parts_enter, List.mem_append, List.mem_singleton] at hother
  rcases hother with hother | rfl
  · exact h other hother
  · exact hpart

/-- A walk over a text without zero bytes meets none. -/
theorem kept_nulFree (survey : Survey) :
    Kept survey (fun route => route.path.NulFree) fun t => 0 ∉ t where
  root := fun _ hpart => by simp [Route.path] at hpart
  back := nulFree_back
  enter := fun hroute hpart _ _ _ _ _ => nulFree_enter hroute hpart
  missing := fun _ hroute hpart _ _ _ _ => nulFree_enter hroute hpart
  spelled := by
    intro route part _ hroute hpart
    rw [Route.text_eq (by simp)]
    exact (nulFree_enter hroute hpart).text
  append := plain_appendText
  fields := fun ht hpart hnul => ht (Text.mem_of_mem_fields hpart hnul)
  target := by
    intro target
    have hvalid := target.valid
    simp only [isTarget, decide_eq_true_eq] at hvalid
    exact hvalid.2.1

end Canonical

theorem WorkingDirectory.nulFree_absolute {directory : WorkingDirectory} {t : Text} {path : Path}
    (ht : 0 ∉ t) (h : directory.absolute t = .ok path) : path.NulFree := by
  rw [absolute] at h
  split at h
  · exact Except.ok.inj h ▸ (Path.nulFree_ofText ht).collapse
  · split at h
    · next here hhere =>
      have hdirectory : here.NulFree := by
        rw [path?] at hhere
        split at hhere
        · exact Option.some.inj hhere ▸ Place.nulFree_path directory.place
        · simp at hhere
      exact Except.ok.inj h ▸ (hdirectory.append (Path.nulFree_ofText ht)).collapse
    · simp at h

namespace FileSystem

variable {fs : FileSystem} {directory : WorkingDirectory}

theorem text_nulFree {route : Route} (h : route.path.NulFree) : 0 ∉ route.text := by
  by_cases hparts : route.path.parts = []
  · cases route with
    | fromRoot names => exact h.text
    | fromHere levels names =>
        have hempty : (Route.fromHere levels names).text = [] := congrArg _ hparts
        simp [hempty]
  · exact Route.text_eq hparts ▸ h.text

/-- A text without zero bytes is not refused for one, and its canonical path has none. -/
theorem resolveWithin_nulFree {room : Nat} {strict : Bool} {t : Text} (ht : 0 ∉ t) :
    fs.resolveWithin room strict directory t ≠ .error .embeddedNul ∧
      ∀ path, fs.resolveWithin room strict directory t = .ok path → path.NulFree := by
  have hstart : (Route.fromHere 0 []).path.NulFree := fun _ hpart => by simp [Route.path] at hpart
  have hends : Canonical.EndsWell ⟨fs.linkStat directory, strict⟩ _ _ [] room
      (Canonical.follow ⟨fs.linkStat directory, strict⟩ room (.fromHere 0 []) t []) :=
    Canonical.endsWell_follow (Canonical.kept_nulFree _) hstart ht Canonical.nested_nil
      Canonical.remembers_nil
  obtain ⟨hnul, -, hcourse⟩ := hends
  have habsolute : ∀ t', 0 ∉ t' → directory.absolute t' ≠ .error .embeddedNul ∧
      ∀ path, directory.absolute t' = .ok path → path.NulFree := by
    intro t' ht'
    refine ⟨?_, fun path hpath => WorkingDirectory.nulFree_absolute ht' hpath⟩
    rw [WorkingDirectory.absolute]
    split
    · simp
    · split <;> simp
  rw [resolveWithin]
  cases houtcome : Canonical.follow ⟨fs.linkStat directory, strict⟩ room (.fromHere 0 []) t [] with
  | error obstacle =>
      simp only [Except.error.injEq, ne_eq, reduceCtorEq, false_implies, implies_true, and_true]
      rintro rfl
      obtain ⟨part, hpart, hholds⟩ := hnul houtcome
      rw [Text.hasNul_eq_false_iff.mpr hpart] at hholds
      simp at hholds
  | ok walked =>
      obtain ⟨course, met⟩ := walked
      obtain ⟨-, hends⟩ := hcourse course met houtcome
      cases course with
      | reached route => exact habsolute _ (text_nulFree hends)
      | lost text => exact habsolute _ hends.2

/-- The canonical path of a path without zero bytes is refused for a loop or by the
system, if it is refused. -/
theorem canonicalPath_ne_embeddedNul {path : Path} (h : path.NulFree) :
    fs.canonicalPath directory path ≠ .error .embeddedNul := by
  obtain ⟨hnul, hresolved⟩ :=
    @resolveWithin_nulFree fs directory fs.nestingBound false path.text h.text
  rw [canonicalPath]
  cases hresolve : fs.resolve false directory path.text with
  | error obstacle =>
      cases obstacle with
      | embeddedNul => exact absurd hresolve hnul
      | loop | system => simp
  | ok resolved =>
      have hclean := Text.hasNul_eq_false_iff.mpr (hresolved resolved hresolve).text
      simp only [hclean, Bool.false_eq_true, ↓reduceIte]
      split <;> simp

/-- A header that is found holds no zero byte. -/
theorem nulFree_of_findHeader {includeDir header : Path} {headerName : Text}
    (hdir : includeDir.NulFree) (hname : 0 ∉ headerName)
    (h : fs.findHeader directory includeDir headerName = .ok header) : header.NulFree := by
  obtain ⟨-, hresolved⟩ :=
    @resolveWithin_nulFree fs directory fs.nestingBound true _ (hdir.child hname).text
  exact hresolved header (findHeader_eq_ok_iff.mp h).1

end FileSystem

/-- The command line of the generator holds no zero byte, since the header was found. -/
theorem Configuration.NulFree.command {config : Configuration} (h : config.NulFree)
    {header : Path} (hheader : header.NulFree) :
    (config.command header).any Text.hasNul = false := by
  rw [List.any_eq_false]
  intro t ht
  rw [Bool.not_eq_true, Text.hasNul_eq_false_iff]
  simp only [Configuration.command, GeneratorOptions.argv, GeneratorOptions.forOutput,
    GeneratorOptions.switch, GeneratorOptions.defaultHeadLines, ↓reduceIte, List.cons_append,
    List.nil_append, List.flatMap_cons, List.flatMap_nil, List.mem_cons, List.not_mem_nil,
    or_false] at ht
  rcases ht with rfl | rfl | rfl | rfl | rfl | rfl | rfl | rfl | rfl | rfl | rfl | rfl | rfl |
    rfl | rfl | rfl | rfl
  · exact h.generator
  · exact hheader.text
  all_goals first | exact h.output.text | decide

/-- The header of a run that comes to the start of the generator holds no zero byte. -/
theorem Reached.header_nulFree {machine : Machine} {config : Configuration} {start world : World}
    {header : Path} {sidecar : WrittenFile} (hconfig : config.NulFree)
    (h : Reached machine config start (.prepared header sidecar) world) : header.NulFree :=
  FileSystem.nulFree_of_findHeader hconfig.includeDir (by decide) h.findHeader

end SdkBindings
