import Mathlib.Data.List.TakeWhile
import SdkBindings.Configuration
import SdkBindings.Proofs.ArgumentKinds

/-!
Command lines as uses of options.  A use of an option is made of one argument or two, and
a command line of such uses and of arguments that nothing takes, as far as the reading of
it goes.  Main statement: a command line is read exactly if it is made of uses of options
alone, and each option then has the value of its last use, or else its default.
-/

namespace SdkBindings

/-- One use of an option, with the arguments that make it up. -/
inductive Occurrence where
  /-- The value stands behind an equals sign. -/
  | joined (option : ValueOption) (called value : Text)
      (calls : (CommandOption.value option).CalledBy called)
  /-- The value is the next argument. -/
  | spaced (option : ValueOption) (called value : Text)
      (calls : (CommandOption.value option).CalledBy called) (operand : Argument.IsOperand value)
  | raised (flag : Flag) (called : Text) (calls : (CommandOption.flag flag).CalledBy called)

namespace Occurrence

def tokens : Occurrence → List Text
  | joined _ called value _ => [called ++ Text.equalsSign :: value]
  | spaced _ called value _ _ => [called, value]
  | raised _ called _ => [called]

/-- What the option is given here. -/
def given? (option : ValueOption) : Occurrence → Option (Operand Text)
  | joined other _ value _ => if other = option then some (.ofExplicit value) else none
  | spaced other _ value _ _ => if other = option then some (.given value) else none
  | raised _ _ _ => none

def raises (flag : Flag) : Occurrence → Bool
  | raised other _ _ => other = flag
  | _ => false

/-- What the option is given last. -/
def last? (option : ValueOption) (occurrences : List Occurrence) : Option (Operand Text) :=
  (occurrences.filterMap (given? option)).getLast?

/-- The values after one use. -/
def set (values : Arguments) : Occurrence → Arguments
  | joined option _ value _ => values.setValue (.ofExplicit value) option
  | spaced option _ value _ _ => values.setValue (.given value) option
  | raised flag _ _ => values.setFlag flag

end Occurrence

/-- The value of each option after some uses: what it is given last, or the value that it
had before. -/
def Arguments.over (values : Arguments) (occurrences : List Occurrence) : Arguments where
  includeDir :=
    ((Occurrence.last? .includeDir occurrences).map (·.map Path.ofText)).getD values.includeDir
  libraryDir := (Occurrence.last? .libraryDir occurrences).getD values.libraryDir
  output := ((Occurrence.last? .output occurrences).map (·.map Path.ofText)).getD values.output
  sidecar := ((Occurrence.last? .sidecar occurrences).map (·.map Path.ofText)).getD values.sidecar
  generator := (Occurrence.last? .generator occurrences).getD values.generator
  checkLibraryDir := values.checkLibraryDir || occurrences.any (·.raises .checkLibraryDir)
  showConfig := values.showConfig || occurrences.any (·.raises .showConfig)

namespace Occurrence

theorem last?_cons (option : ValueOption) (occurrence : Occurrence)
    (rest : List Occurrence) :
    last? option (occurrence :: rest) =
      (last? option rest).or (occurrence.given? option) := by
  rw [last?, last?, List.filterMap_cons]
  cases occurrence.given? option with
  | none => simp
  | some value => simp [List.getLast?_cons]

theorem getD_last?_cons {α : Type} (view : Operand Text → α) (option : ValueOption)
    (occurrence : Occurrence) (rest : List Occurrence) (value : α) :
    ((last? option (occurrence :: rest)).map view).getD value =
      ((last? option rest).map view).getD (((occurrence.given? option).map view).getD value) := by
  rw [last?_cons]
  cases last? option rest <;> rfl

theorem over_nil (values : Arguments) : values.over [] = values := by
  simp [Arguments.over, last?]

/-- A use sets the value of its option, which the uses after it may set again. -/
theorem over_cons (values : Arguments) (occurrence : Occurrence) (rest : List Occurrence) :
    values.over (occurrence :: rest) = (occurrence.set values).over rest := by
  have htext (option : ValueOption) (value : Operand Text) :=
    getD_last?_cons id option occurrence rest value
  simp only [Option.map_id, id] at htext
  simp only [Arguments.over, getD_last?_cons, htext, List.any_cons]
  cases occurrence with
  | joined option called value => cases option <;> rfl
  | spaced option called value => cases option <;> rfl
  | raised flag called => cases flag <;> simp [given?, raises, set, Arguments.setFlag]

/-- No argument of a use is two dashes alone, or begins the spellings of several options. -/
theorem clear_of_mem_tokens {occurrence : Occurrence} {t : Text} (h : t ∈ occurrence.tokens) :
    t ≠ Argument.dividerText ∧ ¬ Argument.Ambiguous t := by
  cases occurrence with
  | joined option called value calls =>
      rw [tokens, List.mem_singleton] at h
      rw [h]
      exact Argument.clear_of_called ((Argument.name_called_value calls value).symm ▸ calls)
  | spaced option called value calls operand =>
      simp only [tokens, List.mem_cons, List.not_mem_nil, or_false] at h
      rcases h with rfl | rfl
      · exact Argument.clear_of_called ((Argument.name_called calls).symm ▸ calls)
      · exact ⟨Argument.ne_divider_of_not_resembles operand.not_resembles,
          fun hambiguous => operand.not_resembles hambiguous.resembles⟩
  | raised flag called calls =>
      rw [tokens, List.mem_singleton] at h
      rw [h]
      exact Argument.clear_of_called ((Argument.name_called calls).symm ▸ calls)

end Occurrence

/-- A part of a command line at which its reading does not stop: a use of an option, or an
argument that is like no option and that nothing takes. -/
inductive Piece where
  | use (occurrence : Occurrence)
  | stray (argument : Text) (unlike : ¬ Argument.Resembles argument)

namespace Piece

def tokens : Piece → List Text
  | use occurrence => occurrence.tokens
  | stray argument _ => [argument]

def occurrence? : Piece → Option Occurrence
  | use occurrence => some occurrence
  | stray _ _ => none

def stray? : Piece → Option Text
  | use _ => none
  | stray argument _ => some argument

theorem tokens_ne_nil (piece : Piece) : piece.tokens ≠ [] := by
  cases piece with
  | use occurrence => cases occurrence <;> simp [tokens, Occurrence.tokens]
  | stray t unlike => simp [tokens]

theorem ne_divider_of_mem_tokens {piece : Piece} {t : Text} (h : t ∈ piece.tokens) :
    t ≠ Argument.dividerText := by
  cases piece with
  | use occurrence => exact (Occurrence.clear_of_mem_tokens h).1
  | stray argument unlike =>
      rw [tokens, List.mem_singleton] at h
      exact h ▸ Argument.ne_divider_of_not_resembles unlike

/-- Parts without a stray argument are the uses among them. -/
theorem tokens_of_uses {pieces : List Piece} (h : pieces.filterMap stray? = []) :
    pieces.flatMap tokens = (pieces.filterMap occurrence?).flatMap Occurrence.tokens := by
  induction pieces with
  | nil => rfl
  | cons piece pieces ih =>
      cases piece with
      | use occurrence =>
          rw [List.filterMap_cons_none rfl] at h
          simp only [List.flatMap_cons, List.filterMap_cons, occurrence?, ih h]
          rfl
      | stray t unlike => simp [stray?] at h

end Piece

namespace CommandLine

/-- The rest of a command line, after some values and stray arguments. -/
def parseFrom (values : Arguments) (stray argv : List Text) : Except Stop Arguments :=
  match Argument.readAll argv with
  | .error misuse => .error (.misuse misuse)
  | .ok arguments => consume values stray arguments

section

variable {values : Arguments} {stray rest : List Text} {t : Text}

theorem parseFrom_cons {reading : Reading} (hne : t ≠ Argument.dividerText)
    (hread : Argument.read t = .ok reading) :
    parseFrom values stray (t :: rest) =
      match Argument.readAll rest with
      | .error misuse => .error (.misuse misuse)
      | .ok arguments => consume values stray (⟨t, reading⟩ :: arguments) := by
  rw [parseFrom, Argument.readAll, if_neg hne, hread]
  cases Argument.readAll rest <;> rfl

theorem parseFrom_occurrence (occurrence : Occurrence) :
    parseFrom values stray (occurrence.tokens ++ rest) =
      parseFrom (occurrence.set values) stray rest := by
  cases occurrence with
  | joined option called value calls =>
      have hread := Argument.read_called_value calls value
      have hne := (Argument.clear_of_called ((Argument.name_called_value calls value).symm ▸ calls)).1
      rw [Occurrence.tokens, List.singleton_append, parseFrom_cons hne hread, parseFrom]
      cases Argument.readAll rest <;> rfl
  | spaced option called value calls operand =>
      have hread := Argument.read_called calls
      have hvalue := Argument.read_operand operand
      have hne := Argument.ne_divider_of_not_resembles operand.not_resembles
      rw [Occurrence.tokens, List.cons_append, List.singleton_append,
        parseFrom_cons calls.ne_divider hread, Argument.readAll, if_neg hne, hvalue, parseFrom]
      cases Argument.readAll rest <;> rfl
  | raised flag called calls =>
      have hread := Argument.read_called calls
      rw [Occurrence.tokens, List.singleton_append, parseFrom_cons calls.ne_divider hread, parseFrom]
      cases Argument.readAll rest <;> rfl

theorem parseFrom_stray (unlike : ¬ Argument.Resembles t) :
    parseFrom values stray (t :: rest) = parseFrom values (stray ++ [t]) rest := by
  have hne := Argument.ne_divider_of_not_resembles unlike
  by_cases hoperand : Argument.IsOperand t
  · rw [parseFrom_cons hne (Argument.read_operand hoperand), parseFrom]
    cases Argument.readAll rest <;> rfl
  · rw [parseFrom_cons hne (Argument.read_unknown unlike hoperand), parseFrom]
    cases Argument.readAll rest <;> rfl

end

/-- What is read so far: the values of the uses, and the stray arguments in order. -/
theorem parseFrom_pieces (pieces : List Piece) (rest : List Text) (values : Arguments)
    (stray : List Text) :
    parseFrom values stray (pieces.flatMap Piece.tokens ++ rest) =
      parseFrom (values.over (pieces.filterMap Piece.occurrence?))
        (stray ++ pieces.filterMap Piece.stray?) rest := by
  induction pieces generalizing values stray with
  | nil => simp [Occurrence.over_nil]
  | cons piece pieces ih =>
      rw [List.flatMap_cons, List.append_assoc]
      cases piece with
      | use occurrence =>
          rw [Piece.tokens, parseFrom_occurrence, ih]
          simp only [List.filterMap_cons, Piece.occurrence?, Piece.stray?, Occurrence.over_cons]
      | stray t unlike =>
          rw [Piece.tokens, List.singleton_append, parseFrom_stray unlike, ih]
          simp only [List.filterMap_cons, Piece.occurrence?, Piece.stray?, List.append_assoc,
            List.singleton_append]

/-- An option that takes no value, with one. -/
inductive Unused : Text → Prop where
  | flag {option : Flag} {called : Text} (calls : (CommandOption.flag option).CalledBy called)
      (given : Text) : Unused (called ++ Text.equalsSign :: given)
  | help {called : Text} (calls : CommandOption.help.CalledBy called) (given : Text) :
      Unused (called ++ Text.equalsSign :: given)
  | shortHelp {t : Text} (short : Spelling.shortHelp.text <+: t) (other : ¬ Argument.AsksHelp t) :
      Unused t

/-- Arguments that are a misuse, whatever stands before them. -/
inductive Misused : List Text → Prop where
  /-- Nothing takes what stands behind two dashes, nor the dashes. -/
  | divided (rest : List Text) : Misused (Argument.dividerText :: rest)
  | ambiguous {t : Text} (ambiguous : Argument.Ambiguous t) (rest : List Text) : Misused (t :: rest)
  | unused {t : Text} (unused : Unused t) (rest : List Text) : Misused (t :: rest)
  | lacking {option : ValueOption} {called : Text} {rest : List Text}
      (calls : (CommandOption.value option).CalledBy called)
      (lacks : ∀ value ∈ rest.head?, ¬ Argument.IsOperand value) : Misused (called :: rest)

section

variable {values : Arguments} {stray : List Text} {t : Text} {rest : List Text}

/-- A value option needs an operand behind it. -/
theorem consume_lacking {spelling : Spelling} {option : ValueOption} {arguments : List Argument}
    (hoption : spelling.option = .value option)
    (h : ∀ argument ∈ arguments.head?, argument.reading ≠ .operand) :
    consume values stray (⟨t, .option spelling none⟩ :: arguments) =
      .error (.misuse (.missingValue option)) := by
  obtain ⟨text, _⟩ := spelling
  subst hoption
  rcases arguments with _ | ⟨⟨value, reading⟩, others⟩
  · rfl
  · cases reading with
    | operand => exact absurd rfl (h _ rfl)
    | divider => rfl
    | option spelling value => rfl
    | unknownOption => rfl

theorem reading_ne_operand {arguments : List Argument}
    (hread : Argument.readAll rest = .ok arguments)
    (lacks : ∀ value ∈ rest.head?, ¬ Argument.IsOperand value) :
    ∀ argument ∈ arguments.head?, argument.reading ≠ .operand := by
  cases rest with
  | nil =>
      cases hread
      simp
  | cons value others =>
      rw [Argument.readAll] at hread
      split at hread
      · cases hread
        simp
      · next hne =>
          split at hread
          · cases hread
          · next reading hvalue =>
              split at hread
              · cases hread
              · cases hread
                simp only [List.head?_cons, Option.mem_def, Option.some.injEq, forall_eq'] at lacks ⊢
                rintro rfl
                exact lacks ((Argument.read_eq_operand_iff hne).mp hvalue)

/-- Behind two dashes every argument is stray. -/
theorem consume_operands (hstray : stray ≠ []) (operands : List Text) :
    consume values stray (operands.map fun u => ⟨u, .operand⟩) =
      .error (.misuse (.unrecognized (stray ++ operands))) := by
  induction operands generalizing stray with
  | nil => rw [List.map_nil, consume, if_neg hstray, List.append_nil]
  | cons u operands ih =>
      rw [List.map_cons, consume, ih (by simp), List.append_assoc, List.singleton_append]

theorem parseFrom_divided (rest : List Text) :
    parseFrom values stray (Argument.dividerText :: rest) =
      .error (.misuse (.unrecognized (stray ++ Argument.dividerText :: rest))) := by
  rw [parseFrom, Argument.readAll, if_pos rfl]
  simp only [consume]
  rw [consume_operands (by simp), List.append_assoc, List.singleton_append]

/-- What an argument leads to that is read in any case leads to it only if the arguments
after it can be read. -/
theorem parseFrom_cons_of_consume {reading : Reading} {stop : Stop}
    (hne : t ≠ Argument.dividerText) (hread : Argument.read t = .ok reading)
    (hstop : ∀ arguments, consume values stray (⟨t, reading⟩ :: arguments) = .error stop) :
    parseFrom values stray (t :: rest) = .error stop ∨
      ∃ misuse, Argument.readAll rest = .error misuse ∧
        parseFrom values stray (t :: rest) = .error (.misuse misuse) := by
  rw [parseFrom_cons hne hread]
  cases Argument.readAll rest with
  | error misuse => exact .inr ⟨misuse, rfl, rfl⟩
  | ok arguments => exact .inl (hstop arguments)

/-- Help letters ask for help again; anything else cannot be used. -/
theorem stopAtValue_shortHelp (value : Text) :
    (value ≠ [] ∧ ∀ b ∈ value, b = Spelling.helpLetter) ∧
        stopAtValue Spelling.shortHelp value = .help ∨
      ¬ (value ≠ [] ∧ ∀ b ∈ value, b = Spelling.helpLetter) ∧
        ∃ misuse, stopAtValue Spelling.shortHelp value = .misuse misuse := by
  have hletters : value.dropWhile (· = Spelling.helpLetter) = [] ↔
      ∀ b ∈ value, b = Spelling.helpLetter := by
    simp only [List.dropWhile_eq_nil_iff, decide_eq_true_eq]
  by_cases hvalue : value = []
  · subst hvalue
    exact .inr ⟨by simp, _, rfl⟩
  · rw [stopAtValue, if_pos ⟨rfl, hvalue⟩]
    cases hdrop : value.dropWhile (· = Spelling.helpLetter) with
    | nil => exact .inl ⟨⟨hvalue, hletters.mp hdrop⟩, rfl⟩
    | cons b others =>
        refine .inr ⟨fun hall => ?_, _, rfl⟩
        rw [hletters.mpr hall.2] at hdrop
        cases hdrop

theorem stopAtValue_long (option : CommandOption) (value : Text) :
    stopAtValue option.long value = .misuse (.unusedValue option value) := by
  have hlong : option.long ≠ Spelling.shortHelp := fun heq =>
    absurd (heq ▸ option.dashes_long) (by decide)
  rw [stopAtValue, if_neg fun hshort => hlong hshort.1, CommandOption.option_long]

theorem consume_help (h : Argument.AsksHelp t) :
    ∃ reading, Argument.read t = .ok reading ∧
      ∀ arguments, consume values stray (⟨t, reading⟩ :: arguments) = .error .help := by
  rcases h with hcalls | rfl | ⟨hshort, hcluster⟩
  · exact ⟨_, Argument.read_called hcalls, fun _ => rfl⟩
  · exact ⟨_, Argument.read_shortHelp (List.prefix_refl _), fun _ => rfl⟩
  · have hne : t ≠ Spelling.shortHelp.text := by
      rintro rfl
      exact hcluster.1 rfl
    rcases stopAtValue_shortHelp (Argument.attached t) with ⟨-, hstop⟩ | ⟨hother, -⟩
    · refine ⟨_, Argument.read_shortHelp hshort, fun arguments => ?_⟩
      rw [if_neg hne]
      exact congrArg Except.error hstop
    · exact absurd hcluster hother

theorem consume_unused (h : Unused t) :
    ∃ reading misuse, Argument.read t = .ok reading ∧
      ∀ arguments, consume values stray (⟨t, reading⟩ :: arguments) = .error (.misuse misuse) := by
  cases h with
  | flag calls given =>
      exact ⟨_, _, Argument.read_called_value calls given, fun _ =>
        congrArg Except.error (stopAtValue_long (.flag _) given)⟩
  | help calls given =>
      exact ⟨_, _, Argument.read_called_value calls given, fun _ =>
        congrArg Except.error (stopAtValue_long .help given)⟩
  | shortHelp short other =>
      have hne : t ≠ Spelling.shortHelp.text := fun heq => other (.inr (.inl heq))
      rcases stopAtValue_shortHelp (Argument.attached t) with ⟨hcluster, -⟩ | ⟨-, misuse, hstop⟩
      · exact absurd (.inr (.inr ⟨short, hcluster⟩)) other
      · refine ⟨_, misuse, Argument.read_shortHelp short, fun arguments => ?_⟩
        rw [if_neg hne]
        exact congrArg Except.error hstop

theorem ne_divider_of_shortHelp (h : Spelling.shortHelp.text <+: t) :
    t ≠ Argument.dividerText := by
  rintro rfl
  exact absurd h (by decide)

theorem ne_divider_of_asksHelp (h : Argument.AsksHelp t) : t ≠ Argument.dividerText := by
  rcases h with hcalls | rfl | ⟨hshort, -⟩
  · exact hcalls.ne_divider
  · decide
  · exact ne_divider_of_shortHelp hshort

theorem ne_divider_of_unused (h : Unused t) : t ≠ Argument.dividerText := by
  cases h with
  | flag calls given =>
      exact (Argument.clear_of_called ((Argument.name_called_value calls given).symm ▸ calls)).1
  | help calls given =>
      exact (Argument.clear_of_called ((Argument.name_called_value calls given).symm ▸ calls)).1
  | shortHelp short => exact ne_divider_of_shortHelp short

/-- Help is shown as soon as it is asked for, if all arguments can be read. -/
theorem parseFrom_help (h : Argument.AsksHelp t) :
    parseFrom values stray (t :: rest) = .error .help ∨
      ∃ misuse, Argument.readAll rest = .error misuse ∧
        parseFrom values stray (t :: rest) = .error (.misuse misuse) := by
  obtain ⟨reading, hread, hconsume⟩ := consume_help h
  exact parseFrom_cons_of_consume (ne_divider_of_asksHelp h) hread hconsume

theorem parseFrom_of_misused {argv : List Text} (h : Misused argv) :
    ∃ misuse, parseFrom values stray argv = .error (.misuse misuse) := by
  cases h with
  | divided rest => exact ⟨_, parseFrom_divided rest⟩
  | ambiguous hambiguous rest =>
      obtain ⟨misuse, hread⟩ := Argument.read_of_ambiguous hambiguous
      refine ⟨misuse, ?_⟩
      rw [parseFrom, Argument.readAll, if_neg hambiguous.1, hread]
  | unused hunused rest =>
      obtain ⟨reading, misuse, hread, hconsume⟩ := consume_unused hunused
      rcases parseFrom_cons_of_consume (ne_divider_of_unused hunused) hread hconsume with
        hparse | ⟨other, -, hparse⟩
      · exact ⟨misuse, hparse⟩
      · exact ⟨other, hparse⟩
  | @lacking _ called rest calls lacks =>
      rw [parseFrom_cons calls.ne_divider (Argument.read_called calls)]
      cases hrest : Argument.readAll rest with
      | error misuse => exact ⟨misuse, rfl⟩
      | ok arguments =>
          exact ⟨_, consume_lacking (CommandOption.option_long _) (reading_ne_operand hrest lacks)⟩

end

/-- What stands first on a command line: a part that can be read, a request for help or a
misuse. -/
theorem first_piece (t : Text) (rest : List Text) :
    (∃ (piece : Piece) (others : List Text), t :: rest = piece.tokens ++ others) ∨
      Argument.AsksHelp t ∨ Misused (t :: rest) := by
  by_cases hne : t = Argument.dividerText
  · exact .inr (.inr (hne ▸ .divided rest))
  by_cases hambiguous : Argument.Ambiguous t
  · exact .inr (.inr (.ambiguous hambiguous rest))
  cases Argument.kind_of_clear hne hambiguous with
  | @called option _ calls =>
      cases option with
      | help => exact .inr (.inl (.inl calls))
      | flag flag => exact .inl ⟨.use (.raised flag t calls), rest, rfl⟩
      | value option =>
          by_cases hoperand : ∀ value ∈ rest.head?, ¬ Argument.IsOperand value
          · exact .inr (.inr (.lacking calls hoperand))
          · cases rest with
            | nil => simp at hoperand
            | cons value others =>
                have hvalue : Argument.IsOperand value := by simpa using hoperand
                exact .inl ⟨.use (.spaced option t value calls hvalue), others, rfl⟩
  | @calledValue option called calls given =>
      cases option with
      | help => exact .inr (.inr (.unused (.help calls given) rest))
      | flag flag => exact .inr (.inr (.unused (.flag calls given) rest))
      | value option => exact .inl ⟨.use (.joined option called given calls), rest, rfl⟩
  | shortHelp hshort =>
      by_cases hhelp : Argument.AsksHelp t
      · exact .inr (.inl hhelp)
      · exact .inr (.inr (.unused (.shortHelp hshort hhelp) rest))
  | unlike hunlike => exact .inl ⟨.stray t hunlike, rest, rfl⟩

/-- A command line is read in parts to its end, to a request for help or to a misuse. -/
theorem exists_pieces (argv : List Text) : ∃ (pieces : List Piece) (rest : List Text),
    argv = pieces.flatMap Piece.tokens ++ rest ∧
      (rest = [] ∨ (∃ help others, rest = help :: others ∧ Argument.AsksHelp help) ∨
        Misused rest) := by
  -- on the number of arguments: a part takes one argument or two
  induction hlength : argv.length using Nat.strong_induction_on generalizing argv with
  | _ length ih =>
      cases argv with
      | nil => exact ⟨[], [], rfl, .inl rfl⟩
      | cons t rest =>
          rcases first_piece t rest with ⟨piece, others, hpiece⟩ | hhelp | hmisused
          · have hshorter : others.length < length := by
              have htokens := List.length_pos_iff.mpr piece.tokens_ne_nil
              rw [← hlength, hpiece, List.length_append]
              omega
            obtain ⟨pieces, last, hothers, hlast⟩ := ih _ hshorter others rfl
            refine ⟨piece :: pieces, last, ?_, hlast⟩
            rw [hpiece, hothers, List.flatMap_cons, List.append_assoc]
          · exact ⟨[], t :: rest, rfl, .inr (.inl ⟨t, rest, rfl, hhelp⟩)⟩
          · exact ⟨[], t :: rest, rfl, .inr (.inr hmisused)⟩

theorem parseFrom_tokens (values : Arguments) (occurrences : List Occurrence) :
    parseFrom values [] (occurrences.flatMap Occurrence.tokens) =
      .ok (values.over occurrences) := by
  induction occurrences generalizing values with
  | nil => rw [Occurrence.over_nil]; rfl
  | cons occurrence rest ih =>
      rw [List.flatMap_cons, parseFrom_occurrence, ih, Occurrence.over_cons]

/-- A command line gives values exactly if it is made of uses of options alone.  Each
option then has the value of its last use, or its default. -/
theorem parse_eq_ok_iff (places : Places) (argv : List Text) (arguments : Arguments) :
    parse (.defaults places) argv = .ok arguments ↔
      (∀ t ∈ argv, t ≠ Argument.dividerText ∧ ¬ Argument.Ambiguous t) ∧
        ∃ occurrences : List Occurrence, argv = occurrences.flatMap Occurrence.tokens ∧
          arguments = (Arguments.defaults places).over occurrences := by
  constructor
  · intro hparse
    obtain ⟨pieces, rest, rfl, hrest⟩ := exists_pieces argv
    change parseFrom _ [] _ = _ at hparse
    rw [parseFrom_pieces, List.nil_append] at hparse
    rcases hrest with rfl | ⟨help, others, rfl, hasks⟩ | hmisused
    · change (if _ then _ else _) = _ at hparse
      split at hparse
      · next hstray =>
          cases hparse
          rw [List.append_nil, Piece.tokens_of_uses hstray]
          refine ⟨fun t ht => ?_, _, rfl, rfl⟩
          obtain ⟨occurrence, -, htokens⟩ := List.mem_flatMap.mp ht
          exact Occurrence.clear_of_mem_tokens htokens
      · cases hparse
    · rcases parseFrom_help hasks with hstop | ⟨misuse, -, hstop⟩ <;> rw [hstop] at hparse <;>
        cases hparse
    · obtain ⟨misuse, hstop⟩ := parseFrom_of_misused hmisused
      rw [hstop] at hparse
      cases hparse
  · rintro ⟨-, occurrences, rfl, rfl⟩
    exact parseFrom_tokens _ occurrences

end CommandLine

end SdkBindings
