import SdkBindings.CommandLine

/-!
What an argument is taken for, said of its text.  The name of an argument is what stands
before its equals sign; with two dashes in front it calls the option whose spelling it
begins, if there is only one.  Main statements: an argument is refused exactly if its name
begins the spellings of several options, and any other one is an operand, calls an option
or is like none, as its text says.
-/

namespace SdkBindings

namespace Text

/-- A text is cut at its first separator, if it holds one. -/
theorem cut_cases (sep : UInt8) (t : Text) :
    sep ∉ t ∧ cut sep t = (t, none) ∨
      ∃ before after, sep ∉ before ∧ t = before ++ sep :: after ∧
        cut sep t = (before, some after) := by
  induction t with
  | nil => exact .inl ⟨by simp, rfl⟩
  | cons b rest ih =>
      by_cases hb : b = sep
      · exact .inr ⟨[], rest, by simp, by rw [hb, List.nil_append], by rw [cut, if_pos hb]⟩
      · rw [cut, if_neg hb]
        rcases ih with ⟨hrest, hcut⟩ | ⟨before, after, hbefore, rfl, hcut⟩
        · exact .inl ⟨by simp [hrest, Ne.symm hb], by rw [hcut]⟩
        · exact .inr ⟨b :: before, after, by simp [hbefore, Ne.symm hb], rfl, by rw [hcut]⟩

theorem cut_of_not_mem {sep : UInt8} {t : Text} (h : sep ∉ t) : cut sep t = (t, none) := by
  rcases cut_cases sep t with ⟨-, hcut⟩ | ⟨before, after, -, rfl, -⟩
  · exact hcut
  · simp at h

theorem cut_append_cons {sep : UInt8} {before : Text} (h : sep ∉ before) (after : Text) :
    cut sep (before ++ sep :: after) = (before, some after) := by
  induction before with
  | nil => rw [List.nil_append, cut, if_pos rfl]
  | cons b before ih =>
      rw [List.mem_cons, not_or] at h
      rw [List.cons_append, cut, if_neg (Ne.symm h.1), ih h.2]

end Text

namespace Spelling

/-- The spellings that begin with a text. -/
def begunBy (name : Text) : List Spelling :=
  all.filter fun spelling => name.isPrefixOf spelling.text

theorem mem_begunBy {name : Text} {spelling : Spelling} :
    spelling ∈ begunBy name ↔ spelling ∈ all ∧ name <+: spelling.text := by
  simp [begunBy]

theorem nodup_begunBy (name : Text) : (begunBy name).Nodup :=
  (by decide : all.Nodup).filter _

/-- The long spellings: each option has one. -/
theorem eq_of_option_eq {spelling other : Spelling} (h : spelling ∈ all) (h' : other ∈ all)
    (hlong : Argument.dividerText <+: spelling.text) (hlong' : Argument.dividerText <+: other.text)
    (hoption : spelling.option = other.option) : spelling = other := by
  have hall : ∀ s ∈ all, ∀ s' ∈ all, Argument.dividerText <+: s.text →
      Argument.dividerText <+: s'.text → s.option = s'.option → s = s' := by
    decide
  exact hall spelling h other h' hlong hlong' hoption

/-- A long spelling holds no equals sign and begins no other one. -/
theorem begunBy_text {spelling : Spelling} (h : spelling ∈ all)
    (hlong : Argument.dividerText <+: spelling.text) :
    Text.equalsSign ∉ spelling.text ∧ begunBy spelling.text = [spelling] := by
  have hall : ∀ s ∈ all, Argument.dividerText <+: s.text →
      Text.equalsSign ∉ s.text ∧ begunBy s.text = [s] := by
    decide
  exact hall spelling h hlong

/-- All spellings but one are long. -/
theorem eq_shortHelp_or_long {spelling : Spelling} (h : spelling ∈ all) :
    spelling = shortHelp ∨ Argument.dividerText <+: spelling.text := by
  have hall : ∀ s ∈ all, s = shortHelp ∨ Argument.dividerText <+: s.text := by
    decide
  exact hall spelling h

theorem spelled?_eq_some {t : Text} {spelling : Spelling} (h : spelled? t = some spelling) :
    spelling ∈ all ∧ t = spelling.text := by
  have htext := List.find?_some h
  rw [decide_eq_true_eq] at htext
  exact ⟨List.mem_of_find?_eq_some h, htext.symm⟩

end Spelling

/-- A name with two dashes in front calls an option if it begins a spelling of it, and
none of another option. -/
structure CommandOption.CalledBy (option : CommandOption) (name : Text) : Prop where
  dashes : Argument.dividerText <+: name
  begins : ∃ spelling ∈ Spelling.all, spelling.option = option ∧ name <+: spelling.text
  alone : ∀ spelling ∈ Spelling.all, name <+: spelling.text → spelling.option = option

namespace CommandOption

instance (option : CommandOption) (name : Text) : Decidable (option.CalledBy name) :=
  decidable_of_iff
    (Argument.dividerText <+: name ∧
      (∃ spelling ∈ Spelling.all, spelling.option = option ∧ name <+: spelling.text) ∧
      ∀ spelling ∈ Spelling.all, name <+: spelling.text → spelling.option = option)
    ⟨fun ⟨dashes, begins, alone⟩ => ⟨dashes, begins, alone⟩,
      fun ⟨dashes, begins, alone⟩ => ⟨dashes, begins, alone⟩⟩

/-- The spelling of an option with two dashes. -/
def long : CommandOption → Spelling
  | help => ⟨"--help", help⟩
  | value option => ⟨option.text, value option⟩
  | flag option => ⟨option.text, flag option⟩

@[simp] theorem option_long (option : CommandOption) : option.long.option = option := by
  cases option <;> rfl

theorem long_mem (option : CommandOption) : option.long ∈ Spelling.all := by
  rcases option with _ | ⟨_ | _⟩ | ⟨_ | _⟩ <;> decide

theorem dashes_long (option : CommandOption) : Argument.dividerText <+: option.long.text := by
  rcases option with _ | ⟨_ | _⟩ | ⟨_ | _⟩ <;> decide

variable {option : CommandOption} {called : Text}

theorem CalledBy.eq_long (h : option.CalledBy called) {spelling : Spelling}
    (hall : spelling ∈ Spelling.all) (hbegins : called <+: spelling.text) :
    spelling = option.long := by
  apply Spelling.eq_of_option_eq hall option.long_mem (h.dashes.trans hbegins) option.dashes_long
  rw [option_long]
  exact h.alone spelling hall hbegins

theorem CalledBy.begins_long (h : option.CalledBy called) : called <+: option.long.text := by
  obtain ⟨spelling, hall, -, hbegins⟩ := h.begins
  exact h.eq_long hall hbegins ▸ hbegins

/-- The one spelling that a name begins is that of the option that it calls. -/
theorem CalledBy.begunBy (h : option.CalledBy called) :
    Spelling.begunBy called = [option.long] := by
  have hmem : option.long ∈ Spelling.begunBy called :=
    Spelling.mem_begunBy.mpr ⟨option.long_mem, h.begins_long⟩
  have hsame : ∀ spelling ∈ Spelling.begunBy called, spelling = option.long := by
    intro spelling hspelling
    obtain ⟨hall, hbegins⟩ := Spelling.mem_begunBy.mp hspelling
    exact h.eq_long hall hbegins
  have hnodup := Spelling.nodup_begunBy called
  generalize Spelling.begunBy called = spellings at *
  rcases spellings with _ | ⟨first, _ | ⟨second, others⟩⟩
  · simp at hmem
  · rw [hsame first List.mem_cons_self]
  · have hfirst := hsame first List.mem_cons_self
    have hsecond := hsame second (by simp)
    simp [hfirst, hsecond] at hnodup

theorem CalledBy.equalsSign_not_mem (h : option.CalledBy called) : Text.equalsSign ∉ called := by
  intro hequals
  obtain ⟨hnone, -⟩ := Spelling.begunBy_text option.long_mem option.dashes_long
  exact hnone (h.begins_long.subset hequals)

/-- Two dashes alone begin the spellings of several options. -/
theorem CalledBy.ne_divider (h : option.CalledBy called) : called ≠ Argument.dividerText := by
  rintro rfl
  have hhelp := h.alone ⟨"--help", .help⟩ (by decide) (by decide)
  have hflag := h.alone ⟨Flag.showConfig.text, .flag .showConfig⟩ (by decide) (by decide)
  exact absurd (hhelp.trans hflag.symm) (by decide)

end CommandOption

namespace Argument

/-- What stands before the first equals sign. -/
def name (t : Text) : Text :=
  (Text.cut Text.equalsSign t).1

/-- What stands after the first equals sign, if there is one. -/
def value? (t : Text) : Option Text :=
  (Text.cut Text.equalsSign t).2

/-- The name of the argument begins the spellings of several options. -/
def Ambiguous (t : Text) : Prop :=
  t ≠ dividerText ∧ dividerText <+: t ∧
    ∃ spelling ∈ Spelling.all, ∃ other ∈ Spelling.all, spelling.option ≠ other.option ∧
      name t <+: spelling.text ∧ name t <+: other.text

/-- The argument begins like an option: its name begins a spelling with two dashes, or it
begins with the short one. -/
def Resembles (t : Text) : Prop :=
  (dividerText <+: t ∧ ∃ spelling ∈ Spelling.all, name t <+: spelling.text) ∨
    Spelling.shortHelp.text <+: t

/-- The argument can be the value of an option before it. -/
def IsOperand (t : Text) : Prop :=
  t.head? ≠ some Text.dash ∨ t = [Text.dash] ∨ looksNegative t = true ∨
    Text.blank ∈ t ∧ ¬ Resembles t

/-- What the short help option is given behind its letter, with or without an equals
sign. -/
def attached (t : Text) : Text :=
  match t.drop 2 with
  | [] => []
  | b :: rest => if b = Text.equalsSign then rest else b :: rest

/-- The argument asks for help: it calls the long option without a value, or is the short
one with nothing but its letter behind it. -/
def AsksHelp (t : Text) : Prop :=
  CommandOption.help.CalledBy t ∨
    t = Spelling.shortHelp.text ∨
    Spelling.shortHelp.text <+: t ∧ attached t ≠ [] ∧ ∀ b ∈ attached t, b = Spelling.helpLetter

instance (t : Text) : Decidable (Ambiguous t) :=
  inferInstanceAs (Decidable (_ ∧ _))

instance (t : Text) : Decidable (Resembles t) :=
  inferInstanceAs (Decidable (_ ∨ _))

instance (t : Text) : Decidable (IsOperand t) :=
  inferInstanceAs (Decidable (_ ∨ _))

instance (t : Text) : Decidable (AsksHelp t) :=
  inferInstanceAs (Decidable (_ ∨ _))

variable {t : Text}

theorem name_cons {b : UInt8} (hb : b ≠ Text.equalsSign) (rest : Text) :
    name (b :: rest) = b :: name rest := by
  rw [name, Text.cut, if_neg hb]
  rfl

theorem dashes_of_isPrefix (h : dividerText <+: t) :
    ∃ rest, t = Text.dash :: Text.dash :: rest := by
  obtain ⟨rest, rfl⟩ := h
  exact ⟨rest, rfl⟩

theorem head?_of_isPrefix (h : dividerText <+: t) : t.head? = some Text.dash := by
  obtain ⟨rest, rfl⟩ := dashes_of_isPrefix h
  rfl

/-- The dashes in front of an argument stand in front of its name. -/
theorem isPrefix_name (h : dividerText <+: t) : dividerText <+: name t := by
  obtain ⟨rest, rfl⟩ := dashes_of_isPrefix h
  exact ⟨name rest, rfl⟩

theorem abbreviated_of_long (h : dividerText <+: t) :
    Spelling.abbreviated t = (Spelling.begunBy (name t)).map fun s => (s, value? t) := by
  obtain ⟨rest, rfl⟩ := dashes_of_isPrefix h
  rfl

/-- An argument that is no spelling, and gives no value to one. -/
def readAbbreviated (t : Text) : Except Misuse Reading :=
  match Spelling.abbreviated t with
  | [] => .ok (readDashed t)
  | [(spelling, value)] => .ok (.option spelling value)
  | candidates => .error (.ambiguous t (candidates.map fun c => c.1.text))

/-- What begins with a dash is a spelling, gives a value to one or abbreviates one. -/
theorem read_of_dash (hhead : t.head? = some Text.dash) (hdash : t ≠ [Text.dash]) :
    read t = match Spelling.spelled? t with
      | some spelling => .ok (.option spelling none)
      | none =>
        match value? t, Spelling.spelled? (name t) with
        | some value, some spelling => .ok (.option spelling (some value))
        | _, _ => readAbbreviated t := by
  rw [read, if_neg (by simp [hhead]), if_neg hdash]
  rfl

theorem read_eq_readAbbreviated (hhead : t.head? = some Text.dash) (hdash : t ≠ [Text.dash])
    (hwhole : Spelling.spelled? t = none) (hname : Spelling.spelled? (name t) = none) :
    read t = readAbbreviated t := by
  rw [read_of_dash hhead hdash, hwhole, hname]
  cases value? t <;> rfl

/-- With two dashes in front, the spellings that the name begins decide, also where it is
one of them. -/
theorem read_long (h : dividerText <+: t) :
    read t = match Spelling.begunBy (name t) with
      | [] => .ok (readDashed t)
      | [spelling] => .ok (.option spelling (value? t))
      | spellings => .error (.ambiguous t (spellings.map Spelling.text)) := by
  have hdash : t ≠ [Text.dash] := by
    obtain ⟨rest, rfl⟩ := dashes_of_isPrefix h
    simp
  rw [read_of_dash (head?_of_isPrefix h) hdash]
  cases hwhole : Spelling.spelled? t with
  | some spelling =>
      obtain ⟨hall, rfl⟩ := Spelling.spelled?_eq_some hwhole
      obtain ⟨hequals, hbegun⟩ := Spelling.begunBy_text hall h
      have hcut := Text.cut_of_not_mem hequals
      simp only [name, value?, hcut, hbegun]
  | none =>
      simp only
      split
      · next hvalue hname =>
          obtain ⟨hall, htext⟩ := Spelling.spelled?_eq_some hname
          have hlong := isPrefix_name h
          rw [htext] at hlong
          obtain ⟨-, hbegun⟩ := Spelling.begunBy_text hall hlong
          simp only [hvalue, htext, hbegun]
      · rw [readAbbreviated, abbreviated_of_long h]
        rcases Spelling.begunBy (name t) with _ | ⟨first, _ | ⟨second, others⟩⟩
        · rfl
        · rfl
        · simp only [List.map_cons, List.map_map]
          rfl

/-- With one dash in front, only the short help option is spelled. -/
theorem spelled?_short {called : Text} (hlong : ¬ dividerText <+: called) :
    Spelling.spelled? called =
      if called = Spelling.shortHelp.text then some Spelling.shortHelp else none := by
  split
  · next hshort =>
      rw [hshort]
      decide
  · next hshort =>
      rw [Spelling.spelled?, List.find?_eq_none]
      intro spelling hall
      rw [decide_eq_true_eq]
      rintro rfl
      rcases Spelling.eq_shortHelp_or_long hall with rfl | hdashes
      · exact hshort rfl
      · exact hlong hdashes

theorem abbreviated_of_short {b : UInt8} (hb : b ≠ Text.dash) (rest : Text) :
    Spelling.abbreviated (Text.dash :: b :: rest) =
      if b = Spelling.helpLetter then [(Spelling.shortHelp, some rest)] else [] := by
  have htake : ¬ (Text.dash :: b :: rest).take 2 = [Text.dash, Text.dash] := by
    simpa using hb
  have hall : Spelling.all = Spelling.shortHelp :: Spelling.all.tail := rfl
  have hlong : ∀ spelling ∈ Spelling.all.tail, dividerText <+: spelling.text := by
    decide
  rw [Spelling.abbreviated, if_neg htake, hall, List.filterMap_cons]
  have hothers : Spelling.all.tail.filterMap (fun spelling =>
      if spelling.text = (Text.dash :: b :: rest).take 2 then
        some (spelling, some ((Text.dash :: b :: rest).drop 2))
      else if (Text.dash :: b :: rest).isPrefixOf spelling.text then some (spelling, none)
      else none) = [] := by
    rw [List.filterMap_eq_nil_iff]
    intro spelling htail
    obtain ⟨other, hother⟩ := dashes_of_isPrefix (hlong spelling htail)
    rw [hother]
    simp [hb, Ne.symm hb]
  rw [hothers]
  by_cases hletter : b = Spelling.helpLetter
  · simp [hletter, Spelling.shortHelp]
  · simp [hletter, Ne.symm hletter, Spelling.shortHelp]

theorem attached_of_head? (h : (t.drop 2).head? ≠ some Text.equalsSign) :
    attached t = t.drop 2 := by
  unfold attached
  split
  · next hempty => rw [hempty]
  · next b rest hrest =>
      rw [hrest, List.head?_cons, ne_eq, Option.some.injEq] at h
      rw [if_neg h, hrest]

/-- A letter behind a single dash calls the short help option with what stands behind it. -/
theorem readAbbreviated_short {b : UInt8} (hb : b ≠ Text.dash) (rest : Text) :
    readAbbreviated (Text.dash :: b :: rest) =
      if b = Spelling.helpLetter then .ok (.option Spelling.shortHelp (some rest))
      else .ok (readDashed (Text.dash :: b :: rest)) := by
  rw [readAbbreviated, abbreviated_of_short hb]
  by_cases hletter : b = Spelling.helpLetter
  · rw [if_pos hletter, if_pos hletter]
  · rw [if_neg hletter, if_neg hletter]

theorem not_long_of_ne_dash {b : UInt8} (hb : b ≠ Text.dash) (rest : Text) :
    ¬ dividerText <+: Text.dash :: b :: rest := by
  rintro ⟨tail, htail⟩
  simp only [dividerText, List.cons_append, List.cons.injEq, true_and] at htail
  exact hb htail.1.symm

/-- With one dash and another letter in front, no option is given. -/
theorem read_shortOther {b : UInt8} (hb : b ≠ Text.dash) (hletter : b ≠ Spelling.helpLetter)
    (rest : Text) : read (Text.dash :: b :: rest) = .ok (readDashed (Text.dash :: b :: rest)) := by
  have hwhole : Spelling.spelled? (Text.dash :: b :: rest) = none := by
    rw [spelled?_short (not_long_of_ne_dash hb rest), if_neg]
    simp [Spelling.shortHelp, hletter]
  have hnone : Spelling.spelled? (name (Text.dash :: b :: rest)) = none := by
    rw [name_cons (by decide)]
    by_cases hequals : b = Text.equalsSign
    · subst hequals
      exact (by decide : Spelling.spelled? [Text.dash] = none)
    · rw [name_cons hequals, spelled?_short (not_long_of_ne_dash hb _), if_neg]
      simp [Spelling.shortHelp, hletter]
  rw [read_eq_readAbbreviated rfl (by simp) hwhole hnone, readAbbreviated_short hb, if_neg hletter]

/-- With the short help option in front, what stands behind its letter is given to it. -/
theorem read_shortHelp (h : Spelling.shortHelp.text <+: t) :
    read t = .ok (.option Spelling.shortHelp
      (if t = Spelling.shortHelp.text then none else some (attached t))) := by
  have hletter : Spelling.helpLetter ≠ Text.dash := by decide
  obtain ⟨rest, rfl⟩ := h
  change read (Text.dash :: Spelling.helpLetter :: rest) = _
  cases rest with
  | nil => rfl
  | cons c rest =>
      have hmore : Spelling.shortHelp.text ++ c :: rest ≠ Spelling.shortHelp.text := by simp
      have hwhole : Spelling.spelled? (Text.dash :: Spelling.helpLetter :: c :: rest) = none :=
        (spelled?_short (not_long_of_ne_dash hletter _)).trans (if_neg hmore)
      rw [if_neg hmore]
      by_cases hequals : c = Text.equalsSign
      · subst hequals
        rw [read_of_dash rfl (by simp), hwhole]
        rfl
      · have hnone : Spelling.spelled? (name (Text.dash :: Spelling.helpLetter :: c :: rest))
            = none := by
          rw [name_cons (by decide), name_cons (by decide), name_cons hequals,
            spelled?_short (not_long_of_ne_dash hletter _), if_neg]
          simp [Spelling.shortHelp]
        rw [read_eq_readAbbreviated rfl (by simp) hwhole hnone, readAbbreviated_short hletter,
          if_pos rfl, attached_of_head? (by simpa [Spelling.shortHelp] using hequals)]
        rfl

section

variable {option : CommandOption} {called : Text}

theorem name_called (h : option.CalledBy called) : name called = called := by
  rw [name, Text.cut_of_not_mem h.equalsSign_not_mem]

theorem read_called (h : option.CalledBy called) :
    read called = .ok (.option option.long none) := by
  have hcut := Text.cut_of_not_mem h.equalsSign_not_mem
  rw [read_long h.dashes, name_called h, h.begunBy]
  simp only [value?, hcut]

theorem dashes_append (h : option.CalledBy called) (rest : Text) :
    dividerText <+: called ++ rest :=
  h.dashes.trans (List.prefix_append called rest)

theorem name_called_value (h : option.CalledBy called) (given : Text) :
    name (called ++ Text.equalsSign :: given) = called := by
  rw [name, Text.cut_append_cons h.equalsSign_not_mem]

/-- An option with a value behind an equals sign. -/
theorem read_called_value (h : option.CalledBy called) (given : Text) :
    read (called ++ Text.equalsSign :: given) = .ok (.option option.long (some given)) := by
  have hcut := Text.cut_append_cons h.equalsSign_not_mem given
  rw [read_long (dashes_append h _), name_called_value h, h.begunBy]
  simp only [value?, hcut]

end

/-- With two dashes in front, an argument whose name begins the spelling of one option only
calls it, with or without a value. -/
theorem called_or_called_value {spelling : Spelling} (hlong : dividerText <+: t)
    (hne : t ≠ dividerText) (hclear : ¬ Ambiguous t) (hall : spelling ∈ Spelling.all)
    (hbegins : name t <+: spelling.text) :
    spelling.option.CalledBy t ∨ ∃ called given, spelling.option.CalledBy called ∧
      t = called ++ Text.equalsSign :: given := by
  have hcalled : spelling.option.CalledBy (name t) := by
    refine ⟨isPrefix_name hlong, ⟨spelling, hall, rfl, hbegins⟩, ?_⟩
    intro other hother hbegins'
    refine Decidable.byContradiction fun hoption => ?_
    exact hclear ⟨hne, hlong, other, hother, spelling, hall, hoption, hbegins', hbegins⟩
  rcases Text.cut_cases Text.equalsSign t with ⟨-, hcut⟩ | ⟨called, given, -, htext, hcut⟩
  · rw [name, hcut] at hcalled
    exact .inl hcalled
  · rw [name, hcut] at hcalled
    exact .inr ⟨called, given, hcalled, htext⟩

theorem read_of_ambiguous (h : Ambiguous t) : ∃ misuse, read t = .error misuse := by
  obtain ⟨-, hlong, spelling, hall, other, hall', hoption, hbegins, hbegins'⟩ := h
  have hmem := Spelling.mem_begunBy.mpr ⟨hall, hbegins⟩
  have hmem' := Spelling.mem_begunBy.mpr ⟨hall', hbegins'⟩
  rw [read_long hlong]
  generalize Spelling.begunBy (name t) = spellings at *
  rcases spellings with _ | ⟨first, _ | ⟨second, others⟩⟩
  · simp at hmem
  · rw [List.mem_singleton] at hmem hmem'
    exact absurd (by rw [hmem, hmem']) hoption
  · exact ⟨_, rfl⟩

/-- Behind its sign, a number begins with a digit or a dot. -/
theorem looksNegative_char {c : Char} (hdigit : (Symbol.scalar c).isDecimalDigit = false)
    (hdot : c ≠ '.') (hline : c ≠ '\n') (rest : Text) :
    looksNegative (Text.dash :: (String.utf8EncodeChar c ++ rest)) = false := by
  have hkept : ∃ others, Symbol.withoutFinalNewline (.scalar c :: Symbol.decode rest) =
      .scalar c :: others := by
    rw [Symbol.withoutFinalNewline]
    cases Symbol.decode rest with
    | nil => exact ⟨[], if_neg (by simpa using hline)⟩
    | cons next others => split <;> exact ⟨_, rfl⟩
  obtain ⟨others, hothers⟩ := hkept
  simp only [looksNegative, Symbol.decode_char_append, hothers, Symbol.spellsNumber]
  rw [List.dropWhile_cons_of_neg (by simp [hdigit])]
  simp [hdot]

theorem looksNegative_long (rest : Text) :
    looksNegative (Text.dash :: Text.dash :: rest) = false :=
  looksNegative_char (by decide : (Symbol.scalar '-').isDecimalDigit = false) (by decide)
    (by decide) rest

theorem looksNegative_help (rest : Text) :
    looksNegative (Text.dash :: Spelling.helpLetter :: rest) = false :=
  looksNegative_char (by decide : (Symbol.scalar 'h').isDecimalDigit = false) (by decide)
    (by decide) rest

theorem exists_of_resembles (h : Resembles t) :
    ∃ b rest, t = Text.dash :: b :: rest ∧ (b = Text.dash ∨ b = Spelling.helpLetter) := by
  rcases h with ⟨hlong, -⟩ | ⟨rest, rfl⟩
  · obtain ⟨rest, rfl⟩ := dashes_of_isPrefix hlong
    exact ⟨_, rest, rfl, .inl rfl⟩
  · exact ⟨_, rest, rfl, .inr rfl⟩

/-- What can be the value of an option is like none. -/
theorem IsOperand.not_resembles (h : IsOperand t) : ¬ Resembles t := by
  intro hlike
  obtain ⟨b, rest, rfl, hb⟩ := exists_of_resembles hlike
  rcases h with hhead | hdash | hnumber | ⟨-, hunlike⟩
  · simp at hhead
  · simp at hdash
  · rcases hb with rfl | rfl
    · simp [looksNegative_long] at hnumber
    · simp [looksNegative_help] at hnumber
  · exact hunlike hlike

/-- What begins with a dash and is like no option is judged by its look. -/
theorem read_of_not_resembles (h : ¬ Resembles t) (hhead : t.head? = some Text.dash)
    (hdash : t ≠ [Text.dash]) : read t = .ok (readDashed t) := by
  by_cases hlong : dividerText <+: t
  · have hnone : Spelling.begunBy (name t) = [] := by
      rw [List.eq_nil_iff_forall_not_mem]
      intro spelling hspelling
      exact h (.inl ⟨hlong, spelling, Spelling.mem_begunBy.mp hspelling⟩)
    rw [read_long hlong, hnone]
  · obtain ⟨first, t, rfl⟩ := List.exists_cons_of_ne_nil
      (by rintro rfl; simp at hhead : t ≠ [])
    rw [List.head?_cons, Option.some.injEq] at hhead
    subst hhead
    cases t with
    | nil => exact absurd rfl hdash
    | cons b rest =>
        have hb : b ≠ Text.dash := by
          rintro rfl
          exact hlong ⟨rest, rfl⟩
        have hletter : b ≠ Spelling.helpLetter := by
          rintro rfl
          exact h (.inr ⟨rest, rfl⟩)
        exact read_shortOther hb hletter rest

theorem read_operand (h : IsOperand t) : read t = .ok .operand := by
  by_cases hhead : t.head? = some Text.dash
  · by_cases hdash : t = [Text.dash]
    · rw [hdash]
      rfl
    · have hlook : looksNegative t = true ∨ t.contains Text.blank = true := by
        rcases h with hother | hdash' | hnumber | ⟨hblank, -⟩
        · exact absurd hhead hother
        · exact absurd hdash' hdash
        · exact .inl hnumber
        · exact .inr (by simpa using hblank)
      rw [read_of_not_resembles h.not_resembles hhead hdash, readDashed, if_pos hlook]
  · rw [read, if_pos hhead]

/-- What is like no option is an operand, or an option that does not exist. -/
theorem read_unknown (h : ¬ Resembles t) (hoperand : ¬ IsOperand t) :
    read t = .ok .unknownOption := by
  have hhead : t.head? = some Text.dash := Decidable.byContradiction fun hother =>
    hoperand (.inl hother)
  have hdash : t ≠ [Text.dash] := fun hdash => hoperand (.inr (.inl hdash))
  have hlook : ¬ (looksNegative t = true ∨ t.contains Text.blank = true) := by
    rintro (hnumber | hblank)
    · exact hoperand (.inr (.inr (.inl hnumber)))
    · exact hoperand (.inr (.inr (.inr ⟨by simpa using hblank, h⟩)))
  rw [read_of_not_resembles h hhead hdash, readDashed, if_neg hlook]

theorem Ambiguous.resembles (h : Ambiguous t) : Resembles t := by
  obtain ⟨-, hlong, spelling, hall, -, -, -, hbegins, -⟩ := h
  exact .inl ⟨hlong, spelling, hall, hbegins⟩

theorem ne_divider_of_not_resembles (h : ¬ Resembles t) : t ≠ dividerText := by
  rintro rfl
  exact h (.inl (by decide))

/-- An argument that calls an option is clear. -/
theorem clear_of_called {option : CommandOption} (h : option.CalledBy (name t)) :
    t ≠ dividerText ∧ ¬ Ambiguous t := by
  constructor
  · rintro rfl
    exact h.ne_divider rfl
  · rintro ⟨-, -, spelling, hall, other, hall', hoption, hbegins, hbegins'⟩
    exact hoption ((h.alone spelling hall hbegins).trans (h.alone other hall' hbegins').symm)

/-- What a clear argument can be. -/
inductive Kind : Text → Prop where
  | called {option : CommandOption} {t : Text} (calls : option.CalledBy t) : Kind t
  | calledValue {option : CommandOption} {called : Text} (calls : option.CalledBy called)
      (given : Text) : Kind (called ++ Text.equalsSign :: given)
  | shortHelp {t : Text} (short : Spelling.shortHelp.text <+: t) : Kind t
  | unlike {t : Text} (unlike : ¬ Resembles t) : Kind t

theorem kind_of_clear (hne : t ≠ dividerText) (hclear : ¬ Ambiguous t) : Kind t := by
  by_cases hlike : Resembles t
  · rcases hlike with ⟨hlong, spelling, hall, hbegins⟩ | hshort
    · rcases called_or_called_value hlong hne hclear hall hbegins with
        hcalls | ⟨called, given, hcalls, rfl⟩
      · exact .called hcalls
      · exact .calledValue hcalls given
    · exact .shortHelp hshort
  · exact .unlike hlike

theorem Kind.read_eq_ok (h : Kind t) : ∃ reading, read t = .ok reading := by
  cases h with
  | called hcalls => exact ⟨_, read_called hcalls⟩
  | calledValue hcalls given => exact ⟨_, read_called_value hcalls given⟩
  | shortHelp hshort => exact ⟨_, read_shortHelp hshort⟩
  | unlike hunlike =>
      by_cases hoperand : IsOperand t
      · exact ⟨_, read_operand hoperand⟩
      · exact ⟨_, read_unknown hunlike hoperand⟩

/-- Only what can be the value of an option is taken for an operand. -/
theorem read_eq_operand_iff (hne : t ≠ dividerText) :
    read t = .ok .operand ↔ IsOperand t := by
  refine ⟨fun hread => Decidable.byContradiction fun hoperand => ?_, read_operand⟩
  have hclear : ¬ Ambiguous t := by
    intro hambiguous
    obtain ⟨misuse, herror⟩ := read_of_ambiguous hambiguous
    rw [hread] at herror
    cases herror
  cases kind_of_clear hne hclear with
  | called hcalls =>
      rw [read_called hcalls] at hread
      cases hread
  | calledValue hcalls given =>
      rw [read_called_value hcalls given] at hread
      cases hread
  | shortHelp hshort =>
      rw [read_shortHelp hshort] at hread
      cases hread
  | unlike hunlike =>
      rw [read_unknown hunlike hoperand] at hread
      cases hread

/-- An argument is refused exactly if its name begins the spellings of several options. -/
theorem read_eq_error_iff (hne : t ≠ dividerText) :
    (∃ misuse, read t = .error misuse) ↔ Ambiguous t := by
  constructor
  · rintro ⟨misuse, hread⟩
    refine Decidable.byContradiction fun hclear => ?_
    obtain ⟨reading, hok⟩ := (kind_of_clear hne hclear).read_eq_ok
    rw [hread] at hok
    cases hok
  · exact read_of_ambiguous

end Argument

end SdkBindings
