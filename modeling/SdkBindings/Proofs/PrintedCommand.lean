import SdkBindings.Proofs.ShellReading
import SdkBindings.Proofs.Transcript

/-!
The command line of the generator as a run prints it.  Quotes and blanks are ASCII, so
text that is UTF-8 is still UTF-8 when it is quoted, and nothing in it is escaped.  Main
statement: what is announced before the generator is started, and what the preview shows,
is read back by a shell as the arguments that the generator is given.
-/

namespace SdkBindings

namespace ShellWord

theorem flatMap_guarded_of_not_mem {t : Text} (h : quote ∉ t) : t.flatMap guarded = t := by
  induction t with
  | nil => rfl
  | cons b t ih =>
      simp only [List.mem_cons, not_or] at h
      rw [List.flatMap_cons, ih h.2, guarded, if_neg (Ne.symm h.1)]
      rfl

/-- A quote that is guarded is ASCII, and every other byte stays. -/
theorem isUtf8_flatMap_guarded (c : Char) :
    Text.IsUtf8 ((String.utf8EncodeChar c).flatMap guarded) := by
  rcases Symbol.encode_cases c with ⟨b, hb, hcode⟩ | hall
  · rw [hcode, List.flatMap_singleton, guarded]
    split
    · exact ⟨"'\"'\"'", by decide⟩
    · exact .ascii hb
  · have hquote : quote ∉ String.utf8EncodeChar c := fun hmem => absurd (hall _ hmem) (by decide)
    rw [flatMap_guarded_of_not_mem hquote]
    exact .encode c

theorem isUtf8_ofText {t : Text} (h : t.IsUtf8) : (ofText t).IsUtf8 := by
  unfold ofText
  split
  · exact h
  · have hquote : Text.IsUtf8 [quote] := .ascii (by decide)
    obtain ⟨s, rfl⟩ := h
    rw [Text.ofString, List.flatMap_assoc]
    exact (hquote.append (.flatMap _ fun c _ => isUtf8_flatMap_guarded c)).append hquote

end ShellWord

theorem isUtf8_shellCommand {words : List Text} (h : ∀ word ∈ words, word.IsUtf8) :
    (shellCommand words).IsUtf8 := by
  induction words with
  | nil => exact .nil
  | cons word others ih =>
      have hword := ShellWord.isUtf8_ofText (h word (List.mem_cons_self ..))
      have hothers := ih fun other hother => h other (List.mem_cons_of_mem _ hother)
      cases others with
      | nil => exact hword
      | cons next others => exact (hword.append (.ascii (by decide))).append hothers

/-- A command line of UTF-8 is printed as it is, and read back. -/
theorem readCommand_shown_shellCommand {words : List Text} (h : ∀ word ∈ words, word.IsUtf8) :
    readCommand (shown (shellCommand words)) = some words := by
  rw [shown_of_isUtf8 (isUtf8_shellCommand h), readCommand_shellCommand]

/-- What the arguments of the generator are made of is UTF-8. -/
structure GeneratorOptions.Utf8 (options : GeneratorOptions) (generator : Text) (header : Path) :
    Prop where
  generator : generator.IsUtf8
  header : header.text.IsUtf8
  enumStyle : options.enumStyle.IsUtf8
  headLines : ∀ line ∈ options.headLines, line.IsUtf8
  output : options.output.text.IsUtf8

theorem GeneratorOptions.Utf8.argv {options : GeneratorOptions} {generator : Text} {header : Path}
    (h : options.Utf8 generator header) :
    ∀ word ∈ options.argv generator header, word.IsUtf8 := by
  have hswitch : ∀ (on : Bool) (s : String), ∀ word ∈ switch on (Text.ofString s),
      word.IsUtf8 := by
    intro on s word hword
    cases on with
    | true => exact List.mem_singleton.mp hword ▸ .ofString s
    | false => contradiction
  have hline : ∀ line ∈ options.headLines, ∀ word ∈ [headLineOption, line], word.IsUtf8 := by
    intro line hmem word hword
    simp only [List.mem_cons, List.not_mem_nil, or_false] at hword
    rcases hword with rfl | rfl
    · exact .ofString _
    · exact h.headLines _ hmem
  intro word hword
  simp only [GeneratorOptions.argv, List.mem_append, List.mem_flatMap, List.mem_cons,
    List.not_mem_nil, or_false] at hword
  rcases hword with ((((hword | hword) | hword) | hword) | ⟨line, hmem, hword⟩) | rfl | rfl
  · rcases hword with rfl | rfl | rfl | rfl
    exacts [h.generator, h.header, .ofString _, h.enumStyle]
  · exact hswitch _ _ word hword
  · exact hswitch _ _ word hword
  · exact hswitch _ _ word hword
  · exact hline line hmem word (by simpa using hword)
  · exact .ofString _
  · exact h.output

/-- A line with a command line behind a label. -/
def printedCommand (label : Text) (argv : List Text) : Text :=
  label ++ shown (shellCommand argv) ++ [Text.newline]

theorem printedLine_shellCommand {label : Text} (h : label.IsAscii) (argv : List Text) :
    printedLine (label ++ shellCommand argv) = printedCommand label argv := by
  rw [printedLine, shown_ascii h, printedCommand]

theorem Text.joinWith_append_newline {lines : List Text} (h : lines ≠ []) :
    joinWith [newline] lines ++ [newline] = lines.flatMap fun line => line ++ [newline] := by
  induction lines with
  | nil => contradiction
  | cons line others ih =>
      cases others with
      | nil => simp [joinWith]
      | cons next others =>
          rw [joinWith, List.append_assoc, ih (by simp), List.flatMap_cons (x := line)]

/-- Lines that are printed with newlines between them are printed one by one. -/
theorem printedLine_joinWith {lines : List Text} (h : lines ≠ []) :
    printedLine (Text.joinWith [Text.newline] lines) = lines.flatMap printedLine := by
  rw [← shown_flatMap_lines, ← Text.joinWith_append_newline h, shown_append_ascii (by decide)]
  rfl

namespace Stage

/-- What follows a stage and leaves the world alone does not count for the world. -/
theorem runIn_bind_snd {α β : Type} {next : α → Stage β}
    (h : ∀ a world, ((next a).runIn world).2 = world) (stage : Stage α) (world : World) :
    ((stage >>= next).runIn world).2 = (stage.runIn world).2 := by
  rw [runIn_bind]
  rcases stage.runIn world with ⟨fault | a, after⟩
  · rfl
  · exact h a after

/-- A program is run with the arguments that were asked for, or none is. -/
theorem runIn_runCommand_cases (machine : Machine) (name : Text) (argv : List Text)
    (world : World) :
    ((runCommand machine name argv).runIn world).2 = world ∨
      ∃ execution, ((runCommand machine name argv).runIn world).2
        = world.withLaunch machine execution argv := by
  rw [runIn_runCommand]
  cases argv.any Text.hasNul with
  | true => exact .inl rfl
  | false =>
      simp only [Bool.false_eq_true, ↓reduceIte]
      cases machine.find world.files name argv with
      | error reason => exact .inl rfl
      | ok execution => exact .inr ⟨execution, rfl⟩

/-- Before the generator is started its command line is announced, and it is started with
these arguments. -/
theorem runIn_generate_cases {machine : Machine} {header : Path} {options : GeneratorOptions}
    {generator : Text} {start after : World} {outcome : Except Fault WrittenFile}
    (hrun : (generate machine header options generator).runIn start = (outcome, after)) :
    after.output = start.output ∧ after.launches = start.launches ∨
      ∃ rest, after.output = start.output
          ++ printedCommand "  Running: " (options.argv generator header) ++ rest ∧
        (after.launches = start.launches ∨ ∃ files, after.launches
          = start.launches ++ [⟨options.argv generator header, files⟩]) := by
  have hlast : ∀ (ending : Ending) (world : World),
      ((if ending.status ≠ 0 then throw (.generator (.unsuccessful generator ending))
        else check (fun fs => fs.describe machine.directory options.output) >>= pure :
          Stage WrittenFile).runIn world).2 = world := by
    intro ending world
    split
    · rfl
    · rw [bind_pure, runIn_check]
  have hafter : after = ((generate machine header options generator >>= pure).runIn start).2 := by
    rw [bind_pure, hrun]
  rw [generate_bind, runIn_bind, runIn_ensureDirectory] at hafter
  cases hnul : options.output.parent.text.hasNul with
  | true =>
      rw [hnul] at hafter
      rw [hafter]
      exact .inl ⟨rfl, rfl⟩
  | false =>
      simp only [hnul, Bool.false_eq_true, ↓reduceIte] at hafter
      rcases hmade : start.files.ensureDirectory machine.directory options.output.parent with
        ⟨fs, refusal | ⟨⟨⟩⟩⟩
      · rw [hmade] at hafter
        rw [hafter]
        exact .inl ⟨rfl, rfl⟩
      · simp only [hmade, runIn_bind (say _), runIn_say, runIn_bind flush, runIn_flush] at hafter
        rw [runIn_bind_snd hlast] at hafter
        right
        rw [← printedLine_shellCommand (by decide +kernel)]
        rcases runIn_runCommand_cases machine generator (options.argv generator header)
          ((start.withFiles fs).withLine
            ("  Running: " ++ shellCommand (options.argv generator header))).flushed with
          hnone | ⟨execution, hlaunch⟩
        · rw [hafter.trans hnone, World.output_flushed, World.output_withLine,
            World.output_withFiles]
          exact ⟨[], (List.append_nil _).symm, .inl rfl⟩
        · rw [hafter.trans hlaunch, World.output_withLaunch rfl, World.output_flushed,
            World.output_withLine, World.output_withFiles]
          exact ⟨execution.program.output, rfl, .inr ⟨fs, rfl⟩⟩

end Stage

/-- The command line is the seventh line of a preview. -/
theorem previewLines_eq (config : Configuration) (header : Path) :
    ∃ above below : List Text, above.length = 5 ∧ previewLines config header
      = above ++ ("Command:" : Text) :: ("  " ++ shellCommand (config.command header)) :: below :=
  ⟨[_, _, _, _, _], _, rfl, rfl⟩

/-- A command line is read back as the arguments that it was made from, and so is its printed
form if they are UTF-8.  A run that comes to the generator prints the command line of the
arguments that the generator is then given, and the preview prints that of the header it has
found. -/
theorem readCommand_of_printed (machine : Machine) (start : World) :
    (∀ generator header (options : GeneratorOptions),
      readCommand (shellCommand (options.argv generator header))
          = some (options.argv generator header) ∧
        (options.Utf8 generator header →
          readCommand (shown (shellCommand (options.argv generator header)))
            = some (options.argv generator header))) ∧
    (∀ generator header options outcome after,
      (Stage.generate machine header options generator).runIn start = (outcome, after) →
      after.output = start.output ∧ after.launches = start.launches ∨
        ∃ rest, after.output = start.output
            ++ printedCommand "  Running: " (options.argv generator header) ++ rest ∧
          (after.launches = start.launches ∨ ∃ files, after.launches
            = start.launches ++ [⟨options.argv generator header, files⟩])) ∧
    (∀ config after, (Stage.preview machine config).runIn start = (.ok (), after) →
      ∃ header, ∃ above below : List Text, ChecksPass machine config start.files header ∧
        above.length = 5 ∧
        after.output = start.output ++ above.flatMap printedLine ++ printedLine "Command:"
          ++ printedCommand "  "
            ((GeneratorOptions.forOutput config.output).argv config.generator header)
          ++ below.flatMap printedLine) := by
  refine ⟨fun generator header options => ⟨readCommand_shellCommand _, fun hutf8 => ?_⟩,
    fun generator header options outcome after hrun => ?_, fun config after hrun => ?_⟩
  · exact readCommand_shown_shellCommand hutf8.argv
  · exact Stage.runIn_generate_cases hrun
  · rcases Stage.checksPass_or_checksFail machine config start.files with
      ⟨header, hpass⟩ | ⟨fault, hfail⟩
    · rw [Stage.runIn_preview_of_pass hpass] at hrun
      obtain ⟨-, rfl⟩ := Prod.mk.inj hrun
      obtain ⟨above, below, hlength, hlines⟩ := previewLines_eq config header
      refine ⟨header, above, below, hpass, hlength, ?_⟩
      rw [World.output_withLine, hlines, printedLine_joinWith (by simp), List.flatMap_append,
        List.flatMap_cons, List.flatMap_cons, printedLine_shellCommand (by decide +kernel)]
      simp only [List.append_assoc, Configuration.command]
    · rw [Stage.runIn_preview_of_fail hfail] at hrun
      simp at hrun

/-- Raw lines that are empty or hold quotes of both kinds, a backslash and a letter that is not
ASCII. -/
def GeneratorOptions.quotes : GeneratorOptions where
  enumStyle := defaultEnumStyle
  derivePartialEq := true
  deriveDefault := false
  distrustMangling := false
  headLines := ["", "// it's \"é\" \\"]
  output := .ofText "/out dir/sys.rs"

open GeneratorOptions Sample in
theorem readCommand_of_printed_quotes :
    quotes.Utf8 "bindgen" (.ofText "/sdk/VimbaC.h") ∧
      readCommand (shown (shellCommand (quotes.argv "bindgen" (.ofText "/sdk/VimbaC.h"))))
        = some (quotes.argv "bindgen" (.ofText "/sdk/VimbaC.h")) ∧
      ∃ after, (Stage.preview machine configuration).runIn (.initial files) = (.ok (), after) ∧
        ∃ above below : List Text, above.length = 5 ∧
          after.output = above.flatMap printedLine ++ printedLine "Command:"
            ++ printedCommand "  " (configuration.command (.ofText "/sdk/VimbaC.h"))
            ++ below.flatMap printedLine := by
  have hutf8 : quotes.Utf8 "bindgen" (.ofText "/sdk/VimbaC.h") := by
    refine ⟨.ofString _, ⟨"/sdk/VimbaC.h", by decide⟩, .ofString _, fun line hline => ?_,
      ⟨"/out dir/sys.rs", by decide⟩⟩
    simp only [quotes, List.mem_cons, List.not_mem_nil, or_false] at hline
    rcases hline with rfl | rfl <;> exact .ofString _
  have hok : ((Stage.preview machine configuration).runIn (.initial files)).1 = .ok () := by
    decide +kernel
  have hheader : files.findHeader machine.directory configuration.sdk.includeDir libraryHeader
      = .ok (.ofText "/sdk/VimbaC.h") := by decide +kernel
  obtain ⟨hread, -, hpreview⟩ := readCommand_of_printed machine (.initial files)
  rcases hrun : (Stage.preview machine configuration).runIn (.initial files) with ⟨outcome, after⟩
  rw [hrun] at hok
  obtain rfl := hok
  obtain ⟨header, above, below, hpass, hlength, houtput⟩ := hpreview _ _ hrun
  obtain rfl := Except.ok.inj (hpass.1.symm.trans hheader)
  exact ⟨hutf8, (hread _ _ quotes).2 hutf8, after, rfl, above, below, hlength, houtput⟩

end SdkBindings
