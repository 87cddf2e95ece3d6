import SdkBindings.Proofs.PrintedCommand
import SdkBindings.Proofs.StrayBytes

/-!
What is printed, field by field.  The words of the program are ASCII and stand between the
fields, so that a field is shown as it would be on its own: what is wrong with its bytes
ends where it ends.  Main statement: a preview, the progress of a run and its summary are
their lines with every field shown by itself, and a text is shown line by line.
-/

namespace SdkBindings

section

variable {label : Text}

/-- Words of the program between two texts part them. -/
theorem shown_append_label (hne : label ≠ []) (h : label.IsAscii) (t rest : Text) :
    shown (t ++ label ++ rest) = shown t ++ label ++ shown rest := by
  cases label with
  | nil => contradiction
  | cons b label =>
      have hlabel := shown_ascii (fun d hd => h d (List.mem_cons_of_mem _ hd)) rest
      rw [List.append_assoc, List.cons_append, shown_append_ascii (h b (List.mem_cons_self ..)),
        hlabel]
      simp

theorem shown_append_last (h : label.IsAscii) (t : Text) :
    shown (t ++ label) = shown t ++ label := by
  cases label with
  | nil => simp
  | cons b label => simpa using shown_append_label (by simp) h t []

/-- Texts with a separator between them are shown one by one. -/
theorem shown_joinWith (hne : label ≠ []) (h : label.IsAscii) (texts : List Text) :
    shown (Text.joinWith label texts) = Text.joinWith label (texts.map shown) := by
  induction texts with
  | nil => rfl
  | cons t others ih =>
      cases others with
      | nil => rfl
      | cons next others =>
          rw [Text.joinWith, shown_append_label hne h, ih]
          rfl

end

theorem newline_not_mem_byteEscape (b : UInt8) : Text.newline ∉ byteEscape b := by
  have hdigit : ∀ n < 16, Text.newline ≠ hexDigit n := by decide
  have hhigh := hdigit (b.toNat / 16) (toNat_div_lt b)
  have hlow := hdigit (b.toNat % 16) (Nat.mod_lt _ (by decide))
  have hbackslash : Text.newline ≠ Escape.backslash := by decide
  have hletter : Text.newline ≠ Escape.letter := by decide
  rw [byteEscape_eq]
  simp [hhigh, hlow, hbackslash, hletter]

/-- No line is broken where it was not. -/
theorem newline_not_mem_shown {t : Text} (h : Text.newline ∉ t) : Text.newline ∉ shown t := by
  induction t using Symbol.reading_induction with
  | nil => exact h
  | scalar c rest ih =>
      rw [List.mem_append, not_or] at h
      rw [shown_char_append, List.mem_append, not_or]
      exact ⟨h.1, ih h.2⟩
  | raw b rest hlead ih =>
      simp only [List.mem_cons, not_or] at h
      rw [shown_raw hlead, List.mem_append, not_or]
      exact ⟨newline_not_mem_byteEscape b, ih h.2⟩

/-- The lines of what is shown are the lines of the text, each of them shown. -/
theorem fields_newline_shown (t : Text) :
    Text.fields Text.newline (shown t) = (Text.fields Text.newline t).map shown := by
  have hlines : shown (Text.joinWith [Text.newline] (Text.fields Text.newline t))
      = Text.joinWith [Text.newline] ((Text.fields Text.newline t).map shown) :=
    shown_joinWith (by simp) (by decide) _
  rw [Text.joinWith_fields] at hlines
  rw [hlines]
  refine Text.fields_joinWith (by simpa using Text.fields_ne_nil _ t) fun line hline => ?_
  obtain ⟨piece, hpiece, rfl⟩ := List.mem_map.mp hline
  exact newline_not_mem_shown (Text.sep_not_mem_of_mem_fields hpiece)

namespace Decimal

theorem ofNat_ascii (n : Nat) : (ofNat n).IsAscii := by
  intro b hb
  obtain ⟨c, hc, rfl⟩ := List.mem_map.mp hb
  have hdigit := Nat.isDigit_of_mem_toDigits (by decide) (by decide) hc
  simp only [Char.isDigit, Bool.and_eq_true, decide_eq_true_eq, UInt32.le_iff_toNat_le] at hdigit
  change 48 ≤ c.toNat ∧ c.toNat ≤ 57 at hdigit
  have hlow : c.toNat % 256 < 128 := by omega
  simpa [UInt8.lt_iff_toNat_lt] using hlow

theorem ofInt_ascii (n : Int) : (ofInt n).IsAscii := by
  cases n with
  | ofNat n => exact ofNat_ascii n
  | negSucc n =>
      intro b hb
      rcases List.mem_cons.mp hb with rfl | hb
      · decide
      · exact ofNat_ascii _ b hb

theorem mem_separate {b : UInt8} {digits : Text} (h : b ∈ separate digits) :
    b = comma ∨ b ∈ digits := by
  fun_induction separate digits with
  | case1 x y z w rest ih =>
      simp only [List.mem_cons] at h ih ⊢
      rcases h with h | h | h | h | h
      · exact .inr (.inl h)
      · exact .inr (.inr (.inl h))
      · exact .inr (.inr (.inr (.inl h)))
      · exact .inl h
      · rcases ih h with hcomma | hrest
        · exact .inl hcomma
        · exact .inr (.inr (.inr (.inr hrest)))
  | case2 => exact .inr h

theorem grouped_ascii (n : Int) : (grouped n).IsAscii := by
  have hgroups : ∀ n, (groupedNat n).IsAscii := by
    intro n b hb
    rw [groupedNat, List.mem_reverse] at hb
    rcases mem_separate hb with rfl | hb
    · decide
    · exact ofNat_ascii n b (List.mem_reverse.mp hb)
  cases n with
  | ofNat n => exact hgroups n
  | negSucc n =>
      intro b hb
      rcases List.mem_cons.mp hb with rfl | hb
      · decide
      · exact hgroups _ b hb

end Decimal

/-- The words of a command line, each of them quoted and shown by itself. -/
def commandFields (argv : List Text) : Text :=
  Text.joinWith [Text.blank] (argv.map fun word => shown (ShellWord.ofText word))

theorem shown_shellCommand (argv : List Text) : shown (shellCommand argv) = commandFields argv := by
  rw [shellCommand, shown_joinWith (by simp) (by decide), List.map_map]
  rfl

/-- A line that begins with words of the program. -/
theorem printedLine_label {label : Text} (h : label.IsAscii) (t : Text) :
    printedLine (label ++ t) = label ++ shown t ++ [Text.newline] := by
  rw [printedLine, shown_ascii h]

/-- A line with words of the program between two fields. -/
theorem printedLine_between (label middle : Text) (h : label.IsAscii)
    (hne : middle ≠ []) (hmiddle : middle.IsAscii) (t rest : Text) :
    printedLine (label ++ t ++ middle ++ rest)
      = label ++ shown t ++ middle ++ shown rest ++ [Text.newline] := by
  rw [printedLine, shown_append_label hne hmiddle, shown_ascii h]

theorem shown_ofString (s : String) : shown (Text.ofString s) = Text.ofString s :=
  shown_of_isUtf8 (.ofString s)

theorem shown_indented (line : Text) : shown (indented line) = indented (shown line) :=
  shown_ascii (by decide) line

/-- Lines that are shown, with a newline behind each. -/
theorem flatMap_printedLine (lines : List Text) :
    lines.flatMap printedLine = (lines.map shown).flatMap fun line => line ++ [Text.newline] := by
  rw [List.flatMap_map]
  rfl

namespace Configuration

/-- The lines of a preview, with their fields shown by themselves. -/
def previewFields (config : Configuration) (header : Path) : List Text :=
  ["Header:      " ++ shown header.text,
   "Library dir: " ++ shown config.sdk.libraryDir.text,
   "Sidecar:     " ++ shown config.sidecar.text,
   "Output:      " ++ shown config.output.text,
   [],
   "Command:",
   indented (commandFields (config.command header)),
   [],
   "Link directives:",
   indented "cargo:rerun-if-changed=libdir",
   indented ("cargo:rustc-link-lib=dylib=" ++ linkedLibrary),
   indented ("cargo:rustc-link-search=native=" ++ shown config.sdk.libraryDir.text)]

theorem map_shown_previewLines (config : Configuration) (header : Path) :
    (previewLines config header).map shown = config.previewFields header := by
  have hlibrary : shown linkedLibrary = linkedLibrary := shown_ofString _
  simp (disch := decide) only [previewLines, linkDirectives, previewFields, List.map_cons,
    List.map_nil, List.cons_append, List.nil_append, shown_ascii, shown_ofString, shown_indented,
    shown_nil, shown_shellCommand, hlibrary]
  rfl

/-- The texts of the stages of a run, with their fields shown by themselves. -/
def progressFields (machine : Machine) (config : Configuration) (files : FileSystem) :
    List (Option Text) :=
  [some ("Resolving: " ++ shown (config.sdk.includeDir.child libraryHeader).text
     ++ [Text.newline]),
   (header? machine config files).map fun header =>
     "  Header: " ++ shown header.text ++ [Text.newline],
   if config.checkLibraryDir then
     (files.checkLibraryDir machine.directory config.sdk.libraryDir).toOption.map fun _ =>
       "  Library: " ++ shown config.sdk.libraryDir.text ++ " (checked)" ++ [Text.newline]
   else some [],
   (recorded? machine config files).map fun (_, sidecar) =>
     "  Link dir: " ++ shown config.sdk.libraryDir.text ++ " -> " ++ shown sidecar.path.text
       ++ [Text.newline],
   (prepared? machine config files).bind fun _ => (header? machine config files).map fun header =>
     "  Running: " ++ commandFields (config.command header) ++ [Text.newline],
   (started? machine config files).map fun (_, execution) => execution.program.output,
   (result? machine config files).map fun result =>
     "  Written: " ++ Decimal.ofInt result.bindings.lineCount ++ " lines to "
       ++ shown result.bindings.path.text ++ [Text.newline]]

theorem progress_eq_progressFields (machine : Machine) (config : Configuration)
    (files : FileSystem) : progress machine config files = progressFields machine config files := by
  have hchecked := printedLine_between "  Library: " " (checked)" (by decide) (by decide)
    (by decide) config.sdk.libraryDir.text []
  have hrecorded := printedLine_between "  Link dir: " " -> " (by decide) (by decide)
    (by decide) config.sdk.libraryDir.text
  have hwritten : ∀ bindings : WrittenFile, Text.IsAscii
      ("  Written: " ++ Decimal.ofInt bindings.lineCount ++ " lines to ") := by
    intro bindings
    exact .append (.append (by decide) (Decimal.ofInt_ascii _)) (by decide)
  rw [List.append_nil, shown_nil, List.append_nil] at hchecked
  simp (disch := decide) only [progress, progressFields, libraryLine?, hchecked, hrecorded,
    printedLine_label (hwritten _), printedLine_label, shown_shellCommand]

end Configuration

namespace Summary

/-- The row of a written file, with its name shown by itself. -/
def rowFields (file : WrittenFile) : Text :=
  "    " ++ (shown file.filename
      ++ List.replicate (filenameWidth - (Symbol.decode file.filename).length) Text.blank)
    ++ " " ++ (Decimal.grouped file.lineCount).padLeft countWidth ++ " lines"

/-- The lines of a summary, with their fields shown by themselves. -/
def lineFields (result : Production) : List Text :=
  [linkedLibrary ++ " bindings generated:",
   [],
   "  Header:     " ++ shown result.header.text,
   "  Link dir:   " ++ shown result.libraryDir,
   [],
   "  Files written:",
   rowFields result.sidecar,
   rowFields result.bindings,
   [],
   "  Verify: cargo build"]

theorem shown_row (file : WrittenFile) : shown (row file) = rowFields file := by
  have hpadding : ∀ n, Text.IsAscii (List.replicate n Text.blank) := by
    intro n b hb
    rw [(List.mem_replicate.mp hb).2]
    decide
  have hcount : ((Decimal.grouped file.lineCount).padLeft countWidth).IsAscii :=
    (hpadding _).append (Decimal.grouped_ascii _)
  rw [row, rowFields, shown_append_last (by decide), shown_append_last hcount,
    shown_append_last (by decide), shown_ascii (by decide), padRight,
    shown_append_last (hpadding _)]

theorem map_shown_lines (result : Production) : (lines result).map shown = lineFields result := by
  simp (disch := decide) only [lines, lineFields, List.map_cons, List.map_nil, shown_ascii,
    shown_ofString, shown_nil, shown_row, linkedLibrary]

end Summary

/-- A separator of ASCII parts the texts on its sides also where they are shown, and a newline
the lines.  So each field of a preview, of a line of progress and of a summary is printed as it
would be by itself, whatever stands in the fields and lines beside it. -/
theorem printed_fieldwise :
    (∀ (sep : Text) texts, sep ≠ [] → sep.IsAscii →
      shown (Text.joinWith sep texts) = Text.joinWith sep (texts.map shown)) ∧
    (∀ t, Text.fields Text.newline (shown t) = (Text.fields Text.newline t).map shown) ∧
    (∀ machine config start after, (Stage.preview machine config).runIn start = (.ok (), after) →
      ∃ header, ChecksPass machine config start.files header ∧ after.output = start.output
        ++ (config.previewFields header).flatMap fun line => line ++ [Text.newline]) ∧
    (∀ machine config start, ((Stage.produce machine config).runIn start).2.output
      = start.output ++ untilMissing (config.progressFields machine start.files)) ∧
    ∀ result start, ((Stage.printSummary result).runIn start).2.output
      = start.output ++ (Summary.lineFields result).flatMap fun line => line ++ [Text.newline] := by
  refine ⟨fun sep texts hne hascii => shown_joinWith hne hascii texts, fields_newline_shown,
    fun machine config start after hrun => ?_, fun machine config start => ?_,
    fun result start => ?_⟩
  · rcases Stage.checksPass_or_checksFail machine config start.files with
      ⟨header, hpass⟩ | ⟨fault, hfail⟩
    · rw [Stage.runIn_preview_of_pass hpass] at hrun
      obtain ⟨-, rfl⟩ := Prod.mk.inj hrun
      refine ⟨header, hpass, ?_⟩
      rw [World.output_withLine, printedLine_joinWith (by simp [previewLines]),
        flatMap_printedLine, Configuration.map_shown_previewLines]
    · rw [Stage.runIn_preview_of_fail hfail] at hrun
      simp at hrun
  · rw [output_of_produce, Configuration.progress_eq_progressFields]
  · rw [← Summary.map_shown_lines, ← flatMap_printedLine, ← shown_flatMap_lines]
    exact World.output_withPrinted start _

/-- The first two bytes of a sequence of three stand before a separator and the third behind
it. -/
theorem printed_fieldwise_truncated :
    (" -> " : Text) ≠ [] ∧ Text.IsAscii " -> " ∧
      shown (Text.joinWith " -> " [[0xe2, 0x82], [0xac]])
        = Text.joinWith " -> " [shown [0xe2, 0x82], shown [0xac]] ∧
      ∃ after, (Stage.preview Sample.machine Sample.configuration).runIn (.initial Sample.files)
          = (.ok (), after) ∧
        after.output = (Sample.configuration.previewFields (.ofText "/sdk/VimbaC.h")).flatMap
          fun line => line ++ [Text.newline] := by
  obtain ⟨hjoined, -, hpreview, -⟩ := printed_fieldwise
  have hne : (" -> " : Text) ≠ [] := by decide
  have hascii : Text.IsAscii " -> " := by decide
  have hok : ((Stage.preview Sample.machine Sample.configuration).runIn
      (.initial Sample.files)).1 = .ok () := by decide +kernel
  have hheader : Sample.files.findHeader Sample.machine.directory
      Sample.configuration.sdk.includeDir libraryHeader = .ok (.ofText "/sdk/VimbaC.h") := by
    decide +kernel
  refine ⟨hne, hascii, hjoined _ _ hne hascii, ?_⟩
  rcases hrun : (Stage.preview Sample.machine Sample.configuration).runIn (.initial Sample.files)
    with ⟨outcome, after⟩
  rw [hrun] at hok
  obtain rfl := hok
  obtain ⟨header, hpass, houtput⟩ := hpreview _ _ _ _ hrun
  obtain rfl := Except.ok.inj (hpass.1.symm.trans hheader)
  exact ⟨after, rfl, houtput⟩

end SdkBindings
