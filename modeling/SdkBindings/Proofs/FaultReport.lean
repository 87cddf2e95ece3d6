import SdkBindings.Proofs.Confinement
import SdkBindings.Proofs.ExitStatus
import SdkBindings.Proofs.QuotedName

/-!
The report of a refused system call on a file.  Main statement: the report is one line of
characters with a visible shape, printed as it stands, and the bytes of the file's name are
read back from it.
-/

namespace SdkBindings

/-- A character that moves the cursor, or steers the terminal in another way. -/
def IsControl (c : Char) : Prop :=
  c.toNat < 0x20 ∨ 0x7f ≤ c.toNat ∧ c.toNat < 0xa0

/-- A text of characters with a visible shape, or blanks. -/
def Text.IsVisible (t : Text) : Prop :=
  ∃ chars : List Char, t = chars.flatMap String.utf8EncodeChar ∧
    ∀ c ∈ chars, isInvisible c = false

theorem not_isControl_of_visible {c : Char} (h : isInvisible c = false) : ¬ IsControl c := by
  intro hcontrol
  have hranges : invisibleRanges = (0x0, 0x1f) :: (0x7f, 0xa0) :: invisibleRanges.drop 2 := rfl
  rw [isInvisible, hranges, inRanges, inRanges] at h
  simp only [Bool.and_eq_false_iff, Bool.or_eq_false_iff, decide_eq_false_iff_not] at h
  rw [IsControl] at hcontrol
  omega

namespace Text.IsVisible

theorem nil : IsVisible [] := ⟨[], rfl, by simp⟩

theorem encode {c : Char} (h : isInvisible c = false) : IsVisible (String.utf8EncodeChar c) :=
  ⟨[c], by simp, by simpa using h⟩

theorem append {t rest : Text} : IsVisible t → IsVisible rest → IsVisible (t ++ rest) := by
  rintro ⟨chars, rfl, hchars⟩ ⟨others, rfl, hothers⟩
  exact ⟨chars ++ others, by simp, List.forall_mem_append.mpr ⟨hchars, hothers⟩⟩

theorem flatMap {α : Type} {f : α → Text} (items : List α)
    (h : ∀ item ∈ items, IsVisible (f item)) : IsVisible (items.flatMap f) := by
  induction items with
  | nil => exact nil
  | cons item items ih =>
      rw [List.flatMap_cons]
      exact (h item (List.mem_cons_self ..)).append
        (ih fun other hother => h other (List.mem_cons_of_mem _ hother))

theorem isUtf8 {t : Text} : IsVisible t → t.IsUtf8 := by
  rintro ⟨chars, rfl, -⟩
  exact .flatMap chars fun c _ => .encode c

theorem newline_not_mem {t : Text} : IsVisible t → Text.newline ∉ t := by
  rintro ⟨chars, rfl, hchars⟩ hmem
  obtain ⟨c, hc, hnewline⟩ := List.mem_flatMap.mp hmem
  refine Symbol.not_mem_encode (by decide) (by decide : String.utf8EncodeChar '\n' = _) ?_
    hnewline
  rintro rfl
  exact absurd (hchars _ hc) (by decide)

end Text.IsVisible

/-- A text of blanks and visible characters of ASCII. -/
def Text.IsPrintable (t : Text) : Prop :=
  ∀ b ∈ t, 32 ≤ b ∧ b < 127

instance : DecidablePred Text.IsPrintable :=
  fun t => decidable_of_iff (t.all (fun b => 32 ≤ b ∧ b < 127) = true)
    (by simp [Text.IsPrintable])

theorem Text.IsPrintable.append {t rest : Text} :
    IsPrintable t → IsPrintable rest → IsPrintable (t ++ rest) :=
  fun h hrest => List.forall_mem_append.mpr ⟨h, hrest⟩

theorem Text.IsPrintable.isVisible {t : Text} (h : t.IsPrintable) : t.IsVisible := by
  have hshape : ∀ n < 127, 32 ≤ n → isInvisible (Char.ofNat n) = false := by decide
  rw [← List.flatMap_singleton' t]
  refine .flatMap t fun b hb => ?_
  obtain ⟨hlow, hhigh⟩ := h b hb
  rw [UInt8.le_iff_toNat_le] at hlow
  rw [UInt8.lt_iff_toNat_lt] at hhigh
  have hascii : b < 0x80 := UInt8.lt_iff_toNat_lt.mpr (Nat.lt_trans hhigh (by decide))
  rw [← Symbol.encode_ascii hascii]
  exact .encode (hshape _ hhigh hlow)

theorem isPrintable_hexDigits (width n : Nat) : (hexDigits width n).IsPrintable := by
  have hdigit : ∀ n < 16, Text.IsPrintable [hexDigit n] := by decide
  induction width generalizing n with
  | zero => simp [hexDigits, Text.IsPrintable]
  | succ width ih =>
      rw [hexDigits]
      exact (ih _).append (hdigit _ (Nat.mod_lt _ (by decide)))

theorem Quoted.isVisible_numbered (n : Nat) : (numbered n).IsVisible := by
  have hletter : Text.IsPrintable (escaped 'x') ∧ Text.IsPrintable (escaped 'u') ∧
      Text.IsPrintable (escaped 'U') := by
    decide
  unfold numbered
  split
  · exact (hletter.1.append (isPrintable_hexDigits 2 n)).isVisible
  split
  · exact (hletter.2.1.append (isPrintable_hexDigits 4 n)).isVisible
  · exact (hletter.2.2.append (isPrintable_hexDigits 8 n)).isVisible

theorem Quoted.isVisible_symbol {q : Char} {quote : UInt8} (hq : NameReader.IsQuote q quote)
    (s : Symbol) : (symbol q s).IsVisible := by
  have hescaped : ∀ c : Char, Text.IsPrintable (escaped c) → (escaped c).IsVisible :=
    fun c h => h.isVisible
  cases s with
  | raw b => exact isVisible_numbered _
  | scalar c =>
      unfold symbol
      simp only
      split
      · next hspecial =>
        rcases hspecial with rfl | rfl
        · cases hq with
          | single => exact hescaped singleQuote (by decide)
          | double => exact hescaped doubleQuote (by decide)
        · exact hescaped '\\' (by decide)
      split
      · exact hescaped 't' (by decide)
      split
      · exact hescaped 'n' (by decide)
      split
      · exact hescaped 'r' (by decide)
      split
      · exact isVisible_numbered _
      · next hvisible => exact .encode (by simpa using hvisible)

/-- A quoted name is visible. -/
theorem isVisible_quoted (name : Text) : (quoted name).IsVisible := by
  obtain ⟨quote, hq⟩ := NameReader.isQuote_delimiter (Symbol.decode name)
  have hdelimiter : Text.IsVisible
      (String.utf8EncodeChar (Quoted.delimiter (Symbol.decode name))) := by
    have hprintable : Text.IsPrintable [quote] := by
      rcases hq.kind with rfl | rfl <;> decide
    rw [hq.encode]
    exact hprintable.isVisible
  exact (hdelimiter.append (.flatMap _ fun s _ => Quoted.isVisible_symbol hq s)).append hdelimiter

/-- The words in front of a file's name. -/
def Errno.label (reason : Errno) : Text :=
  "Error: [Errno " ++ Decimal.ofNat reason.number ++ "] " ++ Text.ofString reason.message ++ ": "

/-- The line that reports a refused call on a file. -/
def fileReport (reason : Errno) (name : Text) : Text :=
  reason.label ++ quoted name

/-- The name in a report: what stands between the first quote and the end. -/
def readReport (line : Text) : Option Text :=
  readQuoted (line.dropWhile fun b => b ≠ NameReader.singleQuote ∧ b ≠ NameReader.doubleQuote)

theorem Errno.isPrintable_label (reason : Errno) : reason.label.IsPrintable := by
  cases reason <;> decide

/-- The words hold no quote. -/
theorem Errno.quote_not_mem_label (reason : Errno) :
    NameReader.singleQuote ∉ reason.label ∧ NameReader.doubleQuote ∉ reason.label := by
  cases reason <;> decide

theorem isVisible_fileReport (reason : Errno) (name : Text) : (fileReport reason name).IsVisible :=
  reason.isPrintable_label.isVisible.append (isVisible_quoted name)

theorem readReport_fileReport (reason : Errno) (name : Text) :
    readReport (fileReport reason name) = some name := by
  obtain ⟨quote, hq⟩ := NameReader.isQuote_delimiter (Symbol.decode name)
  have hlabel : ∀ b ∈ reason.label,
      decide (b ≠ NameReader.singleQuote ∧ b ≠ NameReader.doubleQuote) = true := by
    obtain ⟨hsingle, hdouble⟩ := reason.quote_not_mem_label
    exact fun b hb => decide_eq_true ⟨fun h => hsingle (h ▸ hb), fun h => hdouble (h ▸ hb)⟩
  have hquoted : (quoted name).dropWhile
      (fun b => b ≠ NameReader.singleQuote ∧ b ≠ NameReader.doubleQuote) = quoted name := by
    unfold quoted
    simp only [hq.encode, List.cons_append, List.nil_append]
    refine List.dropWhile_cons_of_neg ?_
    rcases hq.kind with rfl | rfl <;> decide
  rw [readReport, fileReport, List.dropWhile_append_of_pos hlabel, hquoted, readQuoted_quoted]

/-- A file's name in a fault is reported. -/
theorem report_system (reason : Errno) (name : Text) :
    (Fault.system reason (some name)).report = [fileReport reason name] := by
  have hwords : Text.ofString "Error: [Errno " = Text.ofString "Error: " ++ "[Errno " := by decide
  simp [Fault.report, systemMessage, fileReport, Errno.label, hwords]

/-- A system call on a file that is refused and ends a run is reported on one line behind what
is on the error stream: the number and the text of the reason, and the name of the file in
quotes.  The line is UTF-8 without a control or another character that could not be seen, and
it is printed as it stands.  The name is read back from its quoted form, and from the whole
line, so that the reports of two files differ. -/
theorem report_of_faulted {machine : Machine} {places : Places} {argv : List Text}
    {files : FileSystem} {reason : Errno} {name : Text} {world : World}
    (hfault : Faulted machine places argv files (.system reason (some name)) world) :
    ∃ line : Text,
      (Stage.runCommandLine machine places argv).runIn (World.initial files) =
        (.ok (.exited 1), { world with errors := world.errors ++ line ++ [Text.newline] }) ∧
      line = "Error: [Errno " ++ Decimal.ofNat reason.number ++ "] " ++
        Text.ofString reason.message ++ ": " ++ quoted name ∧
      (∃ chars : List Char, line = chars.flatMap String.utf8EncodeChar ∧
        ∀ c ∈ chars, ¬ IsControl c ∧ isInvisible c = false) ∧
      Text.newline ∉ line ∧
      readQuoted (quoted name) = some name ∧
      readReport line = some name ∧
      ∀ reason' name', fileReport reason' name' = line → name' = name := by
  have hvisible := isVisible_fileReport reason name
  refine ⟨fileReport reason name, ?_, rfl, ?_, hvisible.newline_not_mem, readQuoted_quoted name,
    readReport_fileReport reason name, fun reason' name' hsame => ?_⟩
  · rw [runIn_of_faulted hfault, report_system]
    simp [Fault.runEnd, World.withComplaints, shown_of_isUtf8 hvisible.isUtf8]
  · obtain ⟨chars, hline, hchars⟩ := hvisible
    exact ⟨chars, hline, fun c hc => ⟨not_isControl_of_visible (hchars c hc), hchars c hc⟩⟩
  · have hread := readReport_fileReport reason' name'
    rw [hsame, readReport_fileReport] at hread
    exact (Option.some.inj hread).symm

namespace Quirky

/-- A name with both quotes, what looks like an escape, a newline, a stray byte and a character
without a shape, in a directory that is missing. -/
def name : Text :=
  "gone/it's \"\\xff" ++ [Text.newline, 0xff, 0xe2, 0x80, 0x8b]

def configuration : Configuration :=
  { Sample.configuration with sidecar := .ofText name }

def argv : List Text :=
  ["--include-dir=/sdk", "--library-dir=/lib", "--output=out/sys.rs",
   "--sidecar=" ++ name, "--bindgen=./bindgen"]

def report : Text :=
  "Error: [Errno 2] No such file or directory: 'gone/it\\'s \"\\\\xff\\n\\udcff\\u200b'"

end Quirky

open Quirky in
theorem report_of_faulted_quirky : ∃ world,
    Faulted Sample.machine Sample.places argv Sample.files (.system .noEntry (some name)) world ∧
      (Stage.runCommandLine Sample.machine Sample.places argv).runIn (World.initial Sample.files) =
        (.ok (.exited 1), { world with errors := world.errors ++ report ++ [Text.newline] }) ∧
      readReport report = some name := by
  have hconfig : Configured Sample.places argv configuration := by
    refine ⟨(Arguments.defaults Sample.places).setValue (.given "/sdk") .includeDir
      |>.setValue (.given "/lib") .libraryDir |>.setValue (.given "out/sys.rs") .output
      |>.setValue (.given name) .sidecar |>.setValue (.given "./bindgen") .generator, ?_, ?_⟩
    · decide +kernel
    · decide +kernel
  have hstopped : ((Stage.produce Sample.machine configuration).runIn
      (World.initial Sample.files)).1 = .error (.system .noEntry (some name)) := by
    decide +kernel
  rcases hrun : (Stage.produce Sample.machine configuration).runIn (World.initial Sample.files)
    with ⟨outcome, world⟩
  rw [hrun] at hstopped
  obtain rfl := hstopped
  obtain ⟨milestone, mid, hreached, hstopped⟩ := Stage.runIn_produce_eq_error_iff.mp hrun
  have hfault := Faulted.produced hconfig rfl hreached hstopped
  obtain ⟨line, hend, hline, -, -, -, hread, -⟩ := report_of_faulted hfault
  have hreport : line = report := by
    rw [hline]
    decide +kernel
  rw [hreport] at hend hread
  exact ⟨world, hfault, hend, hread⟩

end SdkBindings
