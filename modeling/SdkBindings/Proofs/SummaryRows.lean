import SdkBindings.Proofs.GroupedDigits

/-!
The summary of a run, line by line.  Main statement: it ends with one newline, it has ten
lines if its texts hold no newline, and each of the two rows for files is read back: its name
stands in a column of symbols and its count in a column of bytes.
-/

namespace SdkBindings

namespace Symbol

/-- Each byte of ASCII behind a text is a symbol of its own. -/
theorem length_decode_append_replicate {b : UInt8} (hb : b < 0x80) (t : Text) (n : Nat) :
    (decode (t ++ List.replicate n b)).length = (decode t).length + n := by
  induction n with
  | zero => simp
  | succ n ih =>
      have hborder : ¬ Straddles (t ++ List.replicate n b) [b] :=
        not_straddles_cons (not_isContinuation_of_ascii hb) _ []
      have hlast : (decode [b]).length = 1 := by
        have hchar := decode_char_append (Char.ofNat b.toNat) []
        rw [encode_ascii hb] at hchar
        rw [← List.append_nil [b], hchar]
        rfl
      rw [List.replicate_succ', ← List.append_assoc, decode_append hborder, List.length_append,
        ih, hlast]
      omega

end Symbol

namespace Text

/-- A blank in front of a column is one behind the blanks that widen it. -/
theorem blank_append_padLeft (width : Nat) (t : Text) :
    Text.ofString " " ++ t.padLeft width =
      List.replicate (width - t.length) blank ++ blank :: t := by
  have hturned : ∀ n, Text.ofString " " ++ List.replicate n blank =
      List.replicate n blank ++ [blank] := by
    intro n
    rw [← List.replicate_succ']
    rfl
  rw [padLeft, ← List.append_assoc, hturned, List.append_assoc]
  rfl

/-- Lines with a newline behind each of them are told apart. -/
theorem fields_flatMap_newline {lines : List Text} (hne : lines ≠ [])
    (h : ∀ line ∈ lines, newline ∉ line) :
    fields newline (lines.flatMap fun line => line ++ [newline]) = lines ++ [[]] := by
  rw [← joinWith_append_newline hne, fields_append_cons, fields_joinWith hne h]
  rfl

end Text

namespace Summary

/-- The row of a file that has so many lines: its name, in a column that is twenty symbols
wide, and its count, in a column that is six bytes wide. -/
def IsRow (file : WrittenFile) (count : Nat) (line : Text) : Prop :=
  ∃ blanks field,
    line = "    " ++ (file.filename ++ List.replicate blanks Text.blank) ++ " " ++ field
      ++ " lines" ∧
    (Symbol.decode (file.filename ++ List.replicate blanks Text.blank)).length =
      max 20 (Symbol.decode file.filename).length ∧
    Decimal.InColumn 6 count field

theorem grouped_natCast (n : Nat) : Decimal.grouped n = Decimal.groupedNat n := rfl

theorem isRow_row {file : WrittenFile} {count : Nat} (h : file.lineCount = count) :
    IsRow file count (row file) := by
  refine ⟨_, _, rfl, ?_, ?_⟩
  · rw [Symbol.length_decode_append_replicate (by decide), filenameWidth]
    omega
  · rw [h, grouped_natCast]
    exact Decimal.inColumn_padLeft 6 count

/-- The number in the last word but one of a row. -/
def readCount (line : Text) : Nat :=
  Decimal.read ((Text.fields Text.blank line).dropLast.getLastD [])

theorem readCount_row {file : WrittenFile} {count : Nat} (h : file.lineCount = count) :
    readCount (row file) = count := by
  have hblank : Text.blank ∉ Decimal.groupedNat count :=
    Decimal.not_mem_groupedNat (by decide) (by decide) count
  obtain ⟨-, -, -, -, -, -, hread⟩ := Decimal.groupedNat_cases count
  obtain ⟨before, hrow⟩ : ∃ before, row file =
      before ++ Text.blank ::
        (Decimal.groupedNat count ++ Text.blank :: Text.ofString "lines") := by
    refine ⟨"    " ++ padRight filenameWidth file.filename ++
      List.replicate (countWidth - (Decimal.groupedNat count).length) Text.blank, ?_⟩
    have hlast : Text.ofString " lines" = Text.blank :: Text.ofString "lines" := by decide
    rw [row, h, grouped_natCast, hlast, List.append_assoc (_ ++ padRight _ _),
      Text.blank_append_padLeft]
    simp only [List.append_assoc, List.cons_append]
  have hfields : Text.fields Text.blank (row file) =
      Text.fields Text.blank before ++ [Decimal.groupedNat count] ++
        [Text.ofString "lines"] := by
    rw [hrow, Text.fields_append_cons, Text.fields_append_sep hblank,
      Text.fields_eq_of_not_mem (by decide : Text.blank ∉ Text.ofString "lines"),
      List.append_assoc]
    rfl
  rw [readCount, hfields, List.dropLast_concat, List.getLastD_concat, hread]

theorem newline_not_mem_row {file : WrittenFile} {count : Nat} (h : file.lineCount = count)
    (hname : Text.newline ∉ file.filename) : Text.newline ∉ row file := by
  have hcount : Text.newline ∉ Decimal.groupedNat count :=
    Decimal.not_mem_groupedNat (by decide) (by decide) count
  have hblanks : ∀ n, Text.newline ∉ List.replicate n Text.blank :=
    fun n hmem => absurd (List.mem_replicate.mp hmem).2 (by decide)
  have hwords : Text.newline ∉ Text.ofString "    " ∧ Text.newline ∉ Text.ofString " " ∧
      Text.newline ∉ Text.ofString " lines" := by
    decide
  rw [row, h, grouped_natCast, padRight, Text.padLeft]
  simp only [List.mem_append, not_or]
  exact ⟨⟨⟨⟨hwords.1, hname, hblanks _⟩, hwords.2.1⟩, hblanks _, hcount⟩, hwords.2.2⟩

/-- The words of the program do not break a line. -/
theorem newline_not_mem_lines {result : Production}
    (hheader : Text.newline ∉ result.header.text) (hdir : Text.newline ∉ result.libraryDir)
    (hsidecar : Text.newline ∉ row result.sidecar)
    (hbindings : Text.newline ∉ row result.bindings) :
    ∀ line ∈ lines result, Text.newline ∉ line := by
  have hlabel : Text.newline ∉ Text.ofString "  Header:     " ∧
      Text.newline ∉ Text.ofString "  Link dir:   " := by
    decide
  have hword : (Text.newline ∉ linkedLibrary ∧
        Text.newline ∉ Text.ofString " bindings generated:") ∧
      Text.newline ∉ Text.ofString "  Files written:" ∧
      Text.newline ∉ Text.ofString "  Verify: cargo build" := by
    decide
  simp only [lines, List.forall_mem_cons, List.mem_append, not_or, List.not_mem_nil,
    not_false_eq_true, true_and, false_imp_iff, implies_true, and_true]
  exact ⟨hword.1, ⟨hlabel.1, hheader⟩, ⟨hlabel.2, hdir⟩, hword.2.1, hsidecar, hbindings,
    hword.2.2⟩

theorem fields_newline_summary {result : Production}
    (h : ∀ line ∈ lines result, Text.newline ∉ line) :
    Text.fields Text.newline result.summary = lines result ++ [[]] :=
  Text.fields_flatMap_newline (List.cons_ne_nil _ _) h

/-- There is one newline behind the last line. -/
theorem summary_eq (result : Production) : ∃ body, result.summary = body ++ [Text.newline] ∧
    body.getLast? ≠ some Text.newline := by
  have hlast : (Text.ofString "  Verify: cargo build").getLast? = some 100 := by decide
  have hlines : lines result =
      (lines result).dropLast ++ [Text.ofString "  Verify: cargo build"] := rfl
  refine ⟨((lines result).dropLast.flatMap fun line => line ++ [Text.newline])
    ++ Text.ofString "  Verify: cargo build", ?_, ?_⟩
  · rw [Production.summary, hlines, List.flatMap_append]
    simp
  · rw [List.getLast?_append, hlast, Option.some_or]
    decide

end Summary

open Summary in
/-- A summary ends with one newline, and if nothing in it breaks a line, it has ten lines, with
the two rows at the seventh and at the eighth.  In a row the name stands in front of a column
with the number of lines, in decimal, with a comma between groups of three digits.  This number
is read back from the row, so that files with another number of lines have other rows. -/
theorem summary_rows (result : Production) (sidecarCount bindingsCount : Nat)
    (hsidecar : result.sidecar.lineCount = sidecarCount)
    (hbindings : result.bindings.lineCount = bindingsCount) :
    (∃ body, result.summary = body ++ [Text.newline] ∧ body.getLast? ≠ some Text.newline) ∧
    (Text.newline ∉ result.header.text → Text.newline ∉ result.libraryDir →
      Text.newline ∉ result.sidecar.filename → Text.newline ∉ result.bindings.filename →
      ∃ printed, Text.fields Text.newline result.summary = printed ++ [[]] ∧
        printed.length = 10 ∧ printed[6]? = some (row result.sidecar) ∧
        printed[7]? = some (row result.bindings)) ∧
    IsRow result.sidecar sidecarCount (row result.sidecar) ∧
    IsRow result.bindings bindingsCount (row result.bindings) ∧
    readCount (row result.sidecar) = sidecarCount ∧
    readCount (row result.bindings) = bindingsCount ∧
    ∀ (file file' : WrittenFile) (count count' : Nat), file.lineCount = count →
      file'.lineCount = count' → row file = row file' → count = count' := by
  refine ⟨summary_eq result, fun hheader hdir hname hname' => ?_, isRow_row hsidecar,
    isRow_row hbindings, readCount_row hsidecar, readCount_row hbindings, ?_⟩
  · have hlines := newline_not_mem_lines hheader hdir (newline_not_mem_row hsidecar hname)
      (newline_not_mem_row hbindings hname')
    exact ⟨lines result, fields_newline_summary hlines, rfl, rfl, rfl⟩
  · intro file file' count count' hcount hcount' hsame
    rw [← readCount_row hcount, hsame, readCount_row hcount']

namespace Grouped

/-- A stray byte in one of the names, and a number of lines that is wider than its column. -/
def production : Production where
  header := .ofText "/sdk/VimbaC.h"
  libraryDir := "/opt/lib"
  sidecarPath := .ofText "libdir"
  sidecar := ⟨[0x64, 0x69, 0x72, 0xff], .ofText "/libdir", 1, 9⟩
  bindings := ⟨"vimba_sys.rs", .ofText "/vimba_sys.rs", 1234567, 40000000⟩

def sidecarRow : Text :=
  Text.ofString "    dir" ++ [0xff] ++ Text.ofString "                      1 lines"

def bindingsRow : Text := "    vimba_sys.rs         1,234,567 lines"

end Grouped

open Grouped Summary in
/-- The stray byte is one symbol in the column of the names. -/
theorem summary_rows_grouped :
    production.sidecar.lineCount = (1 : Nat) ∧ production.bindings.lineCount = (1234567 : Nat) ∧
      (∃ printed, Text.fields Text.newline production.summary = printed ++ [[]] ∧
        printed.length = 10 ∧
        printed[6]? = some sidecarRow ∧ printed[7]? = some bindingsRow) ∧
      readCount bindingsRow = 1234567 := by
  have hsidecar : production.sidecar.lineCount = (1 : Nat) := rfl
  have hbindings : production.bindings.lineCount = (1234567 : Nat) := rfl
  have hfirst : row production.sidecar = sidecarRow := by decide +kernel
  have hsecond : row production.bindings = bindingsRow := by decide +kernel
  obtain ⟨-, hlines, -, -, -, hread, -⟩ := summary_rows production 1 1234567 hsidecar hbindings
  have hprinted := hlines (by decide) (by decide) (by decide) (by decide)
  rw [hfirst, hsecond] at hprinted
  exact ⟨hsidecar, hbindings, hprinted, hsecond ▸ hread⟩

end SdkBindings
