import SdkBindings.Production

/-!
The summary of a successful run: ten lines, with one row for each file that was
written.
-/

namespace SdkBindings

namespace Summary

/-- Blanks after a text until it is `width` symbols wide, a stray byte counting
as one. -/
def padRight (width : Nat) (t : Text) : Text :=
  t ++ List.replicate (width - (Symbol.decode t).length) Text.blank

def filenameWidth : Nat := 20

def countWidth : Nat := 6

/-- The row of a written file. -/
def row (file : WrittenFile) : Text :=
  "    " ++ padRight filenameWidth file.filename ++ " " ++
    (Decimal.grouped file.lineCount).padLeft countWidth ++ " lines"

def lines (result : Production) : List Text :=
  [linkedLibrary ++ " bindings generated:",
   [],
   "  Header:     " ++ result.header.text,
   "  Link dir:   " ++ result.libraryDir,
   [],
   "  Files written:",
   row result.sidecar,
   row result.bindings,
   [],
   "  Verify: cargo build"]

end Summary

/-- The summary block, each line with its newline. -/
def Production.summary (result : Production) : Text :=
  (Summary.lines result).flatMap fun line => line ++ [Text.newline]

/-- Prints the summary block. -/
def Stage.printSummary (result : Production) : Stage Unit :=
  emit (shown result.summary)

end SdkBindings
