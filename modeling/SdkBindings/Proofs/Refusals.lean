import SdkBindings.Run
import SdkBindings.Proofs.Occurrences

/-!
Command lines that give no values.  Main statement: such a command line ends in the help
text and success if all its arguments before two dashes can be read and a request for help
is reached behind uses of options and stray arguments; otherwise it ends in a report of a
misuse.  Nothing else happens in either case.
-/

namespace SdkBindings

namespace CommandLine

/-- No argument before two dashes begins the spellings of several options. -/
def Clear (argv : List Text) : Prop :=
  ∀ t ∈ argv.takeWhile (· ≠ Argument.dividerText), ¬ Argument.Ambiguous t

/-- A request for help stands behind uses of options and stray arguments. -/
def ReachesHelp (argv : List Text) : Prop :=
  Clear argv ∧ ∃ (pieces : List Piece) (help : Text) (rest : List Text),
    argv = pieces.flatMap Piece.tokens ++ help :: rest ∧ Argument.AsksHelp help

theorem clear_cons {t : Text} (hne : t ≠ Argument.dividerText) (rest : List Text) :
    Clear (t :: rest) ↔ ¬ Argument.Ambiguous t ∧ Clear rest := by
  simp [Clear, hne]

theorem clear_of_append {front rest : List Text} (hfront : ∀ t ∈ front, t ≠ Argument.dividerText)
    (h : Clear (front ++ rest)) : Clear rest := by
  intro t ht
  apply h t
  rw [List.takeWhile_append_of_pos (by simpa using hfront)]
  exact List.mem_append_right _ ht

/-- All arguments before two dashes are read one by one unless one is refused. -/
theorem readAll_eq_ok_iff (argv : List Text) :
    (∃ arguments, Argument.readAll argv = .ok arguments) ↔ Clear argv := by
  induction argv with
  | nil => exact ⟨fun _ t ht => by simp at ht, fun _ => ⟨[], rfl⟩⟩
  | cons t rest ih =>
      by_cases hne : t = Argument.dividerText
      · subst hne
        refine ⟨fun _ u hu => ?_, fun _ => ⟨_, if_pos rfl⟩⟩
        simp at hu
      · rw [clear_cons hne, ← ih, ← Argument.read_eq_error_iff hne, Argument.readAll, if_neg hne]
        cases hread : Argument.read t with
        | error misuse => simp
        | ok reading =>
            cases Argument.readAll rest with
            | error misuse => simp
            | ok arguments => simp

/-- Help is what a command line ends in exactly if its reading reaches a request for it. -/
theorem parse_eq_help_iff (values : Arguments) (argv : List Text) :
    parse values argv = .error .help ↔ ReachesHelp argv := by
  constructor
  · intro hparse
    have hclear : Clear argv := by
      rw [← readAll_eq_ok_iff]
      cases hread : Argument.readAll argv with
      | error misuse =>
          rw [parse, hread] at hparse
          cases hparse
      | ok arguments => exact ⟨arguments, rfl⟩
    obtain ⟨pieces, rest, hargv, hrest⟩ := exists_pieces argv
    change parseFrom values [] argv = _ at hparse
    rw [hargv, parseFrom_pieces] at hparse
    rcases hrest with rfl | ⟨help, others, rfl, hasks⟩ | hmisused
    · change (if _ then _ else _) = _ at hparse
      split at hparse <;> cases hparse
    · exact ⟨hclear, pieces, help, others, hargv, hasks⟩
    · obtain ⟨misuse, hstop⟩ := parseFrom_of_misused hmisused
      rw [hstop] at hparse
      cases hparse
  · rintro ⟨hclear, pieces, help, rest, rfl, hasks⟩
    have hrest : Clear rest := by
      have hhelp := clear_of_append (fun t ht => by
        obtain ⟨piece, -, htokens⟩ := List.mem_flatMap.mp ht
        exact Piece.ne_divider_of_mem_tokens htokens) hclear
      exact ((clear_cons (ne_divider_of_asksHelp hasks) rest).mp hhelp).2
    obtain ⟨arguments, hread⟩ := (readAll_eq_ok_iff rest).mpr hrest
    change parseFrom values [] _ = _
    rw [parseFrom_pieces]
    rcases parseFrom_help hasks with hstop | ⟨misuse, herror, -⟩
    · exact hstop
    · rw [hread] at herror
      cases herror

end CommandLine

/-- A command line that gives no values ends in the help text if its reading reaches a
request for it, and in a report on the error stream otherwise, whatever the machine and the
world are.  No file is touched and no program started. -/
theorem Stage.runIn_of_refused (places : Places) (argv : List Text)
    (hrefused : ∀ arguments, CommandLine.parse (.defaults places) argv ≠ .ok arguments) :
    (CommandLine.ReachesHelp argv ∧ ∀ machine world,
        (Stage.runCommandLine machine places argv).runIn world =
          (.ok (.exited 0), world.withPrinted Usage.help)) ∨
      (¬ CommandLine.ReachesHelp argv ∧ ∃ misuse, ∀ machine world,
        (Stage.runCommandLine machine places argv).runIn world =
          (.ok (.exited 2), { world with errors := world.errors ++ Usage.report misuse })) := by
  rw [← CommandLine.parse_eq_help_iff (.defaults places)]
  cases hparse : CommandLine.parse (.defaults places) argv with
  | ok arguments => exact absurd hparse (hrefused arguments)
  | error stop =>
      have hrun machine : Stage.runCommandLine machine places argv = Stage.reportStop stop := by
        rw [Stage.runCommandLine, hparse]
      cases stop with
      | help => exact .inl ⟨rfl, fun machine world => hrun machine ▸ rfl⟩
      | misuse misuse => exact .inr ⟨by simp, misuse, fun machine world => hrun machine ▸ rfl⟩

namespace Refusals

def places : Places where
  home := .ofText "/home"
  project := .ofText "/crate"

/-- Help behind a stray argument, a use of an option and an option that does not exist. -/
def helped : List Text := ["stray", "--out", "-1", "--none", "-hh", "--output"]

/-- Help where a value is expected. -/
def lacking : List Text := ["--output", "--help"]

end Refusals

open Refusals in
theorem Stage.runIn_of_refused_samples :
    (CommandLine.parse (.defaults places) helped = .error .help ∧
      CommandLine.parse (.defaults places) lacking = .error (.misuse (.missingValue .output))) ∧
    (∀ machine world, (Stage.runCommandLine machine places helped).runIn world =
      (.ok (.exited 0), world.withPrinted Usage.help)) ∧
    ∃ misuse, ∀ machine world, (Stage.runCommandLine machine places lacking).runIn world =
      (.ok (.exited 2), { world with errors := world.errors ++ Usage.report misuse }) := by
  have hhelped : CommandLine.parse (.defaults places) helped = .error .help := by
    decide +kernel
  have hlacking : CommandLine.parse (.defaults places) lacking =
      .error (.misuse (.missingValue .output)) := by
    decide +kernel
  refine ⟨⟨hhelped, hlacking⟩, ?_, ?_⟩
  · rcases Stage.runIn_of_refused places helped (by simp [hhelped]) with
      ⟨-, hrun⟩ | ⟨hnone, -⟩
    · exact hrun
    · exact absurd ((CommandLine.parse_eq_help_iff _ _).mp hhelped) hnone
  · rcases Stage.runIn_of_refused places lacking (by simp [hlacking]) with
      ⟨hhelp, -⟩ | ⟨-, hrun⟩
    · have hparse := (CommandLine.parse_eq_help_iff (.defaults places) _).mpr hhelp
      rw [hlacking] at hparse
      cases hparse
    · exact hrun

end SdkBindings
