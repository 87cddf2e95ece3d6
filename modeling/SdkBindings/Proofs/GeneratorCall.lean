import SdkBindings.GeneratorOptions

/-!
The command line of the generator read from the left.  Its switches stand in a fixed order
and none of them can be taken for what follows it, so each argument has one place, also one
that looks like a switch.  Main statement: a command line says which generator, header and
options it was made from, and no other list of arguments is one.
-/

namespace SdkBindings

/-- What a command line of the generator says. -/
structure GeneratorCall where
  generator : Text
  header : Path
  options : GeneratorOptions
  deriving DecidableEq, Repr

namespace GeneratorCall

open GeneratorOptions

/-- The command line of a call. -/
def arguments (call : GeneratorCall) : List Text :=
  call.options.argv call.generator call.header

/-- Its paths are spelled by texts, as all paths are. -/
structure IsNormal (call : GeneratorCall) : Prop where
  header : call.header.IsNormal
  output : call.options.output.IsNormal

/-- Whether an argument stands at the head, and what follows it. -/
def takeSwitch (argument : Text) : List Text → Bool × List Text
  | first :: rest => if first = argument then (true, rest) else (false, first :: rest)
  | [] => (false, [])

/-- The raw lines at the head, and what follows them. -/
def takeHeadLines : List Text → List Text × List Text
  | option :: line :: rest =>
    if option = headLineOption then (line :: (takeHeadLines rest).1, (takeHeadLines rest).2)
    else ([], option :: line :: rest)
  | rest => ([], rest)

def partialEqSwitch : Text := "--with-derive-partialeq"

def defaultSwitch : Text := "--with-derive-default"

def manglingSwitch : Text := "--distrust-clang-mangling"

/-- Reads what stands behind the style of enumerations. -/
def readOptions (enumStyle : Text) (arguments : List Text) : Option GeneratorOptions :=
  let partialEq := takeSwitch partialEqSwitch arguments
  let defaults := takeSwitch defaultSwitch partialEq.2
  let mangling := takeSwitch manglingSwitch defaults.2
  let lines := takeHeadLines mangling.2
  match lines.2 with
  | [option, output] =>
    if option = outputOption ∧ (Path.ofText output).text = output then
      some {
        enumStyle
        derivePartialEq := partialEq.1
        deriveDefault := defaults.1
        distrustMangling := mangling.1
        headLines := lines.1
        output := .ofText output }
    else none
  | _ => none

/-- Reads a command line. -/
def read : List Text → Option GeneratorCall
  | generator :: header :: styleOption :: enumStyle :: rest =>
    if styleOption = "--default-enum-style" ∧ (Path.ofText header).text = header then
      (readOptions enumStyle rest).map fun options =>
        { generator, header := .ofText header, options }
    else none
  | _ => none

theorem takeSwitch_append {argument : Text} {rest : List Text} (h : rest.head? ≠ some argument)
    (on : Bool) : takeSwitch argument (switch on argument ++ rest) = (on, rest) := by
  cases on with
  | true => simp [switch, takeSwitch]
  | false =>
      cases rest with
      | nil => rfl
      | cons first rest =>
          have hne : first ≠ argument := by simpa using h
          simp [switch, takeSwitch, hne]

theorem switch_takeSwitch (argument : Text) (arguments : List Text) :
    switch (takeSwitch argument arguments).1 argument ++ (takeSwitch argument arguments).2
      = arguments := by
  cases arguments with
  | nil => rfl
  | cons first rest =>
      by_cases h : first = argument <;> simp [takeSwitch, switch, h]

/-- The arguments that raw lines are given with. -/
def headLineArguments (lines : List Text) : List Text :=
  lines.flatMap fun line => [headLineOption, line]

theorem takeHeadLines_append {rest : List Text} (h : rest.head? ≠ some headLineOption)
    (lines : List Text) : takeHeadLines (headLineArguments lines ++ rest) = (lines, rest) := by
  induction lines with
  | nil =>
      rcases rest with _ | ⟨option, _ | ⟨line, rest⟩⟩
      · rfl
      · rfl
      · have hne : option ≠ headLineOption := by simpa using h
        simp [headLineArguments, takeHeadLines, hne]
  | cons line lines ih =>
      have hcons : headLineArguments (line :: lines) ++ rest
          = headLineOption :: line :: (headLineArguments lines ++ rest) := rfl
      rw [hcons, takeHeadLines, if_pos rfl, ih]

theorem headLineArguments_takeHeadLines (arguments : List Text) :
    headLineArguments (takeHeadLines arguments).1 ++ (takeHeadLines arguments).2 = arguments := by
  fun_induction takeHeadLines arguments with
  | case1 line rest ih =>
      show headLineOption :: line :: (headLineArguments _ ++ _) = _
      rw [ih]
  | case2 => rfl
  | case3 => rfl

/-- The arguments behind the style of enumerations. -/
def optionArguments (options : GeneratorOptions) : List Text :=
  switch options.derivePartialEq partialEqSwitch ++
    (switch options.deriveDefault defaultSwitch ++
      (switch options.distrustMangling manglingSwitch ++
        (headLineArguments options.headLines ++ [outputOption, options.output.text])))

theorem arguments_eq (call : GeneratorCall) :
    call.arguments = call.generator :: call.header.text :: "--default-enum-style"
      :: call.options.enumStyle :: optionArguments call.options := by
  simp only [arguments, argv, optionArguments, headLineArguments, List.append_assoc,
    List.cons_append, List.nil_append]
  rfl

/-- Arguments that begin with one of these. -/
def BeginsWith (first : List Text) (arguments : List Text) : Prop :=
  ∃ argument ∈ first, arguments.head? = some argument

theorem BeginsWith.ne {first arguments : List Text} (h : BeginsWith first arguments)
    (argument : Text) (hother : argument ∉ first) : arguments.head? ≠ some argument := by
  obtain ⟨other, hmem, hhead⟩ := h
  rw [hhead]
  rintro ⟨⟩
  exact hother hmem

theorem beginsWith_lines (lines : List Text) (output : Text) :
    BeginsWith [headLineOption, outputOption]
      (headLineArguments lines ++ [outputOption, output]) := by
  cases lines with
  | nil => exact ⟨outputOption, by simp, rfl⟩
  | cons line lines => exact ⟨headLineOption, by simp, rfl⟩

theorem BeginsWith.switch {first rest : List Text} (h : BeginsWith first rest) (on : Bool)
    (argument : Text) : BeginsWith (argument :: first) (switch on argument ++ rest) := by
  cases on with
  | true => exact ⟨argument, List.mem_cons_self .., rfl⟩
  | false =>
      obtain ⟨other, hmem, hhead⟩ := h
      exact ⟨other, List.mem_cons_of_mem _ hmem, hhead⟩

/-- What the options are written as is read back as these options. -/
theorem readOptions_optionArguments {options : GeneratorOptions} (h : options.output.IsNormal) :
    readOptions options.enumStyle (optionArguments options) = some options := by
  -- Each switch is told from all that may follow it by the first argument.
  have hlines := beginsWith_lines options.headLines options.output.text
  have hmangling := hlines.switch options.distrustMangling manglingSwitch
  have hdefault := hmangling.switch options.deriveDefault defaultSwitch
  rw [readOptions, optionArguments]
  have hfirst := hdefault.ne partialEqSwitch (by decide)
  have hsecond := hmangling.ne defaultSwitch (by decide)
  have hthird := hlines.ne manglingSwitch (by decide)
  have hlast : [outputOption, options.output.text].head? ≠ some headLineOption := by
    rw [List.head?_cons]
    decide
  simp only [takeSwitch_append hfirst, takeSwitch_append hsecond, takeSwitch_append hthird,
    takeHeadLines_append hlast, Path.ofText_text h, and_self, if_true]

/-- Whatever options are read, the arguments are those that they are written as. -/
theorem eq_optionArguments_of_readOptions {enumStyle : Text} {arguments : List Text}
    {options : GeneratorOptions} (h : readOptions enumStyle arguments = some options) :
    options.enumStyle = enumStyle ∧ options.output.IsNormal ∧
      arguments = optionArguments options := by
  have hpartialEq := switch_takeSwitch partialEqSwitch arguments
  rw [readOptions] at h
  generalize takeSwitch partialEqSwitch arguments = partialEq at h hpartialEq
  have hdefault := switch_takeSwitch defaultSwitch partialEq.2
  generalize takeSwitch defaultSwitch partialEq.2 = defaults at h hdefault
  have hmangling := switch_takeSwitch manglingSwitch defaults.2
  generalize takeSwitch manglingSwitch defaults.2 = mangling at h hmangling
  have hlines := headLineArguments_takeHeadLines mangling.2
  generalize takeHeadLines mangling.2 = lines at h hlines
  split at h
  · next option output hrest =>
    split at h
    · next hlast =>
      obtain rfl := Option.some.inj h
      refine ⟨rfl, Path.isNormal_ofText output, ?_⟩
      rw [← hpartialEq, ← hdefault, ← hmangling, ← hlines, hrest, hlast.1, optionArguments]
      simp only [hlast.2]
    · simp at h
  · simp at h

/-- A list of arguments is read as a call exactly if it is the command line of that call. -/
theorem read_eq_some_iff {arguments : List Text} {call : GeneratorCall} :
    read arguments = some call ↔ call.IsNormal ∧ arguments = call.arguments := by
  constructor
  · intro h
    unfold read at h
    split at h
    · next generator header styleOption enumStyle rest =>
      split at h
      · next hhead =>
        obtain ⟨options, hoptions, rfl⟩ := Option.map_eq_some_iff.mp h
        obtain ⟨rfl, houtput, rfl⟩ := eq_optionArguments_of_readOptions hoptions
        refine ⟨⟨Path.isNormal_ofText header, houtput⟩, ?_⟩
        rw [arguments_eq, hhead.1, hhead.2]
      · simp at h
    · simp at h
  · rintro ⟨hnormal, rfl⟩
    rw [arguments_eq, read, if_pos ⟨rfl, by rw [Path.ofText_text hnormal.header]⟩,
      readOptions_optionArguments hnormal.output, Path.ofText_text hnormal.header]
    rfl

end GeneratorCall

/-- The command line of the generator loses nothing.  It is read back whatever texts it was made
from, nothing else is read as a call, two calls have two command lines, and the path of the
output is the last argument, behind its option. -/
theorem arguments_lossless :
    (∀ generator header output (options : GeneratorOptions),
      let call : GeneratorCall :=
        ⟨generator, .ofText header, { options with output := .ofText output }⟩
      GeneratorCall.read call.arguments = some call) ∧
    (∀ arguments call, GeneratorCall.read arguments = some call ↔
      call.IsNormal ∧ arguments = call.arguments) ∧
    (∀ call other : GeneratorCall, call.IsNormal → other.IsNormal → call ≠ other →
      call.arguments ≠ other.arguments) ∧
    ∀ call : GeneratorCall, ∃ front,
      call.arguments = front ++ [("-o" : Text), call.options.output.text] := by
  refine ⟨fun generator header output options => ?_,
    fun arguments call => GeneratorCall.read_eq_some_iff,
    fun call other hcall hother hne heq => hne ?_, fun call => ⟨_, rfl⟩⟩
  · exact GeneratorCall.read_eq_some_iff.mpr
      ⟨⟨Path.isNormal_ofText header, Path.isNormal_ofText output⟩, rfl⟩
  · have hread := GeneratorCall.read_eq_some_iff.mpr ⟨hcall, rfl⟩
    rw [heq, GeneratorCall.read_eq_some_iff.mpr ⟨hother, rfl⟩] at hread
    exact (Option.some.inj hread).symm

namespace GeneratorCall

/-- Raw lines that look like options, and a switch that is off. -/
def disguised (headLines : List Text) : GeneratorCall where
  generator := "-o"
  header := .ofText "/sdk/VimbaC.h"
  options := {
    enumStyle := "--with-derive-default"
    derivePartialEq := true
    deriveDefault := false
    distrustMangling := false
    headLines
    output := .ofText "--raw-line" }

theorem disguised_isNormal (headLines : List Text) : (disguised headLines).IsNormal :=
  ⟨Path.isNormal_ofText _, Path.isNormal_ofText _⟩

end GeneratorCall

open GeneratorCall in
theorem arguments_lossless_disguised :
    (disguised ["-o", "--raw-line"]).IsNormal ∧ (disguised ["--raw-line", "-o"]).IsNormal ∧
      GeneratorCall.read (disguised ["-o", "--raw-line"]).arguments
        = some (disguised ["-o", "--raw-line"]) ∧
      disguised ["-o", "--raw-line"] ≠ disguised ["--raw-line", "-o"] ∧
      (disguised ["-o", "--raw-line"]).arguments ≠ (disguised ["--raw-line", "-o"]).arguments := by
  have hfirst := disguised_isNormal ["-o", "--raw-line"]
  have hsecond := disguised_isNormal ["--raw-line", "-o"]
  have hne : disguised ["-o", "--raw-line"] ≠ disguised ["--raw-line", "-o"] := by decide
  obtain ⟨-, hread, hdistinct, -⟩ := arguments_lossless
  exact ⟨hfirst, hsecond, (hread _ _).mpr ⟨hfirst, rfl⟩, hne, hdistinct _ _ hfirst hsecond hne⟩

end SdkBindings
