import SdkBindings.Path
import SdkBindings.ShellWord

/-!
The command line of the generator.  Only the output path differs from run to
run; the rest is a fixed policy for a C header.
-/

namespace SdkBindings

/-- The generator's options. -/
structure GeneratorOptions where
  enumStyle : Text
  derivePartialEq : Bool
  deriveDefault : Bool
  distrustMangling : Bool
  /-- Lines that stand at the head of the generated file. -/
  headLines : List Text
  output : Path
  deriving DecidableEq, Repr

namespace GeneratorOptions

/-- Constants in a module leave room for values that are added later. -/
def defaultEnumStyle : Text := "moduleconsts"

/-- Generated names keep the spelling of the header, so the lints on names are
off. -/
def defaultHeadLines : List Text :=
  ["#![allow(non_upper_case_globals)]", "#![allow(non_snake_case)]",
   "#![allow(non_camel_case_types)]", "#![allow(dead_code)]"]

/-- The policy for the header, with the path of the generated file. -/
def forOutput (output : Path) : GeneratorOptions where
  enumStyle := defaultEnumStyle
  derivePartialEq := true
  deriveDefault := true
  distrustMangling := true
  headLines := defaultHeadLines
  output := output

/-- An argument that is there or not. -/
def switch (on : Bool) (argument : Text) : List Text :=
  if on then [argument] else []

/-- Stands before each raw line. -/
def headLineOption : Text := "--raw-line"

/-- Stands before the output path. -/
def outputOption : Text := "-o"

/-- The generator, the header, the options in a fixed order, and the output path
last. -/
def argv (config : GeneratorOptions) (generator : Text) (header : Path) : List Text :=
  [generator, header.text, "--default-enum-style", config.enumStyle]
    ++ switch config.derivePartialEq "--with-derive-partialeq"
    ++ switch config.deriveDefault "--with-derive-default"
    ++ switch config.distrustMangling "--distrust-clang-mangling"
    ++ config.headLines.flatMap (fun line => [headLineOption, line])
    ++ [outputOption, config.output.text]

end GeneratorOptions

end SdkBindings
