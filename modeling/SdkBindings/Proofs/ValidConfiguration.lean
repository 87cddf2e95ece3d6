import SdkBindings.Proofs.Faults
import SdkBindings.Proofs.WhiteSpace

/-!
What becomes of the values of the options.  The name of the generator loses the white space
around it, the paths are normalised, and the library directory stays as it is spelled.  Main
statement: a configuration is refused exactly for a name of white space, and what is made of
a configuration is that configuration.
-/

namespace SdkBindings

/-- The values of the options as they are spelled. -/
structure OptionTexts where
  includeDir : Text
  libraryDir : Text
  output : Text
  sidecar : Text
  generator : Text
  checkLibraryDir : Bool
  showConfig : Bool

/-- The values that these texts give to the options. -/
def OptionTexts.arguments (texts : OptionTexts) : Arguments where
  includeDir := .given (.ofText texts.includeDir)
  libraryDir := .given texts.libraryDir
  output := .given (.ofText texts.output)
  sidecar := .given (.ofText texts.sidecar)
  generator := .given texts.generator
  checkLibraryDir := texts.checkLibraryDir
  showConfig := texts.showConfig

namespace Configuration

/-- The values of the options that spell a configuration. -/
def arguments (config : Configuration) : Arguments where
  includeDir := .given (.ofText config.sdk.includeDir.text)
  libraryDir := config.sdk.libraryDir
  output := .given (.ofText config.output.text)
  sidecar := .given (.ofText config.sidecar.text)
  generator := .given config.generator
  checkLibraryDir := config.checkLibraryDir
  showConfig := config.showConfig

/-- The paths of a configuration are spelled by texts. -/
structure IsNormal (config : Configuration) : Prop where
  includeDir : config.sdk.includeDir.IsNormal
  output : config.output.IsNormal
  sidecar : config.sidecar.IsNormal

/-- Values that are all there make a configuration, if the name is not white space. -/
theorem ofArguments_of_given {arguments : Arguments} {spelled : Text}
    {includeDir output sidecar : Path} (hgenerator : arguments.generator = .given spelled)
    (hname : spelled.strip ≠ []) (hinclude : arguments.includeDir = .given includeDir)
    (houtput : arguments.output = .given output) (hsidecar : arguments.sidecar = .given sidecar) :
    ofArguments arguments = .ok {
      sdk := { includeDir, libraryDir := arguments.libraryDir }
      output, sidecar
      generator := spelled.strip
      checkLibraryDir := arguments.checkLibraryDir
      showConfig := arguments.showConfig } := by
  simp only [ofArguments, hgenerator, generatorName, if_neg hname, hinclude, houtput, hsidecar,
    Operand.path, bind, Except.bind, pure, Except.pure]

/-- The configuration that texts spell. -/
def ofTexts (texts : OptionTexts) : Configuration where
  sdk := { includeDir := .ofText texts.includeDir, libraryDir := .given texts.libraryDir }
  output := .ofText texts.output
  sidecar := .ofText texts.sidecar
  generator := texts.generator.strip
  checkLibraryDir := texts.checkLibraryDir
  showConfig := texts.showConfig

theorem isNormal_ofTexts (texts : OptionTexts) : (ofTexts texts).IsNormal where
  includeDir := Path.isNormal_ofText _
  output := Path.isNormal_ofText _
  sidecar := Path.isNormal_ofText _

theorem ofArguments_texts {texts : OptionTexts} (h : ¬ texts.generator.IsBlank) :
    ofArguments texts.arguments = .ok (ofTexts texts) :=
  ofArguments_of_given rfl (fun hempty => h (Text.strip_eq_nil_iff.mp hempty)) rfl rfl rfl

/-- A configuration is made of itself. -/
theorem ofArguments_arguments {config : Configuration} (hpaths : config.IsNormal)
    (hbare : config.generator.IsBare) (hne : config.generator ≠ []) :
    ofArguments config.arguments = .ok config := by
  have hname := Text.strip_eq_self_iff.mpr hbare
  have hgenerator : config.arguments.generator = .given config.generator := rfl
  rw [ofArguments_of_given hgenerator (by rwa [hname]) rfl rfl rfl, hname,
    Path.ofText_text hpaths.includeDir, Path.ofText_text hpaths.output,
    Path.ofText_text hpaths.sidecar]
  rfl

/-- The only configuration error of the values of the options is a name of white space. -/
theorem ofArguments_config_error_iff {arguments : Arguments} {error : ConfigurationError} :
    ofArguments arguments = .error (.config error) ↔ error = .blankGenerator ∧
      ∃ spelled, arguments.generator = .given spelled ∧ spelled.IsBlank := by
  constructor
  · intro h
    rcases ofArguments_error h with ⟨hfault, -⟩ |
      ⟨spelled, hgenerator, ⟨hfault, hblank⟩ | ⟨hfault, -⟩⟩
    · simp at hfault
    · exact ⟨Fault.config.inj hfault, spelled, hgenerator, Text.strip_eq_nil_iff.mp hblank⟩
    · simp at hfault
  · rintro ⟨rfl, spelled, hgenerator, hblank⟩
    exact ofArguments_of_blank hgenerator (Text.strip_eq_nil_iff.mpr hblank)

end Configuration

/-- A configuration is refused with the code of the generator exactly if its name is white
space.  Otherwise there is a configuration: its name is what stands between the white space at
the ends, and nothing else is, its library directory is as it was spelled, its paths are
normalised, and its own values make the same configuration. -/
theorem configuration_of_texts :
    (∀ arguments, (∃ error, Configuration.ofArguments arguments = .error (.config error) ∧
        error.code = .invalidGenerator) ↔
      ∃ spelled, arguments.generator = .given spelled ∧ spelled.IsBlank) ∧
    ∀ texts : OptionTexts, ¬ texts.generator.IsBlank → ∃ config,
      Configuration.ofArguments texts.arguments = .ok config ∧
      (∃ before after, before.IsBlank ∧ after.IsBlank ∧
        texts.generator = before ++ config.generator ++ after) ∧
      config.generator.IsBare ∧
      (∀ before name after : Text, before.IsBlank → name.IsBare → after.IsBlank →
        texts.generator = before ++ name ++ after → name = config.generator) ∧
      config.sdk.libraryDir = .given texts.libraryDir ∧
      config.sdk.includeDir = .ofText texts.includeDir ∧
      config.output = .ofText texts.output ∧ config.sidecar = .ofText texts.sidecar ∧
      config.IsNormal ∧
      config.checkLibraryDir = texts.checkLibraryDir ∧ config.showConfig = texts.showConfig ∧
      Configuration.ofArguments config.arguments = .ok config := by
  constructor
  · intro arguments
    simp only [Configuration.ofArguments_config_error_iff]
    constructor
    · rintro ⟨error, ⟨-, hblank⟩, -⟩
      exact hblank
    · intro hblank
      exact ⟨_, ⟨rfl, hblank⟩, rfl⟩
  · intro texts hname
    have hbare := Text.isBare_strip texts.generator
    have hne : texts.generator.strip ≠ [] := fun h => hname (Text.strip_eq_nil_iff.mp h)
    have hpaths := Configuration.isNormal_ofTexts texts
    have hunique : ∀ before name after : Text, before.IsBlank → name.IsBare → after.IsBlank →
        texts.generator = before ++ name ++ after → name = texts.generator.strip := by
      intro before name after hbefore hbetween hafter h
      rw [h, Text.strip_append hbefore hbetween hafter]
    exact ⟨.ofTexts texts, Configuration.ofArguments_texts hname,
      Text.exists_strip texts.generator, hbare, hunique, rfl, rfl, rfl, rfl, hpaths, rfl, rfl,
      Configuration.ofArguments_arguments hpaths hbare hne⟩

namespace OptionTexts

/-- A name that begins and ends with a stray byte, of the value of a blank and of a control. -/
def strayName : Text := 0xa0 :: Text.ofString "bindgen" ++ [0x85]

/-- Such a name between a wide blank and one that does not break. -/
def stray : OptionTexts where
  includeDir := "/sdk//Include/"
  libraryDir := "/sdk//lib/"
  output := "src/./vimba_sys.rs"
  sidecar := "libdir"
  generator := Text.ofString "\u3000" ++ strayName ++ Text.ofString "\u00a0"
  checkLibraryDir := true
  showConfig := false

end OptionTexts

open OptionTexts in
/-- The blanks are taken off the name and the stray bytes are not.  A name of two controls is
refused. -/
theorem configuration_of_texts_stray :
    (∃ error, Configuration.ofArguments { stray.arguments with generator := .given "\u0085\u001c" }
        = .error (.config error) ∧ error.code = .invalidGenerator) ∧
      ¬ stray.generator.IsBlank ∧ strayName.IsBare ∧
      ∃ config, Configuration.ofArguments stray.arguments = .ok config ∧
        config.generator = strayName ∧ config.sdk.libraryDir = .given "/sdk//lib/" ∧
        config.sdk.includeDir = .ofText "/sdk/Include" ∧
        Configuration.ofArguments config.arguments = .ok config := by
  obtain ⟨hrefused, haccepted⟩ := configuration_of_texts
  have hcontrols : Text.IsBlank "\u0085\u001c" := by decide +kernel
  have hwide : Text.IsBlank "\u3000" := by decide +kernel
  have hunbroken : Text.IsBlank "\u00a0" := by decide +kernel
  have hbare : strayName.IsBare := by decide +kernel
  have hname : ¬ stray.generator.IsBlank := by decide +kernel
  obtain ⟨config, hok, -, -, hunique, hlibrary, hinclude, -, -, -, -, -, hagain⟩ :=
    haccepted stray hname
  refine ⟨(hrefused _).mpr ⟨_, rfl, hcontrols⟩, hname, hbare, config, hok,
    (hunique _ _ _ hwide hbare hunbroken rfl).symm, hlibrary, ?_, hagain⟩
  rw [hinclude]
  decide

end SdkBindings
