import SdkBindings.Proofs.Checks
import SdkBindings.Proofs.Lookups
import SdkBindings.Proofs.NaiveWalk
import SdkBindings.Proofs.ProducedFiles

/-!
How the include directory is spelled does not matter.  Main statement: two runs whose
include directories lead to the same directory, and that both find their header there,
do the same and come to the same end, but for the first line that they print.
-/

namespace SdkBindings

namespace FileSystem

variable {fs : FileSystem} {directory : WorkingDirectory}

/-- Behind the components of a directory, the name in it is what is left of the walk to a
path inside it. -/
theorem traces_of_child {dir : Path} {name : Text} (hkeeps : Path.keeps name = true)
    (hslash : Text.slash ∉ name) (hne : dir.text ≠ []) {lifts lifts' : WorkingDirectory → Prop}
    {depth depth' n m : Nat} {mid goal : WorkingDirectory}
    (hdir : fs.Traces lifts depth n (directory.startOf dir.text) (Text.fields Text.slash dir.text)
      mid)
    (hchild : fs.Traces lifts' depth' m (directory.startOf (dir.child name).text)
      (Text.fields Text.slash (dir.child name).text) goal) :
    ∃ k, fs.Traces lifts' depth' k mid [name] goal := by
  have hlast : Text.fields Text.slash name = [name] := Text.fields_eq_of_not_mem hslash
  rw [Path.text_child hkeeps hslash] at hchild
  by_cases hempty : dir.parts = []
  · -- The text of a root or of the working directory is no beginning of the text inside it.
    rw [if_pos hempty] at hchild
    obtain ⟨root, parts⟩ := dir
    obtain rfl : parts = [] := hempty
    cases root with
    | relative =>
        have hrelative : isAbsolute name = false := by
          refine decide_eq_false fun hhead => hslash (List.mem_of_head? hhead)
        rw [PathRoot.text, List.nil_append, hlast, WorkingDirectory.startOf,
          if_neg (by simp [hrelative])] at hchild
        have hhere : fs.Traces lifts 0 1 directory [Path.here] directory := .stay (.inr rfl) .done
        obtain ⟨-, rfl⟩ := hhere.unique hdir
        exact ⟨m, hchild⟩
    | one =>
        have hroot : fs.Traces lifts 0 2 (.ofPlace []) [[], []] (.ofPlace []) :=
          .stay (.inl rfl) (.stay (.inl rfl) .done)
        have hlead : fs.Traces lifts 0 1 (.ofPlace []) [[]] (.ofPlace []) := .stay (.inl rfl) .done
        obtain ⟨-, rfl⟩ := hroot.unique hdir
        rw [PathRoot.text, List.singleton_append, Text.fields_cons_sep, hlast] at hchild
        obtain ⟨k, -, hname⟩ := hlead.rest hchild
        exact ⟨k, hname⟩
    | two =>
        have hroot : fs.Traces lifts 0 3 (.ofPlace []) [[], [], []] (.ofPlace []) :=
          .stay (.inl rfl) (.stay (.inl rfl) (.stay (.inl rfl) .done))
        have hlead : fs.Traces lifts 0 2 (.ofPlace []) [[], []] (.ofPlace []) :=
          .stay (.inl rfl) (.stay (.inl rfl) .done)
        obtain ⟨-, rfl⟩ := hroot.unique hdir
        rw [PathRoot.text, List.cons_append, List.singleton_append, Text.fields_cons_sep,
          Text.fields_cons_sep, hlast] at hchild
        obtain ⟨k, -, hname⟩ := hlead.rest hchild
        exact ⟨k, hname⟩
  · rw [if_neg hempty] at hchild
    obtain ⟨first, others, htext⟩ := List.exists_cons_of_ne_nil hne
    have hstart : directory.startOf (dir.text ++ Text.slash :: name) =
        directory.startOf dir.text := by
      rw [htext]
      rfl
    rw [hstart, Text.fields_append_cons, hlast] at hchild
    obtain ⟨k, -, hname⟩ := hdir.rest hchild
    exact ⟨k, hname⟩

/-- Only one entry can be the header in a directory. -/
theorem findHeader_unique {dir dir' header header' : Path} {headerName : Text}
    (hkeeps : Path.keeps headerName = true) (hup : headerName ≠ Path.up)
    (hslash : Text.slash ∉ headerName)
    (harrives : (fs.locate .follow directory dir.text).Arrives)
    (hsame : fs.locate .follow directory dir'.text = fs.locate .follow directory dir.text)
    (h : fs.findHeader directory dir headerName = .ok header)
    (h' : fs.findHeader directory dir' headerName = .ok header') : header' = header := by
  have hnonempty : ∀ {t}, (fs.locate .follow directory t).Arrives → t ≠ [] := by
    rintro _ hlanding rfl
    simp [locate] at hlanding
  have hne := hnonempty harrives
  have hne' := hnonempty (hsame ▸ harrives)
  obtain ⟨_, n, place, rfl, htraces⟩ := traces_of_findHeader hkeeps hup hslash h
  obtain ⟨_, n', place', rfl, htraces'⟩ := traces_of_findHeader hkeeps hup hslash h'
  cases hlanding : fs.locate .follow directory dir.text with
  | found spot =>
      obtain ⟨a, hleads⟩ := traces_of_locate hlanding
      obtain ⟨a', hleads'⟩ := traces_of_locate (hsame.trans hlanding)
      obtain ⟨k, hname⟩ := traces_of_child hkeeps hslash hne hleads htraces
      obtain ⟨k', hname'⟩ := traces_of_child hkeeps hslash hne' hleads' htraces'
      obtain ⟨-, hplace⟩ := hname'.unique hname
      simp only [WorkingDirectory.ofPlace, WorkingDirectory.mk.injEq, and_true] at hplace
      rw [hplace]
  | removed =>
      -- A directory that was taken away is empty.
      have hspot : Landing.removed.IsAt ⟨[], 1⟩ := Nat.one_ne_zero
      obtain ⟨a, spot, hleads, hremoved⟩ := traces_of_isAt hlanding hspot
      obtain ⟨k, hname⟩ := traces_of_child hkeeps hslash hne hleads htraces
      cases hname with
      | stay hstay => exact absurd hstay (Canonical.not_stay_of_keeps hkeeps)
      | up hdots => exact absurd hdots hup
      | enter | link => exact absurd rfl hremoved
  | vacant | failed => simp [hlanding] at harrives

end FileSystem

/-- The configuration with another include directory. -/
def Configuration.withIncludeDir (config : Configuration) (dir : Path) : Configuration :=
  { config with sdk := { config.sdk with includeDir := dir } }

/-- Two worlds that are alike but for one text in their output, behind `lead`. -/
structure World.Alike (lead line line' : Text) (world world' : World) : Prop where
  output : ∃ printed, world.output = lead ++ line ++ printed ∧
    world'.output = lead ++ line' ++ printed
  files : world'.files = world.files
  errors : world'.errors = world.errors
  launches : world'.launches = world.launches

namespace World.Alike

variable {lead line line' : Text} {world world' : World}

theorem withLine (h : Alike lead line line' world world') (t : Text) :
    Alike lead line line' (world.withLine t) (world'.withLine t) := by
  obtain ⟨printed, houtput, houtput'⟩ := h.output
  refine ⟨⟨printed ++ printedLine t, ?_, ?_⟩, h.files, h.errors, h.launches⟩
  · rw [output_withLine, houtput, List.append_assoc]
  · rw [output_withLine, houtput', List.append_assoc]

theorem withFiles (h : Alike lead line line' world world') (fs : FileSystem) :
    Alike lead line line' (world.withFiles fs) (world'.withFiles fs) :=
  ⟨h.output, rfl, h.errors, h.launches⟩

theorem flushed (h : Alike lead line line' world world') :
    Alike lead line line' world.flushed world'.flushed := by
  refine ⟨?_, h.files, h.errors, h.launches⟩
  rw [output_flushed, output_flushed]
  exact h.output

theorem withLaunch (h : Alike lead line line' world world') (hbuffer : world.buffer = [])
    (hbuffer' : world'.buffer = []) (machine : Machine) (execution : Execution)
    (argv : List Text) :
    Alike lead line line' (world.withLaunch machine execution argv)
      (world'.withLaunch machine execution argv) := by
  obtain ⟨printed, houtput, houtput'⟩ := h.output
  refine ⟨⟨printed ++ execution.program.output, ?_, ?_⟩, ?_, ?_, ?_⟩
  · rw [output_withLaunch hbuffer, houtput, List.append_assoc]
  · rw [output_withLaunch hbuffer', houtput', List.append_assoc]
  · simp only [World.withLaunch, h.files]
  · simp only [World.withLaunch, h.errors]
  · simp only [World.withLaunch, h.launches, h.files]

end World.Alike

/-- The first line that a run prints, by the include directory. -/
def resolvingLine (dir : Path) : Text :=
  printedLine ("Resolving: " ++ (dir.child libraryHeader).text)

section

variable {machine : Machine} {config : Configuration} {dir : Path} {start world : World}

/-- A run that finds the same header in another include directory comes to the same
milestones, and prints the same after its first line. -/
theorem Reached.withIncludeDir {milestone : Milestone}
    (h : Reached machine config start milestone world)
    (hheader : start.files.findHeader machine.directory dir libraryHeader =
      start.files.findHeader machine.directory config.sdk.includeDir libraryHeader) :
    ∃ world', World.Alike start.output (resolvingLine config.sdk.includeDir) (resolvingLine dir)
        world world' ∧
      Reached machine (config.withIncludeDir dir) start milestone world' := by
  induction h with
  | announced =>
      have hdir : (config.withIncludeDir dir).sdk.includeDir = dir := rfl
      refine ⟨_, ?_, .announced⟩
      refine ⟨⟨[], ?_, ?_⟩, by simp, by simp, by simp⟩
      · rw [World.output_withLine, List.append_nil, resolvingLine]
      · rw [World.output_withLine, List.append_nil, resolvingLine, hdir]
  | located hbefore hfound ih =>
      obtain ⟨_, halike, hreached⟩ := ih
      cases hbefore
      cases hreached
      exact ⟨_, halike.withLine _, .located .announced (hheader.trans hfound)⟩
  | unchecked _ hcheck ih =>
      obtain ⟨world', halike, hreached⟩ := ih
      exact ⟨world', halike, hreached.unchecked hcheck⟩
  | checked _ hcheck hlibrary ih =>
      obtain ⟨_, halike, hreached⟩ := ih
      exact ⟨_, halike.withLine _, hreached.checked hcheck (halike.files ▸ hlibrary)⟩
  | recorded _ hnul hwrite hread ih =>
      obtain ⟨_, halike, hreached⟩ := ih
      exact ⟨_, (halike.withFiles _).withLine _,
        hreached.recorded hnul (halike.files ▸ hwrite) hread⟩
  | prepared _ hnul hmade ih =>
      obtain ⟨_, halike, hreached⟩ := ih
      exact ⟨_, ((halike.withFiles _).withLine _).flushed,
        hreached.prepared hnul (halike.files ▸ hmade)⟩
  | generated hbefore hnul hfound ih =>
      obtain ⟨_, halike, hreached⟩ := ih
      exact ⟨_, halike.withLaunch hbefore.buffer_eq_nil hreached.buffer_eq_nil machine _ _,
        hreached.generated hnul (halike.files ▸ hfound)⟩
  | finished _ hstatus hread ih =>
      obtain ⟨_, halike, hreached⟩ := ih
      exact ⟨_, halike.withLine _, hreached.finished hstatus (halike.files ▸ hread)⟩

/-- A fault behind the header comes up in both runs. -/
theorem Stopped.withIncludeDir {milestone : Milestone} {mid mid' after : World} {fault : Fault}
    {lead line line' : Text} (h : Stopped machine config milestone mid fault after)
    (hpast : milestone ≠ .announced) (halike : World.Alike lead line line' mid mid') :
    ∃ after', World.Alike lead line line' after after' ∧
      Stopped machine (config.withIncludeDir dir) milestone mid' fault after' := by
  have hfiles := halike.files
  cases h with
  | header => exact absurd rfl hpast
  | library hcheck hfault => exact ⟨_, halike, .library hcheck (hfiles ▸ hfault)⟩
  | recordNul hnul => exact ⟨_, halike, .recordNul hnul⟩
  | record hnul hfault => exact ⟨_, halike, .record hnul (hfiles ▸ hfault)⟩
  | recordLost hnul hwrite hfault =>
      exact ⟨_, halike.withFiles _, .recordLost hnul (hfiles ▸ hwrite) hfault⟩
  | directoryNul hnul => exact ⟨_, halike, .directoryNul hnul⟩
  | directory hnul hfault =>
      exact ⟨_, halike.withFiles _, .directory hnul (hfiles ▸ hfault)⟩
  | commandNul hnul => exact ⟨_, halike, .commandNul hnul⟩
  | start hnul hfault => exact ⟨_, halike, .start hnul (hfiles ▸ hfault)⟩
  | unsuccessful hstatus => exact ⟨_, halike, .unsuccessful hstatus⟩
  | outputLost hstatus hfault => exact ⟨_, halike, .outputLost hstatus (hfiles ▸ hfault)⟩

/-- Two include directories that lead to the same one, and in both of which the header is
found, make no difference to a run but in its first line. -/
theorem alike_of_withIncludeDir {files : FileSystem} {header header' : Path}
    (harrives : (files.locate .follow machine.directory config.sdk.includeDir.text).Arrives)
    (hsame : files.locate .follow machine.directory dir.text =
      files.locate .follow machine.directory config.sdk.includeDir.text)
    (hheader : files.findHeader machine.directory config.sdk.includeDir libraryHeader = .ok header)
    (hheader' : files.findHeader machine.directory dir libraryHeader = .ok header') :
    ((Stage.produce machine (config.withIncludeDir dir)).runIn (.initial files)).1 =
        ((Stage.produce machine config).runIn (.initial files)).1 ∧
      World.Alike [] (resolvingLine config.sdk.includeDir) (resolvingLine dir)
        ((Stage.produce machine config).runIn (.initial files)).2
        ((Stage.produce machine (config.withIncludeDir dir)).runIn (.initial files)).2 := by
  obtain rfl := FileSystem.findHeader_unique (by decide) (by decide) (by decide) harrives hsame
    hheader hheader'
  have hfound := hheader'.trans hheader.symm
  rcases Stage.finished_or_stopped (@Reached.announced machine config (.initial files)) with
    ⟨result, after, hfinished⟩ | ⟨last, mid, fault, after, hreached, hstopped⟩
  · obtain ⟨after', halike, hfinished'⟩ := hfinished.withIncludeDir hfound
    rw [Stage.runIn_produce_eq_ok_iff.mpr hfinished, Stage.runIn_produce_eq_ok_iff.mpr hfinished']
    exact ⟨rfl, halike⟩
  · have hpast : last ≠ .announced := by
      rintro rfl
      cases hreached
      cases hstopped with
      | header hfault => simp [World.initial, hheader] at hfault
    obtain ⟨mid', halike, hreached'⟩ := hreached.withIncludeDir hfound
    obtain ⟨after', halike', hstopped'⟩ := hstopped.withIncludeDir hpast halike
    rw [Stage.runIn_produce_eq_error_iff.mpr ⟨last, mid, hreached, hstopped⟩,
      Stage.runIn_produce_eq_error_iff.mpr ⟨last, mid', hreached', hstopped'⟩]
    exact ⟨rfl, halike'⟩

end

namespace Sample

/-- The header in a directory to which a link leads as well. -/
def linkedFiles : FileSystem :=
  FileSystem.empty.layOutAll (.ofPlace [])
    [.file "/sdk/VimbaC.h" false [], .file "/bindgen" true "generator",
     .link "/headers" "sdk/../sdk"]

end Sample

open Sample in
theorem alike_of_withIncludeDir_linked :
    ((Stage.produce machine (configuration.withIncludeDir (.ofText "headers"))).runIn
        (.initial linkedFiles)).1 =
        ((Stage.produce machine configuration).runIn (.initial linkedFiles)).1 ∧
      World.Alike [] (printedLine "Resolving: /sdk/VimbaC.h")
        (printedLine "Resolving: headers/VimbaC.h")
        ((Stage.produce machine configuration).runIn (.initial linkedFiles)).2
        ((Stage.produce machine (configuration.withIncludeDir (.ofText "headers"))).runIn
          (.initial linkedFiles)).2 := by
  have hplace : linkedFiles.locate .follow machine.directory configuration.sdk.includeDir.text =
      .found [⟨"sdk", by decide⟩] := by
    decide +kernel
  have hplace' : linkedFiles.locate .follow machine.directory (Path.ofText "headers").text =
      .found [⟨"sdk", by decide⟩] := by
    decide +kernel
  have hheader : linkedFiles.findHeader machine.directory configuration.sdk.includeDir
      libraryHeader = .ok (.ofText "/sdk/VimbaC.h") := by
    decide +kernel
  have hheader' : linkedFiles.findHeader machine.directory (.ofText "headers")
      libraryHeader = .ok (.ofText "/sdk/VimbaC.h") := by
    decide +kernel
  have hline : resolvingLine (.ofText "headers") = printedLine "Resolving: headers/VimbaC.h" := by
    decide +kernel
  have hline' : resolvingLine configuration.sdk.includeDir =
      printedLine "Resolving: /sdk/VimbaC.h" := by
    decide +kernel
  rw [← hline, ← hline']
  exact alike_of_withIncludeDir (hplace ▸ trivial) (hplace'.trans hplace.symm) hheader hheader'

end SdkBindings
