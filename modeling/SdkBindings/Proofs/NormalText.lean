import SdkBindings.Proofs.LiteralDirectory

/-!
The normal form of a text, as a text: the slashes that it begins with, and the components
behind them.  Main statement: a text in normal form is its own normal form, it has the
components of the text that it comes from but for those that lead nowhere, and where that
text leads to something, it leads to the same.
-/

namespace SdkBindings

namespace Text

/-- How many slashes a text begins with. -/
def leadingSlashes (t : Text) : Nat :=
  (t.takeWhile (· = slash)).length

/-- What stands between the slashes of a text, behind those that it begins with. -/
def components (t : Text) : List Text :=
  if t.dropWhile (· = slash) = [] then [] else fields slash (t.dropWhile (· = slash))

/-- A text behind slashes begins with all of them, and has the components that it has by
itself. -/
theorem components_append {root : Text} (hroot : ∀ b ∈ root, b = slash) {rest : Text}
    (hhead : rest.head? ≠ some slash) :
    leadingSlashes (root ++ rest) = root.length ∧
      components (root ++ rest) = if rest = [] then [] else fields slash rest := by
  have hdecide : ∀ b ∈ root, decide (b = slash) = true := fun b hb => decide_eq_true (hroot b hb)
  have htake := Path.takeWhile_slash_eq_nil hhead
  have hdrop : rest.dropWhile (· = slash) = rest := by
    have hall := List.takeWhile_append_dropWhile (p := (· = slash)) (l := rest)
    rwa [htake, List.nil_append] at hall
  constructor
  · rw [leadingSlashes, List.takeWhile_append_of_pos hdecide, htake, List.append_nil]
  · rw [components, List.dropWhile_append_of_pos hdecide, hdrop]

/-- The components that lead somewhere are the parts of the path. -/
theorem filter_components (t : Text) :
    t.components.filter Path.keeps = (Path.ofText t).parts := by
  induction t with
  | nil => rfl
  | cons b rest ih =>
      by_cases hb : b = slash
      · subst hb
        rw [Path.parts_slash, ← ih]
        rfl
      · have hdrop : (b :: rest).dropWhile (· = slash) = b :: rest := by simp [hb]
        rw [components, hdrop, if_neg (by simp)]
        rfl

/-- Two dots are among the components that lead somewhere. -/
theorem filter_up (parts : List Text) :
    parts.filter (· = Path.up) = (parts.filter Path.keeps).filter (· = Path.up) := by
  rw [List.filter_filter]
  refine List.filter_congr fun part _ => ?_
  by_cases hup : part = Path.up
  · rw [hup]
    rfl
  · simp [hup]

end Text

open Text (leadingSlashes)

namespace PathRoot

theorem eq_slash_of_mem_text (root : PathRoot) : ∀ b ∈ root.text, b = Text.slash := by
  cases root <;> simp [text]

/-- Three slashes or more are the same as one. -/
theorem length_text_ofText (t : Text) :
    (ofText t).text.length =
      if t.leadingSlashes ≤ 2 then t.leadingSlashes else 1 := by
  rw [ofText, ← leadingSlashes]
  rcases t.leadingSlashes with _ | _ | _ | n
  · rfl
  · rfl
  · rfl
  · rw [if_neg (by omega)]
    rfl

end PathRoot

namespace Path

/-- The text of a path in normal form is cut into its root and its parts, unless the path is
empty. -/
theorem components_text {p : Path} (hp : p.IsNormal) :
    p.text = here ∧ p.root = .relative ∨
      p.text.components = p.parts ∧ p.text.leadingSlashes = p.root.text.length := by
  by_cases hempty : p.root = .relative ∧ p.parts = []
  · exact .inl ⟨if_pos hempty, hempty.1⟩
  · have htext : p.text = p.root.text ++ Text.joinWith [Text.slash] p.parts := if_neg hempty
    obtain ⟨hslashes, hcomponents⟩ :=
      Text.components_append p.root.eq_slash_of_mem_text (head?_joinWith_ne_slash hp)
    rw [htext, hslashes, hcomponents]
    refine .inr ⟨?_, rfl⟩
    by_cases hparts : p.parts = []
    · rw [hparts]
      rfl
    · have hfields := Text.fields_joinWith hparts fun part hpart => (hp part hpart).2
      have hne : Text.joinWith [Text.slash] p.parts ≠ [] := by
        intro hnil
        rw [hnil, Text.fields_nil] at hfields
        have hkeeps := (hp [] (hfields ▸ List.mem_singleton_self [])).1
        simp [keeps] at hkeeps
      rw [if_neg hne, hfields]

end Path

namespace FileSystem

variable {fs : FileSystem} {directory : WorkingDirectory} {t : Text} {node : Node}

theorem ne_nil_of_stat (h : fs.stat directory t = .ok node) : t ≠ [] := by
  rintro rfl
  simp [stat_eq_nodeAt, locate, nodeAt] at h

/-- Where a text leads to something, its normal form is looked up alike. -/
theorem locate_text_of_stat (h : fs.stat directory t = .ok node) :
    fs.locate .follow directory (Path.ofText t).text = fs.locate .follow directory t := by
  have hshort : fs.stat directory t ≠ .error .nameTooLong := by
    rw [h]
    nofun
  have hends := fs.locate_text directory (ne_nil_of_stat h) (length_le_of_short hshort)
  rw [stat_eq_nodeAt] at h
  generalize fs.locate .follow directory t = landing at h hends
  generalize fs.locate .follow directory (Path.ofText t).text = landing' at hends
  cases hends with
  | same => rfl
  | nothing hnone => simp [hnone] at h
  | notDirectory => simp [nodeAt] at h

theorem exists_isAt {landing : Landing} (h : fs.nodeAt landing = .ok node) :
    ∃ spot, landing.IsAt spot := by
  cases landing with
  | found place => exact ⟨.ofPlace place, rfl⟩
  | removed => exact ⟨⟨[], 1⟩, Nat.one_ne_zero⟩
  | vacant | failed => simp [nodeAt] at h

/-- Where a text leads to something, the components of its normal form lead to the same
spot as its own. -/
theorem leads_text_of_stat (h : fs.stat directory t = .ok node) :
    ∃ spot, (fs.locate .follow directory t).IsAt spot ∧
      (∃ n, fs.Leads n (directory.startOf t) (Text.fields Text.slash t) spot) ∧
      ∃ n, fs.Leads n (directory.startOf (Path.ofText t).text)
        (Text.fields Text.slash (Path.ofText t).text) spot := by
  have hlocate := locate_text_of_stat h
  obtain ⟨_, hat⟩ := exists_isAt (fs.stat_eq_nodeAt directory t ▸ h)
  obtain ⟨n, spot, hleads, hspot⟩ := traces_of_isAt rfl hat
  obtain ⟨n', spot', hleads', -⟩ := traces_of_isAt hlocate hat
  obtain ⟨anchored, hends⟩ := hleads.advances (isAbsolute t)
  obtain ⟨anchored', hends'⟩ := hleads'.advances (isAbsolute (Path.ofText t).text)
  have hparts : (Path.ofText (Path.ofText t).text).parts = (Path.ofText t).parts := by
    rw [Path.ofText_text_ofText]
  obtain ⟨m, hsame⟩ := (ends_start_congr (Path.isAbsolute_text_ofText t) hparts).mp ⟨n', hends'⟩
  obtain ⟨-, rfl, -⟩ := hends.unique hsame
  exact ⟨spot, hspot, ⟨n, _, hleads⟩, n', _, hleads'⟩

end FileSystem

/-- A text is the normal form of another one. -/
structure Text.Normalises (t normal : Text) : Prop where
  /-- It is its own normal form. -/
  fixed : (Path.ofText normal).text = normal
  /-- But for a single dot, it has no component that leads nowhere. -/
  tidy : normal = Path.here ∨ ∀ part ∈ normal.components, part ≠ [] ∧ part ≠ Path.here
  /-- The components that lead somewhere are there, as often and in the same order. -/
  kept : normal.components.filter Path.keeps = t.components.filter Path.keeps
  /-- Among them the ones that lead up. -/
  ups : normal.components.filter (· = Path.up) = t.components.filter (· = Path.up)
  /-- One or two slashes in front stay, and more are the same as one. -/
  leading : normal.leadingSlashes = if t.leadingSlashes ≤ 2 then t.leadingSlashes else 1

theorem Path.normalises_text (t : Text) : t.Normalises (Path.ofText t).text := by
  have hfixed : (Path.ofText (Path.ofText t).text).text = (Path.ofText t).text := by
    rw [Path.ofText_text_ofText]
  have hkept : (Path.ofText t).text.components.filter Path.keeps =
      t.components.filter Path.keeps := by
    rw [Text.filter_components, Text.filter_components, Path.ofText_text_ofText]
  have hups : (Path.ofText t).text.components.filter (· = Path.up) =
      t.components.filter (· = Path.up) := by
    rw [Text.filter_up, hkept, ← Text.filter_up]
  have hroot := PathRoot.length_text_ofText t
  rcases Path.components_text (Path.isNormal_ofText t) with
    ⟨htext, hrelative⟩ | ⟨hcomponents, hslashes⟩
  · refine ⟨hfixed, .inl htext, hkept, hups, ?_⟩
    rw [htext, ← hroot]
    exact (congrArg (·.text.length) hrelative).symm
  · refine ⟨hfixed, .inr fun part hpart => ?_, hkept, hups, hslashes.trans hroot⟩
    have hkeeps := (Path.isNormal_ofText t part (hcomponents ▸ hpart)).1
    simpa [Path.keeps] using hkeeps

/-- The text of a path is the normal form of the text that spells the path, and in every file
system, and in every working directory, be it taken away, it leads to what that text leads to,
if this leads to anything. -/
theorem normalText_keeps_meaning (t : Text) :
    t.Normalises (Path.ofText t).text ∧
      ∀ (fs : FileSystem) (directory : WorkingDirectory) (node : Node),
        fs.stat directory t = .ok node →
          fs.stat directory (Path.ofText t).text = .ok node ∧
          fs.locate .follow directory (Path.ofText t).text = fs.locate .follow directory t ∧
          ∃ spot, (fs.locate .follow directory t).IsAt spot ∧
            (∃ n, fs.Leads n (directory.startOf t) (Text.fields Text.slash t) spot) ∧
            ∃ n, fs.Leads n (directory.startOf (Path.ofText t).text)
              (Text.fields Text.slash (Path.ofText t).text) spot := by
  refine ⟨Path.normalises_text t, fun fs directory node hnode => ?_⟩
  have hlocate := FileSystem.locate_text_of_stat hnode
  refine ⟨?_, hlocate, FileSystem.leads_text_of_stat hnode⟩
  rw [FileSystem.stat_eq_nodeAt, hlocate, ← FileSystem.stat_eq_nodeAt, hnode]

namespace Messy

/-- A file below a directory that a link leads to. -/
def files : FileSystem :=
  FileSystem.empty.layOutAll (.ofPlace [])
    [.file "/deep/inner/found" false [], .link "/way" "deep/inner"]

def spelled : Text := "///way/.//../inner//./found"

def found : Place :=
  [⟨"found", by decide⟩, ⟨"inner", by decide⟩, ⟨"deep", by decide⟩]

end Messy

open Messy in
/-- Behind the link two dots lead to the directory of its target, with dots and slashes left out
as with all of them. -/
theorem normalText_keeps_meaning_messy :
    files.stat (.ofPlace []) spelled = .ok (.file false []) ∧
      spelled.Normalises "/way/../inner/found" ∧
      files.stat (.ofPlace []) "/way/../inner/found" = .ok (.file false []) ∧
      files.locate .follow (.ofPlace []) "/way/../inner/found" = .found found := by
  have hnode : files.stat (.ofPlace []) spelled = .ok (.file false []) := by decide +kernel
  have hfound : files.locate .follow (.ofPlace []) spelled = .found found := by decide +kernel
  have htext : (Path.ofText spelled).text = "/way/../inner/found" := by decide
  obtain ⟨hnormal, hleads⟩ := normalText_keeps_meaning spelled
  obtain ⟨hsame, hlocate, -⟩ := hleads files (.ofPlace []) _ hnode
  rw [htext] at hnormal hsame hlocate
  exact ⟨hnode, hnormal, hsame, hlocate.trans hfound⟩

/-- A slash behind a file leads nowhere, and the normal form leads to the file. -/
example :
    Messy.files.stat (.ofPlace []) "deep/inner/found/" = .error .notDirectory ∧
      Messy.files.stat (.ofPlace []) (Path.ofText "deep/inner/found/").text =
        .ok (.file false []) := by
  decide +kernel

end SdkBindings
