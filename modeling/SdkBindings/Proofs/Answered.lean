import SdkBindings.Proofs.Extension
import SdkBindings.Sdk
import SdkBindings.WrittenFile

/-!
What stands behind an answer: when a question about a path has the answer yes, when a
header and a library directory are accepted, and when a written file is described.  A
question stays open for one reason only.
-/

namespace SdkBindings

theorem except_bind_eq_ok_iff {ε α β : Type} {first : Except ε α} {next : α → Except ε β} {b : β} :
    first >>= next = .ok b ↔ ∃ a, first = .ok a ∧ next a = .ok b := by
  cases first with
  | error e => simp [bind, Except.bind]
  | ok a => simp [bind, Except.bind]

theorem throw_ne_ok {ε α : Type} (e : ε) (a : α) : (throw e : Except ε α) ≠ .ok a := by
  simp [throw, throwThe, MonadExceptOf.throw]

namespace FileSystem

variable {fs : FileSystem} {directory : WorkingDirectory} {t : Text} {path : Path}
  {kind : Node → Bool}

/-- What a path leads to stands where the lookup ends. -/
theorem node_eq_ok_iff {aim : Aim} {node : Node} :
    fs.node aim directory t = .ok node ↔
      (∃ place, fs.locate aim directory t = .found place ∧ fs.get? place = some node) ∨
        fs.locate aim directory t = .removed ∧ node = .directory := by
  unfold FileSystem.node
  cases fs.locate aim directory t with
  | vacant | failed => simp
  | removed => simp [eq_comm]
  | found place => cases hnode : fs.get? place <;> simp [hnode]

theorem asks_eq_true_iff :
    fs.asks directory t kind = .ok true ↔ t.hasNul = false ∧
      ∃ node, fs.stat directory t = .ok node ∧ kind node = true := by
  unfold asks
  cases t.hasNul with
  | true => simp
  | false =>
      cases fs.stat directory t with
      | ok node => simp
      | error reason => cases hreason : reason.meansAbsent <;> simp [hreason]

/-- A question is refused for one reason only. -/
theorem asks_error {reason : Errno} (h : fs.asks directory t kind = .error reason) :
    reason = .nameTooLong := by
  unfold asks at h
  split at h
  · simp at h
  · split at h
    · simp at h
    · next refused hstat =>
        have hreason := mem_of_stat_error hstat
        split at h
        · simp at h
        · next habsent =>
            obtain rfl := Except.error.inj h
            simp only [List.mem_cons, List.not_mem_nil, or_false] at hreason
            rcases hreason with rfl | rfl | rfl | rfl <;> simp [Errno.meansAbsent] at habsent ⊢

theorem leadsTo_eq_ok_iff {answer : Bool} :
    fs.leadsTo directory path kind = .ok answer ↔
      fs.asks directory path.text kind = .ok answer := by
  unfold leadsTo
  cases fs.asks directory path.text kind <;> simp

/-- The header that is found has a canonical path, and a regular file is there. -/
theorem findHeaderWithin_eq_ok_iff {room : Nat} {includeDir header : Path} {headerName : Text} :
    fs.findHeaderWithin room directory includeDir headerName = .ok header ↔
      fs.resolveWithin room true directory (includeDir.child headerName).text = .ok header ∧
        fs.leadsTo directory header Node.isFile = .ok true := by
  unfold findHeaderWithin
  rcases fs.resolveWithin room true directory (includeDir.child headerName).text with
    (reason | _ | _) | resolved
  · simp
  · simp
  · simp
  · rw [except_bind_eq_ok_iff, Except.ok.injEq]
    constructor
    · rintro ⟨answer, hleads, hanswer⟩
      cases answer with
      | false => exact absurd hanswer (throw_ne_ok _ _)
      | true =>
          obtain rfl := Except.ok.inj hanswer
          exact ⟨rfl, hleads⟩
    · rintro ⟨rfl, hleads⟩
      exact ⟨true, hleads, rfl⟩

theorem findHeader_eq_ok_iff {includeDir header : Path} {headerName : Text} :
    fs.findHeader directory includeDir headerName = .ok header ↔
      fs.resolve true directory (includeDir.child headerName).text = .ok header ∧
        fs.leadsTo directory header Node.isFile = .ok true :=
  findHeaderWithin_eq_ok_iff

/-- A library directory that is accepted is a directory and holds a library. -/
theorem checkLibraryDir_eq_ok_iff {spelled : Text} {found : Path} :
    fs.checkLibraryDir directory (.given spelled) = .ok found ↔
      found = .ofText spelled ∧ fs.leadsTo directory (.ofText spelled) Node.isDirectory = .ok true ∧
        fs.holdsFile directory (.ofText spelled) libraryFiles = .ok true := by
  rw [checkLibraryDir, except_bind_eq_ok_iff]
  constructor
  · rintro ⟨answer, hleads, hrest⟩
    cases answer with
    | false =>
        obtain ⟨_, hthrown, -⟩ := except_bind_eq_ok_iff.mp hrest
        exact absurd hthrown (throw_ne_ok _ _)
    | true =>
        obtain ⟨answer, hholds, hlast⟩ := except_bind_eq_ok_iff.mp hrest
        cases answer with
        | false =>
            obtain ⟨_, hthrown, -⟩ := except_bind_eq_ok_iff.mp hlast
            exact absurd hthrown (throw_ne_ok _ _)
        | true =>
            obtain rfl := Except.ok.inj hlast
            exact ⟨rfl, hleads, hholds⟩
  · rintro ⟨rfl, hleads, hholds⟩
    exact ⟨true, hleads, except_bind_eq_ok_iff.mpr ⟨true, hholds, rfl⟩⟩

/-- A canonical path is one of a lenient walk, and the system does not meet too many links
on it. -/
theorem canonicalPath_eq_ok_iff {resolved : Path} :
    fs.canonicalPath directory path = .ok resolved ↔
      fs.resolve false directory path.text = .ok resolved ∧ resolved.text.hasNul = false ∧
        fs.stat directory resolved.text ≠ .error .tooManyLinks := by
  unfold canonicalPath
  rcases fs.resolve false directory path.text with (reason | _ | _) | spelled
  · simp
  · simp
  · simp
  · simp only [Except.ok.injEq]
    cases hnul : spelled.text.hasNul with
    | true =>
        simp only [↓reduceIte, reduceCtorEq, false_iff]
        rintro ⟨rfl, hclean, -⟩
        simp [hnul] at hclean
    | false =>
        simp only [Bool.false_eq_true, ↓reduceIte]
        split
        · next hlinks =>
            simp only [reduceCtorEq, false_iff]
            rintro ⟨rfl, -, hstat⟩
            exact hstat hlinks
        · next hlinks =>
            rw [Except.ok.injEq]
            refine ⟨?_, fun h => h.1⟩
            rintro rfl
            exact ⟨rfl, hnul, hlinks⟩

/-- A reading has no end at a pipe and at a full device only. -/
theorem read_eq_endless_iff :
    fs.read directory t = .error .endless ↔
      fs.stat directory t = .ok .pipe ∨ fs.stat directory t = .ok .fullDevice := by
  rw [read]
  rcases fs.stat directory t with reason | node
  · simp
  · cases node <;> simp

/-- The description of a written file is that of what its canonical path leads to. -/
theorem describe_eq_ok_iff {written : WrittenFile} :
    fs.describe directory path = .ok written ↔
      ∃ resolved content, fs.canonicalPath directory path = .ok resolved ∧
        fs.read directory resolved.text = .ok content ∧
        written = ⟨resolved.name, resolved, content.newlines, content.length⟩ := by
  rw [describe, except_bind_eq_ok_iff]
  constructor
  · rintro ⟨resolved, hcanonical, hrest⟩
    cases hread : fs.read directory resolved.text with
    | error unread => cases unread <;> simp [hread] at hrest
    | ok content =>
        simp only [hread, Except.ok.injEq] at hrest
        exact ⟨resolved, content, hcanonical, hread, hrest.symm⟩
  · rintro ⟨resolved, content, hcanonical, hread, rfl⟩
    exact ⟨resolved, hcanonical, by rw [hread]⟩

end FileSystem

end SdkBindings
