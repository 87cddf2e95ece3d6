import SdkBindings.Proofs.PrintedFields
import SdkBindings.Proofs.StrictWalk

/-!
Digits in groups.  The last digit of a number comes off the end of its text, and the last
three of many digits off the end of their groups.  Main statement: a grouped number is its
digits in groups of three from the right, the first of them of one to three, with commas
between them, and with blanks and commas left out it is read back.
-/

namespace SdkBindings

namespace Decimal

def zero : UInt8 := 48

/-- A decimal digit. -/
def IsDigit (b : UInt8) : Prop :=
  zero ≤ b ∧ b ≤ 57

instance : DecidablePred IsDigit :=
  fun b => inferInstanceAs (Decidable (zero ≤ b ∧ b ≤ 57))

/-- The digit for a number below ten. -/
def digit (n : Nat) : UInt8 :=
  zero + UInt8.ofNat n

/-- The number that digits spell. -/
def value (digits : Text) : Nat :=
  digits.foldl (fun n b => 10 * n + (b - zero).toNat) 0

theorem value_append_singleton (digits : Text) (b : UInt8) :
    value (digits ++ [b]) = 10 * value digits + (b - zero).toNat := by
  simp [value]

theorem isDigit_digit : ∀ n < 10, IsDigit (digit n) := by
  decide

theorem toNat_digit : ∀ n < 10, (digit n - zero).toNat = n := by
  decide

theorem ofNat_of_lt : ∀ n < 10, ofNat n = [digit n] := by
  decide

/-- The last digit comes off the end. -/
theorem ofNat_of_le {n : Nat} (h : 10 ≤ n) : ofNat n = ofNat (n / 10) ++ [digit (n % 10)] := by
  have hlast : n % 10 < 10 := Nat.mod_lt _ (by decide)
  rw [← ofNat_of_lt _ hlast]
  unfold ofNat
  rw [Nat.toDigits_of_base_le (by decide) h, Nat.toDigits_of_lt_base hlast, List.map_append]

/-- Digits spell a number, without a zero in front that could be left out. -/
structure Spells (digits : Text) (n : Nat) : Prop where
  ne_nil : digits ≠ []
  isDigit : ∀ b ∈ digits, IsDigit b
  lead : digits.head? = some zero → digits = [zero]
  value_eq : value digits = n

theorem spells_digit {n : Nat} (h : n < 10) : Spells [digit n] n where
  ne_nil := List.cons_ne_nil _ _
  isDigit := List.forall_mem_singleton.mpr (isDigit_digit n h)
  lead hhead := by rw [Option.some.inj hhead]
  value_eq := by
    rw [← List.nil_append [digit n], value_append_singleton, toNat_digit n h]
    exact Nat.zero_add n

/-- One more digit behind those of a number that is not zero. -/
theorem Spells.append_digit {digits : Text} {m n : Nat} (h : Spells digits m) (hm : m ≠ 0)
    (hn : n < 10) : Spells (digits ++ [digit n]) (10 * m + n) where
  ne_nil := List.append_ne_nil_of_right_ne_nil _ (List.cons_ne_nil _ _)
  isDigit := List.forall_mem_append.mpr ⟨h.isDigit, (spells_digit hn).isDigit⟩
  lead hhead := by
    obtain ⟨b, rest, rfl⟩ := List.exists_cons_of_ne_nil h.ne_nil
    have hvalue := h.value_eq
    rw [h.lead hhead] at hvalue
    exact absurd hvalue.symm hm
  value_eq := by rw [value_append_singleton, h.value_eq, toNat_digit n hn]

theorem spells_ofNat (n : Nat) : Spells (ofNat n) n := by
  induction n using Nat.strongRecOn with
  | ind n ih =>
      by_cases hsmall : n < 10
      · rw [ofNat_of_lt n hsmall]
        exact spells_digit hsmall
      · have hrest := (ih (n / 10) (by omega)).append_digit (by omega)
          (Nat.mod_lt n (by decide))
        rwa [Nat.div_add_mod, ← ofNat_of_le (Nat.not_lt.mp hsmall)] at hrest

/-- Digits in groups: one to three in the first, and exactly three in each of the others. -/
structure Grouping (first : Text) (others : List Text) (digits : Text) : Prop where
  digits_eq : digits = first ++ others.flatten
  ne_nil : first ≠ []
  length_le : first.length ≤ 3
  length_eq : ∀ group ∈ others, group.length = 3

/-- Digits that were given backwards are separated in groups. -/
theorem exists_grouping {digits : Text} (hne : digits ≠ []) :
    ∃ first others, Grouping first others digits.reverse ∧
      (separate digits).reverse = Text.joinWith [comma] (first :: others) := by
  fun_induction separate digits with
  | case1 a b c d rest ih =>
      obtain ⟨first, others, hgrouping, hjoined⟩ := ih (by simp)
      have hlast := Text.joinWith_append_singleton comma (List.cons_ne_nil first others) [c, b, a]
      refine ⟨first, others ++ [[c, b, a]], ⟨?_, hgrouping.ne_nil, hgrouping.length_le, ?_⟩, ?_⟩
      · have hdigits : (a :: b :: c :: d :: rest).reverse = (d :: rest).reverse ++ [c, b, a] := by
          simp
        rw [hdigits, hgrouping.digits_eq]
        simp
      · intro group hgroup
        rcases List.mem_append.mp hgroup with hgroup | hgroup
        · exact hgrouping.length_eq group hgroup
        · rw [List.mem_singleton.mp hgroup]
          rfl
      · rw [← List.cons_append, hlast, ← hjoined]
        simp
  | case2 digits hfew =>
      refine ⟨digits.reverse, [], ⟨by simp, by simpa using hne, ?_, by simp⟩, rfl⟩
      rcases digits with _ | ⟨a, _ | ⟨b, _ | ⟨c, _ | ⟨d, rest⟩⟩⟩⟩
      · contradiction
      · simp
      · simp
      · simp
      · exact (hfew a b c d rest rfl).elim

/-- What is left of joined pieces without the separators between them. -/
theorem filter_joinWith {sep : UInt8} {keeps : UInt8 → Bool} (hsep : keeps sep = false)
    {pieces : List Text} (h : ∀ b ∈ pieces.flatten, keeps b = true) :
    (Text.joinWith [sep] pieces).filter keeps = pieces.flatten := by
  induction pieces with
  | nil => rfl
  | cons piece pieces ih =>
      rw [List.flatten_cons, List.forall_mem_append] at h
      have hpiece : piece.filter keeps = piece := List.filter_eq_self.mpr h.1
      cases pieces with
      | nil => simpa [Text.joinWith] using hpiece
      | cons next others =>
          rw [Text.joinWith, List.filter_append, List.filter_append, hpiece, ih h.2]
          simp [hsep]

/-- The number in a column of counts. -/
def read (field : Text) : Nat :=
  value (field.filter fun b => b ≠ Text.blank ∧ b ≠ comma)

/-- A count in a column: digits in groups with commas between them, and blanks in front as
long as they are narrower than the column. -/
structure InColumn (width count : Nat) (field : Text) : Prop where
  layout : ∃ blanks first others digits, Spells digits count ∧ Grouping first others digits ∧
    field = List.replicate blanks Text.blank ++ Text.joinWith [comma] (first :: others) ∧
    (blanks ≠ 0 → field.length = width)
  width_le : width ≤ field.length
  read_eq : read field = count

/-- The digits of a number are grouped, and read from the groups. -/
theorem groupedNat_cases (n : Nat) :
    ∃ first others digits, Spells digits n ∧ Grouping first others digits ∧
      groupedNat n = Text.joinWith [comma] (first :: others) ∧ read (groupedNat n) = n := by
  have hspells := spells_ofNat n
  have hbackwards : (ofNat n).reverse ≠ [] := by simpa using hspells.ne_nil
  obtain ⟨first, others, hgrouping, hjoined⟩ := exists_grouping hbackwards
  rw [List.reverse_reverse] at hgrouping
  refine ⟨first, others, ofNat n, hspells, hgrouping, hjoined, ?_⟩
  have hdigits : (first :: others).flatten = ofNat n := hgrouping.digits_eq.symm
  have hkept : ∀ b ∈ (first :: others).flatten,
      decide (b ≠ Text.blank ∧ b ≠ comma) = true := by
    intro b hb
    have hdigit := hspells.isDigit b (hdigits ▸ hb)
    refine decide_eq_true ⟨?_, ?_⟩ <;> rintro rfl <;> exact absurd hdigit (by decide)
  rw [read, groupedNat, hjoined, filter_joinWith (by decide) hkept, hdigits, hspells.value_eq]

/-- There is nothing but digits and commas in a grouped number. -/
theorem not_mem_groupedNat {b : UInt8} (hcomma : b ≠ comma) (hdigit : ¬ IsDigit b) (n : Nat) :
    b ∉ groupedNat n := by
  rw [groupedNat, List.mem_reverse]
  intro h
  rcases mem_separate h with hb | hb
  · exact hcomma hb
  · exact hdigit ((spells_ofNat n).isDigit b (List.mem_reverse.mp hb))

theorem inColumn_padLeft (width n : Nat) : InColumn width n ((groupedNat n).padLeft width) := by
  obtain ⟨first, others, digits, hspells, hgrouping, hjoined, hread⟩ := groupedNat_cases n
  have hlength : ((groupedNat n).padLeft width).length = max width (groupedNat n).length := by
    rw [Text.padLeft, List.length_append, List.length_replicate]
    omega
  have hfield : (groupedNat n).padLeft width =
      List.replicate (width - (groupedNat n).length) Text.blank ++
        Text.joinWith [comma] (first :: others) := by
    rw [Text.padLeft, hjoined]
  refine ⟨⟨_, first, others, digits, hspells, hgrouping, hfield, fun hblanks => ?_⟩, ?_, ?_⟩
  · omega
  · omega
  · rw [read, Text.padLeft, List.filter_append, List.filter_replicate_of_neg (by decide)]
    exact hread

end Decimal

end SdkBindings
