import EchoMetrics.Decimal.Numeral
import EchoMetrics.Proofs.Binary.Arithmetic

/-! # What the strict readers accept

The numerals in the prober's output are read strictly: only ASCII digits, and at most one point
between digits. Main statements: which texts are counts and measures, and which numbers they are. -/

namespace EchoMetrics.Numeral

/-- A row of ASCII digits. -/
def Digits (cs : List Char) : Prop := cs ≠ [] ∧ ∀ c ∈ cs, c.isDigit = true

/-- A text that is a count: a row of digits that is not too long. -/
structure Count (cs : List Char) (n : Nat) : Prop where
  digits : Digits cs
  length_le : cs.length ≤ maxDigits
  value : natOfAscii cs = n

/-- The decimal that a text is: a row of digits, or two rows with a point between them. -/
inductive Fraction : List Char → Decimal → Prop
  | whole {ds : List Char} : Digits ds → Fraction ds ⟨natOfAscii ds, 0⟩
  | point {ds ds' : List Char} : Digits ds → Digits ds' →
      Fraction (ds ++ '.' :: ds') ⟨natOfAscii (ds ++ ds'), -ds'.length⟩

/-- A text that is a measure: the float nearest to its decimal is finite. -/
structure Measure (cs : List Char) (x : Float) : Prop where
  fraction : ∃ d, Fraction cs d ∧ d.toFloat = x
  finite : x.isFinite = true

theorem count?_eq_some_iff {cs : List Char} {n : Nat} : count? cs = some n ↔ Count cs n := by
  simp only [count?, Option.ite_none_right_eq_some, Bool.and_eq_true, Bool.not_eq_true',
    List.isEmpty_eq_false_iff, List.all_eq_true, decide_eq_true_eq, Option.some.injEq]
  constructor
  · rintro ⟨⟨⟨hne, hd⟩, hl⟩, hn⟩
    exact ⟨⟨hne, hd⟩, hl, hn⟩
  · rintro ⟨⟨hne, hd⟩, hl, hn⟩
    exact ⟨⟨⟨hne, hd⟩, hl⟩, hn⟩

/-- The decimal that the reader of measures sees. -/
def decimal? (cs : List Char) : Option Decimal :=
  if (cs.takeWhile Char.isDigit).isEmpty then none
  else match cs.dropWhile Char.isDigit with
    | [] => some (fraction (cs.takeWhile Char.isDigit) [] 0)
    | '.' :: part =>
      if !part.isEmpty && part.all Char.isDigit then
        some (fraction (cs.takeWhile Char.isDigit) part 0)
      else none
    | _ => none

theorem measure?_eq (cs : List Char) :
    measure? cs = ((decimal? cs).map Decimal.toFloat).filter Float.isFinite := by
  simp only [measure?, decimal?]
  split
  · rfl
  · rfl

theorem fraction_of_decimal? {cs : List Char} {d : Decimal} (h : decimal? cs = some d) :
    Fraction cs d := by
  have hcs := List.takeWhile_append_dropWhile (p := Char.isDigit) (l := cs)
  have hd : ∀ c ∈ cs.takeWhile Char.isDigit, c.isDigit = true :=
    List.all_eq_true.1 List.all_takeWhile
  rw [decimal?] at h
  generalize cs.takeWhile Char.isDigit = ds at h hcs hd
  generalize cs.dropWhile Char.isDigit = rest at h hcs
  subst hcs
  split at h
  · simp at h
  · rename_i hne
    have hds : Digits ds := ⟨by simpa using hne, hd⟩
    split at h
    · obtain rfl := Option.some.inj h
      simpa [Numeral.fraction] using Fraction.whole hds
    · rename_i part
      simp only [Option.ite_none_right_eq_some, Bool.and_eq_true, Bool.not_eq_true',
        List.isEmpty_eq_false_iff, List.all_eq_true, Option.some.injEq] at h
      obtain ⟨⟨hne', hd'⟩, rfl⟩ := h
      simpa [Numeral.fraction] using Fraction.point hds ⟨hne', hd'⟩
    · simp at h

theorem decimal?_eq_some_iff {cs : List Char} {d : Decimal} :
    decimal? cs = some d ↔ Fraction cs d := by
  refine ⟨fraction_of_decimal?, ?_⟩
  rintro (⟨hne, hd⟩ | ⟨⟨hne, hd⟩, ⟨hne', hd'⟩⟩)
  · have ht := List.takeWhile_eq_self_iff.2 hd
    have hr := List.dropWhile_eq_nil_iff.2 hd
    simp [decimal?, ht, hr, hne, Numeral.fraction]
  · have hp : Char.isDigit '.' = false := by decide
    simp only [decimal?, List.takeWhile_append_of_pos hd, List.dropWhile_append_of_pos hd,
      List.takeWhile_cons_of_neg (ne_true_of_eq_false hp),
      List.dropWhile_cons_of_neg (ne_true_of_eq_false hp), List.append_nil]
    have hall : List.all _ Char.isDigit = true := List.all_eq_true.2 hd'
    simp [hne, hne', hall, Numeral.fraction]

theorem measure?_eq_some_iff {cs : List Char} {x : Float} :
    measure? cs = some x ↔ Measure cs x := by
  simp only [measure?_eq, Option.filter_eq_some_iff, Option.map_eq_some_iff, decimal?_eq_some_iff]
  constructor
  · rintro ⟨h, hf⟩
    exact ⟨h, hf⟩
  · rintro ⟨h, hf⟩
    exact ⟨h, hf⟩

/-- No measure is negative. -/
theorem Measure.nonneg {cs : List Char} {x : Float} (h : Measure cs x) : 0.0 ≤ x := by
  obtain ⟨d, -, rfl⟩ := h.fraction
  exact Binary.zero_le_toFloat h.finite

end EchoMetrics.Numeral
