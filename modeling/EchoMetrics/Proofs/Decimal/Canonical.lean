import EchoMetrics.Proofs.Decimal.Numeral
import EchoMetrics.Text.Digit

/-! # Canonical numerals

The digits that a number is written with, and how many of them there are. Main statements: what is
written of a number is its canonical numeral, and no number that was read is too long to be
written. -/

namespace EchoMetrics

/-- A number has no more digits than the rows of digits that stand for it. -/
theorem Decimal.ofDigits_lt {ds : List Nat} (h : ∀ d ∈ ds, d < 10) :
    Decimal.ofDigits ds < 10 ^ ds.length := by
  induction ds using List.reverseRecOn with
  | nil => exact Nat.one_pos
  | append_singleton ds d ih =>
    obtain ⟨hds, hd⟩ := List.forall_mem_append.1 h
    have hlt := ih hds
    have hd : d < 10 := hd d (List.mem_singleton_self d)
    rw [Decimal.ofDigits_append_singleton, List.length_append, List.length_singleton, pow_succ]
    omega

namespace Numeral

variable {cs : List Char} {c : Char} {n : Nat}

theorem asciiDigit_lt (h : c.isDigit = true) : asciiDigit c < 10 := by
  have hle : c.toNat ≤ 57 := (Char.isDigit_iff_toNat.1 h).2
  have hzero : '0'.toNat = 48 := rfl
  rw [asciiDigit]
  omega

theorem natOfAscii_lt (h : ∀ c ∈ cs, c.isDigit = true) : natOfAscii cs < 10 ^ cs.length := by
  rw [natOfAscii, ← List.length_map (f := asciiDigit)]
  refine Decimal.ofDigits_lt fun d hd => ?_
  obtain ⟨c, hc, rfl⟩ := List.mem_map.1 hd
  exact asciiDigit_lt (h c hc)

/-- The ASCII digits have their value among the digits of all scripts. -/
theorem digit?_of_isDigit (h : c.isDigit = true) : Text.digit? c = some (asciiDigit c) := by
  have hge : 48 ≤ c.toNat := (Char.isDigit_iff_toNat.1 h).1
  have hle : c.toNat ≤ 57 := (Char.isDigit_iff_toNat.1 h).2
  have hzeros : Text.zeros = 48 :: Text.zeros.tail := rfl
  rw [Text.digit?, hzeros, List.find?_cons_of_pos]
  · rfl
  · rw [Bool.and_eq_true, decide_eq_true_iff, decide_eq_true_iff]
    omega

/-! ## Canonical numerals -/

/-- The numeral that a number is written with: a row of digits, with no zero in front of others. -/
structure Canonical (cs : List Char) (n : Nat) : Prop where
  digits : Digits cs
  unpadded : cs.head? = some '0' → cs = ['0']
  value : natOfAscii cs = n

theorem natOfAscii_toDigits (n : Nat) : natOfAscii (Nat.toDigits 10 n) = n := by
  rw [natOfAscii, Decimal.ofDigits, List.foldl_map]
  exact Nat.ofDigitChars_ten_toDigits

theorem eq_zero_of_head?_toDigits (h : (Nat.toDigits 10 n).head? = some '0') : n = 0 := by
  induction n using Nat.base_induction 10 (by decide) with
  | single m hm =>
    rw [Nat.toDigits_of_lt_base hm] at h
    exact Nat.digitChar_eq_zero.1 (Option.some.inj h)
  | digit m k hk hm ih =>
    rw [← Nat.toDigits_append_toDigits (by decide) hm hk,
      List.head?_append_of_ne_nil _ Nat.toDigits_ne_nil] at h
    exact absurd (ih h) hm.ne'

theorem canonical_toString (n : Nat) : Canonical (toString n).toList n := by
  rw [Nat.toString_eq_repr, Nat.toList_repr]
  refine ⟨⟨Nat.toDigits_ne_nil, fun c hc => ?_⟩, fun h => ?_, natOfAscii_toDigits n⟩
  · exact Nat.isDigit_of_mem_toDigits (by decide) (by decide) hc
  · rw [eq_zero_of_head?_toDigits h, Nat.toDigits_zero]

theorem length_toString_le_iff {k : Nat} (hk : 0 < k) :
    (toString n).toList.length ≤ k ↔ n < 10 ^ k := by
  rw [Nat.toString_eq_repr, Nat.toList_repr]
  exact Nat.length_toDigits_le_iff (by decide) hk

/-- A number that is short enough is written as a count. -/
theorem count_toString (h : n < 10 ^ maxDigits) : Count (toString n).toList n where
  digits := (canonical_toString n).digits
  length_le := (length_toString_le_iff (by decide)).2 h
  value := (canonical_toString n).value

end Numeral

end EchoMetrics
