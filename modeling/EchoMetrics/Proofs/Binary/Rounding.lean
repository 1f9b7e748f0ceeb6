import EchoMetrics.Proofs.Binary.Canonical

/-! # Rounding

A number is rounded by shifting its mantissa right, which keeps in two bits what was lost, and then
by going up or staying. Main statement: every float that lies on one side of the number lies on the
same side of what the number is rounded to. -/

namespace EchoMetrics.Binary

open Float.Model Float.Model.UnpackedFloat

/-! ## Shifting -/

/-- A mantissa describes a number: it is the number cut off, and its bits tell whether something was
lost. -/
structure Describes (em : ExtendedMantissa) (e : Int) (x : ℚ) : Prop where
  le : magnitude em.mantissa e ≤ x
  lt : x < magnitude (em.mantissa + 1) e
  exact : magnitude em.mantissa e = x ↔ (em.roundBit || em.stickyBit) = false

theorem describes_exact (m : Nat) (e : Int) :
    Describes (.ofMantissaAndAccuracy m .exact) e (magnitude m e) :=
  ⟨le_rfl, magnitude_lt_magnitude.2 (Nat.lt_succ_self m), iff_of_true rfl rfl⟩

theorem magnitude_add_one (m : Nat) (e : Int) : magnitude m (e + 1) = magnitude (m * 2) e := by
  rw [magnitude_lower (show e ≤ e + 1 by omega), show (e + 1 - e).toNat = 1 by omega, pow_one]

namespace Describes

variable {em : ExtendedMantissa} {e : Int} {x : ℚ}

theorem shiftRightOne (h : Describes em e x) : Describes em.shiftRightOne (e + 1) x := by
  have hle : magnitude (em.mantissa / 2) (e + 1) ≤ magnitude em.mantissa e := by
    rw [magnitude_add_one, magnitude_le_magnitude]
    omega
  have hlt : magnitude (em.mantissa + 1) e ≤ magnitude (em.mantissa / 2 + 1) (e + 1) := by
    rw [magnitude_add_one, magnitude_le_magnitude]
    omega
  have heven : magnitude em.mantissa e ≤ magnitude (em.mantissa / 2) (e + 1) ↔
      em.mantissa % 2 = 0 := by
    rw [magnitude_add_one, magnitude_le_magnitude]
    omega
  refine ⟨hle.trans h.le, h.lt.trans_le hlt, ?_⟩
  show magnitude (em.mantissa / 2) (e + 1) = x ↔
    (em.mantissa % 2 != 0 || (em.roundBit || em.stickyBit)) = false
  rw [Bool.or_eq_false_iff, ← h.exact, bne_eq_false_iff_eq, ← heven]
  constructor
  · rintro rfl
    exact ⟨h.le, le_antisymm h.le hle⟩
  · rintro ⟨heq, rfl⟩
    exact le_antisymm hle heq

theorem shiftRight (h : Describes em e x) (k : Nat) : Describes (em >>> k) (e + k) x := by
  induction k with
  | zero =>
    rw [Nat.cast_zero, add_zero]
    exact h
  | succ k ih =>
    rw [Nat.cast_succ, ← add_assoc]
    exact ih.shiftRightOne

end Describes

theorem mantissa_shiftRight (em : ExtendedMantissa) (k : Nat) :
    (em >>> k).mantissa = em.mantissa / 2 ^ k := by
  induction k with
  | zero => exact (Nat.div_one _).symm
  | succ k ih =>
    show (em >>> k).mantissa / 2 = _
    rw [ih, Nat.div_div_eq_div_mul, pow_succ]

theorem mantissa_ofMantissaAndAccuracy (m : Nat) (acc : Accuracy) :
    (ExtendedMantissa.ofMantissaAndAccuracy m acc).mantissa = m := by
  rcases acc with _ | _ | _ | _ <;> rfl

/-- The exponent of a number as it is stored. -/
def target (m : Nat) (e : Int) : Int := max ((m.log2 : Int) + 1 + e - 53) (-1074)

theorem shiftToTargetExponent_eq (m : Nat) (e : Int) (acc : Accuracy) :
    shiftToTargetExponent .binary64 m e acc =
      (ExtendedMantissa.ofMantissaAndAccuracy m acc >>> (target m e - e).toNat,
        e + (target m e - e).toNat) := rfl

/-- A mantissa that is shifted as far as it should be fits. -/
theorem fits_div {m : Nat} {e : Int} (h : e ≤ target m e) :
    Fits (m / 2 ^ (target m e - e).toNat) (e + (target m e - e).toNat) := by
  have hk : e + (target m e - e).toNat = max ((m.log2 : Int) + 1 + e - 53) (-1074) := by
    rw [← target]
    omega
  generalize (target m e - e).toNat = k at hk
  refine ⟨?_, by omega, ?_⟩
  · rw [Nat.div_lt_iff_lt_mul (Nat.two_pow_pos k), ← pow_add]
    exact Nat.lt_log2_self.trans_le (Nat.pow_le_pow_right (by omega) (by omega))
  · by_cases hl : e + k = -1074
    · exact .inr hl
    · left
      rw [Nat.le_div_iff_mul_le (Nat.two_pow_pos k), ← pow_add, show 52 + k = m.log2 by omega]
      apply Nat.log2_self_le
      intro h0
      rw [h0, Nat.log2_zero] at hk
      omega

/-! ## Going up or staying -/

theorem roundedMantissa_cases (em : ExtendedMantissa) :
    em.roundedMantissa = em.mantissa ∨
      em.roundedMantissa = em.mantissa + 1 ∧ (em.roundBit || em.stickyBit) = true := by
  obtain ⟨m, r, s⟩ := em
  cases r <;> cases s
  · exact .inl rfl
  · exact .inl rfl
  · rcases Nat.mod_two_eq_zero_or_one m with h | h
    · exact .inl (congrArg (m + ·) h)
    · exact .inr ⟨congrArg (m + ·) h, rfl⟩
  · exact .inr ⟨rfl, rfl⟩

/-- What a number that is not negative is rounded to: every float below the number is below it, and
every float above the number is above it. -/
structure Rounds (x : ℚ) (u : UnpackedFloat) : Prop where
  form : u = .zero .positive ∨ ∃ m e h, u = .finite .positive m e h ∧ Fits m e
  below {m : Nat} {e : Int} : Fits m e → magnitude m e ≤ x → magnitude m e ≤ value u
  above {m : Nat} {e : Int} : Fits m e → x ≤ magnitude m e → value u ≤ magnitude m e

section

variable {em : ExtendedMantissa} {m : Nat} {e e' : Int} {x : ℚ}

theorem le_roundedMantissa (h : Describes em e x) (hf : Fits em.mantissa e) (hm : Fits m e')
    (hx : magnitude m e' ≤ x) : magnitude m e' ≤ magnitude em.roundedMantissa e := by
  have hle := hf.magnitude_le hm (hx.trans_lt h.lt)
  refine hle.trans (magnitude_le_magnitude.2 ?_)
  rcases roundedMantissa_cases em with hr | ⟨hr, -⟩ <;> omega

theorem roundedMantissa_le (h : Describes em e x) (hf : Fits em.mantissa e) (hm : Fits m e')
    (hx : x ≤ magnitude m e') : magnitude em.roundedMantissa e ≤ magnitude m e' := by
  rcases roundedMantissa_cases em with hr | ⟨hr, hb⟩
  · rw [hr]
    exact h.le.trans hx
  · rw [hr]
    by_contra hlt
    have hle := hf.magnitude_le hm (not_le.1 hlt)
    have heq := le_antisymm h.le (hx.trans hle)
    rw [h.exact.1 heq] at hb
    exact Bool.false_ne_true hb

end

/-- A rounded mantissa that has one digit too many is shifted once more, and nothing is lost. -/
theorem shiftToTargetExponent_rounded {m : Nat} {e : Int} (hm : m ≤ 2 ^ 53) (hl : -1074 ≤ e)
    (hf : 2 ^ 52 ≤ m ∨ e = -1074) :
    Fits (shiftToTargetExponent .binary64 m e .exact).1.mantissa
        (shiftToTargetExponent .binary64 m e .exact).2 ∧
      magnitude (shiftToTargetExponent .binary64 m e .exact).1.mantissa
        (shiftToTargetExponent .binary64 m e .exact).2 = magnitude m e := by
  rw [shiftToTargetExponent_eq, mantissa_shiftRight, mantissa_ofMantissaAndAccuracy]
  rcases hm.lt_or_eq with hm | rfl
  · have hlog : m.log2 ≤ 52 := by
      by_cases h0 : m = 0
      · rw [h0, Nat.log2_zero]
        omega
      · exact Nat.le_of_lt_succ ((Nat.log2_lt h0).2 hm)
    have ht : (target m e - e).toNat = 0 := by
      rw [target]
      omega
    rw [ht, pow_zero, Nat.div_one, Nat.cast_zero, add_zero]
    exact ⟨⟨hm, hl, hf⟩, rfl⟩
  · have ht : target (2 ^ 53) e = e + 1 := by
      rw [target, Nat.log2_two_pow]
      omega
    refine ⟨fits_div (by omega), ?_⟩
    rw [ht, show (e + 1 - e).toNat = 1 by omega, Nat.cast_one, magnitude_add_one]
    rfl

/-- A number as a float that is not negative. -/
def positive (m : Nat) (e : Int) : UnpackedFloat :=
  if h : m = 0 then .zero .positive else .finite .positive m e (Nat.pos_of_ne_zero h)

theorem value_positive (m : Nat) (e : Int) : value (positive m e) = magnitude m e := by
  rw [positive]
  split
  · rename_i h
    rw [h, magnitude, Nat.cast_zero, zero_mul]
    rfl
  · rfl

theorem form_positive {m : Nat} {e : Int} (h : Fits m e) :
    positive m e = .zero .positive ∨ ∃ m' e' h', positive m e = .finite .positive m' e' h' ∧
      Fits m' e' := by
  rw [positive]
  split
  · exact .inl rfl
  · rename_i h0
    exact .inr ⟨m, e, Nat.pos_of_ne_zero h0, rfl, h⟩

/-- A number is rounded to its mantissa as it is once all but its last digits are dropped. -/
theorem roundWithAccuracy_spec {m : Nat} {e : Int} (acc : Accuracy) (he : e ≤ target m e) :
    (roundWithAccuracy .binary64 .positive m e acc = .zero .positive ∨
        ∃ m' e' h, roundWithAccuracy .binary64 .positive m e acc = .finite .positive m' e' h ∧
          Fits m' e') ∧
      value (roundWithAccuracy .binary64 .positive m e acc) =
        magnitude (ExtendedMantissa.ofMantissaAndAccuracy m acc >>>
          (target m e - e).toNat).roundedMantissa (e + (target m e - e).toNat) := by
  have hf := fits_div he
  rw [← mantissa_ofMantissaAndAccuracy m acc, ← mantissa_shiftRight,
    mantissa_ofMantissaAndAccuracy] at hf
  rw [roundWithAccuracy, shiftToTargetExponent_eq]
  generalize ExtendedMantissa.ofMantissaAndAccuracy m acc >>> (target m e - e).toNat = em at hf
  generalize e + ((target m e - e).toNat : Int) = e₁ at hf
  have hr := roundedMantissa_cases em
  have hlt := hf.lt
  have hfull := hf.full
  obtain ⟨hf₂, hv⟩ := shiftToTargetExponent_rounded (m := em.roundedMantissa) (by omega) hf.least
    (by omega)
  exact ⟨form_positive hf₂, (value_positive _ _).trans hv⟩

/-- The result of rounding lies on the same side of every float as the number. -/
theorem rounds_roundWithAccuracy {m : Nat} {e : Int} {acc : Accuracy} {x : ℚ}
    (h : Describes (.ofMantissaAndAccuracy m acc) e x) (he : e ≤ target m e) :
    Rounds x (roundWithAccuracy .binary64 .positive m e acc) := by
  have hd := h.shiftRight (target m e - e).toNat
  have hf := fits_div he
  rw [← mantissa_ofMantissaAndAccuracy m acc, ← mantissa_shiftRight,
    mantissa_ofMantissaAndAccuracy] at hf
  obtain ⟨hform, hv⟩ := roundWithAccuracy_spec acc he
  refine ⟨hform, ?_, ?_⟩ <;> rw [hv]
  · exact le_roundedMantissa hd hf
  · exact roundedMantissa_le hd hf

end EchoMetrics.Binary
