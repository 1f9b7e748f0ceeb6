import EchoMetrics.Decimal.Basic
import EchoMetrics.Proofs.Binary.Rounding

/-! # Quotients, counts and decimals as floats

Main statements: a float that is divided by one not less than it gives a share of one, a power of
two stays finite as long as its exponent allows, and no decimal is read as a negative float. -/

namespace EchoMetrics.Binary

open Float.Model Float.Model.UnpackedFloat

/-! ## Results that do not overflow -/

theorem fits_greatest : Fits (2 ^ 53 - 1) 971 := ⟨by omega, by omega, .inl (by omega)⟩

/-- What a number is rounded to is stored as it is, unless the number is past the last finite
float. -/
theorem Rounds.canonical {x : ℚ} {u : UnpackedFloat} (h : Rounds x u)
    (hx : x ≤ magnitude (2 ^ 53 - 1) 971) : Canonical u := by
  rcases h.form with rfl | ⟨m, e, hm, rfl, hf⟩
  · exact .zero _
  · refine .finite hf ?_
    by_contra he
    have hlt : magnitude (2 ^ 53 - 1) 971 < magnitude m e :=
      magnitude_lt_of_exponent_lt (by omega) hf (by omega) (by omega)
    exact absurd (h.above fits_greatest hx) (not_le.2 hlt)

theorem Rounds.isFinite {x : ℚ} {u : UnpackedFloat} (h : Rounds x u) : u.isFinite = true := by
  rcases h.form with rfl | ⟨m, e, hm, rfl, -⟩ <;> rfl

/-! ## Quotients -/

theorem magnitude_mul (m n : Nat) (e : Int) : magnitude m e * n = magnitude (m * n) e := by
  rw [magnitude, magnitude, Nat.cast_mul]
  ring

/-- Whole-number division cuts a quotient off. -/
theorem describes_div (m : Nat) {n : Nat} (hn : 0 < n) (e : Int) :
    Describes (.ofMantissaAndAccuracy (m / n) (accuracyOfFraction (m % n) n)) e
      (magnitude m e / n) := by
  have hn' : (0 : ℚ) < n := Nat.cast_pos.2 hn
  have hdiv := Nat.div_add_mod' m n
  have hmod := Nat.mod_lt m hn
  refine ⟨?_, ?_, ?_⟩ <;> rw [mantissa_ofMantissaAndAccuracy]
  · rw [le_div_iff₀ hn', magnitude_mul, magnitude_le_magnitude]
    omega
  · rw [div_lt_iff₀ hn', magnitude_mul, magnitude_lt_magnitude, Nat.add_mul]
    omega
  · rw [eq_div_iff hn'.ne', magnitude_mul]
    have heq : magnitude (m / n * n) e = magnitude m e ↔ m % n = 0 := by
      rw [le_antisymm_iff, magnitude_le_magnitude, magnitude_le_magnitude]
      omega
    rw [heq, accuracyOfFraction]
    by_cases h0 : m % n = 0
    · rw [if_pos h0]
      exact iff_of_true h0 rfl
    · rw [if_neg h0]
      refine iff_of_false h0 ?_
      cases compare (2 * (m % n)) n <;> exact Bool.noConfusion

variable {m₁ m₂ : Nat} {e₁ e₂ : Int}

/-- The exponent to which a quotient is cut off. -/
def quotientExponent (m₁ : Nat) (e₁ : Int) (m₂ : Nat) (e₂ : Int) : Int :=
  min (e₁ - e₂) (Format.binary64.targetExponent (totalExponent m₁ e₁ - totalExponent m₂ e₂))

theorem magnitude_div (m₁ : Nat) {t : Int} (h : t ≤ e₁ - e₂) :
    magnitude m₁ e₁ / magnitude m₂ e₂ = magnitude (m₁ <<< (e₁ - e₂ - t).toNat) t / m₂ := by
  rw [Nat.shiftLeft_eq, ← magnitude_lower h, magnitude, magnitude, magnitude,
    zpow_sub₀ two_ne_zero]
  rw [mul_div_mul_comm]
  ring

/-- A quotient is cut off late enough for all digits. -/
theorem quotientExponent_le (h₁ : 0 < m₁) (h₂ : 0 < m₂) :
    quotientExponent m₁ e₁ m₂ e₂ ≤
      target (m₁ <<< (e₁ - e₂ - quotientExponent m₁ e₁ m₂ e₂).toNat / m₂)
        (quotientExponent m₁ e₁ m₂ e₂) := by
  have ht : quotientExponent m₁ e₁ m₂ e₂ =
      min (e₁ - e₂) (max ((m₁.log2 + 1 + e₁ - (m₂.log2 + 1 + e₂)) - 53) (-1074)) := rfl
  generalize quotientExponent m₁ e₁ m₂ e₂ = t at ht
  by_cases hl : t ≤ -1074
  · exact hl.trans (le_max_right _ _)
  · have hs : 52 + (m₂.log2 + 1) ≤ m₁.log2 + (e₁ - e₂ - t).toNat := by omega
    generalize (e₁ - e₂ - t).toNat = s at hs
    have hq : 2 ^ 52 ≤ m₁ <<< s / m₂ := by
      rw [Nat.le_div_iff_mul_le h₂, Nat.shiftLeft_eq]
      calc 2 ^ 52 * m₂ ≤ 2 ^ 52 * 2 ^ (m₂.log2 + 1) :=
            Nat.mul_le_mul_left _ Nat.lt_log2_self.le
        _ = 2 ^ (52 + (m₂.log2 + 1)) := (pow_add ..).symm
        _ ≤ 2 ^ (m₁.log2 + s) := Nat.pow_le_pow_right (by omega) hs
        _ = 2 ^ m₁.log2 * 2 ^ s := pow_add ..
        _ ≤ m₁ * 2 ^ s := Nat.mul_le_mul_right _ (Nat.log2_self_le h₁.ne')
    have hlog : 52 ≤ (m₁ <<< s / m₂).log2 := (Nat.le_log2 (by omega)).2 hq
    refine le_trans ?_ (le_max_left _ _)
    omega

theorem rounds_div (h₁ : 0 < m₁) (h₂ : 0 < m₂) (e₁ e₂ : Int) :
    Rounds (magnitude m₁ e₁ / magnitude m₂ e₂)
      (UnpackedFloat.div .binary64 (.finite .positive m₁ e₁ h₁) (.finite .positive m₂ e₂ h₂)) := by
  rw [magnitude_div m₁ (min_le_left _ _)]
  exact rounds_roundWithAccuracy (describes_div _ h₂ _) (quotientExponent_le h₁ h₂)

/-! ## Numbers with too many digits or too few -/

theorem log2_shiftLeft {n : Nat} (h : 0 < n) (s : Nat) : (n <<< s).log2 = n.log2 + s := by
  have hpos := Nat.two_pow_pos s
  rw [Nat.shiftLeft_eq, Nat.log2_eq_iff (Nat.mul_pos h hpos).ne', pow_add, pow_succ, pow_add,
    mul_right_comm, ← pow_succ]
  exact ⟨Nat.mul_le_mul_right _ (Nat.log2_self_le h.ne'),
    Nat.mul_lt_mul_of_pos_right Nat.lt_log2_self hpos⟩

theorem magnitude_shiftLeft (m s : Nat) (e : Int) :
    magnitude (m <<< s) (e - s) = magnitude m e := by
  rw [magnitude_lower (show e - s ≤ e by omega), Nat.shiftLeft_eq]
  congr 3
  omega

/-- Zeros behind the last digit do not change where a number is cut off. -/
theorem target_shiftLeft {m : Nat} (h : 0 < m) (s : Nat) (e : Int) :
    target (m <<< s) (e - s) = target m e := by
  rw [target, target, log2_shiftLeft h]
  congr 2
  push_cast
  ring

theorem round_eq (m : Nat) (e : Int) :
    UnpackedFloat.round .binary64 .positive m e =
      roundWithAccuracy .binary64 .positive (m <<< (e - target m e).toNat)
        (e - (e - target m e).toNat) .exact := rfl

theorem rounds_round {m : Nat} (h : 0 < m) (e : Int) :
    Rounds (magnitude m e) (UnpackedFloat.round .binary64 .positive m e) := by
  rw [round_eq, ← magnitude_shiftLeft m (e - target m e).toNat e]
  refine rounds_roundWithAccuracy (describes_exact _ _) ?_
  rw [target_shiftLeft h]
  omega

/-! ## Counts -/

theorem magnitude_zero_right (n : Nat) : magnitude n 0 = n := by
  rw [magnitude, zpow_zero, mul_one]

theorem ofNat_eq_round {n : Nat} (h : 0 < n) :
    UnpackedFloat.ofNat .binary64 n = UnpackedFloat.round .binary64 .positive n 0 := by
  rw [UnpackedFloat.ofNat, UnpackedFloat.ofInt, UnpackedFloat.normalize,
    compare_gt_iff_gt.2 (Int.natCast_pos.2 h)]
  rfl

theorem rounds_ofNat (n : Nat) : Rounds n (UnpackedFloat.ofNat .binary64 n) := by
  rcases Nat.eq_zero_or_pos n with rfl | hpos
  · exact ⟨.inl rfl, fun _ hm => hm.trans_eq Nat.cast_zero, fun _ _ => magnitude_nonneg⟩
  · rw [ofNat_eq_round hpos, ← magnitude_zero_right]
    exact rounds_round hpos 0

/-! ## Floats -/

theorem isFinite_zero : (0.0 : Float).isFinite = true := by decide +kernel

theorem val_zero : val 0.0 = 0 := by
  have h : (0.0 : Float) = .ofModel (.pack (.zero .positive)) := by decide +kernel
  rw [h, val_ofModel_pack (.zero _)]
  rfl

theorem fits_one : Fits (2 ^ 52) (-52) := ⟨by omega, by omega, .inl le_rfl⟩

theorem magnitude_one : magnitude (2 ^ 52) (-52) = 1 := by
  norm_num [magnitude]

theorem isFinite_one : (1.0 : Float).isFinite = true := by decide +kernel

theorem val_one : val 1.0 = 1 := by
  have h : (1.0 : Float) = .ofModel (.pack (.finite .positive (2 ^ 52) (-52) (by decide))) := by
    decide +kernel
  rw [h, val_ofModel_pack (.finite fits_one (by omega))]
  exact magnitude_one

/-- A count that is not past the last finite float is read as a finite float. -/
theorem isFinite_floatOfNat {n : Nat} (h : n ≤ (2 ^ 53 - 1) * 2 ^ 971) :
    (floatOfNat n).isFinite = true := by
  have hr := rounds_ofNat n
  have hn : (n : ℚ) ≤ magnitude (2 ^ 53 - 1) 971 := by
    rw [← magnitude_zero_right, magnitude_lower (show (0 : Int) ≤ 971 by omega),
      magnitude_le_magnitude, show (971 - 0 : Int).toNat = 971 from rfl]
    exact h
  exact (isFinite_ofModel_pack (hr.canonical hn)).trans hr.isFinite

theorem isInf_floatOfNat_two_pow {k : Nat} (h : k < 1024) :
    (floatOfNat (Nat.pow 2 k)).isInf = false := by
  have hle : 2 ^ k ≤ (2 ^ 53 - 1) * 2 ^ 971 :=
    calc 2 ^ k ≤ 2 ^ (52 + 971) := Nat.pow_le_pow_right (by omega) (by omega)
      _ = 2 ^ 52 * 2 ^ 971 := pow_add ..
      _ ≤ (2 ^ 53 - 1) * 2 ^ 971 := Nat.mul_le_mul_right _ (by omega)
  have hf := isFinite_floatOfNat hle
  revert hf
  show UnpackedFloat.isFinite (floatOfNat (2 ^ k)).toModel.unpack = true →
    UnpackedFloat.isInf (floatOfNat (2 ^ k)).toModel.unpack = false
  cases (floatOfNat (2 ^ k)).toModel.unpack <;> simp [UnpackedFloat.isFinite, UnpackedFloat.isInf]

theorem eq_finite_of_pos {u : UnpackedFloat} (h : 0 < value u) :
    ∃ m e hm, u = .finite .positive m e hm := by
  rcases u with _ | _ | _ | ⟨s, m, e, hm⟩
  · exact absurd h (lt_irrefl _)
  · exact absurd h (lt_irrefl _)
  · exact absurd h (lt_irrefl _)
  · cases s with
    | positive => exact ⟨m, e, hm, rfl⟩
    | negative => exact absurd h (neg_neg_of_pos (magnitude_pos hm)).not_gt

theorem fits_zero : Fits 0 (-1074) := ⟨by omega, le_rfl, .inr rfl⟩

theorem magnitude_zero (e : Int) : magnitude 0 e = 0 := by
  rw [magnitude, Nat.cast_zero, zero_mul]

/-- A share of one is rounded to a share of one. -/
theorem Rounds.mem_unit {x : ℚ} {u : UnpackedFloat} (h : Rounds x u) (h0 : 0 ≤ x) (h1 : x ≤ 1) :
    Canonical u ∧ 0 ≤ value u ∧ value u ≤ 1 := by
  have hgreat : magnitude (2 ^ 52) (-52) < magnitude (2 ^ 53 - 1) 971 :=
    magnitude_lt_of_exponent_lt (by omega) fits_greatest (by omega) (by omega)
  rw [← magnitude_one] at h1 ⊢
  rw [← magnitude_zero (-1074)] at h0 ⊢
  exact ⟨h.canonical (h1.trans hgreat.le), h.below fits_zero h0, h.above fits_one h1⟩

theorem div_unpacked_mem_unit {u v : UnpackedFloat} (hu : u.isFinite = true) (h0 : 0 ≤ value u)
    (hpos : 0 < value v) (hle : value u ≤ value v) :
    Canonical (u.div .binary64 v) ∧ (u.div .binary64 v).isFinite = true ∧
      0 ≤ value (u.div .binary64 v) ∧ value (u.div .binary64 v) ≤ 1 := by
  obtain ⟨m₂, e₂, hm₂, rfl⟩ := eq_finite_of_pos hpos
  rcases u with _ | _ | s | ⟨_ | _, m₁, e₁, hm₁⟩
  · simp [UnpackedFloat.isFinite] at hu
  · simp [UnpackedFloat.isFinite] at hu
  · exact ⟨.zero _, rfl, le_rfl, zero_le_one⟩
  · exact absurd h0 (neg_neg_of_pos (magnitude_pos hm₁)).not_ge
  · have hr := rounds_div hm₁ hm₂ e₁ e₂
    obtain ⟨hc, hge, hle⟩ := hr.mem_unit (div_nonneg h0 hpos.le) (div_le_one_of_le₀ hle hpos.le)
    exact ⟨hc, hr.isFinite, hge, hle⟩

/-- A float that is divided by one not less than it gives a share of one. -/
theorem div_mem_unit {x y : Float} (hx : x.isFinite = true) (hy : y.isFinite = true)
    (h0 : 0.0 ≤ x) (hpos : 0.0 < y) (hle : x ≤ y) : 0.0 ≤ x / y ∧ x / y ≤ 1.0 := by
  rw [le_iff_val_le isFinite_zero hx, val_zero] at h0
  rw [lt_iff_val_lt isFinite_zero hy, val_zero] at hpos
  rw [le_iff_val_le hx hy] at hle
  obtain ⟨hc, hf, hge, hle⟩ := div_unpacked_mem_unit hx h0 hpos hle
  have hval : val (x / y) = value _ := val_ofModel_pack hc
  have hf' : (x / y).isFinite = true := (isFinite_ofModel_pack hc).trans hf
  rw [le_iff_val_le isFinite_zero hf', le_iff_val_le hf' isFinite_one, val_zero, val_one, hval]
  exact ⟨hge, hle⟩

/-! ## Decimals -/

/-- A float whose sign is positive. -/
inductive Unsigned : UnpackedFloat → Prop
  | infinity : Unsigned (.infinity .positive)
  | zero : Unsigned (.zero .positive)
  | finite {m : Nat} {e : Int} {h : 0 < m} : Unsigned (.finite .positive m e h)

theorem unsigned_roundWithAccuracy (m : Nat) (e : Int) (acc : Accuracy) :
    Unsigned (roundWithAccuracy .binary64 .positive m e acc) := by
  simp only [roundWithAccuracy]
  split
  · exact .zero
  · exact .finite

theorem unsigned_ofScientific (m : Nat) (e : Int) :
    Unsigned (UnpackedFloat.ofScientific .binary64 m e) := by
  simp only [UnpackedFloat.ofScientific]
  split
  · exact .zero
  · split
    · exact .infinity
    · split
      · exact .zero
      · split
        · exact unsigned_roundWithAccuracy _ _ _
        · exact unsigned_roundWithAccuracy _ _ _

/-- The sign outlasts packing, whatever else does. -/
theorem unpackSign_pack {u : UnpackedFloat} (h : Unsigned u) :
    unpackSign (UnpackedFloat.pack .binary64 u) = 0#1 := by
  cases h with
  | infinity => rfl
  | zero => rfl
  | finite =>
    simp only [UnpackedFloat.pack]
    split
    · rfl
    · split <;> exact unpackSign_packComponents .positive _ _

theorem value_unpack_nonneg {b : BitVec Format.binary64.numBits} (h : unpackSign b = 0#1) :
    0 ≤ value (UnpackedFloat.unpack .binary64 b) := by
  simp only [UnpackedFloat.unpack, h]
  split
  · split <;> exact le_rfl
  · split
    · split
      · exact le_rfl
      · exact magnitude_nonneg
    · exact magnitude_nonneg

/-- No decimal is read as a negative float. -/
theorem zero_le_toFloat {d : Decimal} (h : d.toFloat.isFinite = true) : 0.0 ≤ d.toFloat := by
  rw [le_iff_val_le isFinite_zero h, val_zero]
  exact value_unpack_nonneg (unpackSign_pack (unsigned_ofScientific _ _))

end EchoMetrics.Binary
