import EchoMetrics.Proofs.Binary.Order

/-! # Products

Main statements: a product of positive floats is not negative, and of floats that are not negative
the greater one has the greater product. -/

namespace EchoMetrics.Binary

open Float.Model Float.Model.UnpackedFloat

section

variable {m n : Nat} {e k : Int}

theorem magnitude_mul_magnitude (m n : Nat) (e k : Int) :
    magnitude m e * magnitude n k = magnitude (m * n) (e + k) := by
  rw [magnitude, magnitude, magnitude, zpow_add₀ two_ne_zero, Nat.cast_mul]
  ring

/-- A product has all the digits that it is rounded to. -/
theorem le_target_mul (hm : Fits m e) (hn : Fits n k) (hm' : 0 < m) (hn' : 0 < n) :
    e + k ≤ target (m * n) (e + k) := by
  have hle := hm.least
  have hle' := hn.least
  by_cases hfull : 2 ^ 52 ≤ m * n
  · have hlog : 52 ≤ (m * n).log2 := (Nat.le_log2 (Nat.mul_pos hm' hn').ne').2 hfull
    rw [target]
    omega
  · have he : e = -1074 := by
      refine hm.full.resolve_left ?_
      intro h
      exact hfull (h.trans (Nat.le_mul_of_pos_right m hn'))
    have hk : k = -1074 := by
      refine hn.full.resolve_left ?_
      intro h
      exact hfull (h.trans (Nat.le_mul_of_pos_left n hm'))
    rw [target]
    omega

theorem mul_finite (hm' : 0 < m) (hn' : 0 < n) :
    UnpackedFloat.mul .binary64 (.finite .positive m e hm') (.finite .positive n k hn') =
      roundWithAccuracy .binary64 .positive (m * n) (e + k) .exact := rfl

theorem rounds_mul (hm : Fits m e) (hn : Fits n k) (hm' : 0 < m) (hn' : 0 < n) :
    Rounds (magnitude m e * magnitude n k)
      (UnpackedFloat.mul .binary64 (.finite .positive m e hm') (.finite .positive n k hn')) := by
  rw [mul_finite, magnitude_mul_magnitude]
  exact rounds_roundWithAccuracy (describes_exact _ _) (le_target_mul hm hn hm' hn')

theorem nearest_mul (hm : Fits m e) (hn : Fits n k) (hm' : 0 < m) (hn' : 0 < n) :
    Nearest (magnitude m e * magnitude n k)
      (UnpackedFloat.mul .binary64 (.finite .positive m e hm') (.finite .positive n k hn')) := by
  rw [mul_finite, magnitude_mul_magnitude]
  exact nearest_roundWithAccuracy (le_target_mul hm hn hm' hn')

end

variable {u v w : UnpackedFloat}

/-- A number above zero. -/
inductive Positive : UnpackedFloat → Prop
  | infinity : Positive (.infinity .positive)
  | finite (m : Nat) (e : Int) (h : 0 < m) : Positive (.finite .positive m e h)

theorem nonNegative_mul (cu : Canonical u) (cv : Canonical v) (hu : Positive u) (hv : Positive v) :
    NonNegative (stored (u.mul .binary64 v)) := by
  cases hu with
  | infinity =>
    cases hv <;> exact (stored_of_canonical (.infinity .positive)).symm ▸ .infinity
  | finite m e hm =>
    cases hv with
    | infinity => exact (stored_of_canonical (.infinity .positive)).symm ▸ .infinity
    | finite n k hn => exact (rounds_mul cu.fits cv.fits hm hn).nonNegative_stored

theorem nonNegative_mul_finite (cu : Canonical u) (hu : NonNegative u) {n : Nat} {k : Int}
    (hn : Fits n k) (hn' : 0 < n) :
    NonNegative (stored (u.mul .binary64 (.finite .positive n k hn'))) := by
  cases hu with
  | infinity => exact (stored_of_canonical (.infinity .positive)).symm ▸ .infinity
  | zero s => exact (stored_of_canonical (.zero _)).symm ▸ .zero _
  | finite m e hm => exact (rounds_mul cu.fits hn hm hn').nonNegative_stored

/-- Of two numbers the greater one has no lesser product with a finite number. -/
theorem extent_mul_le (cu : Canonical u) (cv : Canonical v) (hu : NonNegative u)
    (hv : NonNegative v) (h : extent u < extent v) {n : Nat} {k : Int} (hn : Fits n k)
    (hn' : 0 < n) :
    extent (stored (u.mul .binary64 (.finite .positive n k hn'))) ≤
      extent (stored (v.mul .binary64 (.finite .positive n k hn'))) := by
  cases hu with
  | infinity => exact absurd le_top h.not_ge
  | zero s =>
    have hzero : stored (UnpackedFloat.mul .binary64 (.zero s) (.finite .positive n k hn')) =
        .zero (s * .positive) := stored_of_canonical (.zero _)
    rw [hzero]
    exact (nonNegative_mul_finite cv hv hn hn').extent_nonneg
  | finite m e hm =>
    cases hv with
    | infinity =>
      have hinfinity : stored (UnpackedFloat.mul .binary64 (.infinity .positive)
          (.finite .positive n k hn')) = .infinity .positive :=
        stored_of_canonical (.infinity .positive)
      rw [hinfinity]
      exact le_top
    | zero s => exact absurd (WithTop.coe_le_coe.2 magnitude_nonneg) h.not_ge
    | finite m' e' hm' =>
      have hlt : magnitude m e * magnitude n k < magnitude m' e' * magnitude n k :=
        mul_lt_mul_of_pos_right (WithTop.coe_lt_coe.1 h) (magnitude_pos hn')
      have hr := rounds_mul cu.fits hn hm hn'
      have hr' := rounds_mul cv.fits hn hm' hn'
      exact hr.extent_stored_le hr'
        (hr.value_le (nearest_mul cu.fits hn hm hn') hr' (nearest_mul cv.fits hn hm' hn') hlt)

theorem lt_iff_extent_lt (cu : Canonical u) (cv : Canonical v) (hu : NonNegative u)
    (hv : NonNegative v) : u.lt v = true ↔ extent u < extent v := by
  rcases hu.infinity_or_finite with rfl | fu
  · refine iff_of_false ?_ le_top.not_gt
    cases hv <;> exact Bool.false_ne_true
  · rcases hv.infinity_or_finite with rfl | fv
    · rw [extent_of_isFinite fu]
      refine iff_of_true ?_ (WithTop.coe_lt_top _)
      cases hu with
      | infinity => cases fu
      | zero | finite => rfl
    · rw [extent_of_isFinite fu, extent_of_isFinite fv, WithTop.coe_lt_coe]
      exact lt_iff_value_lt cu cv fu fv

theorem positive_of_zero_lt (h : (UnpackedFloat.zero .positive).lt u = true) : Positive u := by
  cases u with
  | notANumber | zero => cases h
  | infinity s =>
    cases s with
    | positive => exact .infinity
    | negative => cases h
  | finite s m e hm =>
    cases s with
    | positive => exact .finite m e hm
    | negative => cases h

theorem Positive.nonNegative (h : Positive u) : NonNegative u := by
  cases h with
  | infinity => exact .infinity
  | finite m e hm => exact .finite m e hm

/-! ## Floats -/

variable {x y z : Float}

theorem positive_of_pos (h : 0.0 < x) : Positive x.toModel.unpack := by
  have hlt : (0.0 : Float).toModel.unpack.lt x.toModel.unpack = true := of_decide_eq_true h
  rw [unpack_zero] at hlt
  exact positive_of_zero_lt hlt

theorem zero_le_of_pos (h : 0.0 < x) : 0.0 ≤ x := zero_le_iff.2 (positive_of_pos h).nonNegative

theorem lt_iff_size_lt (hx : 0.0 ≤ x) (hy : 0.0 ≤ y) : x < y ↔ size x < size y := by
  show decide (x.toModel.unpack.lt y.toModel.unpack = true) = true ↔ _
  rw [decide_eq_true_iff]
  exact lt_iff_extent_lt (canonical x) (canonical y) (zero_le_iff.1 hx) (zero_le_iff.1 hy)

theorem le_of_not_lt_of_zero_le (hx : 0.0 ≤ x) (hy : 0.0 ≤ y) (h : ¬ y < x) : x ≤ y := by
  rw [lt_iff_size_lt hy hx] at h
  exact (le_iff_size_le hx hy).2 (not_lt.1 h)

theorem floatOfNat_pos {n : Nat} (h : 0 < n) : 0.0 < floatOfNat n := by
  have hone : 0.0 < floatOfNat 1 := by decide +kernel
  have hzero := le_refl_of_zero_le (x := 0.0) (by decide +kernel)
  have hle := floatOfNat_le (m := 1) h
  rw [le_iff_size_le (zero_le_floatOfNat 1) (zero_le_floatOfNat n)] at hle
  rw [lt_iff_size_lt hzero (zero_le_floatOfNat 1)] at hone
  rw [lt_iff_size_lt hzero (zero_le_floatOfNat n)]
  exact hone.trans_le hle

theorem zero_le_mul (hx : 0.0 < x) (hy : 0.0 < y) : 0.0 ≤ x * y := by
  have hmul : (x * y).toModel.unpack = stored (x.toModel.unpack.mul .binary64 y.toModel.unpack) :=
    rfl
  rw [zero_le_iff, hmul]
  exact nonNegative_mul (canonical x) (canonical y) (positive_of_pos hx) (positive_of_pos hy)

/-- What a product stays below, a lesser product stays below. -/
theorem mul_lt_of_lt (hx : 0.0 ≤ x) (hxy : x < y) (hy : 0.0 ≤ y) {c b : Float}
    (hc : c.isFinite = true) (hpos : 0.0 < c) (hb : 0.0 ≤ b) (h : y * c < b) : x * c < b := by
  have hmul (x : Float) :
      (x * c).toModel.unpack = stored (x.toModel.unpack.mul .binary64 c.toModel.unpack) := rfl
  have hcc := canonical c
  rw [lt_iff_val_lt isFinite_zero hc, val_zero] at hpos
  obtain ⟨n, k, hn, hc⟩ := eq_finite_of_pos hpos
  rw [hc] at hcc
  have hnonneg {x : Float} (hx : 0.0 ≤ x) : 0.0 ≤ x * c := by
    rw [zero_le_iff, hmul, hc]
    exact nonNegative_mul_finite (canonical x) (zero_le_iff.1 hx) hcc.fits hn
  have hle : size (x * c) ≤ size (y * c) := by
    rw [size, size, hmul, hmul, hc]
    exact extent_mul_le (canonical x) (canonical y) (zero_le_iff.1 hx) (zero_le_iff.1 hy)
      ((lt_iff_size_lt hx hy).1 hxy) hcc.fits hn
  rw [lt_iff_size_lt (hnonneg hy) hb] at h
  rw [lt_iff_size_lt (hnonneg hx) hb]
  exact hle.trans_lt h

end EchoMetrics.Binary
