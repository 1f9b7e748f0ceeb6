import EchoMetrics.Proofs.Binary.Nearest

/-! # Floats that are not negative

Sums of durations may reach infinity, but are always numbers. Main statements: floats that are not
negative are ordered with infinity above all others, a sum is not less than what something was added
to, and the floats of counts are in the order of the counts. -/

namespace EchoMetrics.Binary

open Float.Model Float.Model.UnpackedFloat

/-! ## The order -/

/-- A number that is not negative, whatever the sign of a zero is. -/
inductive NonNegative : UnpackedFloat → Prop
  | infinity : NonNegative (.infinity .positive)
  | zero (s : Sign) : NonNegative (.zero s)
  | finite (m : Nat) (e : Int) (h : 0 < m) : NonNegative (.finite .positive m e h)

/-- What a float that is not negative stands for. -/
def extent : UnpackedFloat → WithTop ℚ
  | .infinity .positive => ⊤
  | u => (value u : ℚ)

variable {u v : UnpackedFloat}

theorem extent_of_isFinite (h : u.isFinite = true) : extent u = (value u : ℚ) := by
  cases u with
  | infinity | notANumber => cases h
  | zero | finite => rfl

theorem NonNegative.infinity_or_finite (h : NonNegative u) :
    u = .infinity .positive ∨ u.isFinite = true := by
  cases h with
  | infinity => exact .inl rfl
  | zero | finite => exact .inr rfl

theorem NonNegative.extent_nonneg (h : NonNegative u) : 0 ≤ extent u := by
  cases h with
  | infinity => exact le_top
  | zero => exact le_rfl
  | finite m e hm => exact WithTop.coe_le_coe.2 magnitude_nonneg

theorem le_iff_extent_le (cu : Canonical u) (cv : Canonical v) (hu : NonNegative u)
    (hv : NonNegative v) : u.le v = true ↔ extent u ≤ extent v := by
  rcases hu.infinity_or_finite with rfl | fu
  · cases hv with
    | infinity => exact iff_of_true rfl le_rfl
    | zero | finite => exact iff_of_false Bool.false_ne_true (WithTop.not_top_le_coe _)
  · rcases hv.infinity_or_finite with rfl | fv
    · refine iff_of_true ?_ le_top
      cases hu with
      | infinity => cases fu
      | zero | finite => rfl
    · rw [extent_of_isFinite fu, extent_of_isFinite fv, WithTop.coe_le_coe]
      exact le_iff_value_le cu cv fu fv

theorem zero_le_iff_nonNegative : (UnpackedFloat.zero .positive).le u = true ↔ NonNegative u := by
  constructor
  · intro h
    cases u with
    | notANumber => cases h
    | infinity s =>
      cases s with
      | positive => exact .infinity
      | negative => cases h
    | zero s => exact .zero s
    | finite s m e hm =>
      cases s with
      | positive => exact .finite m e hm
      | negative => cases h
  · intro h
    cases h <;> rfl

/-! ## Packing -/

/-- A number as it is stored: rounded, or infinity if it is past the last finite float. -/
def stored (u : UnpackedFloat) : UnpackedFloat :=
  UnpackedFloat.unpack .binary64 (UnpackedFloat.pack .binary64 u)

theorem stored_cases (h : u = .zero .positive ∨ ∃ m e h, u = .finite .positive m e h ∧ Fits m e) :
    NonNegative (stored u) ∧
      (stored u = u ∧ value u < magnitude (2 ^ 52) 972 ∨
        stored u = .infinity .positive ∧ magnitude (2 ^ 52) 972 ≤ value u) := by
  rcases h with rfl | ⟨m, e, hm, rfl, hf⟩
  · have hs : stored (.zero .positive) = .zero .positive := unpack_pack (.zero _)
    rw [hs]
    exact ⟨.zero _, .inl ⟨rfl, magnitude_pos (Nat.two_pow_pos 52)⟩⟩
  · by_cases he : e ≤ 971
    · have hs : stored (.finite .positive m e hm) = .finite .positive m e hm :=
        unpack_pack (.finite hf he)
      rw [hs]
      exact ⟨.finite m e hm, .inl ⟨rfl,
        magnitude_lt_of_exponent_lt hf.lt fits_past (by omega) hf.least⟩⟩
    · have hs : stored (.finite .positive m e hm) = .infinity .positive :=
        unpack_pack_of_past _ hm (not_le.1 he)
      have hpast := (isInf_pack_iff (.inr ⟨m, e, hm, rfl, hf⟩)).1 (congrArg UnpackedFloat.isInf hs)
      rw [hs]
      exact ⟨.infinity, .inr ⟨rfl, hpast⟩⟩

namespace Rounds

variable {x y : ℚ}

theorem nonNegative_stored (h : Rounds x u) : NonNegative (stored u) := (stored_cases h.form).1

/-- What a number is rounded to is stored as no less. -/
theorem le_extent_stored (h : Rounds x u) {m : Nat} {e : Int} (hm : Fits m e)
    (hx : magnitude m e ≤ x) : (magnitude m e : WithTop ℚ) ≤ extent (stored u) := by
  obtain ⟨-, ⟨hs, -⟩ | ⟨hs, -⟩⟩ := stored_cases h.form
  · rw [hs, extent_of_isFinite h.isFinite, WithTop.coe_le_coe]
    exact h.below hm hx
  · rw [hs]
    exact le_top

/-- Storing keeps the order. -/
theorem extent_stored_le (hu : Rounds x u) (hv : Rounds y v) (h : value u ≤ value v) :
    extent (stored u) ≤ extent (stored v) := by
  obtain ⟨-, ⟨hsv, hlt⟩ | ⟨hsv, -⟩⟩ := stored_cases hv.form
  · obtain ⟨-, ⟨hsu, -⟩ | ⟨-, hpast⟩⟩ := stored_cases hu.form
    · rw [hsu, hsv, extent_of_isFinite hu.isFinite, extent_of_isFinite hv.isFinite,
        WithTop.coe_le_coe]
      exact h
    · exact absurd (hpast.trans h) hlt.not_ge
  · rw [hsv]
    exact le_top

end Rounds

/-! ## Sums -/

section

variable {m₁ m₂ : Nat} {e₁ e₂ : Int}

theorem magnitude_decrease (m : Nat) {e t : Int} (h : t ≤ e) :
    magnitude (m <<< (e - t).toNat) t = magnitude m e := by
  rw [Nat.shiftLeft_eq, ← magnitude_lower h]

theorem magnitude_add (m n : Nat) (e : Int) :
    magnitude (m + n) e = magnitude m e + magnitude n e := by
  rw [magnitude, magnitude, magnitude, Nat.cast_add, add_mul]

/-- Numbers are added with the exponent of the lesser one. -/
theorem rounds_add (h₁ : 0 < m₁) (h₂ : 0 < m₂) (e₁ e₂ : Int) :
    Rounds (magnitude m₁ e₁ + magnitude m₂ e₂)
      (UnpackedFloat.add .binary64 (.finite .positive m₁ e₁ h₁) (.finite .positive m₂ e₂ h₂)) := by
  have hpos : 0 < m₁ <<< (e₁ - min e₁ e₂).toNat + m₂ <<< (e₂ - min e₁ e₂).toNat := by
    rw [Nat.shiftLeft_eq]
    exact Nat.add_pos_left (Nat.mul_pos h₁ (Nat.two_pow_pos _)) _
  have hround : UnpackedFloat.add .binary64 (.finite .positive m₁ e₁ h₁)
      (.finite .positive m₂ e₂ h₂) = UnpackedFloat.round .binary64 .positive
        (m₁ <<< (e₁ - min e₁ e₂).toNat + m₂ <<< (e₂ - min e₁ e₂).toNat) (min e₁ e₂) := by
    change UnpackedFloat.normalize .binary64 (((m₁ <<< (e₁ - min e₁ e₂).toNat : Nat) : Int) +
      ((m₂ <<< (e₂ - min e₁ e₂).toNat : Nat) : Int)) (min e₁ e₂) .positive = _
    rw [← Int.natCast_add, UnpackedFloat.normalize, compare_gt_iff_gt.2 (Int.natCast_pos.2 hpos)]
    rfl
  have hr := rounds_round hpos (min e₁ e₂)
  rwa [magnitude_add, magnitude_decrease _ (min_le_left _ _),
    magnitude_decrease _ (min_le_right _ _), ← hround] at hr

end

theorem Canonical.fits {m : Nat} {e : Int} {s : Sign} {h : 0 < m}
    (hc : Canonical (.finite s m e h)) : Fits m e := by
  cases hc with
  | finite hf _ => exact hf

theorem stored_of_canonical (hc : Canonical u) : stored u = u := unpack_pack hc

/-- A sum is not negative, and not less than what something was added to. -/
theorem extent_le_add (cu : Canonical u) (cv : Canonical v) (hu : NonNegative u)
    (hv : NonNegative v) :
    NonNegative (stored (u.add .binary64 v)) ∧ extent u ≤ extent (stored (u.add .binary64 v)) := by
  cases hu with
  | infinity =>
    have hsum : UnpackedFloat.add .binary64 (.infinity .positive) v = .infinity .positive := by
      cases hv <;> rfl
    rw [hsum, stored_of_canonical (.infinity _)]
    exact ⟨.infinity, le_rfl⟩
  | zero s =>
    suffices h : NonNegative (stored ((UnpackedFloat.zero s).add .binary64 v)) from
      ⟨h, h.extent_nonneg⟩
    cases hv with
    | infinity =>
      exact (stored_of_canonical (.infinity .positive)).symm ▸ .infinity
    | zero s' =>
      cases s <;> cases s' <;> exact (stored_of_canonical (.zero _)).symm ▸ .zero _
    | finite m e hm => exact (stored_of_canonical cv).symm ▸ .finite m e hm
  | finite m e hm =>
    cases hv with
    | infinity =>
      have hsum : stored (UnpackedFloat.add .binary64 (.finite .positive m e hm)
          (.infinity .positive)) = .infinity .positive := stored_of_canonical (.infinity .positive)
      rw [hsum]
      exact ⟨.infinity, le_top⟩
    | zero s =>
      have hsum : stored (UnpackedFloat.add .binary64 (.finite .positive m e hm) (.zero s)) =
          .finite .positive m e hm := stored_of_canonical cu
      rw [hsum]
      exact ⟨.finite m e hm, le_rfl⟩
    | finite m' e' hm' =>
      have hr := rounds_add hm hm' e e'
      exact ⟨hr.nonNegative_stored,
        hr.le_extent_stored cu.fits (le_add_of_nonneg_right magnitude_nonneg)⟩

/-! ## Quotients and differences -/

/-- A part of a number that is not negative is not negative. -/
theorem nonNegative_div (hu : NonNegative u) {m : Nat} {e : Int} {h : 0 < m} :
    NonNegative (stored (u.div .binary64 (.finite .positive m e h))) := by
  cases hu with
  | infinity => exact (stored_of_canonical (.infinity .positive)).symm ▸ .infinity
  | zero s => cases s <;> exact (stored_of_canonical (.zero _)).symm ▸ .zero _
  | finite m₁ e₁ h₁ => exact (rounds_div h₁ h e₁ e).nonNegative_stored

theorem unpack_packComponents_ne {s : Sign} {k : BitVec 11} {m : BitVec 52} (h : k ≠ -1#_) :
    UnpackedFloat.unpack .binary64 (packComponents .binary64 s k m) ≠ .notANumber := by
  simp only [UnpackedFloat.unpack, unpackExponent_packComponents, if_neg h]
  split
  · split
    · intro hne
      cases hne
    · intro hne
      cases hne
  · intro hne
    cases hne

/-- Only what is no number is stored as none. -/
theorem stored_ne_notANumber (h : u ≠ .notANumber) : stored u ≠ .notANumber := by
  cases u with
  | notANumber => exact absurd rfl h
  | infinity s =>
    rw [stored_of_canonical (.infinity s)]
    exact h
  | zero s =>
    rw [stored_of_canonical (.zero s)]
    exact h
  | finite s m e hm =>
    rw [stored, UnpackedFloat.pack]
    split
    · rw [show packedInfinity .binary64 s = UnpackedFloat.pack .binary64 (.infinity s) from rfl,
        unpack_pack (.infinity s)]
      intro hne
      cases hne
    · rename_i hlt
      split
      · refine unpack_packComponents_ne ?_
        intro hk
        have hk' : (e + Format.binary64.exponentBias + (52 : Nat) : Int).toNat % 2 ^ 11 = 2047 :=
          congrArg BitVec.toNat hk
        have hlt' : ¬ 2 ^ 11 ≤ (e + Format.binary64.exponentBias + (52 : Nat) : Int).toNat + 1 :=
          hlt
        omega
      · exact unpack_packComponents_ne (by decide)

theorem normalize_ne_notANumber (m e : Int) (s : Sign) :
    UnpackedFloat.normalize .binary64 m e s ≠ .notANumber := by
  have hround (s : Sign) (m : Nat) (e : Int) (acc : Accuracy) :
      roundWithAccuracy .binary64 s m e acc ≠ .notANumber := by
    simp only [roundWithAccuracy]
    split
    · intro hne
      cases hne
    · intro hne
      cases hne
  rw [UnpackedFloat.normalize]
  split
  · exact hround _ _ _ _
  · intro hne
    cases hne
  · exact hround _ _ _ _

theorem sub_ne_notANumber (hu : u.isFinite = true) (hv : v.isFinite = true) :
    u.sub .binary64 v ≠ .notANumber := by
  cases u with
  | notANumber | infinity => cases hu
  | zero s =>
    cases v with
    | notANumber | infinity => cases hv
    | zero s' =>
      intro hne
      cases s <;> cases s' <;> cases hne
    | finite s' m' e' hm' =>
      intro hne
      cases hne
  | finite s m e hm =>
    cases v with
    | notANumber | infinity => cases hv
    | zero s' =>
      intro hne
      cases hne
    | finite s' m' e' hm' => exact normalize_ne_notANumber _ _ _

theorem Canonical.abs (h : Canonical u) : Canonical u.abs := by
  cases h with
  | notANumber => exact .notANumber
  | infinity => exact .infinity _
  | zero => exact .zero _
  | finite hf he => exact .finite hf he

theorem nonNegative_abs (h : u ≠ .notANumber) : NonNegative u.abs := by
  cases u with
  | notANumber => exact absurd rfl h
  | infinity => exact .infinity
  | zero => exact .zero _
  | finite s m e hm => exact .finite m e hm

/-! ## Floats -/

/-- What a float that is not negative stands for. -/
def size (x : Float) : WithTop ℚ := extent x.toModel.unpack

variable {x y z : Float}

theorem unpack_zero : (0.0 : Float).toModel.unpack = .zero .positive := by
  have h : (0.0 : Float) = .ofModel (.pack (.zero .positive)) := by decide +kernel
  rw [h]
  exact unpack_pack (.zero _)

theorem zero_le_iff : 0.0 ≤ x ↔ NonNegative x.toModel.unpack := by
  show decide ((0.0 : Float).toModel.unpack.le x.toModel.unpack = true) = true ↔ _
  rw [decide_eq_true_iff, unpack_zero]
  exact zero_le_iff_nonNegative

theorem isNaN_of_zero_le (h : 0.0 ≤ x) : x.isNaN = false := by
  have hu := zero_le_iff.1 h
  show x.toModel.unpack.isNaN = false
  generalize x.toModel.unpack = u at hu ⊢
  cases hu <;> rfl

theorem le_iff_size_le (hx : 0.0 ≤ x) (hy : 0.0 ≤ y) : x ≤ y ↔ size x ≤ size y := by
  show decide (x.toModel.unpack.le y.toModel.unpack = true) = true ↔ _
  rw [decide_eq_true_iff]
  exact le_iff_extent_le (canonical x) (canonical y) (zero_le_iff.1 hx) (zero_le_iff.1 hy)

theorem le_refl_of_zero_le (hx : 0.0 ≤ x) : x ≤ x := (le_iff_size_le hx hx).2 le_rfl

theorem le_trans_of_zero_le (hx : 0.0 ≤ x) (hy : 0.0 ≤ y) (hz : 0.0 ≤ z) (hxy : x ≤ y)
    (hyz : y ≤ z) : x ≤ z :=
  (le_iff_size_le hx hz).2 (((le_iff_size_le hx hy).1 hxy).trans ((le_iff_size_le hy hz).1 hyz))

/-- Adding a float that is not negative gives no less. -/
theorem le_add (hx : 0.0 ≤ x) (hy : 0.0 ≤ y) : 0.0 ≤ x + y ∧ x ≤ x + y := by
  obtain ⟨hsum, hle⟩ :=
    extent_le_add (canonical x) (canonical y) (zero_le_iff.1 hx) (zero_le_iff.1 hy)
  have hxy : 0.0 ≤ x + y := zero_le_iff.2 hsum
  exact ⟨hxy, (le_iff_size_le hx hxy).2 hle⟩

theorem zero_le_div (hx : 0.0 ≤ x) (hy : y.isFinite = true) (hpos : 0.0 < y) : 0.0 ≤ x / y := by
  rw [lt_iff_val_lt isFinite_zero hy, val_zero] at hpos
  obtain ⟨m, e, hm, hy⟩ := eq_finite_of_pos hpos
  have hdiv : (x / y).toModel.unpack = stored (x.toModel.unpack.div .binary64 y.toModel.unpack) :=
    rfl
  rw [zero_le_iff, hdiv, hy]
  exact nonNegative_div (zero_le_iff.1 hx)

theorem zero_le_abs_sub (hx : x.isFinite = true) (hy : y.isFinite = true) :
    0.0 ≤ (x - y).abs := by
  have hsub : (x - y).toModel.unpack = stored (x.toModel.unpack.sub .binary64 y.toModel.unpack) :=
    rfl
  have habs : (x - y).abs.toModel.unpack = stored (x - y).toModel.unpack.abs := rfl
  rw [zero_le_iff, habs]
  rw [stored_of_canonical (canonical (x - y)).abs, hsub]
  exact nonNegative_abs (stored_ne_notANumber (sub_ne_notANumber hx hy))

theorem zero_le_floatOfNat (n : Nat) : 0.0 ≤ floatOfNat n := by
  have hn : (floatOfNat n).toModel.unpack = stored (UnpackedFloat.ofNat .binary64 n) := rfl
  rw [zero_le_iff, hn]
  exact (rounds_ofNat n).nonNegative_stored

/-- The floats of counts are in the order of the counts. -/
theorem floatOfNat_le {m n : Nat} (h : m ≤ n) : floatOfNat m ≤ floatOfNat n := by
  have hsize (n : Nat) : size (floatOfNat n) = extent (stored (UnpackedFloat.ofNat .binary64 n)) :=
    rfl
  rw [le_iff_size_le (zero_le_floatOfNat m) (zero_le_floatOfNat n), hsize, hsize]
  exact (rounds_ofNat m).extent_stored_le (rounds_ofNat n) (value_ofNat_mono h)

end EchoMetrics.Binary
