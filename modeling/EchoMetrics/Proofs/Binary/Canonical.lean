import Mathlib

/-! # Floats as rational numbers

Every finite float is `m * 2 ^ e` for one mantissa and exponent, which are the ones that are stored.
Main statements: a float that is packed comes back as it was, and floats compare as the numbers that
they stand for. -/

namespace EchoMetrics.Binary

open Float.Model Float.Model.UnpackedFloat

/-- A mantissa and an exponent as they are stored, of whatever size: all digits are used, unless the
exponent is the least one. -/
structure Fits (m : Nat) (e : Int) : Prop where
  lt : m < 2 ^ 53
  least : -1074 ≤ e
  full : 2 ^ 52 ≤ m ∨ e = -1074

/-- The form in which floats are stored. -/
inductive Canonical : UnpackedFloat → Prop
  | notANumber : Canonical .notANumber
  | infinity (s : Sign) : Canonical (.infinity s)
  | zero (s : Sign) : Canonical (.zero s)
  | finite {s : Sign} {m : Nat} {e : Int} {h : 0 < m} :
      Fits m e → e ≤ 971 → Canonical (.finite s m e h)

/-- The number `m * 2 ^ e`. -/
def magnitude (m : Nat) (e : Int) : ℚ := m * 2 ^ e

/-- The number that a finite float stands for. -/
def value : UnpackedFloat → ℚ
  | .finite .positive m e _ => magnitude m e
  | .finite .negative m e _ => -magnitude m e
  | .zero _ | .infinity _ | .notANumber => 0

section

variable {m m' : Nat} {e e' : Int}

theorem magnitude_nonneg : 0 ≤ magnitude m e := by
  unfold magnitude; positivity

theorem magnitude_pos (h : 0 < m) : 0 < magnitude m e := by
  unfold magnitude; positivity

theorem magnitude_le_magnitude : magnitude m e ≤ magnitude m' e ↔ m ≤ m' := by
  rw [magnitude, magnitude, mul_le_mul_iff_left₀ (by positivity), Nat.cast_le]

theorem magnitude_lt_magnitude : magnitude m e < magnitude m' e ↔ m < m' := by
  rw [magnitude, magnitude, mul_lt_mul_iff_left₀ (by positivity), Nat.cast_lt]

/-- The same number with a lower exponent. -/
theorem magnitude_lower (h : e ≤ e') : magnitude m e' = magnitude (m * 2 ^ (e' - e).toNat) e := by
  have he : (2 : ℚ) ^ e' = 2 ^ (e' - e).toNat * 2 ^ e := by
    rw [← zpow_natCast, ← zpow_add₀ two_ne_zero]
    congr 1
    omega
  rw [magnitude, magnitude, he]
  push_cast
  ring

/-- What has the greater exponent is the greater number. -/
theorem magnitude_lt_of_exponent_lt (h : m < 2 ^ 53) (h' : Fits m' e') (he : e < e')
    (hl : -1074 ≤ e) : magnitude m e < magnitude m' e' := by
  have hm' : 2 ^ 52 ≤ m' := h'.full.resolve_right (by omega)
  rw [magnitude_lower (m := m') he.le, magnitude_lt_magnitude]
  calc m < 2 ^ 52 * 2 ^ 1 := h
    _ ≤ m' * 2 ^ (e' - e).toNat := Nat.mul_le_mul hm' (Nat.pow_le_pow_right (by omega) (by omega))

/-- Nothing that is stored lies strictly between two neighbours. -/
theorem Fits.magnitude_le (h : Fits m e) (h' : Fits m' e')
    (hlt : magnitude m' e' < magnitude (m + 1) e) : magnitude m' e' ≤ magnitude m e := by
  rcases lt_or_ge e' e with he | he
  · exact (magnitude_lt_of_exponent_lt h'.lt h he h'.least).le
  · rw [magnitude_lower he, magnitude_lt_magnitude] at hlt
    rw [magnitude_lower he, magnitude_le_magnitude]
    omega

end

/-! ## Comparing -/

theorem compares_magnitude {m m' : Nat} {e e' : Int} (h : Fits m e) (h' : Fits m' e') :
    ((compare e e').then (compare m m')).Compares (magnitude m e) (magnitude m' e') := by
  rcases lt_trichotomy e e' with he | rfl | he
  · rw [compare_lt_iff_lt.2 he]
    exact magnitude_lt_of_exponent_lt h.lt h' he h.least
  · rw [compare_eq_iff_eq.2 rfl, Ordering.eq_then]
    rcases lt_trichotomy m m' with hm | rfl | hm
    · rw [compare_lt_iff_lt.2 hm]
      exact magnitude_lt_magnitude.2 hm
    · rw [compare_eq_iff_eq.2 rfl]
      rfl
    · rw [compare_gt_iff_gt.2 hm]
      exact magnitude_lt_magnitude.2 hm
  · rw [compare_gt_iff_gt.2 he]
    exact magnitude_lt_of_exponent_lt h'.lt h he h'.least

/-- Finite floats compare as the numbers that they stand for. -/
theorem exists_compare {u v : UnpackedFloat} (hu : Canonical u) (hv : Canonical v)
    (fu : u.isFinite = true) (fv : v.isFinite = true) :
    ∃ o, u.compare v = some o ∧ o.Compares (value u) (value v) := by
  cases hu with
  | notANumber | infinity => simp [UnpackedFloat.isFinite] at fu
  | zero s =>
    cases hv with
    | notANumber | infinity => simp [UnpackedFloat.isFinite] at fv
    | zero s' => exact ⟨.eq, rfl, rfl⟩
    | @finite s' m' e' hm' hf' he' =>
      cases s' with
      | positive => exact ⟨.lt, rfl, magnitude_pos hm'⟩
      | negative => exact ⟨.gt, rfl, neg_neg_of_pos (magnitude_pos hm')⟩
  | @finite s m e hm hf he =>
    cases hv with
    | notANumber | infinity => simp [UnpackedFloat.isFinite] at fv
    | zero s' =>
      cases s with
      | positive => exact ⟨.gt, rfl, magnitude_pos hm⟩
      | negative => exact ⟨.lt, rfl, neg_neg_of_pos (magnitude_pos hm)⟩
    | @finite s' m' e' hm' hf' he' =>
      have hc := compares_magnitude hf hf'
      cases s <;> cases s'
      · refine ⟨_, rfl, ?_⟩
        show Ordering.Compares _ (-magnitude m e) (-magnitude m' e')
        revert hc
        cases (compare e e').then (compare m m') with
        | lt => exact neg_lt_neg
        | eq => exact congrArg Neg.neg
        | gt => exact neg_lt_neg
      · exact ⟨.lt, rfl, (neg_neg_of_pos (magnitude_pos hm)).trans (magnitude_pos hm')⟩
      · exact ⟨.gt, rfl, (neg_neg_of_pos (magnitude_pos hm')).trans (magnitude_pos hm)⟩
      · exact ⟨_, rfl, hc⟩

theorem le_iff_value_le {u v : UnpackedFloat} (hu : Canonical u) (hv : Canonical v)
    (fu : u.isFinite = true) (fv : v.isFinite = true) :
    u.le v = true ↔ value u ≤ value v := by
  obtain ⟨o, h, ho⟩ := exists_compare hu hv fu fv
  rw [UnpackedFloat.le, h, ← ho.ne_gt]
  cases o <;> decide

theorem lt_iff_value_lt {u v : UnpackedFloat} (hu : Canonical u) (hv : Canonical v)
    (fu : u.isFinite = true) (fv : v.isFinite = true) :
    u.lt v = true ↔ value u < value v := by
  obtain ⟨o, h, ho⟩ := exists_compare hu hv fu fv
  rw [UnpackedFloat.lt, h, ← ho.eq_lt]
  cases o <;> decide

/-! ## Packing -/

theorem bias_eq : (Format.binary64.exponentBias : Int) = 1023 := rfl

/-- The mantissa of a float that uses all digits, the first one of which is not stored. -/
theorem toNat_one_append (m : BitVec 52) : (1#1 ++ m).toNat = 2 ^ 52 + m.toNat := by
  rw [BitVec.toNat_append, ← Nat.shiftLeft_add_eq_or_of_lt m.isLt, Nat.shiftLeft_eq]
  rfl

theorem canonical_unpack (b : BitVec Format.binary64.numBits) :
    Canonical (UnpackedFloat.unpack .binary64 b) := by
  have hm : (unpackMantissa b).toNat < 2 ^ 52 := (unpackMantissa b).isLt
  have he : (unpackExponent b).toNat < 2 ^ 11 := (unpackExponent b).isLt
  have h52 : ((Format.binary64.mantissaBitsWithoutImplicit : Nat) : Int) = 52 := rfl
  rw [UnpackedFloat.unpack, bias_eq, h52]
  split
  · split
    · exact .infinity _
    · exact .notANumber
  · rename_i hi
    split
    · rename_i h0
      split
      · exact .zero _
      · have h0' : (unpackExponent b).toNat = 0 := by rw [h0]; rfl
        rw [h0']
        exact .finite ⟨by omega, by omega, .inr rfl⟩ (by omega)
    · rename_i h0
      have hi' : (unpackExponent b).toNat ≠ 2 ^ 11 - 1 := fun h => hi (BitVec.eq_of_toNat_eq h)
      have h0' : (unpackExponent b).toNat ≠ 0 := fun h => h0 (BitVec.eq_of_toNat_eq h)
      have hn := toNat_one_append (unpackMantissa b)
      exact .finite ⟨by omega, by omega, .inl (by omega)⟩ (by omega)

theorem log2_eq_of_full {m : Nat} (h : 2 ^ 52 ≤ m) (h' : m < 2 ^ 53) : m.log2 = 52 :=
  (Nat.log2_eq_iff (by omega)).2 ⟨h, h'⟩

/-- Packed components are unpacked one by one. -/
theorem unpack_normal {s : Sign} {k m : Nat} {h : 0 < m} (hk : 0 < k) (hk' : k < 2047)
    (hm : 2 ^ 52 ≤ m) (hm' : m < 2 ^ 53) :
    UnpackedFloat.unpack .binary64 (packComponents .binary64 s (BitVec.ofNat 11 k)
      (BitVec.ofNat 52 m)) = .finite s m (k - 1075) h := by
  have hn : (BitVec.ofNat 11 k).toNat = k := by
    rw [BitVec.toNat_ofNat, Nat.mod_eq_of_lt (by omega)]
  have hi : BitVec.ofNat 11 k ≠ -1#_ := by
    intro e
    have : k = 2047 := hn.symm.trans (congrArg BitVec.toNat e)
    omega
  have h0 : BitVec.ofNat 11 k ≠ 0#_ := by
    intro e
    have : k = 0 := hn.symm.trans (congrArg BitVec.toNat e)
    omega
  have hmant : (1#1 ++ BitVec.ofNat 52 m).toNat = m := by
    rw [toNat_one_append, BitVec.toNat_ofNat]
    omega
  simp only [UnpackedFloat.unpack, unpackExponent_packComponents, unpackMantissa_packComponents,
    unpackSign_packComponents, Sign.ofBitVec_toBitVec, if_neg hi, if_neg h0, hn, bias_eq, hmant]
  rfl

theorem unpack_subnormal {s : Sign} {m : Nat} {h : 0 < m} (hm : m < 2 ^ 52) :
    UnpackedFloat.unpack .binary64 (packComponents .binary64 s 0#_ (BitVec.ofNat 52 m)) =
      .finite s m (-1074) h := by
  have hn : (BitVec.ofNat 52 m).toNat = m := by
    rw [BitVec.toNat_ofNat, Nat.mod_eq_of_lt hm]
  have h0 : BitVec.ofNat 52 m ≠ 0#_ := by
    intro e
    have : m = 0 := hn.symm.trans (congrArg BitVec.toNat e)
    omega
  have hi : (0#11) ≠ -1#_ := by decide
  simp only [UnpackedFloat.unpack, unpackExponent_packComponents, unpackMantissa_packComponents,
    unpackSign_packComponents, Sign.ofBitVec_toBitVec, if_neg hi, dif_neg h0, if_true, hn]
  rfl

/-- A float that is packed comes back as it was. -/
theorem unpack_pack {u : UnpackedFloat} (h : Canonical u) :
    UnpackedFloat.unpack .binary64 (UnpackedFloat.pack .binary64 u) = u := by
  cases h with
  | notANumber => rfl
  | infinity s => cases s <;> rfl
  | zero s => cases s <;> rfl
  | @finite s m e hm hf he =>
    obtain ⟨hlt, hl, hfull⟩ := hf
    have hb : (e + Format.binary64.exponentBias + (52 : Nat) : Int).toNat = (e + 1075).toNat := by
      rw [bias_eq]
      omega
    have hbig : ¬ 2 ^ 11 ≤ (e + 1075).toNat + 1 := by omega
    by_cases hn : 2 ^ 52 ≤ m
    · have hlog : m.log2 + 1 = Format.binary64.mantissaBits := by
        rw [log2_eq_of_full hn hlt]
        rfl
      rw [UnpackedFloat.pack, hb, if_neg hbig, if_pos hlog,
        unpack_normal (h := hm) (by omega) (by omega) hn hlt]
      congr 1
      omega
    · have hlog : m.log2 + 1 ≠ Format.binary64.mantissaBits := by
        have : m.log2 < 52 := (Nat.log2_lt (by omega)).2 (by omega)
        have : Format.binary64.mantissaBits = 53 := rfl
        omega
      obtain rfl : e = -1074 := hfull.resolve_left hn
      rw [UnpackedFloat.pack, hb, if_neg hbig, if_neg hlog, unpack_subnormal (by omega)]

/-! ## Floats -/

/-- The number that a float stands for, if it is finite. -/
def val (x : Float) : ℚ := value x.toModel.unpack

section

variable {x y : Float}

theorem canonical (x : Float) : Canonical x.toModel.unpack := canonical_unpack _

theorem le_iff_val_le (hx : x.isFinite = true) (hy : y.isFinite = true) :
    x ≤ y ↔ val x ≤ val y := by
  show decide (x.toModel.unpack.le y.toModel.unpack = true) = true ↔ _
  rw [decide_eq_true_iff]
  exact le_iff_value_le (canonical x) (canonical y) hx hy

theorem lt_iff_val_lt (hx : x.isFinite = true) (hy : y.isFinite = true) :
    x < y ↔ val x < val y := by
  show decide (x.toModel.unpack.lt y.toModel.unpack = true) = true ↔ _
  rw [decide_eq_true_iff]
  exact lt_iff_value_lt (canonical x) (canonical y) hx hy

theorem val_ofModel_pack {u : UnpackedFloat} (h : Canonical u) :
    val (.ofModel (Float.Model.pack u)) = value u :=
  congrArg value (unpack_pack h)

theorem isFinite_ofModel_pack {u : UnpackedFloat} (h : Canonical u) :
    (Float.ofModel (Float.Model.pack u)).isFinite = u.isFinite :=
  congrArg UnpackedFloat.isFinite (unpack_pack h)

/-- A finite float is in order with itself. -/
theorem le_self (hx : x.isFinite = true) : x ≤ x := (le_iff_val_le hx hx).2 le_rfl

theorem le_of_not_lt (hx : x.isFinite = true) (hy : y.isFinite = true) (h : ¬ y < x) : x ≤ y := by
  rw [lt_iff_val_lt hy hx, not_lt] at h
  exact (le_iff_val_le hx hy).2 h

end

end EchoMetrics.Binary
