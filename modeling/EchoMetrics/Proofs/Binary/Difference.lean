import EchoMetrics.Proofs.Binary.Order

/-! # Differences

Floats of either sign are ordered, with the infinities at the ends. Main statements: the order is
transitive; what is left of a float after one that is not greater is taken from it is not negative,
unless both are the same infinity, and after one that is not less it is not positive; and no
difference of finite floats that are not negative is past the last finite one. -/

namespace EchoMetrics.Binary

open Float.Model Float.Model.UnpackedFloat

/-! ## The order -/

/-- Where a number stands among all others. -/
def rank : UnpackedFloat → WithBot (WithTop ℚ)
  | .infinity .positive => ⊤
  | .infinity .negative => ⊥
  | u => ((value u : ℚ) : WithTop ℚ)

variable {u v w : UnpackedFloat}

theorem rank_of_isFinite (h : u.isFinite = true) : rank u = ((value u : ℚ) : WithTop ℚ) := by
  cases u with
  | infinity | notANumber => cases h
  | zero | finite => rfl

theorem infinity_or_finite (h : u ≠ .notANumber) : (∃ s, u = .infinity s) ∨ u.isFinite = true := by
  cases u with
  | notANumber => exact absurd rfl h
  | infinity s => exact .inl ⟨s, rfl⟩
  | zero | finite => exact .inr rfl

theorem ne_notANumber_of_le (h : u.le v = true) : u ≠ .notANumber ∧ v ≠ .notANumber := by
  constructor
  · rintro rfl
    cases v <;> cases h
  · rintro rfl
    cases u <;> cases h

theorem le_iff_rank_le (cu : Canonical u) (cv : Canonical v) (hu : u ≠ .notANumber)
    (hv : v ≠ .notANumber) : u.le v = true ↔ rank u ≤ rank v := by
  rcases infinity_or_finite hu with ⟨s, rfl⟩ | fu
  · rcases infinity_or_finite hv with ⟨s', rfl⟩ | fv
    · cases s <;> cases s' <;> decide
    · rw [rank_of_isFinite fv]
      cases s with
      | positive =>
        refine iff_of_false ?_ (not_le_of_gt (WithBot.coe_lt_coe.2 (WithTop.coe_lt_top _)))
        cases v with
        | infinity | notANumber => cases fv
        | zero | finite => exact Bool.false_ne_true
      | negative =>
        refine iff_of_true ?_ bot_le
        cases v with
        | infinity | notANumber => cases fv
        | zero | finite => rfl
  · rcases infinity_or_finite hv with ⟨s', rfl⟩ | fv
    · rw [rank_of_isFinite fu]
      cases s' with
      | positive =>
        refine iff_of_true ?_ le_top
        cases u with
        | infinity | notANumber => cases fu
        | zero | finite => rfl
      | negative =>
        refine iff_of_false ?_ (not_le_of_gt (WithBot.bot_lt_coe _))
        cases u with
        | infinity | notANumber => cases fu
        | zero | finite => exact Bool.false_ne_true
    · rw [rank_of_isFinite fu, rank_of_isFinite fv, WithBot.coe_le_coe, WithTop.coe_le_coe]
      exact le_iff_value_le cu cv fu fv

/-! ## Signs -/

theorem nonNegative_normalize {m : Int} (h : 0 ≤ m) (e : Int) :
    NonNegative (stored (UnpackedFloat.normalize .binary64 m e .positive)) := by
  rw [UnpackedFloat.normalize]
  rcases h.eq_or_lt with rfl | hpos
  · rw [compare_eq_iff_eq.2 rfl]
    exact (stored_of_canonical (.zero _)).symm ▸ .zero _
  · rw [compare_gt_iff_gt.2 hpos]
    exact (rounds_round (by omega) e).nonNegative_stored

theorem value_finite (s : Sign) (m : Nat) (e : Int) (h : 0 < m) :
    value (.finite s m e h) = (s.apply (m : Int) : Int) * 2 ^ e := by
  cases s with
  | positive => exact congrArg (· * (2 : ℚ) ^ e) (Int.cast_natCast m).symm
  | negative =>
    have hneg : ((Sign.negative.apply (m : Int) : Int) : ℚ) = -(m : ℚ) := by
      rw [Sign.apply, Int.cast_neg, Int.cast_natCast]
    rw [hneg, neg_mul]
    rfl

theorem apply_mul (s : Sign) (m n : Nat) :
    s.apply ((m * n : Nat) : Int) = s.apply (m : Int) * (n : Int) := by
  cases s with
  | positive => exact Int.natCast_mul m n
  | negative => rw [Sign.apply, Sign.apply, Int.natCast_mul, Int.neg_mul]

/-- A number with a lower exponent, whatever its sign. -/
theorem value_decrease (s : Sign) {m : Nat} {e t : Int} (h : 0 < m) (ht : t ≤ e) :
    value (.finite s m e h) = (s.apply ((m <<< (e - t).toNat : Nat) : Int) : Int) * 2 ^ t := by
  have he : (2 : ℚ) ^ e = 2 ^ (e - t).toNat * 2 ^ t := by
    rw [← zpow_natCast, ← zpow_add₀ two_ne_zero]
    congr 1
    omega
  rw [value_finite, Nat.shiftLeft_eq, apply_mul, he]
  push_cast
  ring

/-- What is left of a number after one that is not greater is taken from it. -/
theorem nonNegative_sub_finite {s s' : Sign} {m m' : Nat} {e e' : Int} {h : 0 < m} {h' : 0 < m'}
    (hle : value (.finite s' m' e' h') ≤ value (.finite s m e h)) :
    NonNegative (stored (UnpackedFloat.sub .binary64 (.finite s m e h) (.finite s' m' e' h'))) := by
  rw [value_decrease s h (min_le_left e e'), value_decrease s' h' (min_le_right e e'),
    mul_le_mul_iff_left₀ (by positivity), Int.cast_le] at hle
  exact nonNegative_normalize (Int.sub_nonneg.2 hle) (min e e')

theorem nonNegative_sub (cu : Canonical u) (cv : Canonical v) (h : v.le u = true)
    (hinf : ¬ (u.isInf = true ∧ v.isInf = true)) : NonNegative (stored (u.sub .binary64 v)) := by
  have hinfinity : NonNegative (stored (.infinity .positive)) :=
    (stored_of_canonical (.infinity .positive)).symm ▸ .infinity
  cases u with
  | notANumber => exact absurd rfl (ne_notANumber_of_le h).2
  | infinity s =>
    cases v with
    | notANumber => exact absurd rfl (ne_notANumber_of_le h).1
    | infinity s' => exact absurd ⟨rfl, rfl⟩ hinf
    | zero | finite =>
      cases s with
      | positive => exact hinfinity
      | negative => cases h
  | zero s =>
    cases v with
    | notANumber => exact absurd rfl (ne_notANumber_of_le h).1
    | infinity s' =>
      cases s' with
      | positive => cases h
      | negative => exact hinfinity
    | zero s' =>
      cases s <;> cases s' <;> exact (stored_of_canonical (.zero _)).symm ▸ .zero _
    | finite s' m' e' hm' =>
      cases s' with
      | positive => cases h
      | negative =>
        have hdiff : UnpackedFloat.sub .binary64 (.zero s) (.finite .negative m' e' hm') =
            .finite .positive m' e' hm' := rfl
        have hc : Canonical (.finite .positive m' e' hm') := cv.abs
        rw [hdiff, stored_of_canonical hc]
        exact .finite m' e' hm'
  | finite s m e hm =>
    cases v with
    | notANumber => exact absurd rfl (ne_notANumber_of_le h).1
    | infinity s' =>
      cases s' with
      | positive => cases h
      | negative => exact hinfinity
    | zero s' =>
      cases s with
      | positive =>
        have hdiff : UnpackedFloat.sub .binary64 (.finite .positive m e hm) (.zero s') =
            .finite .positive m e hm := rfl
        rw [hdiff, stored_of_canonical cu]
        exact .finite m e hm
      | negative => cases h
    | finite s' m' e' hm' =>
      exact nonNegative_sub_finite ((le_iff_value_le cv cu rfl rfl).1 h)

/-- The sign outlasts packing, so what is left after a greater number is taken is not positive. -/
theorem not_zero_lt_unpack {b : BitVec Format.binary64.numBits} (h : unpackSign b = 1#1) :
    ¬ (UnpackedFloat.zero .positive).lt (UnpackedFloat.unpack .binary64 b) = true := by
  simp only [UnpackedFloat.unpack, h]
  split
  · split <;> exact Bool.false_ne_true
  · split
    · split <;> exact Bool.false_ne_true
    · exact Bool.false_ne_true

theorem not_zero_lt_stored_negative {m : Nat} {e : Int} (h : 0 < m) :
    ¬ (UnpackedFloat.zero .positive).lt (stored (.finite .negative m e h)) = true := by
  refine not_zero_lt_unpack ?_
  simp only [UnpackedFloat.pack]
  split
  · rfl
  · split <;> exact unpackSign_packComponents .negative _ _

theorem not_zero_lt_stored_zero (s : Sign) :
    ¬ (UnpackedFloat.zero .positive).lt (stored (.zero s)) = true := by
  rw [stored_of_canonical (.zero s)]
  exact Bool.false_ne_true

theorem not_zero_lt_normalize {m : Int} (h : m ≤ 0) (e : Int) :
    ¬ (UnpackedFloat.zero .positive).lt
      (stored (UnpackedFloat.normalize .binary64 m e .positive)) = true := by
  rw [UnpackedFloat.normalize]
  rcases h.eq_or_lt with rfl | hneg
  · rw [compare_eq_iff_eq.2 rfl]
    exact not_zero_lt_stored_zero .positive
  · rw [compare_lt_iff_lt.2 hneg]
    simp only [UnpackedFloat.round, roundWithAccuracy]
    split
    · exact not_zero_lt_stored_zero .negative
    · exact not_zero_lt_stored_negative _

/-- What is left of a number after one that is not less is taken from it. -/
theorem not_zero_lt_sub (cu : Canonical u) (cv : Canonical v) (hu : u.isFinite = true)
    (hv : v.isFinite = true) (h : u.le v = true) :
    ¬ (UnpackedFloat.zero .positive).lt (stored (u.sub .binary64 v)) = true := by
  have hle := (le_iff_value_le cu cv hu hv).1 h
  cases u with
  | notANumber | infinity => cases hu
  | zero s =>
    cases v with
    | notANumber | infinity => cases hv
    | zero s' => cases s <;> cases s' <;> exact not_zero_lt_stored_zero _
    | finite s' m' e' hm' =>
      cases s' with
      | positive => exact not_zero_lt_stored_negative hm'
      | negative => cases h
  | finite s m e hm =>
    cases v with
    | notANumber | infinity => cases hv
    | zero s' =>
      cases s with
      | positive => cases h
      | negative => exact not_zero_lt_stored_negative hm
    | finite s' m' e' hm' =>
      rw [value_decrease s hm (min_le_left e e'), value_decrease s' hm' (min_le_right e e'),
        mul_le_mul_iff_left₀ (by positivity), Int.cast_le] at hle
      exact not_zero_lt_normalize (sub_nonpos.2 hle) (min e e')

theorem NonNegative.beq_self (h : NonNegative u) : u.beq u = true := by
  cases h with
  | infinity | zero => rfl
  | finite m e hm =>
    have hcompare : (compare e e).then (compare m m) = .eq := by
      rw [compare_eq_iff_eq.2 rfl, compare_eq_iff_eq.2 rfl]
      rfl
    rw [UnpackedFloat.beq, UnpackedFloat.compare, hcompare]
    rfl

/-- Zeros are equal, whatever their signs. -/
theorem NonNegative.zero_beq (h : NonNegative u)
    (hpos : ¬ (UnpackedFloat.zero .positive).lt u = true) :
    (UnpackedFloat.zero .positive).beq u = true := by
  cases h with
  | infinity | finite => exact absurd rfl hpos
  | zero => rfl

/-! ## Differences that do not overflow -/

theorem value_le_greatest (cu : Canonical u) : value u ≤ magnitude (2 ^ 53 - 1) 971 := by
  cases cu with
  | notANumber | infinity | zero => exact magnitude_nonneg
  | @finite s m e hm hf he =>
    cases s with
    | negative => exact (neg_nonpos.2 magnitude_nonneg).trans magnitude_nonneg
    | positive =>
      rcases he.eq_or_lt with rfl | hlt
      · exact magnitude_le_magnitude.2 (Nat.le_pred_of_lt hf.lt)
      · exact (magnitude_lt_of_exponent_lt hf.lt fits_greatest hlt hf.least).le

theorem isFinite_stored_normalize {m : Int} (h : 0 ≤ m) {e : Int}
    (hle : (m : ℚ) * 2 ^ e ≤ magnitude (2 ^ 53 - 1) 971) :
    (stored (UnpackedFloat.normalize .binary64 m e .positive)).isFinite = true := by
  rw [UnpackedFloat.normalize]
  rcases h.eq_or_lt with rfl | hpos
  · rw [compare_eq_iff_eq.2 rfl]
    exact congrArg UnpackedFloat.isFinite (stored_of_canonical (.zero .positive))
  · rw [compare_gt_iff_gt.2 hpos]
    have hr := rounds_round (m := m.toNat) (by omega) e
    have hm : magnitude m.toNat e = m * 2 ^ e := by
      rw [magnitude, ← Int.cast_natCast, Int.toNat_of_nonneg h]
    rw [stored_of_canonical (hr.canonical (hm.trans_le hle))]
    exact hr.isFinite

/-- A part of a number that is not negative is no greater than the number. -/
theorem isFinite_stored_sub (cu : Canonical u) (cv : Canonical v) (hu : u.isFinite = true)
    (hv : v.isFinite = true) (h0 : 0 ≤ value v) (hle : value v ≤ value u) :
    (stored (u.sub .binary64 v)).isFinite = true := by
  have hstored {w : UnpackedFloat} (cw : Canonical w) (hw : w.isFinite = true) :
      (stored w).isFinite = true := by rwa [stored_of_canonical cw]
  cases v with
  | notANumber | infinity => cases hv
  | zero s' =>
    cases u with
    | notANumber | infinity => cases hu
    | zero s => cases s <;> cases s' <;> exact hstored (.zero _) rfl
    | finite => exact hstored cu rfl
  | finite s' m' e' hm' =>
    cases u with
    | notANumber | infinity => cases hu
    | zero s =>
      have hc : Canonical (.finite (-s') m' e' hm') := by
        cases cv with
        | finite hf he => exact .finite hf he
      exact hstored hc rfl
    | finite s m e hm =>
      have hu' := value_decrease s hm (min_le_left e e')
      have hv' := value_decrease s' hm' (min_le_right e e')
      have hgreat := value_le_greatest cu
      refine isFinite_stored_normalize (Int.sub_nonneg.2 ?_) ?_
      · rwa [hu', hv', mul_le_mul_iff_left₀ (by positivity), Int.cast_le] at hle
      · rw [Int.cast_sub, sub_mul, ← hu', ← hv']
        exact (sub_le_self _ h0).trans hgreat

/-! ## Floats -/

variable {x y z : Float}

theorem le_iff_model_le : x ≤ y ↔ x.toModel.unpack.le y.toModel.unpack = true := by
  show decide (x.toModel.unpack.le y.toModel.unpack = true) = true ↔ _
  rw [decide_eq_true_iff]

theorem le_trans (hxy : x ≤ y) (hyz : y ≤ z) : x ≤ z := by
  rw [le_iff_model_le] at hxy hyz ⊢
  obtain ⟨hx, hy⟩ := ne_notANumber_of_le hxy
  obtain ⟨-, hz⟩ := ne_notANumber_of_le hyz
  rw [le_iff_rank_le (canonical x) (canonical y) hx hy] at hxy
  rw [le_iff_rank_le (canonical y) (canonical z) hy hz] at hyz
  rw [le_iff_rank_le (canonical x) (canonical z) hx hz]
  exact hxy.trans hyz

/-- Whatever stands in the order is in order with itself. -/
theorem le_self_of_le (h : x ≤ y) : x ≤ x ∧ y ≤ y := by
  rw [le_iff_model_le] at h
  obtain ⟨hx, hy⟩ := ne_notANumber_of_le h
  constructor
  · exact le_iff_model_le.2 ((le_iff_rank_le (canonical x) (canonical x) hx hx).2 le_rfl)
  · exact le_iff_model_le.2 ((le_iff_rank_le (canonical y) (canonical y) hy hy).2 le_rfl)

theorem zero_le_sub (h : x ≤ y) (hinf : ¬ (y.isInf = true ∧ x.isInf = true)) : 0.0 ≤ y - x := by
  have hsub : (y - x).toModel.unpack = stored (y.toModel.unpack.sub .binary64 x.toModel.unpack) :=
    rfl
  rw [zero_le_iff, hsub]
  exact nonNegative_sub (canonical y) (canonical x) (le_iff_model_le.1 h) hinf

/-- What is left of a float after one that is not less is taken from it is not positive. -/
theorem not_pos_sub (hx : x.isFinite = true) (hy : y.isFinite = true) (h : x ≤ y) :
    ¬ 0.0 < x - y := by
  have hsub : (x - y).toModel.unpack = stored (x.toModel.unpack.sub .binary64 y.toModel.unpack) :=
    rfl
  show ¬ decide ((0.0 : Float).toModel.unpack.lt (x - y).toModel.unpack = true) = true
  rw [decide_eq_true_iff, hsub, unpack_zero]
  exact not_zero_lt_sub (canonical x) (canonical y) hx hy (le_iff_model_le.1 h)

theorem isFinite_sub (hx : x.isFinite = true) (hy : y.isFinite = true) (h0 : 0.0 ≤ y)
    (h : y ≤ x) : (x - y).isFinite = true := by
  rw [le_iff_val_le isFinite_zero hy, val_zero] at h0
  rw [le_iff_val_le hy hx] at h
  exact isFinite_stored_sub (canonical x) (canonical y) hx hy h0 h

theorem beq_self (h : 0.0 ≤ x) : (x == x) = true := (zero_le_iff.1 h).beq_self

theorem zero_beq (h : 0.0 ≤ x) (hpos : ¬ 0.0 < x) : ((0.0 : Float) == x) = true := by
  have hlt : ¬ (0.0 : Float).toModel.unpack.lt x.toModel.unpack = true :=
    fun hlt => hpos (decide_eq_true hlt)
  show (0.0 : Float).toModel.unpack.beq x.toModel.unpack = true
  rw [unpack_zero] at hlt ⊢
  exact (zero_le_iff.1 h).zero_beq hlt

end EchoMetrics.Binary
