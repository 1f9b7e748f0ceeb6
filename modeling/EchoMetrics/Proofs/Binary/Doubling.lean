import EchoMetrics.Proofs.Binary.Product

/-! # Doubling

A float that is doubled keeps its mantissa, or uses one more digit of it. Main statement: a positive
float times a power of two is their exact product, or infinity if that is past the last finite
float. -/

namespace EchoMetrics.Binary

open Float.Model Float.Model.UnpackedFloat

/-! ## Exact results -/

section

variable {m : Nat} {e : Int} {x y : ℚ} {u : UnpackedFloat}

theorem Rounds.value_eq (h : Rounds x u) (hm : Fits m e) (hx : magnitude m e = x) : value u = x :=
  le_antisymm (hx ▸ h.above hm hx.ge) (hx ▸ h.below hm hx.le)

theorem Fits.double (h : Fits m e) :
    ∃ m' e', Fits m' e' ∧ magnitude m' e' = magnitude m e * 2 := by
  by_cases hfull : 2 ^ 52 ≤ m
  · refine ⟨m, e + 1, ⟨h.lt, h.least.trans (by omega), .inl hfull⟩, ?_⟩
    rw [magnitude_add_one, ← Nat.cast_ofNat (R := ℚ), magnitude_mul]
  · refine ⟨m * 2, e, ⟨by omega, h.least, .inr (h.full.resolve_left hfull)⟩, ?_⟩
    rw [← Nat.cast_ofNat (R := ℚ), magnitude_mul]

theorem Fits.mul_two_pow (h : Fits m e) (k : Nat) :
    ∃ m' e', Fits m' e' ∧ magnitude m' e' = magnitude m e * 2 ^ k := by
  induction k with
  | zero => exact ⟨m, e, h, by rw [pow_zero, mul_one]⟩
  | succ k ih =>
    obtain ⟨m', e', hf, hk⟩ := ih
    obtain ⟨m'', e'', hf', hk'⟩ := hf.double
    exact ⟨m'', e'', hf', by rw [hk', hk, pow_succ, mul_assoc]⟩

theorem magnitude_past : magnitude (2 ^ 52) 972 = 2 ^ 1024 := by
  rw [magnitude, Nat.cast_pow, Nat.cast_ofNat, ← zpow_natCast, ← zpow_add₀ two_ne_zero]
  exact zpow_natCast 2 1024

/-- An exact result as a float: infinity past the last finite one. -/
def saturate (x : ℚ) : WithTop ℚ := if x < 2 ^ 1024 then x else ⊤

theorem saturate_mono (h : x ≤ y) : saturate x ≤ saturate y := by
  rw [saturate, saturate]
  split
  · split
    · exact WithTop.coe_le_coe.2 h
    · exact le_top
  · rename_i hx
    rw [if_neg fun hy => hx (h.trans_lt hy)]

theorem saturate_pos (h : 0 < x) : 0 < saturate x := by
  rw [saturate]
  split
  · exact WithTop.coe_lt_coe.2 h
  · exact WithTop.coe_lt_top 0

theorem Rounds.extent_stored_of_value (h : Rounds x u) (hu : value u = x) :
    extent (stored u) = saturate x := by
  rw [saturate, ← magnitude_past, ← hu]
  obtain ⟨-, ⟨hs, hlt⟩ | ⟨hs, hle⟩⟩ := stored_cases h.form
  · rw [hs, if_pos hlt, extent_of_isFinite h.isFinite]
  · rw [hs, if_neg hle.not_gt]
    rfl

end

/-! ## Powers of two -/

theorem isInf_floatOfNat_two_pow_iff {k : Nat} :
    (floatOfNat (Nat.pow 2 k)).isInf = true ↔ 1024 ≤ k := by
  constructor
  · intro hinf
    by_contra hk
    rw [isInf_floatOfNat_two_pow (not_le.1 hk)] at hinf
    cases hinf
  · intro hk
    have hle (n : Nat) (hn : n + 54 ≤ k) : (2 ^ 54 - 1) * 2 ^ n ≤ 2 ^ k :=
      calc (2 ^ 54 - 1) * 2 ^ n ≤ 2 ^ 54 * 2 ^ n := Nat.mul_le_mul_right _ (Nat.sub_le ..)
        _ = 2 ^ (n + 54) := by rw [pow_add, Nat.mul_comm]
        _ ≤ 2 ^ k := Nat.pow_le_pow_right two_pos hn
    exact (isInf_floatOfNat_iff _).2 (hle 970 hk)

theorem exists_unpack_floatOfNat_two_pow {k : Nat} (h : k < 1024) :
    ∃ n e, ∃ hn : 0 < n, (floatOfNat (2 ^ k)).toModel.unpack = .finite .positive n e hn ∧
      Fits n e ∧ magnitude n e = 2 ^ k := by
  have hr := rounds_ofNat (2 ^ k)
  obtain ⟨m, e, hf, hm⟩ := fits_one.mul_two_pow k
  rw [magnitude_one, one_mul] at hm
  rw [Nat.cast_pow, Nat.cast_ofNat] at hr
  have hvalue := hr.value_eq hf hm
  have hstored : stored (UnpackedFloat.ofNat .binary64 (2 ^ k)) =
      UnpackedFloat.ofNat .binary64 (2 ^ k) := by
    obtain ⟨-, ⟨hs, -⟩ | ⟨-, hle⟩⟩ := stored_cases hr.form
    · exact hs
    · rw [hvalue, magnitude_past] at hle
      exact absurd hle (pow_lt_pow_right₀ one_lt_two h).not_ge
  obtain ⟨n, j, hn, hu⟩ := eq_finite_of_pos (hvalue ▸ pow_pos two_pos k)
  have hunpack : (floatOfNat (2 ^ k)).toModel.unpack = .finite .positive n j hn := hstored.trans hu
  rw [hu] at hvalue
  exact ⟨n, j, hn, hunpack, (hunpack ▸ canonical (floatOfNat (2 ^ k))).fits, hvalue⟩

theorem size_mul_two_pow {x : Float} (hx : x.isFinite = true) (hpos : 0.0 < x) {k : Nat}
    (hk : k < 1024) : 0.0 ≤ x * floatOfNat (2 ^ k) ∧
      size (x * floatOfNat (2 ^ k)) = saturate (val x * 2 ^ k) := by
  rw [lt_iff_val_lt isFinite_zero hx, val_zero] at hpos
  obtain ⟨m, e, hm, hu⟩ := eq_finite_of_pos hpos
  obtain ⟨n, j, hn, hpower, hfits, hmagnitude⟩ := exists_unpack_floatOfNat_two_pow hk
  have hmul : (x * floatOfNat (2 ^ k)).toModel.unpack =
      stored
        (UnpackedFloat.mul .binary64 (.finite .positive m e hm) (.finite .positive n j hn)) := by
    rw [← hu, ← hpower]
    rfl
  have hf : Fits m e := (hu ▸ canonical x).fits
  have hval : val x = magnitude m e := congrArg value hu
  have hr := rounds_mul hf hfits hm hn
  obtain ⟨m', e', hf', hexact⟩ := hf.mul_two_pow k
  rw [hmagnitude] at hr
  rw [zero_le_iff, size, hmul, hval]
  exact ⟨hr.nonNegative_stored, hr.extent_stored_of_value (hr.value_eq hf' hexact)⟩

end EchoMetrics.Binary
