import EchoMetrics.Proofs.Binary.Overflow

/-! # Nearest floats

A number is rounded to a float that no other float is nearer to. Main statement: the floats of
counts are in the order of the counts. -/

namespace EchoMetrics.Binary

open Float.Model Float.Model.UnpackedFloat

/-- The round bit tells on which side of the middle between two neighbours a number lies. -/
structure Halved (em : ExtendedMantissa) (e : Int) (x : ℚ) : Prop where
  above (h : em.roundBit = true) : magnitude (2 * em.mantissa + 1) (e - 1) ≤ x
  below (h : em.roundBit = false) : x ≤ magnitude (2 * em.mantissa + 1) (e - 1)
  middle (h : em.roundBit = true) (hs : em.stickyBit = false) :
    x = magnitude (2 * em.mantissa + 1) (e - 1)

/-- Twice a number is written with the exponent below. -/
theorem magnitude_half (m : Nat) (e : Int) : magnitude m e = magnitude (2 * m) (e - 1) := by
  have h := magnitude_add_one m (e - 1)
  rwa [sub_add_cancel, mul_comm] at h

theorem halved_exact (m : Nat) (e : Int) :
    Halved (.ofMantissaAndAccuracy m .exact) e (magnitude m e) := by
  refine ⟨fun h => absurd h Bool.false_ne_true, ?_, fun h => absurd h Bool.false_ne_true⟩
  intro _
  rw [magnitude_half, magnitude_le_magnitude]
  exact Nat.le_succ _

/-- The digit that is dropped is the round bit. -/
theorem Describes.halved {em : ExtendedMantissa} {e : Int} {x : ℚ} (h : Describes em e x) :
    Halved em.shiftRightOne (e + 1) x := by
  have hodd (hr : em.shiftRightOne.roundBit = true) :
      2 * em.shiftRightOne.mantissa + 1 = em.mantissa := by
    have : em.mantissa % 2 ≠ 0 := bne_iff_ne.1 hr
    change 2 * (em.mantissa / 2) + 1 = em.mantissa
    omega
  have heven (hr : em.shiftRightOne.roundBit = false) :
      2 * em.shiftRightOne.mantissa + 1 = em.mantissa + 1 := by
    have : em.mantissa % 2 = 0 := bne_eq_false_iff_eq.1 hr
    change 2 * (em.mantissa / 2) + 1 = em.mantissa + 1
    omega
  refine ⟨?_, ?_, ?_⟩ <;> rw [add_sub_cancel_right]
  · intro hr
    rw [hodd hr]
    exact h.le
  · intro hr
    rw [heven hr]
    exact h.lt.le
  · intro hr hs
    rw [hodd hr]
    exact (h.exact.2 hs).symm

theorem halved_shiftRight (m : Nat) (e : Int) (k : Nat) :
    Halved (ExtendedMantissa.ofMantissaAndAccuracy m .exact >>> k) (e + k) (magnitude m e) := by
  cases k with
  | zero =>
    rw [Nat.cast_zero, add_zero]
    exact halved_exact m e
  | succ k =>
    rw [Nat.cast_succ, ← add_assoc]
    exact ((describes_exact m e).shiftRight k).halved

/-- A mantissa stays only up to the middle and goes up only from the middle on. -/
theorem Halved.roundedMantissa_cases {em : ExtendedMantissa} {e : Int} {x : ℚ}
    (h : Halved em e x) :
    em.roundedMantissa = em.mantissa ∧ x ≤ magnitude (2 * em.mantissa + 1) (e - 1) ∨
      em.roundedMantissa = em.mantissa + 1 ∧ magnitude (2 * em.mantissa + 1) (e - 1) ≤ x := by
  obtain ⟨m, r, s⟩ := em
  cases r <;> cases s
  · exact .inl ⟨rfl, h.below rfl⟩
  · exact .inl ⟨rfl, h.below rfl⟩
  · rcases Nat.mod_two_eq_zero_or_one m with hm | hm
    · exact .inl ⟨congrArg (m + ·) hm, (h.middle rfl rfl).le⟩
    · exact .inr ⟨congrArg (m + ·) hm, h.above rfl⟩
  · exact .inr ⟨rfl, h.above rfl⟩

/-- No float is nearer to a number than what it is rounded to. -/
def Nearest (x : ℚ) (u : UnpackedFloat) : Prop :=
  ∀ {m : Nat} {e : Int}, Fits m e → |value u - x| ≤ |magnitude m e - x|

/-- Between two neighbours there is no other float, so the nearer one is nearest. -/
theorem nearest_roundedMantissa {em : ExtendedMantissa} {e e' : Int} {m : Nat} {x : ℚ}
    (h : Describes em e x) (hx : Halved em e x) (hf : Fits em.mantissa e) (hm : Fits m e') :
    |magnitude em.roundedMantissa e - x| ≤ |magnitude m e' - x| := by
  have hle := h.le
  have hlt := h.lt
  have hmiddle : 2 * magnitude (2 * em.mantissa + 1) (e - 1) =
      magnitude em.mantissa e + magnitude (em.mantissa + 1) e := by
    rw [magnitude_half em.mantissa, magnitude_half (em.mantissa + 1), magnitude, magnitude,
      magnitude]
    push_cast
    ring
  have hside : magnitude m e' ≤ magnitude em.mantissa e ∨
      magnitude (em.mantissa + 1) e ≤ magnitude m e' :=
    (lt_or_ge (magnitude m e') (magnitude (em.mantissa + 1) e)).imp_left (hf.magnitude_le hm)
  rcases hx.roundedMantissa_cases with ⟨hr, hside'⟩ | ⟨hr, hside'⟩ <;> rw [hr]
  · rw [abs_of_nonpos (by linarith)]
    rcases hside with hs | hs
    · rw [abs_of_nonpos (by linarith)]
      linarith
    · rw [abs_of_nonneg (by linarith)]
      linarith
  · rw [abs_of_nonneg (by linarith)]
    rcases hside with hs | hs
    · rw [abs_of_nonpos (by linarith)]
      linarith
    · rw [abs_of_nonneg (by linarith)]
      linarith

theorem nearest_roundWithAccuracy {m : Nat} {e : Int} (he : e ≤ target m e) :
    Nearest (magnitude m e) (roundWithAccuracy .binary64 .positive m e .exact) := by
  intro m' e' hm'
  rw [(roundWithAccuracy_spec _ he).2]
  have hf := fits_div he
  have hm : (ExtendedMantissa.ofMantissaAndAccuracy m .exact).mantissa = m := rfl
  rw [← hm, ← mantissa_shiftRight, hm] at hf
  exact nearest_roundedMantissa ((describes_exact m e).shiftRight _) (halved_shiftRight m e _)
    hf hm'

theorem nearest_round {m : Nat} (h : 0 < m) (e : Int) :
    Nearest (magnitude m e) (UnpackedFloat.round .binary64 .positive m e) := by
  rw [round_eq, ← magnitude_shiftLeft m (e - target m e).toNat e]
  refine nearest_roundWithAccuracy ?_
  rw [target_shiftLeft h]
  omega

theorem nearest_ofNat (n : Nat) : Nearest n (UnpackedFloat.ofNat .binary64 n) := by
  rcases Nat.eq_zero_or_pos n with rfl | hpos
  · intro m e _
    have hzero : value (UnpackedFloat.ofNat .binary64 0) = 0 := rfl
    rw [hzero, Nat.cast_zero, sub_zero, abs_zero]
    exact abs_nonneg _
  · rw [ofNat_eq_round hpos, ← magnitude_zero_right]
    exact nearest_round hpos 0

theorem Rounds.exists_fits {x : ℚ} {u : UnpackedFloat} (h : Rounds x u) :
    ∃ m e, Fits m e ∧ value u = magnitude m e := by
  rcases h.form with rfl | ⟨m, e, hm, rfl, hf⟩
  · exact ⟨0, -1074, fits_zero, (magnitude_zero _).symm⟩
  · exact ⟨m, e, hf, rfl⟩

/-- Of two numbers the greater one is not rounded to a lesser float. Otherwise both would lie
strictly between the two floats, and each on the wrong side of the middle. -/
theorem Rounds.value_le {x y : ℚ} {u v : UnpackedFloat} (hu : Rounds x u) (hu' : Nearest x u)
    (hv : Rounds y v) (hv' : Nearest y v) (h : x < y) : value u ≤ value v := by
  by_contra hlt
  rw [not_le] at hlt
  obtain ⟨m, e, hm, hmu⟩ := hu.exists_fits
  obtain ⟨n, k, hn, hnv⟩ := hv.exists_fits
  have hyu : y < value u := by
    by_contra hge
    rw [not_lt, hmu] at hge
    exact absurd (hv.below hm hge) (by rw [← hmu]; exact hlt.not_ge)
  have hvx : value v < x := by
    by_contra hge
    rw [not_lt, hnv] at hge
    exact absurd (hu.above hn hge) (by rw [← hnv]; exact hlt.not_ge)
  have hx := hu' hn
  have hy := hv' hm
  rw [← hnv, abs_of_pos (by linarith), abs_of_neg (by linarith)] at hx
  rw [← hmu, abs_of_neg (by linarith), abs_of_pos (by linarith)] at hy
  linarith

/-! ## Main statement -/

theorem value_ofNat_mono {m n : Nat} (h : m ≤ n) :
    value (UnpackedFloat.ofNat .binary64 m) ≤ value (UnpackedFloat.ofNat .binary64 n) := by
  rcases h.eq_or_lt with rfl | hlt
  · exact le_rfl
  · exact (rounds_ofNat m).value_le (nearest_ofNat m) (rounds_ofNat n) (nearest_ofNat n)
      (Nat.cast_lt.2 hlt)

end EchoMetrics.Binary
