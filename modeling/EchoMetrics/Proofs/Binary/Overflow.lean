import EchoMetrics.Proofs.Binary.Arithmetic

/-! # Counts that are too large for a float

A count between the last finite float and the power of two behind it is rounded to one of the two,
which its digit after the last mantissa digit decides. Main statement: a count has a finite float if
and only if it is less than half a step past the last finite float. -/

namespace EchoMetrics.Binary

open Float.Model Float.Model.UnpackedFloat

/-- The least count that is rounded to infinity, half a step past the last finite float. -/
def countLimit : Nat := (2 ^ 54 - 1) * 2 ^ 970

theorem one_lt_countLimit : 1 < countLimit := by
  have hlt (k : Nat) : 1 < (2 ^ 54 - 1) * 2 ^ k :=
    lt_of_lt_of_le (by omega) (Nat.le_mul_of_pos_right _ (Nat.two_pow_pos k))
  exact hlt 970

theorem countLimit_pos : 0 < countLimit := zero_lt_one.trans one_lt_countLimit

/-! ## Infinity -/

theorem fits_past : Fits (2 ^ 52) 972 := ⟨by omega, by omega, .inl le_rfl⟩

/-- What is too large is packed as infinity. -/
theorem unpack_pack_of_past (s : Sign) {m : Nat} {e : Int} (h : 0 < m) (he : 971 < e) :
    UnpackedFloat.unpack .binary64 (UnpackedFloat.pack .binary64 (.finite s m e h)) =
      .infinity s := by
  have hb : (e + Format.binary64.exponentBias + (52 : Nat) : Int).toNat = (e + 1075).toNat := by
    rw [bias_eq]
    omega
  have hbig : 2 ^ 11 ≤ (e + 1075).toNat + 1 := by omega
  have hpack : UnpackedFloat.pack .binary64 (.finite s m e h) = packedInfinity .binary64 s := by
    rw [UnpackedFloat.pack, hb, if_pos hbig]
  have hinfinity : UnpackedFloat.pack .binary64 (.infinity s) = packedInfinity .binary64 s := rfl
  rw [hpack, ← hinfinity, unpack_pack (.infinity s)]

theorem isInf_pack_iff {u : UnpackedFloat}
    (h : u = .zero .positive ∨ ∃ m e h, u = .finite .positive m e h ∧ Fits m e) :
    (Float.ofModel (Float.Model.pack u)).isInf = true ↔ magnitude (2 ^ 52) 972 ≤ value u := by
  have hunpack (hc : Canonical u) : (Float.ofModel (Float.Model.pack u)).isInf = u.isInf :=
    congrArg UnpackedFloat.isInf (unpack_pack hc)
  rcases h with rfl | ⟨m, e, hm, rfl, hf⟩
  · rw [hunpack (.zero _)]
    exact iff_of_false Bool.false_ne_true (magnitude_pos (Nat.two_pow_pos 52)).not_ge
  · by_cases he : e ≤ 971
    · rw [hunpack (.finite hf he)]
      exact iff_of_false Bool.false_ne_true
        (magnitude_lt_of_exponent_lt hf.lt fits_past (by omega) hf.least).not_ge
    · refine iff_of_true (congrArg UnpackedFloat.isInf (unpack_pack_of_past _ hm (not_le.1 he))) ?_
      rcases eq_or_ne e 972 with rfl | hne
      · exact magnitude_le_magnitude.2 (hf.full.resolve_right (by omega))
      · exact (magnitude_lt_of_exponent_lt fits_past.lt hf (by omega) (by omega)).le

/-! ## The digit that decides -/

theorem roundBit_shiftRight (em : ExtendedMantissa) (k : Nat) :
    (em >>> (k + 1)).roundBit = (em.mantissa / 2 ^ k % 2 != 0) := by
  rw [← mantissa_shiftRight]
  rfl

/-- Past an odd mantissa half a step is rounded up. -/
theorem roundedMantissa_of_odd {em : ExtendedMantissa} (h : em.mantissa % 2 = 1) :
    em.roundedMantissa = em.mantissa + em.roundBit.toNat := by
  obtain ⟨m, r, s⟩ := em
  cases r <;> cases s
  · rfl
  · rfl
  · exact congrArg (m + ·) h
  · rfl

/-- A count of at least 53 digits is cut off after them, and then rounded. -/
theorem value_ofNat {n k : Nat} (h : n.log2 = 52 + k) :
    value (UnpackedFloat.ofNat .binary64 n) =
      magnitude (ExtendedMantissa.ofMantissaAndAccuracy n .exact >>> k).roundedMantissa k := by
  have hpos : 0 < n := by
    by_contra h0
    rw [Nat.eq_zero_of_not_pos h0, Nat.log2_zero] at h
    omega
  have ht : target n 0 = k := by
    rw [target]
    omega
  have hzero : (0 - (k : Int)).toNat = 0 := by omega
  rw [ofNat_eq_round hpos, round_eq, ht, hzero, Nat.shiftLeft_zero, Nat.cast_zero, sub_zero,
    (roundWithAccuracy_spec _ (by omega)).2, ht, sub_zero, Int.toNat_natCast, zero_add]

/-- Between the last mantissa of an exponent and the next power of two. -/
theorem value_ofNat_of_between {n k : Nat} (h : (2 ^ 53 - 1) * 2 ^ (k + 1) ≤ n)
    (h' : n < 2 ^ 53 * 2 ^ (k + 1)) :
    value (UnpackedFloat.ofNat .binary64 n) =
      magnitude (2 ^ 53 - 1 + (n / 2 ^ k % 2 != 0).toNat) (k + 1 : Nat) := by
  have hdiv : n / 2 ^ (k + 1) = 2 ^ 53 - 1 := Nat.div_eq_of_lt_le h h'
  have hlog : n.log2 = 52 + (k + 1) := by
    have hle : 2 ^ (52 + (k + 1)) ≤ n :=
      calc 2 ^ (52 + (k + 1)) = 2 ^ 52 * 2 ^ (k + 1) := pow_add ..
        _ ≤ (2 ^ 53 - 1) * 2 ^ (k + 1) := Nat.mul_le_mul_right _ (by omega)
        _ ≤ n := h
    have hpos := Nat.two_pow_pos (52 + (k + 1))
    rw [Nat.log2_eq_iff (by omega)]
    exact ⟨hle, h'.trans_eq (by rw [← pow_add]; congr 1; omega)⟩
  have hem : (ExtendedMantissa.ofMantissaAndAccuracy n .exact >>> (k + 1)).mantissa =
      2 ^ 53 - 1 := by
    rw [mantissa_shiftRight, mantissa_ofMantissaAndAccuracy, hdiv]
  rw [value_ofNat hlog, roundedMantissa_of_odd (by rw [hem]; rfl), hem, roundBit_shiftRight]
  rfl

/-- It is half a step that decides. -/
theorem odd_div_iff {n p : Nat} (hp : 0 < p) (h : (2 ^ 53 - 1) * (p * 2) ≤ n)
    (h' : n < 2 ^ 53 * (p * 2)) : (n / p % 2 != 0) = true ↔ (2 ^ 54 - 1) * p ≤ n := by
  rw [← Nat.le_div_iff_mul_le hp, bne_iff_ne]
  have hle : 2 ^ 54 - 2 ≤ n / p := (Nat.le_div_iff_mul_le hp).2 (by omega)
  have hlt : n / p < 2 ^ 54 := (Nat.div_lt_iff_lt_mul hp).2 (by omega)
  omega

theorem magnitude_natCast (m k : Nat) : magnitude m k = (m * 2 ^ k : Nat) := by
  rw [magnitude, zpow_natCast]
  push_cast
  rfl

/-- A count reaches a power of two by rounding if half a step is missing at most. -/
theorem two_pow_le_value_ofNat_iff (n k : Nat) :
    magnitude (2 ^ 52) (k + 2 : Nat) ≤ value (UnpackedFloat.ofNat .binary64 n) ↔
      (2 ^ 54 - 1) * 2 ^ k ≤ n := by
  have hr := rounds_ofNat n
  have hfits : Fits (2 ^ 53 - 1) (k + 1 : Nat) := ⟨by omega, by omega, .inl (by omega)⟩
  have hfits' : Fits (2 ^ 52) (k + 2 : Nat) := ⟨by omega, by omega, .inl le_rfl⟩
  have hlt : magnitude (2 ^ 53 - 1) (k + 1 : Nat) < magnitude (2 ^ 52) (k + 2 : Nat) :=
    magnitude_lt_of_exponent_lt hfits.lt hfits' (by omega) hfits.least
  have hp := Nat.two_pow_pos k
  have hstep : 2 ^ (k + 1) = 2 ^ k * 2 := pow_succ 2 k
  have hstep' : 2 ^ (k + 2) = 2 ^ (k + 1) * 2 := pow_succ 2 (k + 1)
  rcases lt_or_ge n ((2 ^ 53 - 1) * 2 ^ (k + 1)) with hn | hn
  · have hle : (n : ℚ) ≤ magnitude (2 ^ 53 - 1) (k + 1 : Nat) := by
      rw [magnitude_natCast, Nat.cast_le]
      exact hn.le
    exact iff_of_false ((hr.above hfits hle).trans_lt hlt).not_ge (by omega)
  · rcases lt_or_ge n (2 ^ 53 * 2 ^ (k + 1)) with hn' | hn'
    · rw [hstep] at hn hn'
      rw [value_ofNat_of_between (hstep ▸ hn) (hstep ▸ hn'), ← odd_div_iff hp hn hn']
      cases n / 2 ^ k % 2 != 0
      · exact iff_of_false hlt.not_ge Bool.false_ne_true
      · refine iff_of_true (le_of_eq ?_) rfl
        rw [magnitude_natCast, magnitude_natCast, hstep']
        push_cast
        norm_num
        ring
    · have hle : magnitude (2 ^ 52) (k + 2 : Nat) ≤ n := by
        rw [magnitude_natCast, Nat.cast_le]
        omega
      exact iff_of_true (hr.below hfits' hle) (by omega)

/-! ## Main statement -/

/-- A count is rounded to infinity from the limit on. -/
theorem isInf_floatOfNat_iff (n : Nat) : (floatOfNat n).isInf = true ↔ countLimit ≤ n :=
  (isInf_pack_iff (rounds_ofNat n).form).trans (two_pow_le_value_ofNat_iff n 970)

end EchoMetrics.Binary
