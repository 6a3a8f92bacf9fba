import Mathlib
import RustPbx.Lib.FloatFormat

/-!
Lower bounds for `binary64` arithmetic, proved of Lean's logical model of `Float`.

A computation on small integers that scales by a power of two, divides, and truncates never falls
below an integer bound of its exact value (`le_toInt64_mul_div`).
-/

namespace Binary64

open Float.Model Float.Model.UnpackedFloat ExtendedMantissa Float BitVec UnpackedFloat Model
open FloatFormat hiding unpack_pack

theorem targetExponent_eq (t : Int) : Format.binary64.targetExponent t = max (t - 53) (-1074) := by
  rfl

theorem le_roundToNearestEven (m : Nat) (acc : Accuracy) : m ≤ acc.roundToNearestEven m := by
  rcases acc with _ | (_ | _ | _) <;> simp [Accuracy.roundToNearestEven]

theorem roundToNearestEven_le (m : Nat) (acc : Accuracy) : acc.roundToNearestEven m ≤ m + 1 := by
  rcases acc with _ | (_ | _ | _) <;> simp [Accuracy.roundToNearestEven]
  omega

variable {m k n : Nat} {e : Int} {x : Model}

/-! ## Rounding -/

variable (s : Sign)

theorem two_pow_le_shift (hm : 52 ≤ m.log2) : 2 ^ 52 ≤ m / 2 ^ (m.log2 - 52) := by
  have hpos : m ≠ 0 := by
    rintro rfl
    simp at hm
  rw [Nat.le_div_iff_mul_le (by positivity), ← Nat.pow_add, Nat.add_sub_cancel' hm]
  exact Nat.log2_self_le hpos

/-- The first shift drops all bits but 53, the second is needed only when rounding carried into a
new bit. -/
theorem roundWithAccuracy_shifts (hm : 52 ≤ m.log2) (he : -1074 ≤ e) :
    ∃ r, m / 2 ^ (m.log2 - 52) ≤ r ∧ r ≤ m / 2 ^ (m.log2 - 52) + 1 ∧
      ∃ hpos, roundWithAccuracy Format.binary64 s m e acc =
        .finite s (r / 2 ^ (r.log2 - 52)) (e + (m.log2 - 52 : Nat) + (r.log2 - 52 : Nat)) hpos := by
  set d := m.log2 - 52 with hd
  set em := ofMantissaAndAccuracy m acc >>> d with hem
  have hmant : em.mantissa = m / 2 ^ d := by
    rw [mantissa_shiftRight, mantissa_ofMantissaAndAccuracy]
  have hq : 2 ^ 52 ≤ m / 2 ^ d := two_pow_le_shift hm
  have hlo : m / 2 ^ d ≤ em.roundedMantissa := by
    rw [← hmant]
    exact le_roundToNearestEven _ _
  have hhi : em.roundedMantissa ≤ m / 2 ^ d + 1 := by
    rw [← hmant]
    exact roundToNearestEven_le _ _
  refine ⟨em.roundedMantissa, hlo, hhi, ?_⟩
  have hr0 : em.roundedMantissa ≠ 0 := by omega
  have hfirst : (Format.binary64.targetExponent (totalExponent m e) - e).toNat = d := by
    rw [targetExponent_eq, totalExponent]
    omega
  have hsecond : (Format.binary64.targetExponent (totalExponent em.roundedMantissa (e + d))
      - (e + d)).toNat = em.roundedMantissa.log2 - 52 := by
    rw [targetExponent_eq, totalExponent]
    omega
  have hfinal : 0 < em.roundedMantissa / 2 ^ (em.roundedMantissa.log2 - 52) := by
    refine Nat.div_pos ?_ (by positivity)
    exact (Nat.pow_le_pow_right (by decide) (Nat.sub_le _ _)).trans (Nat.log2_self_le hr0)
  refine ⟨hfinal, ?_⟩
  simp [roundWithAccuracy, shiftToTargetExponent, shiftToExponent, hfirst, ← hem, hsecond,
    mantissa_shiftRight, hfinal.ne']

/-- Rounding `m / n` down at a scale that keeps 53 bits stays above every integer bound below `2 ^
53`: either the dropped part is fractional, or what is kept exceeds `2 ^ 53`. -/
theorem le_div_mul_zpow (hk : k ≤ 2 ^ 53) (hq : 2 ^ 52 ≤ m / n) (h : (k : ℚ) * n ≤ m * 2 ^ e) :
    (k : ℚ) ≤ (m / n : Nat) * 2 ^ e := by
  have hn : 0 < n := by
    rcases Nat.eq_zero_or_pos n with rfl | hn
    · simp at hq
    · exact hn
  rcases le_or_gt e 0 with he | he
  · obtain ⟨t, rfl⟩ : ∃ t : Nat, e = -(t : Int) := ⟨(-e).toNat, by omega⟩
    rw [zpow_neg, ← div_eq_mul_inv, le_div_iff₀ (by positivity)] at h ⊢
    have hnat : k * 2 ^ t * n ≤ m := by
      rw [Nat.mul_right_comm]
      exact_mod_cast h
    exact_mod_cast (Nat.le_div_iff_mul_le hn).mpr hnat
  · have htwo : (2 : ℚ) ≤ 2 ^ e := by
      calc (2 : ℚ) = 2 ^ (1 : Int) := by norm_num
        _ ≤ 2 ^ e := zpow_le_zpow_right₀ (by norm_num) (by omega)
    have hq' : (2 ^ 52 : ℚ) ≤ (m / n : Nat) := by exact_mod_cast hq
    calc (k : ℚ) ≤ 2 ^ 53 := by exact_mod_cast hk
      _ = 2 ^ 52 * 2 := by norm_num
      _ ≤ _ := mul_le_mul hq' htwo (by norm_num) (by positivity)

/-- Rounding a mantissa of at least 53 bits normalizes it, and never falls below an integer bound.
-/
theorem roundWithAccuracy_normal (hm : 52 ≤ m.log2) (he : -1074 ≤ e)
    (hk : k ≤ 2 ^ 53) (hval : (k : ℚ) ≤ m * 2 ^ e) :
    ∃ r e' hpos, roundWithAccuracy Format.binary64 s m e acc = .finite s r e' hpos ∧
      r.log2 = 52 ∧ e ≤ e' ∧ e' ≤ e + (m.log2 - 52 : Nat) + 1 ∧ (k : ℚ) ≤ r * 2 ^ e' := by
  obtain ⟨r, hlo, hhi, hpos, hround⟩ := roundWithAccuracy_shifts s hm he
  have hq := two_pow_le_shift hm
  set d := m.log2 - 52 with hd
  have hq' : m / 2 ^ d < 2 ^ 53 := by
    rw [Nat.div_lt_iff_lt_mul (by positivity), ← Nat.pow_add, show 53 + d = m.log2 + 1 by omega]
    exact Nat.lt_log2_self
  have hkr : (k : ℚ) ≤ r * 2 ^ (e + d) := by
    have hscaled : (k : ℚ) * (2 ^ d : Nat) ≤ m * 2 ^ (e + d) := by
      rw [zpow_add₀ (by norm_num), zpow_natCast, ← mul_assoc]
      push_cast
      gcongr
    refine (le_div_mul_zpow hk hq hscaled).trans ?_
    gcongr
  refine ⟨_, _, hpos, hround, ?_⟩
  rcases Nat.lt_or_ge r (2 ^ 53) with hlt | hge
  · have hlog : r.log2 = 52 := (Nat.log2_eq_iff (by omega)).mpr ⟨by omega, hlt⟩
    simp only [hlog, Nat.sub_self, Nat.pow_zero, Nat.div_one]
    exact ⟨trivial, by omega, by omega, by simpa using hkr⟩
  · -- rounding carried: the mantissa is `2 ^ 53`, and one more exact shift normalizes it
    obtain rfl : r = 2 ^ 53 := by omega
    have hlog : (2 ^ 53 : Nat).log2 = 53 := Nat.log2_two_pow
    have hhalf : (2 ^ 53 / 2 ^ (53 - 52) : Nat) = 2 ^ 52 := by norm_num
    rw [hlog, hhalf]
    refine ⟨Nat.log2_two_pow, by omega, by omega, hkr.trans (le_of_eq ?_)⟩
    rw [show (e + d + (53 - 52 : Nat) : Int) = e + d + 1 by omega, zpow_add_one₀ (by norm_num)]
    ring

theorem unpack_pack (hpos : 0 < m) (hm : m.log2 = 52) (hlo : -1074 ≤ e) (hhi : e ≤ 971) :
    (Model.pack (.finite s m e hpos)).unpack = .finite s m e hpos := by
  refine @FloatFormat.unpack_pack Format.binary64 _ _ s hpos hm ?_ ?_
  · change 0 < e + ((1023 : Nat) + (52 : Nat))
    omega
  · change e + ((1023 : Nat) + (52 : Nat)) + 1 < (2048 : Nat)
    omega

/-! ## Conversions and operations on small integers -/

theorem unpack_ofInt (hpos : 0 < n) (hn : n < 2 ^ 53) : ∃ h, (Model.ofInt n).unpack
      = .finite .positive (n * 2 ^ (52 - n.log2)) ((n.log2 : Int) - 52) h := by
  have hlog : n.log2 < 53 := (Nat.log2_lt hpos.ne').mpr hn
  have hmlog : (n * 2 ^ (52 - n.log2)).log2 = 52 := by
    rw [log2_mul_two_pow hpos]
    omega
  have hm : 0 < n * 2 ^ (52 - n.log2) := by positivity
  refine ⟨hm, ?_⟩
  have hround : ofInt Format.binary64 n
      = .finite .positive (n * 2 ^ (52 - n.log2)) ((n.log2 : Int) - 52) hm := by
    have htarget : (0 - Format.binary64.targetExponent (totalExponent n 0)).toNat
        = 52 - n.log2 := by
      rw [targetExponent_eq, totalExponent]
      omega
    have hexact := @roundWithAccuracy_exact Format.binary64 _ _ .positive 0 hmlog hm
      (show (-1074 : Int) ≤ (n.log2 : Int) - 52 + (0 : Nat) by omega)
    rw [UnpackedFloat.ofInt, UnpackedFloat.normalize, Int.compare_eq_gt.mpr (by omega)]
    simp only [UnpackedFloat.round, decreaseExponent, Int.toNat_natCast, htarget, Nat.shiftLeft_eq]
    rw [show (0 : Int) - (52 - n.log2 : Nat) = (n.log2 : Int) - 52 by omega]
    simpa using hexact
  rw [Model.ofInt, hround]
  exact unpack_pack _ hm hmlog (by omega) (by omega)

theorem unpack_mul_two_pow {hy} (hx : x.unpack = .finite .positive m e hm)
    (hlog : m.log2 = 52) (hy : y.unpack = .finite .positive (2 ^ 52) f hy) (hlo : -1074 ≤ e + f)
    (hhi : e + f + 52 ≤ 971) :
    (x * y).unpack = .finite .positive m (e + f + 52) hm := by
  change (pack (mul Format.binary64 x.unpack y.unpack)).unpack = _
  rw [hx, hy, UnpackedFloat.mul, roundWithAccuracy_exact _ 52 hlog hm
    (show (-1074 : Int) ≤ _ by omega)]
  exact unpack_pack _ hm hlog (by omega) (by omega)

theorem unpack_div (hx : x.unpack = .finite .positive m e hm)
    (hmlog : m.log2 = 52) (hy : y.unpack = .finite .positive n f hn) (hnlog : n.log2 = 52)
    (hlo : -1000 ≤ e - f) (hhi : e - f ≤ 900) (hk : k ≤ 2 ^ 53)
    (hval : (k : ℚ) * (n * 2 ^ f) ≤ m * 2 ^ e) :
    ∃ r e' hr, (x / y).unpack = .finite .positive r e' hr ∧ (k : ℚ) ≤ r * 2 ^ e' := by
  obtain ⟨hm1, hm2⟩ := (Nat.log2_eq_iff hm.ne').mp hmlog
  obtain ⟨hn1, hn2⟩ := (Nat.log2_eq_iff hn.ne').mp hnlog
  have hcore : divCore Format.binary64 m e n f
      = (m * 2 ^ 53 / n, e - f - 53, accuracyOfFraction (m * 2 ^ 53 % n) n) := by
    have htarget : min (e - f)
        (Format.binary64.targetExponent (totalExponent m e - totalExponent n f))
        = e - f - 53 := by
      rw [targetExponent_eq, totalExponent, totalExponent, hnlog]
      omega
    simp only [divCore, htarget, Nat.shiftLeft_eq]
    rw [show (e - f - (e - f - 53)).toNat = 53 by omega]
  have hq : 2 ^ 52 ≤ m * 2 ^ 53 / n := by
    rw [Nat.le_div_iff_mul_le hn]
    calc 2 ^ 52 * n ≤ 2 ^ 52 * 2 ^ 53 := Nat.mul_le_mul_left _ hn2.le
      _ ≤ m * 2 ^ 53 := Nat.mul_le_mul_right _ hm1
  have hq' : m * 2 ^ 53 / n < 2 ^ 55 := by
    rw [Nat.div_lt_iff_lt_mul hn]
    omega
  have hq0 : m * 2 ^ 53 / n ≠ 0 := by omega
  have hqlog := (Nat.le_log2 hq0).mpr hq
  have hqlog' : (m * 2 ^ 53 / n).log2 < 55 := (Nat.log2_lt hq0).mpr hq'
  have hquot : (k : ℚ) ≤ (m * 2 ^ 53 / n : Nat) * 2 ^ (e - f - 53) := by
    refine le_div_mul_zpow hk hq ?_
    have hscale : (m * 2 ^ 53 : Nat) * (2 : ℚ) ^ (e - f - 53) = m * 2 ^ e / 2 ^ f := by
      rw [zpow_sub₀ (by norm_num), zpow_sub₀ (by norm_num)]
      push_cast
      field_simp
    rw [hscale, le_div_iff₀ (by positivity)]
    linarith
  obtain ⟨r, e', hr, hround, hrlog, he1, he2, hkr⟩ := roundWithAccuracy_normal
    (.positive / .positive) hqlog (by omega) hk hquot
  refine ⟨r, e', hr, ?_, hkr⟩
  change (pack (div Format.binary64 x.unpack y.unpack)).unpack = _
  rw [hx, hy, UnpackedFloat.div, hcore]
  dsimp only
  rw [hround]
  exact unpack_pack _ hr hrlog (by omega) (by omega)

theorem le_toInt64 (hx : x.unpack = .finite .positive r e hr) (hk : k ≤ 2 ^ 53)
    (h : (k : ℚ) ≤ r * 2 ^ e) :
    (k : Int) ≤ x.toInt64.toInt := by
  have htrunc : (k : Int) ≤ roundToInt .positive r e := by
    have hle : k ≤ (r <<< e.toNat) / 2 ^ (0 - (e - e.toNat)).toNat := by
      rw [Nat.shiftLeft_eq, Nat.le_div_iff_mul_le (by positivity)]
      rcases le_or_gt 0 e with he | he
      · obtain ⟨t, rfl⟩ : ∃ t : Nat, e = t := ⟨e.toNat, by omega⟩
        simp only [Int.toNat_natCast, sub_self, Int.toNat_zero, Nat.pow_zero, Nat.mul_one]
        exact_mod_cast h
      · obtain ⟨t, rfl⟩ : ∃ t : Nat, e = -(t : Int) := ⟨(-e).toNat, by omega⟩
        rw [zpow_neg, ← div_eq_mul_inv, le_div_iff₀ (by positivity)] at h
        rw [show (-(t : Int)).toNat = 0 by omega,
          show (0 - (-(t : Int) - (0 : Nat))).toNat = t by omega, Nat.pow_zero, Nat.mul_one]
        exact_mod_cast h
    simp only [roundToInt, decreaseExponent, shiftToExponent, mantissa_shiftRight,
      mantissa_ofMantissaAndAccuracy, Int.sub_zero, Sign.apply]
    exact_mod_cast hle
  rw [Model.toInt64, hx, UnpackedFloat.toInt64, UnpackedFloat.toInt, Int64.ofIntClamp,
    dif_pos (by rw [Int64.toInt_minValue]; omega)]
  split
  · simpa using htrunc
  · rw [Int64.toInt_maxValue]
    omega

/-- **Scaling by `2 ^ p` and dividing by at most that much never loses an integer.** -/
theorem le_toInt64_mul_div {d : Nat} (hn : 0 < n) (hn' : n < 2 ^ 53) (hd : 0 < d)
    (hdp : d ≤ 2 ^ p) (hp : p < 53) : (n : Int) ≤ (Model.ofInt n * Model.ofInt (2 ^ p : Nat) /
      Model.ofInt d).toInt64.toInt := by
  have hpow : (2 ^ p : Nat) < 2 ^ 53 := Nat.pow_lt_pow_right (by decide) hp
  have hnlog : n.log2 < 53 := (Nat.log2_lt hn.ne').mpr hn'
  have hdlog : d.log2 < 53 := (Nat.log2_lt hd.ne').mpr (by omega)
  obtain ⟨_, hx⟩ := unpack_ofInt hn hn'
  obtain ⟨_, hy⟩ := unpack_ofInt (by positivity) hpow
  obtain ⟨_, hz⟩ := unpack_ofInt hd (by omega : d < 2 ^ 53)
  have hy' : (Model.ofInt (2 ^ p : Nat)).unpack
      = .finite .positive (2 ^ 52) ((p : Int) - 52) (by positivity) := by
    rw [hy]
    simp only [Nat.log2_two_pow, ← Nat.pow_add, show p + (52 - p) = 52 by omega]
  have hmul := unpack_mul_two_pow hx (by rw [log2_mul_two_pow hn]; omega) hy' (by omega) (by omega)
  have hshift : ∀ {a : Nat}, a < 53 → ((2 : ℚ) ^ (52 - a)) = 2 ^ (52 - (a : Int)) := by
    intro a ha
    rw [← zpow_natCast, Nat.cast_sub (by omega)]
    rfl
  obtain ⟨r, e', hr, hdiv, hkr⟩ := unpack_div hmul (by rw [log2_mul_two_pow hn]; omega)
    hz (by rw [log2_mul_two_pow hd]; omega) (by omega) (by omega) hn'.le (by
      push_cast
      rw [hshift hnlog, hshift hdlog, mul_assoc (n : ℚ), mul_assoc (d : ℚ),
        ← zpow_add₀ (by norm_num), ← zpow_add₀ (by norm_num),
        show (52 - (d.log2 : Int) + (d.log2 - 52)) = 0 by ring,
        show (52 - (n.log2 : Int) + (n.log2 - 52 + (p - 52) + 52)) = p by ring,
        zpow_zero, zpow_natCast, mul_one]
      gcongr
      exact_mod_cast hdp)
  exact le_toInt64 hdiv hn'.le hkr

end Binary64
