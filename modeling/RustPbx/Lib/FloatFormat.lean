import Mathlib

/-!
Integers in Lean's logical model of floating-point numbers, for any format.

A nonzero integer of at most as many bits as a mantissa has one normalized form, which rounding
gives back exactly (`roundWithAccuracy_exact`) and packing keeps (`unpack_pack`). `IsInt` says that
a float is an integer; sums are exact as long as they fit (`IsInt.add`).
-/

namespace FloatFormat

open Float.Model Float.Model.UnpackedFloat ExtendedMantissa BitVec

variable {spec : Format} {s : Sign} {m k n : Nat} {e : Int}

theorem mantissa_shiftRight (em : ExtendedMantissa) (k : Nat) :
    (em >>> k).mantissa = em.mantissa / 2 ^ k := by
  induction k with
  | zero => simp [HShiftRight.hShiftRight, Nat.repeat]
  | succ k ih =>
    change (em >>> k).mantissa / 2 = _
    rw [ih, Nat.div_div_eq_div_mul, Nat.pow_succ]

theorem shiftRight_zero (em : ExtendedMantissa) : em >>> 0 = em := rfl

theorem shiftRight_exact (m k : Nat) :
    (⟨m * 2 ^ k, false, false⟩ : ExtendedMantissa) >>> k = ⟨m, false, false⟩ := by
  induction k generalizing m with
  | zero => simp [shiftRight_zero]
  | succ k ih =>
    have hstep : (⟨m * 2 ^ (k + 1), false, false⟩ : ExtendedMantissa) >>> k
        = ⟨m * 2, false, false⟩ := by
      rw [Nat.pow_succ, Nat.mul_comm (2 ^ k), ← Nat.mul_assoc]
      exact ih (m * 2)
    change shiftRightOne ((⟨m * 2 ^ (k + 1), false, false⟩ : ExtendedMantissa) >>> k) = _
    rw [hstep]
    simp [shiftRightOne]

@[simp] theorem mantissa_ofMantissaAndAccuracy (m : Nat) (acc : Accuracy) :
    (ofMantissaAndAccuracy m acc).mantissa = m := by
  rcases acc with _ | (_ | _ | _) <;> rfl

theorem log2_mul_two_pow (hm : 0 < m) (k : Nat) : (m * 2 ^ k).log2 = m.log2 + k := by
  obtain ⟨lo, hi⟩ := (Nat.log2_eq_iff hm.ne').mp (rfl : m.log2 = m.log2)
  have hpow : 0 < 2 ^ k := Nat.two_pow_pos k
  refine (Nat.log2_eq_iff (Nat.mul_pos hm hpow).ne').mpr ⟨?_, ?_⟩
  · rw [Nat.pow_add]
    exact Nat.mul_le_mul_right _ lo
  · rw [show m.log2 + k + 1 = m.log2 + 1 + k by omega, Nat.pow_add]
    exact Nat.mul_lt_mul_of_pos_right hi hpow

theorem roundWithAccuracy_exact (s : Sign) (k : Nat)
    (hm : m.log2 = spec.mantissaBitsWithoutImplicit) (hpos : 0 < m)
    (he : spec.minExponent ≤ e + k) :
    roundWithAccuracy spec s (m * 2 ^ k) e .exact = .finite s m (e + k) hpos := by
  have hshift : (spec.targetExponent (totalExponent (m * 2 ^ k) e) - e).toNat = k := by
    rw [Format.targetExponent, Format.mantissaBits, totalExponent, log2_mul_two_pow hpos]
    omega
  have hdone : (spec.targetExponent (totalExponent m (e + k)) - (e + k)).toNat = 0 := by
    rw [Format.targetExponent, Format.mantissaBits, totalExponent]
    omega
  have hone : ofMantissaAndAccuracy (m * 2 ^ k) .exact >>> k
      = ⟨m, false, false⟩ := shiftRight_exact m k
  simp [roundWithAccuracy, shiftToTargetExponent, shiftToExponent, hshift, hone,
    roundedMantissa, accuracy, Accuracy.roundToNearestEven,
    hdone, shiftRight_zero, hpos.ne']

/-! ## Packing -/

theorem toNat_implicit_append (hpos : 0 < m) (hm : m.log2 = k) :
    (1#1 ++ BitVec.ofNat k m).toNat = m := by
  obtain ⟨hlo, hhi⟩ := (Nat.log2_eq_iff hpos.ne').mp hm
  have hmod : m % 2 ^ k = m - 2 ^ k := by
    rw [Nat.mod_eq_sub_mod hlo, Nat.mod_eq_of_lt]
    rw [Nat.pow_succ] at hhi
    omega
  rw [toNat_append, toNat_ofNat, toNat_ofNat,
    ← Nat.shiftLeft_add_eq_or_of_lt (Nat.mod_lt _ (Nat.two_pow_pos k)), Nat.shiftLeft_eq, hmod]
  omega

theorem ofNat_ne (hk : 0 < k) (hlt : k + 1 < 2 ^ n) :
    BitVec.ofNat n k ≠ -1#n ∧ BitVec.ofNat n k ≠ 0#n := by
  have hmod : k % 2 ^ n = k := Nat.mod_eq_of_lt (by omega)
  refine ⟨fun h => ?_, fun h => ?_⟩
  · have := congrArg BitVec.toNat h
    rw [toNat_ofNat, hmod, BitVec.neg_one_eq_allOnes, toNat_allOnes] at this
    omega
  · have := congrArg BitVec.toNat h
    rw [toNat_ofNat, hmod, toNat_ofNat, Nat.zero_mod] at this
    omega

theorem unpack_pack (s : Sign) (hpos : 0 < m) (hm : m.log2 = spec.mantissaBitsWithoutImplicit)
    (hlo : 0 < e + (spec.exponentBias + spec.mantissaBitsWithoutImplicit))
    (hhi : e + (spec.exponentBias + spec.mantissaBitsWithoutImplicit) + 1 <
      (2 ^ spec.exponentBits : Nat)) :
    unpack spec (pack spec (.finite s m e hpos)) = .finite s m e hpos := by
  obtain ⟨b, hb⟩ : ∃ b : Nat, (b : Int) =
      e + (spec.exponentBias + spec.mantissaBitsWithoutImplicit) :=
    ⟨(e + (spec.exponentBias + spec.mantissaBitsWithoutImplicit)).toNat, by omega⟩
  have hbias : (e + spec.exponentBias + spec.mantissaBitsWithoutImplicit).toNat = b := by omega
  have hb2 : b + 1 < 2 ^ spec.exponentBits := by omega
  have hpack : pack spec (.finite s m e hpos)
      = packComponents spec s (BitVec.ofNat _ b) (BitVec.ofNat _ m) := by
    simp only [UnpackedFloat.pack, hbias, hm, Format.mantissaBits]
    rw [if_neg (by omega), if_pos (Nat.add_comm _ _)]
  obtain ⟨hmax, hzero⟩ := ofNat_ne (n := spec.exponentBits) (by omega : 0 < b) hb2
  have hexp : ((BitVec.ofNat spec.exponentBits b).toNat : Int)
      - (spec.exponentBias + spec.mantissaBitsWithoutImplicit) = e := by
    rw [toNat_ofNat, Nat.mod_eq_of_lt (by omega)]
    omega
  rw [hpack, UnpackedFloat.unpack]
  simp only [unpackExponent_packComponents, unpackMantissa_packComponents,
    unpackSign_packComponents, Sign.ofBitVec_toBitVec, if_neg hmax, if_neg hzero,
    toNat_implicit_append hpos hm, hexp]

/-! ## Integers of at most 24 bits in `binary32` -/

/-- The float is the integer, in normalized form. -/
inductive IsInt : UnpackedFloat → Int → Prop where
  | zero (s : Sign) : IsInt (.zero s) 0
  | finite (s : Sign) (n : Nat) (hlog : n.log2 < 24) (hpos : 0 < n * 2 ^ (23 - n.log2)) :
    IsInt (.finite s (n * 2 ^ (23 - n.log2)) (n.log2 - 23) hpos) (s.apply n)

variable {x y : UnpackedFloat} {a b : Int}

theorem log2_normalized (hlog : n.log2 < 24) (hpos : 0 < n * 2 ^ (23 - n.log2)) :
    (n * 2 ^ (23 - n.log2)).log2 = 23 := by
  rw [log2_mul_two_pow (Nat.pos_of_mul_pos_right hpos)]
  omega

theorem isInt_round (hpos : 0 < n) (hlog : n.log2 < 24) (k : Nat) :
    IsInt (round Format.binary32 s (n * 2 ^ k) (-k)) (s.apply n) := by
  have htarget : Format.binary32.targetExponent (totalExponent (n * 2 ^ k) (-k)) =
      (n.log2 : Int) - 23 := by
    change max _ (-149 : Int) = _
    rw [Format.mantissaBits, totalExponent, log2_mul_two_pow hpos]
    push_cast
    omega
  have hmantissa : n * 2 ^ k * 2 ^ (-(k : Int) - (n.log2 - 23)).toNat =
      n * 2 ^ (23 - n.log2) * 2 ^ (k - (23 - n.log2)) := by
    rw [Nat.mul_assoc, Nat.mul_assoc, ← Nat.pow_add, ← Nat.pow_add]
    congr 2
    omega
  have hmpos : 0 < n * 2 ^ (23 - n.log2) := Nat.mul_pos hpos (Nat.two_pow_pos _)
  have hexponent : -(k : Int) - (-(k : Int) - (n.log2 - 23)).toNat + (k - (23 - n.log2) : Nat) =
      n.log2 - 23 := by omega
  simp only [UnpackedFloat.round, htarget, decreaseExponent, Nat.shiftLeft_eq, hmantissa]
  rw [roundWithAccuracy_exact _ _ (log2_normalized hlog hmpos) hmpos
    (show (-149 : Int) ≤ _ by omega), hexponent]
  exact .finite s n hlog hmpos

theorem isInt_normalize (hlt : a.natAbs < 2 ^ 24) (k : Nat) :
    IsInt (UnpackedFloat.normalize Format.binary32 (a * (2 ^ k : Nat)) (-k) s) a := by
  have hpow := Nat.two_pow_pos k
  have hround (s : Sign) (ha : a ≠ 0) :
      IsInt (round Format.binary32 s (a.natAbs * 2 ^ k) (-k)) (s.apply a.natAbs) :=
    isInt_round (by omega) ((Nat.log2_lt (by omega)).mpr hlt) k
  have habs : (a * (2 ^ k : Nat)).natAbs = a.natAbs * 2 ^ k := Int.natAbs_mul ..
  unfold UnpackedFloat.normalize
  rcases Int.lt_trichotomy a 0 with hneg | rfl | hpos
  · have hmul : a * (2 ^ k : Nat) < 0 := Int.mul_neg_of_neg_of_pos hneg (by omega)
    have h := hround .negative hneg.ne
    rw [Int.compare_eq_lt.mpr hmul]
    rwa [← habs, show Sign.negative.apply a.natAbs = a by simp only [Sign.apply]; omega,
      show (a * (2 ^ k : Nat)).natAbs = (-(a * (2 ^ k : Nat))).toNat by omega] at h
  · rw [Int.zero_mul]
    exact .zero s
  · have hmul : 0 < a * (2 ^ k : Nat) := Int.mul_pos hpos (by omega)
    have h := hround .positive hpos.ne'
    rw [Int.compare_eq_gt.mpr hmul]
    rwa [← habs, show Sign.positive.apply a.natAbs = a by simp only [Sign.apply]; omega,
      show (a * (2 ^ k : Nat)).natAbs = (a * (2 ^ k : Nat)).toNat by omega] at h

theorem apply_mul (s : Sign) (n k : Nat) : s.apply (n * k : Nat) = s.apply n * k := by
  cases s <;> simp [Sign.apply]

/-- The mantissa brought to a common exponent. -/
theorem apply_decreaseExponent (s : Sign) (hlog : n.log2 < 24) (he : -(k : Int) ≤ n.log2 - 23) :
    s.apply (decreaseExponent (n * 2 ^ (23 - n.log2)) (n.log2 - 23) (-k)).1 =
      s.apply n * (2 ^ k : Nat) := by
  rw [decreaseExponent, Nat.shiftLeft_eq, Nat.mul_assoc, ← Nat.pow_add,
    show 23 - n.log2 + ((n.log2 : Int) - 23 - -k).toNat = k by omega, apply_mul]

theorem IsInt.add (hx : IsInt x a) (hy : IsInt y b) (hsum : (a + b).natAbs < 2 ^ 24) :
    IsInt (UnpackedFloat.add Format.binary32 x y) (a + b) := by
  cases hx with
  | zero s =>
    cases hy with
    | zero s' =>
      cases s <;> cases s' <;> exact .zero _
    | finite s' n hlog hpos =>
      rw [Int.zero_add]
      exact .finite s' n hlog hpos
  | finite s n hlog hpos =>
    cases hy with
    | zero s' =>
      rw [Int.add_zero]
      exact .finite s n hlog hpos
    | finite s' n' hlog' hpos' =>
      obtain ⟨k, hk⟩ : ∃ k : Nat, min ((n.log2 : Int) - 23) (n'.log2 - 23) = -k :=
        ⟨(-(min ((n.log2 : Int) - 23) (n'.log2 - 23))).toNat, by omega⟩
      have h := isInt_normalize (s := .positive) hsum k
      rw [Int.add_mul, ← apply_decreaseExponent s hlog (by omega),
        ← apply_decreaseExponent s' hlog' (by omega), ← hk] at h
      exact h

theorem IsInt.mul_one (hx : IsInt x a) :
    IsInt (UnpackedFloat.mul Format.binary32 x
      (.finite .positive (2 ^ 23) (-23) (by decide))) a := by
  cases hx with
  | zero s =>
    exact .zero _
  | finite s n hlog hpos =>
    have hs : s * .positive = s := by cases s <;> rfl
    have h := IsInt.finite s n hlog hpos
    rw [UnpackedFloat.mul, hs, roundWithAccuracy_exact _ 23 (log2_normalized hlog hpos) hpos
      (show (-149 : Int) ≤ _ by omega), show (n.log2 : Int) - 23 + -23 + (23 : Nat) = n.log2 - 23 by
        omega]
    exact h

theorem IsInt.unpack_pack (hx : IsInt x a) :
    IsInt (unpack Format.binary32 (pack Format.binary32 x)) a := by
  cases hx with
  | zero s => cases s <;> exact .zero _
  | finite s n hlog hpos =>
    rw [FloatFormat.unpack_pack s hpos (log2_normalized hlog hpos)]
    · exact .finite s n hlog hpos
    · change 0 < (n.log2 : Int) - 23 + ((127 : Nat) + (23 : Nat))
      omega
    · change (n.log2 : Int) - 23 + ((127 : Nat) + (23 : Nat)) + 1 < (256 : Nat)
      omega

theorem IsInt.toInt (hx : IsInt x a) (lo hi : Int) : x.toInt lo hi = a := by
  cases hx with
  | zero s => rfl
  | finite s n hlog hpos =>
    rw [UnpackedFloat.toInt, roundToInt, decreaseExponent,
      show ((n.log2 : Int) - 23 - 0).toNat = 0 by omega, Nat.shiftLeft_zero]
    simp only [shiftToExponent, mantissa_shiftRight, mantissa_ofMantissaAndAccuracy]
    rw [show (0 - ((n.log2 : Int) - 23 - (0 : Nat))).toNat = 23 - n.log2 by omega,
      Nat.mul_div_cancel _ (Nat.two_pow_pos _)]

/-- **Adding two samples under a unit gain is exact**, and a sum out of range is cut off. -/
theorem toInt16_add_mul_one (o s : Int16) :
    (Float32.Model.ofInt16 o + Float32.Model.ofInt16 s * Float32.toModel 1.0).toInt16 =
      .ofIntClamp (o.toInt + s.toInt) := by
  have hofInt (n : Int16) : IsInt (Float32.Model.ofInt16 n).unpack n.toInt := by
    refine IsInt.unpack_pack ?_
    have h := isInt_normalize (a := n.toInt) (s := .positive) (by
      have := n.le_toInt
      have := n.toInt_lt
      omega) 0
    rwa [Nat.pow_zero, Nat.cast_one, Int.mul_one] at h
  have hsum : (o.toInt + s.toInt).natAbs < 2 ^ 24 := by
    have := o.le_toInt
    have := o.toInt_lt
    have := s.le_toInt
    have := s.toInt_lt
    omega
  have hadd := ((hofInt o).add (hofInt s).mul_one.unpack_pack hsum).unpack_pack
  exact congrArg Int16.ofIntClamp (hadd.toInt ..)

end FloatFormat
