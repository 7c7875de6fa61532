import Mathlib

/-!
# Rounding of doubles

A double that is not zero, infinite or a NaN is a sign, a significand and a binary exponent.
The operations of doubles compute a significand together with two more bits, which tell on
which side of the middle between two doubles the exact value lies, and round it once.

`Rounded q v` says what comes of that: `v` is a whole number of units in the last place of
`q`, and no other such number is closer to `q`.
-/

namespace MiniPascal.Doubles

open Float.Model Float.Model.UnpackedFloat

/-! ## Significands with two more bits -/

/-- The exact values for which a significand with its two bits may stand. -/
def Holds : ExtendedMantissa → ℚ → Prop
  | ⟨m, false, false⟩, x => x = m
  | ⟨m, false, true⟩, x => m < x ∧ x < m + 1 / 2
  | ⟨m, true, false⟩, x => x = m + 1 / 2
  | ⟨m, true, true⟩, x => m + 1 / 2 < x ∧ x < m + 1

theorem holds_exact (m : ℕ) : Holds (.ofMantissaAndAccuracy m .exact) m := rfl

/-- The two bits keep of a remainder what rounding needs. -/
theorem holds_quotient (m d : ℕ) (positive : 0 < d) :
    Holds (.ofMantissaAndAccuracy (m / d) (accuracyOfFraction (m % d) d)) (m / d : ℚ) := by
  have divisor : (0 : ℚ) < d := by exact_mod_cast positive
  have small : ((m % d : ℕ) : ℚ) < d := by exact_mod_cast Nat.mod_lt m positive
  have quotient : (m / d : ℚ) = (m / d : ℕ) + ((m % d : ℕ) : ℚ) / d := by
    have parts : (m : ℚ) = d * (m / d : ℕ) + (m % d : ℕ) := by
      exact_mod_cast (Nat.div_add_mod m d).symm
    field_simp
    linarith
  rw [quotient]
  unfold accuracyOfFraction
  split
  next none => simp [none, Holds, ExtendedMantissa.ofMantissaAndAccuracy]
  next some =>
    have rest : (0 : ℚ) < (m % d : ℕ) := by exact_mod_cast Nat.pos_of_ne_zero some
    -- twice the remainder against the divisor: below, at or above the middle
    rcases lt_trichotomy (2 * (m % d)) d with less | equal | greater
    · have less' : (2 : ℚ) * (m % d : ℕ) < d := by exact_mod_cast less
      rw [Nat.compare_eq_lt.mpr less]
      refine ⟨lt_add_of_pos_right _ (div_pos rest divisor), add_lt_add_right ?_ _⟩
      rw [div_lt_div_iff₀ divisor two_pos]
      linarith
    · have equal' : (2 : ℚ) * (m % d : ℕ) = d := by exact_mod_cast equal
      rw [Nat.compare_eq_eq.mpr equal]
      refine congrArg _ ?_
      rw [div_eq_div_iff divisor.ne' two_ne_zero]
      linarith
    · have greater' : (d : ℚ) < 2 * (m % d : ℕ) := by exact_mod_cast greater
      rw [Nat.compare_eq_gt.mpr greater]
      refine ⟨add_lt_add_right ?_ _, add_lt_add_right ?_ _⟩
      · rw [div_lt_div_iff₀ two_pos divisor]
        linarith
      · rwa [div_lt_one divisor]

theorem Holds.mantissa_le {em : ExtendedMantissa} {x : ℚ} (holds : Holds em x) :
    em.mantissa ≤ x ∧ x < em.mantissa + 1 := by
  obtain ⟨m, round, sticky⟩ := em
  cases round <;> cases sticky <;> simp only [Holds] at holds ⊢ <;> constructor <;> linarith

/-- Shifting keeps the two bits true of the halved value. -/
theorem Holds.shiftRightOne {em : ExtendedMantissa} {x : ℚ} (holds : Holds em x) :
    Holds em.shiftRightOne (x / 2) := by
  obtain ⟨m, round, sticky⟩ := em
  have parts : (m : ℚ) = 2 * (m / 2 : ℕ) + (m % 2 : ℕ) := by
    exact_mod_cast (Nat.div_add_mod m 2).symm
  -- the last digit becomes the first of the two bits, and the second collects the rest
  rcases Nat.mod_two_eq_zero_or_one m with even | odd
  · have bit : (m % 2 != 0) = false := by simp [even]
    rw [even, Nat.cast_zero, add_zero] at parts
    cases round <;> cases sticky <;>
      simp only [Holds, ExtendedMantissa.shiftRightOne, bit, Bool.or_false, Bool.or_true] at holds ⊢ <;>
      (try constructor) <;> linarith
  · have bit : (m % 2 != 0) = true := by simp [odd]
    rw [odd, Nat.cast_one] at parts
    cases round <;> cases sticky <;>
      simp only [Holds, ExtendedMantissa.shiftRightOne, bit, Bool.or_false, Bool.or_true] at holds ⊢ <;>
      (try constructor) <;> linarith

theorem Holds.shiftRight {em : ExtendedMantissa} {x : ℚ} (holds : Holds em x) (n : ℕ) :
    Holds (em >>> n) (x / 2 ^ n) := by
  change Holds (n.repeat ExtendedMantissa.shiftRightOne em) _
  induction n with
  | zero => simpa [Nat.repeat] using holds
  | succ n ih =>
    have halved := ih.shiftRightOne
    rwa [div_div, ← pow_succ] at halved

/-- Rounding a significand goes half a unit at most. -/
theorem Holds.abs_roundedMantissa_sub_le {em : ExtendedMantissa} {x : ℚ} (holds : Holds em x) :
    |(em.roundedMantissa : ℚ) - x| ≤ 1 / 2 := by
  obtain ⟨m, round, sticky⟩ := em
  have parity : ((m % 2 : ℕ) : ℚ) = 0 ∨ ((m % 2 : ℕ) : ℚ) = 1 := by
    exact_mod_cast Nat.mod_two_eq_zero_or_one m
  rw [abs_le]
  -- at the middle the significand decides, which is why its parity matters
  cases round <;> cases sticky <;>
    simp only [Holds, ExtendedMantissa.roundedMantissa, ExtendedMantissa.accuracy,
      Accuracy.roundToNearestEven] at holds ⊢ <;>
    push_cast <;> rcases parity with even | odd <;> constructor <;> linarith

/-! ## Values -/

/-- A sign as a factor. -/
def factor : Sign → ℚ
  | .negative => -1
  | .positive => 1

/-- The number that a double stands for, as long as its significand fills all binary digits. -/
def Denotes : UnpackedFloat → ℚ → Prop
  | .zero _, v => v = 0
  | .finite s m e _, v => 2 ^ 52 ≤ m ∧ m < 2 ^ 53 ∧ -1074 ≤ e ∧ v = factor s * (m * 2 ^ e)
  | _, _ => False

/-- `v` is a number of units in the last place of `q` that is closest to `q`. -/
def Rounded (q v : ℚ) : Prop :=
  ∃ r t : ℤ, v = r * 2 ^ t ∧ 2 ^ (t + 52) ≤ |q| ∧ |q| < 2 ^ (t + 53) ∧ |v - q| ≤ 2 ^ t / 2

@[simp] theorem abs_factor (s : Sign) : |factor s| = 1 := by
  cases s <;> simp [factor]

theorem abs_factor_mul (s : Sign) {x : ℚ} (nonneg : 0 ≤ x) : |factor s * x| = x := by
  rw [abs_mul, abs_factor, one_mul, abs_of_nonneg nonneg]

/-- A scaled number that is rounded to an integer. -/
theorem rounded_of_scaled {r : ℕ} {y : ℚ} (t : ℤ) (least : 2 ^ 52 ≤ y) (greatest : y < 2 ^ 53)
    (close : |(r : ℚ) - y| ≤ 1 / 2) : Rounded (y * 2 ^ t) (r * 2 ^ t) := by
  have unit : (0 : ℚ) < 2 ^ t := by positivity
  have size : |y * 2 ^ t| = y * 2 ^ t := abs_of_pos (mul_pos (by linarith) unit)
  refine ⟨r, t, by norm_cast, ?_, ?_, ?_⟩
  · rw [size, zpow_add₀ two_ne_zero, mul_comm]
    exact mul_le_mul_of_nonneg_right (by exact_mod_cast least) unit.le
  · rw [size, zpow_add₀ two_ne_zero, mul_comm]
    exact mul_lt_mul_of_pos_left (by exact_mod_cast greatest) unit
  · rw [← sub_mul, abs_mul, abs_of_pos unit]
    linarith [mul_le_mul_of_nonneg_right close unit.le]

theorem Rounded.factor_mul {q v : ℚ} (rounded : Rounded q v) (s : Sign) :
    Rounded (factor s * q) (factor s * v) := by
  obtain ⟨r, t, value, least, greatest, close⟩ := rounded
  refine ⟨s.apply r, t, ?_, ?_, ?_, ?_⟩
  · cases s <;> simp [factor, Sign.apply, value]
  · rwa [abs_mul, abs_factor, one_mul]
  · rwa [abs_mul, abs_factor, one_mul]
  · rwa [← mul_sub, abs_mul, abs_factor, one_mul]

/-! ## Rounding -/

theorem targetExponent_eq (m : ℕ) (e : ℤ) (normal : -1022 ≤ m.log2 + e) :
    Format.binary64.targetExponent (totalExponent m e) = m.log2 + e - 52 := by
  simp only [Format.targetExponent, totalExponent, Format.mantissaBits, Format.minExponent]
  omega

theorem shiftToTargetExponent_eq (m : ℕ) (e : ℤ) (acc : Accuracy) (normal : -1022 ≤ m.log2 + e)
    (k : ℕ) (digits : m.log2 = 52 + k) :
    shiftToTargetExponent Format.binary64 m e acc =
      (ExtendedMantissa.ofMantissaAndAccuracy m acc >>> k, e + k) := by
  have amount : (Format.binary64.targetExponent (totalExponent m e) - e).toNat = k := by
    rw [targetExponent_eq m e normal]
    omega
  simp only [shiftToTargetExponent, shiftToExponent, amount]

theorem log2_eq_of_bounds {m k : ℕ} (least : 2 ^ k ≤ m) (greatest : m < 2 ^ (k + 1)) :
    m.log2 = k :=
  (Nat.log2_eq_iff (Nat.ne_of_gt (lt_of_lt_of_le (Nat.two_pow_pos k) least))).mpr ⟨least, greatest⟩

/-- A significand of 54 digits is a power of two, and the last digit is dropped. -/
theorem carry_exact {r : ℕ} {t : ℤ} (least : 2 ^ 52 ≤ r) (greatest : r ≤ 2 ^ 53) (normal : -1074 ≤ t) :
    let carried := shiftToTargetExponent Format.binary64 r t .exact
    2 ^ 52 ≤ carried.1.mantissa ∧ carried.1.mantissa < 2 ^ 53 ∧ -1074 ≤ carried.2 ∧
      (carried.1.mantissa : ℚ) * 2 ^ carried.2 = r * 2 ^ t := by
  rcases greatest.lt_or_eq with short | rfl
  · have digits := log2_eq_of_bounds least short
    rw [shiftToTargetExponent_eq r t .exact (by omega) 0 digits]
    exact ⟨least, short, by omega, by rw [Nat.cast_zero, add_zero]; rfl⟩
  · rw [shiftToTargetExponent_eq _ t .exact (by rw [Nat.log2_two_pow]; omega) 1 Nat.log2_two_pow]
    refine ⟨le_refl (2 ^ 52), show 2 ^ 52 < 2 ^ 53 by decide, by omega, ?_⟩
    change ((2 ^ 52 : ℕ) : ℚ) * 2 ^ (t + 1) = _
    rw [zpow_add_one₀ two_ne_zero]
    push_cast
    ring

theorem mantissa_ofMantissaAndAccuracy (m : ℕ) (acc : Accuracy) :
    (ExtendedMantissa.ofMantissaAndAccuracy m acc).mantissa = m := by
  unfold ExtendedMantissa.ofMantissaAndAccuracy
  split <;> rfl

/-- Without its last `k` digits a significand of `53 + k` digits has 53 of them. -/
theorem Holds.scaled_bounds {m k : ℕ} {acc : Accuracy} {x : ℚ} (holds : Holds (.ofMantissaAndAccuracy m acc) x)
    (positive : 0 < m) (digits : m.log2 = 52 + k) : 2 ^ 52 ≤ x / 2 ^ k ∧ x / 2 ^ k < 2 ^ 53 := by
  have bounds := holds.mantissa_le
  rw [mantissa_ofMantissaAndAccuracy] at bounds
  constructor
  · have power : (2 : ℚ) ^ (52 + k) ≤ m := by
      rw [← digits]
      exact_mod_cast Nat.log2_self_le positive.ne'
    rw [le_div_iff₀ (by positivity), ← pow_add]
    exact power.trans bounds.1
  · have power : (m : ℚ) + 1 ≤ 2 ^ (53 + k) := by
      rw [show 53 + k = m.log2 + 1 by omega]
      exact_mod_cast Nat.lt_log2_self
    rw [div_lt_iff₀ (by positivity), ← pow_add]
    exact bounds.2.trans_le power

/-- Rounding may give one digit more, but then it is a power of two. -/
theorem significand_bounds {r : ℕ} {y : ℚ} (least : 2 ^ 52 ≤ y) (greatest : y < 2 ^ 53)
    (close : |(r : ℚ) - y| ≤ 1 / 2) : 2 ^ 52 ≤ r ∧ r ≤ 2 ^ 53 := by
  obtain ⟨below, above⟩ := abs_le.mp close
  constructor
  · have next : ((2 ^ 52 : ℕ) : ℚ) < (r + 1 : ℕ) := by push_cast; linarith
    exact Nat.lt_succ_iff.mp (by exact_mod_cast next)
  · have next : (r : ℚ) < (2 ^ 53 + 1 : ℕ) := by push_cast; linarith
    exact Nat.lt_succ_iff.mp (by exact_mod_cast next)

/-- Rounding a significand of at least 53 digits gives a closest double. -/
theorem denotes_roundWithAccuracy (s : Sign) {m : ℕ} {e : ℤ} {acc : Accuracy} {x : ℚ}
    (holds : Holds (.ofMantissaAndAccuracy m acc) x) (long : 2 ^ 52 ≤ m)
    (normal : -1022 ≤ m.log2 + e) :
    ∃ v, Rounded (x * 2 ^ e) v ∧
      Denotes (roundWithAccuracy Format.binary64 s m e acc) (factor s * v) := by
  have digits : 52 ≤ m.log2 := (Nat.le_log2 (by omega)).mpr long
  obtain ⟨k, split⟩ := Nat.exists_eq_add_of_le digits
  obtain ⟨least, greatest⟩ := holds.scaled_bounds (by omega) split
  have close := (holds.shiftRight k).abs_roundedMantissa_sub_le
  have value : x * 2 ^ e = x / 2 ^ k * 2 ^ (e + k) := by
    rw [zpow_add₀ two_ne_zero, zpow_natCast]
    field_simp
  have rounded : roundWithAccuracy Format.binary64 s m e acc =
      let r := (ExtendedMantissa.ofMantissaAndAccuracy m acc >>> k).roundedMantissa
      let carried := shiftToTargetExponent Format.binary64 r (e + k) .exact
      if nonzero : carried.1.mantissa = 0 then .zero s
      else .finite s carried.1.mantissa carried.2 (Nat.pos_of_ne_zero nonzero) := by
    simp only [roundWithAccuracy, shiftToTargetExponent_eq m e acc normal k split]
  rw [rounded, value]
  generalize (ExtendedMantissa.ofMantissaAndAccuracy m acc >>> k).roundedMantissa = r at close ⊢
  refine ⟨r * 2 ^ (e + k), rounded_of_scaled (e + k) least greatest close, ?_⟩
  -- the second shift drops a digit only after a carry, and that digit is zero
  have significand := significand_bounds least greatest close
  obtain ⟨least', short, normal', same⟩ := carry_exact significand.1 significand.2 (t := e + k) (by omega)
  dsimp only
  rw [dif_neg (by omega)]
  exact ⟨least', short, normal', by rw [same]⟩

end MiniPascal.Doubles
