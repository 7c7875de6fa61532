import MiniPascal.Proofs.Doubles.Nearest

/-!
# Operations on doubles that hold integers

Sums, differences, products and quotients of doubles are the exact result, rounded once. All
that is asked of the operands is that they hold integers, so no result is so close to zero that
it has fewer digits.
-/

namespace MiniPascal.Doubles

open Float.Model Float.Model.UnpackedFloat

/-! ## Signs -/

theorem factor_neg (s : Sign) : factor (-s) = -factor s := by
  cases s
  · exact (neg_neg 1).symm
  · rfl

theorem factor_mul (s s' : Sign) : factor (s * s') = factor s * factor s' := by
  cases s <;> cases s'
  · exact (neg_mul_neg (1 : ℚ) 1).symm ▸ (mul_one 1).symm
  · exact (mul_one (-1)).symm
  · exact (one_mul (-1)).symm
  · exact (one_mul 1).symm

theorem factor_div (s s' : Sign) : factor (s / s') = factor s * factor s' := by
  rw [← factor_mul]
  cases s <;> cases s' <;> rfl

theorem apply_neg (s : Sign) (n : ℤ) : (-s).apply n = -s.apply n := by
  cases s
  · exact (neg_neg n).symm
  · rfl

theorem cast_apply (s : Sign) (n : ℤ) : (s.apply n : ℚ) = factor s * n := by
  cases s <;> simp [factor, Sign.apply]

theorem natAbs_apply (s : Sign) (n : ℕ) : (s.apply n).natAbs = n := by
  cases s
  · exact Int.natAbs_neg n
  · rfl

theorem exists_sign (n : ℤ) : ∃ s : Sign, n = s.apply n.natAbs := by
  rcases le_total 0 n with nonneg | nonpos
  · exact ⟨.positive, by simp only [Sign.apply]; omega⟩
  · exact ⟨.negative, by simp only [Sign.apply]; omega⟩

/-! ## Values of doubles -/

theorem Denotes.rounds {u : UnpackedFloat} {v : ℚ} (denotes : Denotes u v) : Rounds v v := by
  cases u with
  | zero s => exact .inl ⟨denotes, denotes⟩
  | infinity | notANumber => exact denotes.elim
  | finite s m e positive =>
    obtain ⟨least, short, -, rfl⟩ := denotes
    have unit : (0 : ℚ) < 2 ^ e := by positivity
    have size : |factor s * (m * 2 ^ e)| = (m : ℚ) * 2 ^ e := abs_factor_mul s (by positivity)
    refine .inr ⟨s.apply m, e, ?_, ?_, ?_, ?_⟩
    · rw [cast_apply, mul_assoc, Int.cast_natCast]
    · rw [size, zpow_add₀ two_ne_zero, mul_comm]
      exact mul_le_mul_of_nonneg_right (by exact_mod_cast least) unit.le
    · rw [size, zpow_add₀ two_ne_zero, mul_comm]
      exact mul_lt_mul_of_pos_left (by exact_mod_cast short) unit
    · rw [sub_self, abs_zero]
      positivity

theorem Denotes.neg {u : UnpackedFloat} {v : ℚ} (denotes : Denotes u v) :
    Denotes u.neg (-v) := by
  cases u with
  | zero s =>
    change v = 0 at denotes
    exact neg_eq_zero.mpr denotes
  | infinity | notANumber => exact denotes.elim
  | finite s m e positive =>
    obtain ⟨least, short, normal, rfl⟩ := denotes
    exact ⟨least, short, normal, by rw [factor_neg, neg_mul]⟩

/-- The exponent of a double that holds an integer. -/
theorem Denotes.exponent_of_integer {s : Sign} {m : ℕ} {e : ℤ} {positive : 0 < m} {n : ℤ}
    (denotes : Denotes (.finite s m e positive) n) : n ≠ 0 ∧ -53 < e := by
  obtain ⟨-, short, -, value⟩ := denotes
  have size : |(n : ℚ)| = m * 2 ^ e := value ▸ abs_factor_mul s (by positivity)
  have nonzero : n ≠ 0 := by
    rintro rfl
    have : (0 : ℚ) < m * 2 ^ e := mul_pos (by exact_mod_cast positive) (by positivity)
    rw [← size] at this
    simp at this
  refine ⟨nonzero, ?_⟩
  by_contra low
  have unit : (2 : ℚ) ^ e ≤ 2 ^ (-53 : ℤ) := zpow_le_zpow_right₀ one_le_two (by omega)
  have digits : (m : ℚ) < 2 ^ 53 := by exact_mod_cast short
  have whole : (1 : ℚ) ≤ |(n : ℚ)| := by exact_mod_cast Int.one_le_abs nonzero
  have product : (m : ℚ) * 2 ^ e < 2 ^ 53 * 2 ^ (-53 : ℤ) :=
    mul_lt_mul digits unit (by positivity) (by positivity)
  rw [size] at whole
  norm_num at product
  linarith

/-- A double below the limit has no digits to the left of its exponent. -/
theorem exponent_nonpos_iff {m : ℕ} {e : ℤ} (least : 2 ^ 52 ≤ m) (short : m < 2 ^ 53) :
    e ≤ 0 ↔ (m : ℚ) * 2 ^ e < 2 ^ 53 := by
  have digits : (2 : ℚ) ^ 52 ≤ m ∧ (m : ℚ) < 2 ^ 53 := ⟨by exact_mod_cast least, by exact_mod_cast short⟩
  constructor
  · intro low
    have unit : (2 : ℚ) ^ e ≤ 1 := zpow_le_one_of_nonpos₀ one_le_two low
    nlinarith [digits.1]
  · intro small
    by_contra high
    have unit : (2 : ℚ) ^ (1 : ℤ) ≤ 2 ^ e := zpow_le_zpow_right₀ one_le_two (by omega)
    rw [zpow_one] at unit
    nlinarith [digits.1]

/-! ## Rounding of exact numbers -/

theorem log2_shiftLeft {m : ℕ} (positive : 0 < m) (k : ℕ) : (m <<< k).log2 = m.log2 + k := by
  rw [Nat.shiftLeft_eq]
  apply log2_eq_of_bounds
  · rw [pow_add]
    exact Nat.mul_le_mul_right _ (Nat.log2_self_le positive.ne')
  · rw [add_right_comm, pow_add]
    exact Nat.mul_lt_mul_of_pos_right Nat.lt_log2_self (Nat.two_pow_pos k)

theorem denotes_round (s : Sign) {m : ℕ} {e : ℤ} (positive : 0 < m) (normal : -1022 ≤ e) :
    ∃ v, Rounded (m * 2 ^ e) v ∧ Denotes (UnpackedFloat.round Format.binary64 s m e) (factor s * v) := by
  set k := (52 - (m.log2 : ℤ)).toNat with amount
  have shifted : decreaseExponent m e (Format.binary64.targetExponent (totalExponent m e)) =
      (m <<< k, e - k) := by
    rw [targetExponent_eq m e (by omega), decreaseExponent]
    simp only [show (e - (m.log2 + e - 52)).toNat = k by omega]
  have log := log2_shiftLeft positive k
  have long : 2 ^ 52 ≤ m <<< k := (Nat.le_log2 (by rw [Nat.shiftLeft_eq]; positivity)).mp (by omega)
  -- with zeros behind it the significand is long enough to be rounded
  obtain ⟨v, rounded, denotes⟩ :=
    denotes_roundWithAccuracy s (holds_exact (m <<< k)) long (e := e - k) (by omega)
  refine ⟨v, ?_, ?_⟩
  · convert rounded using 1
    rw [Nat.shiftLeft_eq, zpow_sub₀ two_ne_zero, zpow_natCast]
    push_cast
    field_simp
  · simpa only [UnpackedFloat.round, shifted] using denotes

theorem denotes_normalize (n e : ℤ) (z : Sign) (normal : -1022 ≤ e) :
    ∃ v, Rounds (n * 2 ^ e) v ∧ Denotes (UnpackedFloat.normalize Format.binary64 n e z) v := by
  unfold UnpackedFloat.normalize
  rcases lt_trichotomy n 0 with negative | rfl | positive
  · rw [Int.compare_eq_lt.mpr negative]
    obtain ⟨v, rounded, denotes⟩ := denotes_round .negative (m := (-n).toNat) (by omega) normal
    refine ⟨_, .inr ?_, denotes⟩
    convert rounded.factor_mul .negative using 1
    have same : (((-n).toNat : ℕ) : ℚ) = -n := by exact_mod_cast Int.toNat_of_nonneg (by omega)
    rw [same, factor]
    ring
  · exact ⟨0, .inl (by simp), rfl⟩
  · rw [Int.compare_eq_gt.mpr positive]
    obtain ⟨v, rounded, denotes⟩ := denotes_round .positive (m := n.toNat) (by omega) normal
    refine ⟨_, .inr ?_, denotes⟩
    convert rounded.factor_mul .positive using 1
    have same : ((n.toNat : ℕ) : ℚ) = n := by exact_mod_cast Int.toNat_of_nonneg (by omega)
    rw [same, factor]
    ring

/-! ## Sums -/

theorem apply_decreaseExponent (s : Sign) (m : ℕ) {e t : ℤ} (lower : t ≤ e) :
    (s.apply ((decreaseExponent m e t).1 : ℕ) : ℚ) * 2 ^ t = factor s * (m * 2 ^ e) := by
  have units : (((m <<< (e - t).toNat : ℕ) : ℚ)) * 2 ^ t = m * 2 ^ e := by
    rw [Nat.shiftLeft_eq]
    push_cast
    rw [mul_assoc, ← zpow_natCast, Int.toNat_of_nonneg (by omega), ← zpow_add₀ two_ne_zero]
    simp
  rw [cast_apply, mul_assoc, ← units]
  rfl

theorem denotes_add {u w : UnpackedFloat} {a b : ℤ} (left : Denotes u a) (right : Denotes w b) :
    ∃ v, Rounds (a + b) v ∧ Denotes (UnpackedFloat.add Format.binary64 u w) v := by
  cases u with
  | infinity | notANumber => exact left.elim
  | zero s =>
    change (a : ℚ) = 0 at left
    rw [left, zero_add]
    cases w with
    | infinity | notANumber => exact right.elim
    | zero s' =>
      refine ⟨0, .inl ⟨right, rfl⟩, ?_⟩
      simp only [UnpackedFloat.add]
      split <;> rfl
    | finite s' m e positive => exact ⟨b, right.rounds, right⟩
  | finite s m e positive =>
    cases w with
    | infinity | notANumber => exact right.elim
    | zero s' =>
      change (b : ℚ) = 0 at right
      rw [right, add_zero]
      exact ⟨a, left.rounds, left⟩
    | finite s' m' e' positive' =>
      have low := left.exponent_of_integer.2
      have low' := right.exponent_of_integer.2
      -- at the smaller exponent the sum is exact
      obtain ⟨v, rounds, denotes⟩ := denotes_normalize
        (s.apply (decreaseExponent m e (min e e')).1 + s'.apply (decreaseExponent m' e' (min e e')).1)
        (min e e') .positive (by omega)
      refine ⟨v, ?_, denotes⟩
      rw [Int.cast_add, add_mul, apply_decreaseExponent s m (min_le_left e e'),
        apply_decreaseExponent s' m' (min_le_right e e')] at rounds
      rwa [left.2.2.2, right.2.2.2]

/-- A difference is a sum with the negated operand. -/
theorem sub_eq_add_negated (u w : UnpackedFloat) :
    UnpackedFloat.sub Format.binary64 u w = UnpackedFloat.add Format.binary64 u w.neg := by
  cases u with
  | notANumber => cases w <;> rfl
  | infinity s | zero s => cases w <;> cases s <;> rfl
  | finite s m e positive =>
    cases w with
    | finite s' m' e' positive' =>
      simp only [UnpackedFloat.sub, UnpackedFloat.add, UnpackedFloat.neg]
      rw [apply_neg, Int.sub_eq_add_neg]
    | infinity | zero | notANumber => rfl

theorem denotes_sub {u w : UnpackedFloat} {a b : ℤ} (left : Denotes u a) (right : Denotes w b) :
    ∃ v, Rounds (a - b) v ∧ Denotes (UnpackedFloat.sub Format.binary64 u w) v := by
  have negated : Denotes w.neg ((-b : ℤ) : ℚ) := by
    push_cast
    exact right.neg
  rw [sub_eq_add_negated, sub_eq_add_neg, ← Int.cast_neg]
  exact denotes_add left negated

/-! ## Products -/

theorem denotes_mul {u w : UnpackedFloat} {a b : ℤ} (left : Denotes u a) (right : Denotes w b) :
    ∃ v, Rounds (a * b) v ∧ Denotes (UnpackedFloat.mul Format.binary64 u w) v := by
  cases u with
  | infinity | notANumber => exact left.elim
  | zero s =>
    change (a : ℚ) = 0 at left
    rw [left, zero_mul]
    cases w with
    | infinity | notANumber => exact right.elim
    | zero | finite => exact ⟨0, .inl ⟨rfl, rfl⟩, rfl⟩
  | finite s m e positive =>
    cases w with
    | infinity | notANumber => exact right.elim
    | zero s' =>
      change (b : ℚ) = 0 at right
      rw [right, mul_zero]
      exact ⟨0, .inl ⟨rfl, rfl⟩, rfl⟩
    | finite s' m' e' positive' =>
      have low := left.exponent_of_integer.2
      have low' := right.exponent_of_integer.2
      have long : 2 ^ 52 ≤ m * m' := left.1.trans (Nat.le_mul_of_pos_right m positive')
      obtain ⟨v, rounded, denotes⟩ := denotes_roundWithAccuracy (s * s') (holds_exact (m * m')) long
        (e := e + e') (by omega)
      refine ⟨_, .inr ?_, denotes⟩
      convert rounded.factor_mul (s * s') using 1
      rw [left.2.2.2, right.2.2.2, factor_mul, zpow_add₀ two_ne_zero]
      push_cast
      ring

/-! ## Quotients -/

/-- The dividend is extended by as many digits as make the quotient long enough. -/
theorem divCore_eq {m m' : ℕ} {e e' : ℤ} (least : 2 ^ 52 ≤ m) (short : m < 2 ^ 53)
    (least' : 2 ^ 52 ≤ m') (short' : m' < 2 ^ 53) (normal : -1021 ≤ e - e') :
    divCore Format.binary64 m e m' e' =
      (m * 2 ^ 53 / m', e - e' - 53, accuracyOfFraction (m * 2 ^ 53 % m') m') := by
  have target : min (e - e') (Format.binary64.targetExponent (totalExponent m e - totalExponent m' e')) =
      e - e' - 53 := by
    simp only [Format.targetExponent, totalExponent, log2_eq_of_bounds least short,
      log2_eq_of_bounds least' short', Format.mantissaBits, Format.minExponent]
    omega
  simp only [divCore, target, show (e - e' - (e - e' - 53)).toNat = 53 by omega, Nat.shiftLeft_eq]

theorem denotes_div {u w : UnpackedFloat} {a b : ℤ} (left : Denotes u a) (right : Denotes w b)
    (nonzero : b ≠ 0) (small : |b| < 2 ^ 53) :
    ∃ v, Rounds (a / b) v ∧ Denotes (UnpackedFloat.div Format.binary64 u w) v := by
  cases w with
  | infinity | notANumber => exact right.elim
  | zero s' => exact absurd (Int.cast_eq_zero.mp right) nonzero
  | finite s' m' e' positive' =>
    cases u with
    | infinity | notANumber => exact left.elim
    | zero s =>
      change (a : ℚ) = 0 at left
      rw [left, zero_div]
      exact ⟨0, .inl ⟨rfl, rfl⟩, rfl⟩
    | finite s m e positive =>
      have low := left.exponent_of_integer.2
      obtain ⟨least, short, -, dividend⟩ := left
      obtain ⟨least', short', -, divisor⟩ := right
      -- the divisor is not large, so the quotient is not tiny
      have high : e' ≤ 0 := by
        rw [exponent_nonpos_iff least' short']
        have size : |(b : ℚ)| = m' * 2 ^ e' := divisor ▸ abs_factor_mul s' (by positivity)
        rw [← size]
        exact_mod_cast small
      have long : 2 ^ 52 ≤ m * 2 ^ 53 / m' := by
        rw [Nat.le_div_iff_mul_le positive']
        omega
      obtain ⟨v, rounded, denotes⟩ := denotes_roundWithAccuracy (s / s')
        (holds_quotient (m * 2 ^ 53) m' positive') long (e := e - e' - 53) (by omega)
      have quotient : UnpackedFloat.div Format.binary64 (.finite s m e positive) (.finite s' m' e' positive') =
          roundWithAccuracy Format.binary64 (s / s') (m * 2 ^ 53 / m') (e - e' - 53)
            (accuracyOfFraction (m * 2 ^ 53 % m') m') := by
        simp only [UnpackedFloat.div, divCore_eq least short least' short' (show -1021 ≤ e - e' by omega)]
      rw [quotient]
      refine ⟨_, .inr ?_, denotes⟩
      convert rounded.factor_mul (s / s') using 1
      have inverse : (factor s')⁻¹ = factor s' := by cases s' <;> norm_num [factor]
      have digits : ((m * 2 ^ 53 : ℕ) : ℚ) = m * 2 ^ (53 : ℤ) := by push_cast; rfl
      rw [dividend, divisor, factor_div, zpow_sub₀ two_ne_zero, zpow_sub₀ two_ne_zero, digits,
        div_eq_mul_inv, mul_inv, inverse]
      field_simp

end MiniPascal.Doubles
