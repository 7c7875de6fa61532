import MiniPascal.Optimization.Arithmetic
import MiniPascal.Proofs.Doubles.Operations
import MiniPascal.Proofs.Doubles.Packing

/-!
# Doubles and integers

Converting an integer gives a double closest to it, and cutting a double off gives the integer
towards zero. `isExact` tells the doubles below the limit, where neither loses anything.
-/

namespace MiniPascal.Doubles

open Float.Model Float.Model.UnpackedFloat

/-- `x` is the double that the number `v` is kept in; it is infinite if `v` does not fit. -/
def IsValue (x : Float) (v : ℚ) : Prop :=
  ∃ u, x = .ofModel (.pack u) ∧ Denotes u v

theorem IsValue.unpack {x : Float} {v : ℚ} (value : IsValue x v) (small : |v| < 2 ^ 53) :
    Denotes x.toModel.unpack v := by
  obtain ⟨u, rfl, denotes⟩ := value
  have fits : |v| < 2 ^ 1000 := small.trans_le (pow_le_pow_right₀ one_le_two (by norm_num))
  change Denotes (Float.Model.pack u).unpack v
  rwa [denotes.unpack_pack fits]

/-! ## The limit -/

theorem unpack_exactLimit : exactLimit.toModel.unpack = .finite .positive (2 ^ 52) 1 (by decide) := rfl

theorem isExact_ofModel_pack (u : UnpackedFloat) :
    isExact (.ofModel (.pack u)) =
      (UnpackedFloat.compare (Float.Model.pack (Float.Model.pack u).unpack.abs).unpack
        (.finite .positive (2 ^ 52) 1 (by decide)) == some .lt) := by
  rw [← unpack_exactLimit]
  exact Bool.decide_eq_true.trans Bool.decide_eq_true

theorem isExact_infinity (s : Sign) : isExact (.ofModel (.pack (.infinity s))) = false := by
  cases s <;> rfl

theorem isExact_notANumber : isExact (.ofModel (.pack .notANumber)) = false := rfl

theorem isExact_iff {x : Float} {v : ℚ} (value : IsValue x v) : isExact x = true ↔ |v| < 2 ^ 53 := by
  obtain ⟨u, rfl, denotes⟩ := value
  rw [isExact_ofModel_pack]
  cases u with
  | infinity | notANumber => exact denotes.elim
  | zero s =>
    change v = 0 at denotes
    have below : |v| < 2 ^ 53 := by rw [denotes]; norm_num
    refine iff_of_true ?_ below
    cases s <;> rfl
  | finite s m e positive =>
    obtain ⟨least, short, normal, rfl⟩ := denotes
    rw [abs_factor_mul s (by positivity), ← exponent_nonpos_iff least short]
    rcases le_or_gt e 971 with fits | large
    · rw [unpack_pack_finite s m e positive least short normal fits]
      change (UnpackedFloat.compare (Float.Model.pack (.finite .positive m e positive)).unpack _ == _) = _ ↔ _
      rw [unpack_pack_finite .positive m e positive least short normal fits]
      -- equal exponents would leave a significand below the least one
      simp only [UnpackedFloat.compare, beq_iff_eq, Option.some.injEq, Ordering.then_eq_lt,
        Int.compare_eq_lt, Int.compare_eq_eq, Nat.compare_eq_lt]
      omega
    · rw [unpack_pack_overflow s m e positive large]
      change (UnpackedFloat.compare (Float.Model.pack (.infinity .positive)).unpack _ == _) = _ ↔ _
      rw [unpack_pack_infinity]
      exact iff_of_false Bool.false_ne_true (by omega)

/-! ## From integers -/

theorem realOfInteger_rounds (n : ℤ) : ∃ v, Rounds n v ∧ IsValue (realOfInteger n) v := by
  obtain ⟨v, rounds, denotes⟩ := denotes_normalize n 0 .positive (by omega)
  rw [zpow_zero, mul_one] at rounds
  exact ⟨v, rounds, _, rfl, denotes⟩

theorem realOfInteger_exact {n : ℤ} (small : |n| < 2 ^ 53) : IsValue (realOfInteger n) n := by
  obtain ⟨v, rounds, value⟩ := realOfInteger_rounds n
  rwa [rounds.eq_of_small small] at value

theorem Rounds.abs_lt_iff {n : ℤ} {v : ℚ} (rounds : Rounds n v) : |v| < 2 ^ 53 ↔ |n| < 2 ^ 53 := by
  rcases lt_or_ge |n| (2 ^ 53) with small | large
  · rw [rounds.eq_of_small small]
    exact_mod_cast Iff.rfl
  · have kept := rounds.large (by exact_mod_cast large)
    exact ⟨fun h => absurd h (not_lt.mpr kept), fun h => absurd h (not_lt.mpr large)⟩

theorem isExact_realOfInteger (n : ℤ) : isExact (realOfInteger n) = true ↔ |n| < 2 ^ 53 := by
  obtain ⟨v, rounds, value⟩ := realOfInteger_rounds n
  rw [isExact_iff value, rounds.abs_lt_iff]

/-! ## To integers -/

/-- Shifting to the point keeps the integer part. -/
theorem roundToInt_bounds (s : Sign) (m : ℕ) {e : ℤ} (low : e ≤ 0) :
    ∃ k : ℕ, roundToInt s m e = s.apply k ∧ (k : ℚ) ≤ m * 2 ^ e ∧ (m * 2 ^ e : ℚ) < k + 1 := by
  have kept : decreaseExponent m e 0 = (m, e) := by
    simp [decreaseExponent, Int.toNat_of_nonpos low]
  have bounds := ((holds_exact m).shiftRight (-e).toNat).mantissa_le
  have scaled : (m / 2 ^ (-e).toNat : ℚ) = m * 2 ^ e := by
    rw [← zpow_natCast, Int.toNat_of_nonneg (by omega), zpow_neg, div_inv_eq_mul]
  rw [scaled] at bounds
  refine ⟨_, ?_, bounds⟩
  simp only [roundToInt, kept, shiftToExponent, zero_sub]

theorem toInt_ofIntClamp {n : ℤ} (small : |n| < 2 ^ 53) : (Int64.ofIntClamp n).toInt = n := by
  rw [abs_lt] at small
  have least : Int64.minValue.toInt = -2 ^ 63 := rfl
  have greatest : Int64.maxValue.toInt = 2 ^ 63 - 1 := rfl
  exact Int64.toInt_ofIntClamp (by omega) (by omega)

/-- Cutting off a double below the limit gives the integer between it and zero. -/
theorem toInt_integerPart {x : Float} {v : ℚ} {k : ℕ} (s : Sign) (value : IsValue x (factor s * v))
    (least : k ≤ v) (greatest : v < k + 1) (small : k < 2 ^ 53) :
    (integerPart x).toInt = s.apply k := by
  have nonneg : 0 ≤ v := le_trans (Nat.cast_nonneg k) least
  have whole : (k : ℚ) + 1 ≤ 2 ^ 53 := by exact_mod_cast small
  have denotes := value.unpack (by
    rw [abs_factor_mul s nonneg]
    exact greatest.trans_le whole)
  have size : |s.apply (k : ℤ)| < 2 ^ 53 := by
    rw [Int.abs_eq_natAbs, natAbs_apply]
    exact_mod_cast small
  have clamped : (integerPart x).toInt =
      (Int64.ofIntClamp (x.toModel.unpack.toInt Int64.minValue.toInt Int64.maxValue.toInt)).toInt := rfl
  suffices x.toModel.unpack.toInt Int64.minValue.toInt Int64.maxValue.toInt = s.apply k by
    rw [clamped, this, toInt_ofIntClamp size]
  generalize x.toModel.unpack = u at denotes
  cases u with
  | infinity | notANumber => exact denotes.elim
  | zero s' =>
    have zero : v = 0 := by
      change factor s * v = 0 at denotes
      have := congrArg (|·|) denotes
      simpa [abs_mul] using this
    have none : k = 0 := by
      rw [zero] at least
      exact_mod_cast le_antisymm least (Nat.cast_nonneg k)
    rw [none]
    cases s <;> rfl
  | finite s' m e positive =>
    obtain ⟨digits, short, -, same⟩ := denotes
    have magnitude : v = m * 2 ^ e := by
      have := congrArg (|·|) same
      rwa [abs_factor_mul s nonneg, abs_factor_mul s' (by positivity)] at this
    have sign : s' = s := by
      have above : (0 : ℚ) < m * 2 ^ e := mul_pos (by exact_mod_cast positive) (by positivity)
      rw [magnitude] at same
      cases s <;> cases s'
      · rfl
      · simp only [factor] at same
        linarith
      · simp only [factor] at same
        linarith
      · rfl
    -- so cutting off shifts to the right only
    have low : e ≤ 0 := by
      rw [exponent_nonpos_iff digits short, ← magnitude]
      exact greatest.trans_le whole
    obtain ⟨j, cut, below, above⟩ := roundToInt_bounds s' m low
    rw [← magnitude] at below above
    have equal : j = k := by
      have lower : (j : ℚ) < k + 1 := below.trans_lt greatest
      have upper : (k : ℚ) < j + 1 := least.trans_lt above
      have lower' : j < k + 1 := by exact_mod_cast lower
      have upper' : k < j + 1 := by exact_mod_cast upper
      omega
    change roundToInt s' m e = _
    rw [cut, sign, equal]

theorem toInt_integerPart_of_int {x : Float} {n : ℤ} (value : IsValue x n) (small : |n| < 2 ^ 53) :
    (integerPart x).toInt = n := by
  obtain ⟨s, signed⟩ := exists_sign n
  have cast : (n : ℚ) = factor s * n.natAbs := by
    conv_lhs => rw [signed]
    rw [cast_apply, Int.cast_natCast]
  rw [cast] at value
  rw [Int.abs_eq_natAbs] at small
  rw [toInt_integerPart s value le_rfl (by linarith) (by omega), ← signed]

end MiniPascal.Doubles
