import MiniPascal.Decimal.Stepwise
import MiniPascal.Proofs.Doubles.Operations
import MiniPascal.Proofs.Doubles.Values

/-!
# Numerals are read as finite doubles

Reading a numeral in steps never leads to infinity: a product is checked, and a quotient by a power of ten is
not much larger than its dividend. What is bounded is the binary exponent of a double, the part of its bits
above the significand.
-/

namespace MiniPascal.Doubles

open MiniPascal.Decimal MiniPascal.Decimal.Binary64

/-! ## Bits -/

theorem exponent_of_bits (b : BitVec 64) :
    (@Float.Model.UnpackedFloat.unpackExponent .binary64 b).toNat = b.toNat / 2 ^ 52 % 2 ^ 11 := by
  simp [Float.Model.UnpackedFloat.unpackExponent, BitVec.extractLsb, Nat.shiftRight_eq_div_pow]

/-- Bits that are not those of a NaN are the bits of a double. -/
theorem toBits_ofBits {u : UInt64} (number : u.toNat % 2 ^ 63 < infinityBits) : (Float.ofBits u).toBits = u := by
  have valid : Float.Model.Format.binary64.Valid u.toBitVec := by
    refine ⟨fun ones => ?_⟩
    have exponent := exponent_of_bits u.toBitVec
    rw [ones] at exponent
    have all_ones : (2047 : ℕ) = u.toNat / 2 ^ 52 % 2 ^ 11 := exponent
    simp only [infinityBits] at number
    omega
  exact congrArg Float.toBits (Float.ofBits_toBits ⟨⟨u, valid⟩⟩)

/-- There is one NaN. -/
theorem eq_nan_of_isNaN {r : Float} (not_number : isNaN r = true) : r = Float.nan := by
  have magnitude : infinityBits < r.toBits.toNat % 2 ^ 63 := of_decide_eq_true not_number
  have size : r.toBits.toBitVec.toNat < 2 ^ 64 := r.toBits.toBitVec.isLt
  have bits : r.toBits.toBitVec.toNat = r.toBits.toNat := rfl
  rw [infinityBits] at magnitude
  have exponent : @Float.Model.UnpackedFloat.unpackExponent .binary64 r.toBits.toBitVec = -1#11 := by
    apply BitVec.eq_of_toNat_eq
    rw [exponent_of_bits]
    change _ = 2047
    omega
  have mantissa : @Float.Model.UnpackedFloat.unpackMantissa .binary64 r.toBits.toBitVec ≠ 0#52 := by
    intro zero
    have fraction : r.toBits.toBitVec.toNat % 2 ^ 52 = 0 := by
      simpa [Float.Model.UnpackedFloat.unpackMantissa, BitVec.extractLsb] using congrArg BitVec.toNat zero
    omega
  -- the bits of a double are valid, and so those of a NaN are fixed
  have packed : r.toBits.toBitVec = Float.nan.toBits.toBitVec :=
    r.toModel.valid.eq_packedNaN exponent mantissa
  rw [← Float.ofBits_toBits r, ← Float.ofBits_toBits Float.nan, UInt64.toBitVec_inj.mp packed]

theorem isFinite_assemble (negative : Bool) {bits : Nat} (finite : bits < infinityBits) :
    isFinite (assemble negative bits) = true := by
  have sign : signBit = 2 ^ 63 := rfl
  have size : (2 : ℕ) ^ 64 = 2 ^ 63 + 2 ^ 63 := by norm_num
  have limit : infinityBits < 2 ^ 63 := by decide
  have kept : (UInt64.ofNat (if negative then signBit + bits else bits)).toNat =
      if negative then signBit + bits else bits := by
    rw [UInt64.toNat_ofNat', Nat.mod_eq_of_lt]
    split <;> omega
  have magnitude : (if negative then signBit + bits else bits) % 2 ^ 63 = bits := by
    split <;> omega
  have number : (UInt64.ofNat (if negative then signBit + bits else bits)).toNat % 2 ^ 63 < infinityBits := by
    rw [kept, magnitude]
    exact finite
  rw [isFinite, decide_eq_true_eq, magnitudeBits, assemble, toBits_ofBits number, kept]
  exact lt_of_eq_of_lt magnitude finite

/-! ## Rounding -/

theorem hiddenBit_eq : hiddenBit = 2 ^ 52 := rfl

/-- How many bits a fraction has in front of the point, at most one too few. -/
def size (num den : Nat) : Int :=
  (num.log2 : Int) - den.log2

theorem binaryExponent_bounds (num den : Nat) :
    size num den - 1 ≤ binaryExponent num den ∧ binaryExponent num den ≤ size num den := by
  unfold binaryExponent size
  dsimp only
  split <;> omega

theorem size_scale (shift : Int) {num den : Nat} (num_pos : 0 < num) (den_pos : 0 < den) :
    size (scale 2 shift num den).1 (scale 2 shift num den).2 = size num den + shift := by
  have log2_shift (m k : Nat) (positive : 0 < m) : (m * Nat.pow 2 k).log2 = m.log2 + k := by
    change (m * 2 ^ k).log2 = m.log2 + k
    rw [← Nat.shiftLeft_eq, log2_shiftLeft positive]
  unfold scale size
  split
  · simp only [log2_shift _ _ num_pos]
    omega
  · simp only [log2_shift _ _ den_pos]
    omega

/-- A fraction is less than the power of two above its size. -/
theorem div_lt_of_size {num den : Nat} {k : Nat} (den_pos : 0 < den) (small : size num den ≤ k) :
    num / den < 2 ^ (k + 1) := by
  rw [Nat.div_lt_iff_lt_mul den_pos]
  have den_ge : 2 ^ den.log2 ≤ den := Nat.log2_self_le den_pos.ne'
  have exponents : num.log2 + 1 ≤ k + 1 + den.log2 := by
    unfold size at small
    omega
  calc num < 2 ^ (num.log2 + 1) := Nat.lt_log2_self
    _ ≤ 2 ^ (k + 1 + den.log2) := Nat.pow_le_pow_right (by decide) exponents
    _ = 2 ^ (k + 1) * 2 ^ den.log2 := pow_add ..
    _ ≤ 2 ^ (k + 1) * den := Nat.mul_le_mul_left _ den_ge

/-- The bits of a rounded fraction, whose exponent field is the size of the fraction with a bias. -/
theorem nearest_lt {num den : Nat} {k : Nat} (den_pos : 0 < den) (small : size num den ≤ k) :
    nearest num den < (k + 1030) * 2 ^ 52 := by
  unfold nearest
  split
  · positivity
  next nonzero =>
    obtain ⟨lower, upper⟩ := binaryExponent_bounds num den
    set q := max (binaryExponent num den - 52) (-1074) with q_eq
    have scaled : size (scale 2 (-q) num den).1 (scale 2 (-q) num den).2 = size num den - q :=
      size_scale (-q) (Nat.pos_of_ne_zero nonzero) den_pos
    have significand : (scale 2 (-q) num den).1 / (scale 2 (-q) num den).2 < 2 ^ (53 + 1) :=
      div_lt_of_size (scale_den_pos two_pos (-q) num den_pos) (by omega)
    have bounded : (q + 1074).toNat ≤ k + 1022 := by omega
    have head : (q + 1074).toNat * 2 ^ 52 ≤ (k + 1022) * 2 ^ 52 := Nat.mul_le_mul_right _ bounded
    dsimp only
    refine lt_of_le_of_lt (min_le_right _ _) ?_
    rw [hiddenBit_eq]
    split <;> omega

/-! ## Quotients -/

/-- What is below the hidden bit has the least exponent. -/
theorem size_magnitude (b : Nat) :
    (magnitude b).significand.log2 + (magnitude b).exponent ≤ (b / 2 ^ 52 : Nat) - 1023 := by
  rw [magnitude, hiddenBit_eq]
  split
  next small =>
    have digits : b.log2 ≤ 51 := by
      by_contra long
      have nonzero : b ≠ 0 := by
        rintro rfl
        exact long (by decide)
      have least := Nat.log2_self_le nonzero
      have power : 2 ^ 52 ≤ 2 ^ b.log2 := Nat.pow_le_pow_right (by decide) (by omega)
      omega
    dsimp only
    omega
  next large =>
    have digits : (2 ^ 52 + b % 2 ^ 52).log2 = 52 := by
      apply log2_eq_of_bounds <;> omega
    rw [digits]
    dsimp only
    omega

/-- A double that is not below one has its hidden bit. -/
theorem magnitude_of_le {b : Nat} (large : 1023 * 2 ^ 52 ≤ b) :
    (magnitude b).significand.log2 = 52 ∧ 0 < (magnitude b).significand ∧ -52 ≤ (magnitude b).exponent := by
  have nonzero : b / 2 ^ 52 ≠ 0 := by omega
  rw [magnitude, hiddenBit_eq, if_neg nonzero]
  dsimp only
  refine ⟨?_, by omega, by omega⟩
  apply log2_eq_of_bounds <;> omega

@[simp] theorem nearest_zero (den : Nat) : nearest 0 den = 0 := rfl

/-- The quotient of a double by one that is not below one. -/
theorem quotient_lt {a b k : Nat} (dividend : a < (k + 1024) * 2 ^ 52) (divisor : 1023 * 2 ^ 52 ≤ b) :
    quotient a b < (k + 1030) * 2 ^ 52 := by
  have upper := size_magnitude a
  obtain ⟨digits, divisor_pos, exponent⟩ := magnitude_of_le divisor
  unfold quotient
  dsimp only
  rcases Nat.eq_zero_or_pos (magnitude a).significand with zero | positive
  · have nothing (shift : Int) (den : Nat) : (scale 2 shift 0 den).1 = 0 := by
      unfold scale
      split <;> simp
    rw [zero, nothing, nearest_zero]
    positivity
  · refine nearest_lt (scale_den_pos two_pos _ _ divisor_pos) ?_
    rw [size_scale _ positive divisor_pos, size, digits]
    omega

/-! ## Numerals -/

theorem le_powerOfTen : ∀ k ≤ greatestPower, 1023 * 2 ^ 52 ≤ powerOfTen k := by
  decide +kernel

theorem overPower_lt {bits k : Nat} (start : bits < (69 + 1024) * 2 ^ 52) : overPower bits k < infinityBits := by
  have first {j : Nat} (power : j ≤ greatestPower) : quotient bits (powerOfTen j) < (75 + 1024) * 2 ^ 52 :=
    quotient_lt start (le_powerOfTen j power)
  unfold overPower
  split
  next power => exact (first power).trans_le (by decide)
  next =>
    split
    next power =>
      have second := quotient_lt (first le_rfl) (le_powerOfTen (k - greatestPower) (by omega))
      exact second.trans_le (by decide)
    next => decide

/-- No step leads to infinity. -/
theorem stepwiseBits?_lt {d : Expansion} {bits : Nat} (short : d.coefficient < UInt64.size)
    (read : d.stepwiseBits? = some bits) : bits < infinityBits := by
  unfold Expansion.stepwiseBits? at read
  dsimp only at read
  split_ifs at read with zero product
  · cases read
    decide
  · unfold timesPower? at read
    dsimp only at read
    split_ifs at read with power finite
    cases read
    exact finite
  · cases read
    have digits : d.coefficient.log2 < 64 := (Nat.log2_lt zero).mpr short
    have start : size d.coefficient 1 ≤ (63 : Nat) := by
      have one : Nat.log2 1 = 0 := by decide
      rw [size, one]
      omega
    exact overPower_lt (nearest_lt Nat.one_pos start)

/-- What is read as a double is finite. -/
theorem isFinite_stepwiseReal? {n : Numeral} {r : Float} (read : n.stepwiseReal? = some r) : isFinite r = true := by
  obtain ⟨bits, found, rfl⟩ := Option.map_eq_some_iff.mp read
  exact isFinite_assemble n.negative (stepwiseBits?_lt n.leading_coefficient_lt found)

end MiniPascal.Doubles
