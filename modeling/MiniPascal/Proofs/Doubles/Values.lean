import MiniPascal.Decimal.Shortest
import Mathlib

/-!
# Rounding is of values

The double nearest to a fraction depends on the value of the fraction alone, and the one nearest to a decimal
on the value of the decimal.
-/

namespace MiniPascal.Decimal

open Binary64

/-! ## Scaled fractions -/

theorem scale_den_pos {base : ℕ} (base_pos : 0 < base) (shift : ℤ) (num : ℕ) {den : ℕ} (den_pos : 0 < den) :
    0 < (scale base shift num den).2 := by
  unfold scale
  split
  · exact den_pos
  · exact Nat.mul_pos den_pos (Nat.pow_pos base_pos)

theorem scale_num_pos {base : ℕ} (base_pos : 0 < base) (shift : ℤ) {num : ℕ} (den : ℕ) (num_pos : 0 < num) :
    0 < (scale base shift num den).1 := by
  unfold scale
  split
  · exact Nat.mul_pos num_pos (Nat.pow_pos base_pos)
  · exact num_pos

theorem scale_value {base : ℕ} (base_pos : 0 < base) (shift : ℤ) (num den : ℕ) :
    ((scale base shift num den).1 / (scale base shift num den).2 : ℚ) = num / den * base ^ shift := by
  have base_ne : (base : ℚ) ≠ 0 := by exact_mod_cast base_pos.ne'
  unfold scale
  split
  next nonneg =>
    have power : (base : ℚ) ^ shift = base ^ shift.toNat := by
      rw [← zpow_natCast, Int.toNat_of_nonneg nonneg]
    change ((num * base ^ shift.toNat : ℕ) / (den : ℚ)) = _
    rw [power]
    push_cast
    ring
  next negative =>
    have power : (base : ℚ) ^ shift = ((base : ℚ) ^ (-shift).toNat)⁻¹ := by
      rw [← zpow_natCast, Int.toNat_of_nonneg (by omega), zpow_neg, inv_inv]
    change ((num : ℚ) / (den * base ^ (-shift).toNat : ℕ)) = _
    rw [power]
    push_cast
    ring

/-! ## Fractions -/

variable {num den : ℕ}

theorem log_eq_of_bounds {b : ℕ} (base : 1 < b) {x : ℚ} {k : ℤ} (least : (b : ℚ) ^ k ≤ x) (greatest : x < b ^ (k + 1)) :
    Int.log b x = k := by
  have positive : 0 < x := lt_of_lt_of_le (zpow_pos (by exact_mod_cast Nat.zero_lt_of_lt base) k) least
  have above := (Int.zpow_le_iff_le_log base positive).mp least
  have below := (Int.lt_zpow_iff_log_lt base positive).mp greatest
  omega

theorem log2_bounds {n : ℕ} (positive : 0 < n) : (2 : ℚ) ^ (n.log2 : ℤ) ≤ n ∧ (n : ℚ) < 2 ^ (n.log2 + 1 : ℤ) := by
  have least : 2 ^ n.log2 ≤ n := Nat.log2_self_le positive.ne'
  have greatest : n < 2 ^ (n.log2 + 1) := Nat.lt_log2_self
  exact ⟨by exact_mod_cast least, by exact_mod_cast greatest⟩

/-- The quotient of the powers of two below two numbers is at most twice as large or small as theirs. -/
theorem div_log2_bounds (num_pos : 0 < num) (den_pos : 0 < den) :
    (2 : ℚ) ^ ((num.log2 : ℤ) - den.log2 - 1) < num / den ∧ (num / den : ℚ) < 2 ^ ((num.log2 : ℤ) - den.log2 + 1) := by
  obtain ⟨num_least, num_greatest⟩ := log2_bounds num_pos
  obtain ⟨den_least, den_greatest⟩ := log2_bounds den_pos
  have den_rat : (0 : ℚ) < den := by exact_mod_cast den_pos
  constructor
  · rw [lt_div_iff₀ den_rat]
    calc (2 : ℚ) ^ ((num.log2 : ℤ) - den.log2 - 1) * den
        < 2 ^ ((num.log2 : ℤ) - den.log2 - 1) * 2 ^ (den.log2 + 1 : ℤ) := by gcongr
      _ = 2 ^ (num.log2 : ℤ) := by rw [← zpow_add₀ two_ne_zero]; congr 1; ring
      _ ≤ num := num_least
  · rw [div_lt_iff₀ den_rat]
    calc (num : ℚ) < 2 ^ (num.log2 + 1 : ℤ) := num_greatest
      _ = 2 ^ ((num.log2 : ℤ) - den.log2 + 1) * 2 ^ (den.log2 : ℤ) := by rw [← zpow_add₀ two_ne_zero]; congr 1; ring
      _ ≤ 2 ^ ((num.log2 : ℤ) - den.log2 + 1) * den := by gcongr

theorem binaryExponent_eq_log (num_pos : 0 < num) (den_pos : 0 < den) :
    binaryExponent num den = Int.log 2 (num / den : ℚ) := by
  -- the quotient is below `2 ^ (k + 1)` and above `2 ^ (k - 1)`, and the algorithm compares it with `2 ^ k`
  obtain ⟨least, greatest⟩ := div_log2_bounds num_pos den_pos
  set k : ℤ := (num.log2 : ℤ) - den.log2 with k_eq
  have scaled := scale_value two_pos (-k) num den
  have scaled_pos := scale_den_pos two_pos (-k) num den_pos
  have small : (scale 2 (-k) num den).1 < (scale 2 (-k) num den).2 ↔ (num / den : ℚ) < 2 ^ k := by
    rw [← Nat.cast_lt (α := ℚ), ← div_lt_one (by exact_mod_cast scaled_pos), scaled, zpow_neg, ← div_eq_mul_inv]
    exact div_lt_one (by positivity)
  change (if (scale 2 (-k) num den).1 < (scale 2 (-k) num den).2 then k - 1 else k) = _
  symm
  split
  next below => exact log_eq_of_bounds one_lt_two least.le (by simpa using small.mp below)
  next above => exact log_eq_of_bounds one_lt_two (not_lt.mp fun below => above (small.mpr below)) greatest

/-- The magnitude bits of the double nearest to a positive number. -/
def bitsNear (x : ℚ) : ℕ :=
  let q := max (Int.log 2 x - 52) (-1074)
  let y := x * 2 ^ (-q)
  let up := if 1 / 2 < Int.fract y ∨ (Int.fract y = 1 / 2 ∧ ⌊y⌋₊ % 2 = 1) then 1 else 0
  min infinityBits ((q + 1074).toNat * hiddenBit + ⌊y⌋₊ + up)

theorem nearest_eq (num_pos : 0 < num) (den_pos : 0 < den) : nearest num den = bitsNear (num / den : ℚ) := by
  unfold nearest bitsNear
  rw [if_neg num_pos.ne', binaryExponent_eq_log num_pos den_pos]
  dsimp only
  set q := max (Int.log 2 (num / den : ℚ) - 52) (-1074)
  have scaled := scale_value two_pos (-q) num den
  have scaled_pos := scale_den_pos two_pos (-q) num den_pos
  set n := (scale 2 (-q) num den).1
  set d := (scale 2 (-q) num den).2
  have d_pos : (0 : ℚ) < d := by exact_mod_cast scaled_pos
  rw [Nat.cast_ofNat] at scaled
  rw [← scaled, Nat.floor_div_eq_div, Int.fract_div_natCast_eq_div_natCast_mod]
  -- twice the remainder is to the divisor as the fractional part is to one half
  have above : d < 2 * (n % d) ↔ (1 / 2 : ℚ) < (n % d : ℕ) / d := by
    rw [lt_div_iff₀ d_pos, ← Nat.cast_lt (α := ℚ)]
    push_cast
    constructor <;> intro h <;> linarith
  have half : d = 2 * (n % d) ↔ ((n % d : ℕ) / d : ℚ) = 1 / 2 := by
    rw [div_eq_iff d_pos.ne', ← Nat.cast_inj (R := ℚ)]
    push_cast
    constructor <;> intro h <;> linarith
  simp only [above, half]

/-! ## Decimals -/

def Expansion.value (d : Expansion) : ℚ :=
  d.coefficient * 10 ^ d.exponent

theorem digitCount_bounds {n : ℕ} (positive : 0 < n) : 10 ^ (digitCount n - 1) ≤ n ∧ n < 10 ^ digitCount n := by
  have some_digit : 0 < digitCount n := List.length_pos_iff.mpr Nat.toDigits_ne_nil
  have fits {k : ℕ} (k_pos : 0 < k) : digitCount n ≤ k ↔ n < 10 ^ k := Nat.length_toDigits_le_iff (by decide) k_pos
  refine ⟨?_, (fits some_digit).mp le_rfl⟩
  by_contra small
  rcases Nat.eq_zero_or_pos (digitCount n - 1) with one_digit | more
  · rw [one_digit, pow_zero] at small
    omega
  · have := (fits more).mpr (not_le.mp small)
    omega

/-- The position of the point is the order of magnitude of the value. -/
theorem log_value {d : Expansion} (positive : 0 < d.coefficient) :
    Int.log 10 d.value = digitCount d.coefficient + d.exponent - 1 := by
  obtain ⟨least, greatest⟩ := digitCount_bounds positive
  have some_digit : 0 < digitCount d.coefficient := List.length_pos_iff.mpr Nat.toDigits_ne_nil
  have least' : (10 : ℚ) ^ (digitCount d.coefficient - 1 : ℤ) ≤ d.coefficient := by
    have power : ((digitCount d.coefficient - 1 : ℕ) : ℤ) = digitCount d.coefficient - 1 := by omega
    rw [← power, zpow_natCast]
    exact_mod_cast least
  have greatest' : (d.coefficient : ℚ) < 10 ^ (digitCount d.coefficient : ℤ) := by
    rw [zpow_natCast]
    exact_mod_cast greatest
  have shift : (0 : ℚ) < 10 ^ d.exponent := by positivity
  refine log_eq_of_bounds (by decide) ?_ ?_
  · calc ((10 : ℕ) : ℚ) ^ (digitCount d.coefficient + d.exponent - 1 : ℤ)
        = 10 ^ (digitCount d.coefficient - 1 : ℤ) * 10 ^ d.exponent := by
          rw [← zpow_add₀ (by norm_num), Nat.cast_ofNat]; congr 1; ring
      _ ≤ d.coefficient * 10 ^ d.exponent := by gcongr
  · calc d.value < 10 ^ (digitCount d.coefficient : ℤ) * 10 ^ d.exponent := by
          unfold Expansion.value; gcongr
      _ = ((10 : ℕ) : ℚ) ^ (digitCount d.coefficient + d.exponent - 1 + 1 : ℤ) := by
          rw [← zpow_add₀ (by norm_num), Nat.cast_ofNat]; congr 1; ring

theorem value_pos {d : Expansion} (positive : 0 < d.coefficient) : 0 < d.value :=
  mul_pos (by exact_mod_cast positive) (by positivity)

theorem Expansion.bits_eq {d : Expansion} (positive : 0 < d.coefficient) :
    d.bits = if 310 < Int.log 10 d.value + 1 then infinityBits
      else if Int.log 10 d.value + 1 < -330 then 0 else bitsNear d.value := by
  have top : (digitCount d.coefficient : ℤ) + d.exponent = Int.log 10 d.value + 1 := by
    rw [log_value positive]
    ring
  have scaled := scale_value (by decide : 0 < 10) d.exponent d.coefficient 1
  rw [Nat.cast_one, div_one, Nat.cast_ofNat] at scaled
  unfold Expansion.bits
  dsimp only
  rw [if_neg positive.ne', top, nearest_eq (scale_num_pos (by decide) _ _ positive)
    (scale_den_pos (by decide) _ _ one_pos), scaled]
  rfl

/-- Decimals of the same value have the same nearest double. -/
theorem Expansion.bits_congr {d d' : Expansion} (same : d.value = d'.value) : d.bits = d'.bits := by
  have power (e : ℤ) : (10 : ℚ) ^ e ≠ 0 := by positivity
  have zero_iff (d : Expansion) : d.value = 0 ↔ d.coefficient = 0 := by simp [Expansion.value, power]
  rcases Nat.eq_zero_or_pos d.coefficient with zero | positive
  · have zero' : d'.coefficient = 0 := (zero_iff d').mp (same ▸ (zero_iff d).mpr zero)
    simp [Expansion.bits, zero, zero']
  · have positive' : 0 < d'.coefficient :=
      Nat.pos_of_ne_zero fun zero => positive.ne' ((zero_iff d).mp (same ▸ (zero_iff d').mpr zero))
    rw [bits_eq positive, bits_eq positive', same]

/-! ## Doubles -/

/-- A number on the grid of the doubles of its size is one of them. -/
theorem bitsNear_of_grid {m : ℕ} {q : ℤ} (grid : max (Int.log 2 (m * 2 ^ q : ℚ) - 52) (-1074) = q) :
    bitsNear (m * 2 ^ q) = min infinityBits ((q + 1074).toNat * hiddenBit + m) := by
  have whole : (m * 2 ^ q * 2 ^ (-q) : ℚ) = m := by
    rw [mul_assoc, ← zpow_add₀ two_ne_zero, add_neg_cancel, zpow_zero, mul_one]
  unfold bitsNear
  dsimp only
  rw [grid, whole, Int.fract_natCast, Nat.floor_natCast]
  norm_num

def Binary64.Value.rational (v : Value) : ℚ :=
  v.significand * 2 ^ v.exponent

theorem log_rational {m : ℕ} (positive : 0 < m) (q : ℤ) : Int.log 2 (m * 2 ^ q : ℚ) = m.log2 + q := by
  obtain ⟨least, greatest⟩ := log2_bounds positive
  have unit : (0 : ℚ) < 2 ^ q := by positivity
  refine log_eq_of_bounds one_lt_two ?_ ?_
  · rw [Nat.cast_ofNat, zpow_add₀ two_ne_zero]
    gcongr
  · rw [Nat.cast_ofNat, add_right_comm, zpow_add₀ two_ne_zero]
    gcongr

theorem bitsNear_magnitude {b : ℕ} (nonzero : b ≠ 0) (finite : b < infinityBits) :
    bitsNear (magnitude b).rational = b := by
  have hidden : hiddenBit = 2 ^ 52 := rfl
  unfold magnitude
  split
  next small =>
    -- without the hidden bit the exponent is the least there is, and the grid the finest
    have short : b < 2 ^ 52 := hidden ▸ (Nat.div_eq_zero_iff.mp small).resolve_left (by decide)
    have log : b.log2 < 52 := (Nat.log2_lt nonzero).mpr short
    have grid := log_rational (Nat.pos_of_ne_zero nonzero) (-1074)
    change bitsNear (b * 2 ^ (-1074 : ℤ)) = b
    rw [bitsNear_of_grid (by rw [grid]; omega)]
    simp [finite.le]
  next large =>
    have rest : b % hiddenBit < 2 ^ 52 := Nat.mod_lt b (by decide)
    have parts : hiddenBit * (b / hiddenBit) + b % hiddenBit = b := Nat.div_add_mod b hiddenBit
    generalize b / hiddenBit = k at large parts
    generalize b % hiddenBit = r at rest parts
    -- the hidden bit fixes the size, so the grid is that of the exponent
    have log : (hiddenBit + r).log2 = 52 := by
      rw [Nat.log2_eq_iff (by omega)]
      omega
    have grid : Int.log 2 ((hiddenBit + r : ℕ) * 2 ^ (k - 1075 : ℤ) : ℚ) = (hiddenBit + r).log2 + (k - 1075) :=
      log_rational (by omega) _
    change bitsNear ((hiddenBit + r : ℕ) * 2 ^ (k - 1075 : ℤ)) = b
    rw [bitsNear_of_grid (by rw [grid, log]; omega)]
    have exponent : (k - 1075 + 1074 : ℤ).toNat = k - 1 := by omega
    rw [exponent, ← parts, hidden]
    rw [← parts, hidden] at finite
    have assembled : (k - 1) * 2 ^ 52 + (2 ^ 52 + r) = 2 ^ 52 * k + r := by omega
    rw [assembled, Nat.min_eq_right finite.le]

theorem value_exact (v : Value) : (exact v).value = v.rational := by
  unfold exact
  split
  next whole =>
    have power : (2 : ℚ) ^ v.exponent = 2 ^ v.exponent.toNat := by
      rw [← zpow_natCast, Int.toNat_of_nonneg whole]
    simp [Expansion.value, Value.rational, power]
  next fraction =>
    obtain ⟨k, k_eq⟩ : ∃ k : ℕ, v.exponent = -k := ⟨(-v.exponent).toNat, by omega⟩
    have ten : (10 : ℚ) ^ k = 5 ^ k * 2 ^ k := by
      rw [← mul_pow]
      norm_num
    simp only [Expansion.value, Value.rational, k_eq, neg_neg, Int.toNat_natCast, zpow_neg, zpow_natCast, ten,
      Nat.pow_eq]
    push_cast
    field_simp

theorem magnitude_bounds {b : ℕ} (nonzero : b ≠ 0) (finite : b < infinityBits) :
    0 < (magnitude b).significand ∧ (magnitude b).significand < 2 ^ 53 ∧
      -1074 ≤ (magnitude b).exponent ∧ (magnitude b).exponent ≤ 971 := by
  have hidden : hiddenBit = 2 ^ 52 := rfl
  have infinity : infinityBits = 2047 * 2 ^ 52 := rfl
  unfold magnitude
  rw [hidden]
  split
  next small =>
    dsimp only
    omega
  next large =>
    dsimp only
    omega

theorem least_double : (10 : ℚ) ^ (-331 : ℤ) ≤ 2 ^ (-1074 : ℤ) := by
  have powers : 2 ^ 1074 ≤ 10 ^ 331 := by decide +kernel
  have powers' : (2 : ℚ) ^ 1074 ≤ 10 ^ 331 := by exact_mod_cast powers
  rw [zpow_neg, zpow_neg, zpow_ofNat, zpow_ofNat]
  exact inv_anti₀ (by positivity) powers'

theorem greatest_double : (2 : ℚ) ^ 53 * 2 ^ (971 : ℤ) ≤ 10 ^ (310 : ℤ) := by
  have powers : 2 ^ 53 * 2 ^ 971 ≤ 10 ^ 310 := by decide +kernel
  rw [zpow_ofNat, zpow_ofNat]
  exact_mod_cast powers

/-- A finite double is between the limits that the decimals of doubles have. -/
theorem log_magnitude {b : ℕ} (nonzero : b ≠ 0) (finite : b < infinityBits) :
    -331 ≤ Int.log 10 (magnitude b).rational ∧ Int.log 10 (magnitude b).rational < 310 := by
  obtain ⟨positive, short, least, greatest⟩ := magnitude_bounds nonzero finite
  generalize magnitude b = v at *
  have unit : (0 : ℚ) < 2 ^ v.exponent := by positivity
  have some_unit : (1 : ℚ) ≤ v.significand := by exact_mod_cast positive
  have few_units : (v.significand : ℚ) < 2 ^ 53 := by exact_mod_cast short
  have value_pos : 0 < v.rational := mul_pos (by linarith) unit
  constructor
  · rw [← Int.zpow_le_iff_le_log (by decide) value_pos]
    calc ((10 : ℕ) : ℚ) ^ (-331 : ℤ) ≤ 2 ^ (-1074 : ℤ) := least_double
      _ ≤ 2 ^ v.exponent := zpow_le_zpow_right₀ one_le_two least
      _ ≤ v.rational := le_mul_of_one_le_left unit.le some_unit
  · rw [← Int.lt_zpow_iff_log_lt (by decide) value_pos]
    calc v.rational < 2 ^ 53 * 2 ^ v.exponent := by unfold Value.rational; gcongr
      _ ≤ 2 ^ 53 * 2 ^ (971 : ℤ) := by gcongr; exact one_le_two
      _ ≤ ((10 : ℕ) : ℚ) ^ (310 : ℤ) := greatest_double

theorem bits_exact {b : ℕ} (nonzero : b ≠ 0) (finite : b < infinityBits) : (exact (magnitude b)).bits = b := by
  obtain ⟨least, greatest⟩ := log_magnitude nonzero finite
  have positive : 0 < (exact (magnitude b)).coefficient := by
    obtain ⟨positive, -⟩ := magnitude_bounds nonzero finite
    unfold exact
    split
    · exact Nat.mul_pos positive (Nat.pow_pos (by decide))
    · exact Nat.mul_pos positive (Nat.pow_pos (by decide))
  rw [Expansion.bits_eq positive, value_exact, if_neg (by omega), if_neg (by omega), bitsNear_magnitude nonzero finite]

/-! ## Shortest decimals -/

theorem bits_of_onGrid {tie : Tie} {bits num den : ℕ} {exponent : ℤ} {d : Expansion}
    (hit : onGrid tie bits num den exponent = some d) : d.bits = bits := by
  unfold onGrid at hit
  dsimp only at hit
  split_ifs at hit with both _ lower upper
  all_goals
    cases hit
  · exact both.2
  · exact both.1
  · exact lower
  · exact upper

/-- The shortest decimal of a finite double is read as the double. -/
theorem bits_shortest (tie : Tie) {b : ℕ} (finite : b < infinityBits) : (shortest tie b).bits = b := by
  rcases eq_or_ne b 0 with rfl | nonzero
  · rfl
  · have positive : 0 < (magnitude b).fraction.1 :=
      scale_num_pos two_pos _ 1 (magnitude_bounds nonzero finite).1
    unfold shortest
    dsimp only
    rw [if_neg positive.ne']
    -- a candidate was tried before it is taken, and the exact decimal is the double itself
    cases hit : (List.range 17).findSome? fun n => onGrid tie b (magnitude b).fraction.1 (magnitude b).fraction.2
        (pointPosition (magnitude b).fraction.1 (magnitude b).fraction.2 - (n + 1 : ℕ)) with
    | none => exact bits_exact nonzero finite
    | some d =>
      obtain ⟨n, -, found⟩ := List.exists_of_findSome?_eq_some hit
      exact bits_of_onGrid found

end MiniPascal.Decimal
