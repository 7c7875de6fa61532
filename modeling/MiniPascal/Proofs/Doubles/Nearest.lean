import MiniPascal.Proofs.Doubles.Rounding

/-!
# Doubles closest to integers and quotients

`Rounds q v` says that `v` is a double closest to `q`, also where `q` is zero. An integer of at
most 53 binary digits is the double closest to it, a larger one does not get below the limit,
and rounding a quotient of two such integers never reaches the next integer.
-/

namespace MiniPascal.Doubles

open Float.Model Float.Model.UnpackedFloat

/-- `v` is a double closest to `q`. -/
def Rounds (q v : ℚ) : Prop :=
  q = 0 ∧ v = 0 ∨ Rounded q v

/-- A unit that is one, or a fraction of one, fits into one a whole number of times. -/
theorem pow_toNat_mul_zpow {t : ℤ} (low : t ≤ 0) : (2 : ℚ) ^ (-t).toNat * 2 ^ t = 1 := by
  rw [← zpow_natCast, Int.toNat_of_nonneg (by omega), ← zpow_add₀ two_ne_zero, neg_add_cancel, zpow_zero]

/-- A multiple of the unit in the last place that is within half a unit of the exact value is
the rounded one. -/
theorem Rounded.eq_of_grid {q v : ℚ} (rounded : Rounded q v)
    (grid : ∀ t : ℤ, 2 ^ (t + 52) ≤ |q| → ∃ j : ℤ, q = j * 2 ^ t) : v = q := by
  obtain ⟨r, t, rfl, least, -, close⟩ := rounded
  obtain ⟨j, rfl⟩ := grid t least
  have unit : (0 : ℚ) < 2 ^ t := by positivity
  rw [← sub_mul, abs_mul, abs_of_pos unit] at close
  have apart : |((r - j : ℤ) : ℚ)| < 1 := by
    push_cast
    by_contra far
    nlinarith
  have equal : r = j := by
    have : |r - j| < 1 := by exact_mod_cast apart
    rw [Int.abs_lt_one_iff] at this
    omega
  rw [equal]

theorem Rounds.eq_of_small {n : ℤ} {v : ℚ} (rounds : Rounds n v) (small : |n| < 2 ^ 53) : v = n := by
  rcases rounds with ⟨zero, rfl⟩ | rounded
  · exact zero.symm
  · refine rounded.eq_of_grid fun t least => ?_
    have bound : (2 : ℚ) ^ (t + 52) < 2 ^ (53 : ℤ) := lt_of_le_of_lt least (by exact_mod_cast small)
    have exponent : t ≤ 0 := by
      have := (zpow_lt_zpow_iff_right₀ (one_lt_two : (1 : ℚ) < 2)).mp bound
      omega
    -- the integer is a number of units itself
    refine ⟨n * 2 ^ (-t).toNat, ?_⟩
    push_cast
    rw [mul_assoc, pow_toNat_mul_zpow exponent, mul_one]

theorem Rounds.large {q v : ℚ} (rounds : Rounds q v) (large : 2 ^ 53 ≤ |q|) : 2 ^ 53 ≤ |v| := by
  rcases rounds with ⟨rfl, -⟩ | ⟨r, t, rfl, least, greatest, close⟩
  · norm_num at large
  · have unit : (0 : ℚ) < 2 ^ t := by positivity
    have exponent : 1 ≤ t := by
      have bound : (2 : ℚ) ^ (53 : ℤ) < 2 ^ (t + 53) := lt_of_le_of_lt (by exact_mod_cast large) greatest
      have := (zpow_lt_zpow_iff_right₀ (one_lt_two : (1 : ℚ) < 2)).mp bound
      omega
    have power : (2 : ℚ) ^ 1 ≤ 2 ^ t := by
      rw [← zpow_natCast]
      exact zpow_le_zpow_right₀ one_le_two (by exact_mod_cast exponent)
    rw [zpow_add₀ two_ne_zero, zpow_ofNat] at least
    rw [abs_mul, abs_of_pos unit]
    -- the number of units has 53 digits, since half a unit does not reach the next one
    have digits : (2 : ℚ) ^ 52 ≤ |(r : ℚ)| := by
      have reach : |q| ≤ |(r : ℚ)| * 2 ^ t + 2 ^ t / 2 := by
        have := abs_sub_abs_le_abs_sub q (r * 2 ^ t)
        rw [abs_sub_comm, abs_mul, abs_of_pos unit] at this
        linarith
      have half : (2 : ℚ) ^ 52 < |(r : ℚ)| + 1 := by
        by_contra short
        nlinarith
      have whole : (2 : ℤ) ^ 52 < |r| + 1 := by exact_mod_cast half
      exact_mod_cast Int.lt_add_one_iff.mp whole
    nlinarith

/-- Rounding does not go below an integer that is a number of units too. -/
theorem natCast_le_of_close {r t : ℤ} {q : ℚ} {n : ℕ} (low : t ≤ 0) (floor : (n : ℚ) ≤ q)
    (close : q - 2 ^ t / 2 ≤ r * 2 ^ t) : (n : ℚ) ≤ r * 2 ^ t := by
  have unit : (0 : ℚ) < 2 ^ t := by positivity
  have inverse := pow_toNat_mul_zpow low
  by_contra less
  have fewer : (r : ℚ) < n * 2 ^ (-t).toNat := by
    refine lt_of_mul_lt_mul_right ?_ unit.le
    rw [mul_assoc, inverse, mul_one]
    exact not_le.mp less
  -- both are whole, so they are a unit apart, while rounding moves half a unit
  have step : (r : ℚ) + 1 ≤ n * 2 ^ (-t).toNat := by
    have fewer' : r < n * 2 ^ (-t).toNat := by exact_mod_cast fewer
    exact_mod_cast Int.add_one_le_iff.mpr fewer'
  have scaled := mul_le_mul_of_nonneg_right step unit.le
  rw [mul_assoc, inverse, mul_one] at scaled
  linarith

/-- Cutting off a rounded quotient gives the quotient of integers: above it there is no room
for the next integer, which is more than half a unit away. -/
theorem Rounded.quotient_bounds {a b : ℕ} {v : ℚ} (rounded : Rounded (a / b : ℚ) v)
    (positive : 0 < b) (small : a < 2 ^ 53) : ((a / b : ℕ) : ℚ) ≤ v ∧ v < (a / b : ℕ) + 1 := by
  obtain ⟨r, t, rfl, least, -, close⟩ := rounded
  have divisor : (0 : ℚ) < b := by exact_mod_cast positive
  have unit : (0 : ℚ) < 2 ^ t := by positivity
  rw [abs_of_nonneg (by positivity), zpow_add₀ two_ne_zero, zpow_ofNat, le_div_iff₀ divisor] at least
  have dividend : (a : ℚ) < 2 ^ 53 := by exact_mod_cast small
  -- half a unit is less than one part of the divisor
  have product : (2 : ℚ) ^ t * b < 2 := by
    by_contra large
    nlinarith
  have floor : ((a / b : ℕ) : ℚ) ≤ a / b := Nat.cast_div_le
  have next : (a : ℚ) + 1 ≤ ((a / b : ℕ) + 1) * b := by
    have division := Nat.div_add_mod a b
    have remainder := Nat.mod_lt a positive
    have whole : a + 1 ≤ (a / b + 1) * b := by nlinarith
    exact_mod_cast whole
  generalize a / b = n at floor next ⊢
  obtain ⟨below, above⟩ := abs_le.mp close
  constructor
  · have low : t ≤ 0 := by
      by_contra large
      have whole : (1 : ℚ) ≤ b := by exact_mod_cast positive
      have power : (2 : ℚ) ^ (1 : ℤ) ≤ 2 ^ t := zpow_le_zpow_right₀ one_le_two (by omega)
      rw [zpow_one] at power
      nlinarith
    exact natCast_le_of_close low floor (by linarith)
  · by_contra reached
    have gap : (1 : ℚ) ≤ (n + 1 - a / b) * b := by
      rw [sub_mul, div_mul_cancel₀ _ divisor.ne']
      linarith
    nlinarith

end MiniPascal.Doubles
