import MiniPascal.Proofs.Doubles.Rounding

/-!
# Packed doubles

A double is kept as 64 binary digits. Nothing is lost by packing a number whose exponent fits,
and one whose exponent is too large becomes infinite.
-/

namespace MiniPascal.Doubles

open Float.Model Float.Model.UnpackedFloat

theorem toNat_append (m : BitVec 52) : (1#1 ++ m).toNat = 2 ^ 52 + m.toNat := by
  rw [BitVec.toNat_append, ← Nat.shiftLeft_add_eq_or_of_lt m.isLt]
  rfl

theorem unpack_packedNumber (s : Sign) (e : BitVec 11) (m : BitVec 52) (inner : e ≠ -1#11)
    (normal : e ≠ 0#11) :
    UnpackedFloat.unpack Format.binary64 (packComponents Format.binary64 s e m) =
      .finite s (2 ^ 52 + m.toNat) (e.toNat - 1075) (by omega) := by
  simp only [UnpackedFloat.unpack, unpackMantissa_packComponents, unpackExponent_packComponents,
    unpackSign_packComponents, Sign.ofBitVec_toBitVec, if_neg inner, if_neg normal, toNat_append]
  rfl

theorem unpack_pack_infinity (s : Sign) :
    (Float.Model.pack (.infinity s)).unpack = .infinity s := by
  cases s <;> rfl

theorem unpack_pack_finite (s : Sign) (m : ℕ) (e : ℤ) (positive : 0 < m) (least : 2 ^ 52 ≤ m)
    (short : m < 2 ^ 53) (normal : -1074 ≤ e) (fits : e ≤ 971) :
    (Float.Model.pack (.finite s m e positive)).unpack = .finite s m e positive := by
  have digits := log2_eq_of_bounds least short
  have field : (BitVec.ofNat 11 (e + 1075).toNat).toNat = (e + 1075).toNat := by
    rw [BitVec.toNat_ofNat]
    omega
  have packed : UnpackedFloat.pack Format.binary64 (.finite s m e positive) =
      packComponents Format.binary64 s (BitVec.ofNat 11 (e + 1075).toNat) (BitVec.ofNat 52 m) := by
    have biased : (e + Format.binary64.exponentBias + (52 : ℕ)).toNat = (e + 1075).toNat := by
      change (e + 1023 + 52).toNat = _
      omega
    simp only [UnpackedFloat.pack, digits, biased]
    rw [if_neg (by omega), if_pos (by rfl)]
  -- all ones and all zeros have other meanings, but no such exponent comes up
  have inner : BitVec.ofNat 11 (e + 1075).toNat ≠ -1#11 := by
    intro equal
    have := congrArg BitVec.toNat equal
    rw [field] at this
    change _ = 2047 at this
    omega
  have nonzero : BitVec.ofNat 11 (e + 1075).toNat ≠ 0#11 := by
    intro equal
    have := congrArg BitVec.toNat equal
    rw [field] at this
    change _ = 0 at this
    omega
  have significand : 2 ^ 52 + (BitVec.ofNat 52 m).toNat = m := by
    rw [BitVec.toNat_ofNat]
    omega
  change UnpackedFloat.unpack Format.binary64 (UnpackedFloat.pack Format.binary64 _) = _
  rw [packed, unpack_packedNumber s _ _ inner nonzero]
  simp only [significand, field]
  congr 1
  omega

/-- A number in the range of the doubles survives packing. -/
theorem Denotes.unpack_pack {u : UnpackedFloat} {v : ℚ} (denotes : Denotes u v)
    (small : |v| < 2 ^ 1000) : (Float.Model.pack u).unpack = u := by
  cases u with
  | zero s => exact unpack_packedZero
  | infinity | notANumber => exact denotes.elim
  | finite s m e positive =>
    obtain ⟨least, short, normal, rfl⟩ := denotes
    refine unpack_pack_finite s m e positive least short normal ?_
    -- a larger exponent would make the number too large, as its significand is long
    by_contra large
    have power : (2 : ℚ) ^ 948 ≤ 2 ^ e := by
      rw [← zpow_natCast]
      exact zpow_le_zpow_right₀ one_le_two (by push_cast; omega)
    have significand : (2 : ℚ) ^ 52 ≤ m := by exact_mod_cast least
    rw [abs_factor_mul s (by positivity)] at small
    have product := mul_le_mul significand power (by positivity) (by positivity)
    rw [← pow_add] at product
    exact absurd small (not_lt.mpr product)

/-- A number above the range of the doubles becomes infinite. -/
theorem unpack_pack_overflow (s : Sign) (m : ℕ) (e : ℤ) (positive : 0 < m) (large : 971 < e) :
    (Float.Model.pack (.finite s m e positive)).unpack = .infinity s := by
  have packed : UnpackedFloat.pack Format.binary64 (.finite s m e positive) = packedInfinity Format.binary64 s := by
    simp only [UnpackedFloat.pack]
    rw [if_pos]
    change 2 ^ 11 ≤ (e + 1023 + 52).toNat + 1
    omega
  change UnpackedFloat.unpack Format.binary64 (UnpackedFloat.pack Format.binary64 _) = _
  rw [packed]
  cases s <;> rfl

end MiniPascal.Doubles
