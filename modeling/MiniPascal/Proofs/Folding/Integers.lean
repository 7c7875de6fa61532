import MiniPascal.Proofs.Doubles.Conversions

/-!
# Folding of integers

Folding computes with doubles and looks at the limit before and after it. That is exact integer
arithmetic as long as both operands and the result are below the limit, and nothing otherwise.
-/

namespace MiniPascal

open Doubles Float.Model Float.Model.UnpackedFloat

/-- Exact integer arithmetic. Quotients are cut off towards zero, and there is no result for a
divisor of zero. -/
def BinaryOp.onIntegers : BinaryOp → Int → Int → Option Int
  | add, a, b => some (a + b)
  | sub, a, b => some (a - b)
  | mul, a, b => some (a * b)
  | divide, a, b | div, a, b => if b = 0 then none else some (a.tdiv b)
  | mod, a, b => if b = 0 then none else some (a.tmod b)
  | or, a, b => some (if a ≠ 0 ∨ b ≠ 0 then 1 else 0)
  | and, a, b => some (if a ≠ 0 ∧ b ≠ 0 then 1 else 0)

/-- The integer that a double stands for, as long as that is certain. -/
def exactInteger? (x : Float) : Option Int :=
  if isExact x then some (integerPart x).toInt else none

/-- An integer below the limit. -/
def limited (n : Int) : Option Int :=
  if |n| < 2 ^ 53 then some n else none

theorem foldIntegers_eq_exactInteger? (op : BinaryOp) (a b : Int) :
    op.foldIntegers a b =
      if |a| < 2 ^ 53 ∧ |b| < 2 ^ 53 then exactInteger? (op.onReals (realOfInteger a) (realOfInteger b))
      else none := by
  simp only [BinaryOp.foldIntegers, Bool.and_eq_true, isExact_realOfInteger, exactInteger?]

/-! ## Results that are integers -/

theorem exactInteger?_of_rounds {x : Float} {n : Int} {v : ℚ} (rounds : Rounds n v) (value : IsValue x v) :
    exactInteger? x = limited n := by
  unfold exactInteger? limited
  simp only [isExact_iff value, rounds.abs_lt_iff]
  split
  next small =>
    rw [rounds.eq_of_small small] at value
    rw [toInt_integerPart_of_int value small]
  next => rfl

theorem exactInteger?_of_int {x : Float} {n : Int} (value : IsValue x n) :
    exactInteger? x = limited n := by
  obtain ⟨u, equal, denotes⟩ := value
  exact exactInteger?_of_rounds denotes.rounds ⟨u, equal, denotes⟩

/-- An operation on doubles that rounds the exact integer once. -/
theorem exactInteger?_of_model {f : UnpackedFloat → UnpackedFloat → UnpackedFloat} {x y : Float} {n : Int}
    (rounds : ∃ v, Rounds n v ∧ Denotes (f x.toModel.unpack y.toModel.unpack) v) :
    exactInteger? (.ofModel (.pack (f x.toModel.unpack y.toModel.unpack))) = limited n := by
  obtain ⟨v, nearest, denotes⟩ := rounds
  exact exactInteger?_of_rounds nearest ⟨_, rfl, denotes⟩

variable {a b : Int} {x y : Float}

/-! ## Quotients -/

theorem tdiv_eq_apply (s s' : Sign) (m m' : ℕ) :
    (s.apply m).tdiv (s'.apply m') = (s / s').apply (m / m' : ℕ) := by
  cases s <;> cases s' <;> simp [Sign.apply, Int.neg_tdiv, Int.tdiv_neg] <;> rfl

/-- Without their signs a rounded quotient lies between the quotient of integers and the next. -/
theorem quotient_magnitude {v : ℚ} {s s' : Sign} (dividend : a = s.apply a.natAbs)
    (divisor : b = s'.apply b.natAbs) (nonzero : b ≠ 0) (digits : a.natAbs < 2 ^ 53) (rounds : Rounds (a / b) v) :
    ∃ w, v = factor (s / s') * w ∧ (a.natAbs / b.natAbs : ℕ) ≤ w ∧ w < (a.natAbs / b.natAbs : ℕ) + 1 := by
  rcases rounds with ⟨zero, rfl⟩ | rounded
  · have none : a = 0 := by
      rcases div_eq_zero_iff.mp zero with none | none
      · exact Int.cast_eq_zero.mp none
      · exact absurd (Int.cast_eq_zero.mp none) nonzero
    exact ⟨0, by simp, by simp [none], by simp [none]⟩
  · refine ⟨factor (s / s') * v, ?_, ?_⟩
    · rw [← mul_assoc, ← factor_mul]
      cases s / s' <;> exact (one_mul v).symm
    · have turned := rounded.factor_mul (s / s')
      have exact_quotient : factor (s / s') * (a / b : ℚ) = (a.natAbs / b.natAbs : ℚ) := by
        conv_lhs => rw [dividend, divisor]
        rw [cast_apply, cast_apply, factor_div]
        cases s <;> cases s' <;> simp [factor, neg_div, div_neg]
      rw [exact_quotient] at turned
      exact turned.quotient_bounds (by omega) digits

theorem exactInteger?_of_quotient {v : ℚ} (nonzero : b ≠ 0) (small : |a| < 2 ^ 53)
    (rounds : Rounds (a / b) v) (value : IsValue x v) : exactInteger? x = limited (a.tdiv b) := by
  obtain ⟨s, dividend⟩ := exists_sign a
  obtain ⟨s', divisor⟩ := exists_sign b
  have digits : a.natAbs < 2 ^ 53 := by
    rw [Int.abs_eq_natAbs] at small
    exact_mod_cast small
  have short : a.natAbs / b.natAbs < 2 ^ 53 := (Nat.div_le_self _ _).trans_lt digits
  have quotient : a.tdiv b = (s / s').apply (a.natAbs / b.natAbs : ℕ) := by
    conv_lhs => rw [dividend, divisor]
    exact tdiv_eq_apply s s' _ _
  have size : |(s / s').apply (a.natAbs / b.natAbs : ℕ)| < 2 ^ 53 := by
    rw [Int.abs_eq_natAbs, natAbs_apply]
    exact_mod_cast short
  rw [quotient, limited, if_pos size]
  obtain ⟨w, rfl, least, greatest⟩ := quotient_magnitude dividend divisor nonzero digits rounds
  have exact : isExact x = true := by
    rw [isExact_iff value, abs_factor_mul _ (le_trans (Nat.cast_nonneg _) least)]
    have whole : ((a.natAbs / b.natAbs : ℕ) : ℚ) + 1 ≤ 2 ^ 53 := by exact_mod_cast short
    exact greatest.trans_le whole
  rw [exactInteger?, if_pos exact, toInt_integerPart _ value least greatest short]

theorem exactInteger?_of_zero_divisor {u w : UnpackedFloat} {q : ℚ} (dividend : Denotes u q)
    (divisor : Denotes w (0 : Int)) :
    exactInteger? (.ofModel (.pack (UnpackedFloat.div Format.binary64 u w))) = none := by
  cases w with
  | infinity | notANumber => exact divisor.elim
  | finite s' m e positive => exact absurd rfl divisor.exponent_of_integer.1
  | zero s' =>
    cases u with
    | infinity | notANumber => exact dividend.elim
    | zero s => exact if_neg (Bool.eq_false_iff.mp isExact_notANumber)
    | finite s m e positive => exact if_neg (Bool.eq_false_iff.mp (isExact_infinity (s / s')))

/-! ## Remainders -/

theorem exactInteger?_realRemainder (left : IsValue x a) (right : IsValue y b) (small : |a| < 2 ^ 53)
    (small' : |b| < 2 ^ 53) :
    exactInteger? (realRemainder x y) = (BinaryOp.mod.onIntegers a b).bind limited := by
  have dividend := toInt_integerPart_of_int left small
  have divisor := toInt_integerPart_of_int right small'
  -- the least integer of 64 digits is above the limit, so its quotient by -1 is no case
  have large : a ≠ Int64.minValue.toInt := by
    rintro rfl
    revert small
    decide
  have zero : (0 : Int64).toInt = 0 := rfl
  simp only [realRemainder, ← Int64.toInt_inj, dividend, divisor, zero, large, false_and, or_false,
    BinaryOp.onIntegers]
  split
  · rfl
  · refine exactInteger?_of_int (realOfInteger_exact ?_)
    rw [Int.abs_eq_natAbs] at small ⊢
    have := Int.natAbs_tmod a b
    have := Nat.mod_le a.natAbs b.natAbs
    omega

/-! ## Truth values -/

theorem exactInteger?_truth (t : Bool) : exactInteger? (truth t) = some (if t then 1 else 0) := by
  cases t <;> rfl

theorem ne_zero_eq (value : IsValue x a) (small : |a| < 2 ^ 53) : (x != 0.0) = decide (a ≠ 0) := by
  have denotes := value.unpack (by exact_mod_cast small)
  change (!(UnpackedFloat.compare x.toModel.unpack (.zero .positive) == some .eq)) = _
  generalize x.toModel.unpack = u at denotes
  cases u with
  | infinity | notANumber => exact denotes.elim
  | zero s =>
    have none : a = 0 := Int.cast_eq_zero.mp denotes
    rw [none]
    rfl
  | finite s m e positive =>
    rw [decide_eq_true denotes.exponent_of_integer.1]
    cases s <;> rfl

/-! ## All operations -/

/-- Folding two integers is exact integer arithmetic below the limit. -/
theorem foldIntegers_eq (op : BinaryOp) (a b : Int) :
    op.foldIntegers a b =
      if |a| < 2 ^ 53 ∧ |b| < 2 ^ 53 then (op.onIntegers a b).bind limited else none := by
  rw [foldIntegers_eq_exactInteger?]
  split
  next small =>
    have left := realOfInteger_exact small.1
    have right := realOfInteger_exact small.2
    -- from here on only the values of the operands matter
    generalize realOfInteger a = x at left ⊢
    generalize realOfInteger b = y at right ⊢
    have dividend := left.unpack (by exact_mod_cast small.1)
    have divisor := right.unpack (by exact_mod_cast small.2)
    cases op with
    | add => exact exactInteger?_of_model (mod_cast denotes_add dividend divisor)
    | sub => exact exactInteger?_of_model (mod_cast denotes_sub dividend divisor)
    | mul => exact exactInteger?_of_model (mod_cast denotes_mul dividend divisor)
    | divide | div =>
      simp only [BinaryOp.onIntegers]
      split
      next zero =>
        rw [zero] at divisor
        exact exactInteger?_of_zero_divisor dividend divisor
      next nonzero =>
        obtain ⟨v, rounds, denotes⟩ := denotes_div dividend divisor nonzero small.2
        exact exactInteger?_of_quotient nonzero small.1 rounds ⟨_, rfl, denotes⟩
    | mod => exact exactInteger?_realRemainder left right small.1 small.2
    | or | and =>
      simp only [BinaryOp.onReals, BinaryOp.onIntegers, ne_zero_eq left small.1, ne_zero_eq right small.2,
        exactInteger?_truth, Bool.or_eq_true, Bool.and_eq_true, decide_eq_true_eq]
      split <;> rfl
  next => rfl

end MiniPascal
