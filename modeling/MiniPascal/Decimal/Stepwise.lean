import MiniPascal.Decimal.Numeral

/-!
# Reading numerals in steps

A numeral can be read in the arithmetic of a machine: its digits make a natural number of
64 binary digits, that becomes a double, and the double is multiplied or divided by a power
of ten. Digits that do not fit are left out, and every step rounds, so that the result is
near the value of the numeral, but not always the nearest double. What is exact without
rounding is read exactly.
-/

namespace MiniPascal.Decimal

open Binary64

/-! ## Digits -/

/-- Puts digits behind a number as long as it stays below `2 ^ 64`. Yields the number and
the digits that are left. -/
def appendDigits (n : Nat) : List Char → Nat × List Char
  | [] => (n, [])
  | c :: cs =>
    let next := 10 * n + digitValue c
    if next < UInt64.size then appendDigits next cs else (n, c :: cs)

theorem appendDigits_fst_lt {n : Nat} (h : n < UInt64.size) (cs : List Char) :
    (appendDigits n cs).1 < UInt64.size := by
  induction cs generalizing n with
  | nil => exact h
  | cons c cs ih =>
    dsimp only [appendDigits]
    split
    case isTrue fits => exact ih fits
    case isFalse => exact h

/-- The value of the digits that fit. Each whole digit left over stands for a power of ten;
digits behind the point are put to what the whole digits made, and those left over do not
count. -/
def Numeral.leading (n : Numeral) : Expansion :=
  let (whole, wholeRest) := appendDigits 0 n.whole
  let (coefficient, fractionRest) := appendDigits whole n.fractionDigits
  ⟨coefficient,
    n.writtenPower + wholeRest.length + fractionRest.length - n.fractionDigits.length⟩

/-- The digits that count make a number of 64 binary digits. -/
theorem Numeral.leading_coefficient_lt (n : Numeral) : n.leading.coefficient < UInt64.size := by
  have zero : 0 < UInt64.size := by decide
  exact appendDigits_fst_lt (appendDigits_fst_lt zero n.whole) n.fractionDigits

/-! ## Powers of ten -/

/-- The greatest power of ten that is a finite double. -/
def greatestPower : Nat := 308

def powerOfTen (k : Nat) : Nat :=
  nearest (Nat.pow 10 k) 1

/-- Multiplies by `10 ^ k`, if the product is finite. -/
def timesPower? (bits k : Nat) : Option Nat :=
  if k ≤ greatestPower then
    let scaled := product bits (powerOfTen k)
    if scaled < infinityBits then some scaled else none
  else none

/-- Divides by `10 ^ k`, in two steps if no double is that large. Two of the greatest powers
leave nothing of a number below `2 ^ 64`. -/
def overPower (bits k : Nat) : Nat :=
  if k ≤ greatestPower then quotient bits (powerOfTen k)
  else if k ≤ 2 * greatestPower then
    quotient (quotient bits (powerOfTen greatestPower)) (powerOfTen (k - greatestPower))
  else 0

/-! ## Doubles -/

/-- The magnitude bits of a decimal whose coefficient is below `2 ^ 64`, rounded after every
step. There are none if a step leads to infinity. -/
def Expansion.stepwiseBits? (d : Expansion) : Option Nat :=
  let start := nearest d.coefficient 1
  if d.coefficient = 0 then some 0
  else if 0 ≤ d.exponent then timesPower? start d.exponent.toNat
  else some (overPower start (-d.exponent).toNat)

/-- The double that a numeral is read as, if its value is in range. -/
def Numeral.stepwiseReal? (n : Numeral) : Option Float :=
  n.leading.stepwiseBits?.map (assemble n.negative)

end MiniPascal.Decimal
