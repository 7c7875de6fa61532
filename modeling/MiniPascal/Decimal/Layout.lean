import MiniPascal.Decimal.Shortest

/-!
# Writing doubles

A layout says how the shortest decimal of a double is spelled: for which positions of the
decimal point all digits are written out, and how the power of ten is marked otherwise.
-/

namespace MiniPascal.Decimal

open Binary64

structure Layout where
  /-- the least position of the point that is written out; `0` stands for `0.1` -/
  leastPoint : Int
  /-- the greatest position of the point that is written out; `1` stands for `1.0` -/
  greatestPoint : Int
  /-- whether a positive power of ten has a sign -/
  plusSign : Bool
  tie : Tie
deriving DecidableEq

/-- Reals in printed bodies: written out from `0.0001` up to below `10 ^ 16`. -/
def Layout.plain : Layout := ⟨-3, 16, false, .up⟩

/-- Reals in JSON: written out from `0.00001` up to below `10 ^ 16`. -/
def Layout.json : Layout := ⟨-4, 16, true, .even⟩

def dropTrailingZeros (digits : List Char) : List Char :=
  (digits.reverse.dropWhile (· = '0')).reverse

/-- The digits of `n` without the zeros at its end. -/
def significantDigits (n : Nat) : List Char :=
  dropTrailingZeros (Nat.toDigits 10 n)

/-- The digits with a decimal point after the first `point` of them; at least one digit is
written on each side. -/
def positional (digits : List Char) (point : Int) : List Char :=
  if point ≤ 0 then
    '0' :: '.' :: (List.replicate (-point).toNat '0' ++ digits)
  else
    let whole := digits.take point.toNat
    let fraction := digits.drop point.toNat
    whole ++ List.replicate (point.toNat - digits.length) '0' ++
      '.' :: (if fraction.isEmpty then ['0'] else fraction)

/-- One digit, the others behind a point if there are any, and the power of ten. -/
def scientific (plusSign : Bool) (digits : List Char) (point : Int) : List Char :=
  let fraction := digits.drop 1
  let power := point - 1
  digits.take 1 ++ (if fraction.isEmpty then [] else '.' :: fraction) ++
    'e' :: ((if power < 0 then ['-'] else if plusSign then ['+'] else []) ++
      Nat.toDigits 10 power.natAbs)

namespace Layout

def digits (l : Layout) (d : Expansion) : List Char :=
  if d.coefficient = 0 then ['0', '.', '0'] else
    let written := significantDigits d.coefficient
    let point : Int := digitCount d.coefficient + d.exponent
    if l.leastPoint ≤ point ∧ point ≤ l.greatestPoint then positional written point
    else scientific l.plusSign written point

/-- The spelling of a double. A NaN has no sign. -/
def chars (l : Layout) (r : Float) : List Char :=
  if isNaN r then ['N', 'a', 'N'] else
    (if isNegative r then ['-'] else []) ++
      (if isFinite r then l.digits (shortest l.tie (magnitudeBits r)) else ['i', 'n', 'f'])

def text (l : Layout) (r : Float) : String :=
  String.ofList (l.chars r)

end Layout

end MiniPascal.Decimal
