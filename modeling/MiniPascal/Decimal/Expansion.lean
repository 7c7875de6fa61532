import MiniPascal.Decimal.Binary64

/-!
# Decimals

A decimal is a whole number times a power of ten. `Expansion.bits` is the double nearest to
it, found in exact arithmetic.
-/

namespace MiniPascal.Decimal

open Binary64

/-- A decimal `coefficient · 10 ^ exponent`. -/
structure Expansion where
  coefficient : Nat
  exponent : Int
deriving DecidableEq

/-- The number of decimal digits of `n`; zero has one. -/
def digitCount (n : Nat) : Nat :=
  (Nat.toDigits 10 n).length

/-- The magnitude bits of the double nearest to a decimal. Numbers of 310 and more digits
before the point are infinite, and those with 330 and more zeros behind it are zero, so the
powers of ten that are formed stay small. -/
def Expansion.bits (d : Expansion) : Nat :=
  let top : Int := digitCount d.coefficient + d.exponent
  if d.coefficient = 0 then 0
  else if 310 < top then infinityBits
  else if top < -330 then 0
  else
    let (n, d) := scale 10 d.exponent d.coefficient 1
    nearest n d

end MiniPascal.Decimal
