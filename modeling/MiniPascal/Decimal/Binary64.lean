/-!
# Rounding to binary64

A non-negative finite double is `m · 2 ^ q` with `m < 2 ^ 53` and `-1074 ≤ q`. The bit
patterns of these numbers, read as naturals, run through them in order, so the double
above the one with bits `b` has bits `b + 1`, and the step out of the largest finite double
leads to the pattern of infinity.

`Binary64.nearest` rounds an exact fraction to the nearest of them, a tie to the even
significand. Products and quotients of doubles are formed exactly and rounded by it.
-/

namespace MiniPascal.Decimal.Binary64

/-- The bits of positive infinity, one above those of the largest finite double. -/
def infinityBits : Nat := 0x7FF0000000000000

/-- The weight of the sign bit. -/
def signBit : Nat := 1 <<< 63

/-- The weight of the leading digit of a significand, which is not stored. -/
def hiddenBit : Nat := 1 <<< 52

/-- A number `significand · 2 ^ exponent`. -/
structure Value where
  significand : Nat
  exponent : Int
deriving DecidableEq

/-- The number with magnitude bits `b`, which are below `infinityBits`. -/
def magnitude (b : Nat) : Value :=
  if b / hiddenBit = 0 then ⟨b, -1074⟩
  else ⟨hiddenBit + b % hiddenBit, (b / hiddenBit : Nat) - 1075⟩

/-- `num / den` scaled by `base ^ shift`, again as a fraction. -/
def scale (base : Nat) (shift : Int) (num den : Nat) : Nat × Nat :=
  if 0 ≤ shift then (num * Nat.pow base shift.toNat, den)
  else (num, den * Nat.pow base (-shift).toNat)

def Value.fraction (v : Value) : Nat × Nat :=
  scale 2 v.exponent v.significand 1

/-- The exponent `k` with `2 ^ k ≤ num / den < 2 ^ (k + 1)`, for positive `num` and `den`. -/
def binaryExponent (num den : Nat) : Int :=
  let k : Int := (num.log2 : Int) - (den.log2 : Int)
  let (n, d) := scale 2 (-k) num den
  if n < d then k - 1 else k

/-- The magnitude bits of the double nearest to `num / den`. A value half a step or more
above the largest finite double becomes infinity. -/
def nearest (num den : Nat) : Nat :=
  if num = 0 then 0 else
    let q := max (binaryExponent num den - 52) (-1074)
    let (n, d) := scale 2 (-q) num den
    let m := n / d
    let r := n % d
    let up := if d < 2 * r ∨ (d = 2 * r ∧ m % 2 = 1) then 1 else 0
    min infinityBits ((q + 1074).toNat * hiddenBit + m + up)

/-- The magnitude bits of the product of two finite doubles, rounded once. -/
def product (a b : Nat) : Nat :=
  let x := magnitude a
  let y := magnitude b
  let (n, d) := scale 2 (x.exponent + y.exponent) (x.significand * y.significand) 1
  nearest n d

/-- The magnitude bits of the quotient of two finite doubles, rounded once. The divisor is
positive. -/
def quotient (a b : Nat) : Nat :=
  let x := magnitude a
  let y := magnitude b
  let (n, d) := scale 2 (x.exponent - y.exponent) x.significand y.significand
  nearest n d

/-- The double with the given sign and magnitude bits. -/
def assemble (negative : Bool) (bits : Nat) : Float :=
  Float.ofBits (UInt64.ofNat (if negative then signBit + bits else bits))

def isNegative (r : Float) : Bool :=
  signBit ≤ r.toBits.toNat

def magnitudeBits (r : Float) : Nat :=
  r.toBits.toNat % signBit

def isFinite (r : Float) : Bool :=
  magnitudeBits r < infinityBits

def isNaN (r : Float) : Bool :=
  infinityBits < magnitudeBits r

end MiniPascal.Decimal.Binary64
