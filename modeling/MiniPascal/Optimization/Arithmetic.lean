import MiniPascal.Syntax.Basic

/-!
# Constant arithmetic

What the binary operators do with two constants. All of them are operations of doubles:
`div` is the same as `/`, truth values are `1` and `0`, and `mod` takes the integer parts of
its operands. Two integers are computed with as doubles too, and there is no result where a
double need not hold an operand or the result exactly.
-/

namespace MiniPascal

/-! ## Conversions -/

/-- The double nearest to an integer; halfway between two, that with the even significand. -/
def realOfInteger (n : Int) : Float :=
  .ofModel (.ofInt n)

/-- The integer part of a double, which is cut off to 64 binary digits. That of a NaN is
zero. -/
def integerPart (x : Float) : Int64 :=
  x.toModel.toInt64

def truth (b : Bool) : Float :=
  if b then 1.0 else 0.0

/-! ## Reals -/

/-- The remainder of the integer parts. There is none for a divisor of zero, or where the
quotient does not fit. -/
def realRemainder (a b : Float) : Float :=
  let a := integerPart a
  let b := integerPart b
  if b = 0 ∨ (a = Int64.minValue ∧ b = -1) then 0.0 / 0.0
  else realOfInteger (a.toInt.tmod b.toInt)

def BinaryOp.onReals : BinaryOp → Float → Float → Float
  | add, a, b => a + b
  | sub, a, b => a - b
  | mul, a, b => a * b
  | divide, a, b | div, a, b => a / b
  | mod, a, b => realRemainder a b
  | or, a, b => truth (a != 0.0 || b != 0.0)
  | and, a, b => truth (a != 0.0 && b != 0.0)

/-! ## Integers -/

/-- Two to the power of 53. Above it there are integers that no double holds. -/
def exactLimit : Float :=
  9007199254740992.0

/-- Whether a double is so small that cutting it off gives the exact integer. It is not for
infinities and NaNs. -/
def isExact (x : Float) : Bool :=
  x.abs < exactLimit

/-- The integer that may stand for an operation on two integers. -/
def BinaryOp.foldIntegers (op : BinaryOp) (a b : Int) : Option Int :=
  let x := realOfInteger a
  let y := realOfInteger b
  if isExact x && isExact y then
    let v := op.onReals x y
    if isExact v then some (integerPart v).toInt else none
  else none

end MiniPascal
