import MiniPascal.Decimal.Expansion

/-!
# Reading decimal numerals

A numeral is a sign, digits, a fraction and a power of ten, the last two optional. It keeps
its digits as they were written; its value is exact, and turning that into a double rounds
once.
-/

namespace MiniPascal.Decimal

def digitValue (c : Char) : Nat :=
  c.toNat - '0'.toNat

def digitsValue (digits : List Char) : Nat :=
  digits.foldl (fun n c => 10 * n + digitValue c) 0

structure Numeral where
  negative : Bool
  /-- the digits in front of the point -/
  whole : List Char
  /-- the digits behind the point, if there is one -/
  fraction : Option (List Char)
  /-- the power of ten, if there is one -/
  power : Option Int
deriving DecidableEq

namespace Numeral

/-! ## Reading -/

def splitSign : List Char → Bool × List Char
  | '-' :: rest => (true, rest)
  | '+' :: rest => (false, rest)
  | cs => (false, cs)

/-- The power of ten at the end of a numeral, which fills all of `cs`, if there is one. -/
def power? : List Char → Option (Option Int)
  | [] => some none
  | c :: cs =>
    if c = 'e' ∨ c = 'E' then
      let (negative, digits) := splitSign cs
      if digits ≠ [] ∧ digits.all Char.isDigit then
        some (some (if negative then -(digitsValue digits) else digitsValue digits))
      else none
    else none

/-- Reads a numeral that fills all of `cs`. There is at least one digit before the power of
ten. -/
def ofChars? (cs : List Char) : Option Numeral :=
  let (negative, unsigned) := splitSign cs
  let whole := unsigned.takeWhile Char.isDigit
  match unsigned.dropWhile Char.isDigit with
  | '.' :: rest =>
    let fraction := rest.takeWhile Char.isDigit
    if whole = [] ∧ fraction = [] then none else do
      let power ← power? (rest.dropWhile Char.isDigit)
      return ⟨negative, whole, some fraction, power⟩
  | rest =>
    if whole = [] then none else do
      let power ← power? rest
      return ⟨negative, whole, none, power⟩

/-! ## Values -/

def fractionDigits (n : Numeral) : List Char :=
  n.fraction.getD []

def writtenPower (n : Numeral) : Int :=
  n.power.getD 0

/-- The exact value, without the sign. -/
def expansion (n : Numeral) : Expansion :=
  ⟨digitsValue (n.whole ++ n.fractionDigits), n.writtenPower - n.fractionDigits.length⟩

/-- The whole number that was written, without a point and without a power of ten. Zero with
a minus sign is none. -/
def integer? (n : Numeral) : Option Int :=
  let value := digitsValue n.whole
  if n.fraction.isSome ∨ n.power.isSome ∨ (n.negative ∧ value = 0) then none
  else some (if n.negative then -value else value)

/-- The nearest double; infinite if the value is too large. -/
def toReal (n : Numeral) : Float :=
  Binary64.assemble n.negative n.expansion.bits

end Numeral

/-- Reads a double from the text that a layout writes for it: a numeral, `inf` with or without
a sign, or `NaN`. It is for programs that are given doubles as texts. Documents have no words
for infinities and NaN, and their numerals are rounded in steps. -/
def realOfText? (s : String) : Option Float :=
  match Numeral.splitSign s.toList with
  | (negative, ['i', 'n', 'f']) => some (Binary64.assemble negative Binary64.infinityBits)
  | (_, ['N', 'a', 'N']) => some (0.0 / 0.0)
  | _ => (Numeral.ofChars? s.toList).map Numeral.toReal

end MiniPascal.Decimal
