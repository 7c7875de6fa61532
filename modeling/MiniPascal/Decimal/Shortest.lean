import MiniPascal.Decimal.Expansion

/-!
# The fewest digits that read back

`shortest tie b` is the decimal that stands for the finite double with magnitude bits `b`:
of all decimals that round to it those with the fewest digits, and of these the nearest.
The grids of one, two, … digits are tried in turn. On each only the two neighbours of the
exact value can qualify, because the decimals that round to a double form an interval
around it.
-/

namespace MiniPascal.Decimal

open Binary64

/-- Which of two equally near neighbours is taken. -/
inductive Tie where
  | up
  | even
deriving DecidableEq

/-- Whether the upper of two neighbours is taken, where the value lies the fraction
`rem / den` of a step above the lower one. -/
def Tie.takesUpper (tie : Tie) (lower rem den : Nat) : Bool :=
  match compare (2 * rem) den with
  | .lt => false
  | .gt => true
  | .eq =>
    match tie with
    | .up => true
    | .even => lower % 2 = 1

/-- The exponent `e` with `10 ^ (e - 1) ≤ num / den < 10 ^ e`, for positive `num` and
`den`. -/
def pointPosition (num den : Nat) : Int :=
  if den ≤ num then digitCount (num / den) else 1 - (digitCount ((den - 1) / num) : Int)

/-- The neighbour of `num / den` on the grid of `10 ^ exponent` that reads back as `bits`;
the nearer one if both do. -/
def onGrid (tie : Tie) (bits num den : Nat) (exponent : Int) : Option Expansion :=
  let (n, d) := scale 10 (-exponent) num den
  let lower := n / d
  let lowerFits := Expansion.bits ⟨lower, exponent⟩ = bits
  let upperFits := Expansion.bits ⟨lower + 1, exponent⟩ = bits
  if lowerFits ∧ upperFits then
    some ⟨if tie.takesUpper lower (n % d) d then lower + 1 else lower, exponent⟩
  else if lowerFits then some ⟨lower, exponent⟩
  else if upperFits then some ⟨lower + 1, exponent⟩
  else none

def exact (v : Value) : Expansion :=
  if 0 ≤ v.exponent then ⟨v.significand * Nat.pow 2 v.exponent.toNat, 0⟩
  else ⟨v.significand * Nat.pow 5 (-v.exponent).toNat, v.exponent⟩

/-- The first hit among the grids of at most seventeen digits. -/
def shortest (tie : Tie) (bits : Nat) : Expansion :=
  let value := magnitude bits
  let (num, den) := value.fraction
  if num = 0 then ⟨0, 0⟩ else
    let top := pointPosition num den
    let hit := (List.range 17).findSome? fun n => onGrid tie bits num den (top - (n + 1 : Nat))
    hit.getD (exact value)

end MiniPascal.Decimal
