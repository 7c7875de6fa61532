import MiniPascal.Proofs.Checking.Typing
import MiniPascal.Proofs.Validation

/-!
# Sums of mixed operands

Addition, subtraction and multiplication are meant for two integers, for two reals, and for an integer beside a
real, which is converted. In fact an integer is converted beside anything that is no integer, so that the name of
a type or the result of a procedure is taken for a real there.
-/

namespace MiniPascal

open Checked

instance (t : SymbolIndex) : Decidable (IsNumber t) :=
  inferInstanceAs (Decidable (_ ∨ _))

/-! ## The rule and what is done -/

/-- Converts an operand that is an integer if the other one is not. -/
def widenBeside (type other : SymbolIndex) (e : Expr) : Expr × List Event :=
  if type = integerType ∧ other ≠ integerType then widening e else (e, [])

/-- The rule as it is meant. Two integers give an integer, other numbers a real with the integer among them
converted, and anything else has no type in common and stays as it is. -/
def mixed (left right : Expr) (leftType rightType : SymbolIndex) : Operation :=
  if leftType = integerType ∧ rightType = integerType then ⟨left, right, [], integerType, integerType⟩
  else if IsNumber leftType ∧ IsNumber rightType then
    let (left, leftEvents) := widenBeside leftType rightType left
    let (right, rightEvents) := widenBeside rightType leftType right
    ⟨left, right, leftEvents ++ rightEvents, realType, realType⟩
  else ⟨left, right, [], voidType, voidType⟩

/-- One operand is an integer and the other one is no number. -/
def IntegerBesideOther (leftType rightType : SymbolIndex) : Prop :=
  leftType = integerType ∧ ¬IsNumber rightType ∨ rightType = integerType ∧ ¬IsNumber leftType

/-- What is done with two operands. -/
structure Mixes (left right : Expr) (leftType rightType : SymbolIndex) (o : Operation) : Prop where
  stored : o.stored = o.found
  integer : o.found = integerType ↔ leftType = integerType ∧ rightType = integerType
  real : o.found = realType ↔
    leftType = realType ∧ rightType = realType ∨ ¬(leftType = integerType ↔ rightType = integerType)
  void : o.found = voidType ↔
    leftType ≠ integerType ∧ rightType ≠ integerType ∧ ¬(leftType = realType ∧ rightType = realType)
  leftOperand : o.left = (widenBeside leftType rightType left).1
  rightOperand : o.right = (widenBeside rightType leftType right).1
  events : o.events = (widenBeside leftType rightType left).2 ++ (widenBeside rightType leftType right).2
  /-- no error is reported -/
  quiet : o.events.filterMap Event.message? = []

section Operands

variable (left right : Expr) (leftType rightType : SymbolIndex)

theorem mixes_arithmetic :
    Mixes left right leftType rightType (arithmetic left right leftType rightType) := by
  unfold arithmetic
  split_ifs with both_integer both_real left_integer right_integer
  · obtain ⟨rfl, rfl⟩ := both_integer
    constructor <;> simp [widenBeside]
  · obtain ⟨rfl, rfl⟩ := both_real
    constructor <;> simp [widenBeside]
  · have other : rightType ≠ integerType := fun integer => both_integer ⟨left_integer, integer⟩
    constructor <;> simp [widenBeside, widening, left_integer, other, Event.message?]
  · constructor <;> simp [widenBeside, widening, left_integer, right_integer, Event.message?]
  · constructor <;> simp_all [widenBeside]

variable {left right leftType rightType}

theorem mixed_of_integerBesideOther (beside : IntegerBesideOther leftType rightType) :
    mixed left right leftType rightType = ⟨left, right, [], voidType, voidType⟩ := by
  obtain ⟨rfl, other⟩ | ⟨rfl, other⟩ := beside
  · rw [mixed, if_neg fun both => other (.inl both.2), if_neg fun both => other both.2]
  · rw [mixed, if_neg fun both => other (.inl both.1), if_neg fun both => other both.1]

theorem mixed_of_not_integerBesideOther (apart : ¬IntegerBesideOther leftType rightType) :
    mixed left right leftType rightType = arithmetic left right leftType rightType := by
  have left_beside (integer : leftType = integerType) : IsNumber rightType :=
    not_not.mp fun other => apart (.inl ⟨integer, other⟩)
  have right_beside (integer : rightType = integerType) : IsNumber leftType :=
    not_not.mp fun other => apart (.inr ⟨integer, other⟩)
  unfold arithmetic mixed
  split_ifs with both numbers reals left_integer right_integer reals left_integer right_integer
  · rfl
  · simp [widenBeside, reals]
  · have other : rightType ≠ integerType := fun integer => both ⟨left_integer, integer⟩
    simp [widenBeside, widening, left_integer, other]
  · simp [widenBeside, widening, left_integer, right_integer]
  · -- numbers that are no integers are both real
    exact absurd ⟨numbers.1.resolve_left left_integer, numbers.2.resolve_left right_integer⟩ reals
  · exact absurd ⟨.inr reals.1, .inr reals.2⟩ numbers
  · exact absurd ⟨.inl left_integer, left_beside left_integer⟩ numbers
  · exact absurd ⟨right_beside right_integer, .inl right_integer⟩ numbers
  · rfl

/-- The rule is followed except where an integer stands beside something that is no number. -/
theorem arithmetic_eq_mixed_iff :
    arithmetic left right leftType rightType = mixed left right leftType rightType ↔
      ¬IntegerBesideOther leftType rightType := by
  refine ⟨fun follows beside => ?_, fun apart => (mixed_of_not_integerBesideOther apart).symm⟩
  have one : ¬(leftType = integerType ↔ rightType = integerType) := by
    obtain ⟨integer, other⟩ | ⟨integer, other⟩ := beside
    · exact fun both => other (.inl (both.mp integer))
    · exact fun both => other (.inl (both.mpr integer))
  have real := (mixes_arithmetic left right leftType rightType).real.mpr (.inr one)
  rw [follows, mixed_of_integerBesideOther beside] at real
  contradiction

end Operands

/-! ## Sums -/

variable {table : SymbolTable} {n : Note} {op : BinaryOp} {left right : Expr}

theorem binaryOperation_of_isArithmetic (sum : op.isArithmetic = true) (pos : Position) (left right : Expr)
    (leftType rightType : SymbolIndex) :
    binaryOperation pos op left right leftType rightType = some (arithmetic left right leftType rightType) := by
  cases op with
  | add | sub | mul => rfl
  | divide | or | and | div | mod => contradiction

theorem check_binary_of_operation {leftType rightType : SymbolIndex} {o : Operation}
    (left_result : (left.check table).result = some leftType)
    (right_result : (right.check table).result = some rightType)
    (operation : binaryOperation n.pos op (left.check table).tree (right.check table).tree leftType rightType =
      some o) :
    (Expr.binary n op left right).check table =
      ⟨.binary ⟨n.pos, o.stored⟩ op o.left o.right,
        (left.check table).events ++ (right.check table).events ++ o.events, some o.found⟩ := by
  simp only [Expr.check, andThen, left_result, right_result, operation, done, List.append_assoc]

/-- A sum, a difference or a product is an integer if both operands are, and it is real if both are real or one
of them is an integer, which is converted then. Otherwise it has no type. It reports no error of its own. That is
the rule exactly if no integer stands beside something that is no number. -/
theorem sum_follows_rule_iff (valid : table.validate = .ok ()) (sum : op.isArithmetic = true)
    (covers : table.Covers (Expr.binary n op left right).symbols) :
    let l := left.check table
    let r := right.check table
    ∃ leftType rightType o, l.result = some leftType ∧ r.result = some rightType ∧
      (Expr.binary n op left right).check table =
        ⟨.binary ⟨n.pos, o.stored⟩ op o.left o.right, l.events ++ r.events ++ o.events, some o.found⟩ ∧
      Mixes l.tree r.tree leftType rightType o ∧
      (o = mixed l.tree r.tree leftType rightType ↔ ¬IntegerBesideOther leftType rightType) := by
  intro l r
  have closed := closed_of_validate valid
  rw [Expr.symbols, covers_append] at covers
  obtain ⟨leftType, left_result, -⟩ := yields_check closed left covers.1
  obtain ⟨rightType, right_result, -⟩ := yields_check closed right covers.2
  have operation := binaryOperation_of_isArithmetic sum n.pos l.tree r.tree leftType rightType
  exact ⟨leftType, rightType, arithmetic l.tree r.tree leftType rightType, left_result, right_result,
    check_binary_of_operation left_result right_result operation, mixes_arithmetic .., arithmetic_eq_mixed_iff⟩

/-- The sum of an integer and a variable of another type is real. -/
theorem sum_follows_rule_iff_other_type :
    let main := SymbolTable.new "main"
    let table : SymbolTable := { main with
      symbols := main.symbols ++
        [.plain "i" .variable integerType, .plain "t" .namedType voidType, .plain "v" .variable 5] }
    let note : Note := ⟨⟨1, 1⟩, voidType⟩
    let e : Expr := .binary note .add (.name note 4) (.name note 6)
    table.validate = .ok () ∧ BinaryOp.add.isArithmetic = true ∧ table.Covers e.symbols ∧
      e.check table =
        ⟨.binary ⟨⟨1, 1⟩, realType⟩ .add
          (.cast ⟨⟨1, 1⟩, realType⟩ (.name ⟨⟨1, 1⟩, integerType⟩ 4)) (.name ⟨⟨1, 1⟩, 5⟩ 6),
          [.widened ⟨1, 1⟩], some realType⟩ := by
  intro main table note e
  have valid : table.validate = .ok () := rfl
  have covers : table.Covers e.symbols := by
    change ∀ i ∈ [4, 6], i < 7
    decide
  obtain ⟨leftType, rightType, o, left_result, right_result, checked, mixes, -⟩ :=
    sum_follows_rule_iff valid rfl covers
  obtain rfl : leftType = integerType := (Option.some.inj left_result).symm
  obtain rfl : rightType = 5 := (Option.some.inj right_result).symm
  have found : o.found = realType := mixes.real.mpr (.inr (by decide))
  refine ⟨valid, rfl, covers, ?_⟩
  rw [checked, mixes.stored, found, mixes.leftOperand, mixes.rightOperand, mixes.events]
  rfl

/-- Beside an integer the rule is not followed for an operand of another type. -/
theorem sum_breaks_rule :
    ¬∀ (table : SymbolTable) (n : Note) (op : BinaryOp) (left right : Expr), table.validate = .ok () →
      op.isArithmetic = true → table.Covers (Expr.binary n op left right).symbols →
      let l := left.check table
      let r := right.check table
      ∃ leftType rightType, l.result = some leftType ∧ r.result = some rightType ∧
        let o := mixed l.tree r.tree leftType rightType
        (Expr.binary n op left right).check table =
          ⟨.binary ⟨n.pos, o.stored⟩ op o.left o.right, l.events ++ r.events ++ o.events, some o.found⟩ := by
  intro follows
  let main := SymbolTable.new "main"
  let table : SymbolTable := { main with
    symbols := main.symbols ++
      [.plain "i" .variable integerType, .plain "t" .namedType voidType, .plain "v" .variable 5] }
  let note : Note := ⟨⟨1, 1⟩, voidType⟩
  have covers : table.Covers (Expr.binary note .add (.name note 4) (.name note 6)).symbols := by
    change ∀ i ∈ [4, 6], i < 7
    decide
  obtain ⟨leftType, rightType, left_result, right_result, checked⟩ :=
    follows table note .add (.name note 4) (.name note 6) rfl rfl covers
  obtain rfl : leftType = integerType := (Option.some.inj left_result).symm
  obtain rfl : rightType = 5 := (Option.some.inj right_result).symm
  -- by the rule an integer and a value of another type have no type in common
  have by_rule : some realType = some voidType := congrArg Checked.result checked
  exact absurd by_rule (by decide)

end MiniPascal
