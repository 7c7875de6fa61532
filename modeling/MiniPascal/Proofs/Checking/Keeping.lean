import MiniPascal.Proofs.Checking.Matching

/-!
# Trees that checking leaves alone

A tree is kept if checking it reports nothing, converts nothing and stores the types that are stored
already. Whether it is depends on its parts being kept, and on the types that are found for them and
stored in them, but on nothing else of them.
-/

namespace MiniPascal

/-! ## Leaving a tree alone -/

/-- No errors and no conversions. -/
def Calm (events : List Event) : Prop :=
  events.filterMap Event.message? = [] ∧ widenings events = 0

@[simp] theorem calm_nil : Calm [] :=
  ⟨rfl, rfl⟩

@[simp] theorem calm_append {events events' : List Event} :
    Calm (events ++ events') ↔ Calm events ∧ Calm events' := by
  simp only [Calm, List.filterMap_append, List.append_eq_nil_iff, widenings_append, Nat.add_eq_zero_iff]
  exact and_and_and_comm

@[simp] theorem not_calm_widened (pos : Position) (events : List Event) : ¬Calm (.widened pos :: events) := by
  simp [Calm]

@[simp] theorem not_calm_error (pos : Option Position) (e : TypeError) (events : List Event) :
    ¬Calm (.error pos e :: events) := by
  simp [Calm, Event.message?]

@[simp] theorem calm_unless (condition : Prop) [Decidable condition] (pos : Option Position) (e : TypeError) :
    Calm (if condition then [] else [.error pos e]) ↔ condition := by
  split_ifs with holds <;> simp [holds]

namespace Checked

variable {τ υ σ ρ : Type} {c : Checked τ σ} {rest : τ → υ} {next : τ → σ → Checked υ ρ}

/-- Checking the tree ends calmly with it. -/
structure Leaves (c : Checked τ σ) (tree : τ) (s : σ) : Prop where
  tree : c.tree = tree
  calm : Calm c.events
  result : c.result = some s

@[simp] theorem leaves_done {t tree : τ} {events : List Event} {r s : σ} :
    (done t events r).Leaves tree s ↔ t = tree ∧ Calm events ∧ r = s := by
  constructor
  · rintro ⟨same, calm, result⟩
    exact ⟨same, calm, Option.some.inj result⟩
  · rintro ⟨same, calm, rfl⟩
    exact ⟨same, calm, rfl⟩

@[simp] theorem not_leaves_stopped {t tree : τ} {s : σ} : ¬(stopped t).Leaves tree s := by
  rintro ⟨-, -, result⟩
  cases result

@[simp] theorem leaves_after {tree : τ} {events : List Event} {s : σ} :
    (c.after events).Leaves tree s ↔ Calm events ∧ c.Leaves tree s := by
  constructor
  · rintro ⟨same, calm, result⟩
    obtain ⟨front, back⟩ := calm_append.mp calm
    exact ⟨front, same, back, result⟩
  · rintro ⟨front, same, back, result⟩
    exact ⟨same, calm_append.mpr ⟨front, back⟩, result⟩

theorem leaves_andThen {tree : υ} {r : ρ} :
    (c.andThen rest next).Leaves tree r ↔ ∃ t s, c.Leaves t s ∧ (next t s).Leaves tree r := by
  constructor
  · rintro ⟨same, calm, result⟩
    obtain ⟨s, first_result, second_result, second_tree⟩ := andThen_eq_some result
    rw [events_andThen first_result] at calm
    obtain ⟨front, back⟩ := calm_append.mp calm
    exact ⟨c.tree, s, ⟨rfl, front, first_result⟩, second_tree.symm.trans same, back, second_result⟩
  · rintro ⟨_, s, ⟨rfl, front, first_result⟩, same, back, result⟩
    rw [Checked.andThen, first_result]
    exact ⟨same, calm_append.mpr ⟨front, back⟩, result⟩

end Checked

open Checked

/-- A note has its own position. -/
theorem note_eq_iff {n : Note} {t : SymbolIndex} : (⟨n.pos, t⟩ : Note) = n ↔ t = n.type := by
  cases n
  simp

variable (table : SymbolTable)

/-- Checking leaves the expression alone and finds the type. -/
def Expr.Keeps (e : Expr) (found : SymbolIndex) : Prop :=
  (e.check table).Leaves e found

variable {table} {n : Note} {found : SymbolIndex}

/-! ## Expressions -/

theorem keeps_name {s : SymbolIndex} :
    (Expr.name n s).Keeps table found ↔ ∃ symbol, table.get? s = some symbol ∧ symbol.type = n.type ∧
      (if symbol.kind = .namedType then s else symbol.type) = found := by
  rw [Expr.Keeps, Expr.check]
  cases table.get? s with
  | none => simp
  | some symbol => simp [note_eq_iff]

theorem keeps_element {array : Reference} {index : Expr} :
    (Expr.element n array index).Keeps table found ↔ ∃ symbol, table.get? array.value = some symbol ∧
      index.Keeps table integerType ∧ symbol.type = n.type ∧ symbol.type = found := by
  rw [Expr.Keeps, Expr.check]
  cases table.get? array.value with
  | none => simp
  | some symbol =>
    simp only [leaves_andThen, leaves_done, Expr.element.injEq, note_eq_iff, calm_unless, true_and]
    constructor
    · rintro ⟨index', t, kept, ⟨type, rfl⟩, rfl, found⟩
      exact ⟨symbol, rfl, kept, type, found⟩
    · rintro ⟨symbol', same, kept, type, found⟩
      cases same
      exact ⟨index, integerType, kept, ⟨type, rfl⟩, rfl, found⟩

theorem keeps_integer {v : Int} :
    (Expr.integer n v).Keeps table found ↔ integerType = n.type ∧ integerType = found := by
  simp [Expr.Keeps, Expr.check, note_eq_iff]

theorem keeps_real {v : Float} : (Expr.real n v).Keeps table found ↔ realType = n.type ∧ realType = found := by
  simp [Expr.Keeps, Expr.check, note_eq_iff]

theorem keeps_cast {inner : Expr} :
    (Expr.cast n inner).Keeps table found ↔ (∃ t, inner.Keeps table t) ∧ realType = n.type ∧ realType = found := by
  simp only [Expr.Keeps, Expr.check, leaves_andThen, leaves_done, Expr.cast.injEq, note_eq_iff, calm_nil,
    true_and]
  constructor
  · rintro ⟨_, t, kept, ⟨type, rfl⟩, found⟩
    exact ⟨⟨t, kept⟩, type, found⟩
  · rintro ⟨⟨t, kept⟩, type, found⟩
    exact ⟨inner, t, kept, ⟨type, rfl⟩, found⟩

theorem keeps_negate {inner : Expr} :
    (Expr.negate n inner).Keeps table found ↔ inner.Keeps table found ∧ found = n.type := by
  simp only [Expr.Keeps, Expr.check, leaves_andThen, leaves_done, Expr.negate.injEq, note_eq_iff, calm_nil,
    true_and]
  constructor
  · rintro ⟨_, t, kept, ⟨type, rfl⟩, rfl⟩
    exact ⟨kept, type⟩
  · rintro ⟨kept, type⟩
    exact ⟨inner, found, kept, ⟨type, rfl⟩, rfl⟩

theorem keeps_not {inner : Expr} :
    (Expr.not n inner).Keeps table found ↔
      (∃ t, inner.Keeps table t) ∧ inner.type = integerType ∧ integerType = n.type ∧ integerType = found := by
  simp only [Expr.Keeps, Expr.check, leaves_andThen]
  constructor
  · rintro ⟨inner', t, kept, leaves⟩
    split_ifs at leaves with integer
    · simp only [leaves_done, Expr.not.injEq, note_eq_iff] at leaves
      obtain ⟨⟨type, rfl⟩, -, found⟩ := leaves
      exact ⟨⟨t, kept⟩, integer, type, found⟩
    · simp at leaves
  · rintro ⟨⟨t, kept⟩, integer, type, found⟩
    refine ⟨inner, t, kept, ?_⟩
    rw [if_pos integer, leaves_done, Expr.not.injEq, note_eq_iff]
    exact ⟨⟨type, rfl⟩, calm_nil, found⟩

/-! ### Operators -/

/-- The type of a sum whose operands are both integers or neither of them is. -/
def sumType (leftType rightType : SymbolIndex) : SymbolIndex :=
  if leftType = integerType then integerType
  else if leftType = realType ∧ rightType = realType then realType else voidType

/-- An operation on operands of these types converts and reports nothing, and has the last type. -/
def BinaryOp.Stays (leftType rightType leftStored rightStored found : SymbolIndex) : BinaryOp → Prop
  | .add | .sub | .mul => (leftType = integerType ↔ rightType = integerType) ∧ sumType leftType rightType = found
  | .divide => (leftStored ≠ integerType ∧ rightStored ≠ integerType) ∧ realType = found
  | .div | .mod | .or | .and => (leftType = integerType ∧ rightType = integerType) ∧ integerType = found

/-- The operation converts and reports nothing, has these operands, and stores and finds these types. -/
def Operation.Is (o : Operation) (left right : Expr) (stored found : SymbolIndex) : Prop :=
  o.left = left ∧ o.right = right ∧ Calm o.events ∧ o.stored = stored ∧ o.found = found

section Operators

variable {pos : Position} {op : BinaryOp} {left right left' right' : Expr}
  {leftType rightType stored type : SymbolIndex} {events : List Event}

theorem operation_is : Operation.Is ⟨left, right, [], type, type⟩ left' right' stored found ↔
    left = left' ∧ right = right' ∧ type = found ∧ found = stored := by
  constructor
  · rintro ⟨rfl, rfl, -, rfl, rfl⟩
    exact ⟨rfl, rfl, rfl, rfl⟩
  · rintro ⟨rfl, rfl, rfl, rfl⟩
    exact ⟨rfl, rfl, calm_nil, rfl, rfl⟩

theorem not_operation_is (loud : ¬Calm events) (t : SymbolIndex) :
    ¬Operation.Is ⟨left, right, events, type, t⟩ left' right' stored found := by
  rintro ⟨-, -, calm, -⟩
  exact loud calm

theorem arithmetic_is : (arithmetic left right leftType rightType).Is left' right' stored found ↔
    left = left' ∧ right = right' ∧
      ((leftType = integerType ↔ rightType = integerType) ∧ sumType leftType rightType = found) ∧
        found = stored := by
  by_cases left_integer : leftType = integerType <;> by_cases right_integer : rightType = integerType
  · simp [arithmetic, sumType, left_integer, right_integer, operation_is]
  · have real : integerType ≠ realType := by decide
    simp [arithmetic, left_integer, right_integer, real, widening, not_operation_is]
  · have real : integerType ≠ realType := by decide
    simp [arithmetic, left_integer, right_integer, real, widening, not_operation_is]
  · by_cases reals : leftType = realType ∧ rightType = realType <;>
      simp [arithmetic, sumType, left_integer, right_integer, reals, operation_is]

theorem division_is : (division left right).Is left' right' stored found ↔
    left = left' ∧ right = right' ∧
      ((left.type ≠ integerType ∧ right.type ≠ integerType) ∧ realType = found) ∧ found = stored := by
  by_cases left_integer : left.type = integerType <;> by_cases right_integer : right.type = integerType <;>
    simp [division, wideningInteger, widening, left_integer, right_integer, operation_is, not_operation_is]

theorem integerOperation_is :
    (∃ o, integerOperation pos op left right leftType rightType = some o ∧ o.Is left' right' stored found) ↔
      left = left' ∧ right = right' ∧
        ((leftType = integerType ∧ rightType = integerType) ∧ integerType = found) ∧ found = stored := by
  unfold integerOperation
  split_ifs with both mixed
  · simp [both, operation_is]
  · simp [both, widening, not_operation_is]
  · simp [both, not_operation_is]

theorem binaryOperation_is :
    (∃ o, binaryOperation pos op left right leftType rightType = some o ∧ o.Is left' right' stored found) ↔
      left = left' ∧ right = right' ∧ op.Stays leftType rightType left.type right.type found ∧ found = stored := by
  cases op with
  | add | sub | mul => simpa [binaryOperation, BinaryOp.Stays] using arithmetic_is
  | divide => simpa [binaryOperation, BinaryOp.Stays] using division_is
  | div | mod | or | and => exact integerOperation_is

/-- A relation is calm if both sides are integers or none is. -/
theorem comparison_is : (comparison left right leftType rightType).Is left' right' stored found ↔
    left = left' ∧ right = right' ∧ (leftType = integerType ↔ rightType = integerType) ∧ integerType = stored ∧
      (if leftType = integerType then integerType else voidType) = found := by
  by_cases left_integer : leftType = integerType <;> by_cases right_integer : rightType = integerType
  · simp [comparison, left_integer, right_integer, Operation.Is]
  · simp [comparison, left_integer, right_integer, widening, not_operation_is]
  · simp [comparison, left_integer, right_integer, widening, not_operation_is]
  · simp [comparison, left_integer, right_integer, Operation.Is]

end Operators

theorem keeps_binary {op : BinaryOp} {left right : Expr} :
    (Expr.binary n op left right).Keeps table found ↔ ∃ leftType rightType, left.Keeps table leftType ∧
      right.Keeps table rightType ∧ op.Stays leftType rightType left.type right.type found ∧ found = n.type := by
  simp only [Expr.Keeps, Expr.check, leaves_andThen]
  constructor
  · rintro ⟨left', leftType, l, right', rightType, r, leaves⟩
    cases operation : binaryOperation n.pos op left' right' leftType rightType with
    | none => simp [operation] at leaves
    | some o =>
      simp only [operation, leaves_done, Expr.binary.injEq, note_eq_iff, true_and] at leaves
      obtain ⟨⟨stored, left_same, right_same⟩, calm, found⟩ := leaves
      have is : o.Is left right n.type _ := ⟨left_same, right_same, calm, stored, found⟩
      obtain ⟨rfl, rfl, stays, type⟩ := binaryOperation_is.mp ⟨o, operation, is⟩
      exact ⟨leftType, rightType, l, r, stays, type⟩
  · rintro ⟨leftType, rightType, l, r, stays, type⟩
    have is : ∃ o, binaryOperation n.pos op left right leftType rightType = some o ∧
        o.Is left right n.type found :=
      binaryOperation_is.mpr ⟨rfl, rfl, stays, type⟩
    obtain ⟨o, operation, left_same, right_same, calm, stored, found⟩ := is
    refine ⟨left, leftType, l, right, rightType, r, ?_⟩
    simp only [operation, leaves_done, Expr.binary.injEq, note_eq_iff, true_and]
    exact ⟨⟨stored, left_same, right_same⟩, calm, found⟩

theorem keeps_relation {op : RelationOp} {left right : Expr} :
    (Expr.relation n op left right).Keeps table found ↔ ∃ leftType rightType, left.Keeps table leftType ∧
      right.Keeps table rightType ∧ (leftType = integerType ↔ rightType = integerType) ∧ integerType = n.type ∧
      (if leftType = integerType then integerType else voidType) = found := by
  have operation (l r : Expr) (leftType rightType : SymbolIndex) :
      (done (Expr.relation ⟨n.pos, (comparison l r leftType rightType).stored⟩ op
          (comparison l r leftType rightType).left (comparison l r leftType rightType).right)
        (comparison l r leftType rightType).events (comparison l r leftType rightType).found).Leaves
          (.relation n op left right) found ↔
        l = left ∧ r = right ∧ (leftType = integerType ↔ rightType = integerType) ∧ integerType = n.type ∧
          (if leftType = integerType then integerType else voidType) = found := by
    rw [← comparison_is]
    simp only [leaves_done, Expr.relation.injEq, note_eq_iff, Operation.Is]
    tauto
  simp only [Expr.Keeps, Expr.check, leaves_andThen, operation]
  constructor
  · rintro ⟨_, leftType, l, _, rightType, r, rfl, rfl, stays⟩
    exact ⟨leftType, rightType, l, r, stays⟩
  · rintro ⟨leftType, rightType, l, r, stays⟩
    exact ⟨left, leftType, l, right, rightType, r, rfl, rfl, stays⟩

/-! ### Calls -/

variable (table) in
/-- Checking leaves the arguments alone. -/
def ArgsKeep (es : List Expr) : Prop :=
  (checkArgs table es).Leaves es ()

theorem argsKeep_nil : ArgsKeep table [] := by
  simp [ArgsKeep, checkArgs]

theorem argsKeep_cons {e : Expr} {es : List Expr} :
    ArgsKeep table (e :: es) ↔ (∃ t, e.Keeps table t) ∧ ArgsKeep table es := by
  simp only [ArgsKeep, Expr.Keeps, checkArgs, leaves_andThen, leaves_done, List.cons.injEq, calm_nil, and_true]
  constructor
  · rintro ⟨_, _, others, _, t, first, rfl, rfl⟩
    exact ⟨⟨t, first⟩, others⟩
  · rintro ⟨⟨t, first⟩, others⟩
    exact ⟨es, (), others, e, t, first, rfl, rfl⟩

variable (table) in
/-- Matching parameters with arguments of these types, both from the last one on, converts and reports
nothing: each pair is of one type, up to one that is passed over. -/
def Rematches : List SymbolIndex → List SymbolIndex → Prop
  | [], [] => True
  | param :: params, type :: types => ∃ symbol, table.get? param = some symbol ∧
    (symbol.type = type ∧ Rematches params types ∨ ¬Takes symbol.type type ∧ symbol.type ≠ integerType)
  | _, _ => False

theorem rematches_cons {param type : SymbolIndex} {params types : List SymbolIndex} {symbol : Symbol}
    (found : table.get? param = some symbol) :
    Rematches table (param :: params) (type :: types) ↔
      symbol.type = type ∧ Rematches table params types ∨ ¬Takes symbol.type type ∧ symbol.type ≠ integerType := by
  simp [Rematches, found]

theorem leaves_behind {c : Checked (List Expr) Bool} {arg : Expr} {args : List Expr} {fits : Bool} :
    (⟨arg :: c.tree, c.events, c.result⟩ : Checked (List Expr) Bool).Leaves (arg :: args) fits ↔
      c.Leaves args fits := by
  constructor
  · rintro ⟨tree, calm, result⟩
    exact ⟨(List.cons.inj tree).2, calm, result⟩
  · rintro ⟨rfl, calm, result⟩
    exact ⟨rfl, calm, result⟩

theorem leaves_matchReversed (pos : Position) (params : List SymbolIndex) (args : List Expr) :
    (∃ fits, (matchReversed table pos params args).Leaves args fits) ↔
      Rematches table params (args.map Expr.type) := by
  fun_induction matchReversed table pos params args with
  | case1 => simp [Rematches]
  | case2 args nonempty =>
    cases args with
    | nil => exact absurd rfl nonempty
    | cons arg args => simp [Rematches]
  | case3 param params => simp [Rematches]
  | case4 param params arg args outside => simp [Rematches, outside]
  | case5 param params arg args symbol found equal c ih =>
    have takes : Takes symbol.type arg.type := .inl equal
    have no_misfit : ¬(¬Takes symbol.type arg.type ∧ symbol.type ≠ integerType) := fun misfit => misfit.1 takes
    rw [List.map_cons, rematches_cons found, or_iff_left no_misfit, and_iff_right equal, ← ih]
    exact exists_congr fun _ => leaves_behind
  | case6 param params arg args symbol found different widens c ih =>
    have takes : Takes symbol.type arg.type := .inr widens
    rw [List.map_cons, rematches_cons found]
    refine iff_of_false ?_ (by simp [different, takes])
    rintro ⟨fits, -, calm, -⟩
    exact not_calm_widened _ _ calm
  | case7 param params arg args symbol found different no_widening integer =>
    rw [List.map_cons, rematches_cons found]
    constructor
    · rintro ⟨fits, -, calm, -⟩
      exact absurd calm (not_calm_error _ _ _)
    · rintro (⟨equal, -⟩ | ⟨-, no_integer⟩)
      · exact absurd equal different
      · exact absurd integer no_integer
  | case8 param params arg args symbol found different no_widening no_integer =>
    have misfit : ¬Takes symbol.type arg.type := not_or.mpr ⟨different, no_widening⟩
    rw [List.map_cons, rematches_cons found]
    simp [misfit, no_integer]

@[simp] theorem calm_mismatched (fits : Bool) (name : String) (pos : Position) :
    Calm (if fits then [] else [.mismatched name pos]) := by
  cases fits <;> exact ⟨rfl, rfl⟩

theorem leaves_checkCallee {callee : Reference} {args : List Expr} :
    (checkCallee table callee args).Leaves args found ↔ ∃ routine, table.get? callee.value = some routine ∧
      Rematches table routine.params.reverse (args.map Expr.type).reverse ∧ routine.type = found := by
  unfold checkCallee
  cases table.get? callee.value with
  | none => simp
  | some routine =>
    have matched (fits : Bool) : (matchArguments table callee.pos routine.params args).Leaves args fits ↔
        (matchReversed table callee.pos routine.params.reverse args.reverse).Leaves args.reverse fits := by
      constructor
      · rintro ⟨tree, calm, result⟩
        exact ⟨List.reverse_eq_iff.mp tree, calm, result⟩
      · rintro ⟨tree, calm, result⟩
        exact ⟨List.reverse_eq_iff.mpr tree, calm, result⟩
    simp only [leaves_andThen, leaves_done, calm_mismatched, Option.some.injEq, exists_eq_left', true_and]
    rw [← List.map_reverse, ← leaves_matchReversed callee.pos]
    simp only [← matched]
    constructor
    · rintro ⟨_, fits, leaves, rfl, type⟩
      exact ⟨⟨fits, leaves⟩, type⟩
    · rintro ⟨⟨fits, leaves⟩, type⟩
      exact ⟨args, fits, leaves, rfl, type⟩

/-- What is matched calmly comes out as it went in. -/
theorem leaves_checkCallee_eq {callee : Reference} {args args' : List Expr}
    (leaves : (checkCallee table callee args).Leaves args' found) : args' = args := by
  have widens := (leads_checkCallee table callee args).1
  rw [leaves.calm.2, leaves.tree] at widens
  exact widens.eq_of_zero

theorem keeps_call {callee : Reference} {args : List Expr} :
    (Expr.call n callee args).Keeps table found ↔ ArgsKeep table args ∧
      (checkCallee table callee args).Leaves args found ∧ found = n.type := by
  simp only [Expr.Keeps, ArgsKeep, Expr.check, leaves_andThen, leaves_done, Expr.call.injEq, note_eq_iff,
    calm_nil, true_and]
  constructor
  · rintro ⟨args', _, as, args'', type, matched, ⟨stored, rfl⟩, rfl⟩
    obtain rfl := leaves_checkCallee_eq matched
    exact ⟨as, matched, stored⟩
  · rintro ⟨as, matched, stored⟩
    exact ⟨args, (), as, args, found, matched, ⟨stored, rfl⟩, rfl⟩

/-! ## Statements -/

section

variable (table)

/-- Checking leaves the statement alone, and finds whether it returns. -/
def Stmt.Keeps (s : Stmt) (returns : Bool) : Prop :=
  (s.check table).Leaves s returns

def Elsif.Keeps (e : Elsif) (returns : Bool) : Prop :=
  (e.check table).Leaves e returns

def ElsifsKeep (es : List Elsif) (returns : Bool) : Prop :=
  (checkElsifs table es).Leaves es returns

/-- Checking leaves the body alone. -/
def BodyKeeps (b : List Stmt) (returns : Bool) : Prop :=
  (checkBody table b).Leaves b returns

end

variable {p : Position} {returns : Bool}

@[simp] theorem calm_unlessInteger {type : SymbolIndex} {pos : Position} {e : TypeError} :
    Calm (unlessInteger type pos e) ↔ type = integerType :=
  calm_unless ..

theorem assigned_is {value value' : Expr} {targetType valueType : SymbolIndex} :
    (assigned table p value targetType valueType).1 = value' ∧
        Calm (assigned table p value targetType valueType).2 ↔
      value = value' ∧ targetType = valueType := by
  unfold assigned
  split_ifs with equal widens
  · simp [equal]
  · simp [equal, widening]
  · simp [equal]

theorem keeps_assign {target value : Expr} :
    (Stmt.assign p target value).Keeps table returns ↔
      ∃ t, target.Keeps table t ∧ value.Keeps table t ∧ false = returns := by
  simp only [Stmt.Keeps, Expr.Keeps, Stmt.check, leaves_andThen, leaves_done, Stmt.assign.injEq, true_and]
  constructor
  · rintro ⟨_, targetType, t, value', valueType, v, ⟨rfl, same⟩, calm, end_returns⟩
    obtain ⟨rfl, rfl⟩ := assigned_is.mp ⟨same, calm⟩
    exact ⟨targetType, t, v, end_returns⟩
  · rintro ⟨type, t, v, end_returns⟩
    have kept : assigned table p value type type = (value, []) := if_pos rfl
    refine ⟨target, type, t, value, type, v, ?_⟩
    rw [kept]
    exact ⟨⟨rfl, rfl⟩, calm_nil, end_returns⟩

theorem keeps_loop {condition : Expr} {body : List Stmt} :
    (Stmt.loop p condition body).Keeps table returns ↔
      condition.Keeps table integerType ∧ BodyKeeps table body returns := by
  simp only [Stmt.Keeps, Expr.Keeps, BodyKeeps, Stmt.check, leaves_andThen, leaves_after, calm_unlessInteger,
    leaves_done, Stmt.loop.injEq, calm_nil, true_and]
  constructor
  · rintro ⟨_, _, c, rfl, _, _, b, ⟨rfl, rfl⟩, rfl⟩
    exact ⟨c, b⟩
  · rintro ⟨c, b⟩
    exact ⟨condition, integerType, c, rfl, body, returns, b, ⟨rfl, rfl⟩, rfl⟩

theorem keeps_branch {condition : Expr} {body : List Stmt} {elsifs : List Elsif} :
    (Stmt.branch p condition body elsifs none).Keeps table returns ↔ condition.Keeps table integerType ∧
      ∃ r r', BodyKeeps table body r ∧ ElsifsKeep table elsifs r' ∧ (r || r') = returns := by
  simp only [Stmt.Keeps, Expr.Keeps, BodyKeeps, ElsifsKeep, Stmt.check, leaves_andThen, leaves_after,
    calm_unlessInteger, leaves_done, Stmt.branch.injEq, calm_nil, true_and, and_true]
  constructor
  · rintro ⟨_, _, c, _, r, b, rfl, _, r', es, ⟨rfl, rfl, rfl⟩, end_returns⟩
    exact ⟨c, r, r', b, es, end_returns⟩
  · rintro ⟨c, r, r', b, es, end_returns⟩
    exact ⟨condition, integerType, c, body, r, b, rfl, elsifs, r', es, ⟨rfl, rfl, rfl⟩, end_returns⟩

theorem keeps_branchElse {condition : Expr} {body : List Stmt} {elsifs : List Elsif} {otherwise : List Stmt} :
    (Stmt.branch p condition body elsifs (some otherwise)).Keeps table returns ↔
      condition.Keeps table integerType ∧ ∃ r r' r'', BodyKeeps table body r ∧ ElsifsKeep table elsifs r' ∧
        BodyKeeps table otherwise r'' ∧ (r || r' || r'') = returns := by
  simp only [Stmt.Keeps, Expr.Keeps, BodyKeeps, ElsifsKeep, Stmt.check, leaves_andThen, leaves_after,
    calm_unlessInteger, leaves_done, Stmt.branch.injEq, Option.some.injEq, calm_nil, true_and]
  constructor
  · rintro ⟨_, _, c, _, r, b, rfl, _, r', es, _, r'', o, ⟨rfl, rfl, rfl, rfl⟩, end_returns⟩
    exact ⟨c, r, r', r'', b, es, o, end_returns⟩
  · rintro ⟨c, r, r', r'', b, es, o, end_returns⟩
    exact ⟨condition, integerType, c, body, r, b, rfl, elsifs, r', es, otherwise, r'', o, ⟨rfl, rfl, rfl, rfl⟩,
      end_returns⟩

theorem keeps_ret :
    (Stmt.ret p none).Keeps table returns ↔
      ∃ routine, table.get? table.currentEnvironment = some routine ∧ routine.kind = .procedure ∧
        true = returns := by
  simp only [Stmt.Keeps, Stmt.check, checkReturn, leaves_andThen]
  cases table.get? table.currentEnvironment with
  | none => simp
  | some routine => simp

theorem calm_returned {routine : Symbol} {value : Expr} {found : SymbolIndex} :
    Calm (returned routine p value found) ↔ routine.kind = .function ∧ routine.type = found := by
  unfold returned
  split_ifs with kind type <;> simp_all

theorem keeps_retValue {value : Expr} :
    (Stmt.ret p (some value)).Keeps table returns ↔
      ∃ routine, table.get? table.currentEnvironment = some routine ∧ routine.kind = .function ∧
        value.Keeps table routine.type ∧ true = returns := by
  simp only [Stmt.Keeps, Expr.Keeps, Stmt.check, checkReturn, leaves_andThen]
  cases table.get? table.currentEnvironment with
  | none => simp
  | some routine =>
    simp only [leaves_andThen, leaves_done, Option.some.injEq, exists_eq_left', Stmt.ret.injEq, calm_returned,
      calm_nil, true_and]
    constructor
    · rintro ⟨_, _, ⟨value', _, v, rfl, ⟨function, rfl⟩, -⟩, same, end_returns⟩
      cases same
      exact ⟨function, v, end_returns⟩
    · rintro ⟨function, v, end_returns⟩
      exact ⟨some value, (), ⟨value, routine.type, v, rfl, ⟨function, rfl⟩, trivial⟩, rfl, end_returns⟩

theorem keeps_callStmt {callee : Reference} {args : List Expr} :
    (Stmt.call p callee args).Keeps table returns ↔ ArgsKeep table args ∧
      (∃ t, (checkCallee table callee args).Leaves args t) ∧ false = returns := by
  simp only [Stmt.Keeps, ArgsKeep, Stmt.check, checkCall, leaves_andThen, leaves_done, Stmt.call.injEq,
    calm_nil, true_and]
  constructor
  · rintro ⟨args'', type, ⟨args', _, as, matched⟩, rfl, end_returns⟩
    obtain rfl := leaves_checkCallee_eq matched
    exact ⟨as, ⟨type, matched⟩, end_returns⟩
  · rintro ⟨as, ⟨type, matched⟩, end_returns⟩
    exact ⟨args, type, ⟨args, (), as, matched⟩, rfl, end_returns⟩

theorem keeps_clause {condition : Expr} {body : List Stmt} :
    (Elsif.clause p condition body).Keeps table returns ↔
      (∃ t, condition.Keeps table t) ∧ condition.type = integerType ∧ BodyKeeps table body returns := by
  simp only [Elsif.Keeps, Expr.Keeps, BodyKeeps, Elsif.check, leaves_andThen, leaves_done, Elsif.clause.injEq,
    calm_unlessInteger, true_and]
  constructor
  · rintro ⟨_, _, b, _, t, c, ⟨rfl, rfl⟩, integer, rfl⟩
    exact ⟨⟨t, c⟩, integer, b⟩
  · rintro ⟨⟨t, c⟩, integer, b⟩
    exact ⟨body, returns, b, condition, t, c, ⟨rfl, rfl⟩, integer, rfl⟩

theorem elsifsKeep_nil : ElsifsKeep table [] returns ↔ false = returns := by
  simp [ElsifsKeep, checkElsifs]

theorem elsifsKeep_cons {e : Elsif} {es : List Elsif} :
    ElsifsKeep table (e :: es) returns ↔
      ∃ r r', e.Keeps table r ∧ ElsifsKeep table es r' ∧ (r || r') = returns := by
  simp only [ElsifsKeep, Elsif.Keeps, checkElsifs, leaves_andThen, leaves_done, List.cons.injEq, calm_nil,
    true_and]
  constructor
  · rintro ⟨_, r', others, _, r, first, ⟨rfl, rfl⟩, end_returns⟩
    exact ⟨r, r', first, others, end_returns⟩
  · rintro ⟨r, r', first, others, end_returns⟩
    exact ⟨es, r', others, e, r, first, ⟨rfl, rfl⟩, end_returns⟩

theorem bodyKeeps_nil : BodyKeeps table [] returns ↔ false = returns := by
  simp [BodyKeeps, checkBody]

theorem bodyKeeps_cons {s : Stmt} {b : List Stmt} :
    BodyKeeps table (s :: b) returns ↔
      ∃ r r', s.Keeps table r ∧ BodyKeeps table b r' ∧ (r || r') = returns := by
  simp only [BodyKeeps, Stmt.Keeps, checkBody, leaves_andThen, leaves_done, List.cons.injEq, calm_nil, true_and]
  constructor
  · rintro ⟨_, r', others, _, r, first, ⟨rfl, rfl⟩, end_returns⟩
    exact ⟨r, r', first, others, end_returns⟩
  · rintro ⟨r, r', first, others, end_returns⟩
    exact ⟨b, r', others, s, r, first, ⟨rfl, rfl⟩, end_returns⟩

/-! ## Routines -/

theorem leaves_bodyCheck {env : SymbolIndex} {b : Body} :
    (b.check table env).Leaves b () ↔ ∃ routine, table.get? env = some routine ∧
      ∃ returns, BodyKeeps table b returns ∧ (routine.kind = .function → returns = true) := by
  unfold Body.check
  cases table.get? env with
  | none => simp
  | some routine =>
    have missing (returns : Bool) : Calm (missingReturn routine b returns) ↔
        (routine.kind = .function → returns = true) := by
      unfold missingReturn
      split_ifs with faulty <;> simp_all
    have inner : ((checkBody table b).andThen id fun body returns =>
        done body (missingReturn routine body returns) ()).Leaves b () ↔
          ∃ returns, BodyKeeps table b returns ∧ (routine.kind = .function → returns = true) := by
      simp only [leaves_andThen, leaves_done, and_true, ← missing]
      constructor
      · rintro ⟨_, returns, kept, rfl, calm⟩
        exact ⟨returns, kept, calm⟩
      · rintro ⟨returns, kept, calm⟩
        exact ⟨b, returns, kept, rfl, calm⟩
    simp only [Option.some.injEq, exists_eq_left', ← inner]
    -- the begin and the end of a check are calm
    generalize (checkBody table b).andThen id _ = c
    constructor
    · rintro ⟨tree, calm, result⟩
      rw [List.cons_append, ← List.singleton_append, calm_append, calm_append] at calm
      exact ⟨tree, calm.2.1, result⟩
    · rintro ⟨tree, calm, result⟩
      refine ⟨tree, ?_, result⟩
      rw [List.cons_append, ← List.singleton_append, calm_append, calm_append, result]
      exact ⟨⟨rfl, rfl⟩, calm, rfl, rfl⟩

end MiniPascal
