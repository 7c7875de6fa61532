import MiniPascal.Symbol.Table
import MiniPascal.Syntax.Basic
import Mathlib.Data.List.Forall2

/-!
# Typing without coercions

The rules of a language that never converts anything silently: an integer beside a real has a
cast around it. They are about the types that are stored in a tree.

The second half says which bodies keep to numbers. Those are the ones whose names, arrays,
functions and parameters are integers and reals, and that compare no two reals.
-/

namespace MiniPascal

/-! ## Operators -/

namespace BinaryOp

/-- Operators on two operands of the type of their result. -/
def isArithmetic : BinaryOp → Bool
  | add | sub | mul => true
  | _ => false

/-- Operators on integers. -/
def isIntegral : BinaryOp → Bool
  | div | mod | or | and => true
  | _ => false

end BinaryOp

def IsNumber (t : SymbolIndex) : Prop :=
  t = integerType ∨ t = realType

/-! ## Typing rules -/

variable (table : SymbolTable)

/-- The types of symbols. -/
def SymbolTable.Types (symbols types : List SymbolIndex) : Prop :=
  List.Forall₂ (fun i t => (table.get? i).map Symbol.type = some t) symbols types

/-- An expression has the type that is stored in it, and so do all its parts. -/
inductive HasType : Expr → SymbolIndex → Prop
  | name (pos s) {symbol} : table.get? s = some symbol →
    HasType (.name ⟨pos, symbol.type⟩ s) symbol.type
  | element (pos array) {symbol index} : table.get? array.value = some symbol →
    HasType index integerType → HasType (.element ⟨pos, symbol.type⟩ array index) symbol.type
  | integer (pos v) : HasType (.integer ⟨pos, integerType⟩ v) integerType
  | real (pos v) : HasType (.real ⟨pos, realType⟩ v) realType
  | cast (pos) {inner} : HasType inner integerType → HasType (.cast ⟨pos, realType⟩ inner) realType
  | negate (pos) {inner t} : HasType inner t → HasType (.negate ⟨pos, t⟩ inner) t
  | not (pos) {inner} : HasType inner integerType →
    HasType (.not ⟨pos, integerType⟩ inner) integerType
  | call (pos callee) {routine args types} : table.get? callee.value = some routine →
    table.Types routine.params types → List.Forall₂ HasType args types →
    HasType (.call ⟨pos, routine.type⟩ callee args) routine.type
  | arithmetic (pos) {op left right t} : op.isArithmetic = true → IsNumber t →
    HasType left t → HasType right t → HasType (.binary ⟨pos, t⟩ op left right) t
  | quotient (pos) {left right} : HasType left realType → HasType right realType →
    HasType (.binary ⟨pos, realType⟩ .divide left right) realType
  | integral (pos) {op left right} : op.isIntegral = true → HasType left integerType →
    HasType right integerType → HasType (.binary ⟨pos, integerType⟩ op left right) integerType
  /-- the operators on integers also take a cast on the left of a real -/
  | mixed (pos note) {op inner right} : op.isIntegral = true → HasType (.cast note inner) realType →
    HasType right realType → HasType (.binary ⟨pos, integerType⟩ op (.cast note inner) right) integerType
  | relation (pos op) {left right t} : IsNumber t → HasType left t → HasType right t →
    HasType (.relation ⟨pos, integerType⟩ op left right) integerType

mutual

/-- A statement in the body of a routine keeps to the rules. -/
inductive Stmt.Typed (routine : Symbol) : Stmt → Prop
  | assign (p) {target value t} : HasType table target t → HasType table value t →
    Stmt.Typed routine (.assign p target value)
  | branch (p) {condition body elsifs} : HasType table condition integerType →
    (∀ s ∈ body, Stmt.Typed routine s) → (∀ e ∈ elsifs, Elsif.Typed routine e) →
    Stmt.Typed routine (.branch p condition body elsifs none)
  | branchElse (p) {condition body elsifs otherwise} : HasType table condition integerType →
    (∀ s ∈ body, Stmt.Typed routine s) → (∀ e ∈ elsifs, Elsif.Typed routine e) →
    (∀ s ∈ otherwise, Stmt.Typed routine s) →
    Stmt.Typed routine (.branch p condition body elsifs (some otherwise))
  | loop (p) {condition body} : HasType table condition integerType →
    (∀ s ∈ body, Stmt.Typed routine s) → Stmt.Typed routine (.loop p condition body)
  | ret (p) : routine.kind = .procedure → Stmt.Typed routine (.ret p none)
  | retValue (p) {value} : routine.kind = .function → HasType table value routine.type →
    Stmt.Typed routine (.ret p (some value))
  | call (p callee) {called args types} : table.get? callee.value = some called →
    table.Types called.params types → List.Forall₂ (HasType table) args types →
    Stmt.Typed routine (.call p callee args)

inductive Elsif.Typed (routine : Symbol) : Elsif → Prop
  | clause (p) {condition body} : HasType table condition integerType →
    (∀ s ∈ body, Stmt.Typed routine s) → Elsif.Typed routine (.clause p condition body)

end

variable {table}

theorem HasType.type_eq {e : Expr} {t : SymbolIndex} (typed : HasType table e t) : e.type = t := by
  cases typed <;> rfl

theorem HasType.widen {e : Expr} (typed : HasType table e integerType) : HasType table e.widen realType :=
  .cast e.pos typed

variable (table)

/-! ## Bodies about numbers -/

/-- The symbol has a type of numbers. -/
def SymbolTable.Numeric (i : SymbolIndex) : Prop :=
  ∃ s, table.get? i = some s ∧ IsNumber s.type

/-- The parameters of a routine have types of numbers. -/
def SymbolTable.NumericParams (callee : SymbolIndex) : Prop :=
  ∀ routine, table.get? callee = some routine → ∀ i ∈ routine.params, table.Numeric i

/-- The type of a symbol, or else no type of numbers. -/
def SymbolTable.typeOf (i : SymbolIndex) : SymbolIndex :=
  ((table.get? i).map Symbol.type).getD voidType

/-- The type of an operation on numbers. -/
def BinaryOp.numberType (left right : SymbolIndex) : BinaryOp → SymbolIndex
  | .add | .sub | .mul => if left = integerType ∧ right = integerType then integerType else realType
  | .divide => realType
  | .div | .mod | .or | .and => integerType

theorem BinaryOp.isNumber_numberType (left right : SymbolIndex) (op : BinaryOp) :
    IsNumber (op.numberType left right) := by
  cases op with
  | add | sub | mul =>
    rw [BinaryOp.numberType]
    split
    · exact .inl rfl
    · exact .inr rfl
  | divide => exact .inr rfl
  | div | mod | or | and => exact .inl rfl

/-- The type that an expression about numbers has in the source language. -/
def Expr.numberType : Expr → SymbolIndex
  | .name _ s => table.typeOf s
  | .element _ array _ => table.typeOf array.value
  | .call _ callee _ => table.typeOf callee.value
  | .integer .. | .not .. | .relation .. => integerType
  | .real .. | .cast .. => realType
  | .negate _ inner => inner.numberType
  | .binary _ op left right => op.numberType left.numberType right.numberType

mutual

/-- An expression about integers and reals only, without casts. Names are those of values, and
one of two compared operands is an integer. -/
def Expr.TwoTyped : Expr → Prop
  | .name _ s => table.Numeric s ∧
    ∃ symbol, table.get? s = some symbol ∧ symbol.kind ∈ [.constant, .variable, .parameter]
  | .element _ array index => table.Numeric array.value ∧ index.TwoTyped
  | .integer .. | .real .. => True
  | .cast .. => False
  | .negate _ inner | .not _ inner => inner.TwoTyped
  | .call _ callee args => table.Numeric callee.value ∧ table.NumericParams callee.value ∧ ArgsTwoTyped args
  | .binary _ _ left right => left.TwoTyped ∧ right.TwoTyped
  | .relation _ _ left right => left.TwoTyped ∧ right.TwoTyped ∧
    (left.numberType table = integerType ∨ right.numberType table = integerType)

def ArgsTwoTyped : List Expr → Prop
  | [] => True
  | e :: es => e.TwoTyped ∧ ArgsTwoTyped es

end

mutual

/-- All expressions of a statement are about integers and reals only. -/
def Stmt.TwoTyped : Stmt → Prop
  | .assign _ target value => target.TwoTyped table ∧ value.TwoTyped table
  | .branch _ condition body elsifs none =>
    condition.TwoTyped table ∧ BodyTwoTyped body ∧ ElsifsTwoTyped elsifs
  | .branch _ condition body elsifs (some otherwise) =>
    condition.TwoTyped table ∧ BodyTwoTyped body ∧ ElsifsTwoTyped elsifs ∧ BodyTwoTyped otherwise
  | .loop _ condition body => condition.TwoTyped table ∧ BodyTwoTyped body
  | .ret _ none => True
  | .ret _ (some value) => value.TwoTyped table
  | .call _ callee args => table.NumericParams callee.value ∧ ArgsTwoTyped table args

def Elsif.TwoTyped : Elsif → Prop
  | .clause _ condition body => condition.TwoTyped table ∧ BodyTwoTyped body

def ElsifsTwoTyped : List Elsif → Prop
  | [] => True
  | e :: es => e.TwoTyped ∧ ElsifsTwoTyped es

def BodyTwoTyped : List Stmt → Prop
  | [] => True
  | s :: ss => s.TwoTyped ∧ BodyTwoTyped ss

end

end MiniPascal
