import MiniPascal.Optimization.Folding
import MiniPascal.Proofs.Folding.Integers

/-!
# Folding preserves values

An interpretation says what names, reads of arrays, calls and operators mean. Only operations
whose stored type fits their operands have a meaning of their own: on integers they are exact,
and on reals they are the operations of doubles. Folding keeps the value of every expression
under all interpretations, and also where there is none.
-/

namespace MiniPascal

/-! ## Values -/

/-- A number, or whatever else an interpretation computes with. -/
inductive Value (ω : Type*) where
  | integer (n : Int)
  | real (x : Float)
  | other (w : ω)

/-- The meaning of all that folding does not compute. The first argument of a function is what
is named or applied, the second the stored type of the expression, and there may be no value. -/
structure Interpretation (ω : Type*) where
  name : SymbolIndex → SymbolIndex → Option (Value ω)
  element : SymbolIndex → SymbolIndex → Value ω → Option (Value ω)
  call : SymbolIndex → SymbolIndex → List (Value ω) → Option (Value ω)
  cast : SymbolIndex → Value ω → Option (Value ω)
  negate : SymbolIndex → Value ω → Option (Value ω)
  not : SymbolIndex → Value ω → Option (Value ω)
  binary : BinaryOp → SymbolIndex → Value ω → Value ω → Option (Value ω)
  relation : RelationOp → SymbolIndex → Value ω → Value ω → Option (Value ω)

variable {ω : Type*} (I : Interpretation ω)

/-- The value of a binary operation that is stored with a type. -/
def Interpretation.operation (op : BinaryOp) (type : SymbolIndex) :
    Value ω → Value ω → Option (Value ω)
  | .integer a, .integer b =>
    if type = integerType then (op.onIntegers a b).map .integer
    else I.binary op type (.integer a) (.integer b)
  | .real a, .real b =>
    if type = realType then some (.real (op.onReals a b)) else I.binary op type (.real a) (.real b)
  | a, b => I.binary op type a b

mutual

/-- The value of an expression, unless a part of it has none. -/
def Expr.value : Expr → Option (Value ω)
  | .name n s => I.name s n.type
  | .element n array index => do I.element array.value n.type (← index.value)
  | .integer _ v => some (.integer v)
  | .real _ v => some (.real v)
  | .cast n inner => do I.cast n.type (← inner.value)
  | .negate n inner => do I.negate n.type (← inner.value)
  | .not n inner => do I.not n.type (← inner.value)
  | .call n callee args => do I.call callee.value n.type (← argValues args)
  | .binary n op left right => do I.operation op n.type (← left.value) (← right.value)
  | .relation n op left right => do I.relation op n.type (← left.value) (← right.value)

def argValues : List Expr → Option (List (Value ω))
  | [] => some []
  | e :: es => do return (← e.value) :: (← argValues es)

end

/-! ## Folding -/

theorem onIntegers_of_foldIntegers {op : BinaryOp} {a b v : Int} (folds : op.foldIntegers a b = some v) :
    op.onIntegers a b = some v := by
  rw [foldIntegers_eq] at folds
  split at folds
  · obtain ⟨w, exact_value, within⟩ := Option.bind_eq_some_iff.mp folds
    unfold limited at within
    split at within
    · rwa [← Option.some.inj within]
    · contradiction
  · contradiction

theorem value_foldOperation (n : Note) (op : BinaryOp) (left right : Expr) :
    (foldOperation n op left right).tree.value I = (Expr.binary n op left right).value I := by
  unfold foldOperation
  split
  next a b =>
    split
    -- a folded literal is an integer like the operation it replaces
    next integer =>
      split
      next v folds =>
        simp [Expr.value, Interpretation.operation, integer, onIntegers_of_foldIntegers folds]
      next => rfl
    next => rfl
  next a b =>
    split
    next real => simp [Expr.value, Interpretation.operation, real]
    next => rfl
  next => rfl

/-- Folding keeps the value of an expression. -/
theorem value_fold (e : Expr) : e.fold.tree.value I = e.value I := by
  match e with
  | .binary n op left right =>
    have l := value_fold left
    have r := value_fold right
    rw [Expr.fold, value_foldOperation]
    simp only [Expr.value, l, r]
  | .element n array index =>
    have i := value_fold index
    simp only [Expr.fold, Folded.tree_map, Expr.value, i]
  -- folding does not look into anything else
  | .name .. | .integer .. | .real .. | .cast .. | .negate .. | .not .. | .call .. | .relation .. => rfl
termination_by sizeOf e

/-! ## Optimizing -/

mutual

/-- Folding what an expression holds keeps its value. -/
theorem value_optimize (e : Expr) : e.optimize.tree.value I = e.value I := by
  match e with
  | .element n array index =>
    simp only [Expr.optimize, Folded.tree_map, Expr.value, value_fold]
  | .negate n inner | .not n inner =>
    have i := value_optimize inner
    simp only [Expr.optimize, Expr.value, value_fold, i]
  | .call n callee args =>
    have as := argValues_optimizeArgs args
    simp only [Expr.optimize, Folded.tree_map, Expr.value, as]
  | .relation n op left right =>
    have l := value_optimize left
    have r := value_optimize right
    simp only [Expr.optimize, Expr.value, value_fold, l, r]
  | .name .. | .integer .. | .real .. | .cast .. | .binary .. => rfl
termination_by sizeOf e

theorem argValues_optimizeArgs (es : List Expr) :
    argValues I (optimizeArgs es).tree = argValues I es := by
  match es with
  | [] => rfl
  | e :: es =>
    have first := value_optimize e
    have others := argValues_optimizeArgs es
    simp only [optimizeArgs, Folded.tree_map₂, argValues, first, others]
termination_by sizeOf es

end

theorem value_optimizeAndFold (e : Expr) : e.optimizeAndFold.tree.value I = e.value I := by
  rw [Expr.optimizeAndFold, value_fold, value_optimize]

end MiniPascal
