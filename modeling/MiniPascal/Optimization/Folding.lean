import MiniPascal.Optimization.Arithmetic

/-!
# Constant folding

Folding replaces operations on two literals by a literal. An expression is folded by what
holds it: conditions, values, operands of relations and of unary operators are folded after
they were optimized, while the arguments of calls are optimized only. Names of constants
are left as they are, and nothing is done below a cast or in the target of an assignment.
-/

namespace MiniPascal

/-- A tree after folding, and the number of operations that became literals. -/
structure Folded (τ : Type) where
  tree : τ
  count : Nat

namespace Folded

variable {τ υ φ : Type}

def unchanged (tree : τ) : Folded τ := ⟨tree, 0⟩

def map (f : τ → υ) (a : Folded τ) : Folded υ :=
  ⟨f a.tree, a.count⟩

def map₂ (f : τ → υ → φ) (a : Folded τ) (b : Folded υ) : Folded φ :=
  ⟨f a.tree b.tree, a.count + b.count⟩

@[simp] theorem tree_map (f : τ → υ) (a : Folded τ) : (a.map f).tree = f a.tree := rfl

@[simp] theorem count_map (f : τ → υ) (a : Folded τ) : (a.map f).count = a.count := rfl

@[simp] theorem tree_map₂ (f : τ → υ → φ) (a : Folded τ) (b : Folded υ) :
    (map₂ f a b).tree = f a.tree b.tree := rfl

@[simp] theorem count_map₂ (f : τ → υ → φ) (a : Folded τ) (b : Folded υ) :
    (map₂ f a b).count = a.count + b.count := rfl

end Folded

/-! ## Expressions -/

/-- Folds an operation whose operands are folded: two literals of the type that is stored
for the operation become one. -/
def foldOperation (n : Note) (op : BinaryOp) (left right : Expr) : Folded Expr :=
  match left, right with
  | .integer _ a, .integer _ b =>
    if n.type = integerType then
      match op.foldIntegers a b with
      | some v => ⟨.integer n v, 1⟩
      | none => .unchanged (.binary n op left right)
    else .unchanged (.binary n op left right)
  | .real _ a, .real _ b =>
    if n.type = realType then ⟨.real n (op.onReals a b), 1⟩
    else .unchanged (.binary n op left right)
  | _, _ => .unchanged (.binary n op left right)

/-- Folds nested operations from the inside out, also in the index of an array. -/
def Expr.fold : Expr → Folded Expr
  | .binary n op left right =>
    let l := left.fold
    let r := right.fold
    let o := foldOperation n op l.tree r.tree
    ⟨o.tree, l.count + r.count + o.count⟩
  | .element n array index => index.fold.map (.element n array)
  | e => .unchanged e

mutual

/-- Folds what an expression holds, and leaves the expression itself to its holder. -/
def Expr.optimize : Expr → Folded Expr
  | .element n array index => index.fold.map (.element n array)
  | .negate n inner =>
    let e := inner.optimize
    let f := e.tree.fold
    ⟨.negate n f.tree, e.count + f.count⟩
  | .not n inner =>
    let e := inner.optimize
    let f := e.tree.fold
    ⟨.not n f.tree, e.count + f.count⟩
  | .call n callee args => (optimizeArgs args).map (.call n callee)
  | .relation n op left right =>
    let l := left.optimize
    let lf := l.tree.fold
    let r := right.optimize
    let rf := r.tree.fold
    ⟨.relation n op lf.tree rf.tree, l.count + lf.count + (r.count + rf.count)⟩
  | e => .unchanged e

def optimizeArgs : List Expr → Folded (List Expr)
  | [] => .unchanged []
  | e :: es => .map₂ (· :: ·) e.optimize (optimizeArgs es)

end

def Expr.optimizeAndFold (e : Expr) : Folded Expr :=
  let o := e.optimize
  let f := o.tree.fold
  ⟨f.tree, o.count + f.count⟩

/-! ## Statements -/

mutual

def Stmt.optimize : Stmt → Folded Stmt
  | .assign p target value => value.optimizeAndFold.map (.assign p target)
  | .branch p condition body elsifs none =>
    let c := condition.optimizeAndFold
    let b := optimizeBody body
    let es := optimizeElsifs elsifs
    ⟨.branch p c.tree b.tree es.tree none, c.count + b.count + es.count⟩
  | .branch p condition body elsifs (some otherwise) =>
    let c := condition.optimizeAndFold
    let b := optimizeBody body
    let es := optimizeElsifs elsifs
    let o := optimizeBody otherwise
    ⟨.branch p c.tree b.tree es.tree (some o.tree), c.count + b.count + es.count + o.count⟩
  | .loop p condition body => .map₂ (.loop p) condition.optimizeAndFold (optimizeBody body)
  | .ret p none => .unchanged (.ret p none)
  | .ret p (some value) => value.optimizeAndFold.map fun value => .ret p (some value)
  | .call p callee args => (optimizeArgs args).map (.call p callee)

def Elsif.optimize : Elsif → Folded Elsif
  | .clause p condition body =>
    .map₂ (.clause p) condition.optimizeAndFold (optimizeBody body)

def optimizeElsifs : List Elsif → Folded (List Elsif)
  | [] => .unchanged []
  | e :: es => .map₂ (· :: ·) e.optimize (optimizeElsifs es)

def optimizeBody : List Stmt → Folded (List Stmt)
  | [] => .unchanged []
  | s :: ss => .map₂ (· :: ·) s.optimize (optimizeBody ss)

end

end MiniPascal
