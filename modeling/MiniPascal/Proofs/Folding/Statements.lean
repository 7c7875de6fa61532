import MiniPascal.Optimization.Level
import MiniPascal.Proofs.Folding.Meaning
import Mathlib.Data.List.Forall2

/-!
# Folding preserves bodies

Folding a body leaves all statements where they are. What changes are the expressions that a
statement holds, and each of them keeps its value.
-/

namespace MiniPascal

mutual

/-- Statements of the same form at the same place, with the same targets and callees. The other
expressions are related one by one. -/
inductive Stmt.Alike (R : Expr → Expr → Prop) : Stmt → Stmt → Prop
  | assign (p target) {value value'} : R value value' →
    Stmt.Alike R (.assign p target value) (.assign p target value')
  | branch (p) {condition condition' body body' elsifs elsifs'} : R condition condition' →
    List.Forall₂ (Stmt.Alike R) body body' → List.Forall₂ (Elsif.Alike R) elsifs elsifs' →
    Stmt.Alike R (.branch p condition body elsifs none) (.branch p condition' body' elsifs' none)
  | branchElse (p) {condition condition' body body' elsifs elsifs' rest rest'} : R condition condition' →
    List.Forall₂ (Stmt.Alike R) body body' → List.Forall₂ (Elsif.Alike R) elsifs elsifs' →
    List.Forall₂ (Stmt.Alike R) rest rest' →
    Stmt.Alike R (.branch p condition body elsifs (some rest))
      (.branch p condition' body' elsifs' (some rest'))
  | loop (p) {condition condition' body body'} : R condition condition' →
    List.Forall₂ (Stmt.Alike R) body body' →
    Stmt.Alike R (.loop p condition body) (.loop p condition' body')
  | ret (p) : Stmt.Alike R (.ret p none) (.ret p none)
  | retValue (p) {value value'} : R value value' →
    Stmt.Alike R (.ret p (some value)) (.ret p (some value'))
  | call (p callee) {args args'} : List.Forall₂ R args args' →
    Stmt.Alike R (.call p callee args) (.call p callee args')

inductive Elsif.Alike (R : Expr → Expr → Prop) : Elsif → Elsif → Prop
  | clause (p) {condition condition' body body'} : R condition condition' →
    List.Forall₂ (Stmt.Alike R) body body' →
    Elsif.Alike R (.clause p condition body) (.clause p condition' body')

end

/-- Bodies with the same statements in the same order. -/
abbrev BodyAlike (R : Expr → Expr → Prop) : Body → Body → Prop :=
  List.Forall₂ (Stmt.Alike R)

variable {R : Expr → Expr → Prop}

theorem alike_optimizeArgs (argument : ∀ e : Expr, R e e.optimize.tree) (es : List Expr) :
    List.Forall₂ R es (optimizeArgs es).tree := by
  induction es with
  | nil => exact .nil
  | cons e es ih => exact .cons (argument e) ih

mutual

/-- What folding does to expressions is all that it does to a statement. -/
theorem alike_optimize (held : ∀ e : Expr, R e e.optimizeAndFold.tree)
    (argument : ∀ e : Expr, R e e.optimize.tree) (s : Stmt) : s.Alike R s.optimize.tree := by
  match s with
  | .assign p target value => exact .assign p target (held value)
  | .branch p condition body elsifs none =>
    exact .branch p (held condition) (alike_optimizeBody held argument body)
      (alike_optimizeElsifs held argument elsifs)
  | .branch p condition body elsifs (some otherwise) =>
    exact .branchElse p (held condition) (alike_optimizeBody held argument body)
      (alike_optimizeElsifs held argument elsifs) (alike_optimizeBody held argument otherwise)
  | .loop p condition body => exact .loop p (held condition) (alike_optimizeBody held argument body)
  | .ret p none => exact .ret p
  | .ret p (some value) => exact .retValue p (held value)
  | .call p callee args => exact .call p callee (alike_optimizeArgs argument args)
termination_by sizeOf s

theorem alike_optimizeElsif (held : ∀ e : Expr, R e e.optimizeAndFold.tree)
    (argument : ∀ e : Expr, R e e.optimize.tree) (e : Elsif) : e.Alike R e.optimize.tree := by
  match e with
  | .clause p condition body =>
    exact .clause p (held condition) (alike_optimizeBody held argument body)
termination_by sizeOf e

theorem alike_optimizeElsifs (held : ∀ e : Expr, R e e.optimizeAndFold.tree)
    (argument : ∀ e : Expr, R e e.optimize.tree) (es : List Elsif) :
    List.Forall₂ (Elsif.Alike R) es (optimizeElsifs es).tree := by
  match es with
  | [] => exact .nil
  | e :: es =>
    exact .cons (alike_optimizeElsif held argument e) (alike_optimizeElsifs held argument es)
termination_by sizeOf es

theorem alike_optimizeBody (held : ∀ e : Expr, R e e.optimizeAndFold.tree)
    (argument : ∀ e : Expr, R e e.optimize.tree) (b : Body) : BodyAlike R b (optimizeBody b).tree := by
  match b with
  | [] => exact .nil
  | s :: b => exact .cons (alike_optimize held argument s) (alike_optimizeBody held argument b)
termination_by sizeOf b

end

/-- Constant folding keeps the statements of a body, and under every interpretation the values
of all that they hold. -/
theorem constantFolding_preserves {ω : Type*} (I : Interpretation ω) (b : Body) :
    BodyAlike (fun before after => after.value I = before.value I) b (Pass.constantFolding.run b).body :=
  alike_optimizeBody (value_optimizeAndFold I) (value_optimize I) b

end MiniPascal
