import MiniPascal.Checking.Body
import MiniPascal.Proofs.Checking.Outcome
import MiniPascal.Proofs.Retyping.Erasure

/-!
# Checking ignores stored types

Checking overwrites the type of an expression before anything looks at it. A run on a tree and
one on the tree without its types report the same and end in the same tree.
-/

namespace MiniPascal

open Checked

variable (table : SymbolTable)

mutual

theorem sameRun_check (e : Expr) : SameRun (e.check table) (e.untyped.check table) := by
  match e with
  -- the type is overwritten, or checking stops and the types stay different
  | .name n s =>
    simp only [Expr.check, Expr.untyped]
    split
    · exact sameRun_stopped _ _
    · exact .refl _
  | .element n array index =>
    simp only [Expr.check, Expr.untyped]
    split
    · exact sameRun_stopped _ _
    · exact (sameRun_check index).andThen fun _ _ => .refl _
  | .integer .. | .real .. => exact .refl _
  | .cast n inner | .negate n inner | .not n inner =>
    exact (sameRun_check inner).andThen fun _ _ => .refl _
  | .call n callee args =>
    exact (sameRun_checkArgs args).andThen fun args _ =>
      (SameRun.refl (checkCallee table callee args)).andThen fun _ _ => .refl _
  | .binary n op left right =>
    -- from here on both runs see the same checked operands
    refine (sameRun_check left).andThen fun left leftType => ?_
    refine (sameRun_check right).andThen fun right rightType => ?_
    simp only [Note.untyped]
    split
    · exact sameRun_stopped _ _
    · exact .refl _
  | .relation n op left right =>
    exact (sameRun_check left).andThen fun _ _ =>
      (sameRun_check right).andThen fun _ _ => .refl _
termination_by sizeOf e

theorem sameRun_checkArgs (es : List Expr) : SameRun (checkArgs table es) (checkArgs table (argsUntyped es)) := by
  match es with
  | [] => exact .refl _
  | e :: es =>
    exact (sameRun_checkArgs es).andThen fun _ _ => (sameRun_check e).andThen fun _ _ => .refl _
termination_by sizeOf es

end

theorem sameRun_checkCall (callee : Reference) (args : List Expr) :
    SameRun (checkCall table callee args) (checkCall table callee (argsUntyped args)) :=
  (sameRun_checkArgs table args).andThen fun _ _ => .refl _

theorem sameRun_checkReturn (p : Position) (value : Option Expr) :
    SameRun (checkReturn table p value) (checkReturn table p (value.map Expr.untyped)) := by
  unfold checkReturn
  split
  · exact sameRun_stopped _ _
  · cases value with
    | none => exact .refl _
    | some value => exact (sameRun_check table value).andThen fun _ _ => .refl _

mutual

theorem sameRun_checkStmt (s : Stmt) : SameRun (s.check table) (s.untyped.check table) := by
  match s with
  | .assign p target value =>
    rw [Stmt.untyped, Stmt.check, Stmt.check]
    exact (sameRun_check table target).andThen fun _ _ =>
      (sameRun_check table value).andThen fun _ _ => .refl _
  | .loop p condition body =>
    rw [Stmt.untyped, Stmt.check, Stmt.check]
    exact (sameRun_check table condition).andThen fun _ _ =>
      ((sameRun_checkBody body).andThen fun _ _ => .refl _).after _
  | .branch p condition body elsifs none =>
    rw [Stmt.untyped, Stmt.check, Stmt.check]
    exact (sameRun_check table condition).andThen fun _ _ =>
      (sameRun_checkBody body).andThen fun _ _ =>
        ((sameRun_checkElsifs elsifs).andThen fun _ _ => .refl _).after _
  | .branch p condition body elsifs (some otherwise) =>
    rw [Stmt.untyped, Stmt.check, Stmt.check]
    exact (sameRun_check table condition).andThen fun _ _ =>
      (sameRun_checkBody body).andThen fun _ _ =>
        ((sameRun_checkElsifs elsifs).andThen fun _ _ =>
          (sameRun_checkBody otherwise).andThen fun _ _ => .refl _).after _
  | .ret p none => exact .refl _
  | .ret p (some value) =>
    rw [Stmt.untyped, Stmt.check, Stmt.check]
    exact (sameRun_checkReturn table p (some value)).andThen fun _ _ => .refl _
  | .call p callee args =>
    rw [Stmt.untyped, Stmt.check, Stmt.check]
    exact (sameRun_checkCall table callee args).andThen fun _ _ => .refl _
termination_by sizeOf s

theorem sameRun_checkElsif (e : Elsif) : SameRun (e.check table) (e.untyped.check table) := by
  match e with
  | .clause p condition body =>
    rw [Elsif.untyped, Elsif.check, Elsif.check]
    exact (sameRun_checkBody body).andThen fun _ _ =>
      (sameRun_check table condition).andThen fun _ _ => .refl _
termination_by sizeOf e

theorem sameRun_checkElsifs (es : List Elsif) :
    SameRun (checkElsifs table es) (checkElsifs table (elsifsUntyped es)) := by
  match es with
  | [] => exact .refl _
  | e :: es =>
    exact (sameRun_checkElsifs es).andThen fun _ _ => (sameRun_checkElsif e).andThen fun _ _ => .refl _
termination_by sizeOf es

theorem sameRun_checkBody (b : List Stmt) : SameRun (checkBody table b) (checkBody table (bodyUntyped b)) := by
  match b with
  | [] => exact .refl _
  | s :: b =>
    exact (sameRun_checkBody b).andThen fun _ _ => (sameRun_checkStmt s).andThen fun _ _ => .refl _
termination_by sizeOf b

end

/-- Checking the body of a routine does not depend on the types that are stored in it. -/
theorem sameRun_bodyCheck (env : SymbolIndex) (b : Body) :
    SameRun (b.check table env) (Body.check table env (bodyUntyped b)) := by
  unfold Body.check
  split
  · exact sameRun_stopped _ _
  next routine _ =>
    have inner : SameRun
        ((checkBody table b).andThen id fun body returns =>
          Checked.done body (missingReturn routine body returns) ())
        ((checkBody table (bodyUntyped b)).andThen id fun body returns =>
          Checked.done body (missingReturn routine body returns) ()) :=
      (sameRun_checkBody table b).andThen fun _ _ => .refl _
    -- the log tells the length of the body, which is kept
    refine ⟨?_, inner.result, inner.tree⟩
    simp only [inner.events, inner.result, length_bodyUntyped]

/-- So two bodies that differ in nothing else are checked alike. -/
theorem sameRun_of_untyped_eq (env : SymbolIndex) {b c : Body} (alike : bodyUntyped b = bodyUntyped c) :
    SameRun (b.check table env) (c.check table env) :=
  (sameRun_bodyCheck table env b).trans (alike ▸ (sameRun_bodyCheck table env c).symm)

end MiniPascal
