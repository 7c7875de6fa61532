import MiniPascal.Proofs.Checking.Settling
import MiniPascal.Proofs.Folding.Reduction

/-!
# Folding and checking again

Checking stores a type in an operation that fits its operator, and in a literal that of its value. So the
literal that takes the place of an operation has the type that would be found for the operation, and a
folded tree is left alone by a check just if the tree from before is.
-/

namespace MiniPascal

open Checked

/-! ## Stored types -/

/-- A type that checking stores in such an expression. -/
def Expr.Fits : Expr → Prop
  | .integer n _ => n.type = integerType
  | .real n _ => n.type = realType
  | .binary n .divide _ _ => n.type = realType
  | .binary n .div _ _ | .binary n .mod _ _ | .binary n .or _ _ | .binary n .and _ _ => n.type = integerType
  | _ => True

/-- The types that are stored in the expressions fit them. -/
def Fitting (es : List Expr) : Prop :=
  ∀ e ∈ es, e.Fits

@[simp] theorem fitting_nil : Fitting [] :=
  List.forall_mem_nil _

@[simp] theorem fitting_cons {e : Expr} {es : List Expr} : Fitting (e :: es) ↔ e.Fits ∧ Fitting es :=
  List.forall_mem_cons

@[simp] theorem fitting_append {es es' : List Expr} : Fitting (es ++ es') ↔ Fitting es ∧ Fitting es' :=
  List.forall_mem_append

theorem fits_binaryOperation {pos : Position} {op : BinaryOp} {left right : Expr}
    {leftType rightType : SymbolIndex} {o : Operation}
    (operation : binaryOperation pos op left right leftType rightType = some o) (left' right' : Expr) :
    (Expr.binary ⟨pos, o.stored⟩ op left' right').Fits := by
  cases op with
  | add | sub | mul => trivial
  | divide =>
    obtain rfl := Option.some.inj operation
    rfl
  | div | mod | or | and =>
    unfold binaryOperation integerOperation at operation
    split_ifs at operation
    · cases operation
      rfl
    · cases operation
      rfl
    · obtain ⟨name, -, rfl⟩ := Option.map_eq_some_iff.mp operation
      rfl

variable {table : SymbolTable}

/-- Checking stores types that fit. -/
theorem checkLaw_fits : CheckLaw table (fun _ => True) Expr.Fits fun _ _ => True where
  name _ _ _ _ _ := ⟨trivial, trivial⟩
  element _ _ _ _ _ _ _ := ⟨trivial, trivial⟩
  integer _ _ _ := ⟨rfl, trivial⟩
  real _ _ _ := ⟨rfl, trivial⟩
  cast _ _ _ _ := ⟨trivial, trivial⟩
  widen _ _ := trivial
  negate _ _ _ _ _ _ := ⟨trivial, trivial⟩
  not _ _ _ _ _ := ⟨trivial, trivial⟩
  call _ _ _ _ _ _ _ := ⟨trivial, trivial⟩
  binary _ _ _ _ _ _ _ _ o _ _ _ operation _ := ⟨fits_binaryOperation operation o.left o.right, trivial⟩
  relation _ _ _ _ _ _ _ _ _ _ _ _ _ := ⟨trivial, trivial⟩

/-- The types that are stored in a body by a check without errors fit. -/
theorem fitting_bodyCheck {env : SymbolIndex} {b : Body} (result : (b.check table env).result = some ())
    (silent : (b.check table env).messages = []) : Fitting (bodyParts (b.check table env).tree) :=
  checkLaw_fits.bodyCheck (fun _ _ => trivial) result silent

/-! ## Folded expressions -/

section Literals

variable {n : Note} {op : BinaryOp} {left right : Expr} (fits : (Expr.binary n op left right).Fits)
include fits

/-- An operation on two integers that has their type is kept like an integer. -/
theorem keeps_integers (l : ∀ t, left.Keeps table t ↔ True ∧ t = integerType)
    (r : ∀ t, right.Keeps table t ↔ True ∧ t = integerType) (integer : n.type = integerType) (v : Int)
    (t : SymbolIndex) :
    (Expr.binary n op left right).Keeps table t ↔ (Expr.integer n v).Keeps table t := by
  rw [keeps_operation l r, keeps_integer, integer]
  cases op with
  | add | sub | mul | div | mod | or | and => simp [BinaryOp.Stays, sumType, eq_comm]
  -- a quotient is real
  | divide => exact absurd (integer.symm.trans fits) (by decide)

/-- An operation on two reals that has their type is kept like a real. -/
theorem keeps_reals (l : ∀ t, left.Keeps table t ↔ True ∧ t = realType)
    (r : ∀ t, right.Keeps table t ↔ True ∧ t = realType) (left_real : left.type = realType)
    (right_real : right.type = realType) (real : n.type = realType) (v : Float) (t : SymbolIndex) :
    (Expr.binary n op left right).Keeps table t ↔ (Expr.real n v).Keeps table t := by
  rw [keeps_operation l r, keeps_real, real, left_real, right_real]
  cases op with
  | add | sub | mul | divide => simp [BinaryOp.Stays, sumType, eq_comm]
  -- these operators are integers
  | div | mod | or | and => exact absurd (fits.symm.trans real) (by decide)

end Literals

mutual

/-- A folded expression is kept just as the one from before. -/
theorem Expr.Folds.keeps_iff {e e' : Expr} (folds : e.Folds e') (fits : Fitting e.parts) :
    Fitting e'.parts ∧ ∀ t, e.Keeps table t ↔ e'.Keeps table t := by
  cases folds with
  | refl => exact ⟨fits, fun _ => Iff.rfl⟩
  | element n array i =>
    obtain ⟨fits', index⟩ := i.keeps_iff (fitting_cons.mp fits).2
    refine ⟨fitting_cons.mpr ⟨trivial, fits'⟩, fun t => ?_⟩
    simp only [keeps_element, index]
  | negate n i =>
    obtain ⟨fits', inner⟩ := i.keeps_iff (fitting_cons.mp fits).2
    refine ⟨fitting_cons.mpr ⟨trivial, fits'⟩, fun t => ?_⟩
    simp only [keeps_negate, inner]
  | not n i =>
    obtain ⟨fits', inner⟩ := i.keeps_iff (fitting_cons.mp fits).2
    refine ⟨fitting_cons.mpr ⟨trivial, fits'⟩, fun t => ?_⟩
    simp only [keeps_not, inner, i.type_eq]
  | call n callee as =>
    obtain ⟨fits', types, args⟩ := argsKeep_iff as (fitting_cons.mp fits).2
    refine ⟨fitting_cons.mpr ⟨trivial, fits'⟩, fun t => ?_⟩
    simp only [keeps_call, leaves_checkCallee, types, args]
  | binary n op l r =>
    obtain ⟨own, parts⟩ := fitting_cons.mp fits
    obtain ⟨left_fits, right_fits⟩ := fitting_append.mp parts
    obtain ⟨left_fits', left⟩ := l.keeps_iff left_fits
    obtain ⟨right_fits', right⟩ := r.keeps_iff right_fits
    refine ⟨fitting_cons.mpr ⟨?_, fitting_append.mpr ⟨left_fits', right_fits'⟩⟩, fun t => ?_⟩
    · cases op <;> exact own
    · simp only [keeps_binary, left, right, l.type_eq, r.type_eq]
  | relation n op l r =>
    obtain ⟨left_fits, right_fits⟩ := fitting_append.mp (fitting_cons.mp fits).2
    obtain ⟨left_fits', left⟩ := l.keeps_iff left_fits
    obtain ⟨right_fits', right⟩ := r.keeps_iff right_fits
    refine ⟨fitting_cons.mpr ⟨trivial, fitting_append.mpr ⟨left_fits', right_fits'⟩⟩, fun t => ?_⟩
    simp only [keeps_relation, left, right]
  | integers n op l r integer folded =>
    obtain ⟨own, parts⟩ := fitting_cons.mp fits
    obtain ⟨left_fits, right_fits⟩ := fitting_append.mp parts
    obtain ⟨left_fits', left⟩ := l.keeps_iff left_fits
    obtain ⟨right_fits', right⟩ := r.keeps_iff right_fits
    have left_integer := (fitting_cons.mp left_fits').1
    have right_integer := (fitting_cons.mp right_fits').1
    refine ⟨fitting_cons.mpr ⟨integer, fitting_nil⟩, keeps_integers own ?_ ?_ integer _⟩
    · simp [left, keeps_integer, left_integer.symm, eq_comm]
    · simp [right, keeps_integer, right_integer.symm, eq_comm]
  | reals n op l r real =>
    obtain ⟨own, parts⟩ := fitting_cons.mp fits
    obtain ⟨left_fits, right_fits⟩ := fitting_append.mp parts
    obtain ⟨left_fits', left⟩ := l.keeps_iff left_fits
    obtain ⟨right_fits', right⟩ := r.keeps_iff right_fits
    have left_real := (fitting_cons.mp left_fits').1
    have right_real := (fitting_cons.mp right_fits').1
    refine ⟨fitting_cons.mpr ⟨real, fitting_nil⟩, ?_⟩
    refine keeps_reals own ?_ ?_ (l.type_eq.symm.trans left_real) (r.type_eq.symm.trans right_real) real _
    · simp [left, keeps_real, left_real.symm, eq_comm]
    · simp [right, keeps_real, right_real.symm, eq_comm]
termination_by sizeOf e
decreasing_by all_goals subst_vars; simp +arith

theorem argsKeep_iff {es es' : List Expr} (folds : List.Forall₂ Expr.Folds es es') (fits : Fitting (argParts es)) :
    Fitting (argParts es') ∧ es'.map Expr.type = es.map Expr.type ∧ (ArgsKeep table es ↔ ArgsKeep table es') := by
  cases folds with
  | nil => exact ⟨fits, rfl, Iff.rfl⟩
  | cons first others =>
    obtain ⟨first_fits, other_fits⟩ := fitting_append.mp fits
    obtain ⟨first_fits', first_keeps⟩ := first.keeps_iff first_fits
    obtain ⟨other_fits', types, others_keep⟩ := argsKeep_iff others other_fits
    refine ⟨fitting_append.mpr ⟨first_fits', other_fits'⟩, ?_, ?_⟩
    · rw [List.map_cons, List.map_cons, first.type_eq, types]
    · simp only [argsKeep_cons, first_keeps, others_keep]
termination_by sizeOf es
decreasing_by all_goals subst_vars; simp +arith

end

theorem Expr.Folds.keeps (table : SymbolTable) {e e' : Expr} (folds : e.Folds e') (fits : Fitting e.parts)
    (t : SymbolIndex) : e.Keeps table t ↔ e'.Keeps table t :=
  (folds.keeps_iff fits).2 t

/-! ## Folded bodies -/

mutual

theorem stmtKeeps_iff {s s' : Stmt} (alike : s.Alike Expr.Folds s') (fits : Fitting s.parts) (r : Bool) :
    s.Keeps table r ↔ s'.Keeps table r := by
  cases alike with
  | assign p target value =>
    have value_keeps := value.keeps table (fitting_append.mp fits).2
    simp only [keeps_assign, value_keeps]
  | branch p condition body elsifs =>
    simp only [Stmt.parts, fitting_append] at fits
    have condition_keeps := condition.keeps table fits.1.1
    simp only [keeps_branch, condition_keeps, bodyKeeps_iff body fits.1.2, elsifsKeep_iff elsifs fits.2]
  | branchElse p condition body elsifs rest =>
    simp only [Stmt.parts, fitting_append] at fits
    have condition_keeps := condition.keeps table fits.1.1.1
    simp only [keeps_branchElse, condition_keeps, bodyKeeps_iff body fits.1.1.2, elsifsKeep_iff elsifs fits.1.2,
      bodyKeeps_iff rest fits.2]
  | loop p condition body =>
    simp only [Stmt.parts, fitting_append] at fits
    have condition_keeps := condition.keeps table fits.1
    simp only [keeps_loop, condition_keeps, bodyKeeps_iff body fits.2]
  | ret p => rfl
  | retValue p value =>
    have value_keeps := value.keeps table fits
    simp only [keeps_retValue, value_keeps]
  | call p callee args =>
    obtain ⟨-, types, args_keep⟩ : _ ∧ _ ∧ (ArgsKeep table _ ↔ ArgsKeep table _) := argsKeep_iff args fits
    simp only [keeps_callStmt, leaves_checkCallee, types, args_keep]
termination_by sizeOf s
decreasing_by all_goals subst_vars; simp +arith

theorem elsifsKeep_iff {es es' : List Elsif} (alike : List.Forall₂ (Elsif.Alike Expr.Folds) es es')
    (fits : Fitting (elsifParts es)) (r : Bool) : ElsifsKeep table es r ↔ ElsifsKeep table es' r := by
  cases alike with
  | nil => rfl
  | cons first others =>
    cases first with
    | clause p condition body =>
      simp only [elsifParts, Elsif.parts, fitting_append] at fits
      have condition_keeps := condition.keeps table fits.1.1
      simp only [elsifsKeep_cons, keeps_clause, condition_keeps, condition.type_eq, bodyKeeps_iff body fits.1.2,
        elsifsKeep_iff others fits.2]
termination_by sizeOf es
decreasing_by all_goals subst_vars; simp +arith

theorem bodyKeeps_iff {b b' : Body} (alike : BodyAlike Expr.Folds b b') (fits : Fitting (bodyParts b)) (r : Bool) :
    BodyKeeps table b r ↔ BodyKeeps table b' r := by
  cases alike with
  | nil => rfl
  | cons first others =>
    obtain ⟨first_fits, other_fits⟩ := fitting_append.mp fits
    simp only [bodyKeeps_cons, stmtKeeps_iff first first_fits, bodyKeeps_iff others other_fits]
termination_by sizeOf b
decreasing_by all_goals subst_vars; simp +arith

end

/-- Checking leaves a folded body alone just if it leaves the body from before alone. -/
theorem leaves_folded_iff {env : SymbolIndex} {b b' : Body} (alike : BodyAlike Expr.Folds b b')
    (fits : Fitting (bodyParts b)) : (b.check table env).Leaves b () ↔ (b'.check table env).Leaves b' () := by
  simp only [leaves_bodyCheck, bodyKeeps_iff alike fits]

end MiniPascal
