import MiniPascal.Proofs.Checking.Laws
import MiniPascal.Proofs.Folding.Reduction

/-!
# Laws that folding keeps

A law says something about every expression of a tree. Folding keeps it if every form of expression may get
folded parts, and if the law also holds of the literals that take the place of operations.
-/

namespace MiniPascal

/-- What an expression keeps when its parts are folded, and passes on to the literal in its place. -/
structure FoldLaw (Node : Expr → Prop) : Prop where
  element : ∀ n array index index', Node (.element n array index) → Node (.element n array index')
  negate : ∀ n inner inner', Node (.negate n inner) → Node (.negate n inner')
  not : ∀ n inner inner', Node (.not n inner) → Node (.not n inner')
  call : ∀ n callee args args', Node (.call n callee args) → Node (.call n callee args')
  binary : ∀ n op left left' right right', left.Folds left' → right.Folds right' →
    Node (.binary n op left right) → Node (.binary n op left' right')
  relation : ∀ n op left left' right right', Node (.relation n op left right) → Node (.relation n op left' right')
  integers : ∀ n op left right a b v, n.type = integerType → op.foldIntegers a b = some v →
    Node (.binary n op left right) → Node (.integer n v)
  reals : ∀ n op left right a b, n.type = realType → Node (.binary n op left right) →
    Node (.real n (op.onReals a b))

namespace FoldLaw

variable {Node : Expr → Prop}

mutual

theorem folds (law : FoldLaw Node) {e e' : Expr} (folds : e.Folds e') (holds : All Node e.parts) :
    All Node e'.parts := by
  cases folds with
  | refl => exact holds
  | element n array i =>
    obtain ⟨own, index⟩ := all_cons.mp holds
    exact all_cons.mpr ⟨law.element _ _ _ _ own, law.folds i index⟩
  | negate n i =>
    obtain ⟨own, inner⟩ := all_cons.mp holds
    exact all_cons.mpr ⟨law.negate _ _ _ own, law.folds i inner⟩
  | not n i =>
    obtain ⟨own, inner⟩ := all_cons.mp holds
    exact all_cons.mpr ⟨law.not _ _ _ own, law.folds i inner⟩
  | call n callee as =>
    obtain ⟨own, args⟩ := all_cons.mp holds
    exact all_cons.mpr ⟨law.call _ _ _ _ own, law.foldsArgs as args⟩
  | binary n op l r =>
    obtain ⟨own, parts⟩ := all_cons.mp holds
    obtain ⟨left, right⟩ := all_append.mp parts
    exact all_cons.mpr ⟨law.binary _ _ _ _ _ _ l r own, all_append.mpr ⟨law.folds l left, law.folds r right⟩⟩
  | relation n op l r =>
    obtain ⟨own, parts⟩ := all_cons.mp holds
    obtain ⟨left, right⟩ := all_append.mp parts
    exact all_cons.mpr ⟨law.relation _ _ _ _ _ _ own, all_append.mpr ⟨law.folds l left, law.folds r right⟩⟩
  -- the operation is gone with all that was in it
  | integers n op l r integer folded =>
    exact List.forall_mem_singleton.mpr (law.integers _ _ _ _ _ _ _ integer folded (all_cons.mp holds).1)
  | reals n op l r real =>
    exact List.forall_mem_singleton.mpr (law.reals _ _ _ _ _ _ real (all_cons.mp holds).1)
termination_by sizeOf e
decreasing_by all_goals subst_vars; simp +arith

theorem foldsArgs (law : FoldLaw Node) {es es' : List Expr} (folds : List.Forall₂ Expr.Folds es es')
    (holds : All Node (argParts es)) : All Node (argParts es') := by
  cases folds with
  | nil => exact holds
  | cons first others =>
    obtain ⟨first_holds, others_hold⟩ := all_append.mp holds
    exact all_append.mpr ⟨law.folds first first_holds, law.foldsArgs others others_hold⟩
termination_by sizeOf es
decreasing_by all_goals subst_vars; simp +arith

end

mutual

theorem foldsStmt (law : FoldLaw Node) {s s' : Stmt} (alike : s.Alike Expr.Folds s') (holds : All Node s.parts) :
    All Node s'.parts := by
  cases alike with
  | assign p target value =>
    obtain ⟨target_holds, value_holds⟩ := all_append.mp holds
    exact all_append.mpr ⟨target_holds, law.folds value value_holds⟩
  | branch p condition body elsifs =>
    obtain ⟨front, elsifs_hold⟩ := all_append.mp holds
    obtain ⟨condition_holds, body_holds⟩ := all_append.mp front
    exact all_append.mpr ⟨all_append.mpr ⟨law.folds condition condition_holds, law.foldsBody body body_holds⟩,
      law.foldsElsifs elsifs elsifs_hold⟩
  | branchElse p condition body elsifs rest =>
    obtain ⟨front, rest_holds⟩ := all_append.mp holds
    obtain ⟨front, elsifs_hold⟩ := all_append.mp front
    obtain ⟨condition_holds, body_holds⟩ := all_append.mp front
    exact all_append.mpr ⟨all_append.mpr ⟨all_append.mpr
      ⟨law.folds condition condition_holds, law.foldsBody body body_holds⟩,
      law.foldsElsifs elsifs elsifs_hold⟩, law.foldsBody rest rest_holds⟩
  | loop p condition body =>
    obtain ⟨condition_holds, body_holds⟩ := all_append.mp holds
    exact all_append.mpr ⟨law.folds condition condition_holds, law.foldsBody body body_holds⟩
  | ret p => exact holds
  | retValue p value => exact law.folds value holds
  | call p callee args => exact law.foldsArgs args holds
termination_by sizeOf s
decreasing_by all_goals subst_vars; simp +arith

theorem foldsElsifs (law : FoldLaw Node) {es es' : List Elsif} (alike : List.Forall₂ (Elsif.Alike Expr.Folds) es es')
    (holds : All Node (elsifParts es)) : All Node (elsifParts es') := by
  cases alike with
  | nil => exact holds
  | cons first others =>
    cases first with
    | clause p condition body =>
      obtain ⟨first_holds, others_hold⟩ := all_append.mp holds
      obtain ⟨condition_holds, body_holds⟩ := all_append.mp first_holds
      exact all_append.mpr ⟨all_append.mpr ⟨law.folds condition condition_holds, law.foldsBody body body_holds⟩,
        law.foldsElsifs others others_hold⟩
termination_by sizeOf es
decreasing_by all_goals subst_vars; simp +arith

/-- What every expression of a body keeps, the body behind a pass has as well. -/
theorem foldsBody (law : FoldLaw Node) {b b' : Body} (alike : BodyAlike Expr.Folds b b')
    (holds : All Node (bodyParts b)) : All Node (bodyParts b') := by
  cases alike with
  | nil => exact holds
  | cons first others =>
    obtain ⟨first_holds, others_hold⟩ := all_append.mp holds
    exact all_append.mpr ⟨law.foldsStmt first first_holds, law.foldsBody others others_hold⟩
termination_by sizeOf b
decreasing_by all_goals subst_vars; simp +arith

end

end FoldLaw

end MiniPascal
