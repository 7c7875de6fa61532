import MiniPascal.Proofs.Folding.Statements
import MiniPascal.Proofs.Syntax.Parts

/-!
# What folding does to a tree

Folding an expression puts literals in the place of operations and leaves the rest alone. Each literal
takes the type that was stored for the operation. As an operation less is left with each literal, a tree
that has as many operations as before is the tree from before, and folding twice is folding once.
-/

namespace MiniPascal

/-! ## Folded expressions -/

/-- The second expression is the first with literals in the place of operations on literals. -/
inductive Expr.Folds : Expr → Expr → Prop
  | refl (e) : Expr.Folds e e
  | element (n array) {index index'} : Expr.Folds index index' →
    Expr.Folds (.element n array index) (.element n array index')
  | negate (n) {inner inner'} : Expr.Folds inner inner' → Expr.Folds (.negate n inner) (.negate n inner')
  | not (n) {inner inner'} : Expr.Folds inner inner' → Expr.Folds (.not n inner) (.not n inner')
  | call (n callee) {args args'} : List.Forall₂ Expr.Folds args args' →
    Expr.Folds (.call n callee args) (.call n callee args')
  | binary (n op) {left left' right right'} : Expr.Folds left left' → Expr.Folds right right' →
    Expr.Folds (.binary n op left right) (.binary n op left' right')
  | relation (n op) {left left' right right'} : Expr.Folds left left' → Expr.Folds right right' →
    Expr.Folds (.relation n op left right) (.relation n op left' right')
  | integers (n op) {left right m m' a b v} : Expr.Folds left (.integer m a) → Expr.Folds right (.integer m' b) →
    n.type = integerType → op.foldIntegers a b = some v → Expr.Folds (.binary n op left right) (.integer n v)
  | reals (n op) {left right m m' a b} : Expr.Folds left (.real m a) → Expr.Folds right (.real m' b) →
    n.type = realType → Expr.Folds (.binary n op left right) (.real n (op.onReals a b))

theorem Expr.Folds.type_eq {e e' : Expr} (folds : e.Folds e') : e'.type = e.type := by
  cases folds <;> rfl

mutual

theorem Expr.Folds.trans {e f g : Expr} (first : e.Folds f) (second : f.Folds g) : e.Folds g := by
  cases first with
  | refl => exact second
  | element n array i =>
    cases second with
    | refl => exact .element n array i
    | element _ _ i' => exact .element n array (i.trans i')
  | negate n i =>
    cases second with
    | refl => exact .negate n i
    | negate _ i' => exact .negate n (i.trans i')
  | not n i =>
    cases second with
    | refl => exact .not n i
    | not _ i' => exact .not n (i.trans i')
  | call n callee as =>
    cases second with
    | refl => exact .call n callee as
    | call _ _ as' => exact .call n callee (argsFold_trans as as')
  | binary n op l r =>
    cases second with
    | refl => exact .binary n op l r
    | binary _ _ l' r' => exact .binary n op (l.trans l') (r.trans r')
    | integers _ _ l' r' integer folded => exact .integers n op (l.trans l') (r.trans r') integer folded
    | reals _ _ l' r' real => exact .reals n op (l.trans l') (r.trans r') real
  | relation n op l r =>
    cases second with
    | refl => exact .relation n op l r
    | relation _ _ l' r' => exact .relation n op (l.trans l') (r.trans r')
  -- nothing is done to a literal
  | integers n op l r integer folded =>
    cases second
    exact .integers n op l r integer folded
  | reals n op l r real =>
    cases second
    exact .reals n op l r real
termination_by sizeOf e
decreasing_by all_goals subst_vars; simp +arith

theorem argsFold_trans {es fs gs : List Expr} (first : List.Forall₂ Expr.Folds es fs)
    (second : List.Forall₂ Expr.Folds fs gs) : List.Forall₂ Expr.Folds es gs := by
  cases first with
  | nil => exact second
  | cons e es =>
    cases second with
    | cons f fs => exact .cons (e.trans f) (argsFold_trans es fs)
termination_by sizeOf es
decreasing_by all_goals subst_vars; simp +arith

end

/-! ## What the pass does -/

theorem folds_foldOperation (n : Note) (op : BinaryOp) (left right : Expr) :
    (Expr.binary n op left right).Folds (foldOperation n op left right).tree := by
  unfold foldOperation
  split
  next =>
    split
    next integer =>
      split
      next folded => exact .integers n op (.refl _) (.refl _) integer folded
      next => exact .refl _
    next => exact .refl _
  next =>
    split
    next real => exact .reals n op (.refl _) (.refl _) real
    next => exact .refl _
  next => exact .refl _

theorem folds_fold (e : Expr) : e.Folds e.fold.tree := by
  match e with
  | .binary n op left right =>
    have inside := Expr.Folds.binary n op (folds_fold left) (folds_fold right)
    exact inside.trans (folds_foldOperation n op left.fold.tree right.fold.tree)
  | .element n array index => exact .element n array (folds_fold index)
  | .name .. | .integer .. | .real .. | .cast .. | .negate .. | .not .. | .call .. | .relation .. => exact .refl _
termination_by sizeOf e

mutual

theorem folds_optimize (e : Expr) : e.Folds e.optimize.tree := by
  match e with
  | .element n array index => exact .element n array (folds_fold index)
  | .negate n inner => exact .negate n ((folds_optimize inner).trans (folds_fold _))
  | .not n inner => exact .not n ((folds_optimize inner).trans (folds_fold _))
  | .call n callee args => exact .call n callee (folds_optimizeArgs args)
  | .relation n op left right =>
    have l := (folds_optimize left).trans (folds_fold _)
    have r := (folds_optimize right).trans (folds_fold _)
    exact .relation n op l r
  | .name .. | .integer .. | .real .. | .cast .. | .binary .. => exact .refl _
termination_by sizeOf e

theorem folds_optimizeArgs (es : List Expr) : List.Forall₂ Expr.Folds es (optimizeArgs es).tree := by
  match es with
  | [] => exact .nil
  | e :: es => exact .cons (folds_optimize e) (folds_optimizeArgs es)
termination_by sizeOf es

end

theorem folds_optimizeAndFold (e : Expr) : e.Folds e.optimizeAndFold.tree :=
  (folds_optimize e).trans (folds_fold _)

/-- The pass folds the expressions of a body, and does nothing else. -/
theorem folds_optimizeBody (b : Body) : BodyAlike Expr.Folds b (optimizeBody b).tree :=
  alike_optimizeBody folds_optimizeAndFold folds_optimize b

/-! ## Operations that are left -/

/-- A tree that is not the one from before has less operations. -/
def Shrinks {τ : Type} (parts : τ → List Expr) (before after : τ) : Prop :=
  after = before ∨ Form.binary.count (parts after) < Form.binary.count (parts before)

section Shrinking

variable {τ υ : Type} {ps : τ → List Expr} {qs : υ → List Expr} {t t' : τ} {u u' : υ}

/-- A pair shrinks if both sides do. -/
theorem Shrinks.append (first : Shrinks ps t t') (second : Shrinks qs u u') :
    Shrinks (fun pair => ps pair.1 ++ qs pair.2) (t, u) (t', u') := by
  simp only [Shrinks, Form.count_append]
  rcases first with rfl | first_less
  · rcases second with rfl | second_less
    · exact .inl rfl
    · exact .inr (by omega)
  · rcases second with rfl | second_less
    · exact .inr (by omega)
    · exact .inr (by omega)

/-- What is built around a tree shrinks with it, if the same is added whatever the tree is. -/
theorem Shrinks.map (shrinks : Shrinks ps t t') (f : τ → υ) (k : Nat)
    (counted : ∀ t, Form.binary.count (qs (f t)) = Form.binary.count (ps t) + k) : Shrinks qs (f t) (f t') := by
  rcases shrinks with rfl | less
  · exact .inl rfl
  · exact .inr (by rw [counted, counted]; omega)

end Shrinking

mutual

theorem Expr.Folds.shrinks {e e' : Expr} (folds : e.Folds e') : Shrinks Expr.parts e e' := by
  cases folds with
  | refl => exact .inl rfl
  | element n array i =>
    refine i.shrinks.map (Expr.element n array) 0 fun _ => ?_
    simp [Expr.parts, Expr.form, Form.tally]
  | negate n i =>
    refine i.shrinks.map (Expr.negate n) 0 fun _ => ?_
    simp [Expr.parts, Expr.form, Form.tally]
  | not n i =>
    refine i.shrinks.map (Expr.not n) 0 fun _ => ?_
    simp [Expr.parts, Expr.form, Form.tally]
  | call n callee as =>
    refine (shrinks_args as).map (Expr.call n callee) 0 fun _ => ?_
    simp [Expr.parts, Expr.form, Form.tally]
  | binary n op l r =>
    -- the operation itself counts
    refine (l.shrinks.append r.shrinks).map (fun q => Expr.binary n op q.1 q.2) 1 fun _ => ?_
    simp [Expr.parts, Expr.form]
  | relation n op l r =>
    refine (l.shrinks.append r.shrinks).map (fun q => Expr.relation n op q.1 q.2) 0 fun _ => ?_
    simp [Expr.parts, Expr.form, Form.tally]
  | integers n op | reals n op =>
    right
    simp [Expr.parts, Expr.form, Form.tally]
termination_by sizeOf e
decreasing_by all_goals subst_vars; simp +arith

theorem shrinks_args {es es' : List Expr} (fold : List.Forall₂ Expr.Folds es es') : Shrinks argParts es es' := by
  cases fold with
  | nil => exact .inl rfl
  | cons e es =>
    exact (e.shrinks.append (shrinks_args es)).map (fun q => q.1 :: q.2) 0 fun _ => rfl
termination_by sizeOf es
decreasing_by all_goals subst_vars; simp +arith

end

mutual

theorem shrinks_of_alike {s s' : Stmt} (alike : s.Alike Expr.Folds s') : Shrinks Stmt.parts s s' := by
  cases alike with
  | assign p target value =>
    -- nothing is done to the target
    refine value.shrinks.map (Stmt.assign p target) (Form.binary.count target.parts) fun _ => ?_
    rw [Stmt.parts, Form.count_append, Nat.add_comm]
  | branch p condition body elsifs =>
    have front := condition.shrinks.append (shrinks_of_bodyAlike body)
    exact (front.append (shrinks_of_elsifsAlike elsifs)).map
      (fun q => Stmt.branch p q.1.1 q.1.2 q.2 none) 0 fun _ => rfl
  | branchElse p condition body elsifs rest =>
    have front := (condition.shrinks.append (shrinks_of_bodyAlike body)).append (shrinks_of_elsifsAlike elsifs)
    exact (front.append (shrinks_of_bodyAlike rest)).map
      (fun q => Stmt.branch p q.1.1.1 q.1.1.2 q.1.2 (some q.2)) 0 fun _ => rfl
  | loop p condition body =>
    have parts := condition.shrinks.append (shrinks_of_bodyAlike body)
    exact parts.map (fun q => Stmt.loop p q.1 q.2) 0 fun _ => rfl
  | ret p => exact .inl rfl
  | retValue p value => exact value.shrinks.map (fun q => Stmt.ret p (some q)) 0 fun _ => rfl
  | call p callee args => exact (shrinks_args args).map (Stmt.call p callee) 0 fun _ => rfl
termination_by sizeOf s
decreasing_by all_goals subst_vars; simp +arith

theorem shrinks_of_elsifsAlike {es es' : List Elsif} (alike : List.Forall₂ (Elsif.Alike Expr.Folds) es es') :
    Shrinks elsifParts es es' := by
  cases alike with
  | nil => exact .inl rfl
  | cons first others =>
    cases first with
    | clause p condition body =>
      have front := condition.shrinks.append (shrinks_of_bodyAlike body)
      exact (front.append (shrinks_of_elsifsAlike others)).map
        (fun q => Elsif.clause p q.1.1 q.1.2 :: q.2) 0 fun _ => rfl
termination_by sizeOf es
decreasing_by all_goals subst_vars; simp +arith

theorem shrinks_of_bodyAlike {b b' : Body} (alike : BodyAlike Expr.Folds b b') : Shrinks bodyParts b b' := by
  cases alike with
  | nil => exact .inl rfl
  | cons first others =>
    have parts := (shrinks_of_alike first).append (shrinks_of_bodyAlike others)
    exact parts.map (fun q => q.1 :: q.2) 0 fun _ => rfl
termination_by sizeOf b
decreasing_by all_goals subst_vars; simp +arith

end

/-- A folded body with as many operations as before is the body from before. -/
theorem BodyAlike.eq_of_count {b b' : Body} (alike : BodyAlike Expr.Folds b b')
    (count : Form.binary.count (bodyParts b') = Form.binary.count (bodyParts b)) : b' = b := by
  rcases shrinks_of_bodyAlike alike with same | less
  · exact same
  · exact absurd count (Nat.ne_of_lt less)

/-! ## Folding twice -/

/-- There is a literal after folding, or the operation is as before. -/
theorem foldOperation_cases (n : Note) (op : BinaryOp) (left right : Expr) :
    (foldOperation n op left right).tree = .binary n op left right ∨
      (∃ v, (foldOperation n op left right).tree = .integer n v) ∨
      ∃ v, (foldOperation n op left right).tree = .real n v := by
  unfold foldOperation
  split
  next =>
    split
    next =>
      split
      next v folded => exact .inr (.inl ⟨v, rfl⟩)
      next => exact .inl rfl
    next => exact .inl rfl
  next a _ b =>
    split
    next => exact .inr (.inr ⟨op.onReals a b, rfl⟩)
    next => exact .inl rfl
  next => exact .inl rfl

theorem fold_fold (e : Expr) : e.fold.tree.fold.tree = e.fold.tree := by
  match e with
  | .binary n op left right =>
    have l := fold_fold left
    have r := fold_fold right
    rw [Expr.fold]
    rcases foldOperation_cases n op left.fold.tree right.fold.tree with same | ⟨v, literal⟩ | ⟨v, literal⟩
    · rw [same, Expr.fold, l, r, same]
    · rw [literal]
      rfl
    · rw [literal]
      rfl
  | .element n array index => simp only [Expr.fold, Folded.tree_map, fold_fold index]
  | .name .. | .integer .. | .real .. | .cast .. | .negate .. | .not .. | .call .. | .relation .. => rfl
termination_by sizeOf e

/-- Folding what was optimized leaves nothing to optimize. -/
theorem optimize_fold {e : Expr} (optimized : e.optimize.tree = e) : e.fold.tree.optimize.tree = e.fold.tree := by
  match e with
  | .binary n op left right =>
    rw [Expr.fold]
    rcases foldOperation_cases n op left.fold.tree right.fold.tree with same | ⟨v, literal⟩ | ⟨v, literal⟩
    · rw [same]
      rfl
    · rw [literal]
      rfl
    · rw [literal]
      rfl
  | .element n array index => simp only [Expr.fold, Folded.tree_map, Expr.optimize, fold_fold index]
  | .name .. | .integer .. | .real .. | .cast .. => rfl
  | .negate .. | .not .. | .call .. | .relation .. => exact optimized

mutual

theorem optimize_optimize (e : Expr) : e.optimize.tree.optimize.tree = e.optimize.tree := by
  match e with
  | .element n array index => simp only [Expr.optimize, Folded.tree_map, fold_fold]
  | .negate n inner | .not n inner =>
    have i := optimize_fold (optimize_optimize inner)
    simp only [Expr.optimize, i, fold_fold]
  | .call n callee args => simp only [Expr.optimize, Folded.tree_map, optimizeArgs_optimizeArgs args]
  | .relation n op left right =>
    have l := optimize_fold (optimize_optimize left)
    have r := optimize_fold (optimize_optimize right)
    simp only [Expr.optimize, l, r, fold_fold]
  | .name .. | .integer .. | .real .. | .cast .. | .binary .. => rfl
termination_by sizeOf e

theorem optimizeArgs_optimizeArgs (es : List Expr) :
    (optimizeArgs (optimizeArgs es).tree).tree = (optimizeArgs es).tree := by
  match es with
  | [] => rfl
  | e :: es => simp only [optimizeArgs, Folded.tree_map₂, optimize_optimize e, optimizeArgs_optimizeArgs es]
termination_by sizeOf es

end

theorem optimizeAndFold_optimizeAndFold (e : Expr) :
    e.optimizeAndFold.tree.optimizeAndFold.tree = e.optimizeAndFold.tree := by
  have optimized := optimize_fold (optimize_optimize e)
  simp only [Expr.optimizeAndFold, optimized, fold_fold]

mutual

theorem optimize_optimizeStmt (s : Stmt) : s.optimize.tree.optimize.tree = s.optimize.tree := by
  match s with
  | .assign p target value => simp only [Stmt.optimize, Folded.tree_map, optimizeAndFold_optimizeAndFold]
  | .branch p condition body elsifs none =>
    simp only [Stmt.optimize, optimizeAndFold_optimizeAndFold, optimizeBody_optimizeBody body,
      optimizeElsifs_optimizeElsifs elsifs]
  | .branch p condition body elsifs (some otherwise) =>
    simp only [Stmt.optimize, optimizeAndFold_optimizeAndFold, optimizeBody_optimizeBody body,
      optimizeElsifs_optimizeElsifs elsifs, optimizeBody_optimizeBody otherwise]
  | .loop p condition body =>
    simp only [Stmt.optimize, Folded.tree_map₂, optimizeAndFold_optimizeAndFold, optimizeBody_optimizeBody body]
  | .ret p none => rfl
  | .ret p (some value) => simp only [Stmt.optimize, Folded.tree_map, optimizeAndFold_optimizeAndFold]
  | .call p callee args => simp only [Stmt.optimize, Folded.tree_map, optimizeArgs_optimizeArgs]
termination_by sizeOf s

theorem optimizeElsifs_optimizeElsifs (es : List Elsif) :
    (optimizeElsifs (optimizeElsifs es).tree).tree = (optimizeElsifs es).tree := by
  match es with
  | [] => rfl
  | .clause p condition body :: es =>
    simp only [optimizeElsifs, Elsif.optimize, Folded.tree_map₂, optimizeAndFold_optimizeAndFold,
      optimizeBody_optimizeBody body, optimizeElsifs_optimizeElsifs es]
termination_by sizeOf es

/-- A second pass does nothing. -/
theorem optimizeBody_optimizeBody (b : Body) :
    (optimizeBody (optimizeBody b).tree).tree = (optimizeBody b).tree := by
  match b with
  | [] => rfl
  | s :: b =>
    simp only [optimizeBody, Folded.tree_map₂, optimize_optimizeStmt s, optimizeBody_optimizeBody b]
termination_by sizeOf b

end

end MiniPascal
