import MiniPascal.Proofs.Folding.References
import MiniPascal.Proofs.Folding.Slots

/-!
# What folding replaces

An operation gives way to a literal only if there are nothing but operations and literals in it, and the
literal has its place and its type. Everything else stays where it is: what is named, what is called,
arrays, relations, whatever stands below a cast, and an argument of a call even if it is such an operation.
-/

namespace MiniPascal

/-! ## Literals -/

def Expr.IsLiteral : Expr → Prop
  | .integer .. | .real .. => True
  | _ => False

/-- There are only operations and literals in the expression. -/
def Expr.OnlyLiterals : Expr → Prop
  | .integer .. | .real .. => True
  | .binary _ _ left right => left.OnlyLiterals ∧ right.OnlyLiterals
  | _ => False

/-! ## Replaced expressions -/

mutual

/-- What may become of an expression that is held as a value: a literal with its place and its type if there
are only operations and literals in it, or the expression itself with other parts. -/
inductive Expr.Reduces : Expr → Expr → Prop
  | literal {n op left right e'} : left.OnlyLiterals → right.OnlyLiterals → e'.IsLiteral → e'.note = n →
    Expr.Reduces (.binary n op left right) e'
  | stays {e e'} : Expr.Stays e e' → Expr.Reduces e e'

/-- The expression itself is still there, and only its parts may have become others. Those of a cast have not,
and the arguments of a call are still there as well. -/
inductive Expr.Stays : Expr → Expr → Prop
  | same (e) : Expr.Stays e e
  | element (n array) {index index'} : Expr.Reduces index index' →
    Expr.Stays (.element n array index) (.element n array index')
  | negate (n) {inner inner'} : Expr.Reduces inner inner' → Expr.Stays (.negate n inner) (.negate n inner')
  | not (n) {inner inner'} : Expr.Reduces inner inner' → Expr.Stays (.not n inner) (.not n inner')
  | call (n callee) {args args'} : List.Forall₂ Expr.Stays args args' →
    Expr.Stays (.call n callee args) (.call n callee args')
  | binary (n op) {left left' right right'} : Expr.Reduces left left' → Expr.Reduces right right' →
    Expr.Stays (.binary n op left right) (.binary n op left' right')
  | relation (n op) {left left' right right'} : Expr.Reduces left left' → Expr.Reduces right right' →
    Expr.Stays (.relation n op left right) (.relation n op left' right')

end

/-- A literal comes from operations and literals only. -/
theorem Expr.Reduces.onlyLiterals {e e' : Expr} (reduces : e.Reduces e') (literal : e'.IsLiteral) :
    e.OnlyLiterals := by
  cases reduces with
  | literal left right => exact ⟨left, right⟩
  | stays stays =>
    cases stays with
    | same =>
      cases e with
      | integer | real => trivial
      | name | element | cast | negate | not | call | binary | relation => exact literal.elim
    | element | negate | not | call | binary | relation => exact literal.elim

theorem reduces_foldOperation (n : Note) (op : BinaryOp) {left left' right right' : Expr}
    (l : left.Reduces left') (r : right.Reduces right') :
    (Expr.binary n op left right).Reduces (foldOperation n op left' right').tree := by
  have rebuilt : (Expr.binary n op left right).Reduces (.binary n op left' right') := .stays (.binary n op l r)
  unfold foldOperation
  split
  next =>
    split
    next =>
      split
      next => exact .literal (l.onlyLiterals trivial) (r.onlyLiterals trivial) trivial rfl
      next => exact rebuilt
    next => exact rebuilt
  next =>
    split
    next => exact .literal (l.onlyLiterals trivial) (r.onlyLiterals trivial) trivial rfl
    next => exact rebuilt
  next => exact rebuilt

theorem reduces_fold (e : Expr) : e.Reduces e.fold.tree := by
  match e with
  | .binary n op left right => exact reduces_foldOperation n op (reduces_fold left) (reduces_fold right)
  | .element n array index => exact .stays (.element n array (reduces_fold index))
  | .name .. | .integer .. | .real .. | .cast .. | .negate .. | .not .. | .call .. | .relation .. =>
    exact .stays (.same _)
termination_by sizeOf e

/-- An operation is left to folding, and all others are left alone by it once they are optimized. -/
theorem reduces_of_stays {e : Expr} (stays : e.Stays e.optimize.tree) : e.Reduces e.optimizeAndFold.tree := by
  cases e with
  | binary n op left right => exact reduces_fold (.binary n op left right)
  | element n array index =>
    -- the index is folded by both, and the second time nothing is left to do
    have folded : (Expr.element n array index).optimizeAndFold.tree = .element n array index.fold.tree := by
      simp only [Expr.optimizeAndFold, Expr.optimize, Expr.fold, Folded.tree_map, fold_fold]
    rw [folded]
    exact .stays (.element n array (reduces_fold index))
  | name | integer | real | cast | negate | not | call | relation => exact .stays stays

mutual

theorem stays_optimize (e : Expr) : e.Stays e.optimize.tree := by
  match e with
  | .element n array index => exact .element n array (reduces_fold index)
  | .negate n inner => exact .negate n (reduces_of_stays (stays_optimize inner))
  | .not n inner => exact .not n (reduces_of_stays (stays_optimize inner))
  | .call n callee args => exact .call n callee (stays_optimizeArgs args)
  | .relation n op left right =>
    exact .relation n op (reduces_of_stays (stays_optimize left)) (reduces_of_stays (stays_optimize right))
  | .name .. | .integer .. | .real .. | .cast .. | .binary .. => exact .same _
termination_by sizeOf e

theorem stays_optimizeArgs (es : List Expr) : List.Forall₂ Expr.Stays es (optimizeArgs es).tree := by
  match es with
  | [] => exact .nil
  | e :: es => exact .cons (stays_optimize e) (stays_optimizeArgs es)
termination_by sizeOf es

end

theorem reduces_optimizeAndFold (e : Expr) : e.Reduces e.optimizeAndFold.tree :=
  reduces_of_stays (stays_optimize e)

/-- The statements of a body stay, and what they hold is replaced at most. -/
theorem reduces_optimizeBody (b : Body) : BodyAlike Expr.Reduces b (optimizeBody b).tree :=
  alike_optimizeBody reduces_optimizeAndFold (fun e => .stays (stays_optimize e)) b

/-- What may become of an expression that is held so. -/
def Hold.Becomes : Hold → Expr → Expr → Prop
  | .argument => Expr.Stays
  | .value => Expr.Reduces

theorem becomes_process (hold : Hold) (e : Expr) : hold.Becomes e (hold.process e) := by
  cases hold with
  | argument => exact stays_optimize e
  | value => exact reduces_optimizeAndFold e

/-! ## Nodes -/

/-- The same node of two trees, with what is below a cast and with other parts in all other forms. -/
inductive Expr.SameNode : Expr → Expr → Prop
  | same (e) : Expr.SameNode e e
  | element (n array index index') : Expr.SameNode (.element n array index) (.element n array index')
  | negate (n inner inner') : Expr.SameNode (.negate n inner) (.negate n inner')
  | not (n inner inner') : Expr.SameNode (.not n inner) (.not n inner')
  | call (n callee args args') : Expr.SameNode (.call n callee args) (.call n callee args')
  | binary (n op left left' right right') : Expr.SameNode (.binary n op left right) (.binary n op left' right')
  | relation (n op left left' right right') :
    Expr.SameNode (.relation n op left right) (.relation n op left' right')

theorem Expr.SameNode.form_eq {e e' : Expr} (same : e.SameNode e') : e'.form = e.form := by
  cases same <;> rfl

/-- The nodes of two trees in order: a node stays, or all nodes of an expression with operations and literals
only give way to one literal. -/
inductive NodesReduce : List Expr → List Expr → Prop
  | nil : NodesReduce [] []
  | stay {e e' es es'} : e.SameNode e' → NodesReduce es es' → NodesReduce (e :: es) (e' :: es')
  | literal {e e' : Expr} {es es'} : e.OnlyLiterals → e'.IsLiteral → NodesReduce es es' →
    NodesReduce (e.parts ++ es) (e' :: es')

theorem NodesReduce.refl (es : List Expr) : NodesReduce es es := by
  induction es with
  | nil => exact .nil
  | cons e es ih => exact .stay (.same e) ih

theorem NodesReduce.append {es es' fs fs' : List Expr} (first : NodesReduce es es') (second : NodesReduce fs fs') :
    NodesReduce (es ++ fs) (es' ++ fs') := by
  induction first with
  | nil => exact second
  | stay same _ ih => exact .stay same ih
  | literal only literal _ ih =>
    rw [List.append_assoc]
    exact .literal only literal ih

mutual

theorem Expr.Reduces.nodes {e e' : Expr} (reduces : e.Reduces e') : NodesReduce e.parts e'.parts := by
  cases reduces with
  | @literal n op l r e' left right literal place =>
    have only : (Expr.binary n op l r).OnlyLiterals := ⟨left, right⟩
    have replaced := NodesReduce.literal only literal .nil
    rw [List.append_nil] at replaced
    cases e' with
    | integer | real => exact replaced
    | name | element | cast | negate | not | call | binary | relation => exact literal.elim
  | stays stays => exact stays.nodes
termination_by 2 * sizeOf e + 1
decreasing_by all_goals subst_vars; simp +arith

theorem Expr.Stays.nodes {e e' : Expr} (stays : e.Stays e') : NodesReduce e.parts e'.parts := by
  cases stays with
  | same => exact .refl _
  | element n array i => exact .stay (.element ..) i.nodes
  | negate n i => exact .stay (.negate ..) i.nodes
  | not n i => exact .stay (.not ..) i.nodes
  | call n callee as => exact .stay (.call ..) (nodes_of_args as)
  | binary n op l r => exact .stay (.binary ..) (l.nodes.append r.nodes)
  | relation n op l r => exact .stay (.relation ..) (l.nodes.append r.nodes)
termination_by 2 * sizeOf e
decreasing_by all_goals subst_vars; simp +arith

theorem nodes_of_args {es es' : List Expr} (stay : List.Forall₂ Expr.Stays es es') :
    NodesReduce (argParts es) (argParts es') := by
  cases stay with
  | nil => exact .nil
  | cons first others => exact first.nodes.append (nodes_of_args others)
termination_by 2 * sizeOf es
decreasing_by all_goals subst_vars; simp +arith

end

theorem nodes_of_reduced_args {es es' : List Expr} (reduce : List.Forall₂ Expr.Reduces es es') :
    NodesReduce (argParts es) (argParts es') := by
  induction reduce with
  | nil => exact .nil
  | cons first _ ih => exact first.nodes.append ih

mutual

theorem Stmt.Alike.nodes {s s' : Stmt} (alike : s.Alike Expr.Reduces s') : NodesReduce s.parts s'.parts := by
  cases alike with
  | assign p target value => exact (NodesReduce.refl target.parts).append value.nodes
  | branch p condition body elsifs =>
    exact (condition.nodes.append (nodes_of_bodyAlike body)).append (nodes_of_elsifsAlike elsifs)
  | branchElse p condition body elsifs rest =>
    have front := (condition.nodes.append (nodes_of_bodyAlike body)).append (nodes_of_elsifsAlike elsifs)
    exact front.append (nodes_of_bodyAlike rest)
  | loop p condition body => exact condition.nodes.append (nodes_of_bodyAlike body)
  | ret p => exact .nil
  | retValue p value => exact value.nodes
  | call p callee args => exact nodes_of_reduced_args args
termination_by sizeOf s
decreasing_by all_goals subst_vars; simp +arith

theorem nodes_of_elsifsAlike {es es' : List Elsif} (alike : List.Forall₂ (Elsif.Alike Expr.Reduces) es es') :
    NodesReduce (elsifParts es) (elsifParts es') := by
  cases alike with
  | nil => exact .nil
  | cons first others =>
    cases first with
    | clause p condition body =>
      exact (condition.nodes.append (nodes_of_bodyAlike body)).append (nodes_of_elsifsAlike others)
termination_by sizeOf es
decreasing_by all_goals subst_vars; simp +arith

theorem nodes_of_bodyAlike {b b' : Body} (alike : BodyAlike Expr.Reduces b b') :
    NodesReduce (bodyParts b) (bodyParts b') := by
  cases alike with
  | nil => exact .nil
  | cons first others => exact first.nodes.append (nodes_of_bodyAlike others)
termination_by sizeOf b
decreasing_by all_goals subst_vars; simp +arith

end

/-- A pass does to the nodes of a body what it does to their tree. -/
theorem nodes_optimizeBody (b : Body) : NodesReduce (bodyParts b) (bodyParts (optimizeBody b).tree) :=
  nodes_of_bodyAlike (reduces_optimizeBody b)

/-! ## Nodes that stay -/

/-- Whether such an expression is neither an operation nor a literal. -/
def Form.isFixed : Form → Bool
  | .integer | .real | .binary => false
  | .name | .element | .cast | .negate | .not | .call | .relation => true

/-- The expressions that are neither operations nor literals. -/
def fixedNodes (es : List Expr) : List Expr :=
  es.filter fun e => e.form.isFixed

theorem Expr.OnlyLiterals.fixedNodes_eq {e : Expr} (only : e.OnlyLiterals) : fixedNodes e.parts = [] := by
  match e with
  | .integer .. | .real .. => rfl
  | .binary n op left right =>
    have l := fixedNodes_eq (e := left) only.1
    have r := fixedNodes_eq (e := right) only.2
    simp only [fixedNodes, Expr.parts] at l r ⊢
    rw [List.filter_cons_of_neg (by simp [Expr.form, Form.isFixed]), List.filter_append, l, r, List.append_nil]
  | .name .. | .element .. | .cast .. | .negate .. | .not .. | .call .. | .relation .. => exact only.elim
termination_by sizeOf e

theorem NodesReduce.fixedNodes {es es' : List Expr} (reduce : NodesReduce es es') :
    List.Forall₂ Expr.SameNode (fixedNodes es) (fixedNodes es') := by
  induction reduce with
  | nil => exact .nil
  | @stay e e' es es' same _ ih =>
    simp only [MiniPascal.fixedNodes, List.filter_cons, same.form_eq] at ih ⊢
    split
    · exact .cons same ih
    · exact ih
  | @literal e e' es es' only literal _ ih =>
    have before := only.fixedNodes_eq
    have after : e'.form.isFixed = false := by
      cases e' with
      | integer | real => rfl
      | name | element | cast | negate | not | call | binary | relation => exact literal.elim
    simp only [MiniPascal.fixedNodes, List.filter_append] at before ih ⊢
    rwa [before, List.nil_append, List.filter_cons_of_neg (by simp [after])]

/-- Behind a pass all statements are where they were, with the same targets and callees. In what they hold,
operations give way to literals where there are nothing but operations and literals in them, and an argument
stays at its top even then. All other expressions are the same nodes in the same order, casts with everything
below them, and the body refers to the same symbols in the same order. -/
theorem folding_replaces_literal_operations (b : Body) :
    let after := (Pass.constantFolding.run b).body
    BodyAlike Expr.Reduces b after ∧
      List.Forall₂ (fun slot slot' => slot'.1 = slot.1 ∧ slot.1.Becomes slot.2 slot'.2) (bodySlots b)
        (bodySlots after) ∧
      List.Forall₂ Expr.SameNode (fixedNodes (bodyParts b)) (fixedNodes (bodyParts after)) ∧
      bodySymbols after = bodySymbols b := by
  intro after
  refine ⟨reduces_optimizeBody b, ?_, (nodes_optimizeBody b).fixedNodes, (kept_passRun .constantFolding b).1⟩
  have slots : bodySlots after = (bodySlots b).map fun slot => (slot.1, slot.1.process slot.2) :=
    slots_optimizeBody b
  rw [slots, List.forall₂_map_right_iff]
  exact List.forall₂_same.mpr fun slot _ => ⟨rfl, becomes_process slot.1 slot.2⟩

end MiniPascal
