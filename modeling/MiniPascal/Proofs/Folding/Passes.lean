import MiniPascal.Optimization.Level
import MiniPascal.Proofs.Folding.Reduction
import MiniPascal.Proofs.Folding.Replacing

/-!
# What passes report, and that one is enough

What a pass counts are the operations that are gone behind it, and with each of them two nodes of the tree are
gone. A second pass finds a tree that it leaves as it is, so it counts nothing, and a level of several passes
does what one of them does.
-/

namespace MiniPascal

/-! ## Counting -/

/-- The operations that are left and those that became literals are all that there were. -/
def Folded.Accounts {τ : Type} (parts : τ → List Expr) (before : τ) (after : Folded τ) : Prop :=
  Form.binary.count (parts after.tree) + after.count = Form.binary.count (parts before)

theorem accounts_foldOperation (n : Note) (op : BinaryOp) (left right : Expr) :
    (foldOperation n op left right).Accounts Expr.parts (.binary n op left right) := by
  unfold foldOperation Folded.Accounts
  split
  next =>
    split
    next =>
      split
      next => simp [Expr.parts, Expr.form, Form.tally]
      next => rfl
    next => rfl
  next => split <;> simp [Folded.unchanged, Expr.parts, Expr.form, Form.tally]
  next => rfl

theorem accounts_fold (e : Expr) : e.fold.Accounts Expr.parts e := by
  match e with
  | .binary n op left right =>
    have l := accounts_fold left
    have r := accounts_fold right
    have o := accounts_foldOperation n op left.fold.tree right.fold.tree
    simp only [Folded.Accounts, Expr.fold, Expr.parts, Form.count_cons, Form.count_append] at l r o ⊢
    simp only [Expr.form] at o ⊢
    omega
  | .element n array index =>
    have i := accounts_fold index
    simp only [Folded.Accounts, Expr.fold, Folded.tree_map, Folded.count_map, Expr.parts, Form.count_cons,
      Expr.form] at i ⊢
    omega
  | .name .. | .integer .. | .real .. | .cast .. | .negate .. | .not .. | .call .. | .relation .. => rfl
termination_by sizeOf e

mutual

theorem accounts_optimize (e : Expr) : e.optimize.Accounts Expr.parts e := by
  match e with
  | .element n array index =>
    have i := accounts_fold index
    simp only [Folded.Accounts, Expr.optimize, Folded.tree_map, Folded.count_map, Expr.parts, Form.count_cons,
      Expr.form] at i ⊢
    omega
  | .negate n inner | .not n inner =>
    have i := accounts_optimize inner
    have f := accounts_fold inner.optimize.tree
    simp only [Folded.Accounts, Expr.optimize, Expr.parts, Form.count_cons, Expr.form] at i f ⊢
    omega
  | .call n callee args =>
    have as := accounts_optimizeArgs args
    simp only [Folded.Accounts, Expr.optimize, Folded.tree_map, Folded.count_map, Expr.parts, Form.count_cons,
      Expr.form] at as ⊢
    omega
  | .relation n op left right =>
    have l := accounts_optimize left
    have lf := accounts_fold left.optimize.tree
    have r := accounts_optimize right
    have rf := accounts_fold right.optimize.tree
    simp only [Folded.Accounts, Expr.optimize, Expr.parts, Form.count_cons, Form.count_append,
      Expr.form] at l lf r rf ⊢
    omega
  | .name .. | .integer .. | .real .. | .cast .. | .binary .. => rfl
termination_by sizeOf e

theorem accounts_optimizeArgs (es : List Expr) : (optimizeArgs es).Accounts argParts es := by
  match es with
  | [] => rfl
  | e :: es =>
    have first := accounts_optimize e
    have others := accounts_optimizeArgs es
    simp only [Folded.Accounts, optimizeArgs, Folded.tree_map₂, Folded.count_map₂, argParts,
      Form.count_append] at first others ⊢
    omega
termination_by sizeOf es

end

theorem accounts_optimizeAndFold (e : Expr) : e.optimizeAndFold.Accounts Expr.parts e := by
  have o := accounts_optimize e
  have f := accounts_fold e.optimize.tree
  simp only [Folded.Accounts, Expr.optimizeAndFold] at o f ⊢
  omega

mutual

theorem accounts_optimizeStmt (s : Stmt) : s.optimize.Accounts Stmt.parts s := by
  match s with
  | .assign p target value =>
    have v := accounts_optimizeAndFold value
    simp only [Folded.Accounts, Stmt.optimize, Folded.tree_map, Folded.count_map, Stmt.parts,
      Form.count_append] at v ⊢
    omega
  | .branch p condition body elsifs none =>
    have c := accounts_optimizeAndFold condition
    have b := accounts_optimizeBody body
    have es := accounts_optimizeElsifs elsifs
    simp only [Folded.Accounts, Stmt.optimize, Stmt.parts, Form.count_append] at c b es ⊢
    omega
  | .branch p condition body elsifs (some otherwise) =>
    have c := accounts_optimizeAndFold condition
    have b := accounts_optimizeBody body
    have es := accounts_optimizeElsifs elsifs
    have o := accounts_optimizeBody otherwise
    simp only [Folded.Accounts, Stmt.optimize, Stmt.parts, Form.count_append] at c b es o ⊢
    omega
  | .loop p condition body =>
    have c := accounts_optimizeAndFold condition
    have b := accounts_optimizeBody body
    simp only [Folded.Accounts, Stmt.optimize, Folded.tree_map₂, Folded.count_map₂, Stmt.parts,
      Form.count_append] at c b ⊢
    omega
  | .ret p none => rfl
  | .ret p (some value) => exact accounts_optimizeAndFold value
  | .call p callee args => exact accounts_optimizeArgs args
termination_by sizeOf s

theorem accounts_optimizeElsifs (es : List Elsif) : (optimizeElsifs es).Accounts elsifParts es := by
  match es with
  | [] => rfl
  | .clause p condition body :: es =>
    have c := accounts_optimizeAndFold condition
    have b := accounts_optimizeBody body
    have others := accounts_optimizeElsifs es
    simp only [Folded.Accounts, optimizeElsifs, Elsif.optimize, Folded.tree_map₂, Folded.count_map₂, elsifParts,
      Elsif.parts, Form.count_append] at c b others ⊢
    omega
termination_by sizeOf es

/-- A pass counts the operations that are gone behind it. -/
theorem accounts_optimizeBody (b : Body) : (optimizeBody b).Accounts bodyParts b := by
  match b with
  | [] => rfl
  | s :: b =>
    have first := accounts_optimizeStmt s
    have others := accounts_optimizeBody b
    simp only [Folded.Accounts, optimizeBody, Folded.tree_map₂, Folded.count_map₂, bodyParts,
      Form.count_append] at first others ⊢
    omega
termination_by sizeOf b

end

/-! ## Reports -/

/-- Between operations and literals there is one literal more than there are operations. -/
theorem Expr.OnlyLiterals.length_parts {e : Expr} (only : e.OnlyLiterals) :
    e.parts.length = 2 * Form.binary.count e.parts + 1 := by
  match e with
  | .integer .. | .real .. => rfl
  | .binary n op left right =>
    have l := length_parts (e := left) only.1
    have r := length_parts (e := right) only.2
    simp only [Expr.parts, Form.count_cons, Form.count_append, Expr.form, Form.tally_self, List.length_cons,
      List.length_append]
    omega
  | .name .. | .element .. | .cast .. | .negate .. | .not .. | .call .. | .relation .. => exact only.elim
termination_by sizeOf e

/-- With each operation that is gone, two nodes are gone. -/
theorem NodesReduce.length_eq {es es' : List Expr} (reduce : NodesReduce es es') :
    es.length + 2 * Form.binary.count es' = es'.length + 2 * Form.binary.count es := by
  induction reduce with
  | nil => rfl
  | stay same _ ih =>
    simp only [List.length_cons, Form.count_cons, same.form_eq]
    omega
  | @literal e e' es es' only literal _ ih =>
    have before := only.length_parts
    have none : Form.binary.tally e'.form = 0 := by
      cases e' with
      | integer | real => rfl
      | name | element | cast | negate | not | call | binary | relation => exact literal.elim
    simp only [List.length_append, List.length_cons, Form.count_append, Form.count_cons, none]
    omega

/-- A pass logs how many operations it took from the body. It took twice as many nodes, and it reports a change
just if there are any, which is just if the body is another one. -/
theorem pass_reports_truthfully (b : Body) :
    let pass := Pass.constantFolding.run b
    ∃ replaced, pass.log = [.debug ("constant folding replaced " ++ toString replaced ++ " subtree(s)")] ∧
      Form.binary.count (bodyParts b) = Form.binary.count (bodyParts pass.body) + replaced ∧
      (bodyParts b).length = (bodyParts pass.body).length + 2 * replaced ∧
      (pass.outcome = .changed ↔ 0 < replaced) ∧ (0 < replaced ↔ pass.body ≠ b) := by
  intro pass
  have accounts : Form.binary.count (bodyParts pass.body) + (optimizeBody b).count = Form.binary.count (bodyParts b) :=
    accounts_optimizeBody b
  have nodes := (nodes_optimizeBody b).length_eq
  refine ⟨(optimizeBody b).count, rfl, accounts.symm, ?_, ?_, ?_⟩
  · change (bodyParts b).length + 2 * Form.binary.count (bodyParts pass.body) = _ at nodes
    change _ = (bodyParts pass.body).length + _ at nodes
    omega
  · change (if 0 < (optimizeBody b).count then Outcome.changed else .unchanged) = .changed ↔ _
    split <;> simp [*]
  · constructor
    · intro replaced same
      rw [same] at accounts
      omega
    · intro changed
      by_contra none
      have count : Form.binary.count (bodyParts pass.body) = Form.binary.count (bodyParts b) := by omega
      exact changed ((folds_optimizeBody b).eq_of_count count)

/-! ## Second passes -/

/-- What stays the same behind a pass has lost nothing. -/
theorem count_eq_zero_of_tree_eq {b : Body} (same : (optimizeBody b).tree = b) : (optimizeBody b).count = 0 := by
  have accounts := accounts_optimizeBody b
  rw [Folded.Accounts, same] at accounts
  omega

theorem run_of_tree_eq (pass : Pass) {b : Body} (same : (optimizeBody b).tree = b) :
    (pass.run b).body = b ∧ (pass.run b).outcome = .unchanged := by
  cases pass with
  | constantFolding =>
    constructor
    · exact same
    · simp [Pass.run, count_eq_zero_of_tree_eq same]

theorem runFrom_of_tree_eq (i : Nat) (passes : List Pass) {b : Body} (same : (optimizeBody b).tree = b) :
    (Level.runFrom i passes b).1 = b ∧ ∀ outcome ∈ (Level.runFrom i passes b).2.1, outcome = .unchanged := by
  induction passes generalizing i with
  | nil => exact ⟨rfl, List.forall_mem_nil _⟩
  | cons pass passes ih =>
    obtain ⟨body, outcome⟩ := run_of_tree_eq pass same
    obtain ⟨rest, outcomes⟩ := ih (i + 1)
    simp only [Level.runFrom, body]
    exact ⟨rest, List.forall_mem_cons.mpr ⟨outcome, outcomes⟩⟩

theorem combine_cons (outcome : Outcome) {outcomes : List Outcome} (idle : ∀ o ∈ outcomes, o = .unchanged) :
    Outcome.combine (outcome :: outcomes) = outcome := by
  have none : Outcome.changed ∉ outcomes := fun member => nomatch idle _ member
  cases outcome <;> simp [Outcome.combine, none]

/-- What the first of several passes did is all that is done. -/
theorem run_custom (first : Pass) (others : List Pass) (b : Body) :
    ((Level.custom (first :: others)).run b).body = (first.run b).body ∧
      ((Level.custom (first :: others)).run b).outcome = (first.run b).outcome := by
  have same : (optimizeBody (first.run b).body).tree = (first.run b).body := by
    cases first with
    | constantFolding => exact optimizeBody_optimizeBody b
  obtain ⟨rest, idle⟩ := runFrom_of_tree_eq 1 others same
  exact ⟨rest, combine_cons _ idle⟩

/-- A second pass replaces nothing, reports no change and leaves every node as it is, so any passes one
after the other do what the moderate level does. -/
theorem one_pass_suffices (b : Body) :
    let once := optimizeBody b
    (optimizeBody once.tree).tree = once.tree ∧ (optimizeBody once.tree).count = 0 ∧
      (Pass.constantFolding.run once.tree).outcome = .unchanged ∧
      ∀ first others,
        ((Level.custom (first :: others)).run b).body = (Level.moderate.run b).body ∧
          ((Level.custom (first :: others)).run b).outcome = (Level.moderate.run b).outcome := by
  intro once
  have same : (optimizeBody once.tree).tree = once.tree := optimizeBody_optimizeBody b
  refine ⟨same, count_eq_zero_of_tree_eq same, (run_of_tree_eq .constantFolding same).2, fun first others => ?_⟩
  cases first with
  | constantFolding =>
    obtain ⟨body, outcome⟩ := run_custom .constantFolding others b
    -- the moderate level is one such pass
    obtain ⟨body', outcome'⟩ := run_custom .constantFolding [] b
    exact ⟨body.trans body'.symm, outcome.trans outcome'.symm⟩

end MiniPascal
