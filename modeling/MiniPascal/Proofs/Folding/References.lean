import MiniPascal.Proofs.Checking.StoredTypes
import MiniPascal.Proofs.Folding.Statements

/-!
# Folding keeps references

Literals refer to nothing, so a folded body refers to the same symbols as before. A literal
gets the type of the operation whose place it takes, so no other types are stored either.
-/

namespace MiniPascal

/-- The same references, and no types that were not stored before. -/
def Kept (before after : Expr) : Prop :=
  after.symbols = before.symbols ∧ after.types ⊆ before.types

theorem Kept.trans {e f g : Expr} (first : Kept e f) (second : Kept f g) : Kept e g :=
  ⟨second.1.trans first.1, fun _ h => first.2 (second.2 h)⟩

theorem append_subset_append {a a' b b' : List SymbolIndex} (first : a' ⊆ a) (second : b' ⊆ b) :
    a' ++ b' ⊆ a ++ b :=
  List.append_subset.mpr ⟨List.subset_append_of_subset_left b first, List.subset_append_of_subset_right a second⟩

/-! ## Expressions -/

theorem kept_foldOperation (n : Note) (op : BinaryOp) (left right : Expr) :
    Kept (.binary n op left right) (foldOperation n op left right).tree := by
  -- a literal has the type of the operation and no references, otherwise nothing changes
  unfold foldOperation
  split
  next =>
    split
    next =>
      split
      next => exact ⟨rfl, List.cons_subset_cons _ (List.nil_subset _)⟩
      next => exact ⟨rfl, List.Subset.refl _⟩
    next => exact ⟨rfl, List.Subset.refl _⟩
  next =>
    split
    next => exact ⟨rfl, List.cons_subset_cons _ (List.nil_subset _)⟩
    next => exact ⟨rfl, List.Subset.refl _⟩
  next => exact ⟨rfl, List.Subset.refl _⟩

theorem kept_fold (e : Expr) : Kept e e.fold.tree := by
  match e with
  | .binary n op left right =>
    have l := kept_fold left
    have r := kept_fold right
    refine Kept.trans ?_ (kept_foldOperation n op left.fold.tree right.fold.tree)
    simp only [Kept, Expr.symbols, Expr.types, l.1, r.1, true_and]
    exact List.cons_subset_cons _ (append_subset_append l.2 r.2)
  | .element n array index =>
    have i := kept_fold index
    simp only [Kept, Expr.fold, Folded.tree_map, Expr.symbols, Expr.types, i.1, true_and]
    exact List.cons_subset_cons _ i.2
  | .name .. | .integer .. | .real .. | .cast .. | .negate .. | .not .. | .call .. | .relation .. =>
    exact ⟨rfl, List.Subset.refl _⟩
termination_by sizeOf e

mutual

theorem kept_optimize (e : Expr) : Kept e e.optimize.tree := by
  match e with
  | .element n array index =>
    have i := kept_fold index
    simp only [Kept, Expr.optimize, Folded.tree_map, Expr.symbols, Expr.types, i.1, true_and]
    exact List.cons_subset_cons _ i.2
  | .negate n inner | .not n inner =>
    -- the parts are optimized and then folded
    have i := (kept_optimize inner).trans (kept_fold _)
    simp only [Kept, Expr.optimize, Expr.symbols, Expr.types, i.1, true_and]
    exact List.cons_subset_cons _ i.2
  | .call n callee args =>
    have as := kept_optimizeArgs args
    simp only [Kept, Expr.optimize, Folded.tree_map, Expr.symbols, Expr.types, as.1, true_and]
    exact List.cons_subset_cons _ as.2
  | .relation n op left right =>
    have l := (kept_optimize left).trans (kept_fold _)
    have r := (kept_optimize right).trans (kept_fold _)
    simp only [Kept, Expr.optimize, Expr.symbols, Expr.types, l.1, r.1, true_and]
    exact List.cons_subset_cons _ (append_subset_append l.2 r.2)
  | .name .. | .integer .. | .real .. | .cast .. | .binary .. => exact ⟨rfl, List.Subset.refl _⟩
termination_by sizeOf e

theorem kept_optimizeArgs (es : List Expr) :
    argSymbols (optimizeArgs es).tree = argSymbols es ∧ argTypes (optimizeArgs es).tree ⊆ argTypes es := by
  match es with
  | [] => exact ⟨rfl, List.Subset.refl _⟩
  | e :: es =>
    have first := kept_optimize e
    have others := kept_optimizeArgs es
    simp only [optimizeArgs, Folded.tree_map₂, argSymbols, argTypes, first.1, others.1, true_and]
    exact append_subset_append first.2 others.2
termination_by sizeOf es

end

theorem kept_optimizeAndFold (e : Expr) : Kept e e.optimizeAndFold.tree :=
  (kept_optimize e).trans (kept_fold _)

/-! ## Bodies -/

theorem kept_args {args args' : List Expr} (alike : List.Forall₂ Kept args args') :
    argSymbols args' = argSymbols args ∧ argTypes args' ⊆ argTypes args := by
  induction alike with
  | nil => exact ⟨rfl, List.Subset.refl _⟩
  | cons first _ ih =>
    simp only [argSymbols, argTypes, first.1, ih.1, true_and]
    exact append_subset_append first.2 ih.2

mutual

theorem kept_of_alike {s s' : Stmt} (alike : s.Alike Kept s') :
    s'.symbols = s.symbols ∧ s'.types ⊆ s.types := by
  cases alike with
  -- targets are not folded, so their types are all kept
  | assign p target value =>
    simp only [Stmt.symbols, Stmt.types, value.1, true_and]
    exact append_subset_append (List.Subset.refl _) value.2
  | branch p condition body elsifs =>
    have b := kept_of_bodyAlike body
    have es := kept_of_elsifsAlike elsifs
    simp only [Stmt.symbols, Stmt.types, condition.1, b.1, es.1, true_and]
    exact append_subset_append (append_subset_append condition.2 b.2) es.2
  | branchElse p condition body elsifs rest =>
    have b := kept_of_bodyAlike body
    have es := kept_of_elsifsAlike elsifs
    have r := kept_of_bodyAlike rest
    simp only [Stmt.symbols, Stmt.types, condition.1, b.1, es.1, r.1, true_and]
    exact append_subset_append (append_subset_append (append_subset_append condition.2 b.2) es.2) r.2
  | loop p condition body =>
    have b := kept_of_bodyAlike body
    simp only [Stmt.symbols, Stmt.types, condition.1, b.1, true_and]
    exact append_subset_append condition.2 b.2
  | ret p => exact ⟨rfl, List.Subset.refl _⟩
  | retValue p value => exact value
  | call p callee args =>
    have as := kept_args args
    simp only [Stmt.symbols, Stmt.types, as.1, true_and]
    exact as.2
termination_by sizeOf s

theorem kept_of_elsifAlike {e e' : Elsif} (alike : e.Alike Kept e') :
    e'.symbols = e.symbols ∧ e'.types ⊆ e.types := by
  cases alike with
  | clause p condition body =>
    have b := kept_of_bodyAlike body
    simp only [Elsif.symbols, Elsif.types, condition.1, b.1, true_and]
    exact append_subset_append condition.2 b.2
termination_by sizeOf e

theorem kept_of_elsifsAlike {es es' : List Elsif} (alike : List.Forall₂ (Elsif.Alike Kept) es es') :
    elsifSymbols es' = elsifSymbols es ∧ elsifTypes es' ⊆ elsifTypes es := by
  cases alike with
  | nil => exact ⟨rfl, List.Subset.refl _⟩
  | cons first others =>
    have f := kept_of_elsifAlike first
    have o := kept_of_elsifsAlike others
    simp only [elsifSymbols, elsifTypes, f.1, o.1, true_and]
    exact append_subset_append f.2 o.2
termination_by sizeOf es

theorem kept_of_bodyAlike {b b' : Body} (alike : BodyAlike Kept b b') :
    bodySymbols b' = bodySymbols b ∧ bodyTypes b' ⊆ bodyTypes b := by
  cases alike with
  | nil => exact ⟨rfl, List.Subset.refl _⟩
  | cons first others =>
    have f := kept_of_alike first
    have o := kept_of_bodyAlike others
    simp only [bodySymbols, bodyTypes, f.1, o.1, true_and]
    exact append_subset_append f.2 o.2
termination_by sizeOf b

end

/-- A pass keeps the references of a body and stores no other types. -/
theorem kept_passRun (pass : Pass) (b : Body) :
    bodySymbols (pass.run b).body = bodySymbols b ∧ bodyTypes (pass.run b).body ⊆ bodyTypes b := by
  cases pass with
  | constantFolding => exact kept_of_bodyAlike (alike_optimizeBody kept_optimizeAndFold kept_optimize b)

theorem kept_runFrom (i : Nat) (passes : List Pass) (b : Body) :
    bodySymbols (Level.runFrom i passes b).1 = bodySymbols b ∧
      bodyTypes (Level.runFrom i passes b).1 ⊆ bodyTypes b := by
  -- a level runs one pass after the other on the same body
  induction passes generalizing i b with
  | nil => exact ⟨rfl, List.Subset.refl _⟩
  | cons pass passes ih =>
    have first := kept_passRun pass b
    have others := ih (i + 1) (pass.run b).body
    exact ⟨others.1.trans first.1, fun _ h => first.2 (others.2 h)⟩

/-- So does a level. -/
theorem kept_levelRun (level : Level) (b : Body) :
    bodySymbols (level.run b).body = bodySymbols b ∧ bodyTypes (level.run b).body ⊆ bodyTypes b :=
  kept_runFrom 0 level.passes b

end MiniPascal
