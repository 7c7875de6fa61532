import MiniPascal.Proofs.Folding.Meaning
import MiniPascal.Proofs.Syntax.Parts

/-!
# Trees of integers

Operations on integer literals, nested in any way, have an exact value unless a divisor is zero. Folding
leaves a single literal with that value just if no operation in the tree divides by zero and all operands
and results are below the limit. Whatever else it leaves has the exact value from before.
-/

namespace MiniPascal

/-! ## Exact values -/

/-- Integer literals and operations that are stored as integers, and nothing else. -/
inductive Expr.IsIntegerTree : Expr → Prop
  | literal (n v) : Expr.IsIntegerTree (.integer n v)
  | operation {n} (op) {left right} : n.type = integerType → Expr.IsIntegerTree left →
    Expr.IsIntegerTree right → Expr.IsIntegerTree (.binary n op left right)

/-- The exact value of a tree of integers. -/
def Expr.exactValue? : Expr → Option Int
  | .integer _ v => some v
  | .binary _ op left right => do op.onIntegers (← left.exactValue?) (← right.exactValue?)
  | _ => none

namespace BinaryOp

/-- Operators without a result for a second operand of zero. -/
def divides : BinaryOp → Bool
  | divide | div | mod => true
  | add | sub | mul | or | and => false

/-- An operation whose operands and result are below the limit, and that does not divide by zero. -/
structure StaysBelow (op : BinaryOp) (a b : Int) : Prop where
  divisor : op.divides = true → b ≠ 0
  left : |a| < 2 ^ 53
  right : |b| < 2 ^ 53
  result : ∀ v, op.onIntegers a b = some v → |v| < 2 ^ 53

theorem onIntegers_eq_none_iff {op : BinaryOp} {a b : Int} :
    op.onIntegers a b = none ↔ op.divides = true ∧ b = 0 := by
  cases op <;> simp [onIntegers, divides]

/-- Integers are folded as long as the operation stays below the limit, and to the exact result. -/
theorem foldIntegers_eq_some_iff {op : BinaryOp} {a b v : Int} :
    op.foldIntegers a b = some v ↔ op.StaysBelow a b ∧ op.onIntegers a b = some v := by
  rw [foldIntegers_eq]
  constructor
  · intro folds
    split at folds
    next small =>
      obtain ⟨w, exact_value, within⟩ := Option.bind_eq_some_iff.mp folds
      unfold limited at within
      split at within
      next below =>
        obtain rfl := Option.some.inj within
        refine ⟨⟨fun divides zero => ?_, small.1, small.2, fun u same => ?_⟩, exact_value⟩
        · rw [onIntegers_eq_none_iff.mpr ⟨divides, zero⟩] at exact_value
          contradiction
        · rwa [Option.some.inj (same.symm.trans exact_value)]
      next => contradiction
    next => contradiction
  · rintro ⟨stays, exact_value⟩
    rw [if_pos ⟨stays.left, stays.right⟩, exact_value, Option.bind_some, limited,
      if_pos (stays.result v exact_value)]

/-- An operation that stays below the limit has a result. -/
theorem StaysBelow.folds {op : BinaryOp} {a b : Int} (stays : op.StaysBelow a b) :
    ∃ v, op.foldIntegers a b = some v := by
  cases exact_value : op.onIntegers a b with
  | none =>
    obtain ⟨divides, zero⟩ := onIntegers_eq_none_iff.mp exact_value
    exact absurd zero (stays.divisor divides)
  | some v => exact ⟨v, foldIntegers_eq_some_iff.mpr ⟨stays, exact_value⟩⟩

end BinaryOp

/-- All operations in the tree stay below the limit. -/
def Expr.StaysBelow (e : Expr) : Prop :=
  ∀ n op left right, .binary n op left right ∈ e.parts →
    ∃ a b, left.exactValue? = some a ∧ right.exactValue? = some b ∧ op.StaysBelow a b

/-- Some operation in the tree divides by zero. -/
def Expr.DividesByZero (e : Expr) : Prop :=
  ∃ n op left right, .binary n op left right ∈ e.parts ∧ op.divides = true ∧ right.exactValue? = some 0

section Parts

variable {n : Note} {op : BinaryOp} {left right : Expr}

theorem staysBelow_literal (n : Note) (v : Int) : (Expr.integer n v).StaysBelow := by
  intro m op left right member
  simp [Expr.parts] at member

theorem staysBelow_operation :
    (Expr.binary n op left right).StaysBelow ↔ left.StaysBelow ∧ right.StaysBelow ∧
      ∃ a b, left.exactValue? = some a ∧ right.exactValue? = some b ∧ op.StaysBelow a b := by
  constructor
  · intro stays
    refine ⟨fun m op' l r member => ?_, fun m op' l r member => ?_, stays n op left right List.mem_cons_self⟩
    · exact stays m op' l r (List.mem_cons_of_mem _ (List.mem_append_left _ member))
    · exact stays m op' l r (List.mem_cons_of_mem _ (List.mem_append_right _ member))
  · rintro ⟨left_stays, right_stays, own⟩ m op' l r member
    rw [Expr.parts, List.mem_cons, List.mem_append] at member
    rcases member with same | inside | inside
    · cases same
      exact own
    · exact left_stays m op' l r inside
    · exact right_stays m op' l r inside

theorem dividesByZero_operation :
    (Expr.binary n op left right).DividesByZero ↔
      left.DividesByZero ∨ right.DividesByZero ∨ op.divides = true ∧ right.exactValue? = some 0 := by
  constructor
  · rintro ⟨m, op', l, r, member, zero⟩
    rw [Expr.parts, List.mem_cons, List.mem_append] at member
    rcases member with same | inside | inside
    · cases same
      exact .inr (.inr zero)
    · exact .inl ⟨m, op', l, r, inside, zero⟩
    · exact .inr (.inl ⟨m, op', l, r, inside, zero⟩)
  · rintro (⟨m, op', l, r, inside, zero⟩ | ⟨m, op', l, r, inside, zero⟩ | zero)
    · exact ⟨m, op', l, r, List.mem_cons_of_mem _ (List.mem_append_left _ inside), zero⟩
    · exact ⟨m, op', l, r, List.mem_cons_of_mem _ (List.mem_append_right _ inside), zero⟩
    · exact ⟨n, op, left, right, List.mem_cons_self, zero⟩

end Parts

/-- A tree of integers has no value just if it divides by zero somewhere. -/
theorem exactValue?_eq_none_iff {e : Expr} (tree : e.IsIntegerTree) : e.exactValue? = none ↔ e.DividesByZero := by
  induction tree with
  | literal n v => simp [Expr.exactValue?, Expr.DividesByZero, Expr.parts]
  | @operation n op left right _ _ _ left_ih right_ih =>
    rw [dividesByZero_operation, ← left_ih, ← right_ih, Expr.exactValue?]
    cases left.exactValue? with
    | none => simp
    | some a =>
      cases right.exactValue? with
      | none => simp
      | some b => simp [BinaryOp.onIntegers_eq_none_iff]

/-! ## Folding -/

/-- The values of trees of integers are exact under all interpretations. -/
theorem value_of_isIntegerTree {ω : Type} (I : Interpretation ω) {e : Expr} (tree : e.IsIntegerTree) :
    e.value I = e.exactValue?.map .integer := by
  induction tree with
  | literal n v => rfl
  | @operation n op left right integer _ _ left_ih right_ih =>
    rw [Expr.value, left_ih, right_ih, Expr.exactValue?]
    cases left.exactValue? with
    | none => rfl
    | some a =>
      cases right.exactValue? with
      | none => rfl
      | some b => simp [Interpretation.operation, integer]

/-- What folding leaves of a tree of integers: a literal with its exact value if all its operations stay below
the limit, and an operation on such trees otherwise. -/
inductive Expr.Residue (e : Expr) : Expr → Prop
  | literal {v} : e.StaysBelow → e.exactValue? = some v → Expr.Residue e (.integer e.note v)
  | operation {op left right} : ¬e.StaysBelow → (Expr.binary e.note op left right).IsIntegerTree →
    Expr.Residue e (.binary e.note op left right)

namespace Expr.Residue

variable {e f : Expr}

theorem isIntegerTree (residue : e.Residue f) : f.IsIntegerTree := by
  cases residue with
  | literal => exact .literal _ _
  | operation _ tree => exact tree

theorem staysBelow {n : Note} {v : Int} (residue : e.Residue (.integer n v)) : e.StaysBelow := by
  cases residue with
  | literal below => exact below

theorem eq_literal (residue : e.Residue f) (below : e.StaysBelow) : ∃ v, f = .integer e.note v := by
  cases residue with
  | literal => exact ⟨_, rfl⟩
  | operation exceeds => exact absurd below exceeds

end Expr.Residue

theorem residue_foldOperation {n : Note} {op : BinaryOp} {left right : Expr} (integer : n.type = integerType)
    {m m' : Note} {a b : Int} (left_stays : left.StaysBelow) (left_exact : left.exactValue? = some a)
    (right_stays : right.StaysBelow) (right_exact : right.exactValue? = some b) :
    (Expr.binary n op left right).Residue (foldOperation n op (.integer m a) (.integer m' b)).tree := by
  rw [foldOperation, if_pos integer]
  cases folds : op.foldIntegers a b with
  | some v =>
    obtain ⟨stays, exact_value⟩ := BinaryOp.foldIntegers_eq_some_iff.mp folds
    refine .literal (staysBelow_operation.mpr ⟨left_stays, right_stays, a, b, left_exact, right_exact, stays⟩) ?_
    simp [Expr.exactValue?, left_exact, right_exact, exact_value]
  | none =>
    refine .operation (fun below => ?_) (.operation op integer (.literal m a) (.literal m' b))
    obtain ⟨-, -, a', b', left_exact', right_exact', stays⟩ := staysBelow_operation.mp below
    obtain rfl := Option.some.inj (left_exact.symm.trans left_exact')
    obtain rfl := Option.some.inj (right_exact.symm.trans right_exact')
    obtain ⟨v, folded⟩ := stays.folds
    rw [folds] at folded
    contradiction

theorem residue_fold {e : Expr} (tree : e.IsIntegerTree) : e.Residue e.fold.tree := by
  induction tree with
  | literal n v => exact .literal (staysBelow_literal n v) rfl
  | @operation n op left right integer _ _ left_ih right_ih =>
    change Expr.Residue _ (foldOperation n op left.fold.tree right.fold.tree).tree
    generalize left.fold.tree = l at left_ih
    generalize right.fold.tree = r at right_ih
    cases left_ih with
    | literal left_stays left_exact =>
      cases right_ih with
      | literal right_stays right_exact =>
        exact residue_foldOperation integer left_stays left_exact right_stays right_exact
      | operation right_exceeds right_tree =>
        exact .operation (fun below => right_exceeds (staysBelow_operation.mp below).2.1)
          (.operation op integer (.literal _ _) right_tree)
    | operation left_exceeds left_tree =>
      -- an operation is no literal, whatever stands beside it
      exact .operation (fun below => left_exceeds (staysBelow_operation.mp below).1)
        (.operation op integer left_tree right_ih.isIntegerTree)

/-- The interpretation in which nothing but integers and reals has a value. -/
def Interpretation.silent : Interpretation Empty where
  name _ _ := none
  element _ _ _ := none
  call _ _ _ := none
  cast _ _ := none
  negate _ _ := none
  not _ _ := none
  binary _ _ _ _ := none
  relation _ _ _ _ := none

theorem exactValue?_fold {e : Expr} (tree : e.IsIntegerTree) (folded : e.fold.tree.IsIntegerTree) :
    e.fold.tree.exactValue? = e.exactValue? := by
  have kept := value_fold Interpretation.silent e
  rw [value_of_isIntegerTree _ tree, value_of_isIntegerTree _ folded] at kept
  exact Option.map_injective (fun _ _ => Value.integer.inj) kept

/-- Folding a tree of integers gives a literal just if no operation divides by zero and all operands and
results are below the limit. The literal has the exact value of the tree, and whatever else is left is a tree
of integers with that value. There is no value just if some operation divides by zero. -/
theorem integer_tree_folding_exact (e : Expr) (tree : e.IsIntegerTree) :
    ((∃ n v, e.fold.tree = .integer n v) ↔ e.StaysBelow) ∧
      (∀ n v, e.fold.tree = .integer n v → e.exactValue? = some v) ∧
      e.fold.tree.IsIntegerTree ∧ e.fold.tree.exactValue? = e.exactValue? ∧
      (e.exactValue? = none ↔ e.DividesByZero) := by
  have residue := residue_fold tree
  have folded : e.fold.tree.IsIntegerTree := residue.isIntegerTree
  have kept := exactValue?_fold tree folded
  refine ⟨⟨?_, ?_⟩, fun n v literal => ?_, folded, kept, exactValue?_eq_none_iff tree⟩
  · rintro ⟨n, v, literal⟩
    rw [literal] at residue
    exact residue.staysBelow
  · intro below
    obtain ⟨v, literal⟩ := residue.eq_literal below
    exact ⟨e.note, v, literal⟩
  · rw [← kept, literal, Expr.exactValue?]

/-- The quotient is a literal behind folding, and its product with the greatest integer below the limit stays. -/
theorem integer_tree_folding_exact_large_product :
    let note : Note := ⟨⟨1, 1⟩, integerType⟩
    let quotient : Expr := .binary note .div (.integer note (-7)) (.integer note 2)
    let product : Expr := .binary note .mul quotient (.integer note 9007199254740991)
    quotient.IsIntegerTree ∧ (∃ n, quotient.fold.tree = .integer n (-3)) ∧
      product.IsIntegerTree ∧ (¬∃ n v, product.fold.tree = .integer n v) ∧
      product.fold.tree.exactValue? = some (-27021597764222973) := by
  intro note quotient product
  have quotient_tree : quotient.IsIntegerTree := .operation .div rfl (.literal _ _) (.literal _ _)
  have product_tree : product.IsIntegerTree := .operation .mul rfl quotient_tree (.literal _ _)
  have quotient_below : quotient.StaysBelow :=
    staysBelow_operation.mpr ⟨staysBelow_literal _ _, staysBelow_literal _ _, -7, 2, rfl, rfl,
      by decide, by decide, by decide, by simp [BinaryOp.onIntegers]⟩
  obtain ⟨quotient_literal, quotient_value, -⟩ := integer_tree_folding_exact quotient quotient_tree
  obtain ⟨product_literal, -, -, product_value, -⟩ := integer_tree_folding_exact product product_tree
  refine ⟨quotient_tree, ?_, product_tree, ?_, product_value⟩
  · obtain ⟨n, v, literal⟩ := quotient_literal.mpr quotient_below
    obtain rfl : -3 = v := Option.some.inj (quotient_value n v literal)
    exact ⟨n, literal⟩
  · rw [product_literal, staysBelow_operation]
    rintro ⟨-, -, a, b, left, right, below⟩
    cases left
    cases right
    exact absurd (below.result (-27021597764222973) rfl) (by decide)

end MiniPascal
