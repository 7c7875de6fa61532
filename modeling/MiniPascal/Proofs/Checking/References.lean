import MiniPascal.Checking.Body
import MiniPascal.Proofs.Checking.Outcome
import MiniPascal.Proofs.Checking.StoredTypes
import Mathlib.Data.List.Forall2
import Mathlib.Tactic.SplitIfs

/-!
# Checking keeps references

All that checking changes in a tree are stored types and casts, so the tree refers to the same
symbols in the same order, even if checking stopped in the middle.
-/

namespace MiniPascal

open Checked

/-! ## Operands -/

/-- An expression as it was, or converted to real. -/
def Converted (before after : Expr) : Prop :=
  after = before ∨ after = before.widen

theorem Converted.symbols {before after : Expr} (converted : Converted before after) :
    after.symbols = before.symbols := by
  rcases converted with rfl | rfl
  · rfl
  · exact Expr.symbols_widen before

theorem converted_wideningInteger (e : Expr) : Converted e (wideningInteger e).1 := by
  unfold wideningInteger
  split
  · exact .inr rfl
  · exact .inl rfl

variable {pos : Position} {op : BinaryOp} {left right : Expr} {leftType rightType : SymbolIndex} {o : Operation}

theorem converted_arithmetic (left right : Expr) (leftType rightType : SymbolIndex) :
    Converted left (arithmetic left right leftType rightType).left ∧
      Converted right (arithmetic left right leftType rightType).right := by
  unfold arithmetic
  split_ifs
  · exact ⟨.inl rfl, .inl rfl⟩
  · exact ⟨.inl rfl, .inl rfl⟩
  · exact ⟨.inr rfl, .inl rfl⟩
  · exact ⟨.inl rfl, .inr rfl⟩
  · exact ⟨.inl rfl, .inl rfl⟩

theorem converted_integerOperation (some_o : integerOperation pos op left right leftType rightType = some o) :
    Converted left o.left ∧ Converted right o.right := by
  unfold integerOperation at some_o
  split_ifs at some_o
  · cases some_o
    exact ⟨.inl rfl, .inl rfl⟩
  · cases some_o
    exact ⟨.inr rfl, .inl rfl⟩
  · obtain ⟨name, -, rfl⟩ := Option.map_eq_some_iff.mp some_o
    exact ⟨.inl rfl, .inl rfl⟩

theorem converted_binaryOperation (some_o : binaryOperation pos op left right leftType rightType = some o) :
    Converted left o.left ∧ Converted right o.right := by
  cases op with
  | add | sub | mul =>
    cases some_o
    exact converted_arithmetic left right leftType rightType
  | divide =>
    cases some_o
    exact ⟨converted_wideningInteger left, converted_wideningInteger right⟩
  | div | mod | or | and => exact converted_integerOperation some_o

theorem converted_comparison (left right : Expr) (leftType rightType : SymbolIndex) :
    Converted left (comparison left right leftType rightType).left ∧
      Converted right (comparison left right leftType rightType).right := by
  unfold comparison
  split_ifs
  · exact ⟨.inl rfl, .inl rfl⟩
  · exact ⟨.inr rfl, .inl rfl⟩
  · exact ⟨.inl rfl, .inr rfl⟩
  · exact ⟨.inl rfl, .inl rfl⟩

/-! ## Arguments -/

variable (table : SymbolTable)

theorem converted_matchReversed (pos : Position) (params : List SymbolIndex) (args : List Expr) :
    List.Forall₂ Converted args (matchReversed table pos params args).tree := by
  have unchanged (es : List Expr) : List.Forall₂ Converted es es :=
    List.forall₂_same.mpr fun _ _ => .inl rfl
  -- the cases are those of the matching: what it reached before a mismatch stays converted
  fun_induction matchReversed table pos params args with
  | case1 => exact .nil
  | case2 => exact unchanged _
  | case3 => exact .nil
  | case4 => exact unchanged _
  | case5 _ _ _ _ _ _ _ _ ih => exact .cons (.inl rfl) ih
  | case6 _ _ _ _ _ _ _ _ _ ih => exact .cons (.inr rfl) ih
  | case7 => exact unchanged _
  | case8 => exact unchanged _

theorem converted_matchArguments (pos : Position) (params : List SymbolIndex) (args : List Expr) :
    List.Forall₂ Converted args (matchArguments table pos params args).tree := by
  have reversed := List.rel_reverse (converted_matchReversed table pos params.reverse args.reverse)
  rwa [List.reverse_reverse] at reversed

theorem converted_checkCallee (callee : Reference) (args : List Expr) :
    List.Forall₂ Converted args (checkCallee table callee args).tree := by
  unfold checkCallee
  split
  · exact List.forall₂_same.mpr fun _ _ => .inl rfl
  next routine _ =>
    have matched := converted_matchArguments table callee.pos routine.params args
    unfold Checked.andThen
    split <;> exact matched

theorem argSymbols_of_converted {args args' : List Expr} (converted : List.Forall₂ Converted args args') :
    argSymbols args' = argSymbols args := by
  induction converted with
  | nil => rfl
  | cons first _ ih => rw [argSymbols, argSymbols, first.symbols, ih]

/-! ## Expressions -/

mutual

theorem symbols_check (e : Expr) : (e.check table).tree.symbols = e.symbols := by
  match e with
  | .name n s =>
    simp only [Expr.check]
    split <;> rfl
  | .element n array index =>
    have i := symbols_check index
    simp only [Expr.check]
    split
    · rfl
    · exact tree_andThen Expr.symbols (by simp only [Expr.symbols, i]) fun _ => by
        simp only [done, Expr.symbols, i]
  | .integer .. | .real .. => rfl
  | .cast n inner | .negate n inner =>
    have i := symbols_check inner
    exact tree_andThen Expr.symbols i fun _ => i
  | .not n inner =>
    have i := symbols_check inner
    refine tree_andThen Expr.symbols i fun _ => ?_
    split <;> exact i
  -- arguments are checked, then converted, and neither changes a reference
  | .call n callee args =>
    have as := argSymbols_checkArgs args
    have cs (args) := argSymbols_of_converted (converted_checkCallee table callee args)
    refine tree_andThen Expr.symbols (by simp only [Expr.symbols, as]) fun _ => ?_
    exact tree_andThen Expr.symbols (by simp only [Expr.symbols, cs, as]) fun _ => by
      simp only [done, Expr.symbols, cs, as]
  | .binary n op left right =>
    have l := symbols_check left
    have r := symbols_check right
    refine tree_andThen Expr.symbols (by simp only [Expr.symbols, l]) fun _ => ?_
    refine tree_andThen Expr.symbols (by simp only [Expr.symbols, l, r]) fun _ => ?_
    split
    · simp only [stopped, Expr.symbols, l, r]
    -- a cast around an operand refers to what the operand refers to
    next o some_o =>
      obtain ⟨lc, rc⟩ := converted_binaryOperation some_o
      simp only [done, Expr.symbols, lc.symbols, rc.symbols, l, r]
  | .relation n op left right =>
    have l := symbols_check left
    have r := symbols_check right
    refine tree_andThen Expr.symbols (by simp only [Expr.symbols, l]) fun leftType => ?_
    refine tree_andThen Expr.symbols (by simp only [Expr.symbols, l, r]) fun rightType => ?_
    obtain ⟨lc, rc⟩ := converted_comparison (left.check table).tree (right.check table).tree leftType rightType
    simp only [done, Expr.symbols, lc.symbols, rc.symbols, l, r]
termination_by sizeOf e

theorem argSymbols_checkArgs (es : List Expr) : argSymbols (checkArgs table es).tree = argSymbols es := by
  match es with
  | [] => rfl
  | e :: es =>
    have first := symbols_check e
    have others := argSymbols_checkArgs es
    -- the later arguments come first
    refine tree_andThen argSymbols (by simp only [argSymbols, others]) fun _ => ?_
    exact tree_andThen argSymbols (by simp only [argSymbols, first, others]) fun _ => by
      simp only [done, argSymbols, first, others]
termination_by sizeOf es

end

/-! ## Statements -/

theorem converted_assigned (pos : Position) (value : Expr) (targetType valueType : SymbolIndex) :
    Converted value (assigned table pos value targetType valueType).1 := by
  unfold assigned
  split_ifs
  · exact .inl rfl
  · exact .inr rfl
  · exact .inl rfl

theorem argSymbols_checkCall (callee : Reference) (args : List Expr) :
    argSymbols (checkCall table callee args).tree = argSymbols args := by
  have as := argSymbols_checkArgs table args
  exact tree_andThen argSymbols as fun _ =>
    (argSymbols_of_converted (converted_checkCallee table callee _)).trans as

/-- The symbols of the value of a `return`, if it has one. -/
def returnSymbols : Option Expr → List SymbolIndex
  | none => []
  | some value => value.symbols

theorem symbols_checkReturn (pos : Position) (value : Option Expr) :
    returnSymbols (checkReturn table pos value).tree = returnSymbols value := by
  unfold checkReturn
  split
  · rfl
  · split
    · rfl
    next value =>
      have v := symbols_check table value
      exact tree_andThen returnSymbols v fun _ => v

theorem Stmt.symbols_ret (p : Position) (value : Option Expr) :
    (Stmt.ret p value).symbols = returnSymbols value := by
  cases value <;> simp only [Stmt.symbols, returnSymbols]

theorem tree_after {τ σ : Type} (c : Checked τ σ) (events : List Event) : (c.after events).tree = c.tree := rfl

mutual

theorem symbols_checkStmt (s : Stmt) : (s.check table).tree.symbols = s.symbols := by
  match s with
  | .assign p target value =>
    have t := symbols_check table target
    have v := symbols_check table value
    refine tree_andThen Stmt.symbols (by simp only [Stmt.symbols, t]) fun targetType => ?_
    refine tree_andThen Stmt.symbols (by simp only [Stmt.symbols, t, v]) fun valueType => ?_
    have converted := converted_assigned table p (value.check table).tree targetType valueType
    simp only [done, Stmt.symbols, converted.symbols, t, v]
  | .loop p condition body =>
    have c := symbols_check table condition
    have b := bodySymbols_checkBody body
    refine tree_andThen Stmt.symbols (by simp only [Stmt.symbols, c]) fun _ => ?_
    rw [tree_after]
    exact tree_andThen Stmt.symbols (by simp only [Stmt.symbols, c, b]) fun _ => by
      simp only [done, Stmt.symbols, c, b]
  | .branch p condition body elsifs none =>
    have c := symbols_check table condition
    have b := bodySymbols_checkBody body
    have es := elsifSymbols_checkElsifs elsifs
    refine tree_andThen Stmt.symbols (by simp only [Stmt.symbols, c]) fun _ => ?_
    refine tree_andThen Stmt.symbols (by simp only [Stmt.symbols, c, b]) fun _ => ?_
    rw [tree_after]
    exact tree_andThen Stmt.symbols (by simp only [Stmt.symbols, c, b, es]) fun _ => by
      simp only [done, Stmt.symbols, c, b, es]
  | .branch p condition body elsifs (some otherwise) =>
    have c := symbols_check table condition
    have b := bodySymbols_checkBody body
    have es := elsifSymbols_checkElsifs elsifs
    have o := bodySymbols_checkBody otherwise
    refine tree_andThen Stmt.symbols (by simp only [Stmt.symbols, c]) fun _ => ?_
    refine tree_andThen Stmt.symbols (by simp only [Stmt.symbols, c, b]) fun _ => ?_
    rw [tree_after]
    refine tree_andThen Stmt.symbols (by simp only [Stmt.symbols, c, b, es]) fun _ => ?_
    exact tree_andThen Stmt.symbols (by simp only [Stmt.symbols, c, b, es, o]) fun _ => by
      simp only [done, Stmt.symbols, c, b, es, o]
  | .ret p value =>
    have v := symbols_checkReturn table p value
    exact tree_andThen Stmt.symbols (by simp only [Stmt.symbols_ret, v]) fun _ => by
      simp only [done, Stmt.symbols_ret, v]
  | .call p callee args =>
    have as := argSymbols_checkCall table callee args
    exact tree_andThen Stmt.symbols (by simp only [Stmt.symbols, as]) fun _ => by
      simp only [done, Stmt.symbols, as]
termination_by sizeOf s

theorem symbols_checkElsif (e : Elsif) : (e.check table).tree.symbols = e.symbols := by
  match e with
  | .clause p condition body =>
    have c := symbols_check table condition
    have b := bodySymbols_checkBody body
    -- the body is checked before the condition
    refine tree_andThen Elsif.symbols (by simp only [Elsif.symbols, b]) fun _ => ?_
    exact tree_andThen Elsif.symbols (by simp only [Elsif.symbols, c, b]) fun _ => by
      simp only [done, Elsif.symbols, c, b]
termination_by sizeOf e

theorem elsifSymbols_checkElsifs (es : List Elsif) :
    elsifSymbols (checkElsifs table es).tree = elsifSymbols es := by
  match es with
  | [] => rfl
  | e :: es =>
    have first := symbols_checkElsif e
    have others := elsifSymbols_checkElsifs es
    refine tree_andThen elsifSymbols (by simp only [elsifSymbols, others]) fun _ => ?_
    exact tree_andThen elsifSymbols (by simp only [elsifSymbols, first, others]) fun _ => by
      simp only [done, elsifSymbols, first, others]
termination_by sizeOf es

theorem bodySymbols_checkBody (b : List Stmt) : bodySymbols (checkBody table b).tree = bodySymbols b := by
  match b with
  | [] => rfl
  | s :: b =>
    have first := symbols_checkStmt s
    have others := bodySymbols_checkBody b
    -- the later statements come first
    refine tree_andThen bodySymbols (by simp only [bodySymbols, others]) fun _ => ?_
    exact tree_andThen bodySymbols (by simp only [bodySymbols, first, others]) fun _ => by
      simp only [done, bodySymbols, first, others]
termination_by sizeOf b

end

/-- Checking a body keeps the symbols it refers to. -/
theorem bodySymbols_check (env : SymbolIndex) (b : Body) :
    bodySymbols (b.check table env).tree = bodySymbols b := by
  have checked := bodySymbols_checkBody table b
  unfold Body.check
  split
  · rfl
  · exact tree_andThen bodySymbols checked fun _ => checked

end MiniPascal
