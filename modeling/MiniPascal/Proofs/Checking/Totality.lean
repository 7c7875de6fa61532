import MiniPascal.Proofs.Checking.References
import MiniPascal.Proofs.Symbol.Coverage

/-!
# Checking does not stop

A table is closed if its symbols refer to symbols of the table only. Checking a tree whose
references all lead into a closed table ends with a result, and then all the types that are
stored in the tree are in the table as well, whatever was stored in it before.
-/

namespace MiniPascal

open Checked

/-! ## Closed tables -/

/-- What the symbols of a table refer to is in the table, and so are the builtin types. -/
structure SymbolTable.Closed (table : SymbolTable) : Prop where
  builtins : realType < table.size
  types : ∀ s ∈ table.symbols, s.type < table.size
  params : ∀ s ∈ table.symbols, table.Covers s.params

variable {table : SymbolTable}

theorem SymbolTable.Closed.integer (closed : table.Closed) : integerType < table.size :=
  Nat.lt_of_succ_lt closed.builtins

theorem SymbolTable.Closed.void (closed : table.Closed) : voidType < table.size :=
  Nat.lt_of_succ_lt closed.integer

/-! ## Operators -/

theorem Converted.covers (closed : table.Closed) {before after : Expr} (converted : Converted before after)
    (covers : table.Covers before.types) : table.Covers after.types := by
  rcases converted with rfl | rfl
  · exact covers
  · rw [Expr.types_widen, covers_cons]
    exact ⟨closed.builtins, covers⟩

theorem covers_arithmetic (closed : table.Closed) (left right : Expr) (leftType rightType : SymbolIndex) :
    (arithmetic left right leftType rightType).stored < table.size ∧
      (arithmetic left right leftType rightType).found < table.size := by
  have := closed.builtins
  have := closed.integer
  have := closed.void
  -- each branch stores and finds one of the builtin types
  unfold arithmetic
  split_ifs <;> exact ⟨‹_›, ‹_›⟩

theorem covers_comparison (closed : table.Closed) (left right : Expr) (leftType rightType : SymbolIndex) :
    (comparison left right leftType rightType).stored < table.size ∧
      (comparison left right leftType rightType).found < table.size := by
  have := closed.integer
  have := closed.void
  unfold comparison
  split_ifs <;> exact ⟨‹_›, ‹_›⟩

/-- Every operator that may be criticised has a name, so an operation never lacks a result. -/
theorem exists_binaryOperation (closed : table.Closed) (pos : Position) (op : BinaryOp) (left right : Expr)
    (leftType rightType : SymbolIndex) :
    ∃ o, binaryOperation pos op left right leftType rightType = some o ∧
      o.stored < table.size ∧ o.found < table.size := by
  have real := closed.builtins
  have integer := closed.integer
  cases op with
  | add | sub | mul => exact ⟨_, rfl, covers_arithmetic closed left right leftType rightType⟩
  | divide => exact ⟨_, rfl, real, real⟩
  -- only these may ask for the name of an operator, and all four have one
  | div | mod | or | and =>
    unfold binaryOperation integerOperation
    split_ifs
    · exact ⟨_, rfl, integer, integer⟩
    · exact ⟨_, rfl, integer, integer⟩
    · exact ⟨_, rfl, integer, closed.void⟩

/-! ## Arguments -/

theorem covers_converted (closed : table.Closed) {args args' : List Expr}
    (converted : List.Forall₂ Converted args args') (covers : table.Covers (argTypes args)) :
    table.Covers (argTypes args') := by
  induction converted with
  | nil => exact covers
  | cons first _ ih =>
    rw [argTypes, covers_append] at covers ⊢
    exact ⟨first.covers closed covers.1, ih covers.2⟩

theorem yields_matchReversed (pos : Position) (params : List SymbolIndex) (args : List Expr)
    (covers : table.Covers params) : (matchReversed table pos params args).Yields fun _ _ => True := by
  fun_induction matchReversed table pos params args with
  | case1 | case2 | case3 => exact yields_done _ trivial
  -- a parameter outside of the table is the only way to stop
  | case4 param params arg args outside =>
    obtain ⟨symbol, -, some_symbol⟩ := exists_symbol (covers_cons.mp covers).1
    rw [outside] at some_symbol
    contradiction
  | case5 _ _ _ _ _ _ _ _ ih | case6 _ _ _ _ _ _ _ _ _ ih => exact ih (covers_cons.mp covers).2
  | case7 | case8 => exact yields_done _ trivial

theorem yields_checkCallee (closed : table.Closed) (callee : Reference) (args : List Expr)
    (inside : callee.value < table.size) (covers : table.Covers (argTypes args)) :
    (checkCallee table callee args).Yields fun tree type =>
      table.Covers (argTypes tree) ∧ type < table.size := by
  have converted := converted_checkCallee table callee args
  obtain ⟨routine, member, some_routine⟩ := exists_symbol inside
  have params : table.Covers routine.params.reverse := fun i h =>
    closed.params routine member i (List.mem_reverse.mp h)
  have matched : (matchArguments table callee.pos routine.params args).Yields fun _ _ => True :=
    yields_matchReversed callee.pos routine.params.reverse args.reverse params
  suffices (checkCallee table callee args).Yields fun _ type => type < table.size by
    obtain ⟨type, result, bound⟩ := this
    exact ⟨type, result, covers_converted closed converted covers, bound⟩
  unfold checkCallee
  rw [some_routine]
  exact matched.andThen fun _ _ _ => yields_done _ (closed.types routine member)

/-! ## Expressions -/

mutual

/-- Checking an expression finds a type of the table and stores types of the table only. -/
theorem yields_check (closed : table.Closed) (e : Expr) (covers : table.Covers e.symbols) :
    (e.check table).Yields fun tree found => table.Covers tree.types ∧ found < table.size := by
  match e with
  | .name n s =>
    have inside : s < table.size := covers s List.mem_cons_self
    obtain ⟨symbol, member, some_symbol⟩ := exists_symbol inside
    have type := closed.types symbol member
    simp only [Expr.check, some_symbol]
    refine yields_done _ ⟨by simpa [Expr.types] using type, ?_⟩
    -- the name of a type has that type itself, any other the type of its symbol
    split <;> assumption
  | .element n array index =>
    obtain ⟨inside, covers⟩ := covers_cons.mp covers
    obtain ⟨symbol, member, some_symbol⟩ := exists_symbol inside
    have type := closed.types symbol member
    simp only [Expr.check, some_symbol]
    refine (yields_check closed index covers).andThen fun _ _ index => yields_done _ ⟨?_, type⟩
    rw [Expr.types, covers_cons]
    exact ⟨type, index.1⟩
  | .integer n v => exact yields_done _ ⟨by simpa [Expr.types] using closed.integer, closed.integer⟩
  | .real n v => exact yields_done _ ⟨by simpa [Expr.types] using closed.builtins, closed.builtins⟩
  | .cast n inner =>
    refine (yields_check closed inner covers).andThen fun _ _ inner => yields_done _ ⟨?_, closed.builtins⟩
    rw [Expr.types, covers_cons]
    exact ⟨closed.builtins, inner.1⟩
  | .negate n inner =>
    refine (yields_check closed inner covers).andThen fun _ _ inner => yields_done _ ⟨?_, inner.2⟩
    rw [Expr.types, covers_cons]
    exact ⟨inner.2, inner.1⟩
  | .not n inner =>
    refine (yields_check closed inner covers).andThen fun _ _ inner => ?_
    split
    · refine yields_done _ ⟨?_, closed.integer⟩
      rw [Expr.types, covers_cons]
      exact ⟨closed.integer, inner.1⟩
    · refine yields_done _ ⟨?_, closed.void⟩
      rw [Expr.types, covers_cons]
      exact ⟨closed.void, inner.1⟩
  | .call n callee args =>
    obtain ⟨inside, covers⟩ := covers_cons.mp covers
    refine (yields_checkArgs closed args covers).andThen fun args _ checked => ?_
    refine (yields_checkCallee closed callee args inside checked).andThen fun _ _ matched => ?_
    refine yields_done _ ⟨?_, matched.2⟩
    rw [Expr.types, covers_cons]
    exact ⟨matched.2, matched.1⟩
  | .binary n op left right =>
    obtain ⟨leftCovers, rightCovers⟩ := covers_append.mp covers
    refine (yields_check closed left leftCovers).andThen fun left leftType l => ?_
    refine (yields_check closed right rightCovers).andThen fun right rightType r => ?_
    obtain ⟨o, some_o, stored, found⟩ := exists_binaryOperation closed n.pos op left right leftType rightType
    -- operands may have got casts, whose type is a builtin one
    obtain ⟨lc, rc⟩ := converted_binaryOperation some_o
    simp only [some_o]
    refine yields_done _ ⟨?_, found⟩
    rw [Expr.types, List.cons_append, covers_cons, covers_append]
    exact ⟨stored, lc.covers closed l.1, rc.covers closed r.1⟩
  | .relation n op left right =>
    obtain ⟨leftCovers, rightCovers⟩ := covers_append.mp covers
    refine (yields_check closed left leftCovers).andThen fun left leftType l => ?_
    refine (yields_check closed right rightCovers).andThen fun right rightType r => ?_
    obtain ⟨stored, found⟩ := covers_comparison closed left right leftType rightType
    obtain ⟨lc, rc⟩ := converted_comparison left right leftType rightType
    refine yields_done _ ⟨?_, found⟩
    rw [Expr.types, List.cons_append, covers_cons, covers_append]
    exact ⟨stored, lc.covers closed l.1, rc.covers closed r.1⟩
termination_by sizeOf e

theorem yields_checkArgs (closed : table.Closed) (es : List Expr) (covers : table.Covers (argSymbols es)) :
    (checkArgs table es).Yields fun tree _ => table.Covers (argTypes tree) := by
  match es with
  | [] => exact yields_done _ covers_nil
  | e :: es =>
    obtain ⟨firstCovers, otherCovers⟩ := covers_append.mp covers
    refine (yields_checkArgs closed es otherCovers).andThen fun _ _ others => ?_
    refine (yields_check closed e firstCovers).andThen fun _ _ first => yields_done _ ?_
    rw [argTypes, covers_append]
    exact ⟨first.1, others⟩
termination_by sizeOf es

end

/-! ## Statements -/

/-- The types that are stored in the value of a `return`, if it has one. -/
def returnTypes : Option Expr → List SymbolIndex
  | none => []
  | some value => value.types

theorem Stmt.types_ret (p : Position) (value : Option Expr) : (Stmt.ret p value).types = returnTypes value := by
  cases value <;> simp only [Stmt.types, returnTypes]

theorem yields_checkReturn (closed : table.Closed) (inside : table.currentEnvironment < table.size)
    (pos : Position) (value : Option Expr) (covers : table.Covers (returnSymbols value)) :
    (checkReturn table pos value).Yields fun tree _ => table.Covers (returnTypes tree) := by
  obtain ⟨routine, -, some_routine⟩ := exists_symbol inside
  unfold checkReturn
  rw [some_routine]
  cases value with
  | none => exact yields_done _ covers_nil
  | some value =>
    exact (yields_check closed value covers).andThen fun _ _ checked => yields_done _ checked.1

theorem yields_checkCall (closed : table.Closed) (callee : Reference) (args : List Expr)
    (inside : callee.value < table.size) (covers : table.Covers (argSymbols args)) :
    (checkCall table callee args).Yields fun tree _ => table.Covers (argTypes tree) :=
  (yields_checkArgs closed args covers).andThen fun _ _ checked =>
    (yields_checkCallee closed callee _ inside checked).mono fun _ _ matched => matched.1

mutual

theorem yields_checkStmt (closed : table.Closed) (inside : table.currentEnvironment < table.size)
    (s : Stmt) (covers : table.Covers s.symbols) :
    (s.check table).Yields fun tree _ => table.Covers tree.types := by
  match s with
  | .assign p target value =>
    rw [Stmt.symbols, covers_append] at covers
    rw [Stmt.check]
    refine (yields_check closed target covers.1).andThen fun target targetType t => ?_
    refine (yields_check closed value covers.2).andThen fun value valueType v => ?_
    refine yields_done _ ?_
    rw [Stmt.types, covers_append]
    exact ⟨t.1, (converted_assigned table p value targetType valueType).covers closed v.1⟩
  | .loop p condition body =>
    rw [Stmt.symbols, covers_append] at covers
    rw [Stmt.check]
    refine (yields_check closed condition covers.1).andThen fun _ _ c => ?_
    refine ((yields_checkBody closed inside body covers.2).andThen fun _ _ b => yields_done _ ?_).after _
    rw [Stmt.types, covers_append]
    exact ⟨c.1, b⟩
  | .branch p condition body elsifs none =>
    rw [Stmt.symbols, covers_append, covers_append] at covers
    rw [Stmt.check]
    refine (yields_check closed condition covers.1.1).andThen fun _ _ c => ?_
    refine (yields_checkBody closed inside body covers.1.2).andThen fun _ _ b => ?_
    refine ((yields_checkElsifs closed inside elsifs covers.2).andThen fun _ _ es => yields_done _ ?_).after _
    rw [Stmt.types, covers_append, covers_append]
    exact ⟨⟨c.1, b⟩, es⟩
  | .branch p condition body elsifs (some otherwise) =>
    rw [Stmt.symbols, covers_append, covers_append, covers_append] at covers
    rw [Stmt.check]
    refine (yields_check closed condition covers.1.1.1).andThen fun _ _ c => ?_
    refine (yields_checkBody closed inside body covers.1.1.2).andThen fun _ _ b => ?_
    refine ((yields_checkElsifs closed inside elsifs covers.1.2).andThen fun _ _ es => ?_).after _
    refine (yields_checkBody closed inside otherwise covers.2).andThen fun _ _ o => yields_done _ ?_
    rw [Stmt.types, covers_append, covers_append, covers_append]
    exact ⟨⟨⟨c.1, b⟩, es⟩, o⟩
  | .ret p value =>
    rw [Stmt.symbols_ret] at covers
    rw [Stmt.check]
    refine (yields_checkReturn closed inside p value covers).andThen fun _ _ v => yields_done _ ?_
    rwa [Stmt.types_ret]
  | .call p callee args =>
    rw [Stmt.symbols, covers_cons] at covers
    rw [Stmt.check]
    refine (yields_checkCall closed callee args covers.1 covers.2).andThen fun _ _ as => yields_done _ ?_
    rwa [Stmt.types]
termination_by sizeOf s

theorem yields_checkElsif (closed : table.Closed) (inside : table.currentEnvironment < table.size)
    (e : Elsif) (covers : table.Covers e.symbols) :
    (e.check table).Yields fun tree _ => table.Covers tree.types := by
  match e with
  | .clause p condition body =>
    rw [Elsif.symbols, covers_append] at covers
    rw [Elsif.check]
    refine (yields_checkBody closed inside body covers.2).andThen fun _ _ b => ?_
    refine (yields_check closed condition covers.1).andThen fun _ _ c => yields_done _ ?_
    rw [Elsif.types, covers_append]
    exact ⟨c.1, b⟩
termination_by sizeOf e

theorem yields_checkElsifs (closed : table.Closed) (inside : table.currentEnvironment < table.size)
    (es : List Elsif) (covers : table.Covers (elsifSymbols es)) :
    (checkElsifs table es).Yields fun tree _ => table.Covers (elsifTypes tree) := by
  match es with
  | [] => exact yields_done _ covers_nil
  | e :: es =>
    rw [elsifSymbols, covers_append] at covers
    rw [checkElsifs]
    refine (yields_checkElsifs closed inside es covers.2).andThen fun _ _ others => ?_
    refine (yields_checkElsif closed inside e covers.1).andThen fun _ _ first => yields_done _ ?_
    rw [elsifTypes, covers_append]
    exact ⟨first, others⟩
termination_by sizeOf es

theorem yields_checkBody (closed : table.Closed) (inside : table.currentEnvironment < table.size)
    (b : List Stmt) (covers : table.Covers (bodySymbols b)) :
    (checkBody table b).Yields fun tree _ => table.Covers (bodyTypes tree) := by
  match b with
  | [] => exact yields_done _ covers_nil
  | s :: b =>
    rw [bodySymbols, covers_append] at covers
    rw [checkBody]
    refine (yields_checkBody closed inside b covers.2).andThen fun _ _ others => ?_
    refine (yields_checkStmt closed inside s covers.1).andThen fun _ _ first => yields_done _ ?_
    rw [bodyTypes, covers_append]
    exact ⟨first, others⟩
termination_by sizeOf b

end

/-- Checking the body of a routine ends with a result, if all references lead into the table. -/
theorem yields_bodyCheck (closed : table.Closed) (inside : table.currentEnvironment < table.size)
    {env : SymbolIndex} (known : env < table.size) (b : Body) (covers : table.Covers (bodySymbols b)) :
    (b.check table env).Yields fun tree _ => table.Covers (bodyTypes tree) := by
  obtain ⟨routine, -, some_routine⟩ := exists_symbol known
  have checked : ((checkBody table b).andThen id fun body returns =>
      Checked.done body (missingReturn routine body returns) ()).Yields fun tree _ =>
        table.Covers (bodyTypes tree) :=
    (yields_checkBody closed inside b covers).andThen fun _ _ types => yields_done _ types
  unfold Body.check
  rw [some_routine]
  exact checked

end MiniPascal
