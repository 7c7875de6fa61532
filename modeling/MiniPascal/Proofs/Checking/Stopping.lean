import MiniPascal.Proofs.Checking.Totality

/-!
# Where checking stops

Checking a tree ends with a result if all its references lead into the table, and it stops if one of
them does not. Of the table it takes that the parameters of its symbols are in it, not that the types
are.
-/

namespace MiniPascal

open Checked

namespace Checked

variable {τ υ σ ρ : Type} {c : Checked τ σ} {rest : τ → υ} {next : τ → σ → Checked υ ρ}

/-- There is a result. -/
def Ends (c : Checked τ σ) : Prop :=
  c.result.isSome

@[simp] theorem ends_done (tree : τ) (events : List Event) (s : σ) : (done tree events s).Ends := rfl

@[simp] theorem not_ends_stopped (tree : τ) : ¬(stopped tree : Checked τ σ).Ends := by
  simp [Ends, stopped]

@[simp] theorem ends_after (events : List Event) : (c.after events).Ends ↔ c.Ends := Iff.rfl

theorem ends_of_eq_some {s : σ} (result : c.result = some s) : c.Ends := by
  simp [Ends, result]

theorem ends_andThen {p q : Prop} (first : c.Ends ↔ p) (second : ∀ s, (next c.tree s).Ends ↔ q) :
    (c.andThen rest next).Ends ↔ p ∧ q := by
  unfold Ends at first second ⊢
  rw [result_andThen, ← first]
  cases c.result with
  | none => simp
  | some s => simpa using second s

/-- A last step that always ends. -/
theorem ends_andThen_done {p : Prop} (first : c.Ends ↔ p) {tree : τ → σ → υ} {events : τ → σ → List Event}
    {result : τ → σ → ρ} : (c.andThen rest fun t s => done (tree t s) (events t s) (result t s)).Ends ↔ p := by
  rw [ends_andThen first fun s => iff_of_true (ends_done ..) trivial, and_true]

end Checked

/-! ## Symbols -/

/-- The parameters of all symbols are in the table. -/
def SymbolTable.ParamsInside (table : SymbolTable) : Prop :=
  ∀ s ∈ table.symbols, table.Covers s.params

instance (table : SymbolTable) : Decidable table.ParamsInside :=
  inferInstanceAs (Decidable (∀ s ∈ table.symbols, table.Covers s.params))

variable {table : SymbolTable}

/-! ## Calls -/

theorem ends_checkCallee (params : table.ParamsInside) (callee : Reference) (args : List Expr) :
    (checkCallee table callee args).Ends ↔ callee.value < table.size := by
  unfold checkCallee
  cases found : table.get? callee.value with
  | none => exact iff_of_false (not_ends_stopped args) (not_lt_of_get?_eq_none found)
  | some routine =>
    have inside := lt_of_get?_eq_some found
    have covers : table.Covers routine.params.reverse := fun i member =>
      params routine (List.mem_of_getElem? found) i (List.mem_reverse.mp member)
    obtain ⟨fits, result, -⟩ := yields_matchReversed callee.pos routine.params.reverse args.reverse covers
    have matched : (matchArguments table callee.pos routine.params args).Ends := ends_of_eq_some result
    exact ends_andThen_done (iff_of_true matched inside)

/-! ## Expressions -/

/-- An operation has a result, since each operator that may be criticised has a name. -/
theorem exists_operation (pos : Position) (op : BinaryOp) (left right : Expr) (leftType rightType : SymbolIndex) :
    ∃ o, binaryOperation pos op left right leftType rightType = some o := by
  cases op with
  | add | sub | mul | divide => exact ⟨_, rfl⟩
  | div | mod | or | and =>
    unfold binaryOperation integerOperation
    split_ifs <;> exact ⟨_, rfl⟩

mutual

theorem ends_check (params : table.ParamsInside) (e : Expr) : (e.check table).Ends ↔ table.Covers e.symbols := by
  match e with
  | .name n s =>
    rw [Expr.check, Expr.symbols, covers_cons]
    cases found : table.get? s with
    | none => simpa using not_lt_of_get?_eq_none found
    | some symbol => simpa using lt_of_get?_eq_some found
  | .element n array index =>
    rw [Expr.check, Expr.symbols, covers_cons]
    cases found : table.get? array.value with
    | none =>
      have outside := not_lt_of_get?_eq_none found
      exact iff_of_false (not_ends_stopped _) fun covers => outside covers.1
    | some symbol =>
      have inside := lt_of_get?_eq_some found
      rw [iff_true_intro inside, true_and]
      exact ends_andThen_done (ends_check params index)
  | .integer n v | .real n v => exact iff_of_true (ends_done ..) covers_nil
  | .cast n inner | .negate n inner => exact ends_andThen_done (ends_check params inner)
  | .not n inner =>
    rw [Expr.check, Expr.symbols, ends_andThen (ends_check params inner) (q := True), and_true]
    intro found
    split <;> simp
  | .call n callee args =>
    rw [Expr.check, Expr.symbols, covers_cons, and_comm]
    -- the callee is looked up behind its arguments
    refine ends_andThen (ends_checkArgs params args) fun _ => ?_
    exact ends_andThen_done (ends_checkCallee params callee _)
  | .binary n op left right =>
    rw [Expr.check, Expr.symbols, covers_append]
    refine ends_andThen (ends_check params left) fun leftType => ?_
    rw [ends_andThen (ends_check params right) (q := True), and_true]
    intro rightType
    obtain ⟨o, operation⟩ :=
      exists_operation n.pos op (left.check table).tree (right.check table).tree leftType rightType
    simp [operation]
  | .relation n op left right =>
    rw [Expr.check, Expr.symbols, covers_append]
    exact ends_andThen (ends_check params left) fun _ => ends_andThen_done (ends_check params right)
termination_by sizeOf e

theorem ends_checkArgs (params : table.ParamsInside) (es : List Expr) :
    (checkArgs table es).Ends ↔ table.Covers (argSymbols es) := by
  match es with
  | [] => exact iff_of_true (ends_done ..) covers_nil
  | e :: es =>
    rw [checkArgs, argSymbols, covers_append, and_comm]
    exact ends_andThen (ends_checkArgs params es) fun _ => ends_andThen_done (ends_check params e)
termination_by sizeOf es

end

/-! ## Statements -/

theorem ends_checkCall (params : table.ParamsInside) (callee : Reference) (args : List Expr) :
    (checkCall table callee args).Ends ↔ callee.value < table.size ∧ table.Covers (argSymbols args) := by
  rw [and_comm]
  exact ends_andThen (ends_checkArgs params args) fun _ => ends_checkCallee params callee _

theorem ends_checkReturn (params : table.ParamsInside) (inside : table.currentEnvironment < table.size)
    (pos : Position) (value : Option Expr) :
    (checkReturn table pos value).Ends ↔ table.Covers (returnSymbols value) := by
  obtain ⟨routine, found⟩ := get?_eq_some_of_lt inside
  unfold checkReturn
  rw [found]
  cases value with
  | none => exact iff_of_true (ends_done ..) covers_nil
  | some value => exact ends_andThen_done (ends_check params value)

mutual

theorem ends_checkStmt (params : table.ParamsInside) (inside : table.currentEnvironment < table.size)
    (s : Stmt) : (s.check table).Ends ↔ table.Covers s.symbols := by
  match s with
  | .assign p target value =>
    rw [Stmt.check, Stmt.symbols, covers_append]
    exact ends_andThen (ends_check params target) fun _ => ends_andThen_done (ends_check params value)
  | .loop p condition body =>
    rw [Stmt.check, Stmt.symbols, covers_append]
    refine ends_andThen (ends_check params condition) fun _ => ?_
    exact ends_andThen_done (ends_checkBody params inside body)
  | .branch p condition body elsifs none =>
    rw [Stmt.check, Stmt.symbols, covers_append, covers_append, and_assoc]
    refine ends_andThen (ends_check params condition) fun _ => ?_
    refine ends_andThen (ends_checkBody params inside body) fun _ => ?_
    exact ends_andThen_done (ends_checkElsifs params inside elsifs)
  | .branch p condition body elsifs (some otherwise) =>
    rw [Stmt.check, Stmt.symbols, covers_append, covers_append, covers_append, and_assoc, and_assoc]
    refine ends_andThen (ends_check params condition) fun _ => ?_
    refine ends_andThen (ends_checkBody params inside body) fun _ => ?_
    refine ends_andThen (ends_checkElsifs params inside elsifs) fun _ => ?_
    exact ends_andThen_done (ends_checkBody params inside otherwise)
  | .ret p value =>
    rw [Stmt.check, Stmt.symbols_ret]
    exact ends_andThen_done (ends_checkReturn params inside p value)
  | .call p callee args =>
    rw [Stmt.check, Stmt.symbols, covers_cons]
    exact ends_andThen_done (ends_checkCall params callee args)
termination_by sizeOf s

theorem ends_checkElsif (params : table.ParamsInside) (inside : table.currentEnvironment < table.size)
    (e : Elsif) : (e.check table).Ends ↔ table.Covers e.symbols := by
  match e with
  | .clause p condition body =>
    rw [Elsif.check, Elsif.symbols, covers_append, and_comm]
    refine ends_andThen (ends_checkBody params inside body) fun _ => ?_
    exact ends_andThen_done (ends_check params condition)
termination_by sizeOf e

theorem ends_checkElsifs (params : table.ParamsInside) (inside : table.currentEnvironment < table.size)
    (es : List Elsif) : (checkElsifs table es).Ends ↔ table.Covers (elsifSymbols es) := by
  match es with
  | [] => exact iff_of_true (ends_done ..) covers_nil
  | e :: es =>
    rw [checkElsifs, elsifSymbols, covers_append, and_comm]
    refine ends_andThen (ends_checkElsifs params inside es) fun _ => ?_
    exact ends_andThen_done (ends_checkElsif params inside e)
termination_by sizeOf es

theorem ends_checkBody (params : table.ParamsInside) (inside : table.currentEnvironment < table.size)
    (b : List Stmt) : (checkBody table b).Ends ↔ table.Covers (bodySymbols b) := by
  match b with
  | [] => exact iff_of_true (ends_done ..) covers_nil
  | s :: b =>
    rw [checkBody, bodySymbols, covers_append, and_comm]
    refine ends_andThen (ends_checkBody params inside b) fun _ => ?_
    exact ends_andThen_done (ends_checkStmt params inside s)
termination_by sizeOf b

end

/-- Checking the body of a routine ends just if all its references lead into the table. -/
theorem ends_bodyCheck (params : table.ParamsInside) (inside : table.currentEnvironment < table.size)
    {env : SymbolIndex} (known : env < table.size) (b : Body) :
    (b.check table env).Ends ↔ table.Covers (bodySymbols b) := by
  obtain ⟨routine, found⟩ := get?_eq_some_of_lt known
  unfold Body.check
  rw [found]
  exact ends_andThen_done (ends_checkBody params inside b)

end MiniPascal
