import MiniPascal.Proofs.Checking.Returns

/-!
# Checking in another routine

Of the environment that is open, checking takes only what may be returned. Where the symbols are the same, a body
is rewritten in the same way for any routine, and no messages differ but those about returns.
-/

namespace MiniPascal

open Checked

variable {table table' : SymbolTable}

/-! ## Expressions -/

theorem get?_congr (same : table'.symbols = table.symbols) (i : SymbolIndex) : table'.get? i = table.get? i := by
  rw [SymbolTable.get?, SymbolTable.get?, same]

theorem typeName_congr (same : table'.symbols = table.symbols) (i : SymbolIndex) :
    table'.typeName i = table.typeName i := by
  rw [SymbolTable.typeName, SymbolTable.typeName, get?_congr same]

theorem matchReversed_congr (same : table'.symbols = table.symbols) (pos : Position) (params : List SymbolIndex)
    (args : List Expr) : matchReversed table' pos params args = matchReversed table pos params args := by
  induction params generalizing args with
  | nil => cases args <;> rfl
  | cons param params ih =>
    cases args with
    | nil => rfl
    | cons arg args => simp only [matchReversed, get?_congr same, ih]

theorem checkCallee_congr (same : table'.symbols = table.symbols) (callee : Reference) (args : List Expr) :
    checkCallee table' callee args = checkCallee table callee args := by
  simp only [checkCallee, matchArguments, get?_congr same, matchReversed_congr same]

mutual

/-- The environment has no part in the check of an expression. -/
theorem check_congr (same : table'.symbols = table.symbols) (e : Expr) : e.check table' = e.check table := by
  match e with
  | .name n s => rw [Expr.check, Expr.check, get?_congr same]
  | .element n array index =>
    simp only [Expr.check, get?_congr same, typeName_congr same, check_congr same index]
  | .integer .. | .real .. => rfl
  | .cast n inner | .negate n inner | .not n inner => rw [Expr.check, Expr.check, check_congr same inner]
  | .call n callee args => simp only [Expr.check, checkArgs_congr same args, checkCallee_congr same]
  | .binary n op left right | .relation n op left right =>
    rw [Expr.check, Expr.check, check_congr same left, check_congr same right]
termination_by sizeOf e

theorem checkArgs_congr (same : table'.symbols = table.symbols) (es : List Expr) :
    checkArgs table' es = checkArgs table es := by
  match es with
  | [] => rfl
  | e :: es => rw [checkArgs, checkArgs, checkArgs_congr same es, check_congr same e]
termination_by sizeOf es

end

/-! ## Two runs -/

def besideReturns (events : List Event) : List Event :=
  events.filter fun event => !event.isAboutReturn

theorem besideReturns_append (front back : List Event) :
    besideReturns (front ++ back) = besideReturns front ++ besideReturns back :=
  List.filter_append ..

namespace Checked

variable {τ υ σ ρ : Type}

/-- The same tree and the same result, and the same events but for errors about returns. -/
structure Alike (c d : Checked τ σ) : Prop where
  tree : c.tree = d.tree
  result : c.result = d.result
  events : besideReturns c.events = besideReturns d.events

variable {c d : Checked τ σ} {rest : τ → υ} {next next' : τ → σ → Checked υ ρ}

theorem Alike.refl (c : Checked τ σ) : Alike c c :=
  ⟨rfl, rfl, rfl⟩

theorem Alike.after (alike : Alike c d) (events : List Event) : Alike (c.after events) (d.after events) := by
  refine ⟨alike.tree, alike.result, ?_⟩
  rw [events_after, events_after, besideReturns_append, besideReturns_append, alike.events]

theorem Alike.andThen (first : Alike c d) (second : ∀ tree s, Alike (next tree s) (next' tree s)) :
    Alike (c.andThen rest next) (d.andThen rest next') := by
  obtain ⟨tree, result, events⟩ := first
  unfold Checked.andThen
  rw [← tree, ← result]
  cases c.result with
  | none => exact ⟨rfl, rfl, events⟩
  | some s =>
    have last := second c.tree s
    refine ⟨last.tree, last.result, ?_⟩
    rw [besideReturns_append, besideReturns_append, events, last.events]

end Checked

/-! ## Statements -/

variable {routine routine' : Symbol}

theorem returned_besides (routine : Symbol) (pos : Position) (value : Expr) (found : SymbolIndex) :
    besideReturns (returned routine pos value found) = [] := by
  unfold returned
  split_ifs <;> rfl

theorem alike_checkReturn (same : table'.symbols = table.symbols)
    (current : table.get? table.currentEnvironment = some routine)
    (current' : table'.get? table'.currentEnvironment = some routine') (pos : Position) (value : Option Expr) :
    Alike (checkReturn table' pos value) (checkReturn table pos value) := by
  unfold checkReturn
  rw [current, current']
  cases value with
  | none =>
    refine ⟨rfl, rfl, ?_⟩
    simp only [done]
    split_ifs <;> rfl
  | some value =>
    -- both routines see the same value, and may only criticise that there is one, or its type
    simp only [check_congr same]
    refine (Alike.refl _).andThen fun value found => ⟨rfl, rfl, ?_⟩
    exact (returned_besides routine' pos value found).trans (returned_besides routine pos value found).symm

mutual

theorem alike_checkStmt (same : table'.symbols = table.symbols)
    (current : table.get? table.currentEnvironment = some routine)
    (current' : table'.get? table'.currentEnvironment = some routine') (s : Stmt) :
    Alike (s.check table') (s.check table) := by
  match s with
  | .assign p target value =>
    rw [Stmt.check, Stmt.check, check_congr same target, check_congr same value]
    refine (Alike.refl _).andThen fun _ _ => (Alike.refl _).andThen fun value valueType => ?_
    simp only [assigned, typeName_congr same]
    exact .refl _
  | .loop p condition body =>
    rw [Stmt.check, Stmt.check, check_congr same condition]
    refine (Alike.refl _).andThen fun _ _ => .after ?_ _
    exact (alike_checkBody same current current' body).andThen fun _ _ => .refl _
  | .branch p condition body elsifs none =>
    rw [Stmt.check, Stmt.check, check_congr same condition]
    refine (Alike.refl _).andThen fun _ _ => ?_
    refine (alike_checkBody same current current' body).andThen fun _ _ => .after ?_ _
    exact (alike_checkElsifs same current current' elsifs).andThen fun _ _ => .refl _
  | .branch p condition body elsifs (some otherwise) =>
    rw [Stmt.check, Stmt.check, check_congr same condition]
    refine (Alike.refl _).andThen fun _ _ => ?_
    refine (alike_checkBody same current current' body).andThen fun _ _ => .after ?_ _
    refine (alike_checkElsifs same current current' elsifs).andThen fun _ _ => ?_
    exact (alike_checkBody same current current' otherwise).andThen fun _ _ => .refl _
  | .ret p value =>
    rw [Stmt.check, Stmt.check]
    exact (alike_checkReturn same current current' p value).andThen fun _ _ => .refl _
  | .call p callee args =>
    simp only [Stmt.check, checkCall, checkArgs_congr same args, checkCallee_congr same]
    exact .refl _
termination_by sizeOf s

theorem alike_checkElsif (same : table'.symbols = table.symbols)
    (current : table.get? table.currentEnvironment = some routine)
    (current' : table'.get? table'.currentEnvironment = some routine') (e : Elsif) :
    Alike (e.check table') (e.check table) := by
  match e with
  | .clause p condition body =>
    rw [Elsif.check, Elsif.check, check_congr same condition]
    exact (alike_checkBody same current current' body).andThen fun _ _ => .refl _
termination_by sizeOf e

theorem alike_checkElsifs (same : table'.symbols = table.symbols)
    (current : table.get? table.currentEnvironment = some routine)
    (current' : table'.get? table'.currentEnvironment = some routine') (es : List Elsif) :
    Alike (checkElsifs table' es) (checkElsifs table es) := by
  match es with
  | [] => exact .refl _
  | e :: es =>
    rw [checkElsifs, checkElsifs]
    refine (alike_checkElsifs same current current' es).andThen fun _ _ => ?_
    exact (alike_checkElsif same current current' e).andThen fun _ _ => .refl _
termination_by sizeOf es

theorem alike_checkBody (same : table'.symbols = table.symbols)
    (current : table.get? table.currentEnvironment = some routine)
    (current' : table'.get? table'.currentEnvironment = some routine') (b : List Stmt) :
    Alike (checkBody table' b) (checkBody table b) := by
  match b with
  | [] => exact .refl _
  | s :: b =>
    rw [checkBody, checkBody]
    refine (alike_checkBody same current current' b).andThen fun _ _ => ?_
    exact (alike_checkStmt same current current' s).andThen fun _ _ => .refl _
termination_by sizeOf b

end

/-! ## Routines -/

/-- All messages but those about returns. -/
def messagesBesideReturns (ms : List Message) : List Message :=
  ms.filter fun m => !m.isAboutReturn

theorem messagesBesideReturns_filterMap (events : List Event) :
    messagesBesideReturns (events.filterMap Event.message?) = (besideReturns events).filterMap Event.message? :=
  filter_filterMap_message? (fun event m message => by rw [isAboutReturn_of_message? event m message]) events

theorem missingReturn_besides (routine : Symbol) (b : Body) (returns : Bool) :
    besideReturns (missingReturn routine b returns) = [] := by
  unfold missingReturn
  split_ifs <;> rfl

/-- At the end of a routine, no message is added but one about returns. -/
theorem besides_bodyCheck {env : SymbolIndex} (found : table.get? env = some routine) (b : Body) :
    messagesBesideReturns (b.check table env).messages =
      (besideReturns (checkBody table b).events).filterMap Event.message? := by
  rw [(bodyCheck_of_get? found b).2.2, messagesBesideReturns, List.filter_append, ← messagesBesideReturns,
    ← messagesBesideReturns, Checked.messages, messagesBesideReturns_filterMap]
  cases (checkBody table b).result with
  | none => exact List.append_nil _
  | some returns =>
    rw [Option.elim_some, messagesBesideReturns_filterMap, missingReturn_besides]
    exact List.append_nil _

/-- In a function, each `return` without a value or with one of another type is criticised, and at last the function
if there is none at any depth; in a procedure, each one with a value is. There are no other messages about returns.
In any other routine, the same statements come out, and the same messages but for those. -/
theorem returns_alone_depend_on_routine (params : table.ParamsInside) (same : table'.symbols = table.symbols)
    (current : table.get? table.currentEnvironment = some routine) (isRoutine : routine.kind.isRoutine)
    (current' : table'.get? table'.currentEnvironment = some routine') (b : Body) :
    let c := b.check table table.currentEnvironment
    let c' := b.check table' table'.currentEnvironment
    (c.Ends ↔ table.Covers (bodySymbols b)) ∧
      (c.Ends → ∃ own, c.messages = own ++ missingReturnMessages routine b ∧
        own.filter Message.isAboutReturn = (bodyReturns b).filterMap (Return.message? table routine)) ∧
      c'.result = c.result ∧ c'.tree = c.tree ∧
      messagesBesideReturns c'.messages = messagesBesideReturns c.messages := by
  intro c c'
  have environment := lt_of_get?_eq_some current
  have environment' := lt_of_get?_eq_some current'
  have alike := alike_checkBody same current current' b
  have ends := ends_bodyCheck params environment environment b
  refine ⟨ends, fun ended => ?_, ?_, ?_, ?_⟩
  · exact messages_about_returns current isRoutine ((ends_checkBody params environment b).mpr (ends.mp ended))
  · rw [(bodyCheck_of_get? current' b).2.1, alike.result, ← (bodyCheck_of_get? current b).2.1]
  · rw [(bodyCheck_of_get? current' b).1, alike.tree, ← (bodyCheck_of_get? current b).1]
  · rw [besides_bodyCheck current', besides_bodyCheck current, alike.events]

/-- A loop in a function has a `return` without a value, and one with a real. Only in the program may the first one
stay. -/
theorem returns_alone_depend_on_routine_real_value :
    let main := SymbolTable.new "main"
    let table : SymbolTable :=
      { main with symbols := main.symbols ++ [.plain "f" .function integerType], environments := [4] }
    let table' : SymbolTable := { table with environments := [] }
    let f : Symbol := .plain "f" .function integerType
    let half : Expr := .real ⟨⟨3, 8⟩, realType⟩ 0.5
    let b : Body := [.ret ⟨1, 1⟩ none, .loop ⟨2, 1⟩ half [.ret ⟨3, 1⟩ (some half)]]
    let c := b.check table table.currentEnvironment
    let c' := b.check table' table'.currentEnvironment
    table.ParamsInside ∧ table.get? table.currentEnvironment = some f ∧ f.kind.isRoutine ∧ c.Ends ∧
      c.messages.filter Message.isAboutReturn = [⟨.error, some ⟨3, 8⟩, "Bad return type from function."⟩,
        ⟨.error, some ⟨1, 1⟩, "Must return a value from a function."⟩] ∧
      c'.tree = c.tree ∧ messagesBesideReturns c'.messages = messagesBesideReturns c.messages ∧
      messagesBesideReturns c.messages = [⟨.error, some ⟨3, 8⟩, "while predicate must be of integer type."⟩] := by
  intro main table table' f half b c c'
  have params : table.ParamsInside := by decide
  have same : table'.symbols = table.symbols := rfl
  have current : table.get? table.currentEnvironment = some f := rfl
  have current' : table'.get? table'.currentEnvironment = some (.plain "main" .procedure voidType) := rfl
  obtain ⟨ends, reported, -, tree, besides⟩ :=
    returns_alone_depend_on_routine params same current rfl current' b
  have ended : c.Ends := ends.mpr (by decide)
  obtain ⟨own, messages, errors⟩ := reported ended
  have none_missing : missingReturnMessages f b = [] := rfl
  refine ⟨params, current, rfl, ended, ?_, tree, besides, by decide +kernel⟩
  rw [messages, none_missing, List.append_nil, errors]
  decide +kernel

end MiniPascal
