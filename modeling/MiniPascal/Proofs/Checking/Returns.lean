import MiniPascal.Proofs.Checking.Annotation
import MiniPascal.Proofs.Checking.Independence

/-!
# What is reported about returns

Whether a `return` is criticised depends on the kind and the type of the routine, and on the type that is found for
its value. Nothing but a `return` gives a message of that sort, except that a function without any is criticised
at the end.
-/

namespace MiniPascal

open Checked

/-! ## Errors about returns -/

def TypeError.isAboutReturn : TypeError → Bool
  | resultRequired | procedureReturnsValue | badResultType | missingReturn => true
  | _ => false

/-- The texts of the messages about returns. -/
def returnTexts : List String :=
  [TypeError.resultRequired, .procedureReturnsValue, .badResultType, .missingReturn].map TypeError.message

def Message.isAboutReturn (m : Message) : Bool :=
  m.text ∈ returnTexts

def Event.isAboutReturn : Event → Bool
  | error _ e => e.isAboutReturn
  | _ => false

theorem head?_append {front : String} (back : String) {c : Char} (first : front.toList.head? = some c) :
    (front ++ back).toList.head? = some c := by
  rw [String.toList_append, List.head?_append, first]
  rfl

/-- All of these texts begin in another way than those of other errors. -/
theorem not_mem_returnTexts {text : String} {c : Char} (first : text.toList.head? = some c)
    (other : c ∉ ['M', 'P', 'B', 'A']) : text ∉ returnTexts := by
  intro member
  have heads : text.toList.head? ∈ returnTexts.map fun t => t.toList.head? := List.mem_map_of_mem member
  rw [first, show returnTexts.map (fun t => t.toList.head?) = ['M', 'P', 'B', 'A'].map some from rfl] at heads
  simp_all

/-- The text of an error tells whether it is about a return. -/
theorem message_mem_returnTexts (e : TypeError) : e.message ∈ returnTexts ↔ e.isAboutReturn := by
  have unrelated {text : String} (c : Char) (first : text.toList.head? = some c)
      (other : c ∉ ['M', 'P', 'B', 'A']) : text ∈ returnTexts ↔ false = true :=
    iff_of_false (not_mem_returnTexts first other) Bool.false_ne_true
  -- the first letter tells the texts apart, whatever names are in them
  cases e with
  | resultRequired | procedureReturnsValue | badResultType | missingReturn =>
    exact iff_of_true (by simp [returnTexts]) rfl
  | indexNotInteger array found =>
    have first := head?_append ")" (head?_append array (head?_append " (array " (head?_append found
      (show "array index must be of type integer, found ".toList.head? = some 'a' from rfl))))
    exact unrelated 'a' first (by decide)
  | integerOperandsExpected op =>
    have first := head?_append "-statement, all variables must be int" (head?_append op
      (show "invalid condition in ".toList.head? = some 'i' from rfl))
    exact unrelated 'i' first (by decide)
  | assignmentMismatch target value =>
    have first := head?_append value (head?_append " rhs: " (head?_append target
      (show "lhs and rhs must be of same type in assignment. lhs: ".toList.head? = some 'l' from rfl)))
    exact unrelated 'l' first (by decide)
  | negatedNotInteger => exact unrelated 'n' rfl (by decide)
  | whileConditionNotInteger => exact unrelated 'w' rfl (by decide)
  | ifConditionNotInteger => exact unrelated 'i' rfl (by decide)
  | elsifConditionNotInteger => exact unrelated 'C' rfl (by decide)
  | argumentCount => exact unrelated 'I' rfl (by decide)
  | argumentType => exact unrelated 'T' rfl (by decide)

/-- What holds of messages and of the events that they come from picks the same ones in both. -/
theorem filter_filterMap_message? {p : Event → Bool} {q : Message → Bool}
    (same : ∀ event m, event.message? = some m → q m = p event) (events : List Event) :
    (events.filterMap Event.message?).filter q = (events.filter p).filterMap Event.message? := by
  rw [List.filter_filterMap, List.filterMap_filter]
  congr 1
  funext event
  cases message : event.message? with
  | none => simp
  | some m => simp [Option.filter, same event m message]

theorem isAboutReturn_of_message? (event : Event) (m : Message) (message : event.message? = some m) :
    m.isAboutReturn = event.isAboutReturn := by
  cases event with
  | error pos e =>
    cases message
    rw [Message.isAboutReturn, Event.isAboutReturn, Bool.eq_iff_iff, decide_eq_true_iff]
    exact message_mem_returnTexts e
  | _ => cases message

/-! ## Returns in a tree -/

/-- Where a `return` stands, and the value that it has. -/
structure Return where
  pos : Position
  value : Option Expr

mutual

/-- The returns at any depth, in the order in which they are checked. -/
def Stmt.returns : Stmt → List Return
  | .assign .. | .call .. => []
  | .loop _ _ body => bodyReturns body
  | .branch _ _ body elsifs none => bodyReturns body ++ elsifReturns elsifs
  | .branch _ _ body elsifs (some rest) => bodyReturns body ++ (elsifReturns elsifs ++ bodyReturns rest)
  | .ret p value => [⟨p, value⟩]

def Elsif.returns : Elsif → List Return
  | .clause _ _ body => bodyReturns body

def elsifReturns : List Elsif → List Return
  | [] => []
  | e :: es => elsifReturns es ++ e.returns

def bodyReturns : List Stmt → List Return
  | [] => []
  | s :: b => bodyReturns b ++ s.returns

end

variable {table : SymbolTable}

/-- What is wrong with a `return` of a routine, and where. -/
def Return.error? (table : SymbolTable) (routine : Symbol) (r : Return) : Option (Position × TypeError) :=
  match routine.kind, r.value with
  | .function, none => some (r.pos, .resultRequired)
  | .function, some value =>
    if (value.check table).result = some routine.type then none else some (value.pos, .badResultType)
  | .procedure, some _ => some (r.pos, .procedureReturnsValue)
  | _, _ => none

def Return.message? (table : SymbolTable) (routine : Symbol) (r : Return) : Option Message :=
  (r.error? table routine).map fun e => ⟨.error, some e.1, e.2.message⟩

def returnErrors (table : SymbolTable) (routine : Symbol) (rs : List Return) : List Event :=
  (rs.filterMap (Return.error? table routine)).map fun e => .error (some e.1) e.2

theorem returnErrors_append (routine : Symbol) (rs rs' : List Return) :
    returnErrors table routine (rs ++ rs') = returnErrors table routine rs ++ returnErrors table routine rs' := by
  rw [returnErrors, List.filterMap_append, List.map_append]
  rfl

theorem messages_returnErrors (routine : Symbol) (rs : List Return) :
    (returnErrors table routine rs).filterMap Event.message? = rs.filterMap (Return.message? table routine) := by
  rw [returnErrors, List.filterMap_map]
  simp only [Function.comp_def, Event.message?, List.filterMap_eq_map', List.map_filterMap]
  rfl

/-- The result of a check, which is whether there are any returns. -/
def Tells (rs : List Return) (found : Bool) : Prop :=
  found = true ↔ rs ≠ []

theorem Tells.append {rs rs' : List Return} {found found' : Bool} (first : Tells rs found)
    (second : Tells rs' found') : Tells (rs ++ rs') (found || found') := by
  unfold Tells at first second ⊢
  rw [Bool.or_eq_true, first, second, ← not_and_or, ← List.append_eq_nil_iff]

/-! ## Steps -/

namespace Checked

variable {τ υ σ ρ : Type} {c : Checked τ σ} {due due' : List Event} {R : σ → Prop} {R' : ρ → Prop}
  {rest : τ → υ} {next : τ → σ → Checked υ ρ}

/-- If checking ends, these are its errors about returns, and the result is as `R` says. -/
def Reports (c : Checked τ σ) (due : List Event) (R : σ → Prop) : Prop :=
  ∀ s, c.result = some s → R s ∧ c.events.filter Event.isAboutReturn = due

theorem reports_done {tree : τ} {events : List Event} {s : σ} (holds : R s)
    (errors : events.filter Event.isAboutReturn = due) : (done tree events s).Reports due R := by
  intro _ result
  cases result
  exact ⟨holds, errors⟩

theorem reports_stopped {tree : τ} : (stopped tree : Checked τ σ).Reports due R :=
  fun _ result => nomatch result

theorem Reports.after {events : List Event} (reports : c.Reports due R)
    (unrelated : events.filter Event.isAboutReturn = []) : (c.after events).Reports due R := by
  intro s result
  obtain ⟨holds, errors⟩ := reports s result
  refine ⟨holds, ?_⟩
  rw [events_after, List.filter_append, unrelated, errors, List.nil_append]

theorem Reports.andThen (first : c.Reports due R) (second : ∀ tree s, R s → (next tree s).Reports due' R') :
    (c.andThen rest next).Reports (due ++ due') R' := by
  intro r result
  obtain ⟨s, reached, last, -⟩ := andThen_eq_some result
  obtain ⟨holds, front⟩ := first s reached
  obtain ⟨holds', back⟩ := second c.tree s holds r last
  refine ⟨holds', ?_⟩
  rw [events_andThen reached, List.filter_append, front, back]

/-- The first step has nothing to do with returns. -/
theorem Reports.before (first : c.Reports [] R) (second : ∀ tree s, R s → (next tree s).Reports due R') :
    (c.andThen rest next).Reports due R' :=
  first.andThen second

/-- The second step has nothing to do with returns. -/
theorem Reports.behind (first : c.Reports due R) (second : ∀ tree s, R s → (next tree s).Reports [] R') :
    (c.andThen rest next).Reports due R' := by
  rw [← List.append_nil due]
  exact first.andThen second

end Checked

/-! ## Expressions -/

theorem binaryOperation_unrelated {pos : Position} {op : BinaryOp} {left right : Expr}
    {leftType rightType : SymbolIndex} {o : Operation}
    (operation : binaryOperation pos op left right leftType rightType = some o) :
    o.events.filter Event.isAboutReturn = [] := by
  cases op with
  | add | sub | mul =>
    cases operation
    unfold arithmetic
    split_ifs <;> rfl
  | divide =>
    cases operation
    unfold division wideningInteger
    split_ifs <;> rfl
  | div | mod | or | and =>
    unfold binaryOperation integerOperation at operation
    split_ifs at operation
    · cases operation
      rfl
    · cases operation
      rfl
    · obtain ⟨name, -, rfl⟩ := Option.map_eq_some_iff.mp operation
      rfl

theorem comparison_unrelated (left right : Expr) (leftType rightType : SymbolIndex) :
    (comparison left right leftType rightType).events.filter Event.isAboutReturn = [] := by
  unfold comparison
  split_ifs <;> rfl

theorem reports_matchReversed (pos : Position) (params : List SymbolIndex) (args : List Expr) :
    (matchReversed table pos params args).Reports [] fun _ => True := by
  fun_induction matchReversed table pos params args with
  | case1 | case2 | case3 | case7 | case8 => exact reports_done trivial rfl
  | case4 => exact reports_stopped
  | case5 param params arg args symbol found equal c ih => exact ih
  | case6 param params arg args symbol found different widens c ih => exact ih

theorem reports_checkCallee (callee : Reference) (args : List Expr) :
    (checkCallee table callee args).Reports [] fun _ => True := by
  unfold checkCallee
  split
  · exact reports_stopped
  next routine _ =>
    have matched : (matchArguments table callee.pos routine.params args).Reports [] fun _ => True :=
      reports_matchReversed callee.pos routine.params.reverse args.reverse
    refine matched.before fun _ fits _ => reports_done trivial ?_
    cases fits <;> rfl

mutual

theorem reports_check (e : Expr) : (e.check table).Reports [] fun _ => True := by
  match e with
  | .name n s =>
    rw [Expr.check]
    split
    · exact reports_stopped
    · exact reports_done trivial rfl
  | .element n array index =>
    rw [Expr.check]
    split
    · exact reports_stopped
    · refine (reports_check index).before fun _ _ _ => reports_done trivial ?_
      split_ifs <;> rfl
  | .integer n v | .real n v => exact reports_done trivial rfl
  | .cast n inner | .negate n inner => exact (reports_check inner).before fun _ _ _ => reports_done trivial rfl
  | .not n inner =>
    refine (reports_check inner).before fun _ _ _ => ?_
    split
    · exact reports_done trivial rfl
    · exact reports_done trivial rfl
  | .call n callee args =>
    refine (reports_checkArgs args).before fun args' _ _ => ?_
    exact (reports_checkCallee callee args').before fun _ _ _ => reports_done trivial rfl
  | .binary n op left right =>
    refine (reports_check left).before fun _ _ _ => (reports_check right).before fun _ _ _ => ?_
    split
    · exact reports_stopped
    next operation => exact reports_done trivial (binaryOperation_unrelated operation)
  | .relation n op left right =>
    refine (reports_check left).before fun _ _ _ => (reports_check right).before fun _ _ _ => ?_
    exact reports_done trivial (comparison_unrelated ..)
termination_by sizeOf e

theorem reports_checkArgs (es : List Expr) : (checkArgs table es).Reports [] fun _ => True := by
  match es with
  | [] => exact reports_done trivial rfl
  | e :: es =>
    refine (reports_checkArgs es).before fun _ _ _ => ?_
    exact (reports_check e).before fun _ _ _ => reports_done trivial rfl
termination_by sizeOf es

end

/-! ## Statements -/

variable {routine : Symbol}

theorem unlessInteger_unrelated (type : SymbolIndex) (pos : Position) {e : TypeError}
    (unrelated : e.isAboutReturn = false) : (unlessInteger type pos e).filter Event.isAboutReturn = [] := by
  unfold unlessInteger
  split
  · rfl
  · simpa [Event.isAboutReturn] using unrelated

theorem assigned_unrelated (pos : Position) (value : Expr) (targetType valueType : SymbolIndex) :
    (assigned table pos value targetType valueType).2.filter Event.isAboutReturn = [] := by
  unfold assigned
  split_ifs <;> rfl

theorem Expr.Annotates.pos_eq {e e' : Expr} {k : Nat} (annotates : e.Annotates e' k) : e'.pos = e.pos := by
  cases annotates <;> rfl

theorem returned_errors (isRoutine : routine.kind.isRoutine) {value value' : Expr} {found : SymbolIndex}
    (result : (value.check table).result = some found) (same_place : value'.pos = value.pos) (pos : Position) :
    (returned routine pos value' found).filter Event.isAboutReturn =
      returnErrors table routine [⟨pos, some value⟩] := by
  unfold returned returnErrors
  cases kind : routine.kind with
  | procedure => simp [Return.error?, kind, Event.isAboutReturn, TypeError.isAboutReturn]
  | function =>
    by_cases fits : routine.type = found
    · simp [Return.error?, kind, result, fits]
    · have other : found ≠ routine.type := fun equal => fits equal.symm
      simp [Return.error?, kind, result, fits, other, same_place, Event.isAboutReturn, TypeError.isAboutReturn]
  | _ => simp [kind, SymbolKind.isRoutine] at isRoutine

/-- A `return` is criticised as its routine demands. -/
theorem reports_checkReturn (current : table.get? table.currentEnvironment = some routine)
    (isRoutine : routine.kind.isRoutine) (pos : Position) (value : Option Expr) :
    (checkReturn table pos value).Reports (returnErrors table routine [⟨pos, value⟩]) fun _ => True := by
  unfold checkReturn
  rw [current]
  cases value with
  | none =>
    refine reports_done trivial ?_
    cases kind : routine.kind with
    | procedure => simp [returnErrors, Return.error?, kind]
    | function => simp [returnErrors, Return.error?, kind, Event.isAboutReturn, TypeError.isAboutReturn]
    | _ => simp [kind, SymbolKind.isRoutine] at isRoutine
  | some value =>
    intro _ result
    obtain ⟨found, reached, -, -⟩ := andThen_eq_some result
    have same_place := (leads_check table value).1.pos_eq
    refine ⟨trivial, ?_⟩
    rw [events_andThen reached, List.filter_append, (reports_check value found reached).2, List.nil_append]
    exact returned_errors isRoutine reached same_place pos

theorem reports_checkCall (callee : Reference) (args : List Expr) :
    (checkCall table callee args).Reports [] fun _ => True :=
  (reports_checkArgs args).before fun args _ _ => reports_checkCallee callee args

mutual

/-- Checking a statement reports what is wrong with its returns, and tells whether there are any. -/
theorem reports_checkStmt (current : table.get? table.currentEnvironment = some routine)
    (isRoutine : routine.kind.isRoutine) (s : Stmt) :
    (s.check table).Reports (returnErrors table routine s.returns) (Tells s.returns) := by
  match s with
  | .assign p target value =>
    rw [Stmt.check, Stmt.returns]
    refine (reports_check target).before fun _ targetType _ => ?_
    refine (reports_check value).before fun value' valueType _ => ?_
    exact reports_done (by simp [Tells]) (assigned_unrelated p value' targetType valueType)
  | .loop p condition body =>
    rw [Stmt.check, Stmt.returns]
    refine (reports_check condition).before fun condition' found _ => ?_
    refine Reports.after ?_ (unlessInteger_unrelated found condition'.pos rfl)
    exact (reports_checkBody current isRoutine body).behind fun _ _ returns => reports_done returns rfl
  | .branch p condition body elsifs none =>
    rw [Stmt.check, Stmt.returns, returnErrors_append]
    refine (reports_check condition).before fun condition' found _ => ?_
    refine (reports_checkBody current isRoutine body).andThen fun _ _ returns => ?_
    refine Reports.after ?_ (unlessInteger_unrelated found condition'.pos rfl)
    refine (reports_checkElsifs current isRoutine elsifs).behind fun _ _ elsif_returns => ?_
    exact reports_done (returns.append elsif_returns) rfl
  | .branch p condition body elsifs (some rest) =>
    rw [Stmt.check, Stmt.returns, returnErrors_append, returnErrors_append]
    refine (reports_check condition).before fun condition' found _ => ?_
    refine (reports_checkBody current isRoutine body).andThen fun _ _ returns => ?_
    refine Reports.after ?_ (unlessInteger_unrelated found condition'.pos rfl)
    refine (reports_checkElsifs current isRoutine elsifs).andThen fun _ _ elsif_returns => ?_
    refine (reports_checkBody current isRoutine rest).behind fun _ _ rest_returns => reports_done ?_ rfl
    rw [Bool.or_assoc]
    exact returns.append (elsif_returns.append rest_returns)
  | .ret p value =>
    rw [Stmt.check, Stmt.returns]
    exact (reports_checkReturn current isRoutine p value).behind fun _ _ _ => reports_done (by simp [Tells]) rfl
  | .call p callee args =>
    rw [Stmt.check, Stmt.returns]
    exact (reports_checkCall callee args).before fun _ _ _ => reports_done (by simp [Tells]) rfl
termination_by sizeOf s

theorem reports_checkElsif (current : table.get? table.currentEnvironment = some routine)
    (isRoutine : routine.kind.isRoutine) (e : Elsif) :
    (e.check table).Reports (returnErrors table routine e.returns) (Tells e.returns) := by
  match e with
  | .clause p condition body =>
    rw [Elsif.check, Elsif.returns]
    refine (reports_checkBody current isRoutine body).behind fun _ _ returns => ?_
    refine (reports_check condition).before fun condition' _ _ => ?_
    exact reports_done returns (unlessInteger_unrelated condition'.type condition'.pos rfl)
termination_by sizeOf e

theorem reports_checkElsifs (current : table.get? table.currentEnvironment = some routine)
    (isRoutine : routine.kind.isRoutine) (es : List Elsif) :
    (checkElsifs table es).Reports (returnErrors table routine (elsifReturns es)) (Tells (elsifReturns es)) := by
  match es with
  | [] => exact reports_done (by simp [Tells, elsifReturns]) rfl
  | e :: es =>
    rw [checkElsifs, elsifReturns, returnErrors_append]
    refine (reports_checkElsifs current isRoutine es).andThen fun _ _ later => ?_
    refine (reports_checkElsif current isRoutine e).behind fun _ _ here => reports_done ?_ rfl
    rw [Bool.or_comm]
    exact later.append here
termination_by sizeOf es

theorem reports_checkBody (current : table.get? table.currentEnvironment = some routine)
    (isRoutine : routine.kind.isRoutine) (b : List Stmt) :
    (checkBody table b).Reports (returnErrors table routine (bodyReturns b)) (Tells (bodyReturns b)) := by
  match b with
  | [] => exact reports_done (by simp [Tells, bodyReturns]) rfl
  | s :: b =>
    rw [checkBody, bodyReturns, returnErrors_append]
    -- later statements are checked first
    refine (reports_checkBody current isRoutine b).andThen fun _ _ later => ?_
    refine (reports_checkStmt current isRoutine s).behind fun _ _ here => reports_done ?_ rfl
    rw [Bool.or_comm]
    exact later.append here
termination_by sizeOf b

end

/-! ## Routines -/

theorem Stmt.Annotates.pos_eq {s s' : Stmt} {k : Nat} (annotates : s.Annotates s' k) : s'.pos = s.pos := by
  cases annotates <;> rfl

theorem BodyAnnotates.map_pos_eq {b b' : Body} {k : Nat} (annotates : BodyAnnotates b b' k) :
    b'.map Stmt.pos = b.map Stmt.pos := by
  match b, b', annotates with
  | [], [], .nil => rfl
  | _ :: _, _ :: _, .cons first others => rw [List.map_cons, List.map_cons, first.pos_eq, others.map_pos_eq]

theorem BodyAnnotates.pos?_eq {b b' : Body} {k : Nat} (annotates : BodyAnnotates b b' k) : b'.pos? = b.pos? := by
  rw [Body.pos?, Body.pos?, ← List.getLast?_map, ← List.getLast?_map, annotates.map_pos_eq]

/-- A function in which nothing is returned at any depth is criticised where its last statement stands. -/
def missingReturnMessages (routine : Symbol) (b : Body) : List Message :=
  if routine.kind = .function ∧ bodyReturns b = [] then [⟨.error, b.pos?, TypeError.missingReturn.message⟩] else []

/-- The messages about returns are those for each `return`, and at last the one for a function without any. -/
theorem messages_about_returns (current : table.get? table.currentEnvironment = some routine)
    (isRoutine : routine.kind.isRoutine) {b : Body} (ends : (checkBody table b).Ends) :
    ∃ own, (b.check table table.currentEnvironment).messages = own ++ missingReturnMessages routine b ∧
      own.filter Message.isAboutReturn = (bodyReturns b).filterMap (Return.message? table routine) := by
  obtain ⟨found, result⟩ := Option.isSome_iff_exists.mp ends
  -- the result of the check decides about the last message, and it tells of faulty returns as well
  obtain ⟨tells, errors⟩ := reports_checkBody current isRoutine b found result
  have same_place := (leads_checkBody table b).1.pos?_eq
  refine ⟨(checkBody table b).messages, ?_, ?_⟩
  · rw [(bodyCheck_of_get? current b).2.2, result, Option.elim_some, missingReturn, same_place, missingReturnMessages]
    have missing : (!found) = true ↔ bodyReturns b = [] := by simpa using not_congr tells
    simp only [missing]
    split_ifs <;> rfl
  · rw [← messages_returnErrors, ← errors]
    exact filter_filterMap_message? isAboutReturn_of_message? _

end MiniPascal
