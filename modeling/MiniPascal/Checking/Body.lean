import MiniPascal.Checking.Expr

/-!
# Checking bodies

Statements are checked from the last to the first, and an error in one of them never keeps
another one from being checked. Only `return` depends on the routine that the body belongs
to: what may be returned is asked of the environment that is open, and a function without
any `return` is an error of its own.
-/

namespace MiniPascal

/-- The error, unless the type is integer. -/
def unlessInteger (type : SymbolIndex) (pos : Position) (e : TypeError) : List Event :=
  if type = integerType then [] else [.error (some pos) e]

/-! ## Statements -/

/-- The value of an assignment must have the type of the target; an integer is converted if
the target is real. -/
def assigned (table : SymbolTable) (pos : Position) (value : Expr)
    (targetType valueType : SymbolIndex) : Expr × List Event :=
  if targetType = valueType then (value, [])
  else if targetType = realType ∧ valueType = integerType then widening value
  else
    (value, [.error (some pos)
      (.assignmentMismatch (table.typeName targetType) (table.typeName valueType))])

/-- What a `return` with a value of type `found` may be criticised for in a routine. -/
def returned (routine : Symbol) (pos : Position) (value : Expr) (found : SymbolIndex) :
    List Event :=
  if routine.kind ≠ .function then [.error (some pos) .procedureReturnsValue]
  else if routine.type ≠ found then [.error (some value.pos) .badResultType]
  else []

def checkReturn (table : SymbolTable) (pos : Position) (value : Option Expr) :
    Checked (Option Expr) Unit :=
  match table.get? table.currentEnvironment with
  | none => .stopped value
  | some routine =>
    match value with
    | none =>
      .done none (if routine.kind = .procedure then [] else [.error (some pos) .resultRequired]) ()
    | some value =>
      (value.check table).andThen some fun value found =>
        .done (some value) (returned routine pos value found) ()

/-- The arguments of a call, checked and matched. The result is the type of the routine. -/
def checkCall (table : SymbolTable) (callee : Reference) (args : List Expr) :
    Checked (List Expr) SymbolIndex :=
  (checkArgs table args).andThen id fun args _ => checkCallee table callee args

mutual

/-- Checks a statement. The result is whether there is a `return` in it. -/
def Stmt.check (table : SymbolTable) : Stmt → Checked Stmt Bool
  | .assign p target value =>
    (target.check table).andThen (.assign p · value) fun target targetType =>
      (value.check table).andThen (.assign p target) fun value valueType =>
        let (value, events) := assigned table p value targetType valueType
        .done (.assign p target value) events false
  | .loop p condition body =>
    (condition.check table).andThen (.loop p · body) fun condition found =>
      ((checkBody table body).andThen (.loop p condition) fun body returns =>
        .done (.loop p condition body) [] returns).after
        (unlessInteger found condition.pos .whileConditionNotInteger)
  | .branch p condition body elsifs none =>
    (condition.check table).andThen (.branch p · body elsifs none) fun condition found =>
      (checkBody table body).andThen (.branch p condition · elsifs none) fun body returns =>
        ((checkElsifs table elsifs).andThen (.branch p condition body · none)
          fun elsifs elsifReturns =>
          .done (.branch p condition body elsifs none) [] (returns || elsifReturns)).after
          (unlessInteger found condition.pos .ifConditionNotInteger)
  | .branch p condition body elsifs (some otherwise) =>
    (condition.check table).andThen (.branch p · body elsifs (some otherwise))
      fun condition found =>
      (checkBody table body).andThen (.branch p condition · elsifs (some otherwise))
        fun body returns =>
        ((checkElsifs table elsifs).andThen (.branch p condition body · (some otherwise))
          fun elsifs elsifReturns =>
          (checkBody table otherwise).andThen (fun rest => .branch p condition body elsifs (some rest))
            fun otherwise otherwiseReturns =>
            .done (.branch p condition body elsifs (some otherwise)) []
              (returns || elsifReturns || otherwiseReturns)).after
          (unlessInteger found condition.pos .ifConditionNotInteger)
  | .ret p value =>
    (checkReturn table p value).andThen (.ret p) fun value _ => .done (.ret p value) [] true
  | .call p callee args =>
    (checkCall table callee args).andThen (.call p callee) fun args _ =>
      .done (.call p callee args) [] false

/-- Checks a further condition of a branch, after its body. The type that is stored in the
condition decides. -/
def Elsif.check (table : SymbolTable) : Elsif → Checked Elsif Bool
  | .clause p condition body =>
    (checkBody table body).andThen (.clause p condition) fun body returns =>
      (condition.check table).andThen (.clause p · body) fun condition _ =>
        .done (.clause p condition body)
          (unlessInteger condition.type condition.pos .elsifConditionNotInteger) returns

/-- Checks the further conditions of a branch, the last one first. -/
def checkElsifs (table : SymbolTable) : List Elsif → Checked (List Elsif) Bool
  | [] => .done [] [] false
  | e :: es =>
    (checkElsifs table es).andThen (e :: ·) fun es later =>
      (e.check table).andThen (· :: es) fun e here => .done (e :: es) [] (here || later)

/-- Checks statements, the last one first. -/
def checkBody (table : SymbolTable) : List Stmt → Checked (List Stmt) Bool
  | [] => .done [] [] false
  | s :: ss =>
    (checkBody table ss).andThen (s :: ·) fun ss later =>
      (s.check table).andThen (· :: ss) fun s here => .done (s :: ss) [] (here || later)

end

/-! ## Routines -/

/-- A function must return something somewhere. -/
def missingReturn (routine : Symbol) (body : Body) (returns : Bool) : List Event :=
  if routine.kind = .function ∧ !returns then [.error body.pos? .missingReturn] else []

def errorCount (events : List Event) : Nat :=
  events.countP fun e => e.message?.isSome

/-- Checks the body of the routine `env`. The environment that is open is not changed. -/
def Body.check (table : SymbolTable) (env : SymbolIndex) (body : Body) : Checked Body Unit :=
  match table.get? env with
  | none => .stopped body
  | some routine =>
    let checked := (checkBody table body).andThen id fun body returns =>
      .done body (missingReturn routine body returns) ()
    let finished := match checked.result with
      | some _ => [.finished routine.name (errorCount checked.events)]
      | none => []
    ⟨checked.tree,
      .started routine.kind routine.name body.length :: checked.events ++ finished,
      checked.result⟩

end MiniPascal
