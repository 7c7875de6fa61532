import MiniPascal.Checking.Checked
import MiniPascal.Symbol.Table
import MiniPascal.Syntax.Basic

/-!
# Checking expressions

Checking an expression finds its type, stores a type in it, and converts integer parts to
real where the other side is real. The found and the stored type differ in three cases: a
name of a type has that type itself, the operators that want integers store `integer` even
if they have something else, and a relation stores `integer` even if neither side is one,
when its own type is void.

Arguments are checked from the last to the first, and matched with the parameters in the
same order.
-/

namespace MiniPascal

/-! ## Operators -/

/-- Two checked operands as they stand after conversion, the type to store and the type
found. -/
structure Operation where
  left : Expr
  right : Expr
  events : List Event
  stored : SymbolIndex
  found : SymbolIndex

def widening (e : Expr) : Expr × List Event :=
  (e.widen, [.widened e.pos])

/-- Converts an expression whose stored type is integer. -/
def wideningInteger (e : Expr) : Expr × List Event :=
  if e.type = integerType then widening e else (e, [])

/-- Addition, subtraction and multiplication: an integer beside anything else is converted.
Two operands of which none is an integer and not both are real have no type in common,
which is no error of the operation. -/
def arithmetic (left right : Expr) (leftType rightType : SymbolIndex) : Operation :=
  if leftType = integerType ∧ rightType = integerType then
    ⟨left, right, [], integerType, integerType⟩
  else if leftType = realType ∧ rightType = realType then
    ⟨left, right, [], realType, realType⟩
  else if leftType = integerType then
    let (left, events) := widening left
    ⟨left, right, events, realType, realType⟩
  else if rightType = integerType then
    let (right, events) := widening right
    ⟨left, right, events, realType, realType⟩
  else ⟨left, right, [], voidType, voidType⟩

def division (left right : Expr) : Operation :=
  let (left, leftEvents) := wideningInteger left
  let (right, rightEvents) := wideningInteger right
  ⟨left, right, leftEvents ++ rightEvents, realType, realType⟩

/-- The name in messages of an operator that wants integers. The others have none. -/
def BinaryOp.capitals? : BinaryOp → Option String
  | .or => some "OR"
  | .and => some "AND"
  | .div => some "IDIV"
  | .mod => some "MOD"
  | .add | .sub | .mul | .divide => none

/-- The operators on integers. An integer on the left of a real is converted and accepted;
a real on the left of an integer is not. There is no operation if the error needs a name that
the operator does not have. -/
def integerOperation (pos : Position) (op : BinaryOp) (left right : Expr)
    (leftType rightType : SymbolIndex) : Option Operation :=
  if leftType = integerType ∧ rightType = integerType then
    some ⟨left, right, [], integerType, integerType⟩
  else if leftType = integerType ∧ rightType = realType then
    let (left, events) := widening left
    some ⟨left, right, events, integerType, integerType⟩
  else
    op.capitals?.map fun name =>
      ⟨left, right, [.error (some pos) (.integerOperandsExpected name)], integerType, voidType⟩

def binaryOperation (pos : Position) (op : BinaryOp) (left right : Expr)
    (leftType rightType : SymbolIndex) : Option Operation :=
  match op with
  | .add | .sub | .mul => some (arithmetic left right leftType rightType)
  | .divide => some (division left right)
  | .or | .and | .div | .mod => integerOperation pos op left right leftType rightType

/-- Relations are integers. A single integer side is converted; two sides that are no
integers have no type in common, which is no error of the relation. -/
def comparison (left right : Expr) (leftType rightType : SymbolIndex) : Operation :=
  if leftType = integerType ∧ rightType = integerType then
    ⟨left, right, [], integerType, integerType⟩
  else if leftType = integerType then
    let (left, events) := widening left
    ⟨left, right, events, integerType, integerType⟩
  else if rightType = integerType then
    let (right, events) := widening right
    ⟨left, right, events, integerType, integerType⟩
  else ⟨left, right, [], integerType, voidType⟩

/-! ## Arguments -/

/-- Matches parameters with checked arguments, both from the last to the first. The result
is whether they fit. Integers are converted to real on the way, also in front of a
mismatch. -/
def matchReversed (table : SymbolTable) (pos : Position) :
    List SymbolIndex → List Expr → Checked (List Expr) Bool
  | [], [] => .done [] [] true
  | [], args => .done args [.error (some pos) .argumentCount] false
  | _ :: _, [] => .done [] [.error (some pos) .argumentCount] false
  | param :: params, arg :: args =>
    match table.get? param with
    | none => .stopped (arg :: args)
    | some symbol =>
      if symbol.type = arg.type then
        let c := matchReversed table pos params args
        ⟨arg :: c.tree, c.events, c.result⟩
      else if symbol.type = realType ∧ arg.type = integerType then
        let c := matchReversed table pos params args
        ⟨arg.widen :: c.tree, .widened arg.pos :: c.events, c.result⟩
      else if symbol.type = integerType then
        .done (arg :: args) [.error (some pos) .argumentType] false
      else .done (arg :: args) [] false

def matchArguments (table : SymbolTable) (pos : Position) (params : List SymbolIndex)
    (args : List Expr) : Checked (List Expr) Bool :=
  let c := matchReversed table pos params.reverse args.reverse
  { c with tree := c.tree.reverse }

/-- Looks the routine up and matches its parameters with the checked arguments. The result
is the type of the routine. -/
def checkCallee (table : SymbolTable) (callee : Reference) (args : List Expr) :
    Checked (List Expr) SymbolIndex :=
  match table.get? callee.value with
  | none => .stopped args
  | some routine =>
    (matchArguments table callee.pos routine.params args).andThen id fun args fits =>
      .done args (if fits then [] else [.mismatched routine.name callee.pos]) routine.type

/-! ## Expressions -/

mutual

/-- Checks an expression. The result is the type that was found. -/
def Expr.check (table : SymbolTable) : Expr → Checked Expr SymbolIndex
  | .name n s =>
    match table.get? s with
    | none => .stopped (.name n s)
    | some symbol =>
      .done (.name ⟨n.pos, symbol.type⟩ s) [] (if symbol.kind = .namedType then s else symbol.type)
  | .element n array index =>
    match table.get? array.value with
    | none => .stopped (.element n array index)
    | some symbol =>
      (index.check table).andThen (.element n array) fun index found =>
        .done (.element ⟨n.pos, symbol.type⟩ array index)
          (if found = integerType then []
          else [.error (some n.pos) (.indexNotInteger symbol.name (table.typeName found))])
          symbol.type
  | .integer n v => .done (.integer ⟨n.pos, integerType⟩ v) [] integerType
  | .real n v => .done (.real ⟨n.pos, realType⟩ v) [] realType
  | .cast n inner =>
    (inner.check table).andThen (.cast n) fun inner _ =>
      .done (.cast ⟨n.pos, realType⟩ inner) [] realType
  | .negate n inner =>
    (inner.check table).andThen (.negate n) fun inner found =>
      .done (.negate ⟨n.pos, found⟩ inner) [] found
  | .not n inner =>
    (inner.check table).andThen (.not n) fun inner _ =>
      if inner.type = integerType then
        .done (.not ⟨n.pos, integerType⟩ inner) [] integerType
      else
        .done (.not ⟨n.pos, voidType⟩ inner) [.error (some inner.pos) .negatedNotInteger] voidType
  | .call n callee args =>
    (checkArgs table args).andThen (.call n callee) fun args _ =>
      (checkCallee table callee args).andThen (.call n callee) fun args type =>
        .done (.call ⟨n.pos, type⟩ callee args) [] type
  | .binary n op left right =>
    (left.check table).andThen (fun left => .binary n op left right) fun left leftType =>
      (right.check table).andThen (.binary n op left) fun right rightType =>
        match binaryOperation n.pos op left right leftType rightType with
        | none => .stopped (.binary n op left right)
        | some o => .done (.binary ⟨n.pos, o.stored⟩ op o.left o.right) o.events o.found
  | .relation n op left right =>
    (left.check table).andThen (fun left => .relation n op left right) fun left leftType =>
      (right.check table).andThen (.relation n op left) fun right rightType =>
        let o := comparison left right leftType rightType
        .done (.relation ⟨n.pos, o.stored⟩ op o.left o.right) o.events o.found

/-- Checks arguments, the last one first. -/
def checkArgs (table : SymbolTable) : List Expr → Checked (List Expr) Unit
  | [] => .done [] [] ()
  | e :: es =>
    (checkArgs table es).andThen (e :: ·) fun es _ =>
      (e.check table).andThen (· :: es) fun e _ =>
        .done (e :: es) [] ()

end

end MiniPascal
