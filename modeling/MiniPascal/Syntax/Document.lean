import MiniPascal.Syntax.Basic

/-!
# Bodies as documents

How trees are written as JSON and read back. A node is a record of its position and its
kind, where the kind is an alternative that holds the parts. The type of an expression may
be left out or be `null`; the expression is then taken as unchecked.
-/

namespace MiniPascal

/-! ## Positions and references -/

def Position.toJson (p : Position) : Json :=
  .record [("line", .ofNat p.line), ("column", .ofNat p.column)]

def Position.decoder : Decoder Position :=
  Decoder.record ["line", "column"] fun fields n => do
    let line ← Decoder.required (Decoder.natural 32) "line" fields n
    let column ← Decoder.required (Decoder.natural 32) "column" fields n
    return ⟨line, column⟩

def Reference.toJson (r : Reference) : Json :=
  .record [("pos", r.pos.toJson), ("data", .ofNat r.value)]

def Reference.decoder : Decoder Reference :=
  Decoder.record ["pos", "data"] fun fields n => do
    let pos ← Decoder.required Position.decoder "pos" fields n
    let value ← Decoder.required SymbolIndex.decoder "data" fields n
    return ⟨pos, value⟩

/-! ## Writing -/

/-- An expression as a record around its kind. -/
def Note.document (n : Note) (kind : String) (content : Json) : Json :=
  .record [
    ("pos", n.pos.toJson),
    ("ty", .ofNat n.type),
    ("kind", .alternative kind content)]

def operands (op : String) (left right : Json) : Json :=
  .record [("op", .ofString op), ("left", left), ("right", right)]

mutual

def Expr.toJson : Expr → Json
  | .name n s => n.document "Id" (.ofNat s)
  | .element n array index =>
    n.document "Indexed" (.record [("array", Reference.toJson array), ("index", index.toJson)])
  | .integer n v => n.document "Integer" (.ofInt v)
  | .real n v => n.document "Real" (.ofReal v)
  | .cast n e => n.document "Cast" e.toJson
  | .negate n e => n.document "UnaryMinus" e.toJson
  | .not n e => n.document "Not" e.toJson
  | .call n callee args =>
    n.document "FunctionCall"
      (.record [("callee", Reference.toJson callee), ("args", .array (argDocuments args))])
  | .binary n op l r => n.document "Binary" (operands op.tag l.toJson r.toJson)
  | .relation n op l r => n.document "Relation" (operands op.tag l.toJson r.toJson)

def argDocuments : List Expr → List Json
  | [] => []
  | e :: es => e.toJson :: argDocuments es

end

def Position.document (p : Position) (kind : String) (content : Json) : Json :=
  .record [("pos", p.toJson), ("kind", .alternative kind content)]

mutual

def Stmt.toJson : Stmt → Json
  | .assign p target value =>
    p.document "Assign" (.record [("lhs", target.toJson), ("rhs", value.toJson)])
  | .branch p condition body elsifs none =>
    p.document "If" (.record [
      ("condition", condition.toJson),
      ("body", .array (bodyDocuments body)),
      ("elsifs", .array (elsifDocuments elsifs)),
      ("else_body", .null)])
  | .branch p condition body elsifs (some otherwise) =>
    p.document "If" (.record [
      ("condition", condition.toJson),
      ("body", .array (bodyDocuments body)),
      ("elsifs", .array (elsifDocuments elsifs)),
      ("else_body", .array (bodyDocuments otherwise))])
  | .loop p condition body =>
    p.document "While"
      (.record [("condition", condition.toJson), ("body", .array (bodyDocuments body))])
  | .ret p value => p.document "Return" (.record [("value", .orNull Expr.toJson value)])
  | .call p callee args =>
    p.document "ProcedureCall"
      (.record [("callee", Reference.toJson callee), ("args", .array (argDocuments args))])

def Elsif.toJson : Elsif → Json
  | .clause p condition body =>
    .record [
      ("pos", p.toJson),
      ("condition", condition.toJson),
      ("body", .array (bodyDocuments body))]

def elsifDocuments : List Elsif → List Json
  | [] => []
  | e :: es => e.toJson :: elsifDocuments es

def bodyDocuments : List Stmt → List Json
  | [] => []
  | s :: ss => s.toJson :: bodyDocuments ss

end

def Body.toJson (b : Body) : Json :=
  .array (bodyDocuments b)

/-! ## Reading -/

def Decoder.operands {α β : Type} (op : String → Option α) (operand : Decoder β) :
    Decoder (α × β × β) :=
  record ["op", "left", "right"] fun fields n => do
    let op ← required (named op) "op" fields n
    let left ← required operand "left" fields n
    let right ← required operand "right" fields n
    return (op, left, right)

/-- A routine and the arguments of its call, which may be missing if `optional`. -/
def Decoder.call {α : Type} (optional : Bool) (arg : Decoder α) :
    Decoder (Reference × List α) :=
  record ["callee", "args"] fun fields n => do
    let callee ← required Reference.decoder "callee" fields n
    let args ← (if optional then defaulted (list arg) [] else required (list arg))
      "args" fields n
    return (callee, args)

def Decoder.element {α : Type} (index : Decoder α) : Decoder (Reference × α) :=
  record ["array", "index"] fun fields n => do
    let array ← required Reference.decoder "array" fields n
    let index ← required index "index" fields n
    return (array, index)

/-- The kind of an expression that stands at `pos`. No type is stored in it yet. -/
def Expr.kindDecoder (pos : Position) (expr : Decoder Expr) : Decoder Expr :=
  Decoder.alternative fun kind n j =>
    let note : Note := ⟨pos, voidType⟩
    match kind with
    | "Id" => (SymbolIndex.decoder n j).map (.name note)
    | "Indexed" => (Decoder.element expr n j).map fun (a, i) => .element note a i
    | "Integer" => (Decoder.int64 n j).map (.integer note)
    | "Real" => (Decoder.real n j).map (.real note)
    | "Cast" => (expr n j).map (.cast note)
    | "UnaryMinus" => (expr n j).map (.negate note)
    | "Not" => (expr n j).map (.not note)
    | "FunctionCall" => (Decoder.call false expr n j).map fun (c, as) => .call note c as
    | "Binary" =>
      (Decoder.operands BinaryOp.ofTag? expr n j).map fun (op, l, r) => .binary note op l r
    | "Relation" =>
      (Decoder.operands RelationOp.ofTag? expr n j).map fun (op, l, r) => .relation note op l r
    | _ => none

/-- Stores the type that was given, or the one of an unchecked expression. -/
def Expr.annotate (type : Option SymbolIndex) (e : Expr) : Expr :=
  match type with
  | some t => e.withType t
  | none => e.unchecked

/-- An expression in which fewer than `height` expressions are nested. -/
def Expr.decoderBelow : (height : Nat) → Decoder Expr
  | 0 => fun _ _ => none
  | height + 1 =>
    Decoder.record ["pos", "ty", "kind"] fun fields n => do
      let pos ← Decoder.required Position.decoder "pos" fields n
      let type ← Decoder.optional SymbolIndex.decoder "ty" fields n
      let e ← Decoder.required (kindDecoder pos (decoderBelow height)) "kind" fields n
      return e.annotate type

/-- Every nested expression opens a container, so the number of containers bounds the
height. -/
def Expr.decoder : Decoder Expr := fun n j =>
  decoderBelow n n j

def Elsif.decoder (stmt : Decoder Stmt) : Decoder Elsif :=
  Decoder.record ["pos", "condition", "body"] fun fields n => do
    let pos ← Decoder.required Position.decoder "pos" fields n
    let condition ← Decoder.required Expr.decoder "condition" fields n
    let body ← Decoder.required (Decoder.list stmt) "body" fields n
    return .clause pos condition body

/-- The kind of a statement that stands at `pos`. -/
def Stmt.kindDecoder (pos : Position) (stmt : Decoder Stmt) : Decoder Stmt :=
  Decoder.alternative fun kind n j =>
    match kind with
    | "Assign" => Decoder.record ["lhs", "rhs"] (fun fields n => do
        let target ← Decoder.required Expr.decoder "lhs" fields n
        let value ← Decoder.required Expr.decoder "rhs" fields n
        return .assign pos target value) n j
    | "If" => Decoder.record ["condition", "body", "elsifs", "else_body"] (fun fields n => do
        let condition ← Decoder.required Expr.decoder "condition" fields n
        let body ← Decoder.required (Decoder.list stmt) "body" fields n
        let elsifs ← Decoder.defaulted (Decoder.list (Elsif.decoder stmt)) [] "elsifs" fields n
        let otherwise ← Decoder.optional (Decoder.list stmt) "else_body" fields n
        return .branch pos condition body elsifs otherwise) n j
    | "While" => Decoder.record ["condition", "body"] (fun fields n => do
        let condition ← Decoder.required Expr.decoder "condition" fields n
        let body ← Decoder.required (Decoder.list stmt) "body" fields n
        return .loop pos condition body) n j
    | "Return" => Decoder.record ["value"] (fun fields n => do
        let value ← Decoder.optional Expr.decoder "value" fields n
        return .ret pos value) n j
    | "ProcedureCall" => (Decoder.call true Expr.decoder n j).map fun (c, as) => .call pos c as
    | _ => none

/-- A statement in which fewer than `height` statements are nested. -/
def Stmt.decoderBelow : (height : Nat) → Decoder Stmt
  | 0 => fun _ _ => none
  | height + 1 =>
    Decoder.record ["pos", "kind"] fun fields n => do
      let pos ← Decoder.required Position.decoder "pos" fields n
      Decoder.required (kindDecoder pos (decoderBelow height)) "kind" fields n

def Stmt.decoder : Decoder Stmt := fun n j =>
  decoderBelow n n j

def Body.decoder : Decoder Body :=
  Decoder.list Stmt.decoder

end MiniPascal
