import MiniPascal.Position
import MiniPascal.Symbol.Basic

/-!
# Bodies of routines

The tree of a routine body. Every expression carries its position and the type that is
stored for it: that of the constructor below at first, later the one that checking finds.
A body is a list of statements in source order.
-/

namespace MiniPascal

/-! ## Operators -/

inductive BinaryOp where
  | add
  | sub
  | mul
  | divide
  | div
  | mod
  | or
  | and
deriving DecidableEq

namespace BinaryOp

def text : BinaryOp → String
  | add => "+"
  | sub => "-"
  | mul => "*"
  | divide => "/"
  | div => "div"
  | mod => "mod"
  | or => "or"
  | and => "and"

def tag : BinaryOp → String
  | add => "Add"
  | sub => "Sub"
  | mul => "Mult"
  | divide => "Divide"
  | div => "Idiv"
  | mod => "Mod"
  | or => "Or"
  | and => "And"

def ofTag? : String → Option BinaryOp
  | "Add" => some add
  | "Sub" => some sub
  | "Mult" => some mul
  | "Divide" => some divide
  | "Idiv" => some div
  | "Mod" => some mod
  | "Or" => some or
  | "And" => some and
  | _ => none

end BinaryOp

inductive RelationOp where
  | equal
  | notEqual
  | less
  | greater
deriving DecidableEq

namespace RelationOp

def text : RelationOp → String
  | equal => "="
  | notEqual => "<>"
  | less => "<"
  | greater => ">"

def tag : RelationOp → String
  | equal => "Equal"
  | notEqual => "NotEqual"
  | less => "LessThan"
  | greater => "GreaterThan"

def ofTag? : String → Option RelationOp
  | "Equal" => some equal
  | "NotEqual" => some notEqual
  | "LessThan" => some less
  | "GreaterThan" => some greater
  | _ => none

end RelationOp

/-! ## Expressions -/

/-- Where an expression stands and which type is stored for it. -/
structure Note where
  pos : Position
  type : SymbolIndex
deriving DecidableEq, Inhabited

/-- A symbol and the place where it is referred to. -/
abbrev Reference := Located SymbolIndex

inductive Expr where
  | name (note : Note) (symbol : SymbolIndex)
  | element (note : Note) (array : Reference) (index : Expr)
  | integer (note : Note) (value : Int)
  | real (note : Note) (value : Float)
  /-- a conversion to real, which only checking puts in -/
  | cast (note : Note) (inner : Expr)
  | negate (note : Note) (inner : Expr)
  | not (note : Note) (inner : Expr)
  | call (note : Note) (callee : Reference) (args : List Expr)
  | binary (note : Note) (op : BinaryOp) (left right : Expr)
  | relation (note : Note) (op : RelationOp) (left right : Expr)

namespace Expr

def note : Expr → Note
  | name n _ | element n _ _ | integer n _ | real n _ | cast n _ | negate n _ | not n _
  | call n _ _ | binary n _ _ _ | relation n _ _ _ => n

def pos (e : Expr) : Position := e.note.pos

def type (e : Expr) : SymbolIndex := e.note.type

def withType (t : SymbolIndex) : Expr → Expr
  | name n s => name ⟨n.pos, t⟩ s
  | element n a i => element ⟨n.pos, t⟩ a i
  | integer n v => integer ⟨n.pos, t⟩ v
  | real n v => real ⟨n.pos, t⟩ v
  | cast n e => cast ⟨n.pos, t⟩ e
  | negate n e => negate ⟨n.pos, t⟩ e
  | not n e => not ⟨n.pos, t⟩ e
  | call n c args => call ⟨n.pos, t⟩ c args
  | binary n op l r => binary ⟨n.pos, t⟩ op l r
  | relation n op l r => relation ⟨n.pos, t⟩ op l r

/-- The type that an expression has before it is checked: literals and casts have theirs,
all else has none. -/
def initialType : Expr → SymbolIndex
  | integer .. => integerType
  | real .. | cast .. => realType
  | _ => voidType

/-- The expression as it stands before it is checked. -/
def unchecked (e : Expr) : Expr :=
  e.withType e.initialType

/-- Converts an expression to real. The cast stands where the expression does. -/
def widen (e : Expr) : Expr :=
  cast ⟨e.pos, realType⟩ e

@[simp] theorem pos_withType (t : SymbolIndex) (e : Expr) : (e.withType t).pos = e.pos := by
  cases e <;> rfl

@[simp] theorem type_withType (t : SymbolIndex) (e : Expr) : (e.withType t).type = t := by
  cases e <;> rfl

@[simp] theorem withType_withType (t u : SymbolIndex) (e : Expr) :
    (e.withType t).withType u = e.withType u := by
  cases e <;> rfl

@[simp] theorem withType_type (e : Expr) : e.withType e.type = e := by
  cases e <;> rfl

@[simp] theorem pos_widen (e : Expr) : e.widen.pos = e.pos := rfl

@[simp] theorem type_widen (e : Expr) : e.widen.type = realType := rfl

end Expr

/-! ## Statements -/

mutual

inductive Stmt where
  /-- The target is a name or an element of an array. -/
  | assign (pos : Position) (target value : Expr)
  | branch (pos : Position) (condition : Expr) (body : List Stmt) (elsifs : List Elsif)
      (otherwise : Option (List Stmt))
  | loop (pos : Position) (condition : Expr) (body : List Stmt)
  | ret (pos : Position) (value : Option Expr)
  | call (pos : Position) (callee : Reference) (args : List Expr)

/-- A further condition of a branch, with its own body. -/
inductive Elsif where
  | clause (pos : Position) (condition : Expr) (body : List Stmt)

end

namespace Stmt

def pos : Stmt → Position
  | assign p _ _ | branch p _ _ _ _ | loop p _ _ | ret p _ | call p _ _ => p

end Stmt

abbrev Body := List Stmt

namespace Body

/-- A body stands where its last statement does. -/
def pos? (b : Body) : Option Position :=
  b.getLast?.map Stmt.pos

end Body

end MiniPascal
