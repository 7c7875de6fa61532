import MiniPascal.Syntax.Basic

/-!
# Parts of a body

The expressions that occur in a body at any depth, and its calls, be they expressions or
statements.
-/

namespace MiniPascal

/-! ## Forms -/

/-- How an expression is built. -/
inductive Form where
  | name
  | element
  | integer
  | real
  | cast
  | negate
  | not
  | call
  | binary
  | relation
deriving DecidableEq

def Expr.form : Expr → Form
  | name .. => .name
  | element .. => .element
  | integer .. => .integer
  | real .. => .real
  | cast .. => .cast
  | negate .. => .negate
  | not .. => .not
  | call .. => .call
  | binary .. => .binary
  | relation .. => .relation

/-- How many of the expressions have the form. -/
def Form.count (f : Form) (es : List Expr) : Nat :=
  es.countP fun e => f = e.form

/-- One for the form itself, and nothing for the others. -/
def Form.tally (f g : Form) : Nat :=
  if f = g then 1 else 0

@[simp] theorem Form.tally_self (f : Form) : f.tally f = 1 := by
  simp [Form.tally]

@[simp] theorem Form.count_nil (f : Form) : f.count [] = 0 := rfl

@[simp] theorem Form.count_cons (f : Form) (e : Expr) (es : List Expr) :
    f.count (e :: es) = f.count es + f.tally e.form := by
  simp [Form.count, Form.tally, List.countP_cons]

@[simp] theorem Form.count_append (f : Form) (es es' : List Expr) :
    f.count (es ++ es') = f.count es + f.count es' :=
  List.countP_append ..

/-! ## Parts -/

mutual

/-- The expression and all expressions in it. -/
def Expr.parts : Expr → List Expr
  | .name n s => [.name n s]
  | .element n array index => .element n array index :: index.parts
  | .integer n v => [.integer n v]
  | .real n v => [.real n v]
  | .cast n e => .cast n e :: e.parts
  | .negate n e => .negate n e :: e.parts
  | .not n e => .not n e :: e.parts
  | .call n callee args => .call n callee args :: argParts args
  | .binary n op l r => .binary n op l r :: (l.parts ++ r.parts)
  | .relation n op l r => .relation n op l r :: (l.parts ++ r.parts)

def argParts : List Expr → List Expr
  | [] => []
  | e :: es => e.parts ++ argParts es

end

mutual

/-- The expressions in a statement. -/
def Stmt.parts : Stmt → List Expr
  | .assign _ target value => target.parts ++ value.parts
  | .branch _ condition body elsifs none =>
    condition.parts ++ bodyParts body ++ elsifParts elsifs
  | .branch _ condition body elsifs (some otherwise) =>
    condition.parts ++ bodyParts body ++ elsifParts elsifs ++ bodyParts otherwise
  | .loop _ condition body => condition.parts ++ bodyParts body
  | .ret _ none => []
  | .ret _ (some value) => value.parts
  | .call _ _ args => argParts args

def Elsif.parts : Elsif → List Expr
  | .clause _ condition body => condition.parts ++ bodyParts body

def elsifParts : List Elsif → List Expr
  | [] => []
  | e :: es => e.parts ++ elsifParts es

/-- The expressions in a body. -/
def bodyParts : List Stmt → List Expr
  | [] => []
  | s :: ss => s.parts ++ bodyParts ss

end

/-- All of the expressions are as `P` says. -/
def All (P : Expr → Prop) (es : List Expr) : Prop :=
  ∀ e ∈ es, P e

section

variable {P : Expr → Prop} {e : Expr} {es es' : List Expr}

@[simp] theorem all_nil : All P [] :=
  List.forall_mem_nil P

theorem all_cons : All P (e :: es) ↔ P e ∧ All P es :=
  List.forall_mem_cons

theorem all_append : All P (es ++ es') ↔ All P es ∧ All P es' :=
  List.forall_mem_append

theorem Expr.self_mem_parts (e : Expr) : e ∈ e.parts := by
  cases e <;> exact List.mem_cons_self

end

/-! ## Calls -/

/-- A call: who is called, and the arguments. -/
abbrev Call := Reference × List Expr

mutual

def Expr.calls : Expr → List Call
  | .name .. | .integer .. | .real .. => []
  | .element _ _ e | .cast _ e | .negate _ e | .not _ e => e.calls
  | .call _ callee args => (callee, args) :: argCalls args
  | .binary _ _ l r | .relation _ _ l r => l.calls ++ r.calls

def argCalls : List Expr → List Call
  | [] => []
  | e :: es => e.calls ++ argCalls es

end

mutual

def Stmt.calls : Stmt → List Call
  | .assign _ target value => target.calls ++ value.calls
  | .branch _ condition body elsifs none =>
    condition.calls ++ bodyCalls body ++ elsifCalls elsifs
  | .branch _ condition body elsifs (some otherwise) =>
    condition.calls ++ bodyCalls body ++ elsifCalls elsifs ++ bodyCalls otherwise
  | .loop _ condition body => condition.calls ++ bodyCalls body
  | .ret _ none => []
  | .ret _ (some value) => value.calls
  | .call _ callee args => (callee, args) :: argCalls args

def Elsif.calls : Elsif → List Call
  | .clause _ condition body => condition.calls ++ bodyCalls body

def elsifCalls : List Elsif → List Call
  | [] => []
  | e :: es => e.calls ++ elsifCalls es

/-- The calls in a body. -/
def bodyCalls : List Stmt → List Call
  | [] => []
  | s :: ss => s.calls ++ bodyCalls ss

end

end MiniPascal
