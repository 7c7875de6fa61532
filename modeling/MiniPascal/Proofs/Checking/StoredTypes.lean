import MiniPascal.Syntax.Symbols

/-!
# Stored types of a body

The types that are stored in a tree, one for each expression in it.
-/

namespace MiniPascal

mutual

/-- The types that are stored in an expression and its parts. -/
def Expr.types : Expr → List SymbolIndex
  | .name n _ | .integer n _ | .real n _ => [n.type]
  | .element n _ index => n.type :: index.types
  | .cast n e | .negate n e | .not n e => n.type :: e.types
  | .call n _ args => n.type :: argTypes args
  | .binary n _ l r | .relation n _ l r => n.type :: l.types ++ r.types

def argTypes : List Expr → List SymbolIndex
  | [] => []
  | e :: es => e.types ++ argTypes es

end

mutual

/-- The types that are stored in the expressions of a statement. -/
def Stmt.types : Stmt → List SymbolIndex
  | .assign _ target value => target.types ++ value.types
  | .branch _ condition body elsifs none =>
    condition.types ++ bodyTypes body ++ elsifTypes elsifs
  | .branch _ condition body elsifs (some otherwise) =>
    condition.types ++ bodyTypes body ++ elsifTypes elsifs ++ bodyTypes otherwise
  | .loop _ condition body => condition.types ++ bodyTypes body
  | .ret _ none => []
  | .ret _ (some value) => value.types
  | .call _ _ args => argTypes args

def Elsif.types : Elsif → List SymbolIndex
  | .clause _ condition body => condition.types ++ bodyTypes body

def elsifTypes : List Elsif → List SymbolIndex
  | [] => []
  | e :: es => e.types ++ elsifTypes es

/-- The types that are stored in a body. -/
def bodyTypes : List Stmt → List SymbolIndex
  | [] => []
  | s :: ss => s.types ++ bodyTypes ss

end

@[simp] theorem Expr.symbols_widen (e : Expr) : e.widen.symbols = e.symbols := by
  rw [Expr.widen, Expr.symbols]

@[simp] theorem Expr.types_widen (e : Expr) : e.widen.types = realType :: e.types := by
  rw [Expr.widen, Expr.types]

end MiniPascal
