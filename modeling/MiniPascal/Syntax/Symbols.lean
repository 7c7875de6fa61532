import MiniPascal.Syntax.Basic

/-!
# The symbols of a body

The symbols that a tree refers to, in source order: the targets of assignments before
their values, conditions before bodies, arrays before their indices and callees before
their arguments.
-/

namespace MiniPascal

mutual

def Expr.symbols : Expr → List SymbolIndex
  | .name _ s => [s]
  | .element _ array index => array.value :: index.symbols
  | .integer _ _ | .real _ _ => []
  | .cast _ e | .negate _ e | .not _ e => e.symbols
  | .call _ callee args => callee.value :: argSymbols args
  | .binary _ _ l r | .relation _ _ l r => l.symbols ++ r.symbols

def argSymbols : List Expr → List SymbolIndex
  | [] => []
  | e :: es => e.symbols ++ argSymbols es

end

mutual

def Stmt.symbols : Stmt → List SymbolIndex
  | .assign _ target value => target.symbols ++ value.symbols
  | .branch _ condition body elsifs none =>
    condition.symbols ++ bodySymbols body ++ elsifSymbols elsifs
  | .branch _ condition body elsifs (some otherwise) =>
    condition.symbols ++ bodySymbols body ++ elsifSymbols elsifs ++ bodySymbols otherwise
  | .loop _ condition body => condition.symbols ++ bodySymbols body
  | .ret _ none => []
  | .ret _ (some value) => value.symbols
  | .call _ callee args => callee.value :: argSymbols args

def Elsif.symbols : Elsif → List SymbolIndex
  | .clause _ condition body => condition.symbols ++ bodySymbols body

def elsifSymbols : List Elsif → List SymbolIndex
  | [] => []
  | e :: es => e.symbols ++ elsifSymbols es

def bodySymbols : List Stmt → List SymbolIndex
  | [] => []
  | s :: ss => s.symbols ++ bodySymbols ss

end

end MiniPascal
