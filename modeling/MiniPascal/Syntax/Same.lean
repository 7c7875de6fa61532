import MiniPascal.Syntax.Basic

/-!
# Equality of bodies

Two bodies are the same when they agree node by node, with positions and stored types. Two
things are looser than identity: the place of a reference to an array or a routine does not
count, and reals are compared as numbers, so the two zeros agree and a NaN agrees with
nothing.
-/

namespace MiniPascal

mutual

def Expr.same : Expr → Expr → Bool
  | .name n s, .name m t => n = m && s = t
  | .element n a i, .element m b j => n = m && a.same b && i.same j
  | .integer n v, .integer m w => n = m && v = w
  | .real n v, .real m w => n = m && v == w
  | .cast n e, .cast m f => n = m && e.same f
  | .negate n e, .negate m f => n = m && e.same f
  | .not n e, .not m f => n = m && e.same f
  | .call n c as, .call m d bs => n = m && c.same d && sameArgs as bs
  | .binary n o l r, .binary m p k q => n = m && o = p && l.same k && r.same q
  | .relation n o l r, .relation m p k q => n = m && o = p && l.same k && r.same q
  | _, _ => false

def sameArgs : List Expr → List Expr → Bool
  | [], [] => true
  | e :: es, f :: fs => e.same f && sameArgs es fs
  | _, _ => false

end

/-- A value that is missing on both sides is the same. -/
def sameValue : Option Expr → Option Expr → Bool
  | none, none => true
  | some e, some f => e.same f
  | _, _ => false

mutual

def Stmt.same : Stmt → Stmt → Bool
  | .assign p t v, .assign q u w => p = q && t.same u && v.same w
  | .branch p c b es none, .branch q d a fs none =>
    p = q && c.same d && sameBody b a && sameElsifs es fs
  | .branch p c b es (some o), .branch q d a fs (some l) =>
    p = q && c.same d && sameBody b a && sameElsifs es fs && sameBody o l
  | .loop p c b, .loop q d a => p = q && c.same d && sameBody b a
  | .ret p v, .ret q w => p = q && sameValue v w
  | .call p c as, .call q d bs => p = q && c.same d && sameArgs as bs
  | _, _ => false

def Elsif.same : Elsif → Elsif → Bool
  | .clause p c b, .clause q d a => p = q && c.same d && sameBody b a

def sameElsifs : List Elsif → List Elsif → Bool
  | [], [] => true
  | e :: es, f :: fs => e.same f && sameElsifs es fs
  | _, _ => false

def sameBody : List Stmt → List Stmt → Bool
  | [], [] => true
  | s :: ss, t :: ts => s.same t && sameBody ss ts
  | _, _ => false

end

end MiniPascal
