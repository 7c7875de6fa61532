import MiniPascal.Program
import Mathlib.Data.List.Forall2

/-!
# Programs without stored types

`untyped` stores the type of what has no value in every expression. Two programs differ only in
their stored types if they are the same without them.
-/

namespace MiniPascal

def Note.untyped (n : Note) : Note :=
  ⟨n.pos, voidType⟩

mutual

/-- The expression without its stored types. -/
def Expr.untyped : Expr → Expr
  | .name n s => .name n.untyped s
  | .element n array index => .element n.untyped array index.untyped
  | .integer n v => .integer n.untyped v
  | .real n v => .real n.untyped v
  | .cast n e => .cast n.untyped e.untyped
  | .negate n e => .negate n.untyped e.untyped
  | .not n e => .not n.untyped e.untyped
  | .call n callee args => .call n.untyped callee (argsUntyped args)
  | .binary n op l r => .binary n.untyped op l.untyped r.untyped
  | .relation n op l r => .relation n.untyped op l.untyped r.untyped

def argsUntyped : List Expr → List Expr
  | [] => []
  | e :: es => e.untyped :: argsUntyped es

end

mutual

/-- The statement without the types that are stored in it. -/
def Stmt.untyped : Stmt → Stmt
  | .assign p target value => .assign p target.untyped value.untyped
  | .branch p condition body elsifs none =>
    .branch p condition.untyped (bodyUntyped body) (elsifsUntyped elsifs) none
  | .branch p condition body elsifs (some otherwise) =>
    .branch p condition.untyped (bodyUntyped body) (elsifsUntyped elsifs) (some (bodyUntyped otherwise))
  | .loop p condition body => .loop p condition.untyped (bodyUntyped body)
  | .ret p none => .ret p none
  | .ret p (some value) => .ret p (some value.untyped)
  | .call p callee args => .call p callee (argsUntyped args)

def Elsif.untyped : Elsif → Elsif
  | .clause p condition body => .clause p condition.untyped (bodyUntyped body)

def elsifsUntyped : List Elsif → List Elsif
  | [] => []
  | e :: es => e.untyped :: elsifsUntyped es

/-- The body without the types that are stored in it. -/
def bodyUntyped : List Stmt → List Stmt
  | [] => []
  | s :: ss => s.untyped :: bodyUntyped ss

end

def Routine.untyped (r : Routine) : Routine :=
  ⟨r.env, bodyUntyped r.body⟩

/-- The program without the types that are stored in its bodies. The table has all of its own. -/
def Program.untyped (p : Program) : Program :=
  ⟨p.table, p.routines.map Routine.untyped⟩

/-! ## Lists -/

theorem argsUntyped_eq_map (es : List Expr) : argsUntyped es = es.map Expr.untyped := by
  induction es with
  | nil => rfl
  | cons e es ih => rw [argsUntyped, List.map_cons, ih]

theorem elsifsUntyped_eq_map (es : List Elsif) : elsifsUntyped es = es.map Elsif.untyped := by
  induction es with
  | nil => rfl
  | cons e es ih => rw [elsifsUntyped, List.map_cons, ih]

theorem bodyUntyped_eq_map (b : List Stmt) : bodyUntyped b = b.map Stmt.untyped := by
  induction b with
  | nil => rfl
  | cons s b ih => rw [bodyUntyped, List.map_cons, ih]

/-- Lists are the same without types if their elements are, one by one. -/
theorem map_eq_map_iff_forall₂ {α β : Type} {f : α → β} {as bs : List α} :
    as.map f = bs.map f ↔ List.Forall₂ (fun a b => f a = f b) as bs := by
  rw [← List.forall₂_eq_eq_eq, List.forall₂_map_left_iff, List.forall₂_map_right_iff]

/-! ## What is not erased -/

mutual

theorem symbols_untyped (e : Expr) : e.untyped.symbols = e.symbols := by
  match e with
  | .name .. | .integer .. | .real .. => rfl
  | .element n array index => simp only [Expr.untyped, Expr.symbols, symbols_untyped index]
  | .cast n inner | .negate n inner | .not n inner =>
    simp only [Expr.untyped, Expr.symbols, symbols_untyped inner]
  | .call n callee args => simp only [Expr.untyped, Expr.symbols, argSymbols_untyped args]
  | .binary n op left right | .relation n op left right =>
    simp only [Expr.untyped, Expr.symbols, symbols_untyped left, symbols_untyped right]
termination_by sizeOf e

theorem argSymbols_untyped (es : List Expr) : argSymbols (argsUntyped es) = argSymbols es := by
  match es with
  | [] => rfl
  | e :: es => simp only [argsUntyped, argSymbols, symbols_untyped e, argSymbols_untyped es]
termination_by sizeOf es

end

mutual

theorem stmtSymbols_untyped (s : Stmt) : s.untyped.symbols = s.symbols := by
  match s with
  | .assign p target value => simp only [Stmt.untyped, Stmt.symbols, symbols_untyped]
  | .branch p condition body elsifs none =>
    simp only [Stmt.untyped, Stmt.symbols, symbols_untyped, bodySymbols_untyped body, elsifSymbols_untyped elsifs]
  | .branch p condition body elsifs (some otherwise) =>
    simp only [Stmt.untyped, Stmt.symbols, symbols_untyped, bodySymbols_untyped body,
      elsifSymbols_untyped elsifs, bodySymbols_untyped otherwise]
  | .loop p condition body => simp only [Stmt.untyped, Stmt.symbols, symbols_untyped, bodySymbols_untyped body]
  | .ret p none => rfl
  | .ret p (some value) => simp only [Stmt.untyped, Stmt.symbols, symbols_untyped]
  | .call p callee args => simp only [Stmt.untyped, Stmt.symbols, argSymbols_untyped]
termination_by sizeOf s

theorem elsifSymbols_untyped (es : List Elsif) : elsifSymbols (elsifsUntyped es) = elsifSymbols es := by
  match es with
  | [] => rfl
  | .clause p condition body :: es =>
    simp only [elsifsUntyped, Elsif.untyped, elsifSymbols, Elsif.symbols, symbols_untyped,
      bodySymbols_untyped body, elsifSymbols_untyped es]
termination_by sizeOf es

theorem bodySymbols_untyped (b : List Stmt) : bodySymbols (bodyUntyped b) = bodySymbols b := by
  match b with
  | [] => rfl
  | s :: b => simp only [bodyUntyped, bodySymbols, stmtSymbols_untyped s, bodySymbols_untyped b]
termination_by sizeOf b

end

theorem length_bodyUntyped (b : List Stmt) : (bodyUntyped b).length = b.length := by
  rw [bodyUntyped_eq_map, List.length_map]

/-- Whether a program is sound does not depend on its stored types. -/
theorem validate_untyped (p : Program) : p.untyped.validate = p.validate := by
  have routine (r : Routine) : r.untyped.validate p.table = r.validate p.table := by
    simp only [Routine.validate, Routine.untyped, bodySymbols_untyped]
  have routines (rs : List Routine) :
      (rs.map Routine.untyped).forM (Routine.validate p.table) = rs.forM (Routine.validate p.table) := by
    induction rs with
    | nil => rfl
    | cons r rs ih =>
      change (r.untyped.validate p.table >>= fun _ => (rs.map Routine.untyped).forM _) = _
      rw [routine, ih]
      rfl
  simp only [Program.validate, Program.untyped, routines]

end MiniPascal
