import MiniPascal.Program
import MiniPascal.Proofs.Json.Decoding
import MiniPascal.Proofs.Json.Texts
import MiniPascal.Proofs.Syntax.Parts
import Mathlib.Tactic.MkIffOfInductiveProp

/-!
# Programs that can be written

What a document of a program can tell: numbers of limited size, and reals of some kind. A body is looked at
expression by expression, each with what it holds itself, and apart from these its statements have places and
callees. The kind of the reals is a question of its own: a program is writable with reals of some kind just if it
is writable with any reals and its reals are of that kind.
-/

namespace MiniPascal

/-! ## Places -/

@[mk_iff] structure Position.Writable (p : Position) : Prop where
  line : p.line < 2 ^ 32
  column : p.column < 2 ^ 32

@[mk_iff] structure Reference.Writable (r : Reference) : Prop where
  pos : r.pos.Writable
  value : r.value < 2 ^ 64

@[mk_iff] structure Note.Writable (n : Note) : Prop where
  pos : n.pos.Writable
  type : n.type < 2 ^ 64

/-- The builtin types come first in a table. -/
theorem lt_of_builtin {t : SymbolIndex} (builtin : t ≤ realType) : t < 2 ^ 64 :=
  Nat.lt_of_le_of_lt builtin (by decide)

/-- A number of 64 binary digits, one of them for the sign. -/
def IsInt64 (v : Int) : Prop :=
  Int64.minValue.toInt ≤ v ∧ v ≤ Int64.maxValue.toInt

/-! ## Expressions -/

section

variable (R : Float → Prop)

/-- What an expression itself holds besides its note. -/
def Expr.OwnWritable : Expr → Prop
  | .name _ s => s < 2 ^ 64
  | .element _ array _ => Reference.Writable array
  | .integer _ v => IsInt64 v
  | .real _ v => R v
  | .call _ callee _ => Reference.Writable callee
  | .cast .. | .negate .. | .not .. | .binary .. | .relation .. => True

@[mk_iff] structure Expr.NodeWritable (e : Expr) : Prop where
  note : e.note.Writable
  own : e.OwnWritable R

abbrev Expr.Writable (e : Expr) : Prop :=
  All (Expr.NodeWritable R) e.parts

end

/-- The expressions inside of an expression. -/
def Expr.inner : Expr → List Expr
  | .name .. | .integer .. | .real .. => []
  | .element _ _ e | .cast _ e | .negate _ e | .not _ e => e.parts
  | .call _ _ args => argParts args
  | .binary _ _ l r | .relation _ _ l r => l.parts ++ r.parts

theorem Expr.parts_eq (e : Expr) : e.parts = e :: e.inner := by
  cases e <;> rfl

/-! ## Statements -/

mutual

/-- The places of statements, and those whom they call. -/
def Stmt.Placed : Stmt → Prop
  | .assign p _ _ => p.Writable
  | .branch p _ body elsifs none => p.Writable ∧ BodyPlaced body ∧ ElsifsPlaced elsifs
  | .branch p _ body elsifs (some otherwise) =>
    p.Writable ∧ BodyPlaced body ∧ ElsifsPlaced elsifs ∧ BodyPlaced otherwise
  | .loop p _ body => p.Writable ∧ BodyPlaced body
  | .ret p _ => p.Writable
  | .call p callee _ => p.Writable ∧ Reference.Writable callee

def Elsif.Placed : Elsif → Prop
  | .clause p _ body => p.Writable ∧ BodyPlaced body

def ElsifsPlaced : List Elsif → Prop
  | [] => True
  | e :: es => e.Placed ∧ ElsifsPlaced es

def BodyPlaced : List Stmt → Prop
  | [] => True
  | s :: ss => s.Placed ∧ BodyPlaced ss

end

/-! ## Programs -/

section

variable (R : Float → Prop)

@[mk_iff] structure Stmt.Writable (s : Stmt) : Prop where
  places : s.Placed
  parts : All (Expr.NodeWritable R) s.parts

@[mk_iff] structure Elsif.Writable (e : Elsif) : Prop where
  places : e.Placed
  parts : All (Expr.NodeWritable R) e.parts

def Constant.Writable : Constant → Prop
  | .integer v => IsInt64 v
  | .real v => R v

@[mk_iff] structure Symbol.Writable (s : Symbol) : Prop where
  type : s.type < 2 ^ 64
  params : ∀ i ∈ s.params, i < 2 ^ 64
  value : ∀ c ∈ s.value, c.Writable R
  size : ∀ n ∈ s.size, n < 2 ^ 64

/-- A table that is open nowhere. -/
@[mk_iff] structure SymbolTable.Writable (t : SymbolTable) : Prop where
  symbols : ∀ s ∈ t.symbols, s.Writable R
  program : t.program < 2 ^ 64
  environments : t.environments = []
  names : t.names = .empty

@[mk_iff] structure Routine.Writable (r : Routine) : Prop where
  env : r.env < 2 ^ 64
  body : ∀ s ∈ r.body, s.Writable R

@[mk_iff] structure Program.Writable (p : Program) : Prop where
  table : p.table.Writable R
  routines : ∀ r ∈ p.routines, r.Writable R

end

section

variable {R : Float → Prop}

/-- The statements of a body are writable one by one. -/
theorem body_writable_iff {b : Body} :
    (∀ s ∈ b, s.Writable R) ↔ BodyPlaced b ∧ All (Expr.NodeWritable R) (bodyParts b) := by
  induction b with
  | nil => simp [BodyPlaced, bodyParts]
  | cons s b ih =>
    rw [List.forall_mem_cons, ih, BodyPlaced, bodyParts, all_append, Stmt.writable_iff]
    tauto

theorem elsifs_writable_iff {es : List Elsif} :
    (∀ e ∈ es, e.Writable R) ↔ ElsifsPlaced es ∧ All (Expr.NodeWritable R) (elsifParts es) := by
  induction es with
  | nil => simp [ElsifsPlaced, elsifParts]
  | cons e es ih =>
    rw [List.forall_mem_cons, ih, ElsifsPlaced, elsifParts, all_append, Elsif.writable_iff]
    tauto

end

/-! ## Reals -/

def Expr.real? : Expr → Option Float
  | .real _ v => some v
  | _ => none

def Constant.real? : Constant → Option Float
  | .real v => some v
  | .integer _ => none

/-- The values of real constants, and the real literals of all routines. -/
def Program.reals (p : Program) : List Float :=
  p.table.symbols.filterMap (fun s => s.value.bind Constant.real?) ++
    p.routines.flatMap fun r => (bodyParts r.body).filterMap Expr.real?

abbrev AnyReal : Float → Prop := fun _ => True

section

variable {R : Float → Prop}

theorem Expr.nodeWritable_iff_real {e : Expr} : e.NodeWritable R ↔ e.NodeWritable AnyReal ∧ ∀ r ∈ e.real?, R r := by
  cases e <;> simp [Expr.nodeWritable_iff, Expr.OwnWritable, Expr.real?]

theorem all_nodeWritable_iff_reals {es : List Expr} :
    All (Expr.NodeWritable R) es ↔ All (Expr.NodeWritable AnyReal) es ∧ ∀ r ∈ es.filterMap Expr.real?, R r := by
  rw [List.forall_mem_filterMap, All, All, ← forall₂_and]
  exact forall₂_congr fun _ _ => Expr.nodeWritable_iff_real

theorem Constant.writable_iff_real {c : Constant} : c.Writable R ↔ c.Writable AnyReal ∧ ∀ r ∈ c.real?, R r := by
  cases c <;> simp [Constant.Writable, Constant.real?]

theorem Symbol.writable_iff_real {s : Symbol} :
    s.Writable R ↔ s.Writable AnyReal ∧ ∀ r ∈ s.value.bind Constant.real?, R r := by
  obtain ⟨name, kind, type, params, value, size⟩ := s
  simp only [Symbol.writable_iff]
  cases value <;> simp [Constant.writable_iff_real (R := R)]
  tauto

theorem SymbolTable.writable_iff_reals {t : SymbolTable} :
    t.Writable R ↔ t.Writable AnyReal ∧ ∀ r ∈ t.symbols.filterMap fun s => s.value.bind Constant.real?, R r := by
  have each : (∀ s ∈ t.symbols, s.Writable R) ↔ (∀ s ∈ t.symbols, s.Writable AnyReal) ∧
      ∀ r ∈ t.symbols.filterMap fun s => s.value.bind Constant.real?, R r := by
    rw [List.forall_mem_filterMap, ← forall₂_and]
    exact forall₂_congr fun _ _ => Symbol.writable_iff_real
  rw [SymbolTable.writable_iff, SymbolTable.writable_iff, each]
  tauto

theorem body_writable_iff_reals {b : Body} :
    (∀ s ∈ b, s.Writable R) ↔ (∀ s ∈ b, s.Writable AnyReal) ∧ ∀ r ∈ (bodyParts b).filterMap Expr.real?, R r := by
  rw [body_writable_iff, body_writable_iff, and_assoc, ← all_nodeWritable_iff_reals]

theorem Program.writable_iff_reals {p : Program} :
    p.Writable R ↔ p.Writable AnyReal ∧ ∀ r ∈ p.reals, R r := by
  have each : (∀ r ∈ p.routines, r.Writable R) ↔ (∀ r ∈ p.routines, r.Writable AnyReal) ∧
      ∀ r ∈ p.routines.flatMap fun r => (bodyParts r.body).filterMap Expr.real?, R r := by
    rw [List.forall_mem_flatMap, ← forall₂_and]
    refine forall₂_congr fun r _ => ?_
    rw [Routine.writable_iff, Routine.writable_iff, body_writable_iff_reals, and_assoc]
  rw [Program.writable_iff, Program.writable_iff, SymbolTable.writable_iff_reals, each, Program.reals,
    List.forall_mem_append]
  tauto

end

end MiniPascal
