import MiniPascal.Proofs.Syntax.Parts
import MiniPascal.Syntax.Same
import MiniPascal.Syntax.Symbols
import Mathlib

/-!
# When bodies are the same

A tree in canonical form has all its references in one place and only one zero. Two bodies are the same if and
only if neither has a NaN in it and their canonical forms are equal, so that being the same is symmetric and
transitive, and reflexive where there is no NaN.
-/

namespace MiniPascal

/-! ## Canonical forms -/

/-- The located value, moved to a place that all have in common. -/
def Located.unplaced {α : Type} (a : Located α) : Located α :=
  ⟨default, a.value⟩

/-- There are two zeros. The one with a sign becomes the one without. -/
def unsignedZero (v : Float) : Float :=
  if v = -0 then 0 else v

mutual

/-- The expression without the places of its references and without the signs of its zeros. -/
def Expr.canonical : Expr → Expr
  | .name n s => .name n s
  | .element n array index => .element n array.unplaced index.canonical
  | .integer n v => .integer n v
  | .real n v => .real n (unsignedZero v)
  | .cast n e => .cast n e.canonical
  | .negate n e => .negate n e.canonical
  | .not n e => .not n e.canonical
  | .call n callee args => .call n callee.unplaced (argsCanonical args)
  | .binary n op l r => .binary n op l.canonical r.canonical
  | .relation n op l r => .relation n op l.canonical r.canonical

def argsCanonical : List Expr → List Expr
  | [] => []
  | e :: es => e.canonical :: argsCanonical es

end

mutual

/-- The statement without the places of its references and without the signs of its zeros. -/
def Stmt.canonical : Stmt → Stmt
  | .assign p target value => .assign p target.canonical value.canonical
  | .branch p condition body elsifs none =>
    .branch p condition.canonical (bodyCanonical body) (elsifsCanonical elsifs) none
  | .branch p condition body elsifs (some otherwise) =>
    .branch p condition.canonical (bodyCanonical body) (elsifsCanonical elsifs) (some (bodyCanonical otherwise))
  | .loop p condition body => .loop p condition.canonical (bodyCanonical body)
  | .ret p none => .ret p none
  | .ret p (some value) => .ret p (some value.canonical)
  | .call p callee args => .call p callee.unplaced (argsCanonical args)

def Elsif.canonical : Elsif → Elsif
  | .clause p condition body => .clause p condition.canonical (bodyCanonical body)

def elsifsCanonical : List Elsif → List Elsif
  | [] => []
  | e :: es => e.canonical :: elsifsCanonical es

/-- The body without the places of its references and without the signs of its zeros. -/
def bodyCanonical : List Stmt → List Stmt
  | [] => []
  | s :: ss => s.canonical :: bodyCanonical ss

end

/-- The expression is no literal that is NaN. What is in it does not count. -/
def Expr.NotNaN : Expr → Prop
  | .real _ v => v.isNaN = false
  | _ => True

/-! ## References and reals -/

theorem Located.same_iff {α : Type} [BEq α] [LawfulBEq α] {a b : Located α} :
    a.same b = true ↔ a.unplaced = b.unplaced := by
  simp [same, unplaced]

theorem beq_iff_unsignedZero {v w : Float} :
    (v == w) = true ↔ v.isNaN = false ∧ w.isNaN = false ∧ unsignedZero v = unsignedZero w := by
  rw [Float.beq_iff_ne_nan_and_eq, Float.isNaN_eq_decide_eq_nan, Float.isNaN_eq_decide_eq_nan,
    decide_eq_false_iff_not, decide_eq_false_iff_not]
  refine and_congr_right fun _ => and_congr_right fun _ => ?_
  unfold unsignedZero
  -- only the zero with a sign is changed, so it matters which of the two it is
  split_ifs with left right right
  · exact iff_of_true (.inl (left.trans right.symm)) rfl
  · grind
  · grind
  · grind

/-! ## Expressions -/

section

variable {a b : Expr}

theorem Expr.form_canonical (e : Expr) : e.canonical.form = e.form := by
  cases e <;> rfl

theorem Expr.form_eq_of_same (same : a.same b = true) : a.form = b.form := by
  unfold Expr.same at same
  split at same <;> first | rfl | contradiction

theorem Expr.form_eq_of_canonical_eq (equal : a.canonical = b.canonical) : a.form = b.form := by
  rw [← a.form_canonical, ← b.form_canonical, equal]

end

mutual

theorem Expr.same_iff (a b : Expr) :
    a.same b = true ↔ All Expr.NotNaN a.parts ∧ All Expr.NotNaN b.parts ∧ a.canonical = b.canonical := by
  -- the forms leave only pairs of the same constructor, and every other pair differs on both sides
  by_cases form : a.form = b.form
  · match a, b, form with
    | .name .., .name .., _ | .integer .., .integer .., _ =>
      simp [Expr.same, Expr.parts, Expr.canonical, all_cons, Expr.NotNaN]
    | .real n v, .real m w, _ =>
      simp only [Expr.same, Expr.parts, Expr.canonical, all_cons, all_nil, Expr.NotNaN, beq_iff_unsignedZero,
        Bool.and_eq_true, decide_eq_true_eq, Expr.real.injEq]
      tauto
    | .element n array index, .element m array' index', _ =>
      simp only [Expr.same, Expr.parts, Expr.canonical, all_cons, Expr.NotNaN, Located.same_iff,
        Expr.same_iff index index', Bool.and_eq_true, decide_eq_true_eq, Expr.element.injEq]
      tauto
    | .cast n inner, .cast m inner', _ | .negate n inner, .negate m inner', _ | .not n inner, .not m inner', _ =>
      simp only [Expr.same, Expr.parts, Expr.canonical, all_cons, Expr.NotNaN, Expr.same_iff inner inner',
        Bool.and_eq_true, decide_eq_true_eq, Expr.cast.injEq, Expr.negate.injEq, Expr.not.injEq]
      tauto
    | .call n callee args, .call m callee' args', _ =>
      simp only [Expr.same, Expr.parts, Expr.canonical, all_cons, Expr.NotNaN, Located.same_iff,
        sameArgs_iff args args', Bool.and_eq_true, decide_eq_true_eq, Expr.call.injEq]
      tauto
    | .binary n op l r, .binary m op' l' r', _ | .relation n op l r, .relation m op' l' r', _ =>
      simp only [Expr.same, Expr.parts, Expr.canonical, all_cons, all_append, Expr.NotNaN, Expr.same_iff l l',
        Expr.same_iff r r', Bool.and_eq_true, decide_eq_true_eq, Expr.binary.injEq, Expr.relation.injEq]
      tauto
  · exact iff_of_false (fun same => form (Expr.form_eq_of_same same))
      fun canonical => form (Expr.form_eq_of_canonical_eq canonical.2.2)
termination_by sizeOf a

theorem sameArgs_iff (as bs : List Expr) : sameArgs as bs = true ↔
    All Expr.NotNaN (argParts as) ∧ All Expr.NotNaN (argParts bs) ∧ argsCanonical as = argsCanonical bs := by
  match as, bs with
  | [], [] => simp [sameArgs, argParts, argsCanonical]
  | a :: as, b :: bs =>
    simp only [sameArgs, argParts, argsCanonical, all_append, Expr.same_iff a b, sameArgs_iff as bs,
      Bool.and_eq_true, List.cons.injEq]
    tauto
  | [], _ :: _ | _ :: _, [] => exact iff_of_false nofun nofun
termination_by sizeOf as

end

/-! ## Statements -/

/-- How a statement is built. -/
inductive StmtForm where
  | assign
  | branch (otherwise : Bool)
  | loop
  | ret (value : Bool)
  | call

def Stmt.form : Stmt → StmtForm
  | .assign .. => .assign
  | .branch _ _ _ _ otherwise => .branch otherwise.isSome
  | .loop .. => .loop
  | .ret _ value => .ret value.isSome
  | .call .. => .call

section

variable {s t : Stmt}

theorem Stmt.form_canonical (s : Stmt) : s.canonical.form = s.form := by
  unfold Stmt.canonical
  split <;> rfl

theorem Stmt.form_eq_of_same (same : s.same t = true) : s.form = t.form := by
  unfold Stmt.same at same
  split at same
  -- a value on one side only is left to `sameValue`
  case h_5 v _ w =>
    simp only [sameValue] at same
    cases v <;> cases w <;> simp_all [Stmt.form]
  all_goals first | rfl | contradiction

theorem Stmt.form_eq_of_canonical_eq (equal : s.canonical = t.canonical) : s.form = t.form := by
  rw [← s.form_canonical, ← t.form_canonical, equal]

end

mutual

theorem Stmt.same_iff (s t : Stmt) :
    s.same t = true ↔ All Expr.NotNaN s.parts ∧ All Expr.NotNaN t.parts ∧ s.canonical = t.canonical := by
  by_cases form : s.form = t.form
  · match s, t, form with
    | .assign p target value, .assign q target' value', _ =>
      simp only [Stmt.same, Stmt.parts, Stmt.canonical, all_append, Expr.same_iff target target',
        Expr.same_iff value value', Bool.and_eq_true, decide_eq_true_eq, Stmt.assign.injEq]
      tauto
    | .branch p condition body elsifs none, .branch q condition' body' elsifs' none, _ =>
      simp only [Stmt.same, Stmt.parts, Stmt.canonical, all_append, Expr.same_iff condition condition',
        sameBody_iff body body', sameElsifs_iff elsifs elsifs', Bool.and_eq_true, decide_eq_true_eq,
        Stmt.branch.injEq]
      tauto
    | .branch p condition body elsifs (some otherwise), .branch q condition' body' elsifs' (some otherwise'), _ =>
      simp only [Stmt.same, Stmt.parts, Stmt.canonical, all_append, Expr.same_iff condition condition',
        sameBody_iff body body', sameElsifs_iff elsifs elsifs', sameBody_iff otherwise otherwise',
        Bool.and_eq_true, decide_eq_true_eq, Stmt.branch.injEq, Option.some.injEq]
      tauto
    | .loop p condition body, .loop q condition' body', _ =>
      simp only [Stmt.same, Stmt.parts, Stmt.canonical, all_append, Expr.same_iff condition condition',
        sameBody_iff body body', Bool.and_eq_true, decide_eq_true_eq, Stmt.loop.injEq]
      tauto
    | .ret p none, .ret q none, _ => simp [Stmt.same, sameValue, Stmt.parts, Stmt.canonical]
    | .ret p (some value), .ret q (some value'), _ =>
      simp only [Stmt.same, sameValue, Stmt.parts, Stmt.canonical, Expr.same_iff value value', Bool.and_eq_true,
        decide_eq_true_eq, Stmt.ret.injEq, Option.some.injEq]
      tauto
    | .call p callee args, .call q callee' args', _ =>
      simp only [Stmt.same, Stmt.parts, Stmt.canonical, Located.same_iff, sameArgs_iff args args', Bool.and_eq_true,
        decide_eq_true_eq, Stmt.call.injEq]
      tauto
  · exact iff_of_false (fun same => form (Stmt.form_eq_of_same same))
      fun canonical => form (Stmt.form_eq_of_canonical_eq canonical.2.2)
termination_by sizeOf s

theorem Elsif.same_iff (e f : Elsif) :
    e.same f = true ↔ All Expr.NotNaN e.parts ∧ All Expr.NotNaN f.parts ∧ e.canonical = f.canonical := by
  match e, f with
  | .clause p condition body, .clause q condition' body' =>
    simp only [Elsif.same, Elsif.parts, Elsif.canonical, all_append, Expr.same_iff condition condition',
      sameBody_iff body body', Bool.and_eq_true, decide_eq_true_eq, Elsif.clause.injEq]
    tauto
termination_by sizeOf e

theorem sameElsifs_iff (es fs : List Elsif) : sameElsifs es fs = true ↔
    All Expr.NotNaN (elsifParts es) ∧ All Expr.NotNaN (elsifParts fs) ∧ elsifsCanonical es = elsifsCanonical fs := by
  match es, fs with
  | [], [] => simp [sameElsifs, elsifParts, elsifsCanonical]
  | e :: es, f :: fs =>
    simp only [sameElsifs, elsifParts, elsifsCanonical, all_append, Elsif.same_iff e f, sameElsifs_iff es fs,
      Bool.and_eq_true, List.cons.injEq]
    tauto
  | [], _ :: _ | _ :: _, [] => simp [sameElsifs, elsifsCanonical]
termination_by sizeOf es

/-- Bodies are the same if neither has a NaN in it and their canonical forms are equal. -/
theorem sameBody_iff (b b' : List Stmt) : sameBody b b' = true ↔
    All Expr.NotNaN (bodyParts b) ∧ All Expr.NotNaN (bodyParts b') ∧ bodyCanonical b = bodyCanonical b' := by
  match b, b' with
  | [], [] => simp [sameBody, bodyParts, bodyCanonical]
  | s :: b, t :: b' =>
    simp only [sameBody, bodyParts, bodyCanonical, all_append, Stmt.same_iff s t, sameBody_iff b b',
      Bool.and_eq_true, List.cons.injEq]
    tauto
  | [], _ :: _ | _ :: _, [] => simp [sameBody, bodyCanonical]
termination_by sizeOf b

end

/-! ## What is not erased -/

mutual

theorem symbols_canonical (e : Expr) : e.canonical.symbols = e.symbols := by
  match e with
  | .name .. | .integer .. | .real .. => rfl
  | .element n array index => simp only [Expr.canonical, Expr.symbols, Located.unplaced, symbols_canonical index]
  | .cast n inner | .negate n inner | .not n inner =>
    simp only [Expr.canonical, Expr.symbols, symbols_canonical inner]
  | .call n callee args => simp only [Expr.canonical, Expr.symbols, Located.unplaced, argSymbols_canonical args]
  | .binary n op l r | .relation n op l r =>
    simp only [Expr.canonical, Expr.symbols, symbols_canonical l, symbols_canonical r]
termination_by sizeOf e

theorem argSymbols_canonical (es : List Expr) : argSymbols (argsCanonical es) = argSymbols es := by
  match es with
  | [] => rfl
  | e :: es => simp only [argsCanonical, argSymbols, symbols_canonical e, argSymbols_canonical es]
termination_by sizeOf es

end

mutual

theorem stmtSymbols_canonical (s : Stmt) : s.canonical.symbols = s.symbols := by
  match s with
  | .assign p target value =>
    simp only [Stmt.canonical, Stmt.symbols, symbols_canonical target, symbols_canonical value]
  | .branch p condition body elsifs none =>
    simp only [Stmt.canonical, Stmt.symbols, symbols_canonical condition, bodySymbols_canonical body,
      elsifSymbols_canonical elsifs]
  | .branch p condition body elsifs (some otherwise) =>
    simp only [Stmt.canonical, Stmt.symbols, symbols_canonical condition, bodySymbols_canonical body,
      elsifSymbols_canonical elsifs, bodySymbols_canonical otherwise]
  | .loop p condition body =>
    simp only [Stmt.canonical, Stmt.symbols, symbols_canonical condition, bodySymbols_canonical body]
  | .ret p none => simp only [Stmt.canonical]
  | .ret p (some value) => simp only [Stmt.canonical, Stmt.symbols, symbols_canonical value]
  | .call p callee args => simp only [Stmt.canonical, Stmt.symbols, Located.unplaced, argSymbols_canonical args]
termination_by sizeOf s

theorem elsifSymbols_canonical (es : List Elsif) : elsifSymbols (elsifsCanonical es) = elsifSymbols es := by
  match es with
  | [] => simp only [elsifsCanonical]
  | .clause p condition body :: es =>
    simp only [elsifsCanonical, elsifSymbols, Elsif.canonical, Elsif.symbols, symbols_canonical condition,
      bodySymbols_canonical body, elsifSymbols_canonical es]
termination_by sizeOf es

theorem bodySymbols_canonical (b : List Stmt) : bodySymbols (bodyCanonical b) = bodySymbols b := by
  match b with
  | [] => simp only [bodyCanonical]
  | s :: b => simp only [bodyCanonical, bodySymbols, stmtSymbols_canonical s, bodySymbols_canonical b]
termination_by sizeOf b

end

/-! ## Laws -/

section

variable {a b c : Body}

theorem sameBody_symm (same : sameBody a b = true) : sameBody b a = true := by
  obtain ⟨a_numbers, b_numbers, equal⟩ := (sameBody_iff a b).mp same
  exact (sameBody_iff b a).mpr ⟨b_numbers, a_numbers, equal.symm⟩

theorem sameBody_trans (first : sameBody a b = true) (second : sameBody b c = true) : sameBody a c = true := by
  obtain ⟨a_numbers, -, equal⟩ := (sameBody_iff a b).mp first
  obtain ⟨-, c_numbers, equal'⟩ := (sameBody_iff b c).mp second
  exact (sameBody_iff a c).mpr ⟨a_numbers, c_numbers, equal.trans equal'⟩

theorem sameBody_self_iff (a : Body) : sameBody a a = true ↔ All Expr.NotNaN (bodyParts a) := by
  rw [sameBody_iff]
  exact ⟨And.left, fun numbers => ⟨numbers, numbers, rfl⟩⟩

theorem bodySymbols_eq_of_same (same : sameBody a b = true) : bodySymbols a = bodySymbols b := by
  rw [← bodySymbols_canonical a, ← bodySymbols_canonical b, ((sameBody_iff a b).mp same).2.2]

end

/-- Being the same is equality of canonical forms, for bodies without NaN. So it is symmetric and transitive,
and reflexive for just these bodies. Bodies that are the same refer to the same symbols in the same order. -/
theorem sameness_is_canonical_equality :
    (∀ a b : Body, sameBody a b = true ↔
      All Expr.NotNaN (bodyParts a) ∧ All Expr.NotNaN (bodyParts b) ∧ bodyCanonical a = bodyCanonical b) ∧
    (∀ a b : Body, sameBody a b = true → sameBody b a = true) ∧
    (∀ a b c : Body, sameBody a b = true → sameBody b c = true → sameBody a c = true) ∧
    (∀ a : Body, sameBody a a = true ↔ All Expr.NotNaN (bodyParts a)) ∧
    ∀ a b : Body, sameBody a b = true → bodySymbols a = bodySymbols b :=
  ⟨sameBody_iff, fun _ _ => sameBody_symm, fun _ _ _ => sameBody_trans, sameBody_self_iff,
    fun _ _ => bodySymbols_eq_of_same⟩

/-- An element is set to zero. Where the array is referred to and which zero it is makes no difference, and a
NaN in its place makes the body differ from itself. -/
theorem sameness_is_canonical_equality_zeros :
    let body (place : Position) (v : Float) : Body :=
      [.assign ⟨1, 1⟩ (.element ⟨⟨1, 1⟩, realType⟩ ⟨place, 4⟩ (.integer ⟨⟨1, 3⟩, integerType⟩ 1))
        (.real ⟨⟨1, 9⟩, realType⟩ v)]
    sameBody (body ⟨1, 1⟩ 0) (body ⟨2, 2⟩ (-0)) = true ∧ sameBody (body ⟨2, 2⟩ (-0)) (body ⟨3, 3⟩ 0) = true ∧
      sameBody (body ⟨1, 1⟩ 0) (body ⟨3, 3⟩ 0) = true ∧
      bodySymbols (body ⟨1, 1⟩ 0) = bodySymbols (body ⟨2, 2⟩ (-0)) ∧
      ¬sameBody (body ⟨1, 1⟩ (0 / 0)) (body ⟨1, 1⟩ (0 / 0)) = true := by
  intro body
  obtain ⟨-, symmetric, transitive, reflexive, visits⟩ := sameness_is_canonical_equality
  have first : sameBody (body ⟨1, 1⟩ 0) (body ⟨2, 2⟩ (-0)) = true := by decide +kernel
  have second : sameBody (body ⟨3, 3⟩ 0) (body ⟨2, 2⟩ (-0)) = true := by decide +kernel
  have back := symmetric _ _ second
  refine ⟨first, back, transitive _ _ _ first back, visits _ _ first, fun same => ?_⟩
  have literal : Expr.real ⟨⟨1, 9⟩, realType⟩ (0 / 0) ∈ bodyParts (body ⟨1, 1⟩ (0 / 0)) := by
    simp [body, bodyParts, Stmt.parts, Expr.parts]
  have number : (0 / 0 : Float).isNaN = false := (reflexive _).mp same _ literal
  exact absurd number (by decide)

end MiniPascal
