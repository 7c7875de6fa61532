import MiniPascal.Proofs.Checking.References
import MiniPascal.Proofs.Syntax.Parts

/-!
# Laws of checked expressions

A law says something about every expression that a check without errors leaves, and about the type that
was found for it. It is enough to look at one node at a time, with what holds of its parts: each form of
expression has a clause for that, and a cast that checking puts in is covered by the clause for casts.
-/

namespace MiniPascal

open Checked

/-- What holds node by node of checked expressions (`Node`) and of the types that are found for them
(`Found`), if the nodes that are checked are as `Given` says. -/
structure CheckLaw (table : SymbolTable) (Given Node : Expr → Prop) (Found : Expr → SymbolIndex → Prop) :
    Prop where
  name : ∀ n s symbol, Given (.name n s) → table.get? s = some symbol →
    Node (.name ⟨n.pos, symbol.type⟩ s) ∧
      Found (.name ⟨n.pos, symbol.type⟩ s) (if symbol.kind = .namedType then s else symbol.type)
  element : ∀ n array index index' symbol, Given (.element n array index) → table.get? array.value = some symbol →
    Node (.element ⟨n.pos, symbol.type⟩ array index') ∧ Found (.element ⟨n.pos, symbol.type⟩ array index') symbol.type
  integer : ∀ n v, Given (.integer n v) →
    Node (.integer ⟨n.pos, integerType⟩ v) ∧ Found (.integer ⟨n.pos, integerType⟩ v) integerType
  real : ∀ n v, Given (.real n v) →
    Node (.real ⟨n.pos, realType⟩ v) ∧ Found (.real ⟨n.pos, realType⟩ v) realType
  cast : ∀ n inner inner', Given (.cast n inner) →
    Node (.cast ⟨n.pos, realType⟩ inner') ∧ Found (.cast ⟨n.pos, realType⟩ inner') realType
  /-- a cast that is put in -/
  widen : ∀ e, Node e → Node e.widen
  negate : ∀ n inner inner' found, Given (.negate n inner) → Found inner' found →
    Node (.negate ⟨n.pos, found⟩ inner') ∧ Found (.negate ⟨n.pos, found⟩ inner') found
  not : ∀ n inner inner', Given (.not n inner) → inner'.type = integerType →
    Node (.not ⟨n.pos, integerType⟩ inner') ∧ Found (.not ⟨n.pos, integerType⟩ inner') integerType
  call : ∀ n callee args args' routine, Given (.call n callee args) → table.get? callee.value = some routine →
    Node (.call ⟨n.pos, routine.type⟩ callee args') ∧ Found (.call ⟨n.pos, routine.type⟩ callee args') routine.type
  binary : ∀ n op left right left' right' leftType rightType o, Given (.binary n op left right) →
    Found left' leftType → Found right' rightType →
    binaryOperation n.pos op left' right' leftType rightType = some o → o.events.filterMap Event.message? = [] →
    Node (.binary ⟨n.pos, o.stored⟩ op o.left o.right) ∧ Found (.binary ⟨n.pos, o.stored⟩ op o.left o.right) o.found
  relation : ∀ n op left right left' right' leftType rightType o, Given (.relation n op left right) →
    Found left' leftType → Found right' rightType → comparison left' right' leftType rightType = o →
    Node (.relation ⟨n.pos, o.stored⟩ op o.left o.right) ∧
      Found (.relation ⟨n.pos, o.stored⟩ op o.left o.right) o.found

/-! ## Bodies without errors -/

section

variable {table : SymbolTable}

theorem messages_bodyCheck {env : SymbolIndex} {routine : Symbol} (found : table.get? env = some routine)
    (b : Body) (silent : (b.check table env).messages = []) :
    ((checkBody table b).andThen id fun body returns =>
      Checked.done body (missingReturn routine body returns) ()).messages = [] := by
  unfold Body.check at silent
  rw [found] at silent
  exact (List.append_eq_nil_iff.mp (List.filterMap_append.symm.trans silent)).1

/-- What a body without errors has once its statements are checked, it has at the end. -/
theorem holds_of_bodyCheck {P : Body → Prop} {env : SymbolIndex} {b : Body}
    (result : (b.check table env).result = some ()) (silent : (b.check table env).messages = [])
    (holds : ∀ routine, table.get? env = some routine → (checkBody table b).Establishes fun tree returns =>
      (routine.kind = .function → returns = true) → P tree) : P (b.check table env).tree := by
  cases found : table.get? env with
  | none =>
    rw [Body.check, found] at result
    cases result
  | some routine =>
    have inner : ((checkBody table b).andThen id fun body returns =>
        Checked.done body (missingReturn routine body returns) ()).Establishes fun tree _ => P tree := by
      refine (holds routine found).andThen fun tree returns held => establishes_done fun returned => held ?_
      intro function
      by_contra missing
      simp [missingReturn, function, missing, Event.message?] at returned
    have quiet := messages_bodyCheck found b silent
    unfold Body.check at result ⊢
    rw [found] at result ⊢
    exact inner () result quiet

end

namespace CheckLaw

variable {table : SymbolTable} {Given Node : Expr → Prop} {Found : Expr → SymbolIndex → Prop}

/-! ## Expressions -/

theorem converted (law : CheckLaw table Given Node Found) {e e' : Expr} (converted : Converted e e')
    (holds : All Node e.parts) : All Node e'.parts := by
  rcases converted with rfl | rfl
  · exact holds
  · exact all_cons.mpr ⟨law.widen e (holds e e.self_mem_parts), holds⟩

theorem convertedArgs (law : CheckLaw table Given Node Found) {args args' : List Expr}
    (converted : List.Forall₂ Converted args args') (holds : All Node (argParts args)) : All Node (argParts args') := by
  induction converted with
  | nil => exact holds
  | cons first _ ih =>
    rw [argParts, all_append] at holds ⊢
    exact ⟨law.converted first holds.1, ih holds.2⟩

theorem checkCallee (law : CheckLaw table Given Node Found) (callee : Reference) {args : List Expr}
    (holds : All Node (argParts args)) :
    (checkCallee table callee args).Establishes fun tree type =>
      All Node (argParts tree) ∧ ∃ routine, table.get? callee.value = some routine ∧ type = routine.type := by
  intro type result _
  refine ⟨law.convertedArgs (converted_checkCallee table callee args) holds, ?_⟩
  unfold MiniPascal.checkCallee at result
  split at result
  · cases result
  next routine known =>
    obtain ⟨fits, -, reached, -⟩ := andThen_eq_some result
    cases reached
    exact ⟨routine, known, rfl⟩

mutual

theorem check (law : CheckLaw table Given Node Found) (e : Expr) (given : All Given e.parts) :
    (e.check table).Establishes fun tree found => All Node tree.parts ∧ Found tree found := by
  match e with
  | .name n s =>
    rw [Expr.check]
    split
    · exact establishes_stopped
    next symbol known =>
      obtain ⟨node, found⟩ := law.name n s symbol (given _ List.mem_cons_self) known
      exact establishes_done fun _ => ⟨List.forall_mem_singleton.mpr node, found⟩
  | .element n array index =>
    rw [Expr.check]
    split
    · exact establishes_stopped
    next symbol known =>
      refine (law.check index (all_cons.mp given).2).andThen fun index' _ i => establishes_done fun _ => ?_
      obtain ⟨node, found⟩ := law.element n array index index' symbol (all_cons.mp given).1 known
      exact ⟨all_cons.mpr ⟨node, i.1⟩, found⟩
  | .integer n v =>
    obtain ⟨node, found⟩ := law.integer n v (given _ List.mem_cons_self)
    exact establishes_done fun _ => ⟨List.forall_mem_singleton.mpr node, found⟩
  | .real n v =>
    obtain ⟨node, found⟩ := law.real n v (given _ List.mem_cons_self)
    exact establishes_done fun _ => ⟨List.forall_mem_singleton.mpr node, found⟩
  | .cast n inner =>
    refine (law.check inner (all_cons.mp given).2).andThen fun inner' _ i => establishes_done fun _ => ?_
    obtain ⟨node, found⟩ := law.cast n inner inner' (all_cons.mp given).1
    exact ⟨all_cons.mpr ⟨node, i.1⟩, found⟩
  | .negate n inner =>
    refine (law.check inner (all_cons.mp given).2).andThen fun inner' type i => establishes_done fun _ => ?_
    obtain ⟨node, found⟩ := law.negate n inner inner' type (all_cons.mp given).1 i.2
    exact ⟨all_cons.mpr ⟨node, i.1⟩, found⟩
  | .not n inner =>
    refine (law.check inner (all_cons.mp given).2).andThen fun inner' _ i => ?_
    split
    next integer =>
      obtain ⟨node, found⟩ := law.not n inner inner' (all_cons.mp given).1 integer
      exact establishes_done fun _ => ⟨all_cons.mpr ⟨node, i.1⟩, found⟩
    -- anything but an integer was reported
    next => exact establishes_done fun silent => nomatch silent
  | .call n callee args =>
    refine (law.checkArgs args (all_cons.mp given).2).andThen fun args' _ as => ?_
    refine (law.checkCallee callee as).andThen fun args'' type matched => establishes_done fun _ => ?_
    obtain ⟨parts, routine, known, rfl⟩ := matched
    obtain ⟨node, found⟩ := law.call n callee args args'' routine (all_cons.mp given).1 known
    exact ⟨all_cons.mpr ⟨node, parts⟩, found⟩
  | .binary n op left right =>
    obtain ⟨own, parts⟩ := all_cons.mp given
    obtain ⟨left_given, right_given⟩ := all_append.mp parts
    refine (law.check left left_given).andThen fun left' leftType l => ?_
    refine (law.check right right_given).andThen fun right' rightType r => ?_
    split
    · exact establishes_stopped
    next o operation =>
      obtain ⟨lc, rc⟩ := converted_binaryOperation operation
      refine establishes_done fun silent => ?_
      obtain ⟨node, found⟩ := law.binary n op left right left' right' leftType rightType o own l.2 r.2 operation silent
      exact ⟨all_cons.mpr ⟨node, all_append.mpr ⟨law.converted lc l.1, law.converted rc r.1⟩⟩, found⟩
  | .relation n op left right =>
    obtain ⟨own, parts⟩ := all_cons.mp given
    obtain ⟨left_given, right_given⟩ := all_append.mp parts
    refine (law.check left left_given).andThen fun left' leftType l => ?_
    refine (law.check right right_given).andThen fun right' rightType r => establishes_done fun _ => ?_
    obtain ⟨lc, rc⟩ := converted_comparison left' right' leftType rightType
    obtain ⟨node, found⟩ := law.relation n op left right left' right' leftType rightType _ own l.2 r.2 rfl
    exact ⟨all_cons.mpr ⟨node, all_append.mpr ⟨law.converted lc l.1, law.converted rc r.1⟩⟩, found⟩
termination_by sizeOf e

theorem checkArgs (law : CheckLaw table Given Node Found) (es : List Expr) (given : All Given (argParts es)) :
    (checkArgs table es).Establishes fun tree _ => All Node (argParts tree) := by
  match es with
  | [] => exact establishes_done fun _ => List.forall_mem_nil _
  | e :: es =>
    obtain ⟨first_given, others_given⟩ := all_append.mp given
    refine (law.checkArgs es others_given).andThen fun es' _ others => ?_
    refine (law.check e first_given).andThen fun e' _ first => establishes_done fun _ => ?_
    exact all_append.mpr ⟨first.1, others⟩
termination_by sizeOf es

end

/-! ## Statements -/

theorem checkReturn (law : CheckLaw table Given Node Found) {p : Position} (value : Option Expr)
    (given : All Given (Stmt.ret p value).parts) :
    (checkReturn table p value).Establishes fun value' _ => All Node (Stmt.ret p value').parts := by
  unfold MiniPascal.checkReturn
  split
  · exact establishes_stopped
  next =>
    cases value with
    | none => exact establishes_done fun _ => List.forall_mem_nil _
    | some value => exact (law.check value given).andThen fun _ _ v => establishes_done fun _ => v.1

theorem checkCall (law : CheckLaw table Given Node Found) (callee : Reference) (args : List Expr)
    (given : All Given (argParts args)) :
    (checkCall table callee args).Establishes fun tree _ => All Node (argParts tree) :=
  (law.checkArgs args given).andThen fun _ _ as => (law.checkCallee callee as).mono fun _ _ matched => matched.1

mutual

theorem checkStmt (law : CheckLaw table Given Node Found) (s : Stmt) (given : All Given s.parts) :
    (s.check table).Establishes fun tree _ => All Node tree.parts := by
  match s with
  | .assign p target value =>
    obtain ⟨target_given, value_given⟩ := all_append.mp given
    rw [Stmt.check]
    refine (law.check target target_given).andThen fun target' targetType t => ?_
    refine (law.check value value_given).andThen fun value' valueType v => establishes_done fun _ => ?_
    have converted := converted_assigned table p value' targetType valueType
    exact all_append.mpr ⟨t.1, law.converted converted v.1⟩
  | .loop p condition body =>
    obtain ⟨condition_given, body_given⟩ := all_append.mp given
    rw [Stmt.check]
    refine (law.check condition condition_given).andThen fun _ _ c => establishes_after fun _ => ?_
    refine (law.checkBody body body_given).andThen fun _ _ b => establishes_done fun _ => ?_
    exact all_append.mpr ⟨c.1, b⟩
  | .branch p condition body elsifs none =>
    obtain ⟨front_given, elsifs_given⟩ := all_append.mp given
    obtain ⟨condition_given, body_given⟩ := all_append.mp front_given
    rw [Stmt.check]
    refine (law.check condition condition_given).andThen fun _ _ c => ?_
    refine (law.checkBody body body_given).andThen fun _ _ b => establishes_after fun _ => ?_
    refine (law.checkElsifs elsifs elsifs_given).andThen fun _ _ es => establishes_done fun _ => ?_
    exact all_append.mpr ⟨all_append.mpr ⟨c.1, b⟩, es⟩
  | .branch p condition body elsifs (some otherwise) =>
    obtain ⟨front_given, otherwise_given⟩ := all_append.mp given
    obtain ⟨front_given, elsifs_given⟩ := all_append.mp front_given
    obtain ⟨condition_given, body_given⟩ := all_append.mp front_given
    rw [Stmt.check]
    refine (law.check condition condition_given).andThen fun _ _ c => ?_
    refine (law.checkBody body body_given).andThen fun _ _ b => establishes_after fun _ => ?_
    refine (law.checkElsifs elsifs elsifs_given).andThen fun _ _ es => ?_
    refine (law.checkBody otherwise otherwise_given).andThen fun _ _ o => establishes_done fun _ => ?_
    exact all_append.mpr ⟨all_append.mpr ⟨all_append.mpr ⟨c.1, b⟩, es⟩, o⟩
  | .ret p value =>
    rw [Stmt.check]
    exact (law.checkReturn value given).andThen fun _ _ v => establishes_done fun _ => v
  | .call p callee args =>
    rw [Stmt.check]
    exact (law.checkCall callee args given).andThen fun _ _ as => establishes_done fun _ => as
termination_by sizeOf s

theorem checkElsif (law : CheckLaw table Given Node Found) (e : Elsif) (given : All Given e.parts) :
    (e.check table).Establishes fun tree _ => All Node tree.parts := by
  match e with
  | .clause p condition body =>
    obtain ⟨condition_given, body_given⟩ := all_append.mp given
    rw [Elsif.check]
    refine (law.checkBody body body_given).andThen fun _ _ b => ?_
    refine (law.check condition condition_given).andThen fun _ _ c => establishes_done fun _ => ?_
    exact all_append.mpr ⟨c.1, b⟩
termination_by sizeOf e

theorem checkElsifs (law : CheckLaw table Given Node Found) (es : List Elsif) (given : All Given (elsifParts es)) :
    (checkElsifs table es).Establishes fun tree _ => All Node (elsifParts tree) := by
  match es with
  | [] => exact establishes_done fun _ => List.forall_mem_nil _
  | e :: es =>
    obtain ⟨first_given, others_given⟩ := all_append.mp given
    rw [MiniPascal.checkElsifs]
    refine (law.checkElsifs es others_given).andThen fun _ _ others => ?_
    refine (law.checkElsif e first_given).andThen fun _ _ first => establishes_done fun _ => ?_
    exact all_append.mpr ⟨first, others⟩
termination_by sizeOf es

theorem checkBody (law : CheckLaw table Given Node Found) (b : List Stmt) (given : All Given (bodyParts b)) :
    (checkBody table b).Establishes fun tree _ => All Node (bodyParts tree) := by
  match b with
  | [] => exact establishes_done fun _ => List.forall_mem_nil _
  | s :: b =>
    obtain ⟨first_given, others_given⟩ := all_append.mp given
    rw [MiniPascal.checkBody]
    refine (law.checkBody b others_given).andThen fun _ _ others => ?_
    refine (law.checkStmt s first_given).andThen fun _ _ first => establishes_done fun _ => ?_
    exact all_append.mpr ⟨first, others⟩
termination_by sizeOf b

end

/-- A law holds of every expression in a body that was checked without an error. -/
theorem bodyCheck (law : CheckLaw table Given Node Found) {env : SymbolIndex} {b : Body}
    (given : All Given (bodyParts b)) (result : (b.check table env).result = some ())
    (silent : (b.check table env).messages = []) :
    All Node (bodyParts (b.check table env).tree) := by
  refine holds_of_bodyCheck (P := fun tree => All Node (bodyParts tree)) result silent fun _ _ => ?_
  exact (law.checkBody b given).mono fun _ _ holds _ => holds

end CheckLaw

end MiniPascal
