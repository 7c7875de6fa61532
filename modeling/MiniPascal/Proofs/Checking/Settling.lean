import MiniPascal.Proofs.Checking.Keeping
import MiniPascal.Proofs.Checking.Soundness

/-!
# Checking a second time

Conversions that a first check put into a tree may change what a second check finds: a relation with one
integer side has no integer side any more, and so it loses its type. The tree settles if this makes no
difference to what is around such a relation, and if no operator minds a converted operand.
-/

namespace MiniPascal

open Checked

variable (table : SymbolTable)

/-! ## Types that fade -/

/-- The type that checking finds for the expression. -/
def Expr.Finds (e : Expr) (type : SymbolIndex) : Prop :=
  (e.check table).result = some type

instance (e : Expr) (type : SymbolIndex) : Decidable (e.Finds table type) :=
  inferInstanceAs (Decidable (_ = _))

/-- A relation that is an integer as long as it was not checked, and has no type once it was. -/
def Expr.Fades : Expr → Prop
  | .relation _ _ left right =>
    (left.Finds table integerType ∨ right.Finds table integerType) ∧
      (left.Finds table integerType ∧ right.Finds table integerType → left.Fades ∧ right.Fades)
  | _ => False

instance Expr.decidableFades : (e : Expr) → Decidable (e.Fades table)
  | .relation _ _ left right =>
    have := decidableFades left
    have := decidableFades right
    inferInstanceAs (Decidable ((_ ∨ _) ∧ (_ ∧ _ → _ ∧ _)))
  | .name .. | .element .. | .integer .. | .real .. | .cast .. | .negate .. | .not .. | .call .. | .binary .. =>
    isFalse id

/-- The type that is found for the expression when it is checked again. -/
def Expr.refound (e : Expr) (found : SymbolIndex) : SymbolIndex :=
  if e.Fades table then voidType else found

/-! ## Settled trees -/

/-- The operator does not mind that its operands were checked. -/
def BinaryOp.Settles (left right : Expr) : BinaryOp → Prop
  | .add | .sub | .mul =>
    (left.Finds table integerType → right.Finds table integerType ∨ right.Finds table realType) ∧
      (right.Finds table integerType → left.Finds table integerType ∨ left.Finds table realType) ∧
      (left.Finds table integerType ∧ right.Finds table integerType → ¬left.Fades table ∧ ¬right.Fades table)
  | .divide => True
  | .div | .mod | .or | .and => right.Finds table integerType ∧ ¬left.Fades table ∧ ¬right.Fades table

mutual

/-- Once it was checked, the expression stays as it is. -/
def Expr.Settles : Expr → Prop
  | .name .. | .integer .. | .real .. => True
  | .element _ _ e | .negate _ e => e.Settles ∧ ¬e.Fades table
  | .cast _ e | .not _ e => e.Settles
  | .call _ _ args => ArgsSettle args
  | .binary _ op left right => left.Settles ∧ right.Settles ∧ op.Settles table left right
  | .relation _ _ left right => left.Settles ∧ right.Settles ∧
    (left.Finds table integerType ∧ right.Finds table integerType → (left.Fades table ↔ right.Fades table))

def ArgsSettle : List Expr → Prop
  | [] => True
  | e :: es => e.Settles ∧ ArgsSettle es

end

mutual

/-- Once it was checked, the statement stays as it is. -/
def Stmt.Settles : Stmt → Prop
  | .assign _ target value => target.Settles table ∧ value.Settles table ∧
    ∀ type, target.Finds table type ∧ value.Finds table type → (target.Fades table ↔ value.Fades table)
  | .branch _ condition body elsifs none =>
    (condition.Settles table ∧ ¬condition.Fades table) ∧ BodySettles body ∧ ElsifsSettle elsifs
  | .branch _ condition body elsifs (some otherwise) =>
    (condition.Settles table ∧ ¬condition.Fades table) ∧ BodySettles body ∧ ElsifsSettle elsifs ∧
      BodySettles otherwise
  | .loop _ condition body => (condition.Settles table ∧ ¬condition.Fades table) ∧ BodySettles body
  | .ret _ none => True
  | .ret _ (some value) => value.Settles table ∧ ¬value.Fades table
  | .call _ _ args => ArgsSettle table args

def ElsifsSettle : List Elsif → Prop
  | [] => True
  | .clause _ condition body :: es => (condition.Settles table ∧ BodySettles body) ∧ ElsifsSettle es

/-- Once it was checked, the body stays as it is. -/
def BodySettles : List Stmt → Prop
  | [] => True
  | s :: ss => s.Settles ∧ BodySettles ss

end

/-! ## Expressions -/

/-- What is known of an expression after a check without errors: the type was found, and it tells what
a second check does to the tree. -/
structure Expr.Rechecks (e tree : Expr) (type : SymbolIndex) : Prop where
  finds : e.Finds table type
  fades : e.Fades table → type = integerType
  keeps : ∀ t, tree.Keeps table t ↔ e.Settles table ∧ t = e.refound table type

variable {table} {n : Note} {left right left' right' : Expr} {leftType rightType : SymbolIndex}

theorem finds_iff {e : Expr} {s t : SymbolIndex} (found : e.Finds table s) : e.Finds table t ↔ s = t := by
  rw [Expr.Finds] at found ⊢
  rw [found, Option.some.injEq]

theorem keeps_widen {e : Expr} {p : Prop} {s : SymbolIndex} (kept : ∀ t, e.Keeps table t ↔ p ∧ t = s)
    (t : SymbolIndex) :
    e.widen.Keeps table t ↔ p ∧ t = realType := by
  rw [Expr.widen, keeps_cast]
  simp [kept, eq_comm]

/-- Each operand is found to have one type only. -/
theorem exists_found_iff {p q : Prop} {s t : SymbolIndex} {R : SymbolIndex → SymbolIndex → Prop} :
    (∃ s' t', (p ∧ s' = s) ∧ (q ∧ t' = t) ∧ R s' t') ↔ p ∧ q ∧ R s t := by
  constructor
  · rintro ⟨_, _, ⟨left_settles, rfl⟩, ⟨right_settles, rfl⟩, stays⟩
    exact ⟨left_settles, right_settles, stays⟩
  · rintro ⟨left_settles, right_settles, stays⟩
    exact ⟨s, t, ⟨left_settles, rfl⟩, ⟨right_settles, rfl⟩, stays⟩

theorem keeps_operation {op : BinaryOp} {p q : Prop} {s t : SymbolIndex} (l : ∀ t, left.Keeps table t ↔ p ∧ t = s)
    (r : ∀ u, right.Keeps table u ↔ q ∧ u = t) (u : SymbolIndex) :
    (Expr.binary n op left right).Keeps table u ↔
      p ∧ q ∧ op.Stays s t left.type right.type u ∧ u = n.type := by
  rw [keeps_binary]
  simp only [l, r]
  exact exists_found_iff

theorem keeps_comparison {op : RelationOp} {p q : Prop} {s t : SymbolIndex}
    (l : ∀ t, left.Keeps table t ↔ p ∧ t = s) (r : ∀ u, right.Keeps table u ↔ q ∧ u = t) (u : SymbolIndex) :
    (Expr.relation n op left right).Keeps table u ↔ p ∧ q ∧ (s = integerType ↔ t = integerType) ∧
      integerType = n.type ∧ (if s = integerType then integerType else voidType) = u := by
  rw [keeps_relation]
  simp only [l, r]
  exact exists_found_iff

theorem eq_refound_iff {e tree : Expr} {type : SymbolIndex} (e_rechecks : e.Rechecks table tree type) :
    type = e.refound table type ↔ ¬e.Fades table := by
  unfold Expr.refound
  split_ifs with fades
  · rw [e_rechecks.fades fades]
    exact iff_of_false (by decide) (not_not_intro fades)
  · exact iff_of_true rfl fades

theorem refound_eq {e tree : Expr} {type : SymbolIndex} (e_rechecks : e.Rechecks table tree type)
    (other : type ≠ integerType) :
    e.refound table type = type :=
  if_neg fun fades => other (e_rechecks.fades fades)

section Operators

variable {pos : Position} {op : BinaryOp} {o : Operation}
  (l : left.Rechecks table left' leftType) (r : right.Rechecks table right' rightType)
include l r

theorem settles_arithmetic (sum : op = .add ∨ op = .sub ∨ op = .mul)
    (operation : arithmetic left' right' leftType rightType = o) (t : SymbolIndex) :
    (Expr.binary ⟨pos, o.stored⟩ op o.left o.right).Keeps table t ↔
      (left.Settles table ∧ right.Settles table ∧ op.Settles table left right) ∧ t = o.found := by
  have stays (s t u v w : SymbolIndex) :
      op.Stays s t u v w ↔ (s = integerType ↔ t = integerType) ∧ sumType s t = w := by
    rcases sum with rfl | rfl | rfl <;> rfl
  have settles : op.Settles table left right ↔ BinaryOp.add.Settles table left right := by
    rcases sum with rfl | rfl | rfl <;> rfl
  rw [settles, BinaryOp.Settles, finds_iff l.finds, finds_iff l.finds, finds_iff r.finds, finds_iff r.finds]
  unfold arithmetic at operation
  split_ifs at operation with both reals left_integer right_integer <;> subst operation
  · rw [keeps_operation l.keeps r.keeps, stays, sumType, Expr.refound, Expr.refound]
    grind
  · rw [keeps_operation l.keeps r.keeps, stays, sumType]
    grind [refound_eq l, refound_eq r]
  · rw [widening, keeps_operation (keeps_widen l.keeps) r.keeps, stays, sumType]
    grind [refound_eq r]
  · rw [widening, keeps_operation l.keeps (keeps_widen r.keeps), stays, sumType]
    grind [refound_eq l]
  · rw [keeps_operation l.keeps r.keeps, stays, sumType]
    grind [refound_eq l, refound_eq r]

theorem settles_division (operation : division left' right' = o) (t : SymbolIndex) :
    (Expr.binary ⟨pos, o.stored⟩ .divide o.left o.right).Keeps table t ↔
      (left.Settles table ∧ right.Settles table) ∧ t = o.found := by
  have real : realType ≠ integerType := by decide
  subst operation
  by_cases left_integer : left'.type = integerType <;> by_cases right_integer : right'.type = integerType <;>
    simp only [division, wideningInteger, widening, left_integer, right_integer, if_true, if_false]
  · rw [keeps_operation (keeps_widen l.keeps) (keeps_widen r.keeps), BinaryOp.Stays]
    grind [Expr.type_widen]
  · rw [keeps_operation (keeps_widen l.keeps) r.keeps, BinaryOp.Stays]
    grind [Expr.type_widen]
  · rw [keeps_operation l.keeps (keeps_widen r.keeps), BinaryOp.Stays]
    grind [Expr.type_widen]
  · rw [keeps_operation l.keeps r.keeps, BinaryOp.Stays]
    grind

theorem settles_integerOperation (whole : op = .div ∨ op = .mod ∨ op = .or ∨ op = .and)
    (operation : integerOperation pos op left' right' leftType rightType = some o)
    (silent : o.events.filterMap Event.message? = []) (t : SymbolIndex) :
    (Expr.binary ⟨pos, o.stored⟩ op o.left o.right).Keeps table t ↔
      (left.Settles table ∧ right.Settles table ∧ op.Settles table left right) ∧ t = o.found := by
  have stays (s t u v w : SymbolIndex) :
      op.Stays s t u v w ↔ (s = integerType ∧ t = integerType) ∧ integerType = w := by
    rcases whole with rfl | rfl | rfl | rfl <;> rfl
  have settles : op.Settles table left right ↔ BinaryOp.div.Settles table left right := by
    rcases whole with rfl | rfl | rfl | rfl <;> rfl
  rw [settles, BinaryOp.Settles, finds_iff r.finds]
  unfold integerOperation at operation
  split_ifs at operation with both mixed
  · cases operation
    rw [keeps_operation l.keeps r.keeps, stays, Expr.refound, Expr.refound]
    grind
  · cases operation
    rw [keeps_operation (keeps_widen l.keeps) r.keeps, stays]
    grind
  · obtain ⟨name, -, rfl⟩ := Option.map_eq_some_iff.mp operation
    cases silent

theorem settles_binaryOperation (operation : binaryOperation pos op left' right' leftType rightType = some o)
    (silent : o.events.filterMap Event.message? = []) (t : SymbolIndex) :
    (Expr.binary ⟨pos, o.stored⟩ op o.left o.right).Keeps table t ↔
      (left.Settles table ∧ right.Settles table ∧ op.Settles table left right) ∧ t = o.found := by
  cases op with
  | add | sub | mul => exact settles_arithmetic l r (by simp) (Option.some.inj operation) t
  | divide =>
    rw [settles_division l r (Option.some.inj operation)]
    simp [BinaryOp.Settles]
  | div | mod | or | and => exact settles_integerOperation l r (by simp) operation silent t

theorem rechecks_comparison {op : RelationOp} (operation : comparison left' right' leftType rightType = o)
    (found : (Expr.relation n op left right).Finds table o.found) :
    (Expr.relation n op left right).Rechecks table (.relation ⟨pos, o.stored⟩ op o.left o.right) o.found := by
  have fades : (Expr.relation n op left right).Fades table ↔ (leftType = integerType ∨ rightType = integerType) ∧
      (leftType = integerType ∧ rightType = integerType → left.Fades table ∧ right.Fades table) := by
    rw [Expr.Fades, finds_iff l.finds, finds_iff r.finds]
  have settles : (Expr.relation n op left right).Settles table ↔ left.Settles table ∧ right.Settles table ∧
      (leftType = integerType ∧ rightType = integerType → (left.Fades table ↔ right.Fades table)) := by
    rw [Expr.Settles, finds_iff l.finds, finds_iff r.finds]
  unfold comparison at operation
  refine ⟨found, fun faded => ?_, fun t => ?_⟩
  · rw [fades] at faded
    split_ifs at operation with both left_integer right_integer <;> subst operation
    · rfl
    · rfl
    · rfl
    · exact absurd faded.1 (not_or.mpr ⟨left_integer, right_integer⟩)
  · rw [settles, Expr.refound]
    simp only [fades]
    split_ifs at operation with both left_integer right_integer <;> subst operation
    · rw [keeps_comparison l.keeps r.keeps, Expr.refound, Expr.refound]
      grind
    · rw [widening, keeps_comparison (keeps_widen l.keeps) r.keeps]
      grind [refound_eq r]
    · rw [widening, keeps_comparison l.keeps (keeps_widen r.keeps)]
      grind [refound_eq l]
    · rw [keeps_comparison l.keeps r.keeps]
      grind [refound_eq l, refound_eq r]

end Operators

/-! ### Calls -/

theorem rematches_matchReversed (pos : Position) (params : List SymbolIndex) (args : List Expr) :
    (matchReversed table pos params args).Establishes fun tree _ =>
      Rematches table params (tree.map Expr.type) := by
  fun_induction matchReversed table pos params args with
  | case1 => exact establishes_done fun _ => trivial
  | case2 | case3 => exact establishes_done fun silent => by contradiction
  | case4 => exact establishes_stopped
  | case5 param params arg args symbol found equal c ih =>
    intro fits result silent
    rw [List.map_cons, rematches_cons found]
    exact .inl ⟨equal, ih fits result silent⟩
  | case6 param params arg args symbol found different widens c ih =>
    intro fits result silent
    rw [List.map_cons, rematches_cons found]
    exact .inl ⟨widens.1, ih fits result silent⟩
  | case7 => exact establishes_done fun silent => by contradiction
  | case8 param params arg args symbol found different no_widening no_integer =>
    refine establishes_done fun _ => ?_
    rw [List.map_cons, rematches_cons found]
    exact .inr ⟨not_or.mpr ⟨different, no_widening⟩, no_integer⟩

/-- Arguments that were matched are not converted again. -/
theorem leaves_matched (callee : Reference) (args : List Expr) :
    (checkCallee table callee args).Establishes fun tree type =>
      (checkCallee table callee tree).Leaves tree type := by
  have matched (routine : Symbol) : (matchArguments table callee.pos routine.params args).Establishes fun tree _ =>
      Rematches table routine.params.reverse (tree.map Expr.type).reverse := by
    intro fits result silent
    have rematches := rematches_matchReversed callee.pos routine.params.reverse args.reverse fits result silent
    simpa [matchArguments] using rematches
  rw [checkCallee]
  split
  · exact establishes_stopped
  next routine found =>
    refine (matched routine).andThen fun tree _ rematches => establishes_done fun _ => ?_
    exact leaves_checkCallee.mpr ⟨routine, found, rematches, rfl⟩

theorem Widens.keeps_iff {e e' : Expr} {k : Nat} (widens : Widens e e' k) :
    (∃ t, e'.Keeps table t) ↔ ∃ t, e.Keeps table t := by
  cases widens with
  | keep => rfl
  | cast _ => simp [keeps_cast]

theorem WidensArgs.keep_iff {es es' : List Expr} {k : Nat} (widens : WidensArgs es es' k) :
    ArgsKeep table es' ↔ ArgsKeep table es := by
  induction widens with
  | nil => rfl
  | cons first _ ih => rw [argsKeep_cons, argsKeep_cons, first.keeps_iff, ih]

/-- What becomes of a call depends on its arguments only. -/
theorem rematches_checkCallee (callee : Reference) (args : List Expr) :
    (checkCallee table callee args).Establishes fun tree type =>
      ∀ t, ArgsKeep table tree ∧ (checkCallee table callee tree).Leaves tree t ↔
        ArgsKeep table args ∧ t = type := by
  intro type result silent t
  have leaves := leaves_matched callee args type result silent
  rw [(leads_checkCallee table callee args).1.keep_iff]
  refine and_congr_right fun _ => ⟨fun again => ?_, ?_⟩
  · exact Option.some.inj (again.result.symm.trans leaves.result)
  · rintro rfl
    exact leaves

/-! ### All expressions -/

theorem establishes_finds {e : Expr} {P : Expr → SymbolIndex → Prop}
    (establishes : (e.check table).Establishes fun tree type => e.Finds table type → P tree type) :
    (e.check table).Establishes P :=
  fun type result silent => establishes type result silent result

/-- The type of an expression that is no relation does not fade. -/
theorem rechecks_steady {e tree : Expr} {type : SymbolIndex} (finds : e.Finds table type) (steady : ¬e.Fades table)
    (keeps : ∀ t, tree.Keeps table t ↔ e.Settles table ∧ t = type) : e.Rechecks table tree type := by
  refine ⟨finds, fun fades => absurd fades steady, fun t => ?_⟩
  rw [keeps, Expr.refound, if_neg steady]

mutual

/-- After a check without errors it is known what a second one does. -/
theorem rechecks_check (e : Expr) : (e.check table).Establishes (e.Rechecks table) := by
  apply establishes_finds
  match e with
  | .name n s =>
    rw [Expr.check]
    split
    · exact establishes_stopped
    next symbol found =>
      refine establishes_done fun _ finds => rechecks_steady finds id fun t => ?_
      simp [keeps_name, found, Expr.Settles, eq_comm]
  | .element n array index =>
    rw [Expr.check]
    split
    · exact establishes_stopped
    next symbol found =>
      refine (rechecks_check index).andThen fun index' type i => establishes_done fun silent finds => ?_
      have integer : type = integerType := silent_unless rfl silent
      have asked := eq_refound_iff i
      rw [integer] at i asked
      refine rechecks_steady finds id fun t => ?_
      simp [keeps_element, found, Expr.Settles, i.keeps, asked, eq_comm]
  | .integer n v =>
    refine establishes_done fun _ finds => rechecks_steady finds id fun t => ?_
    simp [keeps_integer, Expr.Settles, eq_comm]
  | .real n v =>
    refine establishes_done fun _ finds => rechecks_steady finds id fun t => ?_
    simp [keeps_real, Expr.Settles, eq_comm]
  | .cast n inner =>
    refine (rechecks_check inner).andThen fun inner' type i => establishes_done fun _ finds => ?_
    refine rechecks_steady finds id fun t => ?_
    simp [keeps_cast, Expr.Settles, i.keeps, eq_comm]
  | .negate n inner =>
    refine (rechecks_check inner).andThen fun inner' type i => establishes_done fun _ finds => ?_
    refine rechecks_steady finds id fun t => ?_
    rw [keeps_negate, i.keeps, Expr.Settles, ← eq_refound_iff i]
    grind
  | .not n inner =>
    refine (rechecks_check inner).andThen fun inner' type i => ?_
    split
    next integer =>
      refine establishes_done fun _ finds => rechecks_steady finds id fun t => ?_
      simp [keeps_not, Expr.Settles, i.keeps, integer, eq_comm]
    next => exact establishes_done fun silent => by contradiction
  | .call n callee args =>
    refine (recheck_checkArgs args).andThen fun args' _ as => ?_
    refine (rematches_checkCallee callee args').andThen fun args'' type matched => ?_
    refine establishes_done fun _ finds => ?_
    refine rechecks_steady finds id fun t => ?_
    rw [keeps_call, ← and_assoc, matched, as, Expr.Settles]
    exact and_iff_left_of_imp And.right
  | .binary n op left right =>
    refine (rechecks_check left).andThen fun left' leftType l => ?_
    refine (rechecks_check right).andThen fun right' rightType r => ?_
    split
    · exact establishes_stopped
    next o operation =>
      refine establishes_done fun silent finds => rechecks_steady finds id fun t => ?_
      exact settles_binaryOperation l r operation silent t
  | .relation n op left right =>
    refine (rechecks_check left).andThen fun left' leftType l => ?_
    refine (rechecks_check right).andThen fun right' rightType r => ?_
    exact establishes_done fun _ finds => rechecks_comparison l r rfl finds
termination_by sizeOf e

theorem recheck_checkArgs (es : List Expr) :
    (checkArgs table es).Establishes fun tree _ => ArgsKeep table tree ↔ ArgsSettle table es := by
  match es with
  | [] => exact establishes_done fun _ => iff_of_true argsKeep_nil trivial
  | e :: es =>
    refine (recheck_checkArgs es).andThen fun es' _ others => ?_
    refine (rechecks_check e).andThen fun e' type first => establishes_done fun _ => ?_
    rw [argsKeep_cons, ArgsSettle, others]
    simp [first.keeps]
termination_by sizeOf es

end

/-! ## Statements -/

/-- Where an integer is asked for, its type must not fade. -/
theorem keeps_integer_iff {e tree : Expr} {type : SymbolIndex} (e_rechecks : e.Rechecks table tree type)
    (integer : type = integerType) : tree.Keeps table integerType ↔ e.Settles table ∧ ¬e.Fades table := by
  subst integer
  rw [e_rechecks.keeps, eq_refound_iff e_rechecks]

theorem settles_assigned {p : Position} {target value target' value' : Expr} {targetType valueType : SymbolIndex}
    (t : target.Rechecks table target' targetType) (v : value.Rechecks table value' valueType)
    (silent : (assigned table p value' targetType valueType).2.filterMap Event.message? = []) (returns : Bool) :
    (Stmt.assign p target' (assigned table p value' targetType valueType).1).Keeps table returns ↔
      (Stmt.assign p target value).Settles table ∧ returns = false := by
  rw [keeps_assign, Stmt.Settles]
  simp only [finds_iff t.finds, finds_iff v.finds, t.keeps]
  unfold assigned at silent ⊢
  split_ifs at silent ⊢ with equal widens
  · subst equal
    simp only [v.keeps]
    have same : target.refound table targetType = value.refound table targetType ↔
        (target.Fades table ↔ value.Fades table) := by
      have target_fades := t.fades
      have value_fades := v.fades
      unfold Expr.refound
      split_ifs with tf vf vf
      · simp [tf, vf]
      · simp [tf, vf, target_fades tf]
      · simp [tf, vf, value_fades vf]
      · simp [tf, vf]
    rw [← same]
    constructor
    · rintro ⟨_, ⟨target_settles, rfl⟩, ⟨value_settles, equal⟩, rfl⟩
      exact ⟨⟨target_settles, value_settles, fun _ _ => equal⟩, rfl⟩
    · rintro ⟨⟨target_settles, value_settles, equal⟩, rfl⟩
      exact ⟨_, ⟨target_settles, rfl⟩, ⟨value_settles, equal targetType ⟨rfl, rfl⟩⟩, rfl⟩
  · obtain ⟨rfl, rfl⟩ := widens
    have real := refound_eq t (by decide)
    simp only [real, widening, keeps_widen v.keeps]
    grind
  · simp [Event.message?] at silent

theorem resettles_checkReturn {p : Position} (value : Option Expr) :
    (checkReturn table p value).Establishes fun value' _ => ∀ returns, (Stmt.ret p value').Keeps table returns ↔
      (Stmt.ret p value).Settles table ∧ returns = true := by
  unfold checkReturn
  split
  · exact establishes_stopped
  next routine known =>
    cases value with
    | none =>
      refine establishes_done fun silent returns => ?_
      have procedure : routine.kind = .procedure := silent_unless rfl silent
      simp [keeps_ret, known, procedure, Stmt.Settles, eq_comm]
    | some value =>
      refine (rechecks_check value).andThen fun value' found v => establishes_done fun silent returns => ?_
      have accepted : routine.kind = .function ∧ routine.type = found := by
        unfold returned at silent
        split_ifs at silent with kind type
        · simp [Event.message?] at silent
        · simp [Event.message?] at silent
        · exact ⟨not_not.mp kind, not_not.mp type⟩
      have asked := eq_refound_iff v
      simp [keeps_retValue, known, accepted, Stmt.Settles, v.keeps, asked, eq_comm]

mutual

/-- After a check without errors it is known whether a second one leaves a statement alone. -/
theorem resettles_checkStmt (s : Stmt) : (s.check table).Establishes fun tree returns =>
    ∀ r, tree.Keeps table r ↔ s.Settles table ∧ r = returns := by
  match s with
  | .assign p target value =>
    rw [Stmt.check]
    refine (rechecks_check target).andThen fun target' targetType t => ?_
    refine (rechecks_check value).andThen fun value' valueType v => ?_
    exact establishes_done fun silent => settles_assigned t v silent
  | .loop p condition body =>
    rw [Stmt.check]
    refine (rechecks_check condition).andThen fun condition' found c => establishes_after fun silent => ?_
    refine (resettles_checkBody body).andThen fun body' returns b => establishes_done fun _ r => ?_
    rw [keeps_loop, keeps_integer_iff c (silent_unless rfl silent), b, Stmt.Settles, ← and_assoc]
  | .branch p condition body elsifs none =>
    rw [Stmt.check]
    refine (rechecks_check condition).andThen fun condition' found c => ?_
    refine (resettles_checkBody body).andThen fun body' returns b => establishes_after fun silent => ?_
    refine (resettles_checkElsifs elsifs).andThen fun elsifs' elsifReturns es => establishes_done fun _ r => ?_
    rw [keeps_branch, keeps_integer_iff c (silent_unless rfl silent), Stmt.Settles]
    simp only [b, es]
    grind
  | .branch p condition body elsifs (some otherwise) =>
    rw [Stmt.check]
    refine (rechecks_check condition).andThen fun condition' found c => ?_
    refine (resettles_checkBody body).andThen fun body' returns b => establishes_after fun silent => ?_
    refine (resettles_checkElsifs elsifs).andThen fun elsifs' elsifReturns es => ?_
    refine (resettles_checkBody otherwise).andThen fun otherwise' otherwiseReturns o => ?_
    refine establishes_done fun _ r => ?_
    rw [keeps_branchElse, keeps_integer_iff c (silent_unless rfl silent), Stmt.Settles]
    simp only [b, es, o]
    grind
  | .ret p value =>
    rw [Stmt.check]
    exact (resettles_checkReturn value).andThen fun value' _ v => establishes_done fun _ => v
  | .call p callee args =>
    rw [Stmt.check]
    have call : (checkCall table callee args).Establishes fun tree type =>
        ∀ t, ArgsKeep table tree ∧ (checkCallee table callee tree).Leaves tree t ↔
          ArgsSettle table args ∧ t = type := by
      refine (recheck_checkArgs args).andThen fun args' _ as => ?_
      rw [← as]
      exact rematches_checkCallee callee args'
    refine call.andThen fun args'' type matched => establishes_done fun _ r => ?_
    rw [keeps_callStmt, Stmt.Settles]
    simp only [← and_assoc, ← exists_and_left, matched]
    grind
termination_by sizeOf s

theorem resettles_checkElsifs (es : List Elsif) : (checkElsifs table es).Establishes fun tree returns =>
    ∀ r, ElsifsKeep table tree r ↔ ElsifsSettle table es ∧ r = returns := by
  match es with
  | [] =>
    refine establishes_done fun _ r => ?_
    simp [elsifsKeep_nil, ElsifsSettle, eq_comm]
  | .clause p condition body :: es =>
    rw [checkElsifs]
    refine (resettles_checkElsifs es).andThen fun es' later others => ?_
    have clause : (Elsif.check table (.clause p condition body)).Establishes fun tree returns =>
        ∀ r, tree.Keeps table r ↔ (condition.Settles table ∧ BodySettles table body) ∧ r = returns := by
      rw [Elsif.check]
      refine (resettles_checkBody body).andThen fun body' returns b => ?_
      refine (rechecks_check condition).andThen fun condition' found c => establishes_done fun silent r => ?_
      rw [keeps_clause, b]
      simp only [c.keeps, silent_unless rfl silent]
      grind
    refine clause.andThen fun e' here first => establishes_done fun _ r => ?_
    rw [elsifsKeep_cons, ElsifsSettle]
    simp only [first, others]
    grind
termination_by sizeOf es

theorem resettles_checkBody (b : List Stmt) : (checkBody table b).Establishes fun tree returns =>
    ∀ r, BodyKeeps table tree r ↔ BodySettles table b ∧ r = returns := by
  match b with
  | [] =>
    refine establishes_done fun _ r => ?_
    simp [bodyKeeps_nil, BodySettles, eq_comm]
  | s :: b =>
    rw [checkBody]
    refine (resettles_checkBody b).andThen fun b' later others => ?_
    refine (resettles_checkStmt s).andThen fun s' here first => establishes_done fun _ r => ?_
    rw [bodyKeeps_cons, BodySettles]
    simp only [first, others]
    grind
termination_by sizeOf b

end

/-! ## Routines -/

/-- Checking leaves a body alone that it accepted before, just if the body settles. -/
theorem leaves_bodyCheck_iff {env : SymbolIndex} {b : Body} (result : (b.check table env).result = some ())
    (silent : (b.check table env).messages = []) :
    ((b.check table env).tree.check table env).Leaves (b.check table env).tree () ↔ BodySettles table b := by
  refine holds_of_bodyCheck (P := fun tree => (tree.check table env).Leaves tree () ↔ BodySettles table b)
    result silent fun routine found => ?_
  refine (resettles_checkBody b).mono fun tree returns keeps accepted => ?_
  rw [leaves_bodyCheck]
  simp only [found, Option.some.injEq, exists_eq_left', keeps]
  grind

end MiniPascal
