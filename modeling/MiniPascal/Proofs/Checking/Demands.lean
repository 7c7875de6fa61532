import MiniPascal.Proofs.Validation
import Mathlib.Data.Multiset.AddSub

/-!
# Places that demand an integer

Six places want an expression to be an integer. The conditions of `while` and `if` and the index of
an array go by the type that checking finds; the condition of `elsif`, the operand of `not` and the
argument for an integer parameter go by the type that is stored. So the places agree about an
expression unless its two types differ, which only happens at the expression itself.
-/

namespace MiniPascal

open Checked

variable {table : SymbolTable}

/-! ## Two types of an expression -/

/-- One of the two types of such an expression is integer, and the other one is not. -/
inductive JudgedApart (table : SymbolTable) : Expr → Prop
  /-- the name of a type has that type itself, but the type of its symbol is stored -/
  | typeName {n s symbol} : table.get? s = some symbol → symbol.kind = .namedType →
    ¬(s = integerType ↔ symbol.type = integerType) → JudgedApart table (.name n s)
  /-- an operator that wants integers stores integer even if its operands do not fit -/
  | misfits {n op left right leftType rightType} : op.capitals?.isSome →
    (left.check table).result = some leftType → (right.check table).result = some rightType →
    ¬(leftType = integerType ∧ (rightType = integerType ∨ rightType = realType)) →
    JudgedApart table (.binary n op left right)

/-- A relation neither side of which is found to be an integer. -/
def WithoutInteger (table : SymbolTable) : Expr → Prop
  | .relation _ _ left right =>
    (left.check table).result ≠ some integerType ∧ (right.check table).result ≠ some integerType
  | _ => False

/-- The operators that want integers store integer in any case. -/
theorem integerOperation_types {pos : Position} {op : BinaryOp} {left right : Expr}
    {leftType rightType : SymbolIndex} {o : Operation}
    (operation : integerOperation pos op left right leftType rightType = some o) :
    o.stored = integerType ∧
      (o.found = integerType ↔ leftType = integerType ∧ (rightType = integerType ∨ rightType = realType)) := by
  unfold integerOperation at operation
  split_ifs at operation with both mixed
  · cases operation
    simp [both]
  · cases operation
    simp [mixed]
  · obtain ⟨name, -, rfl⟩ := Option.map_eq_some_iff.mp operation
    refine ⟨rfl, iff_of_false Nat.zero_ne_one ?_⟩
    rintro ⟨left, right | right⟩
    · exact both ⟨left, right⟩
    · exact mixed ⟨left, right⟩

theorem binaryOperation_types_of_isSome {pos : Position} {op : BinaryOp} {left right : Expr}
    {leftType rightType : SymbolIndex} {o : Operation}
    (operation : binaryOperation pos op left right leftType rightType = some o) (wants : op.capitals?.isSome) :
    o.stored = integerType ∧
      (o.found = integerType ↔ leftType = integerType ∧ (rightType = integerType ∨ rightType = realType)) := by
  cases op with
  | add | sub | mul | divide => contradiction
  | or | and | div | mod => exact integerOperation_types operation

/-- The other operators store what they find. -/
theorem binaryOperation_types_of_eq_none {pos : Position} {op : BinaryOp} {left right : Expr}
    {leftType rightType : SymbolIndex} {o : Operation}
    (operation : binaryOperation pos op left right leftType rightType = some o) (calm : op.capitals? = none) :
    o.stored = o.found := by
  cases op with
  | or | and | div | mod => contradiction
  | add | sub | mul =>
    obtain rfl := Option.some.inj operation
    unfold arithmetic
    split_ifs <;> rfl
  | divide =>
    obtain rfl := Option.some.inj operation
    rfl

theorem comparison_types (left right : Expr) (leftType rightType : SymbolIndex) :
    (comparison left right leftType rightType).stored = integerType ∧
      ((comparison left right leftType rightType).found = integerType ↔
        leftType = integerType ∨ rightType = integerType) := by
  unfold comparison
  split_ifs <;> simp_all

/-- Checking a binary expression checks both operands and leaves the types of the operation. -/
theorem binary_inv {n : Note} {op : BinaryOp} {left right : Expr} {found : SymbolIndex}
    (result : ((Expr.binary n op left right).check table).result = some found) :
    ∃ leftType rightType o, (left.check table).result = some leftType ∧
      (right.check table).result = some rightType ∧
      binaryOperation n.pos op (left.check table).tree (right.check table).tree leftType rightType = some o ∧
      ((Expr.binary n op left right).check table).tree.type = o.stored ∧ found = o.found := by
  rw [Expr.check] at result ⊢
  obtain ⟨leftType, left_result, result, tree⟩ := andThen_eq_some result
  obtain ⟨rightType, right_result, result, tree'⟩ := andThen_eq_some result
  cases operation : binaryOperation n.pos op (left.check table).tree (right.check table).tree
      leftType rightType with
  | none => simp [operation, stopped] at result
  | some o =>
    simp only [operation] at result
    refine ⟨leftType, rightType, o, left_result, right_result, operation, ?_, (Option.some.inj result).symm⟩
    rw [tree, tree', operation]
    rfl

theorem relation_inv {n : Note} {op : RelationOp} {left right : Expr} {found : SymbolIndex}
    (result : ((Expr.relation n op left right).check table).result = some found) :
    ∃ leftType rightType, (left.check table).result = some leftType ∧
      (right.check table).result = some rightType ∧
      ((Expr.relation n op left right).check table).tree.type = integerType ∧
      (found = integerType ↔ leftType = integerType ∨ rightType = integerType) := by
  rw [Expr.check] at result ⊢
  obtain ⟨leftType, left_result, result, tree⟩ := andThen_eq_some result
  obtain ⟨rightType, right_result, result, tree'⟩ := andThen_eq_some result
  have types := comparison_types (left.check table).tree (right.check table).tree leftType rightType
  refine ⟨leftType, rightType, left_result, right_result, ?_, ?_⟩
  · rw [tree, tree']
    exact types.1
  · rw [← Option.some.inj result]
    exact types.2

/-- Outside of the exceptions both types of an expression are integer or none is. -/
theorem found_iff_stored {e : Expr} {found : SymbolIndex} (result : (e.check table).result = some found)
    (together : ¬JudgedApart table e) (sided : ¬WithoutInteger table e) :
    found = integerType ↔ (e.check table).tree.type = integerType := by
  cases e with
  | name n s =>
    cases known : table.get? s with
    | none => simp [Expr.check, known, stopped] at result
    | some symbol =>
      simp only [Expr.check, known, done, Option.some.injEq] at result ⊢
      subst result
      by_cases namedType : symbol.kind = .namedType
      · rw [if_pos namedType]
        by_contra differ
        exact together (.typeName known namedType differ)
      · rw [if_neg namedType]
        rfl
  | integer n v | real n v =>
    simp only [Expr.check, done, Option.some.injEq] at result ⊢
    rw [← result]
    rfl
  | element n array index =>
    cases known : table.get? array.value with
    | none => simp [Expr.check, known, stopped] at result
    | some symbol =>
      simp only [Expr.check, known] at result ⊢
      obtain ⟨_, -, result, tree⟩ := andThen_eq_some result
      rw [tree, ← Option.some.inj result]
      rfl
  | cast n inner | negate n inner =>
    rw [Expr.check] at result ⊢
    obtain ⟨_, -, result, tree⟩ := andThen_eq_some result
    rw [tree, ← Option.some.inj result]
    rfl
  | not n inner =>
    rw [Expr.check] at result ⊢
    obtain ⟨_, -, result, tree⟩ := andThen_eq_some result
    rw [tree]
    split_ifs at result ⊢ <;> rw [← Option.some.inj result] <;> rfl
  | call n callee args =>
    rw [Expr.check] at result ⊢
    obtain ⟨_, -, result, tree⟩ := andThen_eq_some result
    obtain ⟨_, -, result, tree'⟩ := andThen_eq_some result
    rw [tree, tree', ← Option.some.inj result]
    rfl
  | binary n op left right =>
    obtain ⟨leftType, rightType, o, left_result, right_result, operation, stored, rfl⟩ := binary_inv result
    rw [stored]
    cases capitals : op.capitals? with
    | none => rw [binaryOperation_types_of_eq_none operation capitals]
    | some name =>
      have wants : op.capitals?.isSome := by simp [capitals]
      have types := binaryOperation_types_of_isSome operation wants
      have fits : leftType = integerType ∧ (rightType = integerType ∨ rightType = realType) := by
        by_contra misfit
        exact together (.misfits wants left_result right_result misfit)
      exact iff_of_true (types.2.mpr fits) types.1
  | relation n op left right =>
    obtain ⟨leftType, rightType, left_result, right_result, stored, found_iff⟩ := relation_inv result
    have side : leftType = integerType ∨ rightType = integerType := by
      by_contra neither
      rw [not_or] at neither
      exact sided ⟨by simpa [left_result] using neither.1, by simpa [right_result] using neither.2⟩
    exact iff_of_true (found_iff.mpr side) stored

theorem JudgedApart.found_iff_not_stored {e : Expr} {found : SymbolIndex} (apart : JudgedApart table e)
    (result : (e.check table).result = some found) :
    found = integerType ↔ (e.check table).tree.type ≠ integerType := by
  cases apart with
  | @typeName n s symbol known namedType differ =>
    simp only [Expr.check, known, namedType, if_true, done, Option.some.injEq] at result ⊢
    subst result
    show s = integerType ↔ symbol.type ≠ integerType
    by_cases integer : s = integerType
    · exact iff_of_true integer fun same => differ (iff_of_true integer same)
    · exact iff_of_false integer fun other => differ (iff_of_false integer other)
  | misfits wants left_result right_result misfit =>
    obtain ⟨_, _, o, left_result', right_result', operation, stored, rfl⟩ := binary_inv result
    obtain rfl := Option.some.inj (left_result.symm.trans left_result')
    obtain rfl := Option.some.inj (right_result.symm.trans right_result')
    have types := binaryOperation_types_of_isSome operation wants
    rw [stored]
    exact iff_of_false (fun integer => misfit (types.2.mp integer)) fun other => other types.1

/-! ## Places -/

/-- A place that demands an integer, with what is written beside the demanded expression. -/
inductive IntegerPlace where
  | whileCondition (pos : Position) (body : Body)
  | ifCondition (pos : Position) (body : Body) (elsifs : List Elsif) (otherwise : Option Body)
  | elsifCondition (pos : Position) (body : Body)
  | notOperand (n : Note)
  | index (n : Note) (array : Reference)
  /-- the only argument of a call in an expression -/
  | argument (n : Note) (callee : Reference)
  /-- the only argument of a call that is a statement -/
  | statementArgument (pos : Position) (callee : Reference)

namespace IntegerPlace

/-- What happens when the place is checked with an expression in it. -/
def events (table : SymbolTable) (e : Expr) : IntegerPlace → List Event
  | .whileCondition pos body => ((Stmt.loop pos e body).check table).events
  | .ifCondition pos body elsifs otherwise => ((Stmt.branch pos e body elsifs otherwise).check table).events
  | .elsifCondition pos body => ((Elsif.clause pos e body).check table).events
  | .notOperand n => ((Expr.not n e).check table).events
  | .index n array => ((Expr.element n array e).check table).events
  | .argument n callee => ((Expr.call n callee [e]).check table).events
  | .statementArgument pos callee => ((Stmt.call pos callee [e]).check table).events

/-- What happens when that which is beside the expression is checked. -/
def besides (table : SymbolTable) : IntegerPlace → List Event
  | .whileCondition _ body | .elsifCondition _ body => (checkBody table body).events
  | .ifCondition _ body elsifs none => (checkBody table body).events ++ (checkElsifs table elsifs).events
  | .ifCondition _ body elsifs (some otherwise) =>
    (checkBody table body).events ++ (checkElsifs table elsifs).events ++ (checkBody table otherwise).events
  | .notOperand _ | .index .. | .argument .. | .statementArgument .. => []

/-- What is beside the expression can be checked, and a called routine has a single parameter, which
is an integer. -/
def WellFormed (table : SymbolTable) : IntegerPlace → Prop
  | .whileCondition _ body | .elsifCondition _ body => (checkBody table body).result.isSome
  | .ifCondition _ body elsifs _ =>
    (checkBody table body).result.isSome ∧ (checkElsifs table elsifs).result.isSome
  | .notOperand _ => True
  | .index _ array => array.value < table.size
  | .argument _ callee | .statementArgument _ callee =>
    ∃ routine param formal, table.get? callee.value = some routine ∧ routine.params = [param] ∧
      table.get? param = some formal ∧ formal.type = integerType

/-- Whether an error says that the place has no integer. -/
def demands : IntegerPlace → TypeError → Bool
  | .whileCondition .., .whileConditionNotInteger => true
  | .ifCondition .., .ifConditionNotInteger => true
  | .elsifCondition .., .elsifConditionNotInteger => true
  | .notOperand .., .negatedNotInteger => true
  | .index .., .indexNotInteger .. => true
  | .argument .., .argumentType | .statementArgument .., .argumentType => true
  | _, _ => false

/-- Whether the type that is stored decides, and not the one that is found. -/
def goesByStored : IntegerPlace → Bool
  | .whileCondition .. | .ifCondition .. | .index .. => false
  | .elsifCondition .. | .notOperand .. | .argument .. | .statementArgument .. => true

/-- The place itself reports that it has no integer, besides what its parts report. -/
def Reports (table : SymbolTable) (e : Expr) (place : IntegerPlace) : Prop :=
  ∃ pos error, place.demands error ∧
    .error pos error ∈ (place.events table e).diff ((e.check table).events ++ place.besides table)

end IntegerPlace

/-! ## Reports of places -/

theorem diff_perm_of_perm_append {xs ys zs : List Event} (split : xs.Perm (ys ++ zs)) : (xs.diff ys).Perm zs := by
  have moved : xs.Perm (zs ++ ys) := split.trans List.perm_append_comm
  rw [← Multiset.coe_eq_coe, ← Multiset.coe_sub, Multiset.coe_eq_coe.mpr moved, ← Multiset.coe_add,
    Multiset.add_sub_cancel_right]

/-- What a place reports itself, given the type that decides. -/
def IntegerPlace.Adds (table : SymbolTable) (e : Expr) (place : IntegerPlace) (type : SymbolIndex) : Prop :=
  ∃ pos error log, place.demands error ∧
    (place.events table e).Perm ((e.check table).events ++ place.besides table ++
      if type = integerType then [] else .error pos error :: log)

theorem IntegerPlace.Adds.reports_iff {e : Expr} {place : IntegerPlace} {type : SymbolIndex}
    (adds : place.Adds table e type) : place.Reports table e ↔ type ≠ integerType := by
  obtain ⟨pos, error, log, demanded, split⟩ := adds
  have own := diff_perm_of_perm_append split
  constructor
  · rintro ⟨_, _, -, member⟩ integer
    rw [if_pos integer] at own
    exact List.not_mem_nil (own.mem_iff.mp member)
  · intro other
    rw [if_neg other] at own
    exact ⟨pos, error, demanded, own.mem_iff.mpr List.mem_cons_self⟩

section Places

variable {e : Expr} {found : SymbolIndex} (result : (e.check table).result = some found)
include result

theorem adds_whileCondition (pos : Position) (body : Body) :
    (IntegerPlace.whileCondition pos body).Adds table e found := by
  refine ⟨some (e.check table).tree.pos, .whileConditionNotInteger, [], rfl, ?_⟩
  simp only [IntegerPlace.events, IntegerPlace.besides, Stmt.check, events_andThen result, events_after,
    events_andThen_done, unlessInteger]
  rw [List.append_assoc]
  exact List.perm_append_comm.append_left _

theorem adds_ifCondition (pos : Position) {body : Body} {elsifs : List Elsif}
    (body_result : (checkBody table body).result.isSome) (elsifs_result : (checkElsifs table elsifs).result.isSome)
    (otherwise : Option Body) : (IntegerPlace.ifCondition pos body elsifs otherwise).Adds table e found := by
  obtain ⟨_, body_result⟩ := Option.isSome_iff_exists.mp body_result
  obtain ⟨_, elsifs_result⟩ := Option.isSome_iff_exists.mp elsifs_result
  refine ⟨some (e.check table).tree.pos, .ifConditionNotInteger, [], rfl, List.perm_iff_count.mpr fun event => ?_⟩
  cases otherwise with
  | none =>
    simp only [IntegerPlace.events, IntegerPlace.besides, Stmt.check, events_andThen result,
      events_andThen body_result, events_after, events_andThen_done, unlessInteger, List.count_append]
    omega
  | some otherwise =>
    simp only [IntegerPlace.events, IntegerPlace.besides, Stmt.check, events_andThen result,
      events_andThen body_result, events_andThen elsifs_result, events_after, events_andThen_done, unlessInteger,
      List.count_append]
    omega

theorem adds_index (n : Note) {array : Reference} (inside : array.value < table.size) :
    (IntegerPlace.index n array).Adds table e found := by
  obtain ⟨symbol, -, known⟩ := exists_symbol inside
  refine ⟨some n.pos, .indexNotInteger symbol.name (table.typeName found), [], rfl, ?_⟩
  simp only [IntegerPlace.events, IntegerPlace.besides, Expr.check, known, events_andThen result, done,
    List.append_nil]
  rfl

theorem adds_elsifCondition (pos : Position) {body : Body} (body_result : (checkBody table body).result.isSome) :
    (IntegerPlace.elsifCondition pos body).Adds table e (e.check table).tree.type := by
  obtain ⟨_, body_result⟩ := Option.isSome_iff_exists.mp body_result
  refine ⟨some (e.check table).tree.pos, .elsifConditionNotInteger, [], rfl, ?_⟩
  simp only [IntegerPlace.events, IntegerPlace.besides, Elsif.check, events_andThen result,
    events_andThen body_result, done, unlessInteger]
  rw [← List.append_assoc]
  exact List.perm_append_comm.append_right _

theorem adds_notOperand (n : Note) : (IntegerPlace.notOperand n).Adds table e (e.check table).tree.type := by
  refine ⟨some (e.check table).tree.pos, .negatedNotInteger, [], rfl, ?_⟩
  simp only [IntegerPlace.events, IntegerPlace.besides, Expr.check, events_andThen result, List.append_nil]
  split_ifs <;> rfl

theorem checkArgs_single :
    checkArgs table [e] = done [(e.check table).tree] (e.check table).events () := by
  simp [checkArgs, andThen, result, done]

end Places

/-- A single argument fits an integer parameter if integer is stored for it. -/
theorem events_checkCallee_single {callee : Reference} {routine formal : Symbol} {param : SymbolIndex}
    (known : table.get? callee.value = some routine) (single : routine.params = [param])
    (known_param : table.get? param = some formal) (integer : formal.type = integerType) (arg : Expr) :
    (checkCallee table callee [arg]).events =
      if arg.type = integerType then []
      else [.error (some callee.pos) .argumentType, .mismatched routine.name callee.pos] := by
  have widens : ¬integerType = realType := Nat.ne_of_lt (Nat.lt_succ_self _)
  simp only [checkCallee, known, single, matchArguments, List.reverse_singleton, matchReversed, known_param, integer]
  by_cases fits : arg.type = integerType
  · simp [fits, done, andThen]
  · simp [fits, Ne.symm fits, widens, done, andThen]

section Arguments

variable {e : Expr} {found : SymbolIndex} (result : (e.check table).result = some found)
  {callee : Reference} {routine formal : Symbol} {param : SymbolIndex}
  (known : table.get? callee.value = some routine) (single : routine.params = [param])
  (known_param : table.get? param = some formal) (integer : formal.type = integerType)
include result known single known_param integer

theorem adds_argument (n : Note) :
    (IntegerPlace.argument n callee).Adds table e (e.check table).tree.type := by
  refine ⟨some callee.pos, .argumentType, [.mismatched routine.name callee.pos], rfl, ?_⟩
  simp only [IntegerPlace.events, IntegerPlace.besides, Expr.check, checkArgs_single result, done_andThen,
    events_after, events_andThen_done, events_checkCallee_single known single known_param integer, List.append_nil]
  rfl

theorem adds_statementArgument (pos : Position) :
    (IntegerPlace.statementArgument pos callee).Adds table e (e.check table).tree.type := by
  refine ⟨some callee.pos, .argumentType, [.mismatched routine.name callee.pos], rfl, ?_⟩
  simp only [IntegerPlace.events, IntegerPlace.besides, Stmt.check, checkCall, checkArgs_single result, done_andThen,
    events_after, events_andThen_done, events_checkCallee_single known single known_param integer, List.append_nil]
  rfl

end Arguments

/-- A place reports if the type that it goes by is not integer. -/
theorem IntegerPlace.reports_iff {e : Expr} {found : SymbolIndex} {place : IntegerPlace}
    (result : (e.check table).result = some found) (wellFormed : place.WellFormed table) :
    place.Reports table e ↔
      (if place.goesByStored then (e.check table).tree.type else found) ≠ integerType := by
  cases place with
  | whileCondition pos body => exact (adds_whileCondition result pos body).reports_iff
  | ifCondition pos body elsifs otherwise =>
    exact (adds_ifCondition result pos wellFormed.1 wellFormed.2 otherwise).reports_iff
  | elsifCondition pos body => exact (adds_elsifCondition result pos wellFormed).reports_iff
  | notOperand n => exact (adds_notOperand result n).reports_iff
  | index n array => exact (adds_index result n wellFormed).reports_iff
  | argument n callee =>
    obtain ⟨_, _, _, known, single, known_param, integer⟩ := wellFormed
    exact (adds_argument result known single known_param integer n).reports_iff
  | statementArgument pos callee =>
    obtain ⟨_, _, _, known, single, known_param, integer⟩ := wellFormed
    exact (adds_statementArgument result known single known_param integer pos).reports_iff

/-! ## Agreement -/

/-- Places that go by the same type of an expression agree about it. All places agree about it
unless its types are judged apart or it is a relation without an integer side, and if they are
judged apart, those that go by one type contradict those that go by the other. -/
theorem integer_places_agree (valid : table.validate = .ok ()) (e : Expr) (inside : table.Covers e.symbols)
    (first second : IntegerPlace) (first_formed : first.WellFormed table)
    (second_formed : second.WellFormed table) :
    (first.goesByStored = second.goesByStored → (first.Reports table e ↔ second.Reports table e)) ∧
      (¬JudgedApart table e → ¬WithoutInteger table e → (first.Reports table e ↔ second.Reports table e)) ∧
      (JudgedApart table e → first.goesByStored ≠ second.goesByStored →
        (first.Reports table e ↔ ¬second.Reports table e)) := by
  obtain ⟨found, result, -⟩ := yields_check (closed_of_validate valid) e inside
  rw [first.reports_iff result first_formed, second.reports_iff result second_formed]
  refine ⟨fun same => by rw [same], fun together sided => ?_, fun apart differ => ?_⟩
  · have types := not_congr (found_iff_stored result together sided)
    cases first.goesByStored <;> cases second.goesByStored <;> simp [types]
  · have types := apart.found_iff_not_stored result
    cases first_type : first.goesByStored <;> cases second_type : second.goesByStored
    case false.true => simpa using not_congr types
    case true.false => simpa using types.symm
    all_goals simp [first_type, second_type] at differ

/-- A condition that is the name of the integer type is accepted by `while` but not by `elsif`. -/
theorem integer_places_agree_type_name :
    let table := SymbolTable.new "main"
    let e : Expr := .name ⟨⟨1, 7⟩, voidType⟩ integerType
    let first : IntegerPlace := .whileCondition ⟨1, 1⟩ []
    let second : IntegerPlace := .elsifCondition ⟨2, 1⟩ []
    table.validate = .ok () ∧ table.Covers e.symbols ∧ first.WellFormed table ∧ second.WellFormed table ∧
      JudgedApart table e ∧ (first.Reports table e ↔ ¬second.Reports table e) := by
  intro table e first second
  have valid : table.validate = .ok () := rfl
  have inside : table.Covers e.symbols := fun i member => by
    obtain rfl := List.mem_singleton.mp member
    decide
  have known : table.get? integerType = some (.plain "integer" .namedType voidType) := rfl
  have apart : JudgedApart table e := .typeName known rfl (by decide)
  exact ⟨valid, inside, rfl, rfl, apart,
    (integer_places_agree valid e inside first second rfl rfl).2.2 apart (by decide)⟩

/-- Not all places agree about all expressions. -/
theorem integer_places_disagree :
    ¬∀ (table : SymbolTable) (e : Expr), table.validate = .ok () → table.Covers e.symbols →
      ∀ first second : IntegerPlace, first.WellFormed table → second.WellFormed table →
        (first.Reports table e ↔ second.Reports table e) := by
  intro agree
  let table := SymbolTable.new "main"
  let e : Expr := .name ⟨⟨1, 7⟩, voidType⟩ integerType
  have inside : table.Covers e.symbols := fun i member => by
    obtain rfl := List.mem_singleton.mp member
    decide
  have result : (e.check table).result = some integerType := rfl
  let first : IntegerPlace := .whileCondition ⟨1, 1⟩ []
  let second : IntegerPlace := .elsifCondition ⟨2, 1⟩ []
  have first_formed : first.WellFormed table := rfl
  have second_formed : second.WellFormed table := rfl
  have both := agree table e rfl inside first second first_formed second_formed
  rw [first.reports_iff result first_formed, second.reports_iff result second_formed] at both
  -- `integer` is found, and the type that is stored is the one of its symbol, which is none
  have stored : (e.check table).tree.type ≠ integerType := by decide
  exact both.mpr stored rfl

end MiniPascal
