import MiniPascal.Proofs.Folding.Integers
import MiniPascal.Proofs.Folding.Laws

/-!
# Slots that are folded

Not every place for an expression is folded. The statements of a body hold expressions, and what a pass
does to a body it does to these one by one. From there it reaches arguments, operands of unary operators
and sides of relations, which are optimized, and operands of operations and indices, which are folded. A
body behind a pass is one that the pass leaves as it is, so in a folded slot there is no operation that
folding would replace; and checking stores types so that the literals of an operation always fit it.
-/

namespace MiniPascal

open Checked

/-! ## What a body holds -/

/-- How an expression is held: as an argument of a call, or as a value of its own. -/
inductive Hold where
  | argument
  | value
deriving DecidableEq

mutual

/-- The expressions that a statement and the statements in it hold, but for the targets of assignments. -/
def Stmt.slots : Stmt → List (Hold × Expr)
  | .assign _ _ value => [(.value, value)]
  | .branch _ condition body elsifs none => (.value, condition) :: bodySlots body ++ elsifSlots elsifs
  | .branch _ condition body elsifs (some otherwise) =>
    (.value, condition) :: bodySlots body ++ elsifSlots elsifs ++ bodySlots otherwise
  | .loop _ condition body => (.value, condition) :: bodySlots body
  | .ret _ none => []
  | .ret _ (some value) => [(.value, value)]
  | .call _ _ args => args.map fun arg => (.argument, arg)

def elsifSlots : List Elsif → List (Hold × Expr)
  | [] => []
  | .clause _ condition body :: es => (.value, condition) :: bodySlots body ++ elsifSlots es

def bodySlots : List Stmt → List (Hold × Expr)
  | [] => []
  | s :: ss => s.slots ++ bodySlots ss

end

/-- The expression stands in an optimized slot of the body, held in the given way. -/
inductive InOptimizedSlot (b : Body) : Hold → Expr → Prop
  | held {hold e} : (hold, e) ∈ bodySlots b → InOptimizedSlot b hold e
  | argument {hold n callee args e} : InOptimizedSlot b hold (.call n callee args) → e ∈ args →
    InOptimizedSlot b .argument e
  | negated {hold n e} : InOptimizedSlot b hold (.negate n e) → InOptimizedSlot b .value e
  | inverted {hold n e} : InOptimizedSlot b hold (.not n e) → InOptimizedSlot b .value e
  | leftSide {hold n op left right} : InOptimizedSlot b hold (.relation n op left right) →
    InOptimizedSlot b .value left
  | rightSide {hold n op left right} : InOptimizedSlot b hold (.relation n op left right) →
    InOptimizedSlot b .value right

/-- The expression stands in a folded slot of the body. -/
inductive InFoldedSlot (b : Body) : Expr → Prop
  | optimized {e} : InOptimizedSlot b .value e → InFoldedSlot b e
  | leftOperand {n op left right} : InFoldedSlot b (.binary n op left right) → InFoldedSlot b left
  | rightOperand {n op left right} : InFoldedSlot b (.binary n op left right) → InFoldedSlot b right
  | optimizedIndex {hold n array index} : InOptimizedSlot b hold (.element n array index) → InFoldedSlot b index
  | foldedIndex {n array index} : InFoldedSlot b (.element n array index) → InFoldedSlot b index

/-- What a pass does to an expression that is held. -/
def Hold.process : Hold → Expr → Expr
  | .argument, e => e.optimize.tree
  | .value, e => e.optimizeAndFold.tree

theorem optimizeArgs_eq_map (es : List Expr) : (optimizeArgs es).tree = es.map fun e => e.optimize.tree := by
  induction es with
  | nil => rfl
  | cons e es ih => rw [optimizeArgs, Folded.tree_map₂, ih, List.map_cons]

mutual

theorem slots_optimizeStmt (s : Stmt) :
    s.optimize.tree.slots = s.slots.map fun slot => (slot.1, slot.1.process slot.2) := by
  match s with
  | .assign p target value => rfl
  | .branch p condition body elsifs none =>
    simp [Stmt.optimize, Stmt.slots, Hold.process, slots_optimizeBody body, slots_optimizeElsifs elsifs]
  | .branch p condition body elsifs (some otherwise) =>
    simp [Stmt.optimize, Stmt.slots, Hold.process, slots_optimizeBody body, slots_optimizeElsifs elsifs,
      slots_optimizeBody otherwise]
  | .loop p condition body => simp [Stmt.optimize, Stmt.slots, Hold.process, slots_optimizeBody body]
  | .ret p none => rfl
  | .ret p (some value) => rfl
  | .call p callee args =>
    simp [Stmt.optimize, Stmt.slots, Hold.process, optimizeArgs_eq_map, Function.comp_def]
termination_by sizeOf s

theorem slots_optimizeElsifs (es : List Elsif) :
    elsifSlots (optimizeElsifs es).tree = (elsifSlots es).map fun slot => (slot.1, slot.1.process slot.2) := by
  match es with
  | [] => rfl
  | .clause p condition body :: es =>
    simp [optimizeElsifs, Elsif.optimize, elsifSlots, Hold.process, slots_optimizeBody body,
      slots_optimizeElsifs es]
termination_by sizeOf es

/-- A pass goes through the expressions that a body holds. -/
theorem slots_optimizeBody (b : Body) :
    bodySlots (optimizeBody b).tree = (bodySlots b).map fun slot => (slot.1, slot.1.process slot.2) := by
  match b with
  | [] => rfl
  | s :: b => simp [optimizeBody, bodySlots, slots_optimizeStmt s, slots_optimizeBody b]
termination_by sizeOf b

end

theorem parts_of_mem_args {e : Expr} {args : List Expr} (member : e ∈ args) : e.parts ⊆ argParts args := by
  induction args with
  | nil => cases member
  | cons first args ih =>
    cases member with
    | head => exact List.subset_append_left ..
    | tail _ later => exact List.subset_append_of_subset_right _ (ih later)

section Members

variable {hold : Hold} {e : Expr}

mutual

theorem parts_of_mem_stmtSlots {s : Stmt} (member : (hold, e) ∈ s.slots) : e.parts ⊆ s.parts := by
  match s with
  | .assign p target value =>
    simp only [Stmt.slots, List.mem_singleton, Prod.mk.injEq] at member
    rw [member.2]
    exact List.subset_append_right ..
  | .branch p condition body elsifs none =>
    simp only [Stmt.slots, List.cons_append, List.mem_cons, List.mem_append, Prod.mk.injEq] at member
    intro part inside
    simp only [Stmt.parts, List.mem_append]
    rcases member with ⟨-, rfl⟩ | inBody | inElsifs
    · exact .inl (.inl inside)
    · exact .inl (.inr (parts_of_mem_bodySlots inBody inside))
    · exact .inr (parts_of_mem_elsifSlots inElsifs inside)
  | .branch p condition body elsifs (some otherwise) =>
    simp only [Stmt.slots, List.cons_append, List.append_assoc, List.mem_cons, List.mem_append,
      Prod.mk.injEq] at member
    intro part inside
    simp only [Stmt.parts, List.mem_append]
    rcases member with ⟨-, rfl⟩ | inBody | inElsifs | inRest
    · exact .inl (.inl (.inl inside))
    · exact .inl (.inl (.inr (parts_of_mem_bodySlots inBody inside)))
    · exact .inl (.inr (parts_of_mem_elsifSlots inElsifs inside))
    · exact .inr (parts_of_mem_bodySlots inRest inside)
  | .loop p condition body =>
    simp only [Stmt.slots, List.mem_cons, Prod.mk.injEq] at member
    intro part inside
    simp only [Stmt.parts, List.mem_append]
    rcases member with ⟨-, rfl⟩ | inBody
    · exact .inl inside
    · exact .inr (parts_of_mem_bodySlots inBody inside)
  | .ret p none => cases member
  | .ret p (some value) =>
    simp only [Stmt.slots, List.mem_singleton, Prod.mk.injEq] at member
    rw [member.2]
    exact List.Subset.refl _
  | .call p callee args =>
    obtain ⟨arg, argument, equal⟩ := List.mem_map.mp member
    cases equal
    exact parts_of_mem_args argument
termination_by sizeOf s

theorem parts_of_mem_elsifSlots {es : List Elsif} (member : (hold, e) ∈ elsifSlots es) :
    e.parts ⊆ elsifParts es := by
  match es with
  | [] => cases member
  | .clause p condition body :: es =>
    simp only [elsifSlots, List.cons_append, List.mem_cons, List.mem_append, Prod.mk.injEq] at member
    intro part inside
    simp only [elsifParts, Elsif.parts, List.mem_append]
    rcases member with ⟨-, rfl⟩ | inBody | later
    · exact .inl (.inl inside)
    · exact .inl (.inr (parts_of_mem_bodySlots inBody inside))
    · exact .inr (parts_of_mem_elsifSlots later inside)
termination_by sizeOf es

theorem parts_of_mem_bodySlots {b : Body} (member : (hold, e) ∈ bodySlots b) : e.parts ⊆ bodyParts b := by
  match b with
  | [] => cases member
  | s :: b =>
    rcases List.mem_append.mp member with first | later
    · exact List.subset_append_of_subset_left _ (parts_of_mem_stmtSlots first)
    · exact List.subset_append_of_subset_right _ (parts_of_mem_bodySlots later)
termination_by sizeOf b

end

end Members

/-! ## Types that fit literals -/

/-- An expression that is a literal or may become one. -/
def Expr.MayFold : Expr → Prop
  | .integer .. | .real .. | .binary .. => True
  | _ => False

/-- An operation has the type of its literals, should both operands be literals of one type. There are
no quotients of integers. -/
def Expr.Ready : Expr → Prop
  | .integer n _ => n.type = integerType
  | .real n _ => n.type = realType
  | .binary n op left right => left.MayFold → right.MayFold →
    (left.type = integerType → right.type = integerType → n.type = integerType ∧ op ≠ .divide) ∧
      (left.type = realType → right.type = realType → n.type = realType)
  | _ => True

section Operators

variable {pos : Position} {op : BinaryOp} {left right : Expr} {leftType rightType : SymbolIndex} {o : Operation}
  (l : left.MayFold → leftType = left.type) (r : right.MayFold → rightType = right.type)
include l r

theorem ready_arithmetic (sum : op ≠ .divide) :
    let o := arithmetic left right leftType rightType
    (Expr.binary ⟨pos, o.stored⟩ op o.left o.right).Ready ∧ o.found = o.stored := by
  unfold arithmetic
  split_ifs with integers reals left_integer right_integer
  · refine ⟨fun left_folds _ => ⟨fun _ _ => ⟨rfl, sum⟩, fun real => ?_⟩, rfl⟩
    exact absurd (integers.1.symm.trans ((l left_folds).trans real)) (by decide)
  · refine ⟨fun left_folds _ => ⟨fun integer => ?_, fun _ _ => rfl⟩, rfl⟩
    exact absurd (reals.1.symm.trans ((l left_folds).trans integer)) (by decide)
  -- a cast is no literal
  · exact ⟨fun left_folds => left_folds.elim, rfl⟩
  · exact ⟨fun _ right_folds => right_folds.elim, rfl⟩
  · refine ⟨fun left_folds right_folds => ⟨fun left_type _ => ?_, fun left_type right_type => ?_⟩, rfl⟩
    · exact absurd ((l left_folds).trans left_type) left_integer
    · exact absurd ⟨(l left_folds).trans left_type, (r right_folds).trans right_type⟩ reals

omit r in
theorem ready_integerOperation (integral : op ≠ .divide)
    (operation : integerOperation pos op left right leftType rightType = some o)
    (silent : o.events.filterMap Event.message? = []) :
    (Expr.binary ⟨pos, o.stored⟩ op o.left o.right).Ready ∧ o.found = o.stored := by
  unfold integerOperation at operation
  split_ifs at operation with integers mixed
  · cases operation
    refine ⟨fun left_folds _ => ⟨fun _ _ => ⟨rfl, integral⟩, fun real => ?_⟩, rfl⟩
    exact absurd (integers.1.symm.trans ((l left_folds).trans real)) (by decide)
  · cases operation
    exact ⟨fun left_folds => left_folds.elim, rfl⟩
  -- all else was reported
  · obtain ⟨name, -, rfl⟩ := Option.map_eq_some_iff.mp operation
    cases silent

omit l r in
theorem ready_division (left right : Expr) :
    let o := division left right
    (Expr.binary ⟨pos, o.stored⟩ .divide o.left o.right).Ready ∧ o.found = o.stored := by
  refine ⟨fun left_folds _ => ⟨fun integer => ?_, fun _ _ => rfl⟩, rfl⟩
  -- integers are converted
  simp only [division, wideningInteger] at left_folds integer
  split_ifs at left_folds integer with converted
  · exact left_folds.elim
  · exact absurd integer converted

theorem ready_binaryOperation (operation : binaryOperation pos op left right leftType rightType = some o)
    (silent : o.events.filterMap Event.message? = []) :
    (Expr.binary ⟨pos, o.stored⟩ op o.left o.right).Ready ∧ o.found = o.stored := by
  cases op with
  | add | sub | mul =>
    cases operation
    exact ready_arithmetic l r (by decide)
  | divide =>
    cases operation
    exact ready_division left right
  | div | mod | or | and => exact ready_integerOperation l (by decide) operation silent

end Operators

/-- What was found for an expression that may fold is what is stored in it. -/
theorem checkLaw_ready {table : SymbolTable} :
    CheckLaw table (fun _ => True) Expr.Ready fun e found => e.MayFold → found = e.type where
  name _ _ _ _ _ := ⟨trivial, False.elim⟩
  element _ _ _ _ _ _ _ := ⟨trivial, False.elim⟩
  integer _ _ _ := ⟨rfl, fun _ => rfl⟩
  real _ _ _ := ⟨rfl, fun _ => rfl⟩
  cast _ _ _ _ := ⟨trivial, False.elim⟩
  widen _ _ := trivial
  negate _ _ _ _ _ _ := ⟨trivial, False.elim⟩
  not _ _ _ _ _ := ⟨trivial, False.elim⟩
  call _ _ _ _ _ _ _ := ⟨trivial, False.elim⟩
  binary _ _ _ _ _ _ _ _ _ _ l r operation silent :=
    have ⟨ready, found⟩ := ready_binaryOperation l r operation silent
    ⟨ready, fun _ => found⟩
  relation _ _ _ _ _ _ _ _ _ _ _ _ _ := ⟨trivial, False.elim⟩

/-! ## Folding keeps the types -/

theorem Expr.Folds.mayFold {e e' : Expr} (folds : e.Folds e') (may : e'.MayFold) : e.MayFold := by
  cases folds with
  | refl => exact may
  | integers | reals | binary => trivial
  | element | negate | not | call | relation => exact may.elim

theorem foldLaw_ready : FoldLaw Expr.Ready where
  element _ _ _ _ _ := trivial
  negate _ _ _ _ := trivial
  not _ _ _ _ := trivial
  call _ _ _ _ _ := trivial
  binary n op left left' right right' l r ready left_folds right_folds := by
    rw [l.type_eq, r.type_eq]
    exact ready (l.mayFold left_folds) (r.mayFold right_folds)
  relation _ _ _ _ _ _ _ := trivial
  -- a literal takes the place of an operation of its type
  integers _ _ _ _ _ _ _ integer _ _ := integer
  reals _ _ _ _ _ _ real _ := real

/-! ## Behind a pass -/

/-- An expression that stays the same when it is optimized and then folded stays the same in both. -/
theorem fixed_of_optimizeAndFold {e : Expr} (same : e.optimizeAndFold.tree = e) :
    e.optimize.tree = e ∧ e.fold.tree = e := by
  have optimized : e.optimizeAndFold.tree.optimize.tree = e.optimizeAndFold.tree :=
    optimize_fold (optimize_optimize e)
  rw [same] at optimized
  have folded : e.optimize.tree.fold.tree = e := same
  rw [optimized] at folded
  exact ⟨optimized, folded⟩

/-- An operation that folding leaves as it is has operands that folding leaves as they are. -/
theorem fixed_operation {n : Note} {op : BinaryOp} {left right : Expr}
    (same : (Expr.binary n op left right).fold.tree = .binary n op left right) :
    left.fold.tree = left ∧ right.fold.tree = right ∧
      (foldOperation n op left right).tree = .binary n op left right := by
  have folded : (foldOperation n op left.fold.tree right.fold.tree).tree = .binary n op left right := same
  rcases foldOperation_cases n op left.fold.tree right.fold.tree with kept | ⟨v, literal⟩ | ⟨v, literal⟩
  · rw [kept] at folded
    injection folded with _ _ left_same right_same
    rw [left_same, right_same] at kept
    exact ⟨left_same, right_same, kept⟩
  · rw [literal] at folded
    cases folded
  · rw [literal] at folded
    cases folded

/-- The expression stands as a pass leaves it in such a slot, with types that fit literals. -/
structure Expr.Done (hold : Hold) (e : Expr) : Prop where
  optimized : e.optimize.tree = e
  folded : hold = .value → e.fold.tree = e
  ready : All Expr.Ready e.parts

theorem done_of_optimizeAndFold {hold : Hold} {e : Expr} (same : e.optimizeAndFold.tree = e)
    (ready : All Expr.Ready e.parts) : e.Done hold := by
  obtain ⟨optimized, folded⟩ := fixed_of_optimizeAndFold same
  exact ⟨optimized, fun _ => folded, ready⟩

section Pass

variable {b : Body} (ready : All Expr.Ready (bodyParts b))
include ready

theorem done_of_mem_slots {hold : Hold} {e : Expr} (member : (hold, e) ∈ bodySlots (optimizeBody b).tree) :
    e.Done hold := by
  rw [slots_optimizeBody] at member
  obtain ⟨⟨hold', e'⟩, before, equal⟩ := List.mem_map.mp member
  cases equal
  have ready' : All Expr.Ready e'.parts := fun part inside => ready part (parts_of_mem_bodySlots before inside)
  cases hold' with
  | argument => exact ⟨optimize_optimize e', nofun, foldLaw_ready.folds (folds_optimize e') ready'⟩
  | value =>
    exact done_of_optimizeAndFold (optimizeAndFold_optimizeAndFold e')
      (foldLaw_ready.folds (folds_optimizeAndFold e') ready')

theorem done_of_inOptimizedSlot {hold : Hold} {e : Expr} (slot : InOptimizedSlot (optimizeBody b).tree hold e) :
    e.Done hold := by
  induction slot with
  | held member => exact done_of_mem_slots ready member
  | @argument hold n callee args e _ member done =>
    have same : (optimizeArgs args).tree = args := by
      injection done.optimized
    rw [optimizeArgs_eq_map] at same
    have optimized : e.optimize.tree = e := List.map_inj_left.mp (same.trans (List.map_id args).symm) e member
    refine ⟨optimized, nofun, fun part inside => ?_⟩
    exact (all_cons.mp done.ready).2 part (parts_of_mem_args member inside)
  | negated _ done | inverted _ done =>
    refine done_of_optimizeAndFold ?_ (all_cons.mp done.ready).2
    injection done.optimized
  | leftSide _ done =>
    refine done_of_optimizeAndFold ?_ (all_append.mp (all_cons.mp done.ready).2).1
    injection done.optimized
  | rightSide _ done =>
    refine done_of_optimizeAndFold ?_ (all_append.mp (all_cons.mp done.ready).2).2
    injection done.optimized

theorem fixed_of_inFoldedSlot {e : Expr} (slot : InFoldedSlot (optimizeBody b).tree e) :
    e.fold.tree = e ∧ All Expr.Ready e.parts := by
  induction slot with
  | optimized slot =>
    have done := done_of_inOptimizedSlot ready slot
    exact ⟨done.folded rfl, done.ready⟩
  | leftOperand _ ih => exact ⟨(fixed_operation ih.1).1, (all_append.mp (all_cons.mp ih.2).2).1⟩
  | rightOperand _ ih => exact ⟨(fixed_operation ih.1).2.1, (all_append.mp (all_cons.mp ih.2).2).2⟩
  | optimizedIndex slot =>
    have done := done_of_inOptimizedSlot ready slot
    refine ⟨?_, (all_cons.mp done.ready).2⟩
    injection done.optimized
  | foldedIndex _ ih =>
    refine ⟨?_, (all_cons.mp ih.2).2⟩
    injection ih.1

end Pass

/-! ## Operations that are left -/

/-- Two integers have an exact result below the limit, unless an operand is not or the divisor is zero. -/
theorem foldIntegers_eq_none {op : BinaryOp} {x y : Int} (integral : op ≠ .divide)
    (refused : op.foldIntegers x y = none) :
    ((op = .div ∨ op = .mod) ∧ y = 0) ∨ 2 ^ 53 ≤ |x| ∨ 2 ^ 53 ≤ |y| ∨
      ∃ v, op.onIntegers x y = some v ∧ 2 ^ 53 ≤ |v| := by
  by_cases small : |x| < 2 ^ 53 ∧ |y| < 2 ^ 53
  · rw [foldIntegers_eq, if_pos small] at refused
    cases exact_result : op.onIntegers x y with
    | none =>
      left
      cases op <;> simp_all [BinaryOp.onIntegers]
    | some v =>
      rw [exact_result, Option.bind_some, limited] at refused
      split_ifs at refused with below
      exact .inr (.inr (.inr ⟨v, rfl, not_lt.mp below⟩))
  · by_cases first : |x| < 2 ^ 53
    · exact .inr (.inr (.inl (not_lt.mp fun second => small ⟨first, second⟩)))
    · exact .inr (.inl (not_lt.mp first))

/-- Behind the check and a pass no folded slot of an accepted body has an operation on two reals, and one on
two integers only if it has no exact result below the limit. -/
theorem folded_slots_are_exhausted (table : SymbolTable) (env : SymbolIndex) (b : Body)
    (ends : (b.check table env).result = some ()) (silent : (b.check table env).messages = []) :
    ∀ n op left right, InFoldedSlot (optimizeBody (b.check table env).tree).tree (.binary n op left right) →
      (¬∃ m m' x y, left = .real m x ∧ right = .real m' y) ∧
      ∀ m m' x y, left = .integer m x → right = .integer m' y →
        ((op = .div ∨ op = .mod) ∧ y = 0) ∨ 2 ^ 53 ≤ |x| ∨ 2 ^ 53 ≤ |y| ∨
          ∃ v, op.onIntegers x y = some v ∧ 2 ^ 53 ≤ |v| := by
  intro n op left right slot
  have checked := checkLaw_ready.bodyCheck (fun _ _ => trivial) ends silent
  obtain ⟨same, ready⟩ := fixed_of_inFoldedSlot checked slot
  obtain ⟨own, parts⟩ := all_cons.mp ready
  obtain ⟨left_ready, right_ready⟩ := all_append.mp parts
  obtain ⟨-, -, kept⟩ := fixed_operation same
  constructor
  · rintro ⟨m, m', x, y, rfl, rfl⟩
    have left_real : m.type = realType := left_ready _ List.mem_cons_self
    have right_real : m'.type = realType := right_ready _ List.mem_cons_self
    have real : n.type = realType := (own trivial trivial).2 left_real right_real
    rw [foldOperation, if_pos real] at kept
    cases kept
  · rintro m m' x y rfl rfl
    have left_integer : m.type = integerType := left_ready _ List.mem_cons_self
    have right_integer : m'.type = integerType := right_ready _ List.mem_cons_self
    obtain ⟨integer, integral⟩ := (own trivial trivial).1 left_integer right_integer
    refine foldIntegers_eq_none integral ?_
    cases folded : op.foldIntegers x y with
    | none => rfl
    | some v =>
      rw [foldOperation, if_pos integer, folded] at kept
      cases kept

/-- The sum is folded and the quotient by zero stays. -/
theorem folded_slots_are_exhausted_zero_divisor :
    let main := SymbolTable.new "main"
    let table := { main with symbols := main.symbols ++ [.plain "i" .variable integerType] }
    let note : Note := ⟨⟨1, 1⟩, voidType⟩
    let sum : Expr := .binary note .add (.integer note 1) (.integer note 2)
    let b : Body := [.assign ⟨1, 1⟩ (.name note 4) (.binary note .div sum (.integer note 0))]
    let typed : Note := ⟨⟨1, 1⟩, integerType⟩
    let checked := b.check table table.currentEnvironment
    checked.result = some () ∧ checked.messages = [] ∧
      InFoldedSlot (optimizeBody checked.tree).tree (.binary typed .div (.integer typed 3) (.integer typed 0)) ∧
      ∀ n op left right, InFoldedSlot (optimizeBody checked.tree).tree (.binary n op left right) →
        (¬∃ m m' x y, left = .real m x ∧ right = .real m' y) ∧
        ∀ m m' x y, left = .integer m x → right = .integer m' y →
          ((op = .div ∨ op = .mod) ∧ y = 0) ∨ 2 ^ 53 ≤ |x| ∨ 2 ^ 53 ≤ |y| ∨
            ∃ v, op.onIntegers x y = some v ∧ 2 ^ 53 ≤ |v| := by
  intro main table note sum b typed checked
  have left : InFoldedSlot (optimizeBody checked.tree).tree
      (.binary typed .div (.integer typed 3) (.integer typed 0)) :=
    .optimized (.held List.mem_cons_self)
  exact ⟨rfl, rfl, left, folded_slots_are_exhausted table table.currentEnvironment b rfl rfl⟩

end MiniPascal
