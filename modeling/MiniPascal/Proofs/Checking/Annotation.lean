import MiniPascal.Proofs.Checking.References
import MiniPascal.Proofs.Syntax.Parts

/-!
# What checking adds to a tree

Checking stores other types in a tree and puts casts into it, and does nothing else to it. A cast
comes in around an operand of a binary operation or of a relation, around the value of an
assignment, or around an argument. There are as many of them as conversions are noted.
-/

namespace MiniPascal

open Checked

/-! ## Annotated trees -/

/-- The stored type is integer, or the expression is the name of that type. -/
def Expr.Widenable (e : Expr) : Prop :=
  e.type = integerType ∨ ∃ n, e = .name n integerType

/-- An expression as it was, or with one cast around it. -/
inductive Widens : Expr → Expr → Nat → Prop
  | keep (e) : Widens e e 0
  | cast {e} : e.Widenable → Widens e (.cast ⟨e.pos, realType⟩ e) 1

/-- Arguments of which some got a cast. -/
inductive WidensArgs : List Expr → List Expr → Nat → Prop
  | nil : WidensArgs [] [] 0
  | cons {e e' es es' j k} : Widens e e' j → WidensArgs es es' k → WidensArgs (e :: es) (e' :: es') (j + k)

mutual

/-- The second expression is the first with other types stored in it, and with so many casts more. -/
inductive Expr.Annotates : Expr → Expr → Nat → Prop
  | name (n s t) : Expr.Annotates (.name n s) (.name ⟨n.pos, t⟩ s) 0
  | element (n array t) {index index' k} : Expr.Annotates index index' k →
    Expr.Annotates (.element n array index) (.element ⟨n.pos, t⟩ array index') k
  | integer (n v t) : Expr.Annotates (.integer n v) (.integer ⟨n.pos, t⟩ v) 0
  | real (n v t) : Expr.Annotates (.real n v) (.real ⟨n.pos, t⟩ v) 0
  | cast (n t) {inner inner' k} : Expr.Annotates inner inner' k →
    Expr.Annotates (.cast n inner) (.cast ⟨n.pos, t⟩ inner') k
  | negate (n t) {inner inner' k} : Expr.Annotates inner inner' k →
    Expr.Annotates (.negate n inner) (.negate ⟨n.pos, t⟩ inner') k
  | not (n t) {inner inner' k} : Expr.Annotates inner inner' k →
    Expr.Annotates (.not n inner) (.not ⟨n.pos, t⟩ inner') k
  | call (n callee t) {args args' args'' j k} : ArgsAnnotates args args' j → WidensArgs args' args'' k →
    Expr.Annotates (.call n callee args) (.call ⟨n.pos, t⟩ callee args'') (j + k)
  | binary (n op t) {left left' left'' right right' right'' i j k l} :
    Expr.Annotates left left' i → Expr.Annotates right right' j → Widens left' left'' k → Widens right' right'' l →
    Expr.Annotates (.binary n op left right) (.binary ⟨n.pos, t⟩ op left'' right'') (i + j + (k + l))
  | relation (n op t) {left left' left'' right right' right'' i j k l} :
    Expr.Annotates left left' i → Expr.Annotates right right' j → Widens left' left'' k → Widens right' right'' l →
    Expr.Annotates (.relation n op left right) (.relation ⟨n.pos, t⟩ op left'' right'') (i + j + (k + l))

inductive ArgsAnnotates : List Expr → List Expr → Nat → Prop
  | nil : ArgsAnnotates [] [] 0
  | cons {e e' es es' j k} : Expr.Annotates e e' j → ArgsAnnotates es es' k →
    ArgsAnnotates (e :: es) (e' :: es') (j + k)

end

mutual

/-- The same for statements. Casts come in around assigned values and arguments. -/
inductive Stmt.Annotates : Stmt → Stmt → Nat → Prop
  | assign (p) {target target' value value' value'' i j k} : target.Annotates target' i →
    value.Annotates value' j → Widens value' value'' k →
    Stmt.Annotates (.assign p target value) (.assign p target' value'') (i + j + k)
  | branch (p) {condition condition' body body' elsifs elsifs' i j k} : condition.Annotates condition' i →
    BodyAnnotates body body' j → ElsifsAnnotates elsifs elsifs' k →
    Stmt.Annotates (.branch p condition body elsifs none) (.branch p condition' body' elsifs' none) (i + j + k)
  | branchElse (p) {condition condition' body body' elsifs elsifs' rest rest' i j k l} :
    condition.Annotates condition' i → BodyAnnotates body body' j → ElsifsAnnotates elsifs elsifs' k →
    BodyAnnotates rest rest' l →
    Stmt.Annotates (.branch p condition body elsifs (some rest))
      (.branch p condition' body' elsifs' (some rest')) (i + j + k + l)
  | loop (p) {condition condition' body body' i j} : condition.Annotates condition' i →
    BodyAnnotates body body' j → Stmt.Annotates (.loop p condition body) (.loop p condition' body') (i + j)
  | ret (p) : Stmt.Annotates (.ret p none) (.ret p none) 0
  | retValue (p) {value value' k} : value.Annotates value' k →
    Stmt.Annotates (.ret p (some value)) (.ret p (some value')) k
  | call (p callee) {args args' args'' j k} : ArgsAnnotates args args' j → WidensArgs args' args'' k →
    Stmt.Annotates (.call p callee args) (.call p callee args'') (j + k)

inductive Elsif.Annotates : Elsif → Elsif → Nat → Prop
  | clause (p) {condition condition' body body' i j} : condition.Annotates condition' i →
    BodyAnnotates body body' j → Elsif.Annotates (.clause p condition body) (.clause p condition' body') (i + j)

inductive ElsifsAnnotates : List Elsif → List Elsif → Nat → Prop
  | nil : ElsifsAnnotates [] [] 0
  | cons {e e' es es' j k} : Elsif.Annotates e e' j → ElsifsAnnotates es es' k →
    ElsifsAnnotates (e :: es) (e' :: es') (j + k)

inductive BodyAnnotates : List Stmt → List Stmt → Nat → Prop
  | nil : BodyAnnotates [] [] 0
  | cons {s s' ss ss' j k} : Stmt.Annotates s s' j → BodyAnnotates ss ss' k →
    BodyAnnotates (s :: ss) (s' :: ss') (j + k)

end

/-! ### Trees that were not reached -/

theorem WidensArgs.refl (es : List Expr) : WidensArgs es es 0 := by
  induction es with
  | nil => exact .nil
  | cons e es ih => exact .cons (.keep e) ih

mutual

theorem Expr.Annotates.refl (e : Expr) : e.Annotates e 0 := by
  match e with
  | .name n s => exact .name n s n.type
  | .element n array index => exact .element n array n.type (.refl index)
  | .integer n v => exact .integer n v n.type
  | .real n v => exact .real n v n.type
  | .cast n inner => exact .cast n n.type (.refl inner)
  | .negate n inner => exact .negate n n.type (.refl inner)
  | .not n inner => exact .not n n.type (.refl inner)
  | .call n callee args => exact .call n callee n.type (.refl args) (.refl args)
  | .binary n op left right => exact .binary n op n.type (.refl left) (.refl right) (.keep left) (.keep right)
  | .relation n op left right => exact .relation n op n.type (.refl left) (.refl right) (.keep left) (.keep right)
termination_by sizeOf e

theorem ArgsAnnotates.refl (es : List Expr) : ArgsAnnotates es es 0 := by
  match es with
  | [] => exact .nil
  | e :: es => exact .cons (.refl e) (.refl es)
termination_by sizeOf es

end

mutual

theorem Stmt.Annotates.refl (s : Stmt) : s.Annotates s 0 := by
  match s with
  | .assign p target value => exact .assign p (.refl target) (.refl value) (.keep value)
  | .branch p condition body elsifs none => exact .branch p (.refl condition) (.refl body) (.refl elsifs)
  | .branch p condition body elsifs (some rest) =>
    exact .branchElse p (.refl condition) (.refl body) (.refl elsifs) (.refl rest)
  | .loop p condition body => exact .loop p (.refl condition) (.refl body)
  | .ret p none => exact .ret p
  | .ret p (some value) => exact .retValue p (.refl value)
  | .call p callee args => exact .call p callee (.refl args) (.refl args)
termination_by sizeOf s

theorem Elsif.Annotates.refl (e : Elsif) : e.Annotates e 0 := by
  match e with
  | .clause p condition body => exact .clause p (.refl condition) (.refl body)
termination_by sizeOf e

theorem ElsifsAnnotates.refl (es : List Elsif) : ElsifsAnnotates es es 0 := by
  match es with
  | [] => exact .nil
  | e :: es => exact .cons (.refl e) (.refl es)
termination_by sizeOf es

theorem BodyAnnotates.refl (b : List Stmt) : BodyAnnotates b b 0 := by
  match b with
  | [] => exact .nil
  | s :: b => exact .cons (.refl s) (.refl b)
termination_by sizeOf b

end

theorem WidensArgs.eq_of_zero {es es' : List Expr} (widens : WidensArgs es es' 0) : es' = es := by
  generalize none : 0 = k at widens
  induction widens with
  | nil => rfl
  | cons first _ ih =>
    cases first with
    | keep => rw [ih (by omega)]
    | cast => omega

theorem ArgsAnnotates.length_eq {es es' : List Expr} {k : Nat} (annotates : ArgsAnnotates es es' k) :
    es'.length = es.length := by
  match annotates with
  | .nil => rfl
  | .cons _ others => rw [List.length_cons, List.length_cons, others.length_eq]

/-! ## Counting conversions -/

def Event.isWidening : Event → Bool
  | .widened _ => true
  | _ => false

/-- How many conversions are noted. -/
def widenings (events : List Event) : Nat :=
  events.countP Event.isWidening

@[simp] theorem widenings_nil : widenings [] = 0 := rfl

@[simp] theorem widenings_append (events events' : List Event) :
    widenings (events ++ events') = widenings events + widenings events' :=
  List.countP_append ..

@[simp] theorem widenings_widened (pos : Position) (events : List Event) :
    widenings (.widened pos :: events) = widenings events + 1 :=
  List.countP_cons_of_pos rfl

/-- An error is no conversion. -/
@[simp] theorem widenings_unless (condition : Prop) [Decidable condition] (pos : Option Position) (e : TypeError) :
    widenings (if condition then [] else [.error pos e]) = 0 := by
  split_ifs <;> rfl

namespace Checked

variable {τ υ σ ρ : Type} {c : Checked τ σ} {rest : τ → υ} {next : τ → σ → Checked υ ρ}
  {P : τ → Nat → Prop} {Q : τ → σ → Prop} {P' : υ → Nat → Prop} {Q' : υ → ρ → Prop}

/-- The tree and the number of conversions are as `P` says, even if checking stopped. If it did not, the
tree and the result are as `Q` says. -/
def Leads (c : Checked τ σ) (P : τ → Nat → Prop) (Q : τ → σ → Prop) : Prop :=
  P c.tree (widenings c.events) ∧ ∀ s, c.result = some s → Q c.tree s

theorem leads_done {tree : τ} {events : List Event} {s : σ} (tree_holds : P tree (widenings events))
    (result_holds : Q tree s) : (done tree events s).Leads P Q := by
  constructor
  · exact tree_holds
  · intro s' result
    cases result
    exact result_holds

theorem leads_stopped {tree : τ} (tree_holds : P tree 0) : (stopped tree : Checked τ σ).Leads P Q := by
  constructor
  · exact tree_holds
  · intro s result
    cases result

theorem Leads.after {events : List Event} (leads : c.Leads (fun t k => P t (widenings events + k)) Q) :
    (c.after events).Leads P Q := by
  constructor
  · rw [events_after, widenings_append]
    exact leads.1
  · exact leads.2

theorem Leads.andThen (first : c.Leads P Q) (stops : ∀ t k, P t k → P' (rest t) k)
    (goes : ∀ t s k, P t k → Q t s → (next t s).Leads (fun u l => P' u (k + l)) Q') :
    (c.andThen rest next).Leads P' Q' := by
  cases reached : c.result with
  | none =>
    -- the tree has what was added until then, and there is no result
    rw [Checked.andThen, reached]
    constructor
    · exact stops _ _ first.1
    · intro s result
      cases result
  | some s =>
    have second := goes c.tree s _ first.1 (first.2 s reached)
    rw [Checked.andThen, reached]
    constructor
    · simpa using second.1
    · exact second.2

end Checked

/-! ## Operators -/

section Operators

variable {pos : Position} {op : BinaryOp} {left right : Expr} {leftType rightType : SymbolIndex} {o : Operation}

/-- Both operands of an operation may have got a cast, and each cast is noted. -/
def Operation.Widened (o : Operation) (left right : Expr) : Prop :=
  ∃ k l, Widens left o.left k ∧ Widens right o.right l ∧ widenings o.events = k + l

theorem widens_wideningInteger (e : Expr) :
    ∃ k, Widens e (wideningInteger e).1 k ∧ widenings (wideningInteger e).2 = k := by
  unfold wideningInteger
  split
  next integer => exact ⟨1, .cast (.inl integer), rfl⟩
  next => exact ⟨0, .keep e, rfl⟩

theorem widened_division (left right : Expr) : (division left right).Widened left right := by
  obtain ⟨k, left_widens, left_noted⟩ := widens_wideningInteger left
  obtain ⟨l, right_widens, right_noted⟩ := widens_wideningInteger right
  exact ⟨k, l, left_widens, right_widens, by simp [division, left_noted, right_noted]⟩

theorem widened_arithmetic (l : leftType = integerType → left.Widenable)
    (r : rightType = integerType → right.Widenable) :
    (arithmetic left right leftType rightType).Widened left right := by
  unfold arithmetic
  split_ifs with both reals left_integer right_integer
  · exact ⟨0, 0, .keep left, .keep right, rfl⟩
  · exact ⟨0, 0, .keep left, .keep right, rfl⟩
  · exact ⟨1, 0, .cast (l left_integer), .keep right, rfl⟩
  · exact ⟨0, 1, .keep left, .cast (r right_integer), rfl⟩
  · exact ⟨0, 0, .keep left, .keep right, rfl⟩

theorem widened_integerOperation (l : leftType = integerType → left.Widenable)
    (operation : integerOperation pos op left right leftType rightType = some o) : o.Widened left right := by
  unfold integerOperation at operation
  split_ifs at operation with both mixed
  · cases operation
    exact ⟨0, 0, .keep left, .keep right, rfl⟩
  · cases operation
    exact ⟨1, 0, .cast (l mixed.1), .keep right, rfl⟩
  · obtain ⟨name, -, rfl⟩ := Option.map_eq_some_iff.mp operation
    exact ⟨0, 0, .keep left, .keep right, rfl⟩

theorem widened_binaryOperation (l : leftType = integerType → left.Widenable)
    (r : rightType = integerType → right.Widenable)
    (operation : binaryOperation pos op left right leftType rightType = some o) : o.Widened left right := by
  cases op with
  | add | sub | mul =>
    cases operation
    exact widened_arithmetic l r
  | divide =>
    cases operation
    exact widened_division left right
  | div | mod | or | and => exact widened_integerOperation l operation

theorem widened_comparison (l : leftType = integerType → left.Widenable)
    (r : rightType = integerType → right.Widenable) :
    (comparison left right leftType rightType).Widened left right := by
  unfold comparison
  split_ifs with both left_integer right_integer
  · exact ⟨0, 0, .keep left, .keep right, rfl⟩
  · exact ⟨1, 0, .cast (l left_integer), .keep right, rfl⟩
  · exact ⟨0, 1, .keep left, .cast (r right_integer), rfl⟩
  · exact ⟨0, 0, .keep left, .keep right, rfl⟩

/-- An operation that is found to be an integer is stored as one. -/
theorem stored_binaryOperation (operation : binaryOperation pos op left right leftType rightType = some o)
    (integer : o.found = integerType) : o.stored = integerType := by
  cases op with
  | add | sub | mul =>
    cases operation
    unfold arithmetic at integer ⊢
    split_ifs at integer ⊢ <;> simp_all
  | divide =>
    cases operation
    exact integer
  | div | mod | or | and =>
    unfold binaryOperation integerOperation at operation
    split_ifs at operation
    · cases operation
      rfl
    · cases operation
      rfl
    · obtain ⟨name, -, rfl⟩ := Option.map_eq_some_iff.mp operation
      rfl

theorem stored_comparison (left right : Expr) (leftType rightType : SymbolIndex) :
    (comparison left right leftType rightType).stored = integerType := by
  unfold comparison
  split_ifs <;> rfl

end Operators

/-! ## Arguments -/

variable (table : SymbolTable)

theorem WidensArgs.append {es es' fs fs' : List Expr} {j k : Nat} (first : WidensArgs es es' j)
    (second : WidensArgs fs fs' k) : WidensArgs (es ++ fs) (es' ++ fs') (j + k) := by
  induction first with
  | nil => simpa using second
  | cons widens _ ih => simpa [Nat.add_assoc] using WidensArgs.cons widens ih

theorem WidensArgs.reverse {es es' : List Expr} {k : Nat} (widens : WidensArgs es es' k) :
    WidensArgs es.reverse es'.reverse k := by
  induction widens with
  | nil => exact .nil
  | cons first _ ih => simpa [Nat.add_comm] using ih.append (.cons first .nil)

theorem leads_matchReversed (pos : Position) (params : List SymbolIndex) (args : List Expr) :
    (matchReversed table pos params args).Leads (WidensArgs args) fun _ _ => True := by
  -- by the cases of the matching: what was converted in front of a mismatch stays converted
  fun_induction matchReversed table pos params args with
  | case1 => exact leads_done .nil trivial
  | case2 _ _ => exact leads_done (.refl _) trivial
  | case3 => exact leads_done .nil trivial
  | case4 => exact leads_stopped (.refl _)
  | case5 param params arg args symbol found equal c ih =>
    refine ⟨?_, fun _ _ => trivial⟩
    simpa using WidensArgs.cons (.keep arg) ih.1
  | case6 param params arg args symbol found different widens c ih =>
    refine ⟨?_, fun _ _ => trivial⟩
    rw [widenings_widened, Nat.add_comm]
    exact .cons (.cast (.inl widens.2)) ih.1
  | case7 => exact leads_done (.refl _) trivial
  | case8 => exact leads_done (.refl _) trivial

theorem leads_matchArguments (pos : Position) (params : List SymbolIndex) (args : List Expr) :
    (matchArguments table pos params args).Leads (WidensArgs args) fun _ _ => True := by
  have reversed := (leads_matchReversed table pos params.reverse args.reverse).1.reverse
  rw [List.reverse_reverse] at reversed
  exact ⟨reversed, fun _ _ => trivial⟩

theorem leads_checkCallee (callee : Reference) (args : List Expr) :
    (checkCallee table callee args).Leads (WidensArgs args) fun _ _ => True := by
  unfold checkCallee
  split
  · exact leads_stopped (.refl args)
  next routine known =>
    refine (leads_matchArguments table callee.pos routine.params args).andThen (fun _ _ widens => widens) ?_
    intro args' fits k widens _
    refine leads_done ?_ trivial
    -- that a call does not fit is no conversion
    cases fits <;> exact widens

/-! ## Expressions -/

mutual

/-- Checking an expression only annotates it, and what is found to be an integer may be converted. -/
theorem leads_check (e : Expr) :
    (e.check table).Leads e.Annotates fun tree found => found = integerType → tree.Widenable := by
  match e with
  | .name n s =>
    simp only [Expr.check]
    split
    · exact leads_stopped (.refl _)
    next symbol known =>
      refine leads_done (.name n s symbol.type) ?_
      intro integer
      split_ifs at integer with named
      -- the name of a type, which must be that of the integers
      · exact .inr ⟨_, by rw [integer]⟩
      · exact .inl integer
  | .element n array index =>
    simp only [Expr.check]
    split
    · exact leads_stopped (.refl _)
    next symbol known =>
      refine (leads_check index).andThen (fun _ _ i => .element n array n.type i) ?_
      intro index' found k i _
      refine leads_done ?_ .inl
      rw [widenings_unless]
      exact .element n array symbol.type i
  | .integer n v => exact leads_done (.integer n v integerType) .inl
  | .real n v => exact leads_done (.real n v realType) .inl
  | .cast n inner =>
    refine (leads_check inner).andThen (fun _ _ i => .cast n n.type i) ?_
    intro inner' found k i _
    exact leads_done (.cast n realType i) .inl
  | .negate n inner =>
    refine (leads_check inner).andThen (fun _ _ i => .negate n n.type i) ?_
    intro inner' found k i _
    exact leads_done (.negate n found i) .inl
  | .not n inner =>
    refine (leads_check inner).andThen (fun _ _ i => .not n n.type i) ?_
    intro inner' found k i _
    split
    · exact leads_done (.not n integerType i) .inl
    · exact leads_done (.not n voidType i) .inl
  | .call n callee args =>
    refine (leads_checkArgs args).andThen (fun args' _ as => .call n callee n.type as (.refl args')) ?_
    intro args' _ j as _
    refine (leads_checkCallee table callee args').andThen (fun _ _ ws => .call n callee n.type as ws) ?_
    intro args'' type k ws _
    exact leads_done (.call n callee type as ws) .inl
  | .binary n op left right =>
    refine (leads_check left).andThen
      (fun left' _ l => .binary n op n.type l (.refl right) (.keep left') (.keep right)) ?_
    intro left' leftType i l l_found
    refine (leads_check right).andThen
      (fun right' _ r => .binary n op n.type l r (.keep left') (.keep right')) ?_
    intro right' rightType j r r_found
    split
    · exact leads_stopped (.binary n op n.type l r (.keep left') (.keep right'))
    next o operation =>
      obtain ⟨k, m, left_widens, right_widens, noted⟩ := widened_binaryOperation l_found r_found operation
      refine leads_done ?_ fun integer => .inl (stored_binaryOperation operation integer)
      rw [noted, ← Nat.add_assoc]
      exact .binary n op o.stored l r left_widens right_widens
  | .relation n op left right =>
    refine (leads_check left).andThen
      (fun left' _ l => .relation n op n.type l (.refl right) (.keep left') (.keep right)) ?_
    intro left' leftType i l l_found
    refine (leads_check right).andThen
      (fun right' _ r => .relation n op n.type l r (.keep left') (.keep right')) ?_
    intro right' rightType j r r_found
    obtain ⟨k, m, left_widens, right_widens, noted⟩ := widened_comparison l_found r_found
    refine leads_done ?_ fun _ => .inl (stored_comparison left' right' leftType rightType)
    rw [noted, ← Nat.add_assoc]
    exact .relation n op _ l r left_widens right_widens
termination_by sizeOf e

theorem leads_checkArgs (es : List Expr) :
    (checkArgs table es).Leads (ArgsAnnotates es) fun _ _ => True := by
  match es with
  | [] => exact leads_done .nil trivial
  | e :: es =>
    -- the later arguments come first
    refine (leads_checkArgs es).andThen (fun es' k others => ?_) ?_
    · simpa using ArgsAnnotates.cons (.refl e) others
    · intro es' _ k others _
      refine (leads_check e).andThen (fun e' j first => ?_) ?_
      · rw [Nat.add_comm]
        exact .cons first others
      · intro e' _ j first _
        refine leads_done ?_ trivial
        rw [widenings_nil, Nat.add_zero, Nat.add_comm]
        exact .cons first others
termination_by sizeOf es

end

/-! ## Statements -/

@[simp] theorem widenings_unlessInteger (type : SymbolIndex) (pos : Position) (e : TypeError) :
    widenings (unlessInteger type pos e) = 0 :=
  widenings_unless _ _ e

theorem widens_assigned (pos : Position) {value : Expr} (targetType : SymbolIndex) {valueType : SymbolIndex}
    (v : valueType = integerType → value.Widenable) :
    ∃ k, Widens value (assigned table pos value targetType valueType).1 k ∧
      widenings (assigned table pos value targetType valueType).2 = k := by
  unfold assigned
  split_ifs with equal widens
  · exact ⟨0, .keep value, rfl⟩
  · exact ⟨1, .cast (v widens.2), rfl⟩
  · exact ⟨0, .keep value, rfl⟩

theorem widenings_returned (routine : Symbol) (pos : Position) (value : Expr) (found : SymbolIndex) :
    widenings (returned routine pos value found) = 0 := by
  unfold returned
  split_ifs <;> rfl

theorem leads_checkReturn (pos : Position) (value : Option Expr) :
    (checkReturn table pos value).Leads (fun value' k => (Stmt.ret pos value).Annotates (.ret pos value') k)
      fun _ _ => True := by
  unfold checkReturn
  split
  · exact leads_stopped (.refl _)
  next routine known =>
    cases value with
    | none =>
      refine leads_done ?_ trivial
      rw [widenings_unless]
      exact .ret pos
    | some value =>
      refine (leads_check table value).andThen (fun _ _ v => .retValue pos v) ?_
      intro value' found k v _
      refine leads_done ?_ trivial
      rw [widenings_returned]
      exact .retValue pos v

/-- Arguments are annotated one by one, and then matched with the parameters. -/
theorem leads_checkCall (callee : Reference) (args : List Expr) :
    (checkCall table callee args).Leads
      (fun args'' m => ∃ args' j k, ArgsAnnotates args args' j ∧ WidensArgs args' args'' k ∧ j + k = m)
      fun _ _ => True := by
  refine (leads_checkArgs table args).andThen (fun args' j as => ⟨args', j, 0, as, .refl args', rfl⟩) ?_
  intro args' _ j as _
  have matched := leads_checkCallee table callee args'
  exact ⟨⟨args', j, _, as, matched.1, rfl⟩, fun _ _ => trivial⟩

mutual

/-- Checking a statement only annotates it. -/
theorem leads_checkStmt (s : Stmt) : (s.check table).Leads s.Annotates fun _ _ => True := by
  match s with
  | .assign p target value =>
    rw [Stmt.check]
    refine (leads_check table target).andThen (fun _ _ t => .assign p t (.refl value) (.keep value)) ?_
    intro target' targetType i t _
    refine (leads_check table value).andThen (fun value' _ v => .assign p t v (.keep value')) ?_
    intro value' valueType j v v_found
    obtain ⟨k, widens, noted⟩ := widens_assigned table p targetType v_found
    have annotated := Stmt.Annotates.assign p t v widens
    rw [← noted, Nat.add_assoc] at annotated
    exact leads_done annotated trivial
  | .loop p condition body =>
    rw [Stmt.check]
    refine (leads_check table condition).andThen (fun _ _ c => .loop p c (.refl body)) ?_
    intro condition' found i c _
    apply Leads.after
    rw [widenings_unlessInteger]
    refine (leads_checkBody body).andThen (fun _ _ b => by simpa using Stmt.Annotates.loop p c b) ?_
    intro body' _ j b _
    exact leads_done (by simpa using Stmt.Annotates.loop p c b) trivial
  | .branch p condition body elsifs none =>
    rw [Stmt.check]
    refine (leads_check table condition).andThen (fun _ _ c => .branch p c (.refl body) (.refl elsifs)) ?_
    intro condition' found i c _
    refine (leads_checkBody body).andThen (fun _ _ b => .branch p c b (.refl elsifs)) ?_
    intro body' _ j b _
    apply Leads.after
    rw [widenings_unlessInteger]
    refine (leads_checkElsifs elsifs).andThen
      (fun _ _ es => by simpa [Nat.add_assoc] using Stmt.Annotates.branch p c b es) ?_
    intro elsifs' _ k es _
    exact leads_done (by simpa [Nat.add_assoc] using Stmt.Annotates.branch p c b es) trivial
  | .branch p condition body elsifs (some otherwise) =>
    rw [Stmt.check]
    refine (leads_check table condition).andThen
      (fun _ _ c => .branchElse p c (.refl body) (.refl elsifs) (.refl otherwise)) ?_
    intro condition' found i c _
    refine (leads_checkBody body).andThen (fun _ _ b => .branchElse p c b (.refl elsifs) (.refl otherwise)) ?_
    intro body' _ j b _
    apply Leads.after
    rw [widenings_unlessInteger]
    refine (leads_checkElsifs elsifs).andThen
      (fun _ _ es => by simpa [Nat.add_assoc] using Stmt.Annotates.branchElse p c b es (.refl otherwise)) ?_
    intro elsifs' _ k es _
    refine (leads_checkBody otherwise).andThen
      (fun _ _ o => by simpa [Nat.add_assoc] using Stmt.Annotates.branchElse p c b es o) ?_
    intro otherwise' _ l o _
    exact leads_done (by simpa [Nat.add_assoc] using Stmt.Annotates.branchElse p c b es o) trivial
  | .ret p value =>
    rw [Stmt.check]
    refine (leads_checkReturn table p value).andThen (fun _ _ v => v) ?_
    intro value' _ k v _
    exact leads_done v trivial
  | .call p callee args =>
    rw [Stmt.check]
    refine (leads_checkCall table callee args).andThen ?_ ?_
    · rintro args'' _ ⟨args', j, k, as, ws, rfl⟩
      exact .call p callee as ws
    · rintro args'' _ _ ⟨args', j, k, as, ws, rfl⟩ _
      have annotated := Stmt.Annotates.call p callee as ws
      exact leads_done annotated trivial
termination_by sizeOf s

theorem leads_checkElsif (e : Elsif) : (e.check table).Leads e.Annotates fun _ _ => True := by
  match e with
  | .clause p condition body =>
    rw [Elsif.check]
    -- the body is checked before the condition
    refine (leads_checkBody body).andThen
      (fun _ _ b => by simpa using Elsif.Annotates.clause p (.refl condition) b) ?_
    intro body' _ j b _
    refine (leads_check table condition).andThen (fun _ _ c => ?_) ?_
    · rw [Nat.add_comm]
      exact .clause p c b
    · intro condition' found i c _
      refine leads_done ?_ trivial
      rw [widenings_unlessInteger, Nat.add_zero, Nat.add_comm]
      exact .clause p c b
termination_by sizeOf e

theorem leads_checkElsifs (es : List Elsif) :
    (checkElsifs table es).Leads (ElsifsAnnotates es) fun _ _ => True := by
  match es with
  | [] => exact leads_done .nil trivial
  | e :: es =>
    rw [checkElsifs]
    refine (leads_checkElsifs es).andThen
      (fun _ _ others => by simpa using ElsifsAnnotates.cons (.refl e) others) ?_
    intro es' _ k others _
    refine (leads_checkElsif e).andThen (fun _ _ first => ?_) ?_
    · rw [Nat.add_comm]
      exact .cons first others
    · intro e' _ j first _
      refine leads_done ?_ trivial
      rw [widenings_nil, Nat.add_zero, Nat.add_comm]
      exact .cons first others
termination_by sizeOf es

theorem leads_checkBody (b : List Stmt) : (checkBody table b).Leads (BodyAnnotates b) fun _ _ => True := by
  match b with
  | [] => exact leads_done .nil trivial
  | s :: b =>
    rw [checkBody]
    -- the later statements come first
    refine (leads_checkBody b).andThen
      (fun _ _ others => by simpa using BodyAnnotates.cons (.refl s) others) ?_
    intro b' _ k others _
    refine (leads_checkStmt s).andThen (fun _ _ first => ?_) ?_
    · rw [Nat.add_comm]
      exact .cons first others
    · intro s' _ j first _
      refine leads_done ?_ trivial
      rw [widenings_nil, Nat.add_zero, Nat.add_comm]
      exact .cons first others
termination_by sizeOf b

end

/-- Checking a body only annotates it, with as many new casts as conversions are noted. -/
theorem annotates_check (env : SymbolIndex) (b : Body) :
    BodyAnnotates b (b.check table env).tree (widenings (b.check table env).events) := by
  unfold Body.check
  split
  · exact .refl b
  next routine known =>
    have inner : ((checkBody table b).andThen id fun body returns =>
        Checked.done body (missingReturn routine body returns) ()).Leads (BodyAnnotates b) fun _ _ => True := by
      refine (leads_checkBody table b).andThen (fun _ _ annotates => annotates) ?_
      intro b' returns k annotates _
      refine leads_done ?_ trivial
      rw [missingReturn]
      split_ifs <;> exact annotates
    -- the begin and the end of a check are noted as well, but they are no conversions
    generalize (checkBody table b).andThen id _ = c at inner ⊢
    rcases c with ⟨tree, events, none | _⟩ <;>
      simpa [widenings, Event.isWidening, List.countP_cons] using inner.1

end MiniPascal
