import MiniPascal.Proofs.Checking.Laws
import MiniPascal.Proofs.Checking.Typing
import MiniPascal.Proofs.Validation

/-!
# Checking is sound

Where all types are integer and real, checking that reports nothing leaves a tree that is typed
without coercions. The types that are found and those that are stored agree then, so it does not
matter which of the two a rule looks at.
-/

namespace MiniPascal

open Checked

variable {table : SymbolTable}

/-! ## Operators -/

section

variable {left right : Expr} {leftType rightType : SymbolIndex}

theorem typed_arithmetic (pos : Position) {op : BinaryOp} (arithmetical : op.isArithmetic = true)
    (l : HasType table left leftType) (leftNumber : IsNumber leftType)
    (r : HasType table right rightType) (rightNumber : IsNumber rightType) :
    let o := arithmetic left right leftType rightType
    HasType table (.binary ⟨pos, o.stored⟩ op o.left o.right) o.found ∧
      o.found = if leftType = integerType ∧ rightType = integerType then integerType else realType := by
  -- all four pairs of types; a cast makes up for the two mixed ones
  rcases leftNumber with rfl | rfl <;> rcases rightNumber with rfl | rfl
  · exact ⟨.arithmetic pos arithmetical (.inl rfl) l r, rfl⟩
  · exact ⟨.arithmetic pos arithmetical (.inr rfl) l.widen r, rfl⟩
  · exact ⟨.arithmetic pos arithmetical (.inr rfl) l r.widen, rfl⟩
  · exact ⟨.arithmetic pos arithmetical (.inr rfl) l r, rfl⟩

theorem typed_wideningInteger {e : Expr} {t : SymbolIndex} (typed : HasType table e t) (number : IsNumber t) :
    HasType table (wideningInteger e).1 realType := by
  unfold wideningInteger
  rw [typed.type_eq]
  rcases number with rfl | rfl
  · exact typed.widen
  · exact typed

/-- What is accepted has an integer or a cast on the left, never a real on the left of an integer. -/
theorem typed_integerOperation {pos : Position} {op : BinaryOp} (integral : op.isIntegral = true) {o : Operation}
    (l : HasType table left leftType) (leftNumber : IsNumber leftType)
    (r : HasType table right rightType) (rightNumber : IsNumber rightType)
    (some_o : integerOperation pos op left right leftType rightType = some o)
    (silent : o.events.filterMap Event.message? = []) :
    HasType table (.binary ⟨pos, o.stored⟩ op o.left o.right) o.found ∧ o.found = integerType := by
  rcases leftNumber with rfl | rfl
  · rcases rightNumber with rfl | rfl
    · cases some_o
      exact ⟨.integral pos integral l r, rfl⟩
    · cases some_o
      exact ⟨.mixed pos _ integral l.widen r, rfl⟩
  · -- a real on the left is criticised whatever stands on the right
    obtain ⟨name, -, rfl⟩ := Option.map_eq_some_iff.mp some_o
    contradiction

/-- The type that an operation finds is the one it has in the source language. -/
theorem typed_binaryOperation {pos : Position} {op : BinaryOp} {o : Operation}
    (l : HasType table left leftType) (leftNumber : IsNumber leftType)
    (r : HasType table right rightType) (rightNumber : IsNumber rightType)
    (some_o : binaryOperation pos op left right leftType rightType = some o)
    (silent : o.events.filterMap Event.message? = []) :
    HasType table (.binary ⟨pos, o.stored⟩ op o.left o.right) o.found ∧
      o.found = op.numberType leftType rightType := by
  cases op with
  | add | sub | mul =>
    cases some_o
    exact typed_arithmetic pos rfl l leftNumber r rightNumber
  | divide =>
    cases some_o
    exact ⟨.quotient pos (typed_wideningInteger l leftNumber) (typed_wideningInteger r rightNumber), rfl⟩
  | div | mod | or | and => exact typed_integerOperation rfl l leftNumber r rightNumber some_o silent

theorem typed_comparison (pos : Position) (relation : RelationOp)
    (l : HasType table left leftType) (leftNumber : IsNumber leftType)
    (r : HasType table right rightType) (rightNumber : IsNumber rightType)
    (one : leftType = integerType ∨ rightType = integerType) :
    let o := comparison left right leftType rightType
    HasType table (.relation ⟨pos, o.stored⟩ relation o.left o.right) o.found ∧ o.found = integerType := by
  rcases leftNumber with rfl | rfl <;> rcases rightNumber with rfl | rfl
  · exact ⟨.relation pos relation (.inl rfl) l r, rfl⟩
  · exact ⟨.relation pos relation (.inr rfl) l.widen r, rfl⟩
  · exact ⟨.relation pos relation (.inr rfl) l r.widen, rfl⟩
  -- two reals are compared without an error, but no type is found for them
  · rcases one with h | h <;> cases h

end

/-! ## Arguments -/

/-- Checked arguments have types of numbers. -/
def NumberArgs (table : SymbolTable) (args : List Expr) : Prop :=
  ∀ e ∈ args, ∃ t, HasType table e t ∧ IsNumber t

/-- The arguments have the types of the parameters. -/
def ArgsTyped (table : SymbolTable) (params : List SymbolIndex) (args : List Expr) : Prop :=
  ∃ types, table.Types params types ∧ List.Forall₂ (HasType table) args types

theorem ArgsTyped.cons {param : SymbolIndex} {params : List SymbolIndex} {arg : Expr} {args : List Expr}
    {symbol : Symbol} (found : table.get? param = some symbol) (first : HasType table arg symbol.type)
    (others : ArgsTyped table params args) : ArgsTyped table (param :: params) (arg :: args) := by
  obtain ⟨types, known, typed⟩ := others
  exact ⟨symbol.type :: types, .cons (by rw [found]; rfl) known, .cons first typed⟩

theorem ArgsTyped.reverse {params : List SymbolIndex} {args : List Expr} (typed : ArgsTyped table params args) :
    ArgsTyped table params.reverse args.reverse := by
  obtain ⟨types, known, typed⟩ := typed
  exact ⟨types.reverse, List.rel_reverse known, List.rel_reverse typed⟩

theorem establishes_matchReversed (pos : Position) (params : List SymbolIndex) (args : List Expr)
    (numeric : ∀ i ∈ params, table.Numeric i) (numbers : NumberArgs table args) :
    (matchReversed table pos params args).Establishes fun tree _ => ArgsTyped table params tree := by
  -- by the cases of the matching, where each argument is typed before it is matched
  fun_induction matchReversed table pos params args with
  | case1 => exact establishes_done fun _ => ⟨[], .nil, .nil⟩
  | case2 | case3 | case7 => exact establishes_done fun silent => by contradiction
  | case4 => exact fun _ result => by contradiction
  | case5 param params arg args symbol found equal c ih =>
    obtain ⟨t, typed, -⟩ := numbers arg List.mem_cons_self
    have first : HasType table arg symbol.type := by rwa [equal, typed.type_eq]
    have others := ih (fun i h => numeric i (List.mem_cons_of_mem _ h)) fun e h =>
      numbers e (List.mem_cons_of_mem _ h)
    exact fun s result silent => .cons found first (others s result silent)
  | case6 param params arg args symbol found _ widens c ih =>
    obtain ⟨t, typed, -⟩ := numbers arg List.mem_cons_self
    have first : HasType table arg.widen symbol.type := by
      rw [typed.type_eq] at widens
      rw [widens.1]
      exact (widens.2 ▸ typed).widen
    have others := ih (fun i h => numeric i (List.mem_cons_of_mem _ h)) fun e h =>
      numbers e (List.mem_cons_of_mem _ h)
    exact fun s result silent => .cons found first (others s result silent)
  | case8 param params arg args symbol found different narrow notInteger =>
    -- a mismatch without an error would need a parameter that is neither integer nor real
    obtain ⟨t, typed, number⟩ := numbers arg List.mem_cons_self
    obtain ⟨symbol', found', formal⟩ := numeric param List.mem_cons_self
    cases found.symm.trans found'
    have real : symbol.type = realType := formal.resolve_left notInteger
    rw [typed.type_eq] at different narrow
    rcases number with rfl | rfl
    · exact absurd ⟨real, rfl⟩ narrow
    · exact absurd real different

theorem establishes_matchArguments (pos : Position) (params : List SymbolIndex) (args : List Expr)
    (numeric : ∀ i ∈ params, table.Numeric i) (numbers : NumberArgs table args) :
    (matchArguments table pos params args).Establishes fun tree _ => ArgsTyped table params tree := by
  have reversed := establishes_matchReversed pos params.reverse args.reverse
    (fun i h => numeric i (List.mem_reverse.mp h)) fun e h => numbers e (List.mem_reverse.mp h)
  intro fits result silent
  have typed := (reversed fits result silent).reverse
  rwa [List.reverse_reverse] at typed

/-- A call that is accepted has arguments of the types of the parameters. -/
theorem establishes_checkCallee (callee : Reference) (args : List Expr)
    (numeric : table.NumericParams callee.value) (numbers : NumberArgs table args) :
    (checkCallee table callee args).Establishes fun tree type =>
      ∃ routine, table.get? callee.value = some routine ∧ type = routine.type ∧
        ArgsTyped table routine.params tree := by
  unfold checkCallee
  split
  · exact fun _ result => by contradiction
  next routine found =>
    refine (establishes_matchArguments callee.pos routine.params args (numeric routine found) numbers).andThen ?_
    exact fun _ _ typed => establishes_done fun _ => ⟨routine, found, rfl, typed⟩

/-! ## Expressions -/

theorem numberType_typeOf {i : SymbolIndex} {symbol : Symbol} (found : table.get? i = some symbol) :
    table.typeOf i = symbol.type := by
  rw [SymbolTable.typeOf, found]
  rfl

theorem silent_unless {condition : Prop} [Decidable condition] {e : Event}
    (reported : e.message?.isSome = true) (silent : (if condition then [] else [e]).filterMap Event.message? = []) :
    condition := by
  by_contra criticised
  rw [if_neg criticised] at silent
  obtain ⟨m, message⟩ := Option.isSome_iff_exists.mp reported
  rw [List.filterMap_cons_some message] at silent
  contradiction

mutual

/-- An expression that is accepted is typed, and has the type it has in the source language. -/
theorem establishes_check (e : Expr) (two : e.TwoTyped table) :
    (e.check table).Establishes fun tree found =>
      HasType table tree found ∧ found = e.numberType table ∧ IsNumber found := by
  match e with
  | .name n s =>
    obtain ⟨⟨symbol, found, number⟩, symbol', found', value⟩ := two
    cases found.symm.trans found'
    -- names of types are left out, so what is found is what is stored
    have kind : symbol.kind ≠ .namedType := by
      intro type
      rw [type] at value
      contradiction
    simp only [Expr.check, found, if_neg kind]
    exact establishes_done fun _ => ⟨.name n.pos s found, (numberType_typeOf found).symm, number⟩
  | .element n array index =>
    obtain ⟨⟨symbol, found, number⟩, inner⟩ := two
    simp only [Expr.check, found]
    refine (establishes_check index inner).andThen fun index found' i => establishes_done fun silent => ?_
    -- the index was reported unless it is an integer
    have integer := silent_unless rfl silent
    exact ⟨.element n.pos array found (integer ▸ i.1), (numberType_typeOf found).symm, number⟩
  | .integer n v => exact establishes_done fun _ => ⟨.integer n.pos v, rfl, .inl rfl⟩
  | .real n v => exact establishes_done fun _ => ⟨.real n.pos v, rfl, .inr rfl⟩
  | .cast n inner => exact two.elim
  | .negate n inner =>
    exact (establishes_check inner two).andThen fun _ _ i =>
      establishes_done fun _ => ⟨.negate n.pos i.1, i.2.1, i.2.2⟩
  | .not n inner =>
    refine (establishes_check inner two).andThen fun inner found i => ?_
    split
    next integer =>
      -- the rule looks at the stored type, which is the found one
      rw [i.1.type_eq] at integer
      exact establishes_done fun _ => ⟨.not n.pos (integer ▸ i.1), rfl, .inl rfl⟩
    next => exact establishes_done fun silent => by contradiction
  | .call n callee args =>
    obtain ⟨⟨routine, found, number⟩, numeric, inner⟩ := two
    refine (establishes_checkArgs args inner).andThen fun args _ numbers => ?_
    refine (establishes_checkCallee callee args numeric numbers).andThen fun args type matched => ?_
    obtain ⟨routine', found', rfl, types, known, typed⟩ := matched
    cases found.symm.trans found'
    exact establishes_done fun _ => ⟨.call n.pos callee found known typed, (numberType_typeOf found).symm, number⟩
  | .binary n op left right =>
    refine (establishes_check left two.1).andThen fun left leftType l => ?_
    refine (establishes_check right two.2).andThen fun right rightType r => ?_
    split
    · exact fun _ result => by contradiction
    next o some_o =>
      refine establishes_done fun silent => ?_
      have operation := typed_binaryOperation l.1 l.2.2 r.1 r.2.2 some_o silent
      -- the operands have the types of the source language, so the operation has
      rw [l.2.1, r.2.1] at operation
      refine ⟨operation.1, operation.2, ?_⟩
      rw [operation.2]
      exact BinaryOp.isNumber_numberType _ _ op
  | .relation n op left right =>
    refine (establishes_check left two.1).andThen fun left leftType l => ?_
    refine (establishes_check right two.2.1).andThen fun right rightType r => ?_
    have one := two.2.2
    rw [← l.2.1, ← r.2.1] at one
    have relation := typed_comparison n.pos op l.1 l.2.2 r.1 r.2.2 one
    exact establishes_done fun _ => ⟨relation.1, relation.2, .inl relation.2⟩
termination_by sizeOf e

theorem establishes_checkArgs (es : List Expr) (two : ArgsTwoTyped table es) :
    (checkArgs table es).Establishes fun tree _ => NumberArgs table tree := by
  match es with
  | [] => exact establishes_done fun _ _ member => by contradiction
  | e :: es =>
    refine (establishes_checkArgs es two.2).andThen fun es _ others => ?_
    refine (establishes_check e two.1).andThen fun e found first => establishes_done fun _ => ?_
    exact List.forall_mem_cons.mpr ⟨⟨found, first.1, first.2.2⟩, others⟩
termination_by sizeOf es

end

/-! ## Statements -/

theorem typed_assigned (p : Position) {value : Expr} {targetType valueType : SymbolIndex}
    (v : HasType table value valueType)
    (silent : (assigned table p value targetType valueType).2.filterMap Event.message? = []) :
    HasType table (assigned table p value targetType valueType).1 targetType := by
  unfold assigned at silent ⊢
  split_ifs at silent ⊢ with equal widens
  · exact equal ▸ v
  · exact widens.1 ▸ (widens.2 ▸ v).widen
  · exact nomatch silent

theorem typed_returned {routine : Symbol} (p : Position) {value : Expr} {found : SymbolIndex}
    (v : HasType table value found) (silent : (returned routine p value found).filterMap Event.message? = []) :
    Stmt.Typed table routine (.ret p (some value)) := by
  unfold returned at silent
  split_ifs at silent with procedure different
  · exact nomatch silent
  · exact nomatch silent
  · exact .retValue p (not_not.mp procedure) (not_not.mp different ▸ v)

theorem establishes_checkReturn {routine : Symbol}
    (current : table.get? table.currentEnvironment = some routine) (p : Position) (value : Option Expr)
    (two : Stmt.TwoTyped table (.ret p value)) :
    (checkReturn table p value).Establishes fun tree _ => Stmt.Typed table routine (.ret p tree) := by
  unfold checkReturn
  rw [current]
  cases value with
  | none => exact establishes_done fun silent => .ret p (silent_unless rfl silent)
  | some value =>
    exact (establishes_check value two).andThen fun _ _ v =>
      establishes_done fun silent => typed_returned p v.1 silent

theorem establishes_checkCall (callee : Reference) (args : List Expr)
    (numeric : table.NumericParams callee.value) (two : ArgsTwoTyped table args) :
    (checkCall table callee args).Establishes fun tree _ =>
      ∃ routine, table.get? callee.value = some routine ∧ ArgsTyped table routine.params tree :=
  (establishes_checkArgs args two).andThen fun args _ numbers =>
    (establishes_checkCallee callee args numeric numbers).mono fun _ _ ⟨routine, found, _, typed⟩ =>
      ⟨routine, found, typed⟩

/-- Conditions are integers. -/
theorem typed_condition {condition : Expr} {found : SymbolIndex} {p : Position} {e : TypeError}
    (c : HasType table condition found)
    (silent : (unlessInteger found p e).filterMap Event.message? = []) : HasType table condition integerType := by
  have integer : found = integerType := silent_unless rfl silent
  exact integer ▸ c

mutual

theorem establishes_checkStmt {routine : Symbol}
    (current : table.get? table.currentEnvironment = some routine) (s : Stmt) (two : s.TwoTyped table) :
    (s.check table).Establishes fun tree _ => tree.Typed table routine := by
  match s with
  | .assign p target value =>
    rw [Stmt.check]
    refine (establishes_check target two.1).andThen fun target targetType t => ?_
    refine (establishes_check value two.2).andThen fun value valueType v => ?_
    exact establishes_done fun silent => .assign p t.1 (typed_assigned p v.1 silent)
  | .loop p condition body =>
    rw [Stmt.check]
    refine (establishes_check condition two.1).andThen fun condition found c => ?_
    refine establishes_after fun silent => ?_
    exact (establishes_checkBody current body two.2).andThen fun _ _ b =>
      establishes_done fun _ => .loop p (typed_condition c.1 silent) b
  | .branch p condition body elsifs none =>
    rw [Stmt.check]
    refine (establishes_check condition two.1).andThen fun condition found c => ?_
    refine (establishes_checkBody current body two.2.1).andThen fun _ _ b => ?_
    refine establishes_after fun silent => ?_
    exact (establishes_checkElsifs current elsifs two.2.2).andThen fun _ _ es =>
      establishes_done fun _ => .branch p (typed_condition c.1 silent) b es
  | .branch p condition body elsifs (some otherwise) =>
    rw [Stmt.check]
    refine (establishes_check condition two.1).andThen fun condition found c => ?_
    refine (establishes_checkBody current body two.2.1).andThen fun _ _ b => ?_
    refine establishes_after fun silent => ?_
    refine (establishes_checkElsifs current elsifs two.2.2.1).andThen fun _ _ es => ?_
    exact (establishes_checkBody current otherwise two.2.2.2).andThen fun _ _ o =>
      establishes_done fun _ => .branchElse p (typed_condition c.1 silent) b es o
  | .ret p value =>
    rw [Stmt.check]
    exact (establishes_checkReturn current p value two).andThen fun _ _ r => establishes_done fun _ => r
  | .call p callee args =>
    rw [Stmt.check]
    refine (establishes_checkCall callee args two.1 two.2).andThen fun _ _ matched => ?_
    obtain ⟨called, found, types, known, typed⟩ := matched
    exact establishes_done fun _ => .call p callee found known typed
termination_by sizeOf s

/-- The condition is judged by the stored type, which is the one that was found. -/
theorem establishes_checkElsif {routine : Symbol}
    (current : table.get? table.currentEnvironment = some routine) (e : Elsif) (two : e.TwoTyped table) :
    (e.check table).Establishes fun tree _ => tree.Typed table routine := by
  match e with
  | .clause p condition body =>
    rw [Elsif.check]
    refine (establishes_checkBody current body two.2).andThen fun _ _ b => ?_
    refine (establishes_check condition two.1).andThen fun condition found c => ?_
    refine establishes_done fun silent => ?_
    rw [c.1.type_eq] at silent
    exact .clause p (typed_condition c.1 silent) b
termination_by sizeOf e

theorem establishes_checkElsifs {routine : Symbol}
    (current : table.get? table.currentEnvironment = some routine) (es : List Elsif)
    (two : ElsifsTwoTyped table es) :
    (checkElsifs table es).Establishes fun tree _ => ∀ e ∈ tree, Elsif.Typed table routine e := by
  match es with
  | [] => exact establishes_done fun _ _ member => by contradiction
  | e :: es =>
    rw [checkElsifs]
    refine (establishes_checkElsifs current es two.2).andThen fun _ _ others => ?_
    exact (establishes_checkElsif current e two.1).andThen fun _ _ first =>
      establishes_done fun _ => List.forall_mem_cons.mpr ⟨first, others⟩
termination_by sizeOf es

theorem establishes_checkBody {routine : Symbol}
    (current : table.get? table.currentEnvironment = some routine) (b : List Stmt)
    (two : BodyTwoTyped table b) :
    (checkBody table b).Establishes fun tree _ => ∀ s ∈ tree, Stmt.Typed table routine s := by
  match b with
  | [] => exact establishes_done fun _ _ member => by contradiction
  | s :: b =>
    rw [checkBody]
    refine (establishes_checkBody current b two.2).andThen fun _ _ others => ?_
    exact (establishes_checkStmt current s two.1).andThen fun _ _ first =>
      establishes_done fun _ => List.forall_mem_cons.mpr ⟨first, others⟩
termination_by sizeOf b

end

/-! ## Bodies -/

theorem establishes_bodyCheck {env : SymbolIndex} {routine : Symbol} (found : table.get? env = some routine)
    (current : table.get? table.currentEnvironment = some routine) (b : Body) (two : BodyTwoTyped table b) :
    (b.check table env).Establishes fun tree _ => ∀ s ∈ tree, Stmt.Typed table routine s := by
  intro u result silent
  have inner : ((checkBody table b).andThen id fun body returns =>
      Checked.done body (missingReturn routine body returns) ()).Establishes fun tree _ =>
        ∀ s ∈ tree, Stmt.Typed table routine s :=
    (establishes_checkBody current b two).andThen fun _ _ typed => establishes_done fun _ => typed
  have quiet := messages_bodyCheck found b silent
  unfold Body.check at result ⊢
  rw [found] at result ⊢
  exact inner u result quiet

/-- Where all is integer or real, a body that is checked without an error in the environment of
its routine keeps to the typing rules at every expression and every statement. -/
theorem check_sound {routine : Symbol} (valid : table.validate = .ok ())
    (current : table.get? table.currentEnvironment = some routine) (b : Body)
    (inside : table.Covers (bodySymbols b)) (two : BodyTwoTyped table b)
    (silent : (b.check table table.currentEnvironment).messages = []) :
    ∀ s ∈ (b.check table table.currentEnvironment).tree, Stmt.Typed table routine s := by
  have known : table.currentEnvironment < table.size := (List.getElem?_eq_some_iff.mp current).1
  obtain ⟨u, result, -⟩ := yields_bodyCheck (closed_of_validate valid) known known b inside
  exact establishes_bodyCheck current current b two u result silent

/-- A real variable gets the sum of an integer variable and a real. -/
theorem check_sound_mixed_sum :
    let main := SymbolTable.new "main"
    let table := { main with
      symbols := main.symbols ++ [.plain "x" .variable realType, .plain "i" .variable integerType] }
    let note : Note := ⟨⟨1, 1⟩, voidType⟩
    let b : Body := [.assign ⟨1, 1⟩ (.name note 4) (.binary note .add (.name note 5) (.real note 1.5))]
    table.validate = .ok () ∧ table.get? table.currentEnvironment = some (.plain "main" .procedure voidType) ∧
      table.Covers (bodySymbols b) ∧ BodyTwoTyped table b ∧
      (b.check table table.currentEnvironment).messages = [] ∧
      ∀ s ∈ (b.check table table.currentEnvironment).tree,
        Stmt.Typed table (.plain "main" .procedure voidType) s := by
  intro main table note b
  have valid : table.validate = .ok () := rfl
  have inside : table.Covers (bodySymbols b) := by
    change ∀ i ∈ [4, 5], i < 6
    decide
  have x : table.Numeric 4 ∧
      ∃ symbol, table.get? 4 = some symbol ∧ symbol.kind ∈ [.constant, .variable, .parameter] :=
    ⟨⟨_, rfl, .inr rfl⟩, _, rfl, by decide⟩
  have i : table.Numeric 5 ∧
      ∃ symbol, table.get? 5 = some symbol ∧ symbol.kind ∈ [.constant, .variable, .parameter] :=
    ⟨⟨_, rfl, .inl rfl⟩, _, rfl, by decide⟩
  have two : BodyTwoTyped table b := ⟨⟨x, i, trivial⟩, trivial⟩
  exact ⟨valid, rfl, inside, two, rfl, check_sound valid rfl b inside two rfl⟩

end MiniPascal
