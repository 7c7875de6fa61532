import MiniPascal.Proofs.Checking.Annotation
import MiniPascal.Proofs.Checking.Stopping
import MiniPascal.Proofs.Checking.Typing

/-!
# Calls that do not fit

Parameters and arguments are compared in pairs from the last ones on, and the first pair that does not
fit ends the comparison. So the number of arguments is criticised only if all pairs fit.
-/

namespace MiniPascal

open Checked

/-! ## Pairs -/

/-- A parameter takes an argument of its own type, and a real one takes an integer as well. -/
def Takes (formal arg : SymbolIndex) : Prop :=
  formal = arg ∨ formal = realType ∧ arg = integerType

instance (formal arg : SymbolIndex) : Decidable (Takes formal arg) :=
  inferInstanceAs (Decidable (_ ∨ _))

/-- The errors of a call whose parameters and arguments have these types, both from the last one on. -/
def matchErrors (formals args : List SymbolIndex) : List TypeError :=
  match (formals.zip args).find? fun pair => ¬Takes pair.1 pair.2 with
  | some pair => if pair.1 = integerType then [.argumentType] else []
  | none => if formals.length = args.length then [] else [.argumentCount]

@[simp] theorem matchErrors_nil : matchErrors [] [] = [] := rfl

@[simp] theorem matchErrors_nil_cons (arg : SymbolIndex) (args : List SymbolIndex) :
    matchErrors [] (arg :: args) = [.argumentCount] := rfl

@[simp] theorem matchErrors_cons_nil (formal : SymbolIndex) (formals : List SymbolIndex) :
    matchErrors (formal :: formals) [] = [.argumentCount] := rfl

theorem matchErrors_of_takes {formal arg : SymbolIndex} (takes : Takes formal arg)
    (formals args : List SymbolIndex) :
    matchErrors (formal :: formals) (arg :: args) = matchErrors formals args := by
  simp [matchErrors, takes]

theorem matchErrors_of_not_takes {formal arg : SymbolIndex} (misfit : ¬Takes formal arg)
    (formals args : List SymbolIndex) :
    matchErrors (formal :: formals) (arg :: args) = if formal = integerType then [.argumentType] else [] := by
  simp [matchErrors, misfit]

/-! ## Matching -/

/-- Matching ends, adds the errors above behind the conversions, and finds whether all pairs fit. -/
def Matches (c : Checked (List Expr) Bool) (pos : Position) (formals args : List SymbolIndex) : Prop :=
  ∃ conversions fits, conversions.filterMap Event.message? = [] ∧
    c.events = conversions ++ (matchErrors formals args).map (.error (some pos)) ∧
    c.result = some fits ∧ (fits = true ↔ List.Forall₂ Takes formals args)

section Matching

variable {table : SymbolTable} {pos : Position} {formal arg : SymbolIndex} {formals args : List SymbolIndex}

theorem Matches.cons {c : Checked (List Expr) Bool} (takes : Takes formal arg) (rest : Matches c pos formals args)
    (conversions : List Event) (silent : conversions.filterMap Event.message? = []) (tree : List Expr) :
    Matches ⟨tree, conversions ++ c.events, c.result⟩ pos (formal :: formals) (arg :: args) := by
  obtain ⟨others, fits, others_silent, events, result, all_fit⟩ := rest
  refine ⟨conversions ++ others, fits, ?_, ?_, result, ?_⟩
  · rw [List.filterMap_append, silent, others_silent, List.append_nil]
  · rw [matchErrors_of_takes takes, List.append_assoc, events]
  · rw [all_fit, List.forall₂_cons, and_iff_right takes]

theorem matches_misfit (misfit : ¬Takes formal arg) (tree : List Expr) :
    Matches (done tree (if formal = integerType then [.error (some pos) .argumentType] else []) false) pos
      (formal :: formals) (arg :: args) := by
  refine ⟨[], false, rfl, ?_, rfl, by simp [misfit]⟩
  rw [matchErrors_of_not_takes misfit]
  split_ifs <;> rfl

theorem matches_matchReversed (pos : Position) (params : List SymbolIndex) (args : List Expr)
    (covers : table.Covers params) :
    Matches (matchReversed table pos params args) pos (params.map table.typeOf) (args.map Expr.type) := by
  have type {param : SymbolIndex} {symbol : Symbol} (found : table.get? param = some symbol) :
      table.typeOf param = symbol.type := by
    rw [SymbolTable.typeOf, found, Option.map_some, Option.getD_some]
  fun_induction matchReversed table pos params args with
  | case1 => exact ⟨[], true, rfl, rfl, rfl, by simp⟩
  | case2 args nonempty =>
    cases args with
    | nil => exact absurd rfl nonempty
    | cons arg args => exact ⟨[], false, rfl, rfl, rfl, by simp⟩
  | case3 param params => exact ⟨[], false, rfl, rfl, rfl, by simp⟩
  | case4 param params arg args outside =>
    exact absurd (covers_cons.mp covers).1 (not_lt_of_get?_eq_none outside)
  | case5 param params arg args symbol found equal c ih =>
    have takes : Takes (table.typeOf param) arg.type := .inl ((type found).trans equal)
    exact (ih (covers_cons.mp covers).2).cons takes [] rfl _
  | case6 param params arg args symbol found different widens c ih =>
    have takes : Takes (table.typeOf param) arg.type := .inr ⟨(type found).trans widens.1, widens.2⟩
    exact (ih (covers_cons.mp covers).2).cons takes [.widened arg.pos] rfl _
  | case7 param params arg args symbol found different no_widening integer =>
    rw [← type found] at different no_widening integer
    have misfit : ¬Takes (table.typeOf param) arg.type := not_or.mpr ⟨different, no_widening⟩
    have matched : Matches _ pos (_ :: params.map table.typeOf) (_ :: args.map Expr.type) :=
      matches_misfit misfit (arg :: args)
    rw [if_pos integer] at matched
    exact matched
  | case8 param params arg args symbol found different no_widening no_integer =>
    rw [← type found] at different no_widening no_integer
    have misfit : ¬Takes (table.typeOf param) arg.type := not_or.mpr ⟨different, no_widening⟩
    have matched : Matches _ pos (_ :: params.map table.typeOf) (_ :: args.map Expr.type) :=
      matches_misfit misfit (arg :: args)
    rw [if_neg no_integer] at matched
    exact matched

end Matching

/-! ## Calls in a tree -/

variable {table : SymbolTable}

/-- What a call adds to what its arguments add. -/
def callEvents (table : SymbolTable) (call : Call) : List Event :=
  (checkCallee table call.1 (checkArgs table call.2).tree).events

section Steps

variable {τ υ σ ρ : Type} {c : Checked τ σ} {rest : τ → υ} {next : τ → σ → Checked υ ρ} {events : List Event}

theorem infix_first (first : events <:+: c.events) : events <:+: (c.andThen rest next).events := by
  cases result : c.result with
  | none => rwa [Checked.andThen, result]
  | some s =>
    rw [events_andThen result]
    exact first.trans (List.prefix_append _ _).isInfix

/-- The second step is taken only if the first one ends. -/
theorem infix_second (ends : c.Ends) (second : ∀ s, events <:+: (next c.tree s).events) :
    events <:+: (c.andThen rest next).events := by
  obtain ⟨s, result⟩ := Option.isSome_iff_exists.mp ends
  rw [events_andThen result]
  exact (second s).trans (List.suffix_append _ _).isInfix

theorem infix_after (front : List Event) (back : events <:+: c.events) : events <:+: (c.after front).events :=
  back.trans (List.suffix_append _ _).isInfix

end Steps

mutual

theorem infix_check (params : table.ParamsInside) (e : Expr) (covers : table.Covers e.symbols) {call : Call}
    (inside : call ∈ e.calls) : callEvents table call <:+: (e.check table).events := by
  match e with
  | .name .. | .integer .. | .real .. => simp [Expr.calls] at inside
  | .element n array index =>
    rw [Expr.symbols, covers_cons] at covers
    obtain ⟨symbol, found⟩ := get?_eq_some_of_lt covers.1
    rw [Expr.calls] at inside
    rw [Expr.check, found]
    exact infix_first (infix_check params index covers.2 inside)
  | .cast n inner | .negate n inner | .not n inner =>
    rw [Expr.symbols] at covers
    rw [Expr.calls] at inside
    rw [Expr.check]
    exact infix_first (infix_check params inner covers inside)
  | .call n callee args =>
    rw [Expr.symbols, covers_cons] at covers
    rw [Expr.calls, List.mem_cons] at inside
    rw [Expr.check]
    rcases inside with rfl | inside
    · exact infix_second ((ends_checkArgs params args).mpr covers.2) fun _ => infix_first List.infix_rfl
    · exact infix_first (infix_checkArgs params args covers.2 inside)
  | .binary n op left right | .relation n op left right =>
    rw [Expr.symbols, covers_append] at covers
    rw [Expr.calls, List.mem_append] at inside
    rw [Expr.check]
    rcases inside with inside | inside
    · exact infix_first (infix_check params left covers.1 inside)
    · refine infix_second ((ends_check params left).mpr covers.1) fun _ => ?_
      exact infix_first (infix_check params right covers.2 inside)
termination_by sizeOf e

theorem infix_checkArgs (params : table.ParamsInside) (es : List Expr) (covers : table.Covers (argSymbols es))
    {call : Call} (inside : call ∈ argCalls es) : callEvents table call <:+: (checkArgs table es).events := by
  match es with
  | [] => simp [argCalls] at inside
  | e :: es =>
    rw [argSymbols, covers_append] at covers
    rw [argCalls, List.mem_append] at inside
    rw [checkArgs]
    rcases inside with inside | inside
    · refine infix_second ((ends_checkArgs params es).mpr covers.2) fun _ => ?_
      exact infix_first (infix_check params e covers.1 inside)
    · exact infix_first (infix_checkArgs params es covers.2 inside)
termination_by sizeOf es

end

theorem infix_checkReturn (params : table.ParamsInside) (environment : table.currentEnvironment < table.size)
    (pos : Position) {value : Expr} (covers : table.Covers value.symbols) {call : Call}
    (inside : call ∈ value.calls) :
    callEvents table call <:+: (checkReturn table pos (some value)).events := by
  obtain ⟨routine, found⟩ := get?_eq_some_of_lt environment
  unfold checkReturn
  rw [found]
  exact infix_first (infix_check params value covers inside)

mutual

theorem infix_checkStmt (params : table.ParamsInside) (environment : table.currentEnvironment < table.size)
    (s : Stmt) (covers : table.Covers s.symbols) {call : Call} (inside : call ∈ s.calls) :
    callEvents table call <:+: (s.check table).events := by
  match s with
  | .assign p target value =>
    rw [Stmt.symbols, covers_append] at covers
    rw [Stmt.calls, List.mem_append] at inside
    rw [Stmt.check]
    rcases inside with inside | inside
    · exact infix_first (infix_check params target covers.1 inside)
    · refine infix_second ((ends_check params target).mpr covers.1) fun _ => ?_
      exact infix_first (infix_check params value covers.2 inside)
  | .loop p condition body =>
    rw [Stmt.symbols, covers_append] at covers
    rw [Stmt.calls, List.mem_append] at inside
    rw [Stmt.check]
    rcases inside with inside | inside
    · exact infix_first (infix_check params condition covers.1 inside)
    · refine infix_second ((ends_check params condition).mpr covers.1) fun _ => infix_after _ ?_
      exact infix_first (infix_checkBody params environment body covers.2 inside)
  | .branch p condition body elsifs none =>
    rw [Stmt.symbols, covers_append, covers_append] at covers
    obtain ⟨⟨condition_covers, body_covers⟩, elsifs_cover⟩ := covers
    rw [Stmt.calls, List.mem_append, List.mem_append] at inside
    rw [Stmt.check]
    rcases inside with (inside | inside) | inside
    · exact infix_first (infix_check params condition condition_covers inside)
    · refine infix_second ((ends_check params condition).mpr condition_covers) fun _ => ?_
      exact infix_first (infix_checkBody params environment body body_covers inside)
    · refine infix_second ((ends_check params condition).mpr condition_covers) fun _ => ?_
      refine infix_second ((ends_checkBody params environment body).mpr body_covers) fun _ => infix_after _ ?_
      exact infix_first (infix_checkElsifs params environment elsifs elsifs_cover inside)
  | .branch p condition body elsifs (some otherwise) =>
    rw [Stmt.symbols, covers_append, covers_append, covers_append] at covers
    obtain ⟨⟨⟨condition_covers, body_covers⟩, elsifs_cover⟩, otherwise_covers⟩ := covers
    rw [Stmt.calls, List.mem_append, List.mem_append, List.mem_append] at inside
    rw [Stmt.check]
    rcases inside with ((inside | inside) | inside) | inside
    · exact infix_first (infix_check params condition condition_covers inside)
    · refine infix_second ((ends_check params condition).mpr condition_covers) fun _ => ?_
      exact infix_first (infix_checkBody params environment body body_covers inside)
    · refine infix_second ((ends_check params condition).mpr condition_covers) fun _ => ?_
      refine infix_second ((ends_checkBody params environment body).mpr body_covers) fun _ => infix_after _ ?_
      exact infix_first (infix_checkElsifs params environment elsifs elsifs_cover inside)
    · refine infix_second ((ends_check params condition).mpr condition_covers) fun _ => ?_
      refine infix_second ((ends_checkBody params environment body).mpr body_covers) fun _ => infix_after _ ?_
      refine infix_second ((ends_checkElsifs params environment elsifs).mpr elsifs_cover) fun _ => ?_
      exact infix_first (infix_checkBody params environment otherwise otherwise_covers inside)
  | .ret p none => simp [Stmt.calls] at inside
  | .ret p (some value) =>
    rw [Stmt.symbols] at covers
    rw [Stmt.calls] at inside
    rw [Stmt.check]
    exact infix_first (infix_checkReturn params environment p covers inside)
  | .call p callee args =>
    rw [Stmt.symbols, covers_cons] at covers
    rw [Stmt.calls, List.mem_cons] at inside
    rw [Stmt.check, checkCall]
    rcases inside with rfl | inside
    · exact infix_first (infix_second ((ends_checkArgs params args).mpr covers.2) fun _ => List.infix_rfl)
    · exact infix_first (infix_first (infix_checkArgs params args covers.2 inside))
termination_by sizeOf s

theorem infix_checkElsifs (params : table.ParamsInside) (environment : table.currentEnvironment < table.size)
    (es : List Elsif) (covers : table.Covers (elsifSymbols es)) {call : Call} (inside : call ∈ elsifCalls es) :
    callEvents table call <:+: (checkElsifs table es).events := by
  match es with
  | [] => simp [elsifCalls] at inside
  | .clause p condition body :: es =>
    rw [elsifSymbols, Elsif.symbols, covers_append, covers_append] at covers
    obtain ⟨⟨condition_covers, body_covers⟩, others_cover⟩ := covers
    rw [elsifCalls, Elsif.calls, List.mem_append, List.mem_append] at inside
    rw [checkElsifs, Elsif.check]
    rcases inside with (inside | inside) | inside
    · refine infix_second ((ends_checkElsifs params environment es).mpr others_cover) fun _ => infix_first ?_
      refine infix_second ((ends_checkBody params environment body).mpr body_covers) fun _ => ?_
      exact infix_first (infix_check params condition condition_covers inside)
    · refine infix_second ((ends_checkElsifs params environment es).mpr others_cover) fun _ => infix_first ?_
      exact infix_first (infix_checkBody params environment body body_covers inside)
    · exact infix_first (infix_checkElsifs params environment es others_cover inside)
termination_by sizeOf es

theorem infix_checkBody (params : table.ParamsInside) (environment : table.currentEnvironment < table.size)
    (b : List Stmt) (covers : table.Covers (bodySymbols b)) {call : Call} (inside : call ∈ bodyCalls b) :
    callEvents table call <:+: (checkBody table b).events := by
  match b with
  | [] => simp [bodyCalls] at inside
  | s :: b =>
    rw [bodySymbols, covers_append] at covers
    rw [bodyCalls, List.mem_append] at inside
    rw [checkBody]
    rcases inside with inside | inside
    · refine infix_second ((ends_checkBody params environment b).mpr covers.2) fun _ => ?_
      exact infix_first (infix_checkStmt params environment s covers.1 inside)
    · exact infix_first (infix_checkBody params environment b covers.2 inside)
termination_by sizeOf b

end

theorem infix_bodyCheck (params : table.ParamsInside) (environment : table.currentEnvironment < table.size)
    {env : SymbolIndex} (known : env < table.size) (b : Body) (covers : table.Covers (bodySymbols b)) {call : Call}
    (inside : call ∈ bodyCalls b) : callEvents table call <:+: (b.check table env).events := by
  obtain ⟨routine, found⟩ := get?_eq_some_of_lt known
  have checked := infix_checkBody params environment b covers inside
  have ended : callEvents table call <:+: ((checkBody table b).andThen id fun body returns =>
      done body (missingReturn routine body returns) ()).events := infix_first checked
  unfold Body.check
  rw [found]
  -- the begin of the check is noted in front and its end behind
  exact ended.trans ⟨[_], _, rfl⟩

/-! ## Errors of calls -/

/-- What a call adds: conversions, the errors of its arguments as a whole, and a note if they do not fit. -/
theorem callEvents_eq (params : table.ParamsInside) {callee : Reference} {routine : Symbol}
    (found : table.get? callee.value = some routine) (args : List Expr) :
    let formals := routine.params.map table.typeOf
    let types := (checkArgs table args).tree.map Expr.type
    ∃ conversions fits, conversions.filterMap Event.message? = [] ∧
      callEvents table (callee, args) =
        conversions ++ (matchErrors formals.reverse types.reverse).map (.error (some callee.pos)) ++
          (if fits then [] else [.mismatched routine.name callee.pos]) ∧
      (fits = true ↔ List.Forall₂ Takes formals types) := by
  intro formals types
  have covers : table.Covers routine.params.reverse := fun i member =>
    params routine (List.mem_of_getElem? found) i (List.mem_reverse.mp member)
  obtain ⟨conversions, fits, silent, events, result, all_fit⟩ :=
    matches_matchReversed callee.pos routine.params.reverse (checkArgs table args).tree.reverse covers
  rw [List.map_reverse, List.map_reverse] at events all_fit
  refine ⟨conversions, fits, silent, ?_, all_fit.trans List.forall₂_reverse_iff⟩
  have matched : (matchArguments table callee.pos routine.params (checkArgs table args).tree).result = some fits :=
    result
  rw [callEvents, checkCallee, found, events_andThen matched, ← events]
  rfl

/-- A call with a wrong number of arguments is criticised for it just if all pairs of the last ones fit.
Otherwise the last pair that does not fit decides: an integer parameter makes it a discrepancy of types,
and any other is passed over. In all cases the call is noted as one that does not fit. -/
theorem wrong_argument_count_events (params : table.ParamsInside)
    (environment : table.currentEnvironment < table.size) {env : SymbolIndex} (known : env < table.size)
    (b : Body) (covers : table.Covers (bodySymbols b)) {callee : Reference} {args : List Expr}
    (inside : (callee, args) ∈ bodyCalls b) {routine : Symbol} (found : table.get? callee.value = some routine)
    (wrong : args.length ≠ routine.params.length) :
    let formals := routine.params.map table.typeOf
    let types := (checkArgs table args).tree.map Expr.type
    let errors :=
      match (formals.reverse.zip types.reverse).find? fun pair => ¬Takes pair.1 pair.2 with
      | some pair => if pair.1 = integerType then [TypeError.argumentType] else []
      | none => [.argumentCount]
    let own := callEvents table (callee, args)
    own <:+: (b.check table env).events ∧
      own.filterMap Event.message? = errors.map (fun e => ⟨.error, some callee.pos, e.message⟩) ∧
      .mismatched routine.name callee.pos ∈ own := by
  intro formals types errors own
  have lengths : formals.length ≠ types.length := by
    have annotated := (leads_checkArgs table args).1.length_eq
    rw [List.length_map, List.length_map, annotated]
    exact wrong.symm
  have same_errors : matchErrors formals.reverse types.reverse = errors := by
    unfold matchErrors
    simp only [List.length_reverse, if_neg lengths]
    rfl
  obtain ⟨conversions, fits, silent, events, all_fit⟩ := callEvents_eq params found args
  obtain rfl : fits = false := by
    cases fits with
    | false => rfl
    | true => exact absurd (all_fit.mp rfl).length_eq lengths
  have own_events : own = conversions ++ errors.map (.error (some callee.pos)) ++
      [.mismatched routine.name callee.pos] := by
    rw [← same_errors]
    exact events
  refine ⟨infix_bodyCheck params environment known b covers inside, ?_, ?_⟩
  · rw [own_events, List.filterMap_append, List.filterMap_append, silent, List.filterMap_map]
    simp [Event.message?, Function.comp_def, List.filterMap_eq_map']
  · rw [own_events]
    exact List.mem_append_right _ (.head _)

/-- A procedure with one parameter is called without an argument. -/
theorem wrong_argument_count_events_missing :
    let main := SymbolTable.new "main"
    let table := { main with
      symbols := main.symbols ++
        [{ Symbol.plain "p" .procedure voidType with params := [5] }, .plain "a" .parameter integerType] }
    let callee : Reference := ⟨⟨2, 5⟩, 4⟩
    let note : Note := ⟨⟨1, 7⟩, voidType⟩
    let b : Body := [.loop ⟨1, 1⟩ (.integer note 1) [.call ⟨2, 5⟩ callee []]]
    let args : List Expr := []
    let own := callEvents table (callee, args)
    table.ParamsInside ∧ table.currentEnvironment < table.size ∧ table.Covers (bodySymbols b) ∧
      (callee, args) ∈ bodyCalls b ∧ args.length ≠ [5].length ∧ own <:+: (b.check table 3).events ∧
      own.filterMap Event.message? = [⟨.error, some ⟨2, 5⟩, "Invalid number of parameters"⟩] ∧
      .mismatched "p" ⟨2, 5⟩ ∈ own := by
  intro main table callee note b args own
  have params : table.ParamsInside := by decide
  have covers : table.Covers (bodySymbols b) := by decide
  have inside : (callee, args) ∈ bodyCalls b := .head _
  have known : table.get? callee.value = some { Symbol.plain "p" .procedure voidType with params := [5] } := rfl
  obtain ⟨added, messages, noted⟩ :=
    wrong_argument_count_events params (by decide) (by decide : 3 < table.size) b covers inside known (by decide)
  exact ⟨params, by decide, covers, inside, by decide, added, messages, noted⟩

/-- A real parameter that gets what is no number hides that there are too many arguments. -/
theorem wrong_argument_count_not_reported :
    ¬∀ (table : SymbolTable) (env : SymbolIndex) (b : Body) (callee : Reference) (args : List Expr)
      (routine : Symbol), table.ParamsInside → table.currentEnvironment < table.size → env < table.size →
      table.Covers (bodySymbols b) → (callee, args) ∈ bodyCalls b → table.get? callee.value = some routine →
      args.length ≠ routine.params.length →
      ⟨.error, some callee.pos, "Invalid number of parameters"⟩ ∈ (b.check table env).messages := by
  intro reported
  let main := SymbolTable.new "main"
  let table : SymbolTable := { main with
    symbols := main.symbols ++
      [.plain "t" .namedType voidType, .plain "v" .variable 4,
        { Symbol.plain "p" .procedure voidType with params := [7] }, .plain "a" .parameter realType] }
  let callee : Reference := ⟨⟨1, 1⟩, 6⟩
  let args : List Expr := [.name ⟨⟨1, 3⟩, voidType⟩ 5, .name ⟨⟨1, 6⟩, voidType⟩ 5]
  let b : Body := [.call ⟨1, 1⟩ callee args]
  have params : table.ParamsInside := by decide
  have covers : table.Covers (bodySymbols b) := by decide
  have silent : (b.check table 3).messages = [] := by decide +kernel
  have error := reported table 3 b callee args _ params (by decide) (by decide) covers (.head _) rfl (by decide)
  rw [silent] at error
  cases error

end MiniPascal
