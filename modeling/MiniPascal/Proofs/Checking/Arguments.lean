import MiniPascal.Proofs.Checking.Matching

/-!
# How arguments are matched

Matching compares parameters and arguments in pairs from the last ones on, and ends with the first pair that
does not fit or where one of the lists ends. The pairs up to there tell what is found, what is reported and
which arguments are converted.
-/

namespace MiniPascal

open Checked

/-! ## Pairs -/

/-- The type of a parameter and the checked argument for it. -/
structure Pairing where
  formal : SymbolIndex
  arg : Expr

namespace Pairing

/-- The parameter takes the argument. -/
def Fits (p : Pairing) : Prop :=
  Takes p.formal p.arg.type

/-- The parameter is real and the argument is an integer. -/
def Converts (p : Pairing) : Prop :=
  p.formal = realType ∧ p.arg.type = integerType

instance (p : Pairing) : Decidable p.Fits :=
  inferInstanceAs (Decidable (Takes _ _))

instance (p : Pairing) : Decidable p.Converts :=
  inferInstanceAs (Decidable (_ ∧ _))

/-- The argument as the parameter takes it. -/
def passed (p : Pairing) : Expr :=
  if p.Converts then p.arg.widen else p.arg

end Pairing

/-- The pairs in front of the first one that does not fit. -/
def agreeing (pairs : List Pairing) : List Pairing :=
  pairs.takeWhile fun p => p.Fits

/-- What is noted about arguments that are converted. -/
def conversions (pairs : List Pairing) : List Event :=
  (pairs.filter fun p => p.Converts).map fun p => .widened p.arg.pos

/-- What is criticised: the first pair that does not fit, if its parameter is an integer, or else that there
are too many or too few arguments. -/
def pairingErrors (pairs : List Pairing) (complete : Bool) : List TypeError :=
  match pairs.find? fun p => ¬p.Fits with
  | some p => if p.formal = integerType then [.argumentType] else []
  | none => if complete then [] else [.argumentCount]

section Pairs

variable {p : Pairing} {pairs : List Pairing}

theorem agreeing_cons (fits : p.Fits) : agreeing (p :: pairs) = p :: agreeing pairs :=
  List.takeWhile_cons_of_pos (decide_eq_true fits)

theorem agreeing_misfit (misfit : ¬p.Fits) : agreeing (p :: pairs) = [] :=
  List.takeWhile_cons_of_neg (by simpa using misfit)

theorem pairingErrors_cons (fits : p.Fits) (complete : Bool) :
    pairingErrors (p :: pairs) complete = pairingErrors pairs complete := by
  simp [pairingErrors, fits]

theorem pairingErrors_misfit (misfit : ¬p.Fits) (complete : Bool) :
    pairingErrors (p :: pairs) complete = if p.formal = integerType then [.argumentType] else [] := by
  simp [pairingErrors, misfit]

end Pairs

/-- Parameters of the given types and arguments are matched, both from the last one on. -/
def matched (pos : Position) (formals : List SymbolIndex) (args : List Expr) : Checked (List Expr) Bool :=
  let pairs := List.zipWith Pairing.mk formals args
  let complete : Bool := formals.length = args.length
  ⟨(agreeing pairs).map Pairing.passed ++ args.drop (agreeing pairs).length,
    conversions (agreeing pairs) ++ (pairingErrors pairs complete).map (.error (some pos)),
    some (pairs.all (fun p => p.Fits) && complete)⟩

section Matched

variable {pos : Position} {formal : SymbolIndex} {formals : List SymbolIndex} {arg : Expr} {args : List Expr}

theorem matched_cons (fits : Takes formal arg.type) (keeps : ¬(formal = realType ∧ arg.type = integerType)) :
    matched pos (formal :: formals) (arg :: args) =
      ⟨arg :: (matched pos formals args).tree, (matched pos formals args).events,
        (matched pos formals args).result⟩ := by
  have pair_fits : (Pairing.mk formal arg).Fits := fits
  have pair_keeps : ¬(Pairing.mk formal arg).Converts := keeps
  simp [matched, agreeing_cons pair_fits, pairingErrors_cons pair_fits, conversions, Pairing.passed, pair_keeps,
    pair_fits]

theorem matched_widen (converts : formal = realType ∧ arg.type = integerType) :
    matched pos (formal :: formals) (arg :: args) =
      ⟨arg.widen :: (matched pos formals args).tree, .widened arg.pos :: (matched pos formals args).events,
        (matched pos formals args).result⟩ := by
  have pair_fits : (Pairing.mk formal arg).Fits := .inr converts
  have pair_converts : (Pairing.mk formal arg).Converts := converts
  simp [matched, agreeing_cons pair_fits, pairingErrors_cons pair_fits, conversions, Pairing.passed, pair_converts,
    pair_fits]

theorem matched_misfit (misfit : ¬Takes formal arg.type) :
    matched pos (formal :: formals) (arg :: args) =
      done (arg :: args) (if formal = integerType then [.error (some pos) .argumentType] else []) false := by
  have pair_misfit : ¬(Pairing.mk formal arg).Fits := misfit
  simp only [matched, List.zipWith_cons_cons, agreeing_misfit pair_misfit, pairingErrors_misfit pair_misfit,
    List.all_cons, decide_eq_false pair_misfit, Bool.false_and]
  split_ifs <;> rfl

end Matched

/-! ## Matching -/

variable {table : SymbolTable}

theorem matchReversed_eq (pos : Position) (params : List SymbolIndex) (args : List Expr)
    (covers : table.Covers params) :
    matchReversed table pos params args = matched pos (params.map table.typeOf) args := by
  have type {param : SymbolIndex} {symbol : Symbol} (found : table.get? param = some symbol) :
      table.typeOf param = symbol.type := by
    rw [SymbolTable.typeOf, found, Option.map_some, Option.getD_some]
  fun_induction matchReversed table pos params args with
  | case1 => rfl
  | case2 args nonempty =>
    cases args with
    | nil => exact absurd rfl nonempty
    | cons arg args => rfl
  | case3 param params => rfl
  | case4 param params arg args outside =>
    exact absurd (covers_cons.mp covers).1 (not_lt_of_get?_eq_none outside)
  | case5 param params arg args symbol found equal c ih =>
    rw [← type found] at equal
    have keeps : ¬(table.typeOf param = realType ∧ arg.type = integerType) := by
      rintro ⟨real, integer⟩
      rw [real, integer] at equal
      contradiction
    rw [List.map_cons, matched_cons (.inl equal) keeps, ← ih (covers_cons.mp covers).2]
  | case6 param params arg args symbol found different converts c ih =>
    rw [← type found] at converts
    rw [List.map_cons, matched_widen converts, ← ih (covers_cons.mp covers).2]
  | case7 param params arg args symbol found different no_widening integer =>
    rw [← type found] at different no_widening integer
    rw [List.map_cons, matched_misfit (not_or.mpr ⟨different, no_widening⟩), if_pos integer]
  | case8 param params arg args symbol found different no_widening no_integer =>
    rw [← type found] at different no_widening no_integer
    rw [List.map_cons, matched_misfit (not_or.mpr ⟨different, no_widening⟩), if_neg no_integer]

/-- Parameters and arguments fit if their numbers are equal and all pairs fit. The arguments in front of the first
misfit, counted from the end, are converted where an integer stands for a real one, and the others stay. The
first misfit is criticised if its parameter is an integer, and the number of arguments only if there is no
misfit. At last it is noted if the arguments do not fit. -/
theorem argument_matching {callee : Reference} {routine : Symbol} (found : table.get? callee.value = some routine)
    (covers : table.Covers routine.params) (args : List Expr) :
    let pairs := List.zipWith Pairing.mk (routine.params.map table.typeOf).reverse args.reverse
    let fits := (∀ p ∈ pairs, p.Fits) ∧ routine.params.length = args.length
    let c := checkCallee table callee args
    (matchArguments table callee.pos routine.params args).result = some (decide fits) ∧
      c.tree.reverse = (agreeing pairs).map Pairing.passed ++ args.reverse.drop (agreeing pairs).length ∧
      c.events = conversions (agreeing pairs) ++
        (pairingErrors pairs (routine.params.length = args.length)).map (.error (some callee.pos)) ++
        (if fits then [] else [.mismatched routine.name callee.pos]) ∧
      c.result = some routine.type := by
  intro pairs fits c
  have covers_reverse : table.Covers routine.params.reverse := fun i member =>
    covers i (List.mem_reverse.mp member)
  set m := matched callee.pos (routine.params.map table.typeOf).reverse args.reverse with matched_eq
  have matching : matchArguments table callee.pos routine.params args = { m with tree := m.tree.reverse } := by
    rw [matchArguments, matchReversed_eq _ _ _ covers_reverse, List.map_reverse]
  have lengths : (routine.params.map table.typeOf).reverse.length = routine.params.length := by simp
  have result : m.result = some (decide fits) := by
    refine congrArg some (Bool.eq_iff_iff.mpr ?_)
    simp [fits, pairs]
  have events : m.events = conversions (agreeing pairs) ++
      (pairingErrors pairs (routine.params.length = args.length)).map (.error (some callee.pos)) := by
    rw [matched_eq, matched, lengths, List.length_reverse]
  have called : c = ⟨m.tree.reverse, m.events ++ (if fits then [] else [.mismatched routine.name callee.pos]),
      some routine.type⟩ := by
    change checkCallee table callee args = _
    simp only [checkCallee, found, matching, Checked.andThen, result, done, decide_eq_true_eq]
  rw [matching, called, List.reverse_reverse, events]
  exact ⟨result, rfl, rfl, rfl⟩

/-- From the last argument on: an integer for a real parameter is converted, and then a real for an integer
parameter is criticised. The first argument would be converted as well and is not looked at. -/
theorem argument_matching_middle_misfit :
    let main := SymbolTable.new "main"
    let routine : Symbol := { Symbol.plain "p" .procedure voidType with params := [5, 6, 7] }
    let table := { main with
      symbols := main.symbols ++
        [routine, .plain "a" .parameter realType, .plain "b" .parameter integerType,
          .plain "c" .parameter realType] }
    let callee : Reference := ⟨⟨2, 1⟩, 4⟩
    let one : Expr := .integer ⟨⟨2, 3⟩, integerType⟩ 1
    let half : Expr := .real ⟨⟨2, 6⟩, realType⟩ 0.5
    let two : Expr := .integer ⟨⟨2, 11⟩, integerType⟩ 2
    let args : List Expr := [one, half, two]
    let c := checkCallee table callee args
    table.get? callee.value = some routine ∧ table.Covers routine.params ∧
      (matchArguments table callee.pos routine.params args).result = some false ∧
      c.tree.reverse = [two.widen, half, one] ∧
      c.events = [.widened ⟨2, 11⟩, .error (some ⟨2, 1⟩) .argumentType, .mismatched "p" ⟨2, 1⟩] := by
  intro main routine table callee one half two args c
  have found : table.get? callee.value = some routine := rfl
  have covers : table.Covers routine.params := by decide
  obtain ⟨result, tree, events, -⟩ := argument_matching found covers args
  exact ⟨found, covers, result, tree, events⟩

end MiniPascal
