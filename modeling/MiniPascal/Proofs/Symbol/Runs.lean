import MiniPascal.Proofs.Symbol.Histories

/-!
# Symbol tables over whole runs

Whatever is called on a new symbol table, and whatever is refused on the way, its symbols, its open
environments and its visible names agree with the calls that were answered. The run lemmas follow
from what one call does, which is said by `Step`.
-/

namespace MiniPascal

namespace SymbolTable

variable {t : SymbolTable}

/-! ## New tables -/

/-- None of the builtin types is refused, and the program is not declared under its name. -/
theorem define?_new (programName : String) :
    ∃ one two, Scopes.empty.define? "void" voidType = some one ∧
      one.define? "integer" integerType = some two ∧
      two.define? "real" realType = some (new programName).names :=
  ⟨_, _, rfl, rfl, rfl⟩

theorem names_new (programName : String) : (new programName).names.Means (History.names []) := by
  obtain ⟨one, two, void, integer, real⟩ := define?_new programName
  have means := ((Scopes.means_empty.of_define? void).of_define? integer).of_define? real
  have builtins : History.names [] = ⟨Function.update (Function.update (Function.update (fun _ => none)
      "void" (some voidType)) "integer" (some integerType)) "real" (some realType), []⟩ := by
    refine congrArg (BlockStack.mk · []) (funext fun name => ?_)
    simp only [builtinTypes, List.idxOf?_cons, Function.update_apply, beq_iff_eq]
    by_cases void : name = "void"
    · simp [void]
    · by_cases integer : name = "integer"
      · simp [integer]
      · by_cases real : name = "real"
        · simp [real]
        · simp [void, integer, real, Ne.symm void, Ne.symm integer, Ne.symm real]
  rw [builtins]
  exact means

theorem follows_new (programName : String) : (new programName).Follows [] := by
  have plain {i : SymbolIndex} {s : Symbol} (found : (new programName).get? i = some s) :
      s.params = [] ∧ s.kind ≠ .parameter := by
    have member : s ∈ builtinTypes.map (fun name => Symbol.plain name .namedType voidType) ++
        [.plain programName .procedure voidType] := List.mem_of_getElem? found
    rcases List.mem_append.mp member with builtin | program
    · obtain ⟨name, -, rfl⟩ := List.mem_map.mp builtin
      simp [Symbol.plain]
    · obtain rfl := List.mem_singleton.mp program
      simp [Symbol.plain]
  exact {
    names := names_new programName
    environments := rfl
    depth := rfl
    params := fun i s found => (plain found).1
    owned := fun i s found kind => absurd kind (plain found).2
    owners := by simp
    bounded := by simp
    unique := by simp }

/-! ## Runs -/

theorem Follows.runCalls {h : History} (follows : t.Follows h) (calls : List TableCall) :
    (t.runCalls calls).1.Follows (h ++ (t.runCalls calls).2) := by
  induction calls generalizing t h with
  | nil => simpa [SymbolTable.runCalls] using follows
  | cons c calls ih =>
    have next := ih (follows.step (step_apply t c))
    rw [List.append_assoc] at next
    exact next

theorem Step.program {c : TableCall} {after : SymbolTable × TableAnswer} (step : t.Step c after) :
    after.1.program = t.program := by
  cases step with
  | @declared c s names =>
    cases owner : c.owner? <;> rfl
  | _ => rfl

theorem program_runCalls (t : SymbolTable) (calls : List TableCall) :
    (t.runCalls calls).1.program = t.program := by
  induction calls generalizing t with
  | nil => rfl
  | cons c calls ih => exact (ih _).trans (step_apply t c).program

theorem Step.grows {c : TableCall} {after : SymbolTable × TableAnswer} (step : t.Step c after)
    {i : SymbolIndex} {s : Symbol} (found : t.get? i = some s) :
    ∃ s', after.1.get? i = some s' ∧ s.Grows s' := by
  cases step with
  | declared symbol owners defined =>
    refine ⟨_, get?_afterDeclared found, ?_⟩
    split_ifs
    · exact ⟨rfl, rfl, rfl, rfl, rfl, List.prefix_append _ _⟩
    · exact .refl s
  | _ => exact ⟨s, found, .refl s⟩

theorem grows_runCalls (calls : List TableCall) {i : SymbolIndex} {s : Symbol} (found : t.get? i = some s) :
    ∃ s', (t.runCalls calls).1.get? i = some s' ∧ s.Grows s' := by
  induction calls generalizing t s with
  | nil => exact ⟨s, found, .refl s⟩
  | cons c calls ih =>
    obtain ⟨next, next_found, first⟩ := (step_apply t c).grows found
    obtain ⟨last, last_found, others⟩ := ih next_found
    exact ⟨last, last_found, first.trans others⟩

/-! ## Single calls -/

/-- An answer that declares a symbol tells the number of symbols before. -/
theorem Step.declares {c : TableCall} {after : SymbolTable × TableAnswer} (step : t.Step c after)
    {i : SymbolIndex} (answer : after.2 = .declared i) :
    i = t.size ∧ after.1.size = t.size + 1 ∧ after.1.get? i = c.symbol? := by
  cases step with
  | declared symbol owners defined =>
    cases answer
    refine ⟨rfl, ?_, ?_⟩
    · rw [size_credit]
      simp [size]
    · rw [get?_afterDeclared_size owners, symbol]
  | _ => contradiction

theorem Step.refuses {c : TableCall} {after : SymbolTable × TableAnswer} (step : t.Step c after)
    {e : SymbolError} (answer : after.2 = .refused e) : after.1 = t := by
  cases step with
  | refused => rfl
  | _ => contradiction

theorem Step.admits_iff {c : TableCall} {after : SymbolTable × TableAnswer} (step : t.Step c after) :
    t.Admits c ↔ ¬∃ e, after.2 = .refused e := by
  cases step with
  | refused e refused => exact iff_of_false refused (by simp)
  | declared symbol owners defined =>
    exact iff_of_true ((admits_iff_of_symbol? symbol).mpr ⟨⟨_, defined⟩, owners⟩) (by simp)
  | entered routine inside => exact iff_of_true inside (by simp)
  | left environments left => exact iff_of_true ⟨_, _, _, environments, left⟩ (by simp)

theorem enter_of_contains {routine : SymbolIndex} (inside : t.contains routine) :
    (TableCall.apply t (.enter routine)).2 = .entered := by
  simp only [TableCall.apply, enterEnvironment, inside, if_true]
  rfl

/-- A symbol is declared unless the innermost environment has its name or it is a parameter of what
is no routine. -/
theorem Follows.declares_iff {h : History} (follows : t.Follows h) {c : TableCall} {s : Symbol}
    (symbol : c.symbol? = some s) :
    (∃ i, (c.apply t).2 = .declared i) ↔ h.names.innermost s.name = none ∧
      ∀ routine, c.owner? = some routine → ∃ owner, t.get? routine = some owner ∧ owner.kind.isRoutine := by
  have fresh : (∃ names, t.names.define? s.name t.size = some names) ↔ h.names.innermost s.name = none := by
    have taken := follows.names.define?_eq_none_iff s.name t.size
    rw [← Option.ne_none_iff_exists', ne_eq, taken, Option.not_isSome_iff_eq_none]
  rw [← fresh, ← admits_iff_of_symbol? symbol, (step_apply t c).admits_iff]
  have step := step_apply t c
  generalize c.apply t = after at step ⊢
  cases step with
  | refused e _ => simp
  | declared => simp
  | entered | left => contradiction

/-- Leaves the innermost environment in two steps: its routine is taken off first, and stays off
if there is no block to close. -/
def leaveInSteps (t : SymbolTable) : SymbolTable × TableAnswer :=
  match t.environments with
  | [] => (t, .refused .cannotLeaveProgram)
  | routine :: environments =>
    let popped := { t with environments }
    match popped.names.leave? with
    | none => (popped, .refused .cannotLeaveProgram)
    | some names => ({ popped with names }, .left routine)

/-- An open environment has a block to close. -/
theorem Follows.closes {h : History} (follows : t.Follows h) {routine : SymbolIndex}
    {environments : List SymbolIndex} (opened : t.environments = routine :: environments) :
    ∃ names, t.names.leave? = some names := by
  cases left : t.names.leave? with
  | some names => exact ⟨names, rfl⟩
  | none =>
    have depth := follows.depth
    rw [follows.names.leave?_eq_none_iff.mp left, ← follows.environments, opened] at depth
    contradiction

theorem Follows.leave {h : History} (follows : t.Follows h) :
    t.leaveInSteps = TableCall.leave.apply t ∧
      ((∃ e, (TableCall.leave.apply t).2 = .refused e) ↔ h.openRoutines = []) := by
  rw [← follows.environments]
  cases opened : t.environments with
  | nil => simp [leaveInSteps, TableCall.apply, leaveEnvironment, TableCall.settle, Except.map, opened]
  | cons routine environments =>
    obtain ⟨names, left⟩ := follows.closes opened
    simp [leaveInSteps, TableCall.apply, leaveEnvironment, TableCall.settle, Except.map, opened, left]

/-- A parameter belongs to the routine that it was declared for and to no other one. -/
theorem Follows.owner {h : History} (follows : t.Follows h) {i : SymbolIndex} {s : Symbol}
    (found : t.get? i = some s) (kind : s.kind = .parameter) :
    ∃ routine owner, t.get? routine = some owner ∧ owner.kind.isRoutine ∧ i ∈ owner.params ∧
      ∀ other s', t.get? other = some s' → i ∈ s'.params → other = routine := by
  obtain ⟨c, routine, declared, owner_eq⟩ := follows.owned i s found kind
  obtain ⟨owner, owner_found, isRoutine⟩ := follows.owners c i routine declared owner_eq
  refine ⟨routine, owner, owner_found, isRoutine, ?_, ?_⟩
  · rw [follows.params routine owner owner_found]
    exact History.mem_params.mpr ⟨c, declared, owner_eq⟩
  · intro other s' other_found member
    rw [follows.params other s' other_found] at member
    obtain ⟨c', declared', owner_eq'⟩ := History.mem_params.mp member
    obtain rfl := follows.unique c c' i declared declared'
    exact Option.some.inj (owner_eq'.symm.trans owner_eq)

/-! ## The account -/

/-- What is true of a table that was reached by calls, given their history. -/
structure Accounts (programName : String) (h : History) (t : SymbolTable) : Prop where
  declares : ∀ c i, (TableCall.apply t c).2 = .declared i →
    i = t.size ∧ (c.apply t).1.size = t.size + 1 ∧ (c.apply t).1.get? i = c.symbol?
  refuses : ∀ c e, (TableCall.apply t c).2 = .refused e → (c.apply t).1 = t
  accepts : ∀ c s, TableCall.symbol? c = some s → ((∃ i, (c.apply t).2 = .declared i) ↔
    h.names.innermost s.name = none ∧
      ∀ routine, c.owner? = some routine → ∃ owner, t.get? routine = some owner ∧ owner.kind.isRoutine)
  enters : ∀ routine, t.contains routine → (TableCall.apply t (.enter routine)).2 = .entered
  leaves : (∃ e, (TableCall.leave.apply t).2 = .refused e) ↔ h.openRoutines = []
  /-- no routine is taken off without its block -/
  leaves_in_steps : t.leaveInSteps = TableCall.leave.apply t
  /-- calls leave the symbols that there are as they are, but for further parameters -/
  grows : ∀ calls i s, t.get? i = some s → ∃ s', (t.runCalls calls).1.get? i = some s' ∧ s.Grows s'
  params : ∀ i s, t.get? i = some s → s.params = h.params i
  owner : ∀ i s, t.get? i = some s → s.kind = .parameter →
    ∃ routine owner, t.get? routine = some owner ∧ owner.kind.isRoutine ∧ i ∈ owner.params ∧
      ∀ other s', t.get? other = some s' → i ∈ s'.params → other = routine
  environment : t.currentEnvironment = h.openRoutines.headD (new programName).program
  lookup : ∀ name, t.lookup? name = h.names.lookup? name

/-- Symbols, environments and names stay in step over every run from a new table. -/
theorem reached_tables_account (programName : String) (calls : List TableCall) :
    Accounts programName ((new programName).runCalls calls).2 ((new programName).runCalls calls).1 := by
  have follows := (follows_new programName).runCalls calls
  rw [List.nil_append] at follows
  exact {
    declares := fun c i => (step_apply _ c).declares
    refuses := fun c e => (step_apply _ c).refuses
    accepts := fun c s => follows.declares_iff
    enters := fun routine => enter_of_contains
    leaves := follows.leave.2
    leaves_in_steps := follows.leave.1
    grows := fun calls i s => grows_runCalls calls
    params := follows.params
    owner := fun i s => follows.owner
    environment := by rw [currentEnvironment, follows.environments, program_runCalls]
    lookup := follows.names.lookup? }

/-- A routine whose name is shadowed in its own environment is refused a second parameter of the
same name, and its name is visible again afterwards. -/
theorem reached_tables_account_shadowed_routine :
    let calls : List TableCall :=
      [.function "f" integerType, .enter 4, .parameter 4 "x" realType, .parameter 4 "x" integerType,
        .variable "f" integerType, .leave, .leave]
    let answers : List TableAnswer :=
      [.declared 4, .entered, .declared 5, .refused (.redefinition .parameter "x"), .declared 6, .left 4,
        .refused .cannotLeaveProgram]
    let run := (new "main").runCalls calls
    run.2 = calls.zip answers ∧ Accounts "main" (calls.zip answers) run.1 ∧
      run.1.lookup? "f" = some 4 ∧ History.params (calls.zip answers) 4 = [5] := by
  intro calls answers run
  have history : run.2 = calls.zip answers := rfl
  have account : Accounts "main" run.2 run.1 := reached_tables_account "main" calls
  rw [history] at account
  exact ⟨history, account, rfl, rfl⟩

end SymbolTable

end MiniPascal
