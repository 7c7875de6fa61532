import MiniPascal.Proofs.Scopes.Blocks
import MiniPascal.Symbol.Table

/-!
# Calls on symbol tables

A table is built by calls that declare symbols, enter environments and leave them. `Step` says
what a call does to a table: it appends one symbol and makes its name visible, or opens or closes
one environment, or changes nothing.
-/

namespace MiniPascal

/-! ## Calls and answers -/

inductive TableCall where
  | constant (name : String) (value : Constant)
  | variable (name : String) (type : SymbolIndex)
  | array (name : String) (elementType : SymbolIndex) (size : Nat)
  | namedType (name : String)
  | procedure (name : String)
  | function (name : String) (resultType : SymbolIndex)
  /-- a parameter of a routine, declared in the environment that is open -/
  | parameter (routine : SymbolIndex) (name : String) (type : SymbolIndex)
  | enter (routine : SymbolIndex)
  | leave

inductive TableAnswer where
  | declared (i : SymbolIndex)
  | entered
  | left (routine : SymbolIndex)
  | refused (e : SymbolError)
deriving DecidableEq

namespace TableCall

/-- The symbol that a call declares. -/
def symbol? : TableCall → Option Symbol
  | .constant name value => some { Symbol.plain name .constant value.type with value := some value }
  | .variable name type => some (.plain name .variable type)
  | .array name elementType size =>
    some { Symbol.plain name .array elementType with size := some size }
  | .namedType name => some (.plain name .namedType voidType)
  | .procedure name => some (.plain name .procedure voidType)
  | .function name resultType => some (.plain name .function resultType)
  | .parameter _ name type => some (.plain name .parameter type)
  | .enter _ | .leave => none

/-- The routine that a call declares a parameter of. -/
def owner? : TableCall → Option SymbolIndex
  | .parameter routine _ _ => some routine
  | _ => none

/-- What is refused changes nothing. -/
def settle (t : SymbolTable) (result : Except SymbolError (SymbolTable × TableAnswer)) :
    SymbolTable × TableAnswer :=
  match result with
  | .ok after => after
  | .error e => (t, .refused e)

def declared (result : Except SymbolError (SymbolTable × SymbolIndex)) :
    Except SymbolError (SymbolTable × TableAnswer) :=
  result.map fun (t, i) => (t, .declared i)

def apply (t : SymbolTable) : TableCall → SymbolTable × TableAnswer
  | .constant name value => settle t (declared (t.declareConstant name value))
  | .variable name type => settle t (declared (t.declareVariable name type))
  | .array name elementType size => settle t (declared (t.declareArray name elementType size))
  | .namedType name => settle t (declared (t.declareType name))
  | .procedure name => settle t (declared (t.declareProcedure name))
  | .function name resultType => settle t (declared (t.declareFunction name resultType))
  | .parameter routine name type => settle t (declared (t.declareParameter routine name type))
  | .enter routine => settle t ((t.enterEnvironment routine).map fun t => (t, .entered))
  | .leave => settle t (t.leaveEnvironment.map fun (t, routine) => (t, .left routine))

end TableCall

/-- Calls with their answers, the first one first. -/
abbrev History := List (TableCall × TableAnswer)

namespace SymbolTable

/-- Makes one call after the other. Yields the table afterwards and the history. -/
def runCalls (t : SymbolTable) : List TableCall → SymbolTable × History
  | [] => (t, [])
  | c :: cs =>
    let (next, answer) := c.apply t
    let (final, history) := runCalls next cs
    (final, (c, answer) :: history)

/-! ## Steps -/

/-- Adds a parameter to those of a routine, if there is one to add it to. -/
def credit (t : SymbolTable) (owner : Option SymbolIndex) (param : SymbolIndex) : SymbolTable :=
  match owner with
  | none => t
  | some routine => t.addParam routine param

/-- What a call needs in order not to be refused: a name that the innermost block does not declare
yet and a routine for a parameter, a symbol to enter, an environment and its block to leave. -/
def Admits (t : SymbolTable) (c : TableCall) : Prop :=
  match c with
  | .enter routine => t.contains routine
  | .leave => ∃ routine environments names, t.environments = routine :: environments ∧ t.names.leave? = some names
  | _ => ∃ s names, c.symbol? = some s ∧ t.names.define? s.name t.size = some names ∧
    ∀ routine, c.owner? = some routine → ∃ owner, t.get? routine = some owner ∧ owner.kind.isRoutine

/-- All that a call can do to a table. -/
inductive Step (t : SymbolTable) : TableCall → SymbolTable × TableAnswer → Prop
  | refused {c} (e) : ¬t.Admits c → Step t c (t, .refused e)
  | declared {c s names} : c.symbol? = some s →
    (∀ routine, c.owner? = some routine → ∃ owner, t.get? routine = some owner ∧ owner.kind.isRoutine) →
    t.names.define? s.name t.size = some names →
    Step t c (credit { t with symbols := t.symbols ++ [s], names } c.owner? t.size, .declared t.size)
  | entered (routine) : t.contains routine → Step t (.enter routine) (t.openEnvironment routine, .entered)
  | left {routine environments names} : t.environments = routine :: environments →
    t.names.leave? = some names → Step t .leave ({ t with environments, names }, .left routine)

theorem admits_iff_of_symbol? {t : SymbolTable} {c : TableCall} {s : Symbol} (symbol : c.symbol? = some s) :
    t.Admits c ↔ (∃ names, t.names.define? s.name t.size = some names) ∧
      ∀ routine, c.owner? = some routine → ∃ owner, t.get? routine = some owner ∧ owner.kind.isRoutine := by
  cases c with
  | enter | leave => contradiction
  | _ =>
    constructor
    · rintro ⟨s', names, symbol', defined, owners⟩
      obtain rfl := Option.some.inj (symbol.symm.trans symbol')
      exact ⟨⟨names, defined⟩, owners⟩
    · rintro ⟨⟨names, defined⟩, owners⟩
      exact ⟨s, names, symbol, defined, owners⟩

theorem step_declare {t : SymbolTable} {c : TableCall} {s : Symbol} (symbol : c.symbol? = some s)
    (owner : c.owner? = none) : Step t c (TableCall.settle t (TableCall.declared (t.declare s))) := by
  cases defined : t.names.define? s.name t.size with
  | none =>
    simp only [declare, defined]
    exact .refused _ fun admits => by simpa [defined] using ((admits_iff_of_symbol? symbol).mp admits).1
  | some names =>
    have step := Step.declared symbol (fun routine known => by simp [owner] at known) defined
    rw [owner] at step
    simp only [declare, defined]
    exact step

theorem step_declareParameter (t : SymbolTable) (routine : SymbolIndex) (name : String) (type : SymbolIndex) :
    Step t (.parameter routine name type)
      (TableCall.settle t (TableCall.declared (t.declareParameter routine name type))) := by
  have admits_iff := admits_iff_of_symbol? (t := t) (c := .parameter routine name type) rfl
  cases found : t.get? routine with
  | none =>
    simp only [declareParameter, found]
    refine .refused _ fun admits => ?_
    obtain ⟨owner, known, -⟩ := (admits_iff.mp admits).2 routine rfl
    simp [found] at known
  | some owner =>
    by_cases isRoutine : owner.kind.isRoutine
    · cases defined : t.names.define? name t.size with
      | none =>
        have declared : t.declare (.plain name .parameter type) = .error (.redefinition .parameter name) := by
          simp only [declare, Symbol.plain, defined]
        simp only [declareParameter, found, isRoutine, if_true, declared]
        exact .refused _ fun admits => by simpa [Symbol.plain, defined] using (admits_iff.mp admits).1
      | some names =>
        have declared : t.declare (.plain name .parameter type) =
            .ok ({ t with symbols := t.symbols ++ [.plain name .parameter type], names }, t.size) := by
          simp only [declare, Symbol.plain, defined]
        simp only [declareParameter, found, isRoutine, if_true, declared]
        exact .declared (c := .parameter routine name type) rfl
          (fun _ known => by cases known; exact ⟨owner, found, isRoutine⟩) defined
    · simp only [declareParameter, found, isRoutine]
      refine .refused _ fun admits => ?_
      obtain ⟨owner', known, isRoutine'⟩ := (admits_iff.mp admits).2 routine rfl
      obtain rfl := Option.some.inj (found.symm.trans known)
      exact isRoutine isRoutine'

theorem step_enter (t : SymbolTable) (routine : SymbolIndex) :
    Step t (.enter routine) (TableCall.apply t (.enter routine)) := by
  by_cases inside : t.contains routine
  · simp only [TableCall.apply, enterEnvironment, inside, if_true]
    exact .entered routine inside
  · simp only [TableCall.apply, enterEnvironment, inside]
    exact .refused _ inside

theorem step_leave (t : SymbolTable) : Step t .leave (TableCall.apply t .leave) := by
  cases environments : t.environments with
  | nil =>
    simp only [TableCall.apply, leaveEnvironment, environments]
    exact .refused _ fun admits => by simp [Admits, environments] at admits
  | cons routine outer =>
    cases left : t.names.leave? with
    | none =>
      simp only [TableCall.apply, leaveEnvironment, environments, left]
      exact .refused _ fun admits => by simp [Admits, left] at admits
    | some names =>
      simp only [TableCall.apply, leaveEnvironment, environments, left]
      exact .left environments left

theorem step_apply (t : SymbolTable) (c : TableCall) : Step t c (c.apply t) := by
  cases c with
  | parameter routine name type => exact step_declareParameter t routine name type
  | enter routine => exact step_enter t routine
  | leave => exact step_leave t
  | _ => exact step_declare rfl rfl

end SymbolTable

end MiniPascal
