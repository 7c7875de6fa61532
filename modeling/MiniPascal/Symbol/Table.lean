import MiniPascal.Scopes
import MiniPascal.Symbol.Basic

/-!
# Symbol tables

A table grows at its end only, so an index stays good once it was given out. Declarations
go into the scope of the environment that is currently open; outside of all environments
that is the scope of the program, which also holds the names of the builtin types.
-/

namespace MiniPascal

/-! ## Errors -/

/-- Why a table refuses an operation or is not sound. -/
inductive SymbolError where
  | redefinition (kind : SymbolKind) (name : String)
  | notARoutine (kind : SymbolKind) (name : String)
  | cannotLeaveProgram
  | missingBuiltin (index : SymbolIndex) (name : String)
  | danglingIndex (name : String) (index : SymbolIndex)
  /-- an index outside of the table was followed -/
  | noSuchSymbol
deriving DecidableEq

namespace SymbolError

def message : SymbolError → String
  | redefinition kind name => "redefinition of " ++ kind.text ++ " '" ++ name ++ "'"
  | notARoutine kind name =>
    "'" ++ name ++ "' is a " ++ kind.text ++ ", not a procedure or function"
  | cannotLeaveProgram => "cannot leave the global environment"
  | missingBuiltin index name =>
    "symbol " ++ index.text ++ " must be the builtin type '" ++ name ++ "'"
  | danglingIndex name index =>
    "symbol '" ++ name ++ "' refers to unknown symbol " ++ index.text
  | noSuchSymbol => "symbol indices always point into the table"

end SymbolError

/-! ## Tables -/

structure SymbolTable where
  symbols : List Symbol
  /-- the symbol of the main program -/
  program : SymbolIndex
  /-- the routines whose environments are open, innermost first -/
  environments : List SymbolIndex
  names : Scopes SymbolIndex

namespace SymbolTable

def size (t : SymbolTable) : Nat :=
  t.symbols.length

def get? (t : SymbolTable) (i : SymbolIndex) : Option Symbol :=
  t.symbols[i]?

def contains (t : SymbolTable) (i : SymbolIndex) : Bool :=
  i < t.size

/-- The innermost visible symbol of a name. -/
def lookup? (t : SymbolTable) (name : String) : Option SymbolIndex :=
  t.names.lookup? name

/-- A type in messages: its name, or the bare index if that names no type. -/
def typeName (t : SymbolTable) (i : SymbolIndex) : String :=
  match t.get? i with
  | some s => if s.kind = .namedType then s.name else i.text
  | none => i.text

/-- The routine whose body is being looked at; the program if none was entered. -/
def currentEnvironment (t : SymbolTable) : SymbolIndex :=
  t.environments.headD t.program

/-! ## Declarations -/

/-- Appends a symbol and makes its name visible. Yields the index of the symbol. -/
def declare (t : SymbolTable) (s : Symbol) : Except SymbolError (SymbolTable × SymbolIndex) :=
  match t.names.define? s.name t.size with
  | none => .error (.redefinition s.kind s.name)
  | some names => .ok ({ t with symbols := t.symbols ++ [s], names }, t.size)

def declareConstant (t : SymbolTable) (name : String) (value : Constant) :
    Except SymbolError (SymbolTable × SymbolIndex) :=
  t.declare { Symbol.plain name .constant value.type with value := some value }

def declareVariable (t : SymbolTable) (name : String) (type : SymbolIndex) :
    Except SymbolError (SymbolTable × SymbolIndex) :=
  t.declare (.plain name .variable type)

def declareArray (t : SymbolTable) (name : String) (elementType : SymbolIndex) (size : Nat) :
    Except SymbolError (SymbolTable × SymbolIndex) :=
  t.declare { Symbol.plain name .array elementType with size := some size }

def declareType (t : SymbolTable) (name : String) :
    Except SymbolError (SymbolTable × SymbolIndex) :=
  t.declare (.plain name .namedType voidType)

def declareProcedure (t : SymbolTable) (name : String) :
    Except SymbolError (SymbolTable × SymbolIndex) :=
  t.declare (.plain name .procedure voidType)

def declareFunction (t : SymbolTable) (name : String) (resultType : SymbolIndex) :
    Except SymbolError (SymbolTable × SymbolIndex) :=
  t.declare (.plain name .function resultType)

def addParam (t : SymbolTable) (routine param : SymbolIndex) : SymbolTable :=
  { t with symbols := t.symbols.modify routine fun s => { s with params := s.params ++ [param] } }

/-- Declares a parameter in the open environment and adds it to those of `routine`. -/
def declareParameter (t : SymbolTable) (routine : SymbolIndex) (name : String)
    (type : SymbolIndex) : Except SymbolError (SymbolTable × SymbolIndex) :=
  match t.get? routine with
  | none => .error .noSuchSymbol
  | some owner =>
    if owner.kind.isRoutine then do
      let (t, param) ← t.declare (.plain name .parameter type)
      return (t.addParam routine param, param)
    else .error (.notARoutine owner.kind owner.name)

/-! ## Environments -/

def openEnvironment (t : SymbolTable) (routine : SymbolIndex) : SymbolTable :=
  { t with environments := routine :: t.environments, names := t.names.enter }

/-- Opens the environment of a symbol, which must be one of the table. -/
def enterEnvironment (t : SymbolTable) (routine : SymbolIndex) :
    Except SymbolError SymbolTable :=
  if t.contains routine then .ok (t.openEnvironment routine) else .error .noSuchSymbol

/-- Closes the innermost environment. Yields its routine. -/
def leaveEnvironment (t : SymbolTable) : Except SymbolError (SymbolTable × SymbolIndex) :=
  match t.environments, t.names.leave? with
  | routine :: environments, some names => .ok ({ t with environments, names }, routine)
  | _, _ => .error .cannotLeaveProgram

/-! ## New tables -/

/-- Declares the builtin types. Their names differ, so none is refused. -/
def declareBuiltins (t : SymbolTable) : SymbolTable :=
  builtinTypes.foldl
    (fun t name => match t.declareType name with
      | .ok (t, _) => t
      | .error _ => t)
    t

/-- The table of a program without declarations. The program has a symbol, which no name
leads to. -/
def new (programName : String) : SymbolTable :=
  let t := declareBuiltins ⟨[], voidType, [], .empty⟩
  { t with
    symbols := t.symbols ++ [.plain programName .procedure voidType]
    program := t.size }

/-! ## Soundness -/

def validateBuiltins (t : SymbolTable) : Except SymbolError Unit :=
  builtinTypes.zipIdx.forM fun (name, i) =>
    match t.get? i with
    | some s =>
      if s.kind = .namedType ∧ s.name = name then .ok ()
      else .error (.missingBuiltin i name)
    | none => .error (.missingBuiltin i name)

def validateProgram (t : SymbolTable) : Except SymbolError Unit :=
  match t.get? t.program with
  | some s =>
    if s.kind.isRoutine then .ok () else .error (.danglingIndex "<program>" t.program)
  | none => .error (.danglingIndex "<program>" t.program)

/-- The first index outside of the table that a symbol refers to. -/
def dangling? (t : SymbolTable) (s : Symbol) : Option SymbolIndex :=
  (s.params ++ [s.type]).find? fun i => !t.contains i

def validateSymbols (t : SymbolTable) : Except SymbolError Unit :=
  t.symbols.forM fun s =>
    match t.dangling? s with
    | some i => .error (.danglingIndex s.name i)
    | none => .ok ()

/-- Whether a table that was not built by declarations is sound. -/
def validate (t : SymbolTable) : Except SymbolError Unit := do
  t.validateBuiltins
  t.validateProgram
  t.validateSymbols

/-! ## Documents -/

def toJson (t : SymbolTable) : Json :=
  .record [
    ("symbols", .array (t.symbols.map Symbol.toJson)),
    ("program", .ofNat t.program)]

/-- A decoded table has neither visible names nor open environments. -/
def decoder : Decoder SymbolTable :=
  Decoder.record ["symbols", "program"] fun fields n => do
    let symbols ← Decoder.required (Decoder.list Symbol.decoder) "symbols" fields n
    let program ← Decoder.required SymbolIndex.decoder "program" fields n
    return ⟨symbols, program, [], .empty⟩

end SymbolTable

end MiniPascal
