import MiniPascal.Symbol.Table
import MiniPascal.Syntax.Document
import MiniPascal.Syntax.Symbols

/-!
# Programs

A program is a symbol table and the bodies of its routines in source order. The statements
of the program itself are the body of the routine that the table names as the program.
-/

namespace MiniPascal

structure Routine where
  env : SymbolIndex
  body : Body

structure Program where
  table : SymbolTable
  routines : List Routine

inductive ProgramError where
  | table (error : SymbolError)
  | notARoutine (env : SymbolIndex)
  | unknownEnvironment (env : SymbolIndex)
  | danglingReference (env symbol : SymbolIndex)
deriving DecidableEq

namespace ProgramError

def message : ProgramError → String
  | table e => e.message
  | notARoutine env => "routine environment " ++ env.text ++ " is not a procedure or function"
  | unknownEnvironment env => "routine environment " ++ env.text ++ " does not exist"
  | danglingReference env symbol =>
    "body of routine " ++ env.text ++ " refers to unknown symbol " ++ symbol.text

end ProgramError

/-- Why a text holds no sound program. -/
inductive LoadError where
  /-- the text is no document, or one of something else -/
  | malformed
  | invalid (error : ProgramError)
deriving DecidableEq

/-! ## Soundness -/

/-- A routine must be one of the table, and its body must refer to symbols of the table. -/
def Routine.validate (table : SymbolTable) (r : Routine) : Except ProgramError Unit :=
  match table.get? r.env with
  | none => .error (.unknownEnvironment r.env)
  | some s =>
    if s.kind.isRoutine then
      match (bodySymbols r.body).find? fun i => !table.contains i with
      | some i => .error (.danglingReference r.env i)
      | none => .ok ()
    else .error (.notARoutine r.env)

namespace Program

def new (table : SymbolTable) : Program := ⟨table, []⟩

def addRoutine (p : Program) (env : SymbolIndex) (body : Body) : Program :=
  { p with routines := p.routines ++ [⟨env, body⟩] }

/-- Whether the table is sound and all indices in routines are good. -/
def validate (p : Program) : Except ProgramError Unit := do
  p.table.validate.mapError .table
  p.routines.forM (Routine.validate p.table)

end Program

/-! ## Documents -/

namespace Routine

def toJson (r : Routine) : Json :=
  .record [("env", .ofNat r.env), ("body", r.body.toJson)]

def decoder : Decoder Routine :=
  Decoder.record ["env", "body"] fun fields n => do
    let env ← Decoder.required SymbolIndex.decoder "env" fields n
    let body ← Decoder.defaulted Body.decoder [] "body" fields n
    return ⟨env, body⟩

end Routine

namespace Program

def toJson (p : Program) : Json :=
  .record [("symtab", p.table.toJson), ("routines", .array (p.routines.map Routine.toJson))]

def decoder : Decoder Program :=
  Decoder.record ["symtab", "routines"] fun fields n => do
    let table ← Decoder.required SymbolTable.decoder "symtab" fields n
    let routines ← Decoder.required (Decoder.list Routine.decoder) "routines" fields n
    return ⟨table, routines⟩

/-- Reads a program and checks that it is sound. -/
def load (s : String) : Except LoadError Program :=
  match Json.decode? decoder s with
  | none => .error .malformed
  | some p => do
    p.validate.mapError .invalid
    return p

end Program

end MiniPascal
