import MiniPascal.Checking.Body
import MiniPascal.Optimization.Level
import MiniPascal.Program
import MiniPascal.Syntax.Printer

/-!
# Compiling programs

Compiling checks one routine after the other, each in its own environment. As long as there
was no error, the passes of a level run over each body right after it was checked. Bodies
may be dumped as they are after checking and after the passes. At the end a line sums up
what was reported.
-/

namespace MiniPascal

/-! ## Settings -/

inductive Phase where
  | semantics
  | optimization
deriving DecidableEq

namespace Phase

def name : Phase → String
  | semantics => "semantics"
  | optimization => "optimization"

def ofName? : String → Option Phase
  | "semantics" => some semantics
  | "optimization" => some optimization
  | _ => none

end Phase

/-- What is said about a name that is no phase and no pass. -/
def noMatchingName : String := "Matching variant not found"

structure Settings where
  /-- the last phase that is run -/
  stopAfter : Phase
  level : Level
  /-- whether bodies are dumped before and after the passes -/
  dump : Bool
deriving DecidableEq

/-- Everything is run, and nothing is dumped. -/
def Settings.default : Settings := ⟨.optimization, .default, false⟩

/-! ## Results -/

inductive CompileError where
  | typeErrors (count : Nat)
  /-- a program that is not sound, or an environment that cannot be left -/
  | symbols (error : SymbolError)
deriving DecidableEq

namespace CompileError

def message : CompileError → String
  | typeErrors count =>
    "compilation aborted due to " ++ toString count ++ " type error(s)"
  | symbols e => e.message

end CompileError

/-- The state of a run: what was reported, and what was written where. -/
structure Run where
  diagnostics : Diagnostics
  /-- the messages as they were written -/
  errorText : String
  /-- the dumps of bodies -/
  dumpText : String
  log : List LogEntry

namespace Run

def start (terminal : Terminal) : Run := ⟨.new terminal, "", "", []⟩

def emit (r : Run) (ms : List Message) : Run :=
  let (diagnostics, text) := r.diagnostics.emitAll ms
  { r with diagnostics, errorText := r.errorText ++ text }

def note (r : Run) (entries : List LogEntry) : Run :=
  { r with log := r.log ++ entries }

def print (r : Run) (text : String) : Run :=
  { r with dumpText := r.dumpText ++ text }

end Run

/-- A program after compiling, the run, and whether it succeeded. -/
structure Compilation where
  program : Program
  run : Run
  result : Except CompileError Unit

/-! ## Routines -/

/-- Dumps a body under a heading, if bodies are dumped at all. -/
def dumpBody (settings : Settings) (table : SymbolTable) (heading name : String) (body : Body)
    (run : Run) : Except SymbolError Run :=
  if settings.dump then
    match body.text? table with
    | some text =>
      .ok (run.print ("\n" ++ heading ++ " AST for \"" ++ name ++ "\"\n" ++ text))
    | none => .error .noSuchSymbol
  else .ok run

/-- Whether the passes may run after what was reported so far. -/
def mayOptimize (settings : Settings) (run : Run) : Bool :=
  settings.stopAfter = .optimization && !run.diagnostics.errored

/-- Runs the passes over a checked body and dumps it again. -/
def optimizeRoutine (settings : Settings) (table : SymbolTable) (name : String) (body : Body)
    (run : Run) : Body × Run × Except SymbolError Unit :=
  let optimized := settings.level.run body
  let run := run.note (optimized.log ++
    [.debug ("optimizing '" ++ name ++ "': " ++ optimized.outcome.text)])
  match dumpBody settings table "Optimized" name optimized.body run with
  | .ok run => (optimized.body, run, .ok ())
  | .error e => (optimized.body, run, .error e)

/-- Checks, dumps and optimizes a body inside its environment. -/
def processBody (settings : Settings) (table : SymbolTable) (name : String) (routine : Routine)
    (run : Run) : Body × Run × Except SymbolError Unit :=
  let checked := routine.body.check table routine.env
  let run := (run.emit checked.messages).note checked.log
  match checked.result with
  | none => (checked.tree, run, .error .noSuchSymbol)
  | some () =>
    match dumpBody settings table "Unoptimized" name checked.tree run with
    | .error e => (checked.tree, run, .error e)
    | .ok run =>
      if mayOptimize settings run then optimizeRoutine settings table name checked.tree run
      else (checked.tree, run, .ok ())

/-- Processes a routine in its environment, which is open only meanwhile. -/
def processRoutine (settings : Settings) (table : SymbolTable) (routine : Routine) (run : Run) :
    SymbolTable × Routine × Run × Except SymbolError Unit :=
  match table.get? routine.env with
  | none => (table, routine, run, .error .noSuchSymbol)
  | some symbol =>
    let inside := table.openEnvironment routine.env
    let (body, run, result) := processBody settings inside symbol.name routine run
    let routine := { routine with body }
    match result with
    | .error e => (inside, routine, run, .error e)
    | .ok () =>
      match inside.leaveEnvironment with
      | .ok (table, _) => (table, routine, run, .ok ())
      | .error e => (inside, routine, run, .error e)

/-- Processes routines in their order. What fails ends the run, and the routines behind it
stay as they are. -/
def processRoutines (settings : Settings) (table : SymbolTable) :
    List Routine → Run → SymbolTable × List Routine × Run × Except SymbolError Unit
  | [], run => (table, [], run, .ok ())
  | r :: rs, run =>
    match processRoutine settings table r run with
    | (table, r, run, .error e) => (table, r :: rs, run, .error e)
    | (table, r, run, .ok ()) =>
      let (table, rs, run, result) := processRoutines settings table rs run
      (table, r :: rs, run, result)

/-! ## Programs -/

def Run.close (r : Run) : Run :=
  { r with errorText := r.errorText ++ r.diagnostics.statistics }

/-- A run without errors succeeds. -/
def Run.verdict (r : Run) : Except CompileError Unit :=
  if r.diagnostics.errored then .error (.typeErrors (r.diagnostics.count .error)) else .ok ()

def Program.compile (settings : Settings) (terminal : Terminal) (p : Program) : Compilation :=
  let (table, routines, run, result) :=
    processRoutines settings p.table p.routines (.start terminal)
  match result with
  | .error e => ⟨⟨table, routines⟩, run, .error (.symbols e)⟩
  | .ok () => ⟨⟨table, routines⟩, run.close, run.verdict⟩

end MiniPascal
