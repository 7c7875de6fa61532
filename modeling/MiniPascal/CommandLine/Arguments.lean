import MiniPascal.Compiler

/-!
# Command line arguments

The tool takes the name of one file and three options. An option with a value has it in the
argument itself, with or without an equals sign in front, or in the next argument; an option
that ends up without a value keeps its default. After `--` everything is a file name.
-/

namespace MiniPascal.CommandLine

structure Task where
  file : String
  settings : Settings
deriving DecidableEq

inductive Request where
  | compile (task : Task)
  | help
  | version
deriving DecidableEq

inductive ArgumentError where
  /-- an argument is unknown, missing, repeated or too many -/
  | misuse
  /-- the value of an option is not one of its values -/
  | badValue (option message : String)
deriving DecidableEq

/-- How the reading of arguments ends before the last of them: refused, or with a request
that leaves nothing more to ask. -/
abbrev Early := Except ArgumentError Request

/-! ## Collecting -/

inductive ValueOption where
  | level
  | stopAfter
deriving DecidableEq

def ValueOption.text : ValueOption → String
  | level => "--optimization <optimization>"
  | stopAfter => "--stop-after <stop_after>"

structure Collected where
  file : Option String
  /-- how often dumps were asked for -/
  dumps : Nat
  /-- the options in their order, with their values if they have one -/
  options : List (ValueOption × Option String)
  /-- whether the last argument was an option whose value may follow -/
  pending : Bool
  /-- whether options have ended -/
  filesOnly : Bool
deriving DecidableEq

namespace Collected

def start : Collected := ⟨none, 0, [], false, false⟩

/-- Takes a file name; there is only one. -/
def addFile (c : Collected) (name : String) : Except Early Collected :=
  match c.file with
  | none => .ok { c with file := some name }
  | some _ => .error (.error .misuse)

/-- Takes an option with its value. Equals signs in front of the value do not belong to it. -/
def addOption (c : Collected) (o : ValueOption) (value : List Char) : Collected :=
  { c with
    options := c.options ++ [(o, some (String.ofList (value.dropWhile (· = '='))))]
    pending := false }

def openOption (c : Collected) (o : ValueOption) : Collected :=
  { c with options := c.options ++ [(o, none)], pending := true }

def addValue (c : Collected) (value : String) : Collected :=
  { c with
    options := c.options.dropLast ++ (c.options.getLast?.map fun o => (o.1, some value)).toList
    pending := false }

/-- Takes an argument with two dashes in front, which are not part of `name`. -/
def addLong (c : Collected) (name : List Char) (value : Option (List Char)) :
    Except Early Collected :=
  match String.ofList name, value with
  | "optimization", some v => .ok (c.addOption .level v)
  | "optimization", none => .ok (c.openOption .level)
  | "stop-after", some v => .ok (c.addOption .stopAfter v)
  | "stop-after", none => .ok (c.openOption .stopAfter)
  | "dump-ast", _ => .ok { c with dumps := c.dumps + 1, pending := false }
  | "help", _ => .error (.ok .help)
  | "version", _ => .error (.ok .version)
  | _, _ => .error (.error .misuse)

/-- Takes an argument with one dash in front, which is not part of it. -/
def addShort (c : Collected) : List Char → Except Early Collected
  | ['O'] => .ok (c.openOption .level)
  | 'O' :: value => .ok (c.addOption .level value)
  | 'h' :: _ => .error (.ok .help)
  | 'V' :: _ => .error (.ok .version)
  | _ => .error (.error .misuse)

/-- Whether an argument is an option rather than a value. A single dash is a value. -/
def looksLikeOption : List Char → Bool
  | ['-'] => false
  | '-' :: _ => true
  | _ => false

/-- Takes one argument. A request for help or for the version ends the reading at once, as
does an argument that is refused. -/
def add (c : Collected) (argument : String) : Except Early Collected :=
  let cs := argument.toList
  if c.filesOnly then c.addFile argument
  else if cs = ['-', '-'] then .ok { c with filesOnly := true }
  else if looksLikeOption cs then
    let word := cs.dropWhile (· = '-')
    match cs with
    | '-' :: '-' :: _ =>
      let value := word.dropWhile (· ≠ '=')
      c.addLong (word.takeWhile (· ≠ '=')) (if value = [] then none else some value.tail)
    | _ => c.addShort word
  else if c.pending then .ok (c.addValue argument)
  else c.addFile argument

/-! ## Evaluating -/

def values (c : Collected) (o : ValueOption) : List String :=
  c.options.filterMap fun (p, value) => if p = o then value else none

def uses (c : Collected) (o : ValueOption) : Nat :=
  c.options.countP fun p => p.1 = o

/-- The value of an option that is given at most once. A value that cannot be read is
reported before a repetition is. -/
def evaluate {α : Type} (c : Collected) (o : ValueOption) (read : String → Except String α)
    (default : α) : Except ArgumentError α := do
  let values ← (c.values o).mapM fun s => (read s).mapError (.badValue o.text)
  if c.uses o ≤ 1 then return values.headD default else .error .misuse

end Collected

def readPhase (s : String) : Except String Phase :=
  match Phase.ofName? s with
  | some p => .ok p
  | none => .error noMatchingName

def readLevel (s : String) : Except String Level :=
  (Level.parse s).mapError LevelError.message

/-- What the collected arguments ask for. There must be a file. -/
def Collected.task (c : Collected) : Except ArgumentError Task :=
  match c.file with
  | none => .error .misuse
  | some file => do
    let level ← c.evaluate .level readLevel Settings.default.level
    let stopAfter ← c.evaluate .stopAfter readPhase Settings.default.stopAfter
    if c.dumps ≤ 1 then return ⟨file, ⟨stopAfter, level, c.dumps = 1⟩⟩ else .error .misuse

def parse (arguments : List String) : Except ArgumentError Request :=
  match arguments.foldlM Collected.add Collected.start with
  | .error ending => ending
  | .ok collected => collected.task.map .compile

end MiniPascal.CommandLine
