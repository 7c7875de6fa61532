import MiniPascal.Diagnostics.Log
import MiniPascal.Json.Decoder
import MiniPascal.Optimization.Folding

/-!
# Optimization levels

A level is a sequence of passes over a body. It is written as a name that ignores the case
of ASCII letters, and a custom level is followed by a colon and the passes, separated by
commas.
-/

namespace MiniPascal

/-! ## Outcomes -/

inductive Outcome where
  | unchanged
  | changed
deriving DecidableEq

namespace Outcome

def text : Outcome → String
  | unchanged => "Unchanged"
  | changed => "Changed"

/-- The outcome of several passes: something changed if one of them changed something. -/
def combine (outcomes : List Outcome) : Outcome :=
  if outcomes.contains changed then changed else unchanged

end Outcome

/-! ## Passes -/

inductive Pass where
  | constantFolding
deriving DecidableEq

namespace Pass

def name : Pass → String
  | constantFolding => "ConstantFolding"

def ofName? : String → Option Pass
  | "ConstantFolding" => some constantFolding
  | _ => none

def toJson (p : Pass) : Json :=
  .ofString p.name

def decoder : Decoder Pass :=
  Decoder.named ofName?

end Pass

/-- A body after passes, what they did, and the log. -/
structure Optimized where
  body : Body
  outcome : Outcome
  log : List LogEntry

def Pass.run : Pass → Body → Optimized
  | constantFolding, body =>
    let folded := optimizeBody body
    ⟨folded.tree, if 0 < folded.count then .changed else .unchanged,
      [.debug ("constant folding replaced " ++ toString folded.count ++ " subtree(s)")]⟩

/-! ## Levels -/

inductive Level where
  | none
  | moderate
  | custom (passes : List Pass)
deriving DecidableEq

namespace Level

def default : Level := moderate

def passes : Level → List Pass
  | none => []
  | moderate => [.constantFolding]
  | custom passes => passes

/-- Runs one pass after the other. The passes are numbered from `i` in the log. Yields the
body, the outcomes and the log. -/
def runFrom (i : Nat) : List Pass → Body → Body × List Outcome × List LogEntry
  | [], body => (body, [], [])
  | p :: ps, body =>
    let first := p.run body
    let (body, outcomes, log) := runFrom (i + 1) ps first.body
    let running := LogEntry.info ("Running optimization #" ++ toString i ++ ": " ++ p.name)
    let finished := LogEntry.debug ("Finished optimization #" ++ toString i ++ ": " ++ p.name ++
      " (" ++ first.outcome.text ++ ")")
    (body, first.outcome :: outcomes, running :: first.log ++ finished :: log)

def run (l : Level) (body : Body) : Optimized :=
  let (body, outcomes, log) := runFrom 0 l.passes body
  ⟨body, Outcome.combine outcomes, log⟩

end Level

/-! ## Reading levels -/

inductive LevelError where
  | unknownLevel (name : String)
  | unknownPass (name : String)
  | tooManySeparators
  | customWithoutList
  | unexpectedList (name : String)
deriving DecidableEq

namespace LevelError

def message : LevelError → String
  | unknownLevel name => "unknown optimization level '" ++ name ++ "'"
  | unknownPass name => "unknown optimization pass '" ++ name ++ "'"
  | tooManySeparators => "optimization flag can only contain a single separator"
  | customWithoutList =>
    "a custom optimization sequence requires a non-empty list of optimizations"
  | unexpectedList name => "optimization level '" ++ name ++ "' takes no list of optimizations"

end LevelError

/-- The parts of a text between separators. There is always at least one. -/
def splitAt (separator : Char) : List Char → List (List Char)
  | [] => [[]]
  | c :: cs =>
    if c = separator then [] :: splitAt separator cs
    else
      match splitAt separator cs with
      | part :: parts => (c :: part) :: parts
      | [] => [[c]]

theorem splitAt_ne_nil (separator : Char) (cs : List Char) : splitAt separator cs ≠ [] := by
  induction cs with
  | nil => simp [splitAt]
  | cons c cs ih =>
    unfold splitAt
    split
    · simp
    · split <;> simp

namespace Level

/-- The passes of a custom level. Empty parts between commas are skipped. -/
def passes? (list : List Char) : Except LevelError (List Pass) :=
  ((splitAt ',' list).filter (· ≠ [])).mapM fun part =>
    match Pass.ofName? (String.ofList part) with
    | .some p => .ok p
    | .none => .error (.unknownPass (String.ofList part))

/-- Reads a level. The name in an error is as it was written. -/
def parse (s : String) : Except LevelError Level :=
  match splitAt ':' s.toList with
  | [name] =>
    match String.ofList (name.map Char.toLower) with
    | "none" => .ok Level.none
    | "moderate" => .ok moderate
    | "custom" => .error .customWithoutList
    | _ => .error (.unknownLevel (String.ofList name))
  | [name, list] =>
    match String.ofList (name.map Char.toLower) with
    | "custom" => do
      let passes ← passes? list
      if passes = [] then .error .customWithoutList else .ok (custom passes)
    | "none" | "moderate" => .error (.unexpectedList (String.ofList name))
    | _ => .error (.unknownLevel (String.ofList name))
  | _ => .error .tooManySeparators

end Level

end MiniPascal
