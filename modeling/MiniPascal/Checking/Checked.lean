import MiniPascal.Checking.Error
import MiniPascal.Diagnostics.Basic
import MiniPascal.Diagnostics.Log
import MiniPascal.Symbol.Basic

/-!
# The outcome of checking

Checking a part of a tree changes it, leaves a trace of events, and ends with a result. It
stops without one as soon as a symbol outside of the table is asked for, or the name of an
operator that has none; the tree then has the changes that were made until that point.
-/

namespace MiniPascal

/-- Something that happened while a body was checked. -/
inductive Event where
  | started (kind : SymbolKind) (routine : String) (statements : Nat)
  | finished (routine : String) (errors : Nat)
  /-- the expression at this place was converted to real -/
  | widened (pos : Position)
  /-- the arguments of a call do not fit the parameters -/
  | mismatched (callee : String) (pos : Position)
  | error (pos : Option Position) (what : TypeError)
deriving DecidableEq

namespace Event

def message? : Event → Option Message
  | error pos what => some ⟨.error, pos, what.message⟩
  | _ => none

def log? : Event → Option LogEntry
  | started kind routine statements =>
    some (.debug ("type checking " ++ kind.text ++ " '" ++ routine ++ "' (" ++
      toString statements ++ " statements)"))
  | finished routine errors =>
    some (.debug ("'" ++ routine ++ "' checked with " ++ toString errors ++ " new error(s)"))
  | widened pos => some (.debug ("widening expression at " ++ pos.text ++ " to real"))
  | mismatched callee pos =>
    some (.debug ("call of '" ++ callee ++ "' at " ++ pos.text ++ " does not match"))
  | error .. => none

end Event

/-- A tree after checking, what happened, and the result unless checking stopped. -/
structure Checked (τ σ : Type) where
  tree : τ
  events : List Event
  result : Option σ

namespace Checked

variable {τ υ σ ρ : Type}

def done (tree : τ) (events : List Event) (result : σ) : Checked τ σ :=
  ⟨tree, events, some result⟩

/-- The part cannot be checked to its end. -/
def stopped (tree : τ) : Checked τ σ :=
  ⟨tree, [], none⟩

/-- Goes on with `next` if checking did not stop. If it did, `rest` puts the part back into
the tree around it. -/
def andThen (c : Checked τ σ) (rest : τ → υ) (next : τ → σ → Checked υ ρ) : Checked υ ρ :=
  match c.result with
  | none => ⟨rest c.tree, c.events, none⟩
  | some s =>
    let d := next c.tree s
    ⟨d.tree, c.events ++ d.events, d.result⟩

/-- Puts events in front of those of `c`. -/
def after (c : Checked τ σ) (events : List Event) : Checked τ σ :=
  { c with events := events ++ c.events }

def messages (c : Checked τ σ) : List Message :=
  c.events.filterMap Event.message?

def log (c : Checked τ σ) : List LogEntry :=
  c.events.filterMap Event.log?

@[simp] theorem done_andThen (tree : τ) (events : List Event) (s : σ) (rest : τ → υ)
    (next : τ → σ → Checked υ ρ) :
    (done tree events s).andThen rest next = (next tree s).after events := rfl

@[simp] theorem stopped_andThen (tree : τ) (rest : τ → υ) (next : τ → σ → Checked υ ρ) :
    (stopped tree : Checked τ σ).andThen rest next = stopped (rest tree) := rfl

theorem result_andThen (c : Checked τ σ) (rest : τ → υ) (next : τ → σ → Checked υ ρ) :
    (c.andThen rest next).result = c.result.bind fun s => (next c.tree s).result := by
  unfold andThen
  cases c.result <;> rfl

end Checked

end MiniPascal
