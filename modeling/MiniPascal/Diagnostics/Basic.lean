import MiniPascal.Diagnostics.Terminal
import MiniPascal.Position

/-!
# Diagnostics

Errors and warnings are written when they are reported and kept in their order. The counts,
and the line that closes a run, come from what was kept.
-/

namespace MiniPascal

/-! ## Messages -/

inductive Severity where
  | error
  | warning
deriving DecidableEq

namespace Severity

def name : Severity → String
  | error => "error"
  | warning => "warning"

def color : Severity → Color
  | error => .red
  | warning => .yellow

end Severity

structure Message where
  severity : Severity
  /-- absent for what belongs to no place in the source -/
  pos : Option Position
  text : String
deriving DecidableEq

namespace Message

def line (m : Message) : String :=
  match m.pos with
  | some p => m.severity.name ++ " at " ++ p.text ++ ": " ++ m.text
  | none => m.severity.name ++ ": " ++ m.text

/-- A message as it is written: on one line, with its place on a second one. -/
def pieces (m : Message) : List Piece :=
  [.reset, .style m.severity.color true, .text (m.severity.name ++ ": "),
    .style none true, .text (m.text ++ "\n")] ++
  (match m.pos with
  | some p => [.style (some .cyan) false, .text ("  --> " ++ p.text ++ "\n")]
  | none => []) ++
  [.reset]

end Message

/-! ## The record of a run -/

/-- What was reported so far, and where it is written. -/
structure Diagnostics where
  terminal : Terminal
  messages : List Message
deriving DecidableEq

namespace Diagnostics

def new (terminal : Terminal) : Diagnostics := ⟨terminal, []⟩

def count (d : Diagnostics) (s : Severity) : Nat :=
  d.messages.countP fun m => m.severity = s

/-- Whether there was an error. Warnings do not count. -/
def errored (d : Diagnostics) : Bool :=
  0 < d.count .error

/-- Keeps a message. Yields the text that is written. -/
def emit (d : Diagnostics) (m : Message) : Diagnostics × String :=
  ({ d with messages := d.messages ++ [m] }, d.terminal.render m.pieces)

/-- Reports a text, which may have a place in the source. -/
def report (d : Diagnostics) (s : Severity) (what : Placed String) : Diagnostics × String :=
  d.emit ⟨s, what.pos?, what.value⟩

/-- Keeps messages one after the other. Yields all that is written. -/
def emitAll (d : Diagnostics) (ms : List Message) : Diagnostics × String :=
  ({ d with messages := d.messages ++ ms }, d.terminal.render (ms.flatMap Message.pieces))

/-- The closing line: the number of errors, or else the number of warnings. -/
def summary (d : Diagnostics) : String :=
  match d.count .error, d.count .warning with
  | 0, 0 => "Type checking finished successfully without warnings"
  | 0, 1 => "Type checking finished successfully with a warning"
  | 0, n => "Type checking finished successfully with " ++ toString n ++ " warnings"
  | 1, _ => "Found an error. Compilation aborted."
  | n, _ => "Found " ++ toString n ++ " errors. Compilation aborted."

/-- The closing line as it is written: red after an error, green otherwise. -/
def statistics (d : Diagnostics) : String :=
  d.terminal.render
    [.reset, .style (some (if d.errored then .red else .green)) true, .text (d.summary ++ "\n"),
      .reset]

end Diagnostics

end MiniPascal
