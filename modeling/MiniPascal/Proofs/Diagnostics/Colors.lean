import MiniPascal.Diagnostics.Basic
import MiniPascal.Proofs.Diagnostics.Signals
import Mathlib.Data.List.Infix

/-!
# Diagnostics with and without color

The same calls are made twice, on diagnostics with a plain terminal and on diagnostics with an ANSI terminal.
A call writes the same pieces both times, with a reset at either end, so that both runs keep the same messages
and show the same text, and no color outlasts the call that set it.
-/

namespace MiniPascal

/-! ## Calls -/

inductive DiagnosticsCall where
  | error (what : Placed String)
  | warning (what : Placed String)
  /-- writes the closing line -/
  | statistics

namespace DiagnosticsCall

variable {d d' : Diagnostics}

/-- There is no escape character in the text that is reported. -/
def Unescaped : DiagnosticsCall → Prop
  | error what | warning what => MiniPascal.Unescaped what.value
  | statistics => True

instance : DecidablePred Unescaped
  | error what | warning what => inferInstanceAs (Decidable (MiniPascal.Unescaped what.value))
  | statistics => inferInstanceAs (Decidable True)

/-- Makes a call. Yields the text that is written. -/
def apply (d : Diagnostics) : DiagnosticsCall → Diagnostics × String
  | error what => d.report .error what
  | warning what => d.report .warning what
  | statistics => (d, d.statistics)

/-- The message that is kept. -/
def message? : DiagnosticsCall → Option Message
  | error what => some ⟨.error, what.pos?, what.value⟩
  | warning what => some ⟨.warning, what.pos?, what.value⟩
  | statistics => none

/-- What is written on any terminal. -/
def pieces (d : Diagnostics) (c : DiagnosticsCall) : List Piece :=
  match c.message? with
  | some m => m.pieces
  | none => [.reset, .style (some (if d.errored then .red else .green)) true, .text (d.summary ++ "\n"), .reset]

theorem apply_eq (d : Diagnostics) (c : DiagnosticsCall) :
    c.apply d = ({ d with messages := d.messages ++ c.message?.toList }, d.terminal.render (c.pieces d)) := by
  cases c with
  | error | warning => rfl
  | statistics => simp [apply, message?, pieces, Diagnostics.statistics]

/-- The closing line comes from the messages alone. -/
theorem pieces_congr (same : d.messages = d'.messages) (c : DiagnosticsCall) : c.pieces d = c.pieces d' := by
  obtain ⟨terminal, messages⟩ := d
  obtain ⟨terminal', messages'⟩ := d'
  cases same
  cases c <;> rfl

/-- A call goes back to the default style first and last. -/
theorem exists_pieces_eq (d : Diagnostics) (c : DiagnosticsCall) :
    ∃ ps, c.pieces d = .reset :: (ps ++ [.reset]) := by
  cases c with
  | error | warning => exact ⟨_, rfl⟩
  | statistics => exact ⟨[.style _ true, .text _], rfl⟩

end DiagnosticsCall

/-! ## Texts without escape characters -/

theorem Position.unescaped_text (p : Position) : Unescaped p.text := by
  have colon : Unescaped ":" := by decide
  simp [Position.text, colon]

theorem Severity.unescaped_name (s : Severity) : Unescaped s.name := by
  cases s <;> decide

theorem Message.unescaped_pieces {m : Message} (unescaped : Unescaped m.text) : ∀ p ∈ m.pieces, p.Unescaped := by
  have colon : Unescaped ": " := by decide
  have newline : Unescaped "\n" := by decide
  have arrow : Unescaped "  --> " := by decide
  unfold Message.pieces
  cases m.pos <;>
    simp [Piece.Unescaped, unescaped, m.severity.unescaped_name, Position.unescaped_text, colon, newline, arrow]

theorem Diagnostics.unescaped_summary (d : Diagnostics) : Unescaped d.summary := by
  unfold Diagnostics.summary
  split
  · decide
  · decide
  · have before : Unescaped "Type checking finished successfully with " := by decide
    have behind : Unescaped " warnings" := by decide
    simp [before, behind]
  · decide
  · have before : Unescaped "Found " := by decide
    have behind : Unescaped " errors. Compilation aborted." := by decide
    simp [before, behind]

theorem DiagnosticsCall.unescaped_pieces {c : DiagnosticsCall} (unescaped : c.Unescaped) (d : Diagnostics) :
    ∀ p ∈ c.pieces d, p.Unescaped := by
  cases c with
  | error | warning => exact Message.unescaped_pieces unescaped
  | statistics =>
    have newline : MiniPascal.Unescaped "\n" := by decide
    simp [pieces, message?, Piece.Unescaped, d.unescaped_summary, newline]

/-! ## Runs -/

/-- A message is an error or a warning. -/
theorem Diagnostics.count_error_add_count_warning (d : Diagnostics) :
    d.count .error + d.count .warning = d.messages.length := by
  have others : d.count .warning = d.messages.countP fun m => ¬m.severity = .error :=
    List.countP_congr fun m _ => by cases severity : m.severity <;> simp
  rw [others, Diagnostics.count, List.length_eq_countP_add_countP fun m => m.severity = .error]
  simp

/-- What there is after a call. -/
structure Moment where
  diagnostics : Diagnostics
  /-- the text that the call wrote -/
  added : String
  /-- all that was written until then -/
  written : String

namespace Moment

/-- Nothing was called yet. -/
def start (terminal : Terminal) : Moment := ⟨.new terminal, "", ""⟩

def next (m : Moment) (c : DiagnosticsCall) : Moment :=
  let (diagnostics, added) := c.apply m.diagnostics
  ⟨diagnostics, added, m.written ++ added⟩

/-- Makes one call after the other. Yields the moments behind them. -/
def run (m : Moment) : List DiagnosticsCall → List Moment
  | [] => []
  | c :: cs => m.next c :: (m.next c).run cs

/-- What a plain terminal and an ANSI terminal have in common behind a call. -/
structure Agrees (plain ansi : Moment) : Prop where
  messages : plain.diagnostics.messages = ansi.diagnostics.messages
  count : ∀ s, plain.diagnostics.count s = ansi.diagnostics.count s
  /-- every message counts once -/
  counts : ansi.diagnostics.count .error + ansi.diagnostics.count .warning = ansi.diagnostics.messages.length
  added : withoutSequences ansi.added = plain.added
  written : withoutSequences ansi.written = plain.written
  /-- whatever style the terminal had in the beginning, it has the default one now -/
  untinted : ∀ style : Style, style.after ansi.written = .default
  /-- no color gets to the plain terminal -/
  plain_style : ∀ style : Style, style.after plain.written = style

/-- The same pieces were written at both moments. -/
structure Parallel (ps : List Piece) (plain ansi : Moment) : Prop where
  plain_terminal : plain.diagnostics.terminal = .plain
  ansi_terminal : ansi.diagnostics.terminal = .ansi
  messages : plain.diagnostics.messages = ansi.diagnostics.messages
  plain_written : plain.written = Terminal.plain.render ps
  ansi_written : ansi.written = Terminal.ansi.render ps
  unescaped : ∀ p ∈ ps, p.Unescaped

variable {ps : List Piece} {plain ansi : Moment} {c : DiagnosticsCall}

theorem parallel_start : Parallel [] (start .plain) (start .ansi) where
  plain_terminal := rfl
  ansi_terminal := rfl
  messages := rfl
  plain_written := rfl
  ansi_written := rfl
  unescaped := List.forall_mem_nil _

theorem next_eq (m : Moment) (c : DiagnosticsCall) :
    let added := m.diagnostics.terminal.render (c.pieces m.diagnostics)
    m.next c = ⟨{ m.diagnostics with messages := m.diagnostics.messages ++ c.message?.toList }, added,
      m.written ++ added⟩ := by
  rw [next, c.apply_eq]

theorem Parallel.next (parallel : Parallel ps plain ansi) (unescaped : c.Unescaped) :
    Parallel (ps ++ c.pieces ansi.diagnostics) (plain.next c) (ansi.next c) := by
  rw [next_eq, next_eq, c.pieces_congr parallel.messages]
  constructor
  · exact parallel.plain_terminal
  · exact parallel.ansi_terminal
  · exact congrArg (· ++ _) parallel.messages
  · rw [parallel.plain_terminal, parallel.plain_written, render_append]
  · rw [parallel.ansi_terminal, parallel.ansi_written, render_append]
  · exact List.forall_mem_append.mpr ⟨parallel.unescaped, c.unescaped_pieces unescaped _⟩

theorem Parallel.agrees_next (parallel : Parallel ps plain ansi) (unescaped : c.Unescaped) :
    Agrees (plain.next c) (ansi.next c) := by
  have after := parallel.next unescaped
  have added := c.unescaped_pieces unescaped ansi.diagnostics
  obtain ⟨qs, reset_last⟩ := c.exists_pieces_eq ansi.diagnostics
  constructor
  · exact after.messages
  · intro s
    rw [Diagnostics.count, Diagnostics.count, after.messages]
  · exact (ansi.next c).diagnostics.count_error_add_count_warning
  · rw [next_eq, next_eq, c.pieces_congr parallel.messages, parallel.plain_terminal, parallel.ansi_terminal]
    exact withoutSequences_render_ansi added
  · rw [after.ansi_written, after.plain_written]
    exact withoutSequences_render_ansi after.unescaped
  · intro style
    have all_unescaped := after.unescaped
    rw [after.ansi_written]
    -- the last piece of the call is the last of all pieces
    rw [reset_last, ← List.cons_append, ← List.append_assoc] at all_unescaped ⊢
    exact after_render_reset (List.forall_mem_append.mp all_unescaped).1 style
  · intro style
    rw [after.plain_written]
    exact after_of_unescaped (unescaped_render_plain after.unescaped) style

theorem Parallel.agrees_run {cs : List DiagnosticsCall} (parallel : Parallel ps plain ansi)
    (unescaped : ∀ c ∈ cs, c.Unescaped) : List.Forall₂ Agrees (plain.run cs) (ansi.run cs) := by
  -- every call adds its pieces to those that were written before
  induction cs generalizing ps plain ansi with
  | nil => exact .nil
  | cons c cs ih =>
    obtain ⟨first, others⟩ := List.forall_mem_cons.mp unescaped
    exact .cons (parallel.agrees_next first) (ih (parallel.next first) others)

/-- Behind each call, the messages of the calls until then are kept. -/
theorem messages_run (m : Moment) (cs : List DiagnosticsCall) :
    (m.run cs).map (·.diagnostics.messages) =
      cs.inits.tail.map fun front => m.diagnostics.messages ++ front.filterMap DiagnosticsCall.message? := by
  induction cs generalizing m with
  | nil => rfl
  | cons c cs ih =>
    have kept : (m.next c).diagnostics.messages = m.diagnostics.messages ++ c.message?.toList := by rw [next_eq]
    obtain ⟨fronts, inits⟩ : ∃ fronts, cs.inits = [] :: fronts := by cases cs <;> exact ⟨_, rfl⟩
    rw [inits, List.tail_cons] at ih
    rw [run, List.map_cons, ih, kept, List.inits_cons, List.tail_cons, inits]
    cases message : c.message? <;> simp [message, Function.comp_def]

end Moment

/-- Diagnostics keep what is reported, say the same on a plain terminal and on an ANSI terminal, and leave no
color behind. -/
theorem terminals_agree {calls : List DiagnosticsCall} (unescaped : ∀ c ∈ calls, c.Unescaped) :
    ((Moment.start .plain).run calls).map (·.diagnostics.messages) =
        calls.inits.tail.map (List.filterMap DiagnosticsCall.message?) ∧
      List.Forall₂ Moment.Agrees ((Moment.start .plain).run calls) ((Moment.start .ansi).run calls) :=
  ⟨Moment.messages_run .., Moment.parallel_start.agrees_run unescaped⟩

/-- The text of the warning looks like the rest of a color sequence. The first closing line is green, and the
second one is red. -/
theorem terminals_agree_bracketed_text :
    let calls : List DiagnosticsCall :=
      [.warning (.nowhere "[1m"), .statistics, .error (.here ⟨⟨3, 14⟩, "unknown"⟩), .statistics]
    let plain := (Moment.start .plain).run calls
    let warning : Message := ⟨.warning, none, "[1m"⟩
    let error : Message := ⟨.error, some ⟨3, 14⟩, "unknown"⟩
    (∀ c ∈ calls, c.Unescaped) ∧
      plain.map (·.added) = ["warning: [1m\n", "Type checking finished successfully with a warning\n",
        "error: unknown\n  --> 3:14\n", "Found an error. Compilation aborted.\n"] ∧
      plain.map (·.diagnostics.messages) = [[warning], [warning], [warning, error], [warning, error]] ∧
      List.Forall₂ Moment.Agrees plain ((Moment.start .ansi).run calls) := by
  intro calls plain warning error
  have unescaped : ∀ c ∈ calls, c.Unescaped := by decide
  obtain ⟨messages, agree⟩ := terminals_agree unescaped
  exact ⟨unescaped, by decide +kernel, messages, agree⟩

end MiniPascal
