import MiniPascal.Compiler
import MiniPascal.Proofs.Retyping.Checking
import Mathlib.Data.List.Forall2

/-!
# Compiling ignores stored types

Programs that differ in their stored types only are compiled alike: with the same messages, dumps
and log, the same result, and the same program at the end unless compiling aborts.
-/

namespace MiniPascal

open Checked

variable (settings : Settings) (table : SymbolTable)

/-- Routines that differ in stored types only. -/
def Routine.Alike (r s : Routine) : Prop :=
  r.untyped = s.untyped

theorem Routine.Alike.env {r s : Routine} (alike : r.Alike s) : r.env = s.env :=
  (Routine.mk.inj alike).1

theorem Routine.Alike.body {r s : Routine} (alike : r.Alike s) : bodyUntyped r.body = bodyUntyped s.body :=
  (Routine.mk.inj alike).2

/-- Two steps end with the same, or both abort with the same error after the same run. -/
inductive SameEnd {α : Type} : α × Run × Except SymbolError Unit → α × Run × Except SymbolError Unit → Prop
  | ends (a run) : SameEnd (a, run, .ok ()) (a, run, .ok ())
  | aborts (a b run e) : SameEnd (a, run, .error e) (b, run, .error e)

theorem SameEnd.refl {α : Type} (x : α × Run × Except SymbolError Unit) : SameEnd x x := by
  obtain ⟨a, run, result⟩ := x
  cases result with
  | error e => exact .aborts a a run e
  | ok u => exact .ends a run

/-- Two compilations that report the same and end alike, with the same program unless both
aborted. -/
structure SameCompilation (c d : Compilation) : Prop where
  run : c.run = d.run
  result : c.result = d.result
  program : (∀ e, c.result ≠ .error (.symbols e)) → c.program = d.program

/-! ## Routines -/

theorem processBody_alike (name : String) (run : Run) {r s : Routine} (alike : r.Alike s) :
    SameEnd (processBody settings table name r run) (processBody settings table name s run) := by
  obtain ⟨events, result, tree⟩ := sameRun_of_untyped_eq table r.env alike.body
  have messages : (r.body.check table r.env).messages = (s.body.check table r.env).messages :=
    congrArg (List.filterMap Event.message?) events
  have log : (r.body.check table r.env).log = (s.body.check table r.env).log :=
    congrArg (List.filterMap Event.log?) events
  -- errors and log entries are read off the events
  unfold processBody
  rw [← alike.env]
  simp only [← messages, ← log, ← result]
  cases reached : (r.body.check table r.env).result with
  | none => exact .aborts _ _ _ _
  | some u =>
    -- checking ended, so both go on with the same tree
    rw [← tree u reached]
    exact .refl _

theorem processRoutine_alike (run : Run) {r s : Routine} (alike : r.Alike s) :
    (processRoutine settings table r run).1 = (processRoutine settings table s run).1 ∧
      SameEnd (processRoutine settings table r run).2 (processRoutine settings table s run).2 := by
  unfold processRoutine
  rw [← alike.env]
  split
  · exact ⟨rfl, .aborts _ _ _ _⟩
  next symbol _ =>
    have same := processBody_alike settings (table.openEnvironment r.env) symbol.name run alike
    dsimp only
    generalize processBody settings (table.openEnvironment r.env) symbol.name r run = x at same ⊢
    generalize processBody settings (table.openEnvironment r.env) symbol.name s run = y at same ⊢
    cases same with
    | aborts => exact ⟨rfl, .aborts _ _ _ _⟩
    | ends => exact ⟨rfl, .refl _⟩

theorem processRoutines_alike {rs ss : List Routine} (alike : List.Forall₂ Routine.Alike rs ss)
    (run : Run) :
    (processRoutines settings table rs run).1 = (processRoutines settings table ss run).1 ∧
      SameEnd (processRoutines settings table rs run).2 (processRoutines settings table ss run).2 := by
  -- each routine leaves both compilations with the same table and the same run
  induction alike generalizing table run with
  | nil => exact ⟨rfl, .refl _⟩
  | @cons r s rs ss first _ ih =>
    obtain ⟨tables, same⟩ := processRoutine_alike settings table run first
    unfold processRoutines
    generalize processRoutine settings table r run = x at tables same ⊢
    generalize processRoutine settings table s run = y at tables same ⊢
    obtain ⟨table', x⟩ := x
    obtain ⟨_, y⟩ := y
    cases tables
    cases same with
    | aborts => exact ⟨rfl, .aborts _ _ _ _⟩
    | ends r' run' =>
      obtain ⟨tables, same⟩ := ih table' run'
      dsimp only
      generalize processRoutines settings table' rs run' = x at tables same ⊢
      generalize processRoutines settings table' ss run' = y at tables same ⊢
      obtain ⟨_, x⟩ := x
      obtain ⟨_, y⟩ := y
      cases tables
      cases same with
      | aborts => exact ⟨rfl, .aborts _ _ _ _⟩
      | ends => exact ⟨rfl, .refl _⟩

/-! ## Programs -/

theorem compile_alike (terminal : Terminal) {p q : Program} (alike : p.untyped = q.untyped) :
    SameCompilation (p.compile settings terminal) (q.compile settings terminal) := by
  obtain ⟨table, routines⟩ := Program.mk.inj alike
  obtain ⟨tables, same⟩ :=
    processRoutines_alike settings p.table (map_eq_map_iff_forall₂.mp routines) (.start terminal)
  unfold Program.compile
  rw [← table]
  generalize processRoutines settings p.table p.routines (.start terminal) = x at tables same ⊢
  generalize processRoutines settings p.table q.routines (.start terminal) = y at tables same ⊢
  obtain ⟨_, x⟩ := x
  obtain ⟨_, y⟩ := y
  cases tables
  cases same with
  | aborts a b run e => exact ⟨rfl, rfl, fun aborts => absurd rfl (aborts e)⟩
  | ends => exact ⟨rfl, rfl, fun _ => rfl⟩

end MiniPascal
