import MiniPascal.Compiler
import MiniPascal.Proofs.Folding.References
import MiniPascal.Proofs.Syntax.Printing
import MiniPascal.Proofs.Validation

/-!
# Compiling sound programs

A sound program is compiled to its end: no step follows an index out of the table, and every
environment that was opened is left again. What remains are errors in the program, and the
program is as sound as before.
-/

namespace MiniPascal

open Checked

variable {table : SymbolTable} (settings : Settings)

/-! ## Environments -/

theorem SymbolTable.Closed.openEnvironment (closed : table.Closed) (env : SymbolIndex) :
    (table.openEnvironment env).Closed :=
  ⟨closed.builtins, closed.types, closed.params⟩

/-- Leaving an environment undoes opening it, scopes included. -/
theorem leaveEnvironment_openEnvironment (table : SymbolTable) (env : SymbolIndex) :
    (table.openEnvironment env).leaveEnvironment = .ok (table, env) := rfl

/-! ## Routines -/

/-- The body refers to the same symbols as before, and stores types of the table. -/
structure Processed (table : SymbolTable) (before after : Body) : Prop where
  symbols : bodySymbols after = bodySymbols before
  types : table.Covers (bodyTypes after)

theorem dumpBody_ok (heading name : String) {b : Body} (run : Run) (covers : table.Covers (bodySymbols b)) :
    ∃ run', dumpBody settings table heading name b run = .ok run' := by
  unfold dumpBody
  split
  · obtain ⟨text, printed⟩ := exists_bodyText b covers
    rw [printed]
    exact ⟨_, rfl⟩
  · exact ⟨run, rfl⟩

theorem optimizeRoutine_ok (name : String) {b : Body} (run : Run) (covers : table.Covers (bodySymbols b))
    (types : table.Covers (bodyTypes b)) :
    ∃ b' run', optimizeRoutine settings table name b run = (b', run', .ok ()) ∧ Processed table b b' := by
  have kept := kept_levelRun settings.level b
  unfold optimizeRoutine
  obtain ⟨run', dumped⟩ := dumpBody_ok settings "Optimized" name
    (b := (settings.level.run b).body) _ (by rw [kept.1]; exact covers)
  dsimp only
  rw [dumped]
  exact ⟨_, run', rfl, kept.1, fun t member => types t (kept.2 member)⟩

theorem processBody_ok (closed : table.Closed) (current : table.currentEnvironment < table.size)
    (name : String) {r : Routine} (run : Run) (inside : r.Inside table) :
    ∃ b run', processBody settings table name r run = (b, run', .ok ()) ∧ Processed table r.body b := by
  obtain ⟨_, result, types⟩ := yields_bodyCheck closed current inside.env r.body inside.body
  have symbols := bodySymbols_check table r.env r.body
  have covers : table.Covers (bodySymbols (r.body.check table r.env).tree) := by
    rw [symbols]
    exact inside.body
  unfold processBody
  simp only [result]
  -- checking kept the references, so the checked body can be printed as well
  obtain ⟨run', dumped⟩ := dumpBody_ok settings "Unoptimized" name
    ((run.emit (r.body.check table r.env).messages).note (r.body.check table r.env).log) covers
  rw [dumped]
  dsimp only
  split
  · obtain ⟨b, run'', optimized, processed⟩ := optimizeRoutine_ok settings name run' covers types
    exact ⟨b, run'', optimized, processed.symbols.trans symbols, processed.types⟩
  · exact ⟨_, run', rfl, symbols, types⟩

theorem processRoutine_ok (closed : table.Closed) {r : Routine} (run : Run) (inside : r.Inside table) :
    ∃ b run', processRoutine settings table r run = (table, { r with body := b }, run', .ok ()) ∧
      Processed table r.body b := by
  obtain ⟨symbol, -, found⟩ := exists_symbol inside.env
  obtain ⟨b, run', processed_eq, processed⟩ := processBody_ok settings
    (closed.openEnvironment r.env) inside.env symbol.name run ⟨inside.env, inside.body⟩
  unfold processRoutine
  simp only [found, processed_eq, leaveEnvironment_openEnvironment]
  exact ⟨b, run', rfl, processed.symbols, processed.types⟩

theorem processRoutines_ok (closed : table.Closed) (rs : List Routine) (run : Run)
    (inside : ∀ r ∈ rs, r.Inside table) :
    ∃ rs' run', processRoutines settings table rs run = (table, rs', run', .ok ()) ∧
      List.Forall₂ (fun r r' => r'.env = r.env ∧ Processed table r.body r'.body) rs rs' := by
  induction rs generalizing run with
  | nil => exact ⟨[], run, rfl, .nil⟩
  | cons r rs ih =>
    obtain ⟨first, others⟩ := List.forall_mem_cons.mp inside
    obtain ⟨b, run', processed_eq, processed⟩ := processRoutine_ok settings closed run first
    -- the table is the one from the start again, so the others begin where the first began
    obtain ⟨rs', run'', rest_eq, rest⟩ := ih run' others
    unfold processRoutines
    simp only [processed_eq, rest_eq]
    exact ⟨{ r with body := b } :: rs', run'', rfl, .cons ⟨rfl, processed⟩ rest⟩

/-! ## Programs -/

theorem exists_of_forall₂_right {α β : Type} {R : α → β → Prop} {as : List α} {bs : List β} {b : β}
    (related : List.Forall₂ R as bs) (member : b ∈ bs) : ∃ a ∈ as, R a b := by
  induction related with
  | nil => contradiction
  | @cons a b' as bs first _ ih =>
    rcases List.mem_cons.mp member with rfl | later
    · exact ⟨a, List.mem_cons_self, first⟩
    · obtain ⟨a', member', holds⟩ := ih later
      exact ⟨a', List.mem_cons_of_mem a member', holds⟩

theorem verdict_cases (run : Run) :
    run.verdict = .ok () ∨ ∃ n, 1 ≤ n ∧ run.verdict = .error (.typeErrors n) := by
  unfold Run.verdict
  split
  next errored => exact .inr ⟨_, of_decide_eq_true errored, rfl⟩
  next => exact .inl rfl

/-- A sound program never makes compiling abort. The table stays as it is, the stored types are
in the table whatever was stored before, and the program stays sound. -/
theorem compile_safe (terminal : Terminal) (p : Program) (valid : p.validate = .ok ()) :
    let c := p.compile settings terminal
    (c.result = .ok () ∨ ∃ n, 1 ≤ n ∧ c.result = .error (.typeErrors n)) ∧
      c.program.table = p.table ∧
      (∀ r ∈ c.program.routines, ∀ t ∈ bodyTypes r.body, t < p.table.size) ∧
      c.program.validate = .ok () := by
  obtain ⟨table_valid, routines_valid⟩ := program_validate_iff.mp valid
  obtain ⟨rs, run, processed_eq, processed⟩ := processRoutines_ok settings
    (closed_of_validate table_valid) p.routines (.start terminal)
    fun r member => inside_of_validate (routines_valid r member)
  simp only [Program.compile, processed_eq]
  refine ⟨verdict_cases run, trivial, fun r member => ?_, program_validate_iff.mpr ⟨table_valid, fun r member => ?_⟩⟩
  · obtain ⟨_, -, -, done⟩ := exists_of_forall₂_right processed member
    exact done.types
  · obtain ⟨r₀, member₀, env, done⟩ := exists_of_forall₂_right processed member
    rw [routine_validate_congr env done.symbols]
    exact routines_valid r₀ member₀

/-- A program that returns a type, and stores one that does not exist. -/
theorem compile_safe_unknown_type :
    let p : Program := ⟨.new "main", [⟨3, [.ret ⟨1, 1⟩ (some (.name ⟨⟨1, 8⟩, 77⟩ 1))]⟩]⟩
    let c := p.compile .default .plain
    p.validate = .ok () ∧ (c.result = .ok () ∨ ∃ n, 1 ≤ n ∧ c.result = .error (.typeErrors n)) ∧
      c.program.table = p.table ∧
      (∀ r ∈ c.program.routines, ∀ t ∈ bodyTypes r.body, t < p.table.size) ∧
      c.program.validate = .ok () :=
  ⟨rfl, compile_safe .default .plain _ rfl⟩

end MiniPascal
