import MiniPascal.Program
import MiniPascal.Proofs.Checking.Totality

/-!
# Sound programs

What it means that a table and a program were found to be sound: all indices lead into the
table, and the environments of routines are routines.
-/

namespace MiniPascal

theorem bind_eq_ok_iff {ε : Type} {x y : Except ε Unit} :
    (x >>= fun _ => y) = .ok () ↔ x = .ok () ∧ y = .ok () := by
  cases x with
  | error e => simp [bind, Except.bind]
  | ok u => simp [bind, Except.bind]

theorem forM_eq_ok_iff {α ε : Type} {f : α → Except ε Unit} {as : List α} :
    as.forM f = .ok () ↔ ∀ a ∈ as, f a = .ok () := by
  induction as with
  | nil => exact iff_of_true rfl fun _ h => nomatch h
  | cons a as ih =>
    rw [List.forall_mem_cons, ← ih]
    exact bind_eq_ok_iff

theorem mapError_eq_ok_iff {ε ε' : Type} {f : ε → ε'} {x : Except ε Unit} :
    x.mapError f = .ok () ↔ x = .ok () := by
  cases x with
  | error e => simp [Except.mapError]
  | ok u => simp [Except.mapError]

/-! ## Tables -/

variable {table : SymbolTable}

theorem covers_of_dangling? {s : Symbol} (none_dangling : table.dangling? s = none) :
    table.Covers (s.params ++ [s.type]) := by
  intro i member
  have inside := List.find?_eq_none.mp none_dangling i member
  simpa [SymbolTable.contains] using inside

/-- A sound table is closed. -/
theorem closed_of_validate (valid : table.validate = .ok ()) : table.Closed := by
  -- first the builtin types are looked up, then the program, then every symbol is walked
  obtain ⟨builtins, others⟩ := bind_eq_ok_iff.mp valid
  obtain ⟨-, symbols⟩ := bind_eq_ok_iff.mp others
  have covers (s : Symbol) (member : s ∈ table.symbols) : table.Covers (s.params ++ [s.type]) := by
    have fits := forM_eq_ok_iff.mp symbols s member
    split at fits
    · contradiction
    next none_dangling => exact covers_of_dangling? none_dangling
  refine ⟨?_, fun s member => ?_, fun s member => ?_⟩
  · have real := forM_eq_ok_iff.mp builtins ("real", realType) (by decide)
    dsimp only at real
    split at real
    next s found => exact (List.getElem?_eq_some_iff.mp found).1
    · contradiction
  · exact (covers_cons.mp (covers_append.mp (covers s member)).2).1
  · exact (covers_append.mp (covers s member)).1

/-! ## Routines -/

/-- The routine is one of the table, and its body refers to symbols of the table. -/
structure Routine.Inside (table : SymbolTable) (r : Routine) : Prop where
  env : r.env < table.size
  body : table.Covers (bodySymbols r.body)

theorem inside_of_validate {r : Routine} (valid : r.validate table = .ok ()) : r.Inside table := by
  unfold Routine.validate at valid
  split at valid
  · contradiction
  next s found =>
    split at valid
    · split at valid
      · contradiction
      next none_dangling =>
        refine ⟨(List.getElem?_eq_some_iff.mp found).1, fun i member => ?_⟩
        -- the walk over the body found no index that is outside
        have inside := List.find?_eq_none.mp none_dangling i member
        simpa [SymbolTable.contains] using inside
    · contradiction

/-- Only the environment and the references of a routine matter. -/
theorem routine_validate_congr {r r' : Routine} (env : r'.env = r.env)
    (symbols : bodySymbols r'.body = bodySymbols r.body) : r'.validate table = r.validate table := by
  simp only [Routine.validate, env, symbols]

/-! ## Programs -/

theorem program_validate_iff {p : Program} :
    p.validate = .ok () ↔ p.table.validate = .ok () ∧ ∀ r ∈ p.routines, r.validate p.table = .ok () := by
  rw [Program.validate, bind_eq_ok_iff, mapError_eq_ok_iff, forM_eq_ok_iff]

end MiniPascal
