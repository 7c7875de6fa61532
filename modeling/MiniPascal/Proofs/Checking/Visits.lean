import MiniPascal.Proofs.Checking.Stopping
import MiniPascal.Proofs.Syntax.Printing

/-!
# The references that printing and checking follow

Printing and checking go through a body by recursions of their own. Both follow just the references that
`bodySymbols` lists: printing writes their names in this order, and either of them stops if and only if
one of the references leads out of the table.
-/

namespace MiniPascal

variable {table : SymbolTable} {b : Body}

theorem not_covers {is : List SymbolIndex} : ¬table.Covers is ↔ ∃ i ∈ is, table.get? i = none := by
  simp [SymbolTable.Covers, SymbolTable.get?, SymbolTable.size]

/-! ## Printing -/

/-- The names of the body are written one by one. -/
theorem names_printed (inside : table.Covers (bodySymbols b)) (p : Printer) :
    ∃ q names, (printBody table b).run p = .ok ((), q) ∧ q.names = p.names ++ names ∧
      List.Forall₂ (fun name i => ∃ s, table.get? i = some s ∧ s.name = name) names (bodySymbols b) := by
  refine ⟨_, _, (run_printBody b p).trans (if_pos inside), names_writeLines .., ?_⟩
  rw [lineSymbols_bodyLines, List.forall₂_map_left_iff, List.forall₂_same]
  intro i visited
  obtain ⟨s, found⟩ := get?_eq_some_of_lt (inside i visited)
  exact ⟨s, found, (nameOf_of_get? found).symm⟩

theorem printing_stops (p : Printer) :
    (∃ e, (printBody table b).run p = .error e) ↔ ∃ i ∈ bodySymbols b, table.get? i = none := by
  rw [← not_covers, run_printBody]
  split
  next inside => exact iff_of_false nofun (not_not.mpr inside)
  next outside => exact iff_of_true ⟨_, rfl⟩ outside

/-! ## Checking -/

theorem checking_stops (params : table.ParamsInside) (inside : table.currentEnvironment < table.size)
    {env : SymbolIndex} (known : env < table.size) :
    (b.check table env).result = none ↔ ∃ i ∈ bodySymbols b, table.get? i = none := by
  rw [← not_covers, ← ends_bodyCheck params inside known, Checked.Ends, Option.not_isSome_iff_eq_none]

/-- Walking through a body, printing it and checking it agree on what it refers to. -/
theorem references_agree (params : table.ParamsInside) (inside : table.currentEnvironment < table.size) (b : Body) :
    ((∀ i ∈ bodySymbols b, i < table.size) → ∃ p, (printBody table b).run .start = .ok ((), p) ∧
      List.Forall₂ (fun name i => ∃ s, table.get? i = some s ∧ s.name = name) p.names (bodySymbols b)) ∧
    ((∃ e, (printBody table b).run .start = .error e) ↔ ∃ i ∈ bodySymbols b, table.get? i = none) ∧
    ((b.check table table.currentEnvironment).result = none ↔ ∃ i ∈ bodySymbols b, table.get? i = none) := by
  refine ⟨fun visited => ?_, printing_stops .start, checking_stops params inside inside⟩
  obtain ⟨p, names, run, written, agree⟩ := names_printed visited .start
  have nothing_before : Printer.start.names = [] := rfl
  rw [nothing_before, List.nil_append] at written
  exact ⟨p, run, written ▸ agree⟩

/-- The condition of a clause is the variable `x`, or an index behind the last symbol. -/
theorem references_agree_clause_condition :
    let main := SymbolTable.new "main"
    let table : SymbolTable := { main with symbols := main.symbols ++ [.plain "x" .variable integerType] }
    let name (i : SymbolIndex) : Expr := .name ⟨⟨2, 7⟩, integerType⟩ i
    let body (i : SymbolIndex) : Body := [.branch ⟨1, 1⟩ (.integer ⟨⟨1, 4⟩, integerType⟩ 1) []
      [.clause ⟨2, 1⟩ (name i) [.assign ⟨3, 7⟩ (name 4) (name 4)]] none]
    table.ParamsInside ∧ table.currentEnvironment < table.size ∧
      (∃ p, (printBody table (body 4)).run .start = .ok ((), p) ∧
        List.Forall₂ (fun name i => ∃ s, table.get? i = some s ∧ s.name = name) p.names [4, 4, 4]) ∧
      (∃ e, (printBody table (body 5)).run .start = .error e) ∧
      ((body 5).check table table.currentEnvironment).result = none := by
  intro main table name body
  have params : table.ParamsInside := by decide
  have inside : table.currentEnvironment < table.size := by decide
  have visited : ∀ i ∈ bodySymbols (body 4), i < table.size := by decide
  have stray : ∃ i ∈ bodySymbols (body 5), table.get? i = none := ⟨5, by decide, rfl⟩
  obtain ⟨printed, -, -⟩ := references_agree params inside (body 4)
  obtain ⟨-, print_stops, check_stops⟩ := references_agree params inside (body 5)
  exact ⟨params, inside, printed visited, print_stops.mpr stray, check_stops.mpr stray⟩

end MiniPascal
