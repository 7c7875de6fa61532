import MiniPascal.Symbol.Table
import Mathlib.Tactic.Common

/-!
# Indices inside of a table

A list of indices is covered by a table if all of them lead to symbols of the table.
-/

namespace MiniPascal

/-- All of these indices are in the table. -/
def SymbolTable.Covers (table : SymbolTable) (indices : List SymbolIndex) : Prop :=
  ∀ i ∈ indices, i < table.size

instance (table : SymbolTable) (indices : List SymbolIndex) : Decidable (table.Covers indices) :=
  inferInstanceAs (Decidable (∀ i ∈ indices, i < table.size))

variable {table : SymbolTable}

@[simp] theorem covers_nil : table.Covers [] := fun _ h => nomatch h

@[simp] theorem covers_cons {i : SymbolIndex} {is : List SymbolIndex} :
    table.Covers (i :: is) ↔ i < table.size ∧ table.Covers is :=
  List.forall_mem_cons

@[simp] theorem covers_append {is js : List SymbolIndex} :
    table.Covers (is ++ js) ↔ table.Covers is ∧ table.Covers js :=
  List.forall_mem_append

theorem exists_symbol {i : SymbolIndex} (inside : i < table.size) :
    ∃ s ∈ table.symbols, table.get? i = some s :=
  ⟨table.symbols[i], List.getElem_mem inside, List.getElem?_eq_getElem inside⟩

theorem get?_eq_some_of_lt {i : SymbolIndex} (inside : i < table.size) : ∃ s, table.get? i = some s := by
  obtain ⟨s, -, found⟩ := exists_symbol inside
  exact ⟨s, found⟩

theorem lt_of_get?_eq_some {i : SymbolIndex} {s : Symbol} (found : table.get? i = some s) : i < table.size :=
  (List.getElem?_eq_some_iff.mp found).1

theorem not_lt_of_get?_eq_none {i : SymbolIndex} (missing : table.get? i = none) : ¬i < table.size :=
  Nat.not_lt.mpr (List.getElem?_eq_none_iff.mp missing)

end MiniPascal
