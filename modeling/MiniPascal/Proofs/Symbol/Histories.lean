import MiniPascal.Proofs.Symbol.Calls
import Mathlib.Tactic.SplitIfs

/-!
# Tables and their histories

What a symbol table holds can be told from the calls that built it and their answers: which
routines are open, what every visible name stands for and which parameters a routine has. So the
symbols, the open environments and the names never get out of step, even if calls are refused.
-/

namespace MiniPascal

/-! ## What histories tell -/

/-- The routines that are open after a call, the innermost one first. -/
def openAfter (inside : List SymbolIndex) : TableCall × TableAnswer → List SymbolIndex
  | (.enter routine, .entered) => routine :: inside
  | (_, .left _) => inside.tail
  | _ => inside

@[simp] theorem openAfter_refused (inside : List SymbolIndex) (c : TableCall) (e : SymbolError) :
    openAfter inside (c, .refused e) = inside := by
  cases c <;> rfl

@[simp] theorem openAfter_declared (inside : List SymbolIndex) (c : TableCall) (i : SymbolIndex) :
    openAfter inside (c, .declared i) = inside := by
  cases c <;> rfl

/-- The names that stand for symbols after a call, in one block for every open environment. -/
def namesAfter (names : BlockStack SymbolIndex) : TableCall × TableAnswer → BlockStack SymbolIndex
  | (c, .declared i) =>
    match c.symbol? with
    | some s => { names with innermost := Function.update names.innermost s.name (some i) }
    | none => names
  | (_, .entered) => names.enter
  | (_, .left _) => names.leave?.getD names
  | (_, .refused _) => names

namespace History

/-- The routines that were entered and not left yet, the last one first. -/
def openRoutines (h : History) : List SymbolIndex :=
  h.foldl openAfter []

/-- The names that were declared in open environments. The outermost block belongs to the program,
and the builtin types count as declared in it. -/
def names (h : History) : BlockStack SymbolIndex :=
  h.foldl namesAfter ⟨fun name => builtinTypes.idxOf? name, []⟩

/-- The parameters that were declared for a routine, in their order. -/
def params (h : History) (routine : SymbolIndex) : List SymbolIndex :=
  h.filterMap fun
    | (c, .declared i) => if c.owner? = some routine then some i else none
    | _ => none

variable (h : History) (entry : TableCall × TableAnswer)

theorem openRoutines_append : openRoutines (h ++ [entry]) = openAfter h.openRoutines entry := by
  simp [openRoutines]

theorem names_append : names (h ++ [entry]) = namesAfter h.names entry := by
  simp [names]

theorem params_append_declared (c : TableCall) (i routine : SymbolIndex) :
    params (h ++ [(c, .declared i)]) routine =
      h.params routine ++ if c.owner? = some routine then [i] else [] := by
  by_cases owner : c.owner? = some routine <;> simp [params, owner]

theorem params_append {c : TableCall} {answer : TableAnswer} (other : ∀ i, answer ≠ .declared i)
    (routine : SymbolIndex) : params (h ++ [(c, answer)]) routine = h.params routine := by
  cases answer with
  | declared i => exact absurd rfl (other i)
  | entered | left | refused => simp [params]

theorem mem_params {h : History} {i routine : SymbolIndex} :
    i ∈ h.params routine ↔ ∃ c : TableCall, (c, .declared i) ∈ h ∧ c.owner? = some routine := by
  constructor
  · intro member
    obtain ⟨⟨c, answer⟩, inside, told⟩ := List.mem_filterMap.mp member
    cases answer with
    | declared j =>
      by_cases owner : c.owner? = some routine
      · obtain rfl : j = i := by simpa [owner] using told
        exact ⟨c, inside, owner⟩
      · simp [owner] at told
    | entered | left | refused => contradiction
  · rintro ⟨c, inside, owner⟩
    exact List.mem_filterMap.mpr ⟨_, inside, by simp [owner]⟩

end History

/-! ## Symbols -/

/-- Only parameters may be added to a symbol, and only behind the others. -/
structure Symbol.Grows (s s' : Symbol) : Prop where
  name : s'.name = s.name
  kind : s'.kind = s.kind
  type : s'.type = s.type
  value : s'.value = s.value
  size : s'.size = s.size
  params : s.params <+: s'.params

theorem Symbol.Grows.refl (s : Symbol) : s.Grows s :=
  ⟨rfl, rfl, rfl, rfl, rfl, List.prefix_rfl⟩

theorem Symbol.Grows.trans {s s' s'' : Symbol} (first : s.Grows s') (second : s'.Grows s'') : s.Grows s'' :=
  ⟨second.name.trans first.name, second.kind.trans first.kind, second.type.trans first.type,
    second.value.trans first.value, second.size.trans first.size, first.params.trans second.params⟩

theorem TableCall.params_of_symbol? {c : TableCall} {s : Symbol} (symbol : c.symbol? = some s) :
    s.params = [] := by
  cases c with
  | enter | leave => contradiction
  | _ =>
    cases symbol
    rfl

theorem TableCall.kind_of_symbol? {c : TableCall} {s : Symbol} (symbol : c.symbol? = some s)
    (owner : c.owner? = none) : s.kind ≠ .parameter := by
  cases c with
  | enter | leave | parameter => contradiction
  | _ =>
    cases symbol
    simp [Symbol.plain]

namespace SymbolTable

variable {t : SymbolTable}

theorem get?_lt {i : SymbolIndex} {s : Symbol} (found : t.get? i = some s) : i < t.size :=
  (List.getElem?_eq_some_iff.mp found).1

theorem get?_append (t : SymbolTable) (s : Symbol) (names : Scopes SymbolIndex) (i : Nat) :
    ({ t with symbols := t.symbols ++ [s], names } : SymbolTable).get? i =
      if i = t.size then some s else t.get? i := by
  change (t.symbols ++ [s])[i]? = if i = t.symbols.length then some s else t.symbols[i]?
  by_cases last : i = t.symbols.length
  · simp [last]
  · rw [if_neg last]
    by_cases inside : i < t.symbols.length
    · exact List.getElem?_append_left inside
    · rw [List.getElem?_eq_none (by simp; omega), List.getElem?_eq_none (by omega)]

theorem get?_credit (t : SymbolTable) (owner : Option SymbolIndex) (param i : SymbolIndex) :
    (t.credit owner param).get? i =
      (t.get? i).map fun s => if owner = some i then { s with params := s.params ++ [param] } else s := by
  cases owner with
  | none => simp [credit]
  | some routine =>
    simp only [credit, addParam, get?, List.getElem?_modify, Option.some.injEq]
    by_cases same : routine = i <;> simp [same]

/-- The table after a declaration that was not refused. -/
abbrev afterDeclared (t : SymbolTable) (c : TableCall) (s : Symbol) (names : Scopes SymbolIndex) : SymbolTable :=
  credit { t with symbols := t.symbols ++ [s], names } c.owner? t.size

section Declared

variable {c : TableCall} {s : Symbol} {names : Scopes SymbolIndex}
  (owners : ∀ routine, c.owner? = some routine → ∃ owner, t.get? routine = some owner ∧ owner.kind.isRoutine)
include owners

theorem owner_ne_size : c.owner? ≠ some t.size := by
  intro known
  obtain ⟨_, found, -⟩ := owners _ known
  exact absurd (get?_lt found) (Nat.lt_irrefl _)

/-- The new symbol is the last one. -/
theorem get?_afterDeclared_size : (t.afterDeclared c s names).get? t.size = some s := by
  rw [get?_credit, get?_append, if_pos rfl, Option.map_some, if_neg (owner_ne_size owners)]

omit owners in
/-- Old symbols are kept, and the new one may become a parameter of them. -/
theorem get?_afterDeclared {i : SymbolIndex} {old : Symbol} (found : t.get? i = some old) :
    (t.afterDeclared c s names).get? i =
      some (if c.owner? = some i then { old with params := old.params ++ [t.size] } else old) := by
  have different : i ≠ t.size := Nat.ne_of_lt (get?_lt found)
  rw [get?_credit, get?_append, if_neg different, found, Option.map_some]

/-- A symbol of the new table is the new one or comes from an old one. -/
theorem get?_afterDeclared_cases {i : SymbolIndex} {s' : Symbol}
    (found : (t.afterDeclared c s names).get? i = some s') :
    (i = t.size ∧ s' = s) ∨ ∃ old, t.get? i = some old ∧
      s' = if c.owner? = some i then { old with params := old.params ++ [t.size] } else old := by
  by_cases last : i = t.size
  · subst last
    rw [get?_afterDeclared_size owners] at found
    exact .inl ⟨rfl, (Option.some.inj found).symm⟩
  · rw [get?_credit, get?_append, if_neg last] at found
    obtain ⟨old, known, rfl⟩ := Option.map_eq_some_iff.mp found
    exact .inr ⟨old, known, rfl⟩

end Declared

/-! ## Coherence -/

/-- A table that holds what the history tells. -/
structure Follows (t : SymbolTable) (h : History) : Prop where
  names : t.names.Means h.names
  environments : t.environments = h.openRoutines
  /-- there is a block for every open environment, besides the outermost one -/
  depth : h.names.around.length = h.openRoutines.length
  params : ∀ i s, t.get? i = some s → s.params = h.params i
  owned : ∀ i s, t.get? i = some s → s.kind = .parameter →
    ∃ c routine, (c, .declared i) ∈ h ∧ c.owner? = some routine
  owners : ∀ c i routine, (c, .declared i) ∈ h → c.owner? = some routine →
    ∃ owner, t.get? routine = some owner ∧ owner.kind.isRoutine
  bounded : ∀ c i, (c, .declared i) ∈ h → i < t.size
  unique : ∀ c c' i, (c, .declared i) ∈ h → (c', .declared i) ∈ h → c = c'

theorem Follows.params_of_outside {h : History} (follows : t.Follows h) : h.params t.size = [] := by
  refine List.eq_nil_iff_forall_not_mem.mpr fun i member => ?_
  obtain ⟨c, inside, owner⟩ := History.mem_params.mp member
  obtain ⟨_, found, -⟩ := follows.owners c i t.size inside owner
  exact absurd (get?_lt found) (Nat.lt_irrefl _)

theorem names_credit (t : SymbolTable) (owner : Option SymbolIndex) (param : SymbolIndex) :
    (t.credit owner param).names = t.names := by
  cases owner <;> rfl

theorem environments_credit (t : SymbolTable) (owner : Option SymbolIndex) (param : SymbolIndex) :
    (t.credit owner param).environments = t.environments := by
  cases owner <;> rfl

theorem size_credit (t : SymbolTable) (owner : Option SymbolIndex) (param : SymbolIndex) :
    (t.credit owner param).size = t.size := by
  cases owner <;> simp [credit, addParam, size]

/-- A call that declares nothing leaves the symbols alone. -/
theorem Follows.undeclared {h : History} (follows : t.Follows h) {c : TableCall} {answer : TableAnswer}
    (other : ∀ i, answer ≠ .declared i) {t' : SymbolTable} (symbols : t'.symbols = t.symbols)
    (names : t'.names.Means (namesAfter h.names (c, answer)))
    (environments : t'.environments = openAfter h.openRoutines (c, answer))
    (depth : (namesAfter h.names (c, answer)).around.length = (openAfter h.openRoutines (c, answer)).length) :
    t'.Follows (h ++ [(c, answer)]) := by
  have earlier {c' : TableCall} {i : SymbolIndex} (member : (c', TableAnswer.declared i) ∈ h ++ [(c, answer)]) :
      (c', TableAnswer.declared i) ∈ h := by
    rcases List.mem_append.mp member with inside | last
    · exact inside
    · exact absurd (Prod.mk.inj (List.mem_singleton.mp last)).2.symm (other i)
  have same (i : SymbolIndex) : t'.get? i = t.get? i := by rw [get?, symbols, get?]
  exact {
    names := by rwa [History.names_append]
    environments := by rw [environments, History.openRoutines_append]
    depth := by rw [History.names_append, History.openRoutines_append, depth]
    params := fun i s found => by
      rw [History.params_append h other]
      exact follows.params i s (same i ▸ found)
    owned := fun i s found kind => by
      obtain ⟨c', routine, member, owner⟩ := follows.owned i s (same i ▸ found) kind
      exact ⟨c', routine, List.mem_append_left _ member, owner⟩
    owners := fun c' i routine member owner => by
      rw [same]
      exact follows.owners c' i routine (earlier member) owner
    bounded := fun c' i member => by
      rw [size, symbols]
      exact follows.bounded c' i (earlier member)
    unique := fun c₁ c₂ i first second => follows.unique c₁ c₂ i (earlier first) (earlier second) }

/-- A new symbol has no parameters yet, and may be a parameter itself. -/
theorem Follows.declared {h : History} (follows : t.Follows h) {c : TableCall} {s : Symbol}
    {names : Scopes SymbolIndex} (symbol : c.symbol? = some s)
    (owners : ∀ routine, c.owner? = some routine → ∃ owner, t.get? routine = some owner ∧ owner.kind.isRoutine)
    (defined : t.names.define? s.name t.size = some names) :
    (t.afterDeclared c s names).Follows (h ++ [(c, .declared t.size)]) := by
  have cases_of {c' : TableCall} {i : SymbolIndex}
      (member : (c', TableAnswer.declared i) ∈ h ++ [(c, TableAnswer.declared t.size)]) :
      (c', TableAnswer.declared i) ∈ h ∨ c' = c ∧ i = t.size := by
    simpa using member
  have larger : (t.afterDeclared c s names).size = t.size + 1 := by
    rw [size_credit]
    simp [size]
  refine ⟨?names, ?environments, ?depth, ?params, ?owned, ?owners, ?bounded, ?unique⟩
  case names =>
    rw [History.names_append, namesAfter, symbol, names_credit]
    exact follows.names.of_define? defined
  case environments => 
    rw [History.openRoutines_append, openAfter_declared, environments_credit]
    exact follows.environments
  case depth =>
    rw [History.names_append, History.openRoutines_append, openAfter_declared, namesAfter, symbol]
    exact follows.depth
  case params =>
    intro i s' found
    rw [History.params_append_declared]
    rcases get?_afterDeclared_cases owners found with ⟨rfl, rfl⟩ | ⟨old, known, rfl⟩
    · rw [follows.params_of_outside, if_neg (owner_ne_size owners), TableCall.params_of_symbol? symbol]
      rfl
    · have before := follows.params i old known
      split_ifs <;> simp [before]
  case owned =>
    intro i s' found kind
    rcases get?_afterDeclared_cases owners found with ⟨rfl, rfl⟩ | ⟨old, known, rfl⟩
    · cases owner : c.owner? with
      | none => exact absurd kind (TableCall.kind_of_symbol? symbol owner)
      | some routine => exact ⟨c, routine, by simp, owner⟩
    · have old_kind : old.kind = .parameter := by
        split_ifs at kind <;> exact kind
      obtain ⟨c', routine, member, owner⟩ := follows.owned i old known old_kind
      exact ⟨c', routine, List.mem_append_left _ member, owner⟩
  case owners =>
    intro c' i routine member owner
    have earlier : ∃ owner, t.get? routine = some owner ∧ owner.kind.isRoutine := by
      rcases cases_of member with inside | ⟨rfl, -⟩
      · exact follows.owners c' i routine inside owner
      · exact owners routine owner
    obtain ⟨old, known, isRoutine⟩ := earlier
    refine ⟨_, get?_afterDeclared known, ?_⟩
    split_ifs <;> exact isRoutine
  case bounded =>
    intro c' i member
    rw [larger]
    rcases cases_of member with inside | ⟨-, rfl⟩
    · exact Nat.lt_succ_of_lt (follows.bounded c' i inside)
    · exact Nat.lt_succ_self _
  case unique =>
    intro c₁ c₂ i first second
    rcases cases_of first with inside | ⟨rfl, rfl⟩
    · rcases cases_of second with inside' | ⟨rfl, rfl⟩
      · exact follows.unique c₁ c₂ i inside inside'
      · exact absurd (follows.bounded _ _ inside) (Nat.lt_irrefl _)
    · rcases cases_of second with inside' | ⟨rfl, -⟩
      · exact absurd (follows.bounded _ _ inside') (Nat.lt_irrefl _)
      · rfl

theorem Follows.step {h : History} (follows : t.Follows h) {c : TableCall} {t' : SymbolTable}
    {answer : TableAnswer} (step : t.Step c (t', answer)) : t'.Follows (h ++ [(c, answer)]) := by
  cases step with
  | refused e _ =>
    have same : openAfter h.openRoutines (c, .refused e) = h.openRoutines := openAfter_refused _ c e
    exact follows.undeclared (by simp) rfl follows.names (by rw [same, follows.environments])
      (by rw [same]; exact follows.depth)
  | declared symbol owners defined => exact follows.declared symbol owners defined
  | entered routine inside =>
    refine follows.undeclared (by simp) rfl follows.names.enter ?_ ?_
    · exact congrArg (routine :: ·) follows.environments
    · exact congrArg (· + 1) follows.depth
  | @left routine environments names opened left =>
    have some_open : h.openRoutines = routine :: environments := follows.environments.symm.trans opened
    obtain ⟨outer, outer_left, means⟩ := follows.names.of_leave? left
    refine follows.undeclared (by simp) rfl ?_ ?_ ?_
    · simpa [namesAfter, outer_left] using means
    · simp [openAfter, some_open]
    · have depth := follows.depth
      rw [BlockStack.leave?_eq_some_iff.mp outer_left, some_open] at depth
      simpa [namesAfter, openAfter, outer_left, some_open] using depth

end SymbolTable

end MiniPascal
