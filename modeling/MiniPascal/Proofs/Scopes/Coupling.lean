import MiniPascal.Scopes
import Mathlib.Data.List.Perm.Basic
import Mathlib.Tactic.Basic

/-!
# The register of nested scopes

The register holds for every name the levels of exactly those open blocks that declare it. This
coupling is what every operation keeps, and what makes the register answer for the blocks: the
innermost level it notes is that of the innermost block with the name, and closing a block finds
a level to forget for each name in it, whatever order the names are taken in.
-/

namespace MiniPascal

/-! ## Registers -/

namespace Register

/-- Names without levels are not kept. -/
def Trim (r : Register) : Prop :=
  ∀ entry ∈ r, entry.2 ≠ []

/-- Forgets the innermost declaration of a name, of which there has to be one. -/
def pop? (r : Register) (name : String) : Option Register :=
  match r.levels name with
  | [] => none
  | _ :: _ => some (r.pop name)

theorem Trim.assign {r : Register} (trim : r.Trim) (name : String) (levels : List Nat) :
    (r.assign name levels).Trim := by
  have without : (r.without name).Trim := fun entry member => trim entry (List.mem_filter.mp member).1
  intro entry member
  cases levels with
  | nil => exact without entry member
  | cons level levels =>
    cases member with
    | head => simp
    | tail _ member => exact without entry member

theorem Trim.foldl_pop {r : Register} (trim : r.Trim) (names : List String) :
    (names.foldl pop r).Trim := by
  induction names generalizing r with
  | nil => exact trim
  | cons name names ih => exact ih (trim.assign name _)

/-- What a register without superfluous entries holds is told by its levels. -/
theorem Trim.lookup_eq {r : Register} (trim : r.Trim) (name : String) :
    r.lookup name = if r.levels name = [] then none else some (r.levels name) := by
  cases found : r.lookup name with
  | none => simp [levels, found]
  | some kept =>
    obtain ⟨before, after, rfl, -⟩ := List.lookup_eq_some_iff.mp found
    have some_levels : kept ≠ [] := trim (name, kept) (by simp)
    simp [levels, found, some_levels]

/-- Forgetting different names takes one level from each of them. -/
theorem levels_foldl_pop (r : Register) {names : List String} (distinct : names.Nodup)
    (other : String) :
    (names.foldl pop r).levels other =
      if other ∈ names then (r.levels other).tail else r.levels other := by
  induction names generalizing r with
  | nil => simp
  | cons name names ih =>
    obtain ⟨absent, distinct⟩ := List.nodup_cons.mp distinct
    rw [List.foldl_cons, ih (r.pop name) distinct, levels_pop]
    by_cases same : other = name
    · subst same
      simp [absent]
    · simp [same]

/-- If all names have levels, forgetting them one after the other never comes upon one that has
none. -/
theorem foldlM_pop? {r : Register} {names : List String} (distinct : names.Nodup)
    (declared : ∀ name ∈ names, r.levels name ≠ []) :
    names.foldlM pop? r = some (names.foldl pop r) := by
  induction names generalizing r with
  | nil => rfl
  | cons name names ih =>
    obtain ⟨absent, distinct⟩ := List.nodup_cons.mp distinct
    obtain ⟨first, others⟩ := List.forall_mem_cons.mp declared
    have popped : r.pop? name = some (r.pop name) := by
      cases known : r.levels name with
      | nil => contradiction
      | cons level levels => simp [pop?, known]
    have still : ∀ other ∈ names, (r.pop name).levels other ≠ [] := by
      intro other member
      have different : other ≠ name := fun same => absent (same ▸ member)
      simpa [different] using others other member
    rw [List.foldlM_cons, popped]
    exact ih distinct still

end Register

/-! ## Levels of blocks -/

variable {α : Type}

/-- The map that a block is. -/
def Block.meaning (block : Block α) (name : String) : Option α :=
  block.lookup name

/-- The levels of the blocks that declare a name. Blocks are given innermost first, and so are
the levels. -/
def declaringLevels (name : String) : List (Block α) → List Nat
  | [] => []
  | block :: blocks =>
    if (block.lookup name).isSome then blocks.length :: declaringLevels name blocks
    else declaringLevels name blocks

/-- Only what the blocks mean matters. -/
theorem declaringLevels_congr (name : String) {blocks blocks' : List (Block α)}
    (same : blocks.map Block.meaning = blocks'.map Block.meaning) :
    declaringLevels name blocks = declaringLevels name blocks' := by
  induction blocks generalizing blocks' with
  | nil => rw [List.map_eq_nil_iff.mp same.symm]
  | cons block blocks ih =>
    obtain ⟨block', others, rfl, first, rest⟩ := List.map_eq_cons_iff.mp same.symm
    have lengths : others.length = blocks.length := by simpa using congrArg List.length rest
    have known : block'.lookup name = block.lookup name := congrFun first name
    simp only [declaringLevels, ih rest.symm, lengths, known]

theorem findSome?_of_no_level {name : String} {blocks : List (Block α)}
    (none_declares : declaringLevels name blocks = []) :
    blocks.findSome? (fun block => block.lookup name) = none := by
  induction blocks with
  | nil => rfl
  | cons block blocks ih =>
    cases found : block.lookup name with
    | none =>
      have others : declaringLevels name blocks = [] := by simpa [declaringLevels, found] using none_declares
      simp [found, ih others]
    | some v => simp [declaringLevels, found] at none_declares

/-- The first of the levels is that of the innermost block with the name. -/
theorem exists_block_of_level {name : String} {blocks : List (Block α)} {level : Nat} {levels : List Nat}
    (declares : declaringLevels name blocks = level :: levels) :
    ∃ above block below, blocks = above ++ block :: below ∧ below.length = level ∧
      (block.lookup name).isSome ∧ blocks.findSome? (fun block => block.lookup name) = block.lookup name := by
  induction blocks with
  | nil => simp [declaringLevels] at declares
  | cons block blocks ih =>
    cases found : block.lookup name with
    | some v =>
      have same : blocks.length = level := by
        simp [declaringLevels, found] at declares
        exact declares.1
      exact ⟨[], block, blocks, rfl, same, by simp [found], by simp [found]⟩
    | none =>
      have others : declaringLevels name blocks = level :: levels := by
        simpa [declaringLevels, found] using declares
      obtain ⟨above, inside, below, rfl, length, declared, first⟩ := ih others
      exact ⟨block :: above, inside, below, rfl, length, declared, by simp [found, first]⟩

/-! ## Coupled scopes -/

namespace Scopes

/-- All open blocks, innermost first. -/
def blocks (s : Scopes α) : List (Block α) :=
  s.inner ++ [s.outermost]

theorem length_blocks (s : Scopes α) : s.blocks.length = s.level + 1 := by
  simp [blocks, level]

theorem block_of_blocks {s : Scopes α} {above below : List (Block α)} {block : Block α}
    (split : s.blocks = above ++ block :: below) : s.block below.length = block := by
  have lengths := congrArg List.length split
  simp only [length_blocks, List.length_append, List.length_cons] at lengths
  cases below with
  | nil =>
    have last := congrArg List.getLast? split
    simp only [blocks, List.getLast?_concat, Option.some.injEq] at last
    simpa [Scopes.block] using last
  | cons next below =>
    have position : s.inner[above.length]? = some block := by
      have inside : above.length < s.inner.length := by
        simp only [level, List.length_cons] at lengths
        omega
      have whole : s.blocks[above.length]? = some block := by simp [split]
      rwa [blocks, List.getElem?_append_left inside] at whole
    have index : s.level - (next :: below).length = above.length := by omega
    rw [Scopes.block, if_neg (by simp), index, position]
    rfl

/-- The register notes exactly the levels of the blocks that declare a name, names without levels
are not kept, and no block declares a name twice. -/
structure Coupled (s : Scopes α) : Prop where
  levels : ∀ name, s.register.levels name = declaringLevels name s.blocks
  trim : s.register.Trim
  distinct : ∀ block ∈ s.blocks, (block.map Prod.fst).Nodup

variable {s t : Scopes α}

/-- Blocks with the same meaning have the same register, up to the order of its entries. -/
theorem Coupled.lookup_register (coupled : s.Coupled) (other : t.Coupled)
    (same : s.blocks.map Block.meaning = t.blocks.map Block.meaning) (name : String) :
    s.register.lookup name = t.register.lookup name := by
  rw [coupled.trim.lookup_eq, other.trim.lookup_eq, coupled.levels, other.levels,
    declaringLevels_congr name same]

/-! ### Looking up -/

/-- The innermost level that is noted for a name is that of an open block with the name. -/
theorem Coupled.declared (coupled : s.Coupled) {name : String} {level : Nat}
    (noted : (s.register.levels name).head? = some level) :
    level ≤ s.level ∧ ((s.block level).lookup name).isSome := by
  obtain ⟨levels, declares⟩ := List.head?_eq_some_iff.mp noted
  rw [coupled.levels] at declares
  obtain ⟨above, block, below, split, rfl, declared, -⟩ := exists_block_of_level declares
  have lengths := congrArg List.length split
  simp only [length_blocks, List.length_append, List.length_cons] at lengths
  rw [block_of_blocks split]
  exact ⟨by omega, declared⟩

/-- A name means what the innermost block with it says. -/
theorem Coupled.lookup? (coupled : s.Coupled) (name : String) :
    s.lookup? name = s.blocks.findSome? fun block => block.lookup name := by
  have levels := coupled.levels name
  cases declares : declaringLevels name s.blocks with
  | nil => simp [Scopes.lookup?, levels, declares, findSome?_of_no_level declares]
  | cons level others =>
    obtain ⟨above, block, below, split, length, -, first⟩ := exists_block_of_level declares
    have reached : s.block level = block := by rw [← length, block_of_blocks split]
    simp [Scopes.lookup?, levels, declares, reached, first]

/-! ### Entering, declaring and leaving -/

theorem coupled_empty : (empty : Scopes α).Coupled where
  levels _ := rfl
  trim := by simp [Register.Trim, empty]
  distinct := by simp [blocks, empty]

theorem Coupled.enter (coupled : s.Coupled) : s.enter.Coupled where
  levels := coupled.levels
  trim := coupled.trim
  distinct := List.forall_mem_cons.mpr ⟨List.nodup_nil, coupled.distinct⟩

theorem mem_names_iff {block : Block α} {name : String} :
    name ∈ block.map Prod.fst ↔ (block.lookup name).isSome := by
  rw [List.lookup_isSome_iff, List.mem_map]
  exact exists_congr fun entry => and_congr_right fun _ => by rw [beq_iff_eq, eq_comm]

theorem level_eq {block : Block α} {around : List (Block α)} (split : s.blocks = block :: around) :
    around.length = s.level ∧ s.block s.level = block := by
  have lengths := congrArg List.length split
  rw [length_blocks, List.length_cons] at lengths
  have length : around.length = s.level := by omega
  exact ⟨length, length ▸ @block_of_blocks α s [] around block split⟩

/-- The scopes after a declaration that was not refused. -/
theorem define?_eq (s : Scopes α) (name : String) (v : α) {block : Block α} {around : List (Block α)}
    (split : s.blocks = block :: around) (fresh : block.lookup name = none) :
    ∃ t, s.define? name v = some t ∧ t.register = s.register.push name s.level ∧
      t.blocks = ((name, v) :: block) :: around := by
  have refused : ((s.block s.level).lookup name).isSome = false := by rw [(level_eq split).2, fresh]; rfl
  cases opened : s.inner with
  | nil =>
    obtain ⟨rfl, rfl⟩ : s.outermost = block ∧ [] = around := by simpa [blocks, opened] using split
    exact ⟨⟨(name, v) :: s.outermost, [], s.register.push name s.level⟩,
      by simp [define?, refused, opened], rfl, rfl⟩
  | cons inside inner =>
    obtain ⟨rfl, rfl⟩ : inside = block ∧ inner ++ [s.outermost] = around := by
      simpa [blocks, opened] using split
    exact ⟨⟨s.outermost, ((name, v) :: inside) :: inner, s.register.push name s.level⟩,
      by simp [define?, refused, opened], rfl, rfl⟩

theorem define?_eq_none_iff (s : Scopes α) (name : String) (v : α) {block : Block α} {around : List (Block α)}
    (split : s.blocks = block :: around) : s.define? name v = none ↔ (block.lookup name).isSome := by
  rw [define?, (level_eq split).2]
  cases (block.lookup name).isSome <;> simp

/-- Declaring succeeds unless the innermost block has the name, and changes that block only. -/
theorem Coupled.define (coupled : s.Coupled) {block : Block α} {around : List (Block α)}
    (split : s.blocks = block :: around) {name : String} (fresh : block.lookup name = none) (v : α) :
    ∃ t, s.define? name v = some t ∧ t.Coupled ∧ t.blocks = ((name, v) :: block) :: around := by
  obtain ⟨t, defined, register, blocks⟩ := define?_eq s name v split fresh
  refine ⟨t, defined, ⟨fun other => ?_, ?_, ?_⟩, blocks⟩
  · have before := coupled.levels
    simp only [split, declaringLevels] at before
    rw [register, blocks, Register.levels_push, before, before, declaringLevels, (level_eq split).1]
    by_cases same : other = name
    · subst same
      simp [fresh]
    · have passed : ((name, v) :: block).lookup other = block.lookup other := by
        rw [List.lookup_cons, beq_false_of_ne same]
      rw [if_neg same, passed]
  · rw [register]
    exact coupled.trim.assign name _
  · have distinct := coupled.distinct
    rw [split] at distinct
    obtain ⟨inside, others⟩ := List.forall_mem_cons.mp distinct
    have absent : name ∉ block.map Prod.fst := fun member => by simp [mem_names_iff, fresh] at member
    rw [blocks]
    exact List.forall_mem_cons.mpr ⟨List.nodup_cons.mpr ⟨absent, inside⟩, others⟩

/-- Closes the innermost block and forgets its names in the given order, each of which must have a
level to forget. -/
def leaveBy? (s : Scopes α) (names : List String) : Option (Scopes α) :=
  match s.inner with
  | [] => none
  | _ :: inner => (names.foldlM Register.pop? s.register).map (⟨s.outermost, inner, ·⟩)

/-- In whatever order the names of the innermost block are forgotten, each has a level to forget,
and what remains is coupled. -/
theorem Coupled.leaveBy (coupled : s.Coupled) {closed : Block α} {inner : List (Block α)}
    (opened : s.inner = closed :: inner) {names : List String} (order : names.Perm (closed.map Prod.fst)) :
    s.leaveBy? names = some ⟨s.outermost, inner, names.foldl Register.pop s.register⟩ ∧
      (⟨s.outermost, inner, names.foldl Register.pop s.register⟩ : Scopes α).Coupled := by
  have split : s.blocks = closed :: (inner ++ [s.outermost]) := by simp [blocks, opened]
  obtain ⟨closed_distinct, others⟩ := List.forall_mem_cons.mp (split ▸ coupled.distinct)
  have distinct : names.Nodup := order.nodup_iff.mpr closed_distinct
  have declared {name : String} : name ∈ names ↔ (closed.lookup name).isSome :=
    order.mem_iff.trans mem_names_iff
  have popped := Register.foldlM_pop? (r := s.register) distinct fun name member => by
    rw [coupled.levels, split, declaringLevels, if_pos (declared.mp member)]
    exact List.cons_ne_nil _ _
  refine ⟨by simp [leaveBy?, opened, popped], fun name => ?_, coupled.trim.foldl_pop names, others⟩
  rw [Register.levels_foldl_pop s.register distinct, coupled.levels, split, declaringLevels]
  by_cases member : name ∈ names
  · rw [if_pos member, if_pos (declared.mp member)]
    rfl
  · rw [if_neg member, if_neg (declared.not.mp member)]
    rfl

/-- The order in which a block holds its names is one of those that may be taken. -/
theorem Coupled.leave?_eq (coupled : s.Coupled) {closed : Block α} {inner : List (Block α)}
    (opened : s.inner = closed :: inner) : s.leave? = s.leaveBy? (closed.map Prod.fst) := by
  rw [(coupled.leaveBy opened (.refl _)).1, leave?, opened]

end Scopes

end MiniPascal
