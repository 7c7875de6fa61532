import MiniPascal.Proofs.Scopes.Coupling
import Mathlib.Logic.Function.Basic

/-!
# Nested scopes are a stack of blocks

A stack of blocks keeps one map for every open block and looks a name up from the innermost block
outwards. Scopes with a register answer every sequence of calls like such a stack, in whatever
order the names of a closed block are forgotten.
-/

namespace MiniPascal

variable {α : Type}

/-! ## Stacks of blocks -/

structure BlockStack (α : Type) where
  innermost : String → Option α
  /-- the blocks around the innermost one, the nearest first -/
  around : List (String → Option α)

namespace BlockStack

/-- Only the outermost block, without declarations. -/
def empty : BlockStack α := ⟨fun _ => none, []⟩

def enter (b : BlockStack α) : BlockStack α :=
  ⟨fun _ => none, b.innermost :: b.around⟩

def leave? (b : BlockStack α) : Option (BlockStack α) :=
  match b.around with
  | [] => none
  | outer :: around => some ⟨outer, around⟩

def define? (b : BlockStack α) (name : String) (v : α) : Option (BlockStack α) :=
  if (b.innermost name).isSome then none
  else some { b with innermost := Function.update b.innermost name (some v) }

def lookup? (b : BlockStack α) (name : String) : Option α :=
  (b.innermost :: b.around).findSome? fun block => block name

theorem leave?_eq_some_iff {b outer : BlockStack α} :
    b.leave? = some outer ↔ b.around = outer.innermost :: outer.around := by
  cases around : b.around with
  | nil => simp [leave?, around]
  | cons block others =>
    cases outer
    simp [leave?, around]

end BlockStack

/-! ## Calls -/

inductive ScopeCall (α : Type) where
  | enter
  | leave
  | define (name : String) (v : α)
  | look (name : String)

inductive ScopeAnswer (α : Type) where
  | done
  | refused
  | found (v : Option α)
deriving DecidableEq

/-- What can be done with nested scopes, however they are kept. -/
class Scoping (σ : Type) (α : outParam Type) where
  enter : σ → σ
  leave? : σ → Option σ
  define? : σ → String → α → Option σ
  lookup? : σ → String → Option α

instance : Scoping (Scopes α) α := ⟨Scopes.enter, Scopes.leave?, Scopes.define?, Scopes.lookup?⟩

instance : Scoping (BlockStack α) α :=
  ⟨BlockStack.enter, BlockStack.leave?, BlockStack.define?, BlockStack.lookup?⟩

/-- What is refused changes nothing. -/
def orRefused {σ : Type} (s : σ) (after : Option σ) : σ × ScopeAnswer α :=
  match after with
  | some t => (t, .done)
  | none => (s, .refused)

theorem fst_orRefused {σ : Type} {s : σ} {after : Option σ} (refused : (orRefused s after : σ × ScopeAnswer α).2 = .refused) :
    (orRefused s after : σ × ScopeAnswer α).1 = s := by
  cases after with
  | none => rfl
  | some t => contradiction

def ScopeCall.apply {σ : Type} [Scoping σ α] (s : σ) : ScopeCall α → σ × ScopeAnswer α
  | enter => (Scoping.enter s, .done)
  | leave => orRefused s (Scoping.leave? s)
  | define name v => orRefused s (Scoping.define? s name v)
  | look name => (s, .found (Scoping.lookup? s name))

/-- Makes one call after the other. Yields what there is afterwards, and the answers. -/
def runCalls {σ : Type} [Scoping σ α] (s : σ) : List (ScopeCall α) → σ × List (ScopeAnswer α)
  | [] => (s, [])
  | c :: cs =>
    let (t, answer) := c.apply s
    let (u, answers) := runCalls t cs
    (u, answer :: answers)

/-- Calls on scopes, their answers and the scopes afterwards, where a block that is closed may be
forgotten in any order of its names. -/
inductive Scopes.Run : Scopes α → List (ScopeCall α) → List (ScopeAnswer α) → Scopes α → Prop
  | nil (s) : Run s [] [] s
  | call {s t cs answers} (c : ScopeCall α) : Run (c.apply s).1 cs answers t →
    Run s (c :: cs) ((c.apply s).2 :: answers) t
  | leave {s t u closed inner names cs answers} : s.inner = closed :: inner →
    names.Perm (closed.map Prod.fst) → s.leaveBy? names = some t → Run t cs answers u →
    Run s (.leave :: cs) (.done :: answers) u

/-- Calls that leave just the blocks that they enter. -/
inductive Balanced : List (ScopeCall α) → Prop
  | nil : Balanced []
  | define (name v) {cs} : Balanced cs → Balanced (.define name v :: cs)
  | look (name) {cs} : Balanced cs → Balanced (.look name :: cs)
  | block {inside cs} : Balanced inside → Balanced cs → Balanced (.enter :: inside ++ .leave :: cs)

/-! ## Simulation -/

theorem meaning_cons (name : String) (v : α) (block : Block α) :
    Block.meaning ((name, v) :: block) = Function.update block.meaning name (some v) := by
  funext other
  rw [Function.update_apply, Block.meaning, List.lookup_cons]
  by_cases same : other = name
  · simp [same]
  · simp [same, Block.meaning, beq_false_of_ne same]

/-- The blocks of coupled scopes mean the maps of a stack. -/
structure Scopes.Means (s : Scopes α) (b : BlockStack α) : Prop where
  coupled : s.Coupled
  blocks : s.blocks.map Block.meaning = b.innermost :: b.around

namespace Scopes

variable {s : Scopes α} {b : BlockStack α}

theorem means_empty : (empty : Scopes α).Means .empty :=
  ⟨coupled_empty, rfl⟩

theorem Means.enter (means : s.Means b) : s.enter.Means b.enter :=
  ⟨means.coupled.enter, congrArg (_ :: ·) means.blocks⟩

theorem Means.lookup? (means : s.Means b) (name : String) : s.lookup? name = b.lookup? name := by
  rw [means.coupled.lookup?, BlockStack.lookup?, ← means.blocks, List.findSome?_map]
  rfl

/-- Scopes that mean the same stack have the same register, up to the order of its entries. -/
theorem Means.lookup_register {t : Scopes α} (means : s.Means b) (other : t.Means b) (name : String) :
    s.register.lookup name = t.register.lookup name :=
  means.coupled.lookup_register other.coupled (means.blocks.trans other.blocks.symm) name

theorem Means.split (means : s.Means b) :
    ∃ block around, s.blocks = block :: around ∧ block.meaning = b.innermost ∧
      around.map Block.meaning = b.around :=
  List.map_eq_cons_iff.mp means.blocks

theorem Means.define?_eq_none_iff (means : s.Means b) (name : String) (v : α) :
    s.define? name v = none ↔ (b.innermost name).isSome := by
  obtain ⟨block, around, split, innermost, -⟩ := means.split
  rw [Scopes.define?_eq_none_iff s name v split, ← innermost]
  rfl

theorem Means.define (means : s.Means b) {name : String} (fresh : b.innermost name = none) (v : α) :
    ∃ t, s.define? name v = some t ∧
      t.Means { b with innermost := Function.update b.innermost name (some v) } := by
  obtain ⟨block, around, split, innermost, outer⟩ := means.split
  rw [← innermost] at fresh
  obtain ⟨t, defined, coupled, blocks⟩ := means.coupled.define split fresh v
  refine ⟨t, defined, coupled, ?_⟩
  rw [blocks, List.map_cons, meaning_cons, innermost, outer]

theorem Means.inner_eq_nil_iff (means : s.Means b) : s.inner = [] ↔ b.around = [] := by
  have lengths := congrArg List.length means.blocks
  simp only [List.length_map, length_blocks, level, List.length_cons] at lengths
  rw [← List.length_eq_zero_iff, ← List.length_eq_zero_iff]
  omega

/-- Whatever the order in which its names are forgotten, a block can be closed, and the block
around it is the innermost one again. -/
theorem Means.leaveBy (means : s.Means b) {closed : Block α} {inner : List (Block α)} {names : List String}
    (opened : s.inner = closed :: inner) (order : names.Perm (closed.map Prod.fst)) :
    ∃ t outer, s.leaveBy? names = some t ∧ b.leave? = some outer ∧ t.Means outer := by
  obtain ⟨left, coupled⟩ := means.coupled.leaveBy opened order
  have blocks := means.blocks
  simp only [Scopes.blocks, opened, List.cons_append, List.map_cons, List.cons.injEq] at blocks
  cases around : b.around with
  | nil => simp [around] at blocks
  | cons outer others =>
    rw [around] at blocks
    exact ⟨_, ⟨outer, others⟩, left, BlockStack.leave?_eq_some_iff.mpr around, coupled, blocks.2⟩

theorem Means.of_define? {t : Scopes α} (means : s.Means b) {name : String} {v : α}
    (defined : s.define? name v = some t) :
    t.Means { b with innermost := Function.update b.innermost name (some v) } := by
  have fresh : b.innermost name = none := by
    have accepted := (means.define?_eq_none_iff name v).not.mp (by simp [defined])
    simpa using accepted
  obtain ⟨t', defined', means'⟩ := means.define fresh v
  obtain rfl := Option.some.inj (defined.symm.trans defined')
  exact means'

theorem Means.of_leave? {t : Scopes α} (means : s.Means b) (left : s.leave? = some t) :
    ∃ outer, b.leave? = some outer ∧ t.Means outer := by
  cases opened : s.inner with
  | nil => simp [leave?, opened] at left
  | cons closed inner =>
    obtain ⟨t', outer, left', outer_left, means'⟩ := means.leaveBy opened (.refl _)
    rw [means.coupled.leave?_eq opened, left'] at left
    obtain rfl := Option.some.inj left
    exact ⟨outer, outer_left, means'⟩

theorem Means.leave?_eq_none_iff (means : s.Means b) : s.leave? = none ↔ b.around = [] := by
  rw [← means.inner_eq_nil_iff]
  cases opened : s.inner <;> simp [leave?, opened]

/-! ## Calls on both -/

/-- A call is answered by scopes as by the stack they mean, and they go on meaning it. -/
theorem Means.apply (means : s.Means b) (c : ScopeCall α) :
    (c.apply s).1.Means (c.apply b).1 ∧ (c.apply s).2 = (c.apply b).2 := by
  cases c with
  | enter => exact ⟨means.enter, rfl⟩
  | look name => exact ⟨means, congrArg ScopeAnswer.found (means.lookup? name)⟩
  | define name v =>
    cases known : b.innermost name with
    | some w =>
      have refused : s.define? name v = none := (means.define?_eq_none_iff name v).mpr (by simp [known])
      simp [ScopeCall.apply, Scoping.define?, BlockStack.define?, known, refused, orRefused, means]
    | none =>
      obtain ⟨t, defined, means⟩ := means.define known v
      simp [ScopeCall.apply, Scoping.define?, BlockStack.define?, known, defined, orRefused, means]
  | leave =>
    cases left : s.leave? with
    | none =>
      have root : b.around = [] := means.leave?_eq_none_iff.mp left
      simp [ScopeCall.apply, Scoping.leave?, BlockStack.leave?, left, root, orRefused, means]
    | some t =>
      obtain ⟨outer, outer_left, outer_means⟩ := means.of_leave? left
      simp [ScopeCall.apply, Scoping.leave?, left, outer_left, orRefused, outer_means]

theorem Means.run {t : Scopes α} {cs : List (ScopeCall α)} {answers : List (ScopeAnswer α)}
    (run : Run s cs answers t) (means : s.Means b) :
    t.Means (runCalls b cs).1 ∧ answers = (runCalls b cs).2 := by
  induction run generalizing b with
  | nil s => exact ⟨means, rfl⟩
  | call c _ ih =>
    obtain ⟨next, answer⟩ := means.apply c
    obtain ⟨final, others⟩ := ih next
    exact ⟨final, by rw [answer, others]; rfl⟩
  | leave opened order left _ ih =>
    obtain ⟨t, outer, left', outer_left, next⟩ := means.leaveBy opened order
    obtain rfl := Option.some.inj (left.symm.trans left')
    obtain ⟨final, others⟩ := ih next
    have applied : ScopeCall.leave.apply b = (outer, .done) := by
      simp [ScopeCall.apply, Scoping.leave?, outer_left, orRefused]
    simp only [runCalls, applied]
    exact ⟨final, by rw [others]⟩

/-- Closing blocks in the order in which they hold their names is one way to run. -/
theorem run_runCalls (s : Scopes α) (cs : List (ScopeCall α)) : Run s cs (runCalls s cs).2 (runCalls s cs).1 := by
  induction cs generalizing s with
  | nil => exact .nil s
  | cons c cs ih => exact .call c (ih _)

end Scopes

/-! ## Closed blocks -/

theorem fst_runCalls_append {σ : Type} [Scoping σ α] (s : σ) (cs ds : List (ScopeCall α)) :
    (runCalls s (cs ++ ds)).1 = (runCalls (runCalls s cs).1 ds).1 := by
  induction cs generalizing s with
  | nil => rfl
  | cons c cs ih => exact ih _

theorem snd_runCalls_append {σ : Type} [Scoping σ α] (s : σ) (cs ds : List (ScopeCall α)) :
    (runCalls s (cs ++ ds)).2 = (runCalls s cs).2 ++ (runCalls (runCalls s cs).1 ds).2 := by
  induction cs generalizing s with
  | nil => rfl
  | cons c cs ih => exact congrArg (_ :: ·) (ih _)

namespace BlockStack

theorem apply_leave {b outer : BlockStack α} (around : b.around = outer.innermost :: outer.around) :
    ScopeCall.leave.apply b = (outer, .done) := by
  simp [ScopeCall.apply, Scoping.leave?, leave?_eq_some_iff.mpr around, orRefused]

/-- Calls that leave just the blocks that they enter happen inside of the innermost block. -/
theorem around_runCalls {cs : List (ScopeCall α)} (balanced : Balanced cs) (b : BlockStack α) :
    (runCalls b cs).1.around = b.around := by
  induction balanced generalizing b with
  | nil => rfl
  | define name v _ ih =>
    rw [runCalls, ih]
    cases known : b.innermost name <;>
      simp [ScopeCall.apply, Scoping.define?, define?, known, orRefused]
  | look name _ ih => exact ih b
  | @block inside cs _ _ inside_ih ih =>
    have left : ScopeCall.leave.apply (runCalls b.enter inside).1 = (b, .done) := apply_leave (inside_ih b.enter)
    rw [fst_runCalls_append]
    change (runCalls (ScopeCall.leave.apply (runCalls b.enter inside).1).1 cs).1.around = b.around
    rw [left, ih]

/-- After a block was closed, all is as it was when the block was entered. -/
theorem runCalls_block {inside : List (ScopeCall α)} (balanced : Balanced inside) (b : BlockStack α) :
    runCalls b (.enter :: inside ++ [.leave]) = (b, .done :: (runCalls b.enter inside).2 ++ [.done]) := by
  have left : ScopeCall.leave.apply (runCalls b.enter inside).1 = (b, .done) :=
    apply_leave (around_runCalls balanced b.enter)
  have last : runCalls (runCalls b.enter inside).1 [.leave] = (b, [.done]) := by simp only [runCalls, left]
  apply Prod.ext
  · rw [fst_runCalls_append]
    change (runCalls (runCalls b.enter inside).1 [.leave]).1 = b
    rw [last]
  · rw [snd_runCalls_append]
    change ScopeAnswer.done :: (runCalls b.enter inside).2 ++ (runCalls (runCalls b.enter inside).1 [.leave]).2 = _
    rw [last]

end BlockStack

/-! ## Refinement -/

/-- What is true of scopes after calls that they gave these answers to. The stack went through the
same calls. -/
structure Scopes.Refines (calls : List (ScopeCall α)) (answers : List (ScopeAnswer α)) (s : Scopes α)
    (b : BlockStack α) : Prop where
  answers : answers = (runCalls BlockStack.empty calls).2
  /-- the open blocks are the same maps -/
  blocks : s.blocks.map Block.meaning = b.innermost :: b.around
  /-- the register has the same entries as if names were forgotten in the order of the blocks -/
  register : ∀ name, s.register.lookup name = (runCalls Scopes.empty calls).1.register.lookup name
  refuses_define : ∀ name v, s.define? name v = none ↔ (b.innermost name).isSome
  refuses_leave : s.leave? = none ↔ b.around = []
  /-- a refused call changes nothing -/
  unchanged : ∀ c : ScopeCall α, (c.apply s).2 = .refused → (c.apply s).1 = s
  /-- every name of a closed block has a level to forget when its turn comes -/
  forgets : ∀ closed inner names, s.inner = closed :: inner → names.Perm (closed.map Prod.fst) →
    (s.leaveBy? names).isSome
  /-- a name is declared where the register says that it is -/
  declared : ∀ name level, (s.register.levels name).head? = some level →
    level ≤ s.level ∧ ((s.block level).lookup name).isSome
  /-- leaving a block restores what was visible when it was entered -/
  restores : ∀ inside answers t, Balanced inside → Run s (.enter :: inside ++ [.leave]) answers t →
    answers.getLast? = some .done ∧ ∀ name, t.lookup? name = s.lookup? name

/-- Scopes do what a plain stack of blocks does, whatever the order in which the names of closed
blocks are forgotten. -/
theorem scopes_refine_blocks (calls : List (ScopeCall α)) :
    (∃ answers s, Scopes.Run .empty calls answers s) ∧
      ∀ answers s, Scopes.Run .empty calls answers s →
        Scopes.Refines calls answers s (runCalls BlockStack.empty calls).1 := by
  have first := Scopes.run_runCalls Scopes.empty calls
  refine ⟨⟨_, _, first⟩, fun answers s run => ?_⟩
  obtain ⟨first_means, -⟩ := Scopes.means_empty.run first
  obtain ⟨means, answers_eq⟩ := Scopes.means_empty.run run
  exact {
    answers := answers_eq
    blocks := means.blocks
    register := means.lookup_register first_means
    refuses_define := means.define?_eq_none_iff
    refuses_leave := means.leave?_eq_none_iff
    unchanged := fun c refused => by
      cases c with
      | enter => contradiction
      | look name => rfl
      | leave | define name v => exact fst_orRefused refused
    forgets := fun closed inner names opened order => by
      rw [(means.coupled.leaveBy opened order).1]
      rfl
    declared := fun name level => means.coupled.declared
    restores := fun inside answers t balanced inner_run => by
      obtain ⟨t_means, answers_eq⟩ := means.run inner_run
      rw [BlockStack.runCalls_block balanced] at t_means answers_eq
      refine ⟨by rw [answers_eq]; exact List.getLast?_concat, fun name => ?_⟩
      rw [t_means.lookup?, means.lookup?] }

/-- A block that shadows a name and declares another one is closed, the shadowing name first. -/
theorem scopes_refine_blocks_shadowing :
    let calls : List (ScopeCall Nat) :=
      [.define "x" 1, .enter, .define "x" 2, .define "y" 3, .leave, .look "x", .look "y"]
    let answers : List (ScopeAnswer Nat) :=
      [.done, .done, .done, .done, .done, .found (some 1), .found none]
    ∃ s, Scopes.Run .empty calls answers s ∧
      Scopes.Refines calls answers s (runCalls BlockStack.empty calls).1 := by
  intro calls answers
  have run : Scopes.Run .empty calls answers ⟨[("x", 1)], [], [("x", [0])]⟩ := by
    refine .call (.define "x" 1) (.call .enter (.call (.define "x" 2) (.call (.define "y" 3) ?_)))
    refine .leave rfl (List.Perm.swap "y" "x" []) rfl ?_
    exact .call (.look "x") (.call (.look "y") (.nil _))
  exact ⟨_, run, (scopes_refine_blocks calls).2 answers _ run⟩

end MiniPascal
