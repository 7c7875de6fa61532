/-!
# Nested scopes

Names are declared in blocks that lie one inside the other, and a name means what the
innermost block that declares it says. Beside the blocks a register is kept that tells for
each name at which levels it is declared, innermost first, so that a name is looked up in
one block only. The outermost block has level zero and is never left.
-/

namespace MiniPascal

abbrev Block (α : Type) := List (String × α)

/-- For each declared name the levels of the blocks that declare it, innermost first. -/
abbrev Register := List (String × List Nat)

namespace Register

def levels (r : Register) (name : String) : List Nat :=
  (r.lookup name).getD []

def without (r : Register) (name : String) : Register :=
  r.filter fun entry => entry.1 ≠ name

/-- Replaces the levels of a name; names without any are not kept. -/
def assign (r : Register) (name : String) (levels : List Nat) : Register :=
  if levels.isEmpty then r.without name else (name, levels) :: r.without name

/-- Notes a declaration at a level below which the name is already known at most. -/
def push (r : Register) (name : String) (level : Nat) : Register :=
  r.assign name (level :: r.levels name)

/-- Forgets the innermost declaration of a name. -/
def pop (r : Register) (name : String) : Register :=
  r.assign name (r.levels name).tail

/-- Leaving a name out takes away its levels and no others. -/
theorem levels_without (r : Register) (name other : String) :
    (r.without name).levels other = if other = name then [] else r.levels other := by
  unfold levels without
  induction r with
  | nil => simp
  | cons entry r ih =>
    obtain ⟨key, levels⟩ := entry
    by_cases hk : key = name
    · by_cases ho : other = name
      · simp_all
      · have hb : (other == key) = false := by simp [hk, ho]
        have hf : ((key, levels) :: r).filter (fun entry => decide (entry.1 ≠ name)) =
            r.filter (fun entry => decide (entry.1 ≠ name)) := by simp [hk]
        rw [hf, List.lookup_cons, hb]
        exact ih
    · by_cases ho : other = key
      · have hn : ¬other = name := by rw [ho]; exact hk
        have hf : ((key, levels) :: r).filter (fun entry => decide (entry.1 ≠ name)) =
            (key, levels) :: r.filter (fun entry => decide (entry.1 ≠ name)) := by simp [hk]
        rw [hf, ho]
        simp [hk]
      · have hb : (other == key) = false := by simp [ho]
        have hf : ((key, levels) :: r).filter (fun entry => decide (entry.1 ≠ name)) =
            (key, levels) :: r.filter (fun entry => decide (entry.1 ≠ name)) := by simp [hk]
        rw [hf, List.lookup_cons, hb, List.lookup_cons, hb]
        exact ih

/-- A name has the levels it was given last, and the others keep theirs. -/
@[simp] theorem levels_assign (r : Register) (name : String) (levels : List Nat)
    (other : String) :
    (r.assign name levels).levels other = if other = name then levels else r.levels other := by
  cases levels with
  | nil => simp [assign, levels_without]
  | cons level levels =>
    by_cases h : other = name
    · simp [assign, Register.levels, h]
    · have hb : (other == name) = false := by simp [h]
      have hw := levels_without r name other
      simp only [if_neg h] at hw
      simp only [assign, List.isEmpty_cons, Bool.false_eq_true, if_false, if_neg h]
      rw [← hw, Register.levels, List.lookup_cons, hb, Register.levels]

@[simp] theorem levels_push (r : Register) (name : String) (level : Nat) (other : String) :
    (r.push name level).levels other =
      if other = name then level :: r.levels name else r.levels other := by
  simp [push]

@[simp] theorem levels_pop (r : Register) (name other : String) :
    (r.pop name).levels other = if other = name then (r.levels name).tail else r.levels other := by
  simp [pop]

end Register

structure Scopes (α : Type) where
  outermost : Block α
  /-- the other blocks, innermost first -/
  inner : List (Block α)
  register : Register

namespace Scopes

variable {α : Type}

/-- Only the outermost block, without declarations. -/
def empty : Scopes α := ⟨[], [], []⟩

def level (s : Scopes α) : Nat :=
  s.inner.length

/-- The block at a level; there is none above the innermost. -/
def block (s : Scopes α) (level : Nat) : Block α :=
  if level = 0 then s.outermost else (s.inner[s.level - level]?).getD []

def enter (s : Scopes α) : Scopes α :=
  { s with inner := [] :: s.inner }

/-- Closes the innermost block and forgets what it declares. The outermost block stays. -/
def leave? (s : Scopes α) : Option (Scopes α) :=
  match s.inner with
  | [] => none
  | closed :: inner =>
    some ⟨s.outermost, inner, (closed.map Prod.fst).foldl Register.pop s.register⟩

/-- Declares a name in the innermost block, which must not declare it yet. -/
def define? (s : Scopes α) (name : String) (v : α) : Option (Scopes α) :=
  if ((s.block s.level).lookup name).isSome then none else
    let register := s.register.push name s.level
    some <| match s.inner with
      | [] => ⟨(name, v) :: s.outermost, [], register⟩
      | block :: inner => ⟨s.outermost, ((name, v) :: block) :: inner, register⟩

def lookup? (s : Scopes α) (name : String) : Option α := do
  (s.block (← (s.register.levels name).head?)).lookup name

end Scopes

end MiniPascal
