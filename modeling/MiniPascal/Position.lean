/-!
# Source positions

Every node of a tree and nearly every message says where in the source it belongs.
Positions are ordered by line first. A located value is its value together with a
position, and two located values are the same when their values are.
-/

namespace MiniPascal

structure Position where
  line : Nat
  column : Nat
deriving DecidableEq, Inhabited

namespace Position

def text (p : Position) : String :=
  toString p.line ++ ":" ++ toString p.column

/-- The line decides; on one line the column does. -/
def order (p q : Position) : Ordering :=
  (compare p.line q.line).then (compare p.column q.column)

instance : Ord Position := ⟨order⟩

end Position

/-- A value and the place in the source it was read from. -/
structure Located (α : Type) where
  pos : Position
  value : α
deriving DecidableEq

namespace Located

variable {α β : Type}

/-- The place of a located value does not count when it is compared. -/
def same [BEq α] (a b : Located α) : Bool :=
  a.value == b.value

def map (f : α → β) (a : Located α) : Located β :=
  ⟨a.pos, f a.value⟩

def text [ToString α] (a : Located α) : String :=
  toString a.value ++ " at " ++ a.pos.text

end Located

/-- A value that is located, or one that belongs to no place in particular. -/
inductive Placed (α : Type) where
  | here (item : Located α)
  | nowhere (value : α)

namespace Placed

variable {α : Type}

def pos? : Placed α → Option Position
  | here item => some item.pos
  | nowhere _ => none

def value : Placed α → α
  | here item => item.value
  | nowhere v => v

end Placed

end MiniPascal
