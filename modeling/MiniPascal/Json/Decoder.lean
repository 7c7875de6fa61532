import MiniPascal.Json.Reader
import MiniPascal.Decimal.Layout
import MiniPascal.Decimal.Stepwise

/-!
# Decoding JSON documents

A decoder turns a document into a value of some type, or refuses it. It is told how many
containers it may open, one inside the other, so that trees of any kind are decoded by
recursion on that number. What a decoder does not look at does not count.

A record is written as an object, whose unknown members are skipped, or as an array of its
fields in their order, where fields may be missing at the end.
-/

namespace MiniPascal

/-- Decodes a document in which at most the given number of containers are nested. -/
abbrev Decoder (α : Type) := Nat → Json → Option α

namespace Json

def nestingLimit : Nat := 127

def decode? {α : Type} (decoder : Decoder α) (s : String) : Option α :=
  (parse? s).bind (decoder nestingLimit)

end Json

namespace Decoder

variable {α : Type}

/-! ## Single values -/

def integer (least greatest : Int) : Decoder Int
  | _, .number written => do
    let n ← (← Decimal.Numeral.ofChars? written.toList).integer?
    if least ≤ n ∧ n ≤ greatest then some n else none
  | _, _ => none

/-- A natural number of at most `width` binary digits. -/
def natural (width : Nat) : Decoder Nat := fun n j =>
  (integer 0 (Nat.pow 2 width - 1 : Nat) n j).map Int.toNat

/-- A whole number of 64 binary digits, one of them for the sign. -/
def int64 : Decoder Int :=
  integer Int64.minValue.toInt Int64.maxValue.toInt

/-- Any number in the range of the doubles, read in steps. -/
def real : Decoder Float
  | _, .number written => do (← Decimal.Numeral.ofChars? written.toList).stepwiseReal?
  | _, _ => none

def string : Decoder String
  | _, .string text => text
  | _, _ => none

def nullable (decoder : Decoder α) : Decoder (Option α)
  | _, .null => some none
  | n, j => (decoder n j).map some

/-! ## Containers -/

def list (decoder : Decoder α) : Decoder (List α)
  | n + 1, .array items => items.mapM (decoder n)
  | _, _ => none

/-- An alternative with something in it: an object with one member. -/
def alternative (content : String → Decoder α) : Decoder α
  | n + 1, .object [(some name, j)] => content name n j
  | _, _ => none

/-- An alternative without anything in it: its name, or an object with that name over
`null`. -/
def named (choose : String → Option α) : Decoder α
  | _, .string (some name) => choose name
  | _ + 1, .object [(some name, .null)] => choose name
  | _, _ => none

/-! ## Records -/

/-- The fields of a record that are present. -/
abbrev Fields := List (String × Json)

/-- The members of an object, if all of their keys have a text. -/
def members? (members : List (Option String × Json)) : Option Fields :=
  members.mapM fun (key, j) => key.map (·, j)

/-- The fields among `names`, of which none may be repeated. -/
def fields? (names : List String) : Json → Option Fields
  | .object members => do
    let known := (← members? members).filter fun field => names.contains field.1
    if (known.map Prod.fst).Nodup then some known else none
  | .array items => if items.length ≤ names.length then some (names.zip items) else none
  | _ => none

def record (names : List String) (content : Fields → Nat → Option α) : Decoder α
  | n + 1, j => do content (← fields? names j) n
  | _, _ => none

def required (decoder : Decoder α) (name : String) (fields : Fields) (n : Nat) : Option α := do
  decoder n (← fields.lookup name)

/-- The value of a field, or `default` in its absence. -/
def defaulted (decoder : Decoder α) (default : α) (name : String) (fields : Fields) (n : Nat) :
    Option α :=
  match fields.lookup name with
  | some j => decoder n j
  | none => some default

/-- The value of a field that may be absent or `null`. -/
def optional (decoder : Decoder α) : String → Fields → Nat → Option (Option α) :=
  defaulted (nullable decoder) none

end Decoder

/-- A double in JSON; infinities and NaN are written as `null`. -/
def Json.ofReal (r : Float) : Json :=
  if Decimal.Binary64.isFinite r then number (Decimal.Layout.json.text r) else null

end MiniPascal
