import MiniPascal.Json.Decoder

/-!
# Symbols

A symbol is anything that has a name: constants, variables, parameters, arrays, procedures,
functions and types. Symbols refer to each other by their index in a table, and a type is
the index of the symbol that names it. The first three entries of a table are the builtin
types.
-/

namespace MiniPascal

abbrev SymbolIndex := Nat

namespace SymbolIndex

/-- Symbols and types without a name to show are shown as their index. -/
def text (i : SymbolIndex) : String :=
  "#" ++ toString i

def decoder : Decoder SymbolIndex :=
  Decoder.natural 64

end SymbolIndex

/-- The type of what has no value. -/
abbrev voidType : SymbolIndex := 0

abbrev integerType : SymbolIndex := 1

abbrev realType : SymbolIndex := 2

/-- The names of the builtin types, in the order of their indices. -/
def builtinTypes : List String := ["void", "integer", "real"]

/-! ## Kinds -/

inductive SymbolKind where
  | constant
  | variable
  | parameter
  | array
  | procedure
  | function
  | namedType
deriving DecidableEq

namespace SymbolKind

/-- Whether symbols of this kind have a body and parameters. -/
def isRoutine : SymbolKind → Bool
  | .procedure | .function => true
  | _ => false

def text : SymbolKind → String
  | .constant => "constant"
  | .variable => "variable"
  | .parameter => "parameter"
  | .array => "array"
  | .procedure => "procedure"
  | .function => "function"
  | .namedType => "type"

def tag : SymbolKind → String
  | .constant => "Const"
  | .variable => "Var"
  | .parameter => "Param"
  | .array => "Array"
  | .procedure => "Proc"
  | .function => "Func"
  | .namedType => "NameType"

def ofTag? : String → Option SymbolKind
  | "Const" => some .constant
  | "Var" => some .variable
  | "Param" => some .parameter
  | "Array" => some .array
  | "Proc" => some .procedure
  | "Func" => some .function
  | "NameType" => some .namedType
  | _ => none

end SymbolKind

/-! ## Constants -/

inductive Constant where
  | integer (value : Int)
  | real (value : Float)
deriving DecidableEq

namespace Constant

def type : Constant → SymbolIndex
  | integer _ => integerType
  | real _ => realType

def toJson : Constant → Json
  | integer v => .alternative "Integer" (.ofInt v)
  | real v => .alternative "Real" (.ofReal v)

def decoder : Decoder Constant :=
  Decoder.alternative fun name n j =>
    match name with
    | "Integer" => (Decoder.int64 n j).map integer
    | "Real" => (Decoder.real n j).map real
    | _ => none

end Constant

/-! ## Entries -/

structure Symbol where
  name : String
  kind : SymbolKind
  /-- the type of a value, of the elements of an array or of the result of a function;
  `voidType` for procedures and types -/
  type : SymbolIndex
  /-- the parameters of a routine in their order -/
  params : List SymbolIndex
  /-- the value of a constant -/
  value : Option Constant
  /-- the number of elements of an array -/
  size : Option Nat
deriving DecidableEq

namespace Symbol

/-- A symbol without parameters, value and size. -/
def plain (name : String) (kind : SymbolKind) (type : SymbolIndex) : Symbol :=
  ⟨name, kind, type, [], none, none⟩

def toJson (s : Symbol) : Json :=
  .record [
    ("name", .ofString s.name),
    ("tag", .ofString s.kind.tag),
    ("ty", .ofNat s.type),
    ("params", .array (s.params.map .ofNat)),
    ("const_value", .orNull Constant.toJson s.value),
    ("cardinality", .orNull .ofNat s.size)]

def decoder : Decoder Symbol :=
  Decoder.record ["name", "tag", "ty", "params", "const_value", "cardinality"]
    fun fields n => do
      let name ← Decoder.required Decoder.string "name" fields n
      let kind ← Decoder.required (Decoder.named SymbolKind.ofTag?) "tag" fields n
      let type ← Decoder.required SymbolIndex.decoder "ty" fields n
      let params ← Decoder.defaulted (Decoder.list SymbolIndex.decoder) [] "params" fields n
      let value ← Decoder.optional Constant.decoder "const_value" fields n
      let size ← Decoder.optional (Decoder.natural 64) "cardinality" fields n
      return ⟨name, kind, type, params, value, size⟩

end Symbol

end MiniPascal
