/-!
# JSON documents

A document keeps what a decoder may ask about: numbers as they were written, the members of
an object in their order and with repetitions, and for a string its text, if it has one.
A string whose escapes leave half of a surrogate pair over has none.

`Json.text` writes a document without spaces.
-/

namespace MiniPascal

inductive Json where
  | null
  | bool (value : Bool)
  | number (written : String)
  | string (text : Option String)
  | array (items : List Json)
  | object (members : List (Option String × Json))

namespace Json

instance : Inhabited Json := ⟨null⟩

/-! ## Building -/

def ofString (s : String) : Json := string (some s)

def ofNat (n : Nat) : Json := number (toString n)

def ofInt (n : Int) : Json := number (toString n)

def record (members : List (String × Json)) : Json :=
  object (members.map fun m => (some m.1, m.2))

/-- A named alternative together with what it holds. -/
def alternative (name : String) (content : Json) : Json :=
  record [(name, content)]

def orNull {α : Type} (encode : α → Json) : Option α → Json
  | some a => encode a
  | none => null

/-! ## Writing -/

/-- A hexadecimal digit, lower case. -/
def hexDigit (n : Nat) : Char :=
  Nat.digitChar n

/-- One character of a string: quotes, backslashes and the characters below the space are
escaped. -/
def escape (c : Char) : List Char :=
  if c = '"' then ['\\', '"']
  else if c = '\\' then ['\\', '\\']
  else if c = '\x08' then ['\\', 'b']
  else if c = '\t' then ['\\', 't']
  else if c = '\n' then ['\\', 'n']
  else if c = '\x0c' then ['\\', 'f']
  else if c = '\r' then ['\\', 'r']
  else if c.toNat < 0x20 then
    ['\\', 'u', '0', '0', hexDigit (c.toNat / 16), hexDigit (c.toNat % 16)]
  else [c]

def quote (s : String) : List Char :=
  '"' :: s.toList.flatMap escape ++ ['"']

/-- A string that has no text is written as half of a surrogate pair. -/
def writeString : Option String → List Char
  | some s => quote s
  | none => "\"\\ud800\"".toList

mutual

def chars : Json → List Char
  | null => ['n', 'u', 'l', 'l']
  | bool true => ['t', 'r', 'u', 'e']
  | bool false => ['f', 'a', 'l', 's', 'e']
  | number written => written.toList
  | string text => writeString text
  | array [] => ['[', ']']
  | array (item :: items) => '[' :: item.chars ++ itemChars items
  | object [] => ['{', '}']
  | object ((key, value) :: members) =>
    '{' :: writeString key ++ ':' :: value.chars ++ memberChars members

/-- The items after the first, up to the closing bracket. -/
def itemChars : List Json → List Char
  | [] => [']']
  | item :: items => ',' :: item.chars ++ itemChars items

/-- The members after the first, up to the closing brace. -/
def memberChars : List (Option String × Json) → List Char
  | [] => ['}']
  | (key, value) :: members => ',' :: writeString key ++ ':' :: value.chars ++ memberChars members

end

def text (j : Json) : String :=
  String.ofList j.chars

end Json

end MiniPascal
