import MiniPascal.Json.Token

/-!
# Reading JSON documents

A document is read by an automaton that takes one token at a time. Its frames are the
arrays and objects that are still open, innermost first, so nesting costs frames and no
recursion, and the reader itself sets no limit to it.
-/

namespace MiniPascal.Json

inductive Frame where
  /-- the items so far, last one first -/
  | array (items : List Json)
  /-- the members so far, last one first, and the key whose value comes next -/
  | object (members : List (Option String × Json)) (key : Option String)

inductive Reader where
  /-- a value -/
  | value (outer : List Frame)
  /-- the first item of an array, or its end -/
  | firstItem (outer : List Frame)
  /-- the first key of an object, or its end -/
  | firstKey (outer : List Frame)
  /-- a key after the members so far -/
  | key (members : List (Option String × Json)) (outer : List Frame)
  /-- the colon after a key -/
  | colon (members : List (Option String × Json)) (key : Option String) (outer : List Frame)
  /-- a comma, or the end of the array -/
  | nextItem (items : List Json) (outer : List Frame)
  /-- a comma, or the end of the object -/
  | nextMember (members : List (Option String × Json)) (outer : List Frame)
  /-- nothing: the document is complete -/
  | done (document : Json)

namespace Reader

/-- Puts a finished value where it belongs. -/
def complete (v : Json) : List Frame → Reader
  | [] => done v
  | .array items :: rest => nextItem (v :: items) rest
  | .object members k :: rest => nextMember ((k, v) :: members) rest

def begin? (t : Token) (outer : List Frame) : Option Reader :=
  match t with
  | .null => some (complete .null outer)
  | .bool b => some (complete (.bool b) outer)
  | .number written => some (complete (.number written) outer)
  | .string text => some (complete (.string text) outer)
  | .openBracket => some (firstItem outer)
  | .openBrace => some (firstKey outer)
  | _ => none

/-- Takes one token, unless it may not come here. -/
def step? : Reader → Token → Option Reader
  | value outer, t => begin? t outer
  | firstItem outer, .closeBracket => some (complete (.array []) outer)
  | firstItem outer, t => begin? t (.array [] :: outer)
  | firstKey outer, .closeBrace => some (complete (.object []) outer)
  | firstKey outer, .string text => some (colon [] text outer)
  | key members outer, .string text => some (colon members text outer)
  | colon members k outer, .colon => some (value (.object members k :: outer))
  | nextItem items outer, .comma => some (value (.array items :: outer))
  | nextItem items outer, .closeBracket => some (complete (.array items.reverse) outer)
  | nextMember members outer, .comma => some (key members outer)
  | nextMember members outer, .closeBrace => some (complete (.object members.reverse) outer)
  | _, _ => none

def run? (r : Reader) (cs : List Char) : Option Reader :=
  match cs with
  | [] => some r
  | c :: cs =>
    if isBlank c then run? r cs
    else
      match _h : Token.scan? (c :: cs) with
      | none => none
      | some (t, rest) =>
        match r.step? t with
        | none => none
        | some r => run? r rest
termination_by cs.length
decreasing_by
  · simp
  · exact Token.scan?_length (by assumption)

end Reader

/-- The document that a text holds, if it holds just one and nothing else. -/
def parse? (s : String) : Option Json :=
  match (Reader.value []).run? s.toList with
  | some (.done document) => some document
  | _ => none

end MiniPascal.Json
