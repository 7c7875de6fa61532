/-!
# Colored text

What is shown to the user is a sequence of texts and changes of style. A plain terminal
gets the texts alone; an ANSI terminal also gets an escape sequence for every change.
Setting a style always starts from the default one.
-/

namespace MiniPascal

inductive Color where
  | red
  | green
  | yellow
  | cyan
deriving DecidableEq

/-- A text, or a change of the style of the texts after it. -/
inductive Piece where
  | text (s : String)
  /-- back to the default style -/
  | reset
  /-- the default style with the given color and weight -/
  | style (color : Option Color) (bold : Bool)
deriving DecidableEq

inductive Terminal where
  | plain
  | ansi
deriving DecidableEq

/-- The number that stands for a color of the foreground. -/
def Color.code : Color → String
  | red => "31"
  | green => "32"
  | yellow => "33"
  | cyan => "36"

/-- An escape sequence that sets one attribute. -/
def attributeSequence (code : String) : String :=
  "\x1b[" ++ code ++ "m"

namespace Piece

def ansi : Piece → String
  | text s => s
  | reset => attributeSequence "0"
  | style color bold =>
    attributeSequence "0" ++ (if bold then attributeSequence "1" else "") ++
      (match color with
      | some c => attributeSequence c.code
      | none => "")

def plain : Piece → String
  | text s => s
  | _ => ""

end Piece

def Terminal.render (t : Terminal) (pieces : List Piece) : String :=
  String.join (pieces.map (match t with
    | .plain => Piece.plain
    | .ansi => Piece.ansi))

theorem Terminal.toList_render_plain (ps : List Piece) :
    (Terminal.plain.render ps).toList = ps.flatMap (·.plain.toList) := by
  simp [Terminal.render, List.flatMap_map]

theorem Terminal.toList_render_ansi (ps : List Piece) :
    (Terminal.ansi.render ps).toList = ps.flatMap (·.ansi.toList) := by
  simp [Terminal.render, List.flatMap_map]

theorem render_append (terminal : Terminal) (ps qs : List Piece) :
    terminal.render (ps ++ qs) = terminal.render ps ++ terminal.render qs := by
  simp [Terminal.render]

end MiniPascal
