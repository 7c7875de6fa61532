import MiniPascal.Decimal.Numeral
import MiniPascal.Diagnostics.Terminal
import Mathlib.Data.List.Basic

/-!
# What a terminal finds in a text

A terminal takes the color sequences out of a text and shows the other characters, each in the style that is
in force. Where the texts of some pieces hold no escape characters, it finds in the written pieces just these
texts and the sequences that the changes of style stand for.
-/

namespace MiniPascal

open Decimal

/-! ## Color sequences -/

/-- What a terminal finds at the front of a text. -/
inductive Signal where
  | shown (c : Char)
  /-- a color sequence, by its codes -/
  | codes (codes : List Nat)
deriving DecidableEq

def Signal.char? : Signal → Option Char
  | shown c => some c
  | codes _ => none

/-- The sequence that sets one attribute. -/
def Signal.attribute (code : String) : Signal :=
  .codes [digitsValue code.toList]

def isParameter (c : Char) : Bool :=
  c.isDigit || c = ';'

/-- The codes of the color sequence at the front of a text, and what follows it. A color sequence is an escape
character with a bracket, codes with semicolons between them, and an `m`. A code without digits is zero. -/
def scanSequence? : List Char → Option (List Nat × List Char)
  | '\x1b' :: '[' :: cs =>
    match cs.dropWhile isParameter with
    | 'm' :: rest => some (((cs.takeWhile isParameter).splitOn ';').map digitsValue, rest)
    | _ => none
  | _ => none

theorem scanSequence?_length {cs rest : List Char} {codes : List Nat}
    (scanned : scanSequence? cs = some (codes, rest)) : rest.length < cs.length := by
  unfold scanSequence? at scanned
  split at scanned
  next cs =>
    split at scanned
    next behind equal =>
      obtain ⟨-, rfl⟩ := Prod.mk.inj (Option.some.inj scanned)
      have shorter := (List.dropWhile_sublist isParameter (l := cs)).length_le
      rw [equal, List.length_cons] at shorter
      simp only [List.length_cons]
      omega
    next => contradiction
  next => contradiction

/-- All that a terminal finds in a text, in its order. What is no color sequence is shown. -/
def signals : List Char → List Signal
  | [] => []
  | c :: cs =>
    match _ : scanSequence? (c :: cs) with
    | some (codes, rest) => .codes codes :: signals rest
    | none => .shown c :: signals cs
termination_by cs => cs.length
decreasing_by
  · exact scanSequence?_length ‹_›
  · exact Nat.lt_succ_self _

theorem signals_sequence {cs rest : List Char} {codes : List Nat}
    (scanned : scanSequence? cs = some (codes, rest)) : signals cs = .codes codes :: signals rest := by
  cases cs with
  | nil => contradiction
  | cons c cs =>
    rw [signals]
    split
    next scanned' =>
      obtain ⟨rfl, rfl⟩ := Prod.mk.inj (Option.some.inj (scanned'.symm.trans scanned))
      rfl
    next nothing => cases nothing.symm.trans scanned

theorem signals_shown {c : Char} (no_escape : c ≠ '\x1b') (cs : List Char) :
    signals (c :: cs) = .shown c :: signals cs := by
  have nothing : scanSequence? (c :: cs) = none := by
    unfold scanSequence?
    split
    -- a color sequence would begin with an escape character
    next equal => exact absurd (List.cons.inj equal).1 no_escape
    next => rfl
  rw [signals]
  split
  next scanned => cases nothing.symm.trans scanned
  next => rfl

theorem signals_text {text : List Char} (unescaped : '\x1b' ∉ text) (rest : List Char) :
    signals (text ++ rest) = text.map .shown ++ signals rest := by
  induction text with
  | nil => rfl
  | cons c text ih =>
    rw [List.mem_cons, not_or] at unescaped
    obtain ⟨no_escape, unescaped⟩ := unescaped
    rw [List.cons_append, signals_shown (Ne.symm no_escape), ih unescaped, List.map_cons, List.cons_append]

theorem signals_attribute {code : String} (digits : code.toList.all Char.isDigit = true) (rest : List Char) :
    signals ((attributeSequence code).toList ++ rest) = .attribute code :: signals rest := by
  rw [List.all_eq_true] at digits
  have parameters : ∀ c ∈ code.toList, isParameter c = true := fun c member => by
    simp [isParameter, digits c member]
  have single : code.toList.splitOn ';' = [code.toList] :=
    List.splitOn_eq_singleton fun member => absurd (digits _ member) (by decide)
  have written : (attributeSequence code).toList ++ rest = '\x1b' :: '[' :: (code.toList ++ 'm' :: rest) := by
    simp [attributeSequence]
  rw [written]
  apply signals_sequence
  -- the `m` is no parameter, so the parameters end where the code does
  rw [scanSequence?, List.takeWhile_append_of_pos parameters, List.dropWhile_append_of_pos parameters]
  simp [isParameter, single]

/-! ## Pieces -/

def Unescaped (s : String) : Prop :=
  '\x1b' ∉ s.toList

instance (s : String) : Decidable (Unescaped s) :=
  inferInstanceAs (Decidable ('\x1b' ∉ s.toList))

@[simp] theorem unescaped_append {s t : String} : Unescaped (s ++ t) ↔ Unescaped s ∧ Unescaped t := by
  simp [Unescaped]

@[simp] theorem unescaped_repr (n : Nat) : Unescaped n.repr := by
  intro member
  rw [Nat.toList_repr] at member
  exact absurd (Nat.isDigit_of_mem_toDigits (by decide) (by decide) member) (by decide)

namespace Piece

def Unescaped : Piece → Prop
  | text s => MiniPascal.Unescaped s
  | _ => True

/-- What a terminal finds where the piece was written with color. -/
def signals : Piece → List Signal
  | text s => s.toList.map .shown
  | reset => [.attribute "0"]
  | style color bold =>
    .attribute "0" :: ((if bold then [.attribute "1"] else []) ++ color.toList.map fun c => .attribute c.code)

theorem signals_ansi {p : Piece} (unescaped : p.Unescaped) (rest : List Char) :
    MiniPascal.signals (p.ansi.toList ++ rest) = p.signals ++ MiniPascal.signals rest := by
  have zero := @signals_attribute "0" (by decide)
  have one := @signals_attribute "1" (by decide)
  have number (c : Color) := @signals_attribute c.code (by cases c <;> decide)
  cases p with
  | text s => exact signals_text unescaped rest
  | reset => exact zero rest
  | style color bold => cases bold <;> cases color <;> simp [ansi, signals, zero, one, number]

/-- The characters that are shown are those that a plain terminal gets. -/
theorem filterMap_signals (p : Piece) : p.signals.filterMap Signal.char? = p.plain.toList := by
  cases p with
  | text s => simp [signals, plain, List.filterMap_map, Function.comp_def, Signal.char?]
  | reset => rfl
  | style color bold => cases bold <;> cases color <;> rfl

end Piece

/-! ## What is shown, and how -/

/-- The text without its color sequences. -/
def withoutSequences (s : String) : String :=
  String.ofList ((signals s.toList).filterMap Signal.char?)

/-- How a terminal shows what comes next: the codes that were set since it last had its default style. -/
structure Style where
  codes : List Nat
deriving DecidableEq

namespace Style

/-- No code is set. -/
def default : Style := ⟨[]⟩

/-- A zero that stands alone takes back all codes. In other sequences it may be part of a color. -/
def next (style : Style) : Signal → Style
  | .shown _ => style
  | .codes codes => if codes = [0] then default else ⟨style.codes ++ codes⟩

/-- The style that is in force behind a text. -/
def after (style : Style) (s : String) : Style :=
  (signals s.toList).foldl next style

end Style

section

variable {s : String} {ps : List Piece}

theorem signals_of_unescaped (unescaped : Unescaped s) : signals s.toList = s.toList.map .shown := by
  simpa [signals] using signals_text unescaped []

theorem after_of_unescaped (unescaped : Unescaped s) (style : Style) : style.after s = style := by
  rw [Style.after, signals_of_unescaped unescaped, List.foldl_map]
  exact List.foldl_fixed ..

theorem unescaped_render_plain (unescaped : ∀ p ∈ ps, p.Unescaped) : Unescaped (Terminal.plain.render ps) := by
  intro member
  rw [Terminal.toList_render_plain] at member
  obtain ⟨p, p_mem, member⟩ := List.mem_flatMap.mp member
  cases p with
  | text s => exact unescaped _ p_mem member
  | reset | style => contradiction

theorem signals_render_ansi (unescaped : ∀ p ∈ ps, p.Unescaped) :
    signals (Terminal.ansi.render ps).toList = ps.flatMap Piece.signals := by
  rw [Terminal.toList_render_ansi]
  induction ps with
  | nil => rw [List.flatMap_nil, List.flatMap_nil, signals]
  | cons p ps ih =>
    obtain ⟨first, others⟩ := List.forall_mem_cons.mp unescaped
    rw [List.flatMap_cons, Piece.signals_ansi first, ih others, List.flatMap_cons]

theorem withoutSequences_render_ansi (unescaped : ∀ p ∈ ps, p.Unescaped) :
    withoutSequences (Terminal.ansi.render ps) = Terminal.plain.render ps := by
  rw [withoutSequences, signals_render_ansi unescaped, List.filterMap_flatMap]
  simp only [Piece.filterMap_signals]
  rw [← Terminal.toList_render_plain, String.ofList_toList]

/-- Where a reset comes last, nothing is left of the styles before it. -/
theorem after_render_reset (unescaped : ∀ p ∈ ps, p.Unescaped) (style : Style) :
    style.after (Terminal.ansi.render (ps ++ [.reset])) = .default := by
  have all_unescaped : ∀ p ∈ ps ++ [.reset], p.Unescaped :=
    List.forall_mem_append.mpr ⟨unescaped, List.forall_mem_singleton.mpr trivial⟩
  -- the reset is found last, and whatever was set until then does not matter to it
  rw [Style.after, signals_render_ansi all_unescaped, List.flatMap_append, List.foldl_append]
  rfl

end

end MiniPascal
