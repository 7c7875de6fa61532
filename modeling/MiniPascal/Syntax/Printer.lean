import MiniPascal.Decimal.Layout
import MiniPascal.Symbol.Table
import MiniPascal.Syntax.Basic

/-!
# Printed bodies

Bodies are printed in the source language, one statement a line, with four blanks of
indentation for each block around it. Binary operations and relations have parentheses
throughout, so the text shows the shape of the tree, and a conversion to real looks like a
call of `real`.

A printer writes fragment by fragment. It counts the blocks around, and it remembers that a line was
ended: the indentation of the next line is only written in front of the first fragment of it.
-/

namespace MiniPascal

/-! ## Printers -/

/-- What is written at once: a text, or the name of a symbol. -/
inductive Fragment where
  | text (s : String)
  | name (symbol : SymbolIndex) (s : String)
deriving DecidableEq

def Fragment.chars : Fragment → String
  | text s | name _ s => s

/-- Why printing stops. -/
inductive PrintError where
  /-- the name of a symbol outside of the table was asked for -/
  | noSuchSymbol
  /-- a block was closed although none was open -/
  | noOpenBlock
deriving DecidableEq

structure Printer where
  /-- the fragments that were written, in their order -/
  written : List Fragment
  /-- the number of blocks around -/
  depth : Nat
  /-- whether the next fragment is the first of its line and wants indentation -/
  atLineStart : Bool
deriving DecidableEq

def indentation (depth : Nat) : String :=
  String.join (List.replicate depth "    ")

namespace Printer

/-- A printer that has written nothing. What it writes first is not indented. -/
def start : Printer := ⟨[], 0, false⟩

def text (p : Printer) : String :=
  String.join (p.written.map Fragment.chars)

/-- Writes a fragment, and the indentation in front of it if that is due. -/
def write (p : Printer) (fragment : Fragment) : Printer :=
  let due := if p.atLineStart then [.text (indentation p.depth)] else []
  ⟨p.written ++ (due ++ [fragment]), p.depth, false⟩

def breakLine (p : Printer) : Printer :=
  ⟨p.written ++ [.text "\n"], p.depth, true⟩

end Printer

abbrev Printing := StateT Printer (Except PrintError) Unit

namespace Printing

def text (s : String) : Printing :=
  modify fun p => p.write (.text s)

/-- Writes the name of a symbol. -/
def name (table : SymbolTable) (i : SymbolIndex) : Printing :=
  match table.get? i with
  | some symbol => modify fun p => p.write (.name i symbol.name)
  | none => throw .noSuchSymbol

/-- Writes the end of a line. -/
def line (s : String) : Printing := do
  text s
  modify Printer.breakLine

def indent : Printing :=
  modify fun p => { p with depth := p.depth + 1 }

def outdent : Printing := do
  let p ← get
  if p.depth = 0 then throw .noOpenBlock
  set { p with depth := p.depth - 1 }

def block (content : Printing) : Printing := do
  indent
  content
  outdent

def call (table : SymbolTable) (callee : Reference) (args : Printing) : Printing := do
  name table callee.value
  text "("
  args
  text ")"

def operation (left : Printing) (op : String) (right : Printing) : Printing := do
  text "("
  left
  text (" " ++ op ++ " ")
  right
  text ")"

/-- The line in front of a block that is entered on a condition. -/
def heading (opening : String) (condition : Printing) (closing : String) : Printing := do
  text opening
  condition
  line closing

end Printing

/-! ## Expressions -/

open Printing

mutual

def Expr.print (table : SymbolTable) : Expr → Printing
  | .name _ s => name table s
  | .element _ array index => do
    name table array.value
    text "["
    index.print table
    text "]"
  | .integer _ v => text (toString v)
  | .real _ v => text (Decimal.Layout.plain.text v)
  | .cast _ e => do
    text "real("
    e.print table
    text ")"
  | .negate _ e => do
    text "-"
    e.print table
  | .not _ e => do
    text "not "
    e.print table
  | .call _ callee args => call table callee (printArgs table args)
  | .binary _ op l r => operation (l.print table) op.text (r.print table)
  | .relation _ op l r => operation (l.print table) op.text (r.print table)

def printArgs (table : SymbolTable) : List Expr → Printing
  | [] => pure ()
  | e :: es => do
    e.print table
    printMoreArgs table es

/-- Prints the arguments after the first. -/
def printMoreArgs (table : SymbolTable) : List Expr → Printing
  | [] => pure ()
  | e :: es => do
    text ", "
    e.print table
    printMoreArgs table es

end

/-! ## Statements -/

mutual

def Stmt.print (table : SymbolTable) : Stmt → Printing
  | .assign _ target value => do
    target.print table
    text " := "
    value.print table
    line ";"
  | .branch _ condition body elsifs none => do
    heading "if " (condition.print table) " then"
    block (printBody table body)
    printElsifs table elsifs
    line "end;"
  | .branch _ condition body elsifs (some otherwise) => do
    heading "if " (condition.print table) " then"
    block (printBody table body)
    printElsifs table elsifs
    line "else"
    block (printBody table otherwise)
    line "end;"
  | .loop _ condition body => do
    heading "while " (condition.print table) " do"
    block (printBody table body)
    line "end;"
  | .ret _ none => line "return;"
  | .ret _ (some value) => do
    text "return "
    value.print table
    line ";"
  | .call _ callee args => do
    call table callee (printArgs table args)
    line ";"

def Elsif.print (table : SymbolTable) : Elsif → Printing
  | .clause _ condition body => do
    heading "elsif " (condition.print table) " then"
    block (printBody table body)

def printElsifs (table : SymbolTable) : List Elsif → Printing
  | [] => pure ()
  | e :: es => do
    e.print table
    printElsifs table es

def printBody (table : SymbolTable) : List Stmt → Printing
  | [] => pure ()
  | s :: ss => do
    s.print table
    printBody table ss

end

/-! ## Text -/

/-- All that is written by a printer which begins with this. -/
def Printing.result? (content : Printing) : Option String :=
  match content.run .start with
  | .ok (_, p) => some p.text
  | .error _ => none

/-- A printed body, unless it refers to a symbol outside of the table. -/
def Body.text? (table : SymbolTable) (b : Body) : Option String :=
  (printBody table b).result?

end MiniPascal
