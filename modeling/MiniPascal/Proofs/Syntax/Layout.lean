import MiniPascal.Proofs.Symbol.Coverage
import MiniPascal.Syntax.Printer

/-!
# The layout of printed bodies

What a printer writes for a body is laid out as lines of words, each with the number of blocks around it,
where a name is still the symbol it stands for. Printing writes just these lines, indented from where the
printer stands, and ends at the same depth; it stops if one of the names is not to be found.
-/

namespace MiniPascal

/-! ## Words and lines -/

inductive Word where
  | text (s : String)
  | name (symbol : SymbolIndex)
deriving DecidableEq

/-- A line, with the number of blocks around it. -/
structure Line where
  depth : Nat
  words : List Word
deriving DecidableEq

mutual

def Expr.words : Expr → List Word
  | .name _ s => [.name s]
  | .element _ array index => .name array.value :: .text "[" :: (index.words ++ [.text "]"])
  | .integer _ v => [.text (toString v)]
  | .real _ v => [.text (Decimal.Layout.plain.text v)]
  | .cast _ e => .text "real(" :: (e.words ++ [.text ")"])
  | .negate _ e => .text "-" :: e.words
  | .not _ e => .text "not " :: e.words
  | .call _ callee args => .name callee.value :: .text "(" :: (argWords args ++ [.text ")"])
  | .binary _ op l r =>
    .text "(" :: (l.words ++ .text (" " ++ op.text ++ " ") :: (r.words ++ [.text ")"]))
  | .relation _ op l r =>
    .text "(" :: (l.words ++ .text (" " ++ op.text ++ " ") :: (r.words ++ [.text ")"]))

def argWords : List Expr → List Word
  | [] => []
  | e :: es => e.words ++ moreArgWords es

/-- The arguments after the first. -/
def moreArgWords : List Expr → List Word
  | [] => []
  | e :: es => .text ", " :: (e.words ++ moreArgWords es)

end

def callWords (callee : Reference) (args : List Expr) : List Word :=
  .name callee.value :: .text "(" :: (argWords args ++ [.text ")"])

/-- The line in front of a block that is entered on a condition. -/
def headingWords (opening : String) (condition : Expr) (closing : String) : List Word :=
  .text opening :: (condition.words ++ [.text closing])

mutual

def Stmt.lines (depth : Nat) : Stmt → List Line
  | .assign _ target value => [⟨depth, target.words ++ .text " := " :: (value.words ++ [.text ";"])⟩]
  | .branch _ condition body elsifs none =>
    ⟨depth, headingWords "if " condition " then"⟩ ::
      (bodyLines (depth + 1) body ++ (elsifLines depth elsifs ++ [⟨depth, [.text "end;"]⟩]))
  | .branch _ condition body elsifs (some otherwise) =>
    ⟨depth, headingWords "if " condition " then"⟩ ::
      (bodyLines (depth + 1) body ++ (elsifLines depth elsifs ++
        ⟨depth, [.text "else"]⟩ :: (bodyLines (depth + 1) otherwise ++ [⟨depth, [.text "end;"]⟩])))
  | .loop _ condition body =>
    ⟨depth, headingWords "while " condition " do"⟩ ::
      (bodyLines (depth + 1) body ++ [⟨depth, [.text "end;"]⟩])
  | .ret _ none => [⟨depth, [.text "return;"]⟩]
  | .ret _ (some value) => [⟨depth, .text "return " :: (value.words ++ [.text ";"])⟩]
  | .call _ callee args => [⟨depth, callWords callee args ++ [.text ";"]⟩]

def Elsif.lines (depth : Nat) : Elsif → List Line
  | .clause _ condition body =>
    ⟨depth, headingWords "elsif " condition " then"⟩ :: bodyLines (depth + 1) body

def elsifLines (depth : Nat) : List Elsif → List Line
  | [] => []
  | e :: es => e.lines depth ++ elsifLines depth es

def bodyLines (depth : Nat) : List Stmt → List Line
  | [] => []
  | s :: ss => s.lines depth ++ bodyLines depth ss

end

/-! ## The symbols that are named -/

/-- The symbol that a word names. -/
def Word.symbol? : Word → Option SymbolIndex
  | .text _ => none
  | .name i => some i

/-- The symbols that words name. -/
def wordSymbols (ws : List Word) : List SymbolIndex :=
  ws.filterMap Word.symbol?

@[simp] theorem wordSymbols_nil : wordSymbols [] = [] := rfl

@[simp] theorem wordSymbols_text (s : String) (ws : List Word) :
    wordSymbols (.text s :: ws) = wordSymbols ws := rfl

@[simp] theorem wordSymbols_name (i : SymbolIndex) (ws : List Word) :
    wordSymbols (.name i :: ws) = i :: wordSymbols ws := rfl

@[simp] theorem wordSymbols_append (ws vs : List Word) :
    wordSymbols (ws ++ vs) = wordSymbols ws ++ wordSymbols vs :=
  List.filterMap_append

/-- The symbols that lines name. -/
def lineSymbols (ls : List Line) : List SymbolIndex :=
  ls.flatMap fun l => wordSymbols l.words

@[simp] theorem lineSymbols_nil : lineSymbols [] = [] := rfl

@[simp] theorem lineSymbols_cons (l : Line) (ls : List Line) :
    lineSymbols (l :: ls) = wordSymbols l.words ++ lineSymbols ls := rfl

@[simp] theorem lineSymbols_append (ls ms : List Line) :
    lineSymbols (ls ++ ms) = lineSymbols ls ++ lineSymbols ms :=
  List.flatMap_append

/-! ## What is written for them -/

/-- The name of a symbol; that of one outside of the table does not matter. -/
def SymbolTable.nameOf (table : SymbolTable) (i : SymbolIndex) : String :=
  ((table.get? i).map Symbol.name).getD ""

def Word.fragment (table : SymbolTable) : Word → Fragment
  | .text s => .text s
  | .name i => .name i (table.nameOf i)

namespace Printer

variable (table : SymbolTable)

/-- Writes words, and the indentation in front of them if that is due. -/
def writeWords (p : Printer) (ws : List Word) : Printer :=
  ws.foldl (fun p w => p.write (w.fragment table)) p

/-- Writes a line at its own depth. -/
def writeLine (p : Printer) (l : Line) : Printer :=
  let due := if p.atLineStart then [.text (indentation l.depth)] else []
  ⟨p.written ++ (due ++ l.words.map (Word.fragment table) ++ [.text "\n"]), p.depth, true⟩

def writeLines (p : Printer) (ls : List Line) : Printer :=
  ls.foldl (writeLine table) p

variable {table}

theorem writeWords_append (p : Printer) (ws vs : List Word) :
    p.writeWords table (ws ++ vs) = (p.writeWords table ws).writeWords table vs :=
  List.foldl_append

theorem writeLines_append (p : Printer) (ls ms : List Line) :
    p.writeLines table (ls ++ ms) = (p.writeLines table ls).writeLines table ms :=
  List.foldl_append

@[simp] theorem depth_writeLines (p : Printer) (ls : List Line) : (p.writeLines table ls).depth = p.depth := by
  induction ls generalizing p with
  | nil => rfl
  | cons l ls ih => exact ih (p.writeLine table l)

/-- The depth of the printer has no part in lines that have their own. -/
theorem writeLines_at (p : Printer) (ls : List Line) (depth : Nat) :
    ({ p with depth } : Printer).writeLines table ls = { p.writeLines table ls with depth } := by
  induction ls generalizing p with
  | nil => rfl
  | cons l ls ih => exact ih (p.writeLine table l)

theorem writeWords_inside (p : Printer) (ws : List Word) (inside : p.atLineStart = false) :
    p.writeWords table ws = ⟨p.written ++ ws.map (Word.fragment table), p.depth, false⟩ := by
  induction ws generalizing p with
  | nil =>
    obtain ⟨written, depth, start⟩ := p
    cases inside
    simp [writeWords]
  | cons w ws ih =>
    change (p.write (w.fragment table)).writeWords table ws = _
    rw [ih _ rfl]
    simp [write, inside]

/-- The end of a line behind words makes them a line at the depth of the printer. -/
theorem breakLine_writeWords (p : Printer) {ws : List Word} (some_word : ws ≠ []) :
    (p.writeWords table ws).breakLine = p.writeLine table ⟨p.depth, ws⟩ := by
  cases ws with
  | nil => contradiction
  | cons w ws =>
    change ((p.write (w.fragment table)).writeWords table ws).breakLine = _
    rw [writeWords_inside _ _ rfl]
    simp [write, breakLine, writeLine]

end Printer

/-! ## Printing writes the layout -/

variable {table : SymbolTable}

theorem nameOf_of_get? {i : SymbolIndex} {s : Symbol} (found : table.get? i = some s) : table.nameOf i = s.name := by
  rw [SymbolTable.nameOf, found]
  rfl

namespace Printing

/-- Running one printing after the other. -/
theorem run_bind (a b : Printing) (p : Printer) :
    (do a; b : Printing).run p = (a.run p).bind fun (_, p) => b.run p := rfl

/-- The printing changes printers by `f`, unless a symbol that it names is missing. -/
def Does (table : SymbolTable) (a : Printing) (symbols : List SymbolIndex) (f : Printer → Printer) : Prop :=
  ∀ p, a.run p = if table.Covers symbols then .ok ((), f p) else .error .noSuchSymbol

variable {a b : Printing} {is js : List SymbolIndex} {f g : Printer → Printer}

theorem Does.append (first : Does table a is f) (second : Does table b js g) :
    Does table (do a; b) (is ++ js) fun p => g (f p) := by
  intro p
  rw [run_bind, first p]
  by_cases covers : table.Covers is
  · rw [if_pos covers]
    change b.run (f p) = _
    rw [second (f p)]
    simp only [covers_append, iff_true_intro covers, true_and]
  · rw [if_neg covers, if_neg fun both => covers (covers_append.mp both).1]
    rfl

theorem Does.of_eq (does : Does table a is f) (same : ∀ p, f p = g p) : Does table a is g := by
  intro p
  rw [does p, same p]

/-- The printing writes these words. -/
def Spells (table : SymbolTable) (a : Printing) (ws : List Word) : Prop :=
  Does table a (wordSymbols ws) fun p => p.writeWords table ws

/-- The printing ends the line behind these words. -/
def EndsLine (table : SymbolTable) (a : Printing) (ws : List Word) : Prop :=
  Does table a (wordSymbols ws) fun p => (p.writeWords table ws).breakLine

/-- The printing writes the lines that `ls` has for the depth of the printer. -/
def Lays (table : SymbolTable) (a : Printing) (ls : Nat → List Line) : Prop :=
  ∀ p, a.run p = if table.Covers (lineSymbols (ls p.depth)) then .ok ((), p.writeLines table (ls p.depth))
    else .error .noSuchSymbol

variable {ws vs : List Word} {ls ms : Nat → List Line}

theorem spells_nothing : Spells table (pure ()) [] :=
  fun _ => (if_pos covers_nil).symm

theorem spells_text (s : String) : Spells table (text s) [.text s] :=
  fun _ => (if_pos covers_nil).symm

theorem spells_name (i : SymbolIndex) : Spells table (name table i) [.name i] := by
  intro p
  unfold name
  cases found : table.get? i with
  | some s =>
    have covers : table.Covers [i] := covers_cons.mpr ⟨lt_of_get?_eq_some found, covers_nil⟩
    have written : p.writeWords table [.name i] = p.write (.name i s.name) := by
      rw [← nameOf_of_get? found]
      rfl
    dsimp only
    rw [written]
    exact (if_pos covers).symm
  | none =>
    have outside : ¬table.Covers [i] := fun covers => not_lt_of_get?_eq_none found (covers_cons.mp covers).1
    exact (if_neg outside).symm

theorem Spells.append (first : Spells table a ws) (second : Spells table b vs) :
    Spells table (do a; b) (ws ++ vs) := by
  have both := Does.append first second
  rw [← wordSymbols_append] at both
  exact both.of_eq fun p => (p.writeWords_append ws vs).symm

theorem endsLine_line (s : String) : EndsLine table (line s) [.text s] :=
  fun _ => (if_pos covers_nil).symm

theorem Spells.endsLine (first : Spells table a ws) (second : EndsLine table b vs) :
    EndsLine table (do a; b) (ws ++ vs) := by
  have both := Does.append first second
  rw [← wordSymbols_append] at both
  exact both.of_eq fun p => congrArg Printer.breakLine (p.writeWords_append ws vs).symm

theorem EndsLine.lays (ends : EndsLine table a ws) (some_word : ws ≠ []) :
    Lays table a fun depth => [⟨depth, ws⟩] := by
  intro p
  rw [ends p]
  simp only [p.breakLine_writeWords some_word, lineSymbols_cons, lineSymbols_nil, List.append_nil]
  rfl

theorem lays_line (s : String) : Lays table (line s) fun depth => [⟨depth, [.text s]⟩] :=
  (endsLine_line s).lays (List.cons_ne_nil _ _)

theorem lays_nothing : Lays table (pure ()) fun _ => [] :=
  fun _ => (if_pos covers_nil).symm

theorem Lays.append (first : Lays table a ls) (second : Lays table b ms) :
    Lays table (do a; b) fun depth => ls depth ++ ms depth := by
  intro p
  rw [run_bind, first p]
  by_cases covers : table.Covers (lineSymbols (ls p.depth))
  · rw [if_pos covers]
    -- the second part begins at the depth of the first
    change b.run (p.writeLines table (ls p.depth)) = _
    rw [second, p.depth_writeLines, p.writeLines_append]
    simp only [lineSymbols_append, covers_append, iff_true_intro covers, true_and]
  · rw [lineSymbols_append, if_neg covers, if_neg fun both => covers (covers_append.mp both).1]
    rfl

/-- The content of a block is one deeper, and the depth from before the block is restored behind it. -/
theorem Lays.block (content : Lays table a ls) : Lays table (block a) fun depth => ls (depth + 1) := by
  intro p
  have entered := content { p with depth := p.depth + 1 }
  change ((a.run { p with depth := p.depth + 1 }).bind fun (_, p) => outdent.run p) = _
  rw [entered]
  by_cases covers : table.Covers (lineSymbols (ls (p.depth + 1)))
  · rw [if_pos covers, if_pos covers]
    change outdent.run (({ p with depth := p.depth + 1 } : Printer).writeLines table (ls (p.depth + 1))) = _
    rw [p.writeLines_at]
    have depth : (p.writeLines table (ls (p.depth + 1))).depth = p.depth := p.depth_writeLines _
    generalize p.writeLines table (ls (p.depth + 1)) = written at depth
    rw [← depth]
    rfl
  · rw [if_neg covers, if_neg covers]
    rfl

end Printing

open Printing

mutual

/-- Printing an expression writes its words. -/
theorem spells_print (e : Expr) : Spells table (e.print table) e.words := by
  match e with
  | .name n s => exact spells_name s
  | .element n array index =>
    exact (spells_name array.value).append ((spells_text "[").append ((spells_print index).append (spells_text "]")))
  | .integer n v => exact spells_text _
  | .real n v => exact spells_text _
  | .cast n inner => exact (spells_text "real(").append ((spells_print inner).append (spells_text ")"))
  | .negate n inner => exact (spells_text "-").append (spells_print inner)
  | .not n inner => exact (spells_text "not ").append (spells_print inner)
  | .call n callee args =>
    exact (spells_name callee.value).append ((spells_text "(").append
      ((spells_printArgs args).append (spells_text ")")))
  | .binary n op left right | .relation n op left right =>
    exact (spells_text "(").append ((spells_print left).append ((spells_text _).append
      ((spells_print right).append (spells_text ")"))))
termination_by sizeOf e

theorem spells_printArgs (es : List Expr) : Spells table (printArgs table es) (argWords es) := by
  match es with
  | [] => exact spells_nothing
  | e :: es => exact (spells_print e).append (spells_printMoreArgs es)
termination_by sizeOf es

theorem spells_printMoreArgs (es : List Expr) : Spells table (printMoreArgs table es) (moreArgWords es) := by
  match es with
  | [] => exact spells_nothing
  | e :: es => exact (spells_text ", ").append ((spells_print e).append (spells_printMoreArgs es))
termination_by sizeOf es

end

theorem spells_call (callee : Reference) (args : List Expr) :
    Spells table (call table callee (printArgs table args)) (callWords callee args) :=
  (spells_name callee.value).append ((spells_text "(").append ((spells_printArgs args).append (spells_text ")")))

theorem lays_heading (opening : String) (condition : Expr) (closing : String) :
    Lays table (heading opening (condition.print table) closing)
      fun depth => [⟨depth, headingWords opening condition closing⟩] :=
  ((spells_text opening).endsLine ((spells_print condition).endsLine (endsLine_line closing))).lays
    (List.cons_ne_nil _ _)

mutual

theorem lays_print (s : Stmt) : Lays table (s.print table) fun depth => s.lines depth := by
  match s with
  | .assign p target value =>
    have ends : EndsLine table (Stmt.print table (.assign p target value)) _ :=
      (spells_print target).endsLine ((spells_text " := ").endsLine
        ((spells_print value).endsLine (endsLine_line ";")))
    exact ends.lays (by simp)
  | .branch p condition body elsifs none =>
    exact (lays_heading "if " condition " then").append ((lays_printBody body).block.append
      ((lays_printElsifs elsifs).append (lays_line "end;")))
  | .branch p condition body elsifs (some otherwise) =>
    exact (lays_heading "if " condition " then").append ((lays_printBody body).block.append
      ((lays_printElsifs elsifs).append ((lays_line "else").append
        ((lays_printBody otherwise).block.append (lays_line "end;")))))
  | .loop p condition body =>
    exact (lays_heading "while " condition " do").append ((lays_printBody body).block.append (lays_line "end;"))
  | .ret p none => exact lays_line "return;"
  | .ret p (some value) =>
    have ends : EndsLine table (Stmt.print table (.ret p (some value))) _ :=
      (spells_text "return ").endsLine ((spells_print value).endsLine (endsLine_line ";"))
    exact ends.lays (by simp)
  | .call p callee args =>
    have ends : EndsLine table (Stmt.print table (.call p callee args)) _ :=
      (spells_call callee args).endsLine (endsLine_line ";")
    exact ends.lays (by simp)
termination_by sizeOf s

theorem lays_printElsif (e : Elsif) : Lays table (e.print table) fun depth => e.lines depth := by
  match e with
  | .clause p condition body =>
    exact (lays_heading "elsif " condition " then").append (lays_printBody body).block
termination_by sizeOf e

theorem lays_printElsifs (es : List Elsif) : Lays table (printElsifs table es) fun depth => elsifLines depth es := by
  match es with
  | [] => exact lays_nothing
  | e :: es => exact (lays_printElsif e).append (lays_printElsifs es)
termination_by sizeOf es

/-- Printing a body writes its lines. -/
theorem lays_printBody (b : List Stmt) : Lays table (printBody table b) fun depth => bodyLines depth b := by
  match b with
  | [] => exact lays_nothing
  | s :: b => exact (lays_print s).append (lays_printBody b)
termination_by sizeOf b

end

end MiniPascal
