import MiniPascal.Proofs.Syntax.Layout
import MiniPascal.Syntax.Symbols

/-!
# Names in printed bodies

A printed body names the symbols that it refers to, all of them and in source order, so it can be printed just
if they are in the table. Its text is that of its lines, one after the other.
-/

namespace MiniPascal

/-! ## Symbols -/

mutual

theorem wordSymbols_words (e : Expr) : wordSymbols e.words = e.symbols := by
  match e with
  | .name .. | .integer .. | .real .. => rfl
  | .element n array index => simp [Expr.words, Expr.symbols, wordSymbols_words index]
  | .cast n inner | .negate n inner | .not n inner =>
    simp [Expr.words, Expr.symbols, wordSymbols_words inner]
  | .call n callee args => simp [Expr.words, Expr.symbols, wordSymbols_argWords args]
  | .binary n op left right | .relation n op left right =>
    simp [Expr.words, Expr.symbols, wordSymbols_words left, wordSymbols_words right]
termination_by sizeOf e

theorem wordSymbols_argWords (es : List Expr) : wordSymbols (argWords es) = argSymbols es := by
  match es with
  | [] => rfl
  | e :: es => simp [argWords, argSymbols, wordSymbols_words e, wordSymbols_moreArgWords es]
termination_by sizeOf es

theorem wordSymbols_moreArgWords (es : List Expr) : wordSymbols (moreArgWords es) = argSymbols es := by
  match es with
  | [] => rfl
  | e :: es => simp [moreArgWords, argSymbols, wordSymbols_words e, wordSymbols_moreArgWords es]
termination_by sizeOf es

end

@[simp] theorem wordSymbols_headingWords (opening : String) (condition : Expr) (closing : String) :
    wordSymbols (headingWords opening condition closing) = condition.symbols := by
  simp [headingWords, wordSymbols_words]

mutual

theorem lineSymbols_lines (depth : Nat) (s : Stmt) : lineSymbols (s.lines depth) = s.symbols := by
  match s with
  | .assign p target value => simp [Stmt.lines, Stmt.symbols, wordSymbols_words]
  | .branch p condition body elsifs none =>
    simp [Stmt.lines, Stmt.symbols, lineSymbols_bodyLines (depth + 1) body, lineSymbols_elsifLines depth elsifs]
  | .branch p condition body elsifs (some otherwise) =>
    simp [Stmt.lines, Stmt.symbols, lineSymbols_bodyLines (depth + 1) body,
      lineSymbols_elsifLines depth elsifs, lineSymbols_bodyLines (depth + 1) otherwise]
  | .loop p condition body => simp [Stmt.lines, Stmt.symbols, lineSymbols_bodyLines (depth + 1) body]
  | .ret p none => simp [Stmt.lines, Stmt.symbols]
  | .ret p (some value) => simp [Stmt.lines, Stmt.symbols, wordSymbols_words]
  | .call p callee args => simp [Stmt.lines, Stmt.symbols, callWords, wordSymbols_argWords]
termination_by sizeOf s

theorem lineSymbols_elsif (depth : Nat) (e : Elsif) : lineSymbols (e.lines depth) = e.symbols := by
  match e with
  | .clause p condition body => simp [Elsif.lines, Elsif.symbols, lineSymbols_bodyLines (depth + 1) body]
termination_by sizeOf e

theorem lineSymbols_elsifLines (depth : Nat) (es : List Elsif) :
    lineSymbols (elsifLines depth es) = elsifSymbols es := by
  match es with
  | [] => rfl
  | e :: es => simp [elsifLines, elsifSymbols, lineSymbols_elsif depth e, lineSymbols_elsifLines depth es]
termination_by sizeOf es

/-- A printed body names its symbols in source order. -/
theorem lineSymbols_bodyLines (depth : Nat) (b : Body) : lineSymbols (bodyLines depth b) = bodySymbols b := by
  match b with
  | [] => rfl
  | s :: b => simp [bodyLines, bodySymbols, lineSymbols_lines depth s, lineSymbols_bodyLines depth b]
termination_by sizeOf b

end

/-! ## Printers -/

/-- The name that a fragment is, if it is one. -/
def Fragment.name? : Fragment → Option String
  | text _ => none
  | name _ s => some s

/-- The names that were written, in their order. -/
def Printer.names (p : Printer) : List String :=
  p.written.filterMap Fragment.name?

variable {table : SymbolTable}

theorem filterMap_name?_words (ws : List Word) :
    (ws.map (Word.fragment table)).filterMap Fragment.name? = (wordSymbols ws).map table.nameOf := by
  induction ws with
  | nil => rfl
  | cons w ws ih =>
    cases w with
    | text s => exact ih
    | name i => exact congrArg (table.nameOf i :: ·) ih

theorem names_writeLine (p : Printer) (l : Line) :
    (p.writeLine table l).names = p.names ++ (wordSymbols l.words).map table.nameOf := by
  have indented : (if p.atLineStart then [Fragment.text (indentation l.depth)] else []).filterMap Fragment.name? =
      [] := by
    split <;> rfl
  simp only [Printer.names, Printer.writeLine, List.filterMap_append, indented, filterMap_name?_words]
  rw [List.nil_append]
  exact congrArg _ (List.append_nil _)

theorem names_writeLines (p : Printer) (ls : List Line) :
    (p.writeLines table ls).names = p.names ++ (lineSymbols ls).map table.nameOf := by
  induction ls generalizing p with
  | nil => exact (List.append_nil _).symm
  | cons l ls ih =>
    change ((p.writeLine table l).writeLines table ls).names = _
    rw [ih, names_writeLine, lineSymbols_cons, List.map_append, List.append_assoc]

/-! ## Text -/

theorem indentation_succ (depth : Nat) : indentation (depth + 1) = "    " ++ indentation depth := by
  rw [indentation, List.replicate_succ, String.join_cons]
  rfl

def Word.chars (table : SymbolTable) (w : Word) : String :=
  (w.fragment table).chars

@[simp] theorem Fragment.chars_text (s : String) : (text s).chars = s := rfl

@[simp] theorem Word.chars_text (s : String) : (Word.text s).chars table = s := rfl

@[simp] theorem Word.chars_name (i : SymbolIndex) : (Word.name i).chars table = table.nameOf i := rfl

def wordsText (table : SymbolTable) (ws : List Word) : String :=
  String.join (ws.map (Word.chars table))

/-- A line with its indentation and the line break at its end. -/
def Line.text (table : SymbolTable) (l : Line) : String :=
  indentation l.depth ++ (wordsText table l.words ++ "\n")

def linesText (table : SymbolTable) (ls : List Line) : String :=
  String.join (ls.map (Line.text table))

@[simp] theorem wordsText_nil : wordsText table [] = "" := rfl

@[simp] theorem wordsText_cons (w : Word) (ws : List Word) :
    wordsText table (w :: ws) = w.chars table ++ wordsText table ws :=
  String.join_cons

@[simp] theorem wordsText_append (ws vs : List Word) :
    wordsText table (ws ++ vs) = wordsText table ws ++ wordsText table vs := by
  simp [wordsText]

@[simp] theorem linesText_nil : linesText table [] = "" := rfl

@[simp] theorem linesText_cons (l : Line) (ls : List Line) :
    linesText table (l :: ls) = l.text table ++ linesText table ls :=
  String.join_cons

@[simp] theorem linesText_append (ls ms : List Line) :
    linesText table (ls ++ ms) = linesText table ls ++ linesText table ms := by
  simp [linesText]

theorem chars_fragments (ws : List Word) :
    String.join ((ws.map (Word.fragment table)).map Fragment.chars) = wordsText table ws :=
  congrArg String.join List.map_map

theorem text_writeLine {p : Printer} {l : Line} (ready : p.atLineStart = true ∨ l.depth = 0) :
    (p.writeLine table l).text = p.text ++ l.text table := by
  have due : String.join ((if p.atLineStart then [Fragment.text (indentation l.depth)] else []).map Fragment.chars) =
      indentation l.depth := by
    split
    next => simp
    next inside => simp [ready.resolve_left inside, indentation]
  simp only [Printer.text, Printer.writeLine, List.map_append, String.join_append, due, chars_fragments, Line.text,
    String.append_assoc]
  rfl

theorem text_writeLines {p : Printer} {ls : List Line} (ready : p.atLineStart = true ∨ ∀ l ∈ ls.head?, l.depth = 0) :
    (p.writeLines table ls).text = p.text ++ linesText table ls := by
  induction ls generalizing p with
  | nil => simp [Printer.writeLines]
  | cons l ls ih =>
    change ((p.writeLine table l).writeLines table ls).text = _
    rw [ih (.inl rfl), text_writeLine (ready.imp_right fun first => first l rfl), linesText_cons, String.append_assoc]

/-- The first line of a body is at the depth of the body. -/
theorem depth_head_bodyLines (depth : Nat) (b : Body) : ∀ l ∈ (bodyLines depth b).head?, l.depth = depth := by
  match b with
  | [] => nofun
  | s :: b =>
    match s with
    | .assign .. | .branch _ _ _ _ none | .branch _ _ _ _ (some _) | .loop .. | .ret _ none | .ret _ (some _)
    | .call .. => simp [bodyLines, Stmt.lines]

/-- An expression, printed on its own. -/
def Expr.text? (table : SymbolTable) (e : Expr) : Option String :=
  (e.print table).result?

theorem exprText_eq (table : SymbolTable) (e : Expr) :
    e.text? table = if table.Covers e.symbols then some (wordsText table e.words) else none := by
  have spells : Printing.Spells table (e.print table) e.words := spells_print e
  have printed := spells .start
  beta_reduce at printed
  rw [wordSymbols_words, Printer.writeWords_inside _ _ rfl] at printed
  unfold Expr.text? Printing.result?
  rw [printed]
  split_ifs
  · exact congrArg some (chars_fragments e.words)
  · rfl

/-- What printing a body does to a printer, unless it stops. -/
theorem run_printBody (b : Body) (p : Printer) :
    (printBody table b).run p =
      if table.Covers (bodySymbols b) then .ok ((), p.writeLines table (bodyLines p.depth b))
      else .error .noSuchSymbol := by
  have lays : Printing.Lays table (printBody table b) fun depth => bodyLines depth b := lays_printBody b
  rw [lays p, lineSymbols_bodyLines]

/-- The text of a body is that of its lines, unless it refers to a symbol outside of the table. -/
theorem bodyText_eq (table : SymbolTable) (b : Body) :
    b.text? table =
      if table.Covers (bodySymbols b) then some (linesText table (bodyLines 0 b)) else none := by
  have ready : Printer.start.atLineStart = true ∨ ∀ l ∈ (bodyLines 0 b).head?, l.depth = 0 :=
    .inr (depth_head_bodyLines 0 b)
  unfold Body.text? Printing.result?
  rw [run_printBody]
  split_ifs
  · exact congrArg some (text_writeLines ready)
  · rfl

/-- A body can be printed if it refers to symbols of the table only. -/
theorem exists_bodyText (b : Body) (inside : table.Covers (bodySymbols b)) : ∃ text, b.text? table = some text :=
  ⟨_, (bodyText_eq table b).trans (if_pos inside)⟩

end MiniPascal
