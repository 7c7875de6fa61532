import MiniPascal.Proofs.Json.Numbers
import MiniPascal.Proofs.Syntax.Printing

/-!
# The indentation of printed bodies

The text of a body is put together from the texts of its statements, and that of a statement from the texts
of the bodies in it, with four more blanks in front of each of their lines. This holds wherever a printer
stands, and each statement leaves it at the depth where it was.
-/

namespace MiniPascal

/-! ## Indented texts -/

/-- The characters with four blanks in front of each line; `atStart` tells whether the first of them begins
one. -/
def indentedChars (atStart : Bool) : List Char → List Char
  | [] => []
  | c :: cs => (if atStart then [' ', ' ', ' ', ' '] else []) ++ c :: indentedChars (c = '\n') cs

/-- The text with four more blanks in front of each of its lines. -/
def indented (s : String) : String :=
  String.ofList (indentedChars true s.toList)

/-- Every line of the text ends in a line break. -/
def EndsLines (s : String) : Prop :=
  s = "" ∨ ∃ t, s = t ++ "\n"

theorem indentedChars_inside {cs : List Char} (inside : '\n' ∉ cs) (ds : List Char) :
    indentedChars false (cs ++ '\n' :: ds) = cs ++ '\n' :: indentedChars true ds := by
  induction cs with
  | nil => rfl
  | cons c cs ih =>
    obtain ⟨other, inside⟩ := List.ne_and_not_mem_of_not_mem_cons inside
    have unbroken : decide (c = '\n') = false := decide_eq_false other.symm
    rw [List.cons_append, indentedChars, unbroken, ih inside]
    rfl

/-- Blanks in front of a line and of the lines behind it. -/
theorem indentedChars_line {cs : List Char} (inside : '\n' ∉ cs) (ds : List Char) :
    indentedChars true (cs ++ '\n' :: ds) = ' ' :: ' ' :: ' ' :: ' ' :: (cs ++ '\n' :: indentedChars true ds) := by
  cases cs with
  | nil => rfl
  | cons c cs =>
    obtain ⟨other, inside⟩ := List.ne_and_not_mem_of_not_mem_cons inside
    have unbroken : decide (c = '\n') = false := decide_eq_false other.symm
    rw [List.cons_append, indentedChars, unbroken, indentedChars_inside inside]
    rfl

theorem not_mem_indentation (depth : Nat) : '\n' ∉ (indentation depth).toList := by
  induction depth with
  | zero => simp [indentation]
  | succ depth ih =>
    rw [indentation_succ, String.toList_append, List.mem_append]
    exact not_or.mpr ⟨by decide, ih⟩

/-! ## Lines without breaks -/

variable {table : SymbolTable}

/-- No name of a symbol has a line break in it. -/
def SymbolTable.NamesUnbroken (table : SymbolTable) : Prop :=
  ∀ s ∈ table.symbols, '\n' ∉ s.name.toList

instance (table : SymbolTable) : Decidable table.NamesUnbroken :=
  inferInstanceAs (Decidable (∀ s ∈ table.symbols, '\n' ∉ s.name.toList))

/-- No word is broken. -/
def Unbroken (table : SymbolTable) (ws : List Word) : Prop :=
  ∀ w ∈ ws, '\n' ∉ (w.chars table).toList

@[simp] theorem unbroken_nil : Unbroken table [] := nofun

@[simp] theorem unbroken_cons {w : Word} {ws : List Word} :
    Unbroken table (w :: ws) ↔ '\n' ∉ (w.chars table).toList ∧ Unbroken table ws :=
  List.forall_mem_cons

@[simp] theorem unbroken_append {ws vs : List Word} :
    Unbroken table (ws ++ vs) ↔ Unbroken table ws ∧ Unbroken table vs :=
  List.forall_mem_append

theorem SymbolTable.NamesUnbroken.name (names : table.NamesUnbroken) (i : SymbolIndex) :
    '\n' ∉ (table.nameOf i).toList := by
  unfold SymbolTable.nameOf
  cases found : table.get? i with
  | none => exact List.not_mem_nil
  | some s => exact names s (List.mem_of_getElem? found)

theorem not_mem_integer (v : Int) : '\n' ∉ (toString v).toList := by
  intro member
  have number := Json.isNumber_int v
  generalize (toString v).toList = cs at number member
  cases number with
  | plain unsigned => simpa using unsigned.chars _ member
  | negative unsigned => simpa using unsigned.chars _ (List.mem_of_ne_of_mem (by decide) member)

theorem not_mem_real (r : Float) : '\n' ∉ (Decimal.Layout.plain.text r).toList := by
  intro member
  rw [Decimal.Layout.text, String.toList_ofList, Decimal.Layout.chars] at member
  split at member
  · simp at member
  · rcases List.mem_append.mp member with sign | digits
    · split at sign <;> simp at sign
    · split at digits
      · simpa using (Json.isUnsigned_digits _ _).chars _ digits
      · simp at digits

mutual

theorem unbroken_words (names : table.NamesUnbroken) (e : Expr) : Unbroken table e.words := by
  match e with
  | .name n s => simp [Expr.words, names.name]
  | .element n array index => simp [Expr.words, names.name, unbroken_words names index]
  | .integer n v => exact List.forall_mem_singleton.mpr (not_mem_integer v)
  | .real n v => exact List.forall_mem_singleton.mpr (not_mem_real v)
  | .cast n inner | .negate n inner | .not n inner => simp [Expr.words, unbroken_words names inner]
  | .call n callee args => simp [Expr.words, names.name, unbroken_argWords names args]
  | .binary n op left right =>
    have unbroken : '\n' ∉ op.text.toList := by cases op <;> decide
    simp [Expr.words, unbroken, unbroken_words names left, unbroken_words names right]
  | .relation n op left right =>
    have unbroken : '\n' ∉ op.text.toList := by cases op <;> decide
    simp [Expr.words, unbroken, unbroken_words names left, unbroken_words names right]
termination_by sizeOf e

theorem unbroken_argWords (names : table.NamesUnbroken) (es : List Expr) : Unbroken table (argWords es) := by
  match es with
  | [] => exact unbroken_nil
  | e :: es => simp [argWords, unbroken_words names e, unbroken_moreArgWords names es]
termination_by sizeOf es

theorem unbroken_moreArgWords (names : table.NamesUnbroken) (es : List Expr) :
    Unbroken table (moreArgWords es) := by
  match es with
  | [] => exact unbroken_nil
  | e :: es => simp [moreArgWords, unbroken_words names e, unbroken_moreArgWords names es]
termination_by sizeOf es

end

theorem unbroken_headingWords (names : table.NamesUnbroken) {opening closing : String}
    (opens : '\n' ∉ opening.toList) (closes : '\n' ∉ closing.toList) (condition : Expr) :
    Unbroken table (headingWords opening condition closing) := by
  simp [headingWords, opens, closes, unbroken_words names condition]

mutual

theorem unbroken_lines (names : table.NamesUnbroken) (depth : Nat) (s : Stmt) :
    ∀ l ∈ s.lines depth, Unbroken table l.words := by
  match s with
  | .assign p target value => simp [Stmt.lines, unbroken_words names]
  | .branch p condition body elsifs none =>
    simpa [Stmt.lines, or_imp, forall_and, unbroken_headingWords names] using
      ⟨unbroken_bodyLines names (depth + 1) body, unbroken_elsifLines names depth elsifs⟩
  | .branch p condition body elsifs (some otherwise) =>
    simpa [Stmt.lines, or_imp, forall_and, unbroken_headingWords names] using
      ⟨unbroken_bodyLines names (depth + 1) body, unbroken_elsifLines names depth elsifs,
        unbroken_bodyLines names (depth + 1) otherwise⟩
  | .loop p condition body =>
    simpa [Stmt.lines, or_imp, forall_and, unbroken_headingWords names] using unbroken_bodyLines names (depth + 1) body
  | .ret p none => simp [Stmt.lines]
  | .ret p (some value) => simp [Stmt.lines, unbroken_words names]
  | .call p callee args => simp [Stmt.lines, callWords, names.name, unbroken_argWords names]
termination_by sizeOf s

theorem unbroken_elsifLines (names : table.NamesUnbroken) (depth : Nat) (es : List Elsif) :
    ∀ l ∈ elsifLines depth es, Unbroken table l.words := by
  match es with
  | [] => nofun
  | .clause p condition body :: es =>
    simpa [elsifLines, Elsif.lines, or_imp, forall_and, unbroken_headingWords names] using
      ⟨unbroken_bodyLines names (depth + 1) body, unbroken_elsifLines names depth es⟩
termination_by sizeOf es

theorem unbroken_bodyLines (names : table.NamesUnbroken) (depth : Nat) (b : Body) :
    ∀ l ∈ bodyLines depth b, Unbroken table l.words := by
  match b with
  | [] => nofun
  | s :: b =>
    exact List.forall_mem_append.mpr ⟨unbroken_lines names depth s, unbroken_bodyLines names depth b⟩
termination_by sizeOf b

end

/-! ## Deeper lines -/

/-- The line with one more block around it. -/
def Line.deeper (l : Line) : Line :=
  ⟨l.depth + 1, l.words⟩

mutual

theorem lines_succ (depth : Nat) (s : Stmt) : s.lines (depth + 1) = (s.lines depth).map Line.deeper := by
  match s with
  | .assign .. | .ret _ none | .ret _ (some _) | .call .. => rfl
  | .branch p condition body elsifs none =>
    simp [Stmt.lines, Line.deeper, bodyLines_succ (depth + 1) body, elsifLines_succ depth elsifs]
  | .branch p condition body elsifs (some otherwise) =>
    simp [Stmt.lines, Line.deeper, bodyLines_succ (depth + 1) body, elsifLines_succ depth elsifs,
      bodyLines_succ (depth + 1) otherwise]
  | .loop p condition body => simp [Stmt.lines, Line.deeper, bodyLines_succ (depth + 1) body]
termination_by sizeOf s

theorem elsifLines_succ (depth : Nat) (es : List Elsif) :
    elsifLines (depth + 1) es = (elsifLines depth es).map Line.deeper := by
  match es with
  | [] => rfl
  | .clause p condition body :: es =>
    simp [elsifLines, Elsif.lines, Line.deeper, bodyLines_succ (depth + 1) body, elsifLines_succ depth es]
termination_by sizeOf es

/-- In a block, a body has the same lines, each one deeper. -/
theorem bodyLines_succ (depth : Nat) (b : Body) : bodyLines (depth + 1) b = (bodyLines depth b).map Line.deeper := by
  match b with
  | [] => rfl
  | s :: b => simp [bodyLines, lines_succ depth s, bodyLines_succ depth b]
termination_by sizeOf b

end

/-! ## Texts of lines -/

theorem not_mem_wordsText {ws : List Word} (unbroken : Unbroken table ws) : '\n' ∉ (wordsText table ws).toList := by
  induction ws with
  | nil => exact List.not_mem_nil
  | cons w ws ih =>
    obtain ⟨head, tail⟩ := unbroken_cons.mp unbroken
    rw [wordsText_cons, String.toList_append, List.mem_append]
    exact not_or.mpr ⟨head, ih tail⟩

theorem indented_empty : indented "" = "" := rfl

/-- Behind a line, the next one is indented by itself. -/
theorem indented_line (l : Line) (unbroken : Unbroken table l.words) (s : String) :
    indented (l.text table ++ s) = l.deeper.text table ++ indented s := by
  have inside : '\n' ∉ (indentation l.depth ++ wordsText table l.words).toList := by
    rw [String.toList_append, List.mem_append]
    exact not_or.mpr ⟨not_mem_indentation _, not_mem_wordsText unbroken⟩
  have split : (l.text table ++ s).toList =
      (indentation l.depth ++ wordsText table l.words).toList ++ '\n' :: s.toList := by
    simp [Line.text]
  apply String.toList_inj.mp
  rw [indented, split, indentedChars_line inside]
  simp [Line.deeper, Line.text, indentation_succ, indented]

theorem indented_linesText {ls : List Line} (unbroken : ∀ l ∈ ls, Unbroken table l.words) :
    indented (linesText table ls) = linesText table (ls.map Line.deeper) := by
  induction ls with
  | nil => exact indented_empty
  | cons l ls ih =>
    obtain ⟨head, tail⟩ := List.forall_mem_cons.mp unbroken
    rw [linesText_cons, indented_line l head, ih tail, List.map_cons, linesText_cons]

theorem linesText_bodyLines_succ (names : table.NamesUnbroken) (depth : Nat) (b : Body) :
    linesText table (bodyLines (depth + 1) b) = indented (linesText table (bodyLines depth b)) := by
  rw [bodyLines_succ, indented_linesText (unbroken_bodyLines names depth b)]

theorem linesText_bodyLines (names : table.NamesUnbroken) (depth : Nat) (b : Body) :
    linesText table (bodyLines depth b) = indented^[depth] (linesText table (bodyLines 0 b)) := by
  induction depth with
  | zero => rfl
  | succ depth ih => rw [linesText_bodyLines_succ names, ih, Function.iterate_succ_apply']

theorem endsLines_linesText (ls : List Line) : EndsLines (linesText table ls) := by
  induction ls with
  | nil => exact .inl rfl
  | cons l ls ih =>
    rw [linesText_cons]
    obtain empty | ⟨t, ends⟩ := ih
    · rw [empty]
      exact .inr ⟨indentation l.depth ++ wordsText table l.words, by simp [Line.text, String.append_assoc]⟩
    · rw [ends]
      exact .inr ⟨l.text table ++ t, (String.append_assoc ..).symm⟩

/-! ## Statements -/

/-- The text of the clauses of a branch, from those of their conditions and bodies. -/
def clausesText? (table : SymbolTable) : List Elsif → Option String
  | [] => some ""
  | .clause _ condition body :: es => do
    let c ← condition.text? table
    let t ← Body.text? table body
    let rest ← clausesText? table es
    return "elsif " ++ c ++ " then\n" ++ indented t ++ rest

theorem headingText (opening : String) (condition : Expr) (closing : String) :
    (Line.mk 0 (headingWords opening condition closing)).text table =
      opening ++ wordsText table condition.words ++ closing ++ "\n" := by
  simp [Line.text, indentation, headingWords, String.append_assoc]

theorem lineText (s : String) : (Line.mk 0 [.text s]).text table = s ++ "\n" := by
  simp [Line.text, indentation]

theorem clausesText_eq (names : table.NamesUnbroken) (es : List Elsif) :
    clausesText? table es =
      if table.Covers (elsifSymbols es) then some (linesText table (elsifLines 0 es)) else none := by
  induction es with
  | nil => simp [clausesText?, elsifSymbols, elsifLines]
  | cons e es ih =>
    obtain ⟨p, condition, body⟩ := e
    simp only [clausesText?, exprText_eq, bodyText_eq, ih, elsifSymbols, Elsif.symbols, covers_append]
    by_cases first : table.Covers condition.symbols <;> by_cases second : table.Covers (bodySymbols body) <;>
      by_cases third : table.Covers (elsifSymbols es) <;>
        simp [first, second, third, elsifLines, Elsif.lines, headingText, linesText_bodyLines_succ names,
          String.append_assoc]

theorem bodyLines_append (depth : Nat) (a b : Body) :
    bodyLines depth (a ++ b) = bodyLines depth a ++ bodyLines depth b := by
  induction a with
  | nil => rfl
  | cons s a ih => rw [List.cons_append, bodyLines, ih, bodyLines, List.append_assoc]

theorem bodySymbols_append (a b : Body) : bodySymbols (a ++ b) = bodySymbols a ++ bodySymbols b := by
  induction a with
  | nil => rfl
  | cons s a ih => rw [List.cons_append, bodySymbols, ih, bodySymbols, List.append_assoc]

theorem text_append (a b : Body) :
    Body.text? table (a ++ b) = do
      let s ← a.text? table
      let t ← b.text? table
      return s ++ t := by
  simp only [bodyText_eq, bodySymbols_append, bodyLines_append, covers_append]
  by_cases first : table.Covers (bodySymbols a) <;> by_cases second : table.Covers (bodySymbols b) <;>
    simp [first, second]

theorem text_loop (names : table.NamesUnbroken) (pos : Position) (condition : Expr) (body : Body) :
    Body.text? table [.loop pos condition body] = do
      let c ← condition.text? table
      let t ← body.text? table
      return "while " ++ c ++ " do\n" ++ indented t ++ "end;\n" := by
  simp only [exprText_eq, bodyText_eq, bodySymbols, Stmt.symbols, List.append_nil, covers_append]
  by_cases first : table.Covers condition.symbols <;> by_cases second : table.Covers (bodySymbols body) <;>
    simp [first, second, bodyLines, Stmt.lines, headingText, lineText, linesText_bodyLines_succ names,
      String.append_assoc]

theorem text_branch (names : table.NamesUnbroken) (pos : Position) (condition : Expr) (body : Body)
    (elsifs : List Elsif) :
    Body.text? table [.branch pos condition body elsifs none] = do
      let c ← condition.text? table
      let t ← body.text? table
      let es ← clausesText? table elsifs
      return "if " ++ c ++ " then\n" ++ indented t ++ es ++ "end;\n" := by
  simp only [exprText_eq, bodyText_eq, clausesText_eq names, bodySymbols, Stmt.symbols, List.append_nil, covers_append]
  by_cases first : table.Covers condition.symbols <;> by_cases second : table.Covers (bodySymbols body) <;>
    by_cases third : table.Covers (elsifSymbols elsifs) <;>
      simp [first, second, third, bodyLines, Stmt.lines, headingText, lineText, linesText_bodyLines_succ names,
        String.append_assoc]

theorem text_branch_otherwise (names : table.NamesUnbroken) (pos : Position) (condition : Expr) (body : Body)
    (elsifs : List Elsif) (otherwise : Body) :
    Body.text? table [.branch pos condition body elsifs (some otherwise)] = do
      let c ← condition.text? table
      let t ← body.text? table
      let es ← clausesText? table elsifs
      let o ← otherwise.text? table
      return "if " ++ c ++ " then\n" ++ indented t ++ es ++ "else\n" ++ indented o ++ "end;\n" := by
  simp only [exprText_eq, bodyText_eq, clausesText_eq names, bodySymbols, Stmt.symbols, List.append_nil, covers_append]
  by_cases first : table.Covers condition.symbols <;> by_cases second : table.Covers (bodySymbols body) <;>
    by_cases third : table.Covers (elsifSymbols elsifs) <;> by_cases fourth : table.Covers (bodySymbols otherwise) <;>
      simp [first, second, third, fourth, bodyLines, Stmt.lines, headingText, lineText,
        linesText_bodyLines_succ names, String.append_assoc]

/-! ## Printers -/

/-- What the printer writes next gets all its indentation: it begins a line, or there is none to write. -/
def Printer.Ready (p : Printer) : Prop :=
  p.atLineStart = true ∨ p.depth = 0

theorem ready_writeLines {p : Printer} (ready : p.Ready) (ls : List Line) : (p.writeLines table ls).Ready := by
  induction ls generalizing p with
  | nil => exact ready
  | cons l ls ih => exact ih (.inl rfl)

/-- What is written for a body where a printer stands is its text, indented as deep as that is. -/
theorem text_printed (names : table.NamesUnbroken) {p : Printer} (ready : p.Ready) {b : Body} {t : String}
    (printed : b.text? table = some t) :
    ∃ q, (printBody table b).run p = .ok ((), q) ∧ q.text = p.text ++ indented^[p.depth] t ∧ q.depth = p.depth ∧
      q.Ready := by
  rw [bodyText_eq] at printed
  obtain ⟨covers, text⟩ := Option.ite_none_right_eq_some.mp printed
  have first := depth_head_bodyLines p.depth b
  have due : p.atLineStart = true ∨ ∀ l ∈ (bodyLines p.depth b).head?, l.depth = 0 :=
    ready.imp_right fun depth l head => (first l head).trans depth
  refine ⟨_, (run_printBody b p).trans (if_pos covers), ?_, p.depth_writeLines _, ready_writeLines ready _⟩
  rw [text_writeLines due, linesText_bodyLines names, Option.some.inj text]

/-- A statement leaves the printer as deep as it was. -/
theorem depth_print {s : Stmt} {p q : Printer} (printed : (s.print table).run p = .ok ((), q)) : q.depth = p.depth := by
  have lays : Printing.Lays table (s.print table) fun depth => s.lines depth := lays_print s
  rw [lays p] at printed
  split at printed
  · cases printed
    exact p.depth_writeLines _
  · cases printed

theorem blocks_open (b : Body) (p : Printer) : (printBody table b).run p ≠ .error .noOpenBlock := by
  rw [run_printBody]
  split <;> nofun

/-- Printed bodies are put together from printed statements, and these from the bodies in them. -/
theorem text_compositional {table : SymbolTable} (names : table.NamesUnbroken) :
    (∀ b : Body, table.Covers (bodySymbols b) → ∃ t, b.text? table = some t) ∧
    (∀ a b : Body, Body.text? table (a ++ b) = do
      let s ← a.text? table
      let t ← b.text? table
      return s ++ t) ∧
    (∀ pos condition body, Body.text? table [.loop pos condition body] = do
      let c ← condition.text? table
      let t ← Body.text? table body
      return "while " ++ c ++ " do\n" ++ indented t ++ "end;\n") ∧
    (∀ pos condition body elsifs, Body.text? table [.branch pos condition body elsifs none] = do
      let c ← condition.text? table
      let t ← Body.text? table body
      let es ← clausesText? table elsifs
      return "if " ++ c ++ " then\n" ++ indented t ++ es ++ "end;\n") ∧
    (∀ pos condition body elsifs otherwise, Body.text? table [.branch pos condition body elsifs (some otherwise)] = do
      let c ← condition.text? table
      let t ← Body.text? table body
      let es ← clausesText? table elsifs
      let o ← Body.text? table otherwise
      return "if " ++ c ++ " then\n" ++ indented t ++ es ++ "else\n" ++ indented o ++ "end;\n") ∧
    (∀ (b : Body) t, b.text? table = some t → EndsLines t ∧ ∀ p : Printer, p.Ready →
      ∃ q, (printBody table b).run p = .ok ((), q) ∧ q.text = p.text ++ indented^[p.depth] t ∧
        q.depth = p.depth ∧ q.Ready) ∧
    (∀ (s : Stmt) p q, (s.print table).run p = .ok ((), q) → q.depth = p.depth) ∧
    ∀ (b : Body) p, (printBody table b).run p ≠ .error .noOpenBlock := by
  refine ⟨exists_bodyText, text_append, text_loop names, text_branch names, text_branch_otherwise names,
    fun b t printed => ⟨?_, fun p ready => text_printed names ready printed⟩, fun s p q => depth_print, blocks_open⟩
  rw [bodyText_eq] at printed
  obtain ⟨-, text⟩ := Option.ite_none_right_eq_some.mp printed
  rw [← Option.some.inj text]
  exact endsLines_linesText _

/-- A loop is four blanks deeper in a branch, and its body eight. -/
theorem text_compositional_nested_loop :
    let main := SymbolTable.new "main"
    let table : SymbolTable :=
      { main with symbols := main.symbols ++ [.plain "x" .variable integerType, .plain "n" .variable integerType] }
    let x : Expr := .name ⟨⟨1, 4⟩, integerType⟩ 4
    let n : Expr := .name ⟨⟨2, 11⟩, integerType⟩ 5
    let reset : Body := [.assign ⟨3, 11⟩ x n]
    let loop : Body := [.loop ⟨2, 5⟩ n reset]
    table.NamesUnbroken ∧
      Body.text? table [.branch ⟨1, 1⟩ x loop [] (some [])] =
        some "if x then\n    while n do\n        x := n;\n    end;\nelse\nend;\n" := by
  intro main table x n reset loop
  have names : table.NamesUnbroken := by decide
  obtain ⟨-, -, loops, -, branches, -⟩ := text_compositional names
  have x_text : x.text? table = some "x" := by decide +kernel
  have n_text : n.text? table = some "n" := by decide +kernel
  have reset_text : reset.text? table = some "x := n;\n" := by decide +kernel
  have loop_text : loop.text? table = some "while n do\n    x := n;\nend;\n" := by
    rw [loops, n_text, reset_text]
    decide +kernel
  have empty_text : Body.text? table [] = some "" := by decide +kernel
  refine ⟨names, ?_⟩
  rw [branches, x_text, loop_text, empty_text]
  decide +kernel

end MiniPascal
