import MiniPascal.Proofs.Json.Numbers
import MiniPascal.Proofs.Syntax.Parts
import MiniPascal.Proofs.Syntax.Printing

/-!
# The tokens of printed bodies

A text falls into tokens: marks, and atoms, which end at a blank or a mark. Where names are identifiers and
numbers have no sign, the tokens of a printed body are those of its nodes, one after the other.
-/

namespace MiniPascal

variable {table : SymbolTable}

/-! ## Tokens of texts -/

inductive Token where
  | atom (cs : List Char)
  /-- a character that is no part of an atom -/
  | mark (c : Char)
deriving DecidableEq

def isBlank (c : Char) : Bool :=
  c = ' ' || c = '\n'

def isMark (c : Char) : Bool :=
  ['(', ')', '[', ']', ',', ';'].contains c

/-- Whether an atom ends in front of this character. -/
def endsAtom (c : Char) : Bool :=
  isBlank c || isMark c

/-- The atom of characters that are pending, if there are any. -/
def flush (pending : List Char) : List Token :=
  if pending = [] then [] else [.atom pending]

/-- The tokens of a text behind pending characters. A minus sign is a mark where none are pending. -/
def tokensFrom (pending : List Char) : List Char → List Token
  | [] => flush pending
  | c :: cs =>
    if isBlank c then flush pending ++ tokensFrom [] cs
    else if isMark c ∨ c = '-' ∧ pending = [] then flush pending ++ .mark c :: tokensFrom [] cs
    else tokensFrom (pending ++ [c]) cs

def tokens (s : String) : List Token :=
  tokensFrom [] s.toList

/-- Whether atoms end in front of the text. -/
def begins (s : String) : Bool :=
  s.toList.head?.any endsAtom

/-- Whether no atom goes on behind the text. -/
def closes (s : String) : Bool :=
  s.toList.getLast?.any endsAtom || s = "-"

section EndsAtom

variable {c : Char} (ends : endsAtom c = true)
include ends

theorem isMark_of_endsAtom (no_blank : ¬isBlank c = true) : isMark c = true := by
  simpa [endsAtom, no_blank] using ends

theorem tokensFrom_of_endsAtom (pending cs : List Char) :
    tokensFrom pending (c :: cs) = flush pending ++ tokensFrom [] (c :: cs) := by
  rw [tokensFrom, tokensFrom]
  split
  · rfl
  next no_blank =>
    have mark := isMark_of_endsAtom ends no_blank
    rw [if_pos (.inl mark), if_pos (.inl mark)]
    rfl

theorem tokensFrom_cons_of_endsAtom (cs : List Char) :
    tokensFrom [] (c :: cs) = tokensFrom [] [c] ++ tokensFrom [] cs := by
  rw [tokensFrom, tokensFrom]
  split
  · rfl
  next no_blank =>
    have mark := isMark_of_endsAtom ends no_blank
    rw [if_pos (.inl mark), if_pos (.inl mark)]
    rfl

end EndsAtom

theorem tokensFrom_append {ds : List Char} (begins : ds.head?.any endsAtom = true) (pending cs : List Char) :
    tokensFrom pending (cs ++ ds) = tokensFrom pending cs ++ tokensFrom [] ds := by
  -- what is pending changes with each character, down to the cut, where it is flushed
  induction cs generalizing pending with
  | nil =>
    cases ds with
    | nil => cases begins
    | cons d ds => exact tokensFrom_of_endsAtom begins pending ds
  | cons c cs ih =>
    rw [List.cons_append, tokensFrom, tokensFrom, ih, ih]
    split_ifs
    · exact (List.append_assoc ..).symm
    · rw [List.append_assoc, List.cons_append]
    · rfl

theorem tokens_append_of_begins (s : String) {t : String} (begin : begins t = true) :
    tokens (s ++ t) = tokens s ++ tokens t := by
  rw [tokens, String.toList_append, tokensFrom_append begin]
  rfl

theorem tokens_append_of_closes {s : String} (close : closes s = true) (t : String) :
    tokens (s ++ t) = tokens s ++ tokens t := by
  unfold closes at close
  simp only [Bool.or_eq_true, Option.any_eq_true, List.getLast?_eq_some_iff, decide_eq_true_eq] at close
  -- a last character that ends atoms is no part of one, so the text is cut in front of it first
  obtain ⟨c, ⟨cs, last⟩, ends⟩ | rfl := close
  · have begins (ds : List Char) : (c :: ds).head?.any endsAtom = true := ends
    rw [tokens, String.toList_append, last, List.append_assoc, List.singleton_append,
      tokensFrom_append (begins t.toList), tokensFrom_cons_of_endsAtom ends, ← List.append_assoc,
      ← tokensFrom_append (begins []), ← last]
    rfl
  · rw [tokens, String.toList_append]
    rfl

/-! ## Atoms -/

/-- Characters that make up one atom. -/
def IsAtom (cs : List Char) : Prop :=
  cs ≠ [] ∧ cs.head? ≠ some '-' ∧ ∀ c ∈ cs, endsAtom c = false

theorem tokensFrom_pending {pending cs : List Char} (some_pending : pending ≠ [])
    (inner : ∀ c ∈ cs, endsAtom c = false) : tokensFrom pending cs = [.atom (pending ++ cs)] := by
  induction cs generalizing pending with
  | nil => rw [tokensFrom, flush, if_neg some_pending, List.append_nil]
  | cons c cs ih =>
    obtain ⟨head, tail⟩ := List.forall_mem_cons.mp inner
    obtain ⟨no_blank, no_mark⟩ := Bool.or_eq_false_iff.mp head
    have behind : pending ++ [c] ≠ [] := List.append_ne_nil_of_left_ne_nil some_pending _
    simp only [tokensFrom, no_blank, no_mark, some_pending, Bool.false_eq_true, and_false, or_false, if_false,
      ih behind tail, List.append_assoc, List.singleton_append]

theorem tokensFrom_atom {cs : List Char} (atom : IsAtom cs) : tokensFrom [] cs = [.atom cs] := by
  obtain ⟨some_char, no_minus, inner⟩ := atom
  obtain ⟨c, cs, rfl⟩ := List.exists_cons_of_ne_nil some_char
  obtain ⟨head, tail⟩ := List.forall_mem_cons.mp inner
  obtain ⟨no_blank, no_mark⟩ := Bool.or_eq_false_iff.mp head
  have no_minus : c ≠ '-' := fun minus => no_minus (congrArg some minus)
  have front : tokensFrom [] (c :: cs) = tokensFrom [c] cs := by
    simp only [tokensFrom, no_blank, no_mark, no_minus, Bool.false_eq_true, false_and, or_false, if_false,
      List.nil_append]
  rw [front, tokensFrom_pending (List.cons_ne_nil c []) tail]
  rfl

/-! ## Names and numbers -/

def isIdentifierChar (c : Char) : Bool :=
  c.isAlphanum || c = '_' || 127 < c.toNat

/-- Whether a text is made of letters, digits and underscores and does not begin with a digit. All characters
outside of ASCII count as letters. -/
def isIdentifier (s : String) : Bool :=
  s.toList.head?.any (!·.isDigit) && s.toList.all isIdentifierChar

/-- The words that printing writes by itself. -/
def printedWords : List String :=
  ["if", "then", "elsif", "else", "end", "while", "do", "return", "not", "real", "div", "mod", "or", "and"]

/-- A text that is read as a name: an identifier, and no word of the printed text itself. -/
def IsName (s : String) : Prop :=
  isIdentifier s = true ∧ s ∉ printedWords

instance (s : String) : Decidable (IsName s) :=
  inferInstanceAs (Decidable (isIdentifier s = true ∧ s ∉ printedWords))

/-- The names of the symbols are read as names. -/
def Named (table : SymbolTable) (is : List SymbolIndex) : Prop :=
  ∀ i ∈ is, IsName (table.nameOf i)

theorem named_cons {i : SymbolIndex} {is : List SymbolIndex} :
    Named table (i :: is) ↔ Named table [i] ∧ Named table is := by
  simp [Named]

theorem named_append {is js : List SymbolIndex} : Named table (is ++ js) ↔ Named table is ∧ Named table js :=
  List.forall_mem_append

/-- A literal has no sign, and is a number if it is a real. -/
def Expr.Unsigned : Expr → Prop
  | .integer _ v => 0 ≤ v
  | .real _ v => Decimal.Binary64.isFinite v = true ∧ Decimal.Binary64.isNegative v = false
  | _ => True

/-- What atoms end at, one by one. -/
def atomEnds : List Char :=
  [' ', '\n', '(', ')', '[', ']', ',', ';']

theorem endsAtom_iff {c : Char} : endsAtom c = true ↔ c ∈ atomEnds := by
  simp [atomEnds, endsAtom, isBlank, isMark, or_assoc]

theorem isAtom_of_isIdentifier {s : String} (identifier : isIdentifier s = true) : IsAtom s.toList := by
  obtain ⟨first, chars⟩ := (Bool.and_eq_true _ _).mp identifier
  obtain ⟨c, head, -⟩ := (Option.any_eq_true _ _).mp first
  have others : (('-' :: atomEnds).all fun c => !isIdentifierChar c) = true := by decide
  have no_char {c : Char} (member : c ∈ '-' :: atomEnds) : c ∉ s.toList := by
    intro inside
    have other := List.all_eq_true.mp others c member
    rw [List.all_eq_true.mp chars c inside] at other
    cases other
  refine ⟨?_, ?_, fun c inside => ?_⟩
  · rintro none
    rw [none] at head
    cases head
  · exact fun minus => no_char List.mem_cons_self (List.mem_of_head? minus)
  · by_contra ends
    exact no_char (List.mem_cons_of_mem _ (endsAtom_iff.mp (Bool.not_eq_false _ ▸ ends))) inside

theorem isAtom_of_isUnsigned {cs : List Char} (number : Json.IsUnsigned cs) : IsAtom cs := by
  obtain ⟨c, ds, rfl, digit⟩ := number.head
  have others : (atomEnds.all fun c => ¬(c.isDigit = true ∨ c ∈ ['.', 'e', '+', '-'])) = true := by decide
  refine ⟨List.cons_ne_nil c ds, ?_, fun d inside => ?_⟩
  · rintro ⟨⟩
    exact absurd digit (by decide)
  · by_contra ends
    have other := List.all_eq_true.mp others d (endsAtom_iff.mp (by simpa using ends))
    exact of_decide_eq_true other (number.chars d inside)

theorem tokens_name {i : SymbolIndex} (named : isIdentifier (table.nameOf i) = true) :
    tokens (table.nameOf i) = [.atom (table.nameOf i).toList] :=
  tokensFrom_atom (isAtom_of_isIdentifier named)

theorem tokens_integer {v : Int} (unsigned : 0 ≤ v) : tokens (toString v) = [.atom (toString v).toList] := by
  refine tokensFrom_atom (isAtom_of_isUnsigned ?_)
  rw [Json.toList_toString_int, if_pos unsigned]
  exact Json.isUnsigned_toDigits _

theorem tokens_real {r : Float} (finite : Decimal.Binary64.isFinite r = true)
    (positive : Decimal.Binary64.isNegative r = false) :
    tokens (Decimal.Layout.plain.text r) = [.atom (Decimal.Layout.plain.chars r)] := by
  have chars : (Decimal.Layout.plain.text r).toList = Decimal.Layout.plain.chars r := String.toList_ofList
  rw [tokens, chars]
  refine tokensFrom_atom (isAtom_of_isUnsigned ?_)
  rw [Json.chars_eq_digits _ finite positive]
  exact Json.isUnsigned_digits _ _

/-! ## Texts that printing writes -/

section Texts

@[simp] theorem tokens_parenthesis : tokens "(" = [.mark '('] := by decide

@[simp] theorem tokens_parenthesis_end : tokens ")" = [.mark ')'] := by decide

@[simp] theorem tokens_bracket : tokens "[" = [.mark '['] := by decide

@[simp] theorem tokens_bracket_end : tokens "]" = [.mark ']'] := by decide

@[simp] theorem tokens_comma : tokens ", " = [.mark ','] := by decide

@[simp] theorem tokens_semicolon : tokens ";" = [.mark ';'] := by decide

@[simp] theorem tokens_minus : tokens "-" = [.mark '-'] := by decide

@[simp] theorem tokens_not : tokens "not " = [.atom "not".toList] := by decide

@[simp] theorem tokens_real_call : tokens "real(" = [.atom "real".toList, .mark '('] := by decide

@[simp] theorem tokens_becomes : tokens " := " = [.atom ":=".toList] := by decide

@[simp] theorem tokens_if : tokens "if " = [.atom "if".toList] := by decide

@[simp] theorem tokens_then : tokens " then" = [.atom "then".toList] := by decide

@[simp] theorem tokens_elsif : tokens "elsif " = [.atom "elsif".toList] := by decide

@[simp] theorem tokens_else : tokens "else" = [.atom "else".toList] := by decide

@[simp] theorem tokens_while : tokens "while " = [.atom "while".toList] := by decide

@[simp] theorem tokens_do : tokens " do" = [.atom "do".toList] := by decide

@[simp] theorem tokens_end : tokens "end;" = [.atom "end".toList, .mark ';'] := by decide

@[simp] theorem tokens_return : tokens "return;" = [.atom "return".toList, .mark ';'] := by decide

@[simp] theorem tokens_return_value : tokens "return " = [.atom "return".toList] := by decide

end Texts

/-! ## Tokens of trees -/

def BinaryOp.token : BinaryOp → Token
  | sub => .mark '-'
  | op => .atom op.text.toList

def RelationOp.token (op : RelationOp) : Token :=
  .atom op.text.toList

variable (table)

mutual

/-- The tokens of a printed expression. -/
def Expr.tokens : Expr → List Token
  | .name _ s => [.atom (table.nameOf s).toList]
  | .element _ array index =>
    .atom (table.nameOf array.value).toList :: .mark '[' :: (index.tokens ++ [.mark ']'])
  | .integer _ v => [.atom (toString v).toList]
  | .real _ v => [.atom (Decimal.Layout.plain.chars v)]
  | .cast _ e => .atom "real".toList :: .mark '(' :: (e.tokens ++ [.mark ')'])
  | .negate _ e => .mark '-' :: e.tokens
  | .not _ e => .atom "not".toList :: e.tokens
  | .call _ callee args =>
    .atom (table.nameOf callee.value).toList :: .mark '(' :: (argTokens args ++ [.mark ')'])
  | .binary _ op l r => .mark '(' :: (l.tokens ++ op.token :: (r.tokens ++ [.mark ')']))
  | .relation _ op l r => .mark '(' :: (l.tokens ++ op.token :: (r.tokens ++ [.mark ')']))

def argTokens : List Expr → List Token
  | [] => []
  | e :: es => e.tokens ++ moreArgTokens es

/-- The arguments after the first. -/
def moreArgTokens : List Expr → List Token
  | [] => []
  | e :: es => .mark ',' :: (e.tokens ++ moreArgTokens es)

end

mutual

/-- The tokens of a printed statement. -/
def Stmt.tokens : Stmt → List Token
  | .assign _ target value => target.tokens table ++ .atom ":=".toList :: (value.tokens table ++ [.mark ';'])
  | .branch _ condition body elsifs none =>
    .atom "if".toList :: (condition.tokens table ++ .atom "then".toList ::
      (bodyTokens body ++ (elsifTokens elsifs ++ [.atom "end".toList, .mark ';'])))
  | .branch _ condition body elsifs (some otherwise) =>
    .atom "if".toList :: (condition.tokens table ++ .atom "then".toList ::
      (bodyTokens body ++ (elsifTokens elsifs ++
        .atom "else".toList :: (bodyTokens otherwise ++ [.atom "end".toList, .mark ';']))))
  | .loop _ condition body =>
    .atom "while".toList :: (condition.tokens table ++ .atom "do".toList ::
      (bodyTokens body ++ [.atom "end".toList, .mark ';']))
  | .ret _ none => [.atom "return".toList, .mark ';']
  | .ret _ (some value) => .atom "return".toList :: (value.tokens table ++ [.mark ';'])
  | .call _ callee args => (Expr.call default callee args).tokens table ++ [.mark ';']

def elsifTokens : List Elsif → List Token
  | [] => []
  | .clause _ condition body :: es =>
    .atom "elsif".toList :: (condition.tokens table ++ .atom "then".toList :: (bodyTokens body ++ elsifTokens es))

/-- The tokens of a printed body. -/
def bodyTokens : List Stmt → List Token
  | [] => []
  | s :: ss => s.tokens ++ bodyTokens ss

end

variable {table}

/-! ## Words and lines -/

/-- The tokens of the text of words. -/
def wordTokens (table : SymbolTable) (ws : List Word) : List Token :=
  tokens (wordsText table ws)

theorem wordTokens_nil : wordTokens table [] = [] := rfl

theorem wordTokens_text {s : String} (close : closes s = true) (ws : List Word) :
    wordTokens table (.text s :: ws) = tokens s ++ wordTokens table ws := by
  rw [wordTokens, wordsText_cons, Word.chars_text, tokens_append_of_closes close]
  rfl

theorem wordTokens_append {s : String} (begin : begins s = true) (ws vs : List Word) :
    wordTokens table (ws ++ .text s :: vs) = wordTokens table ws ++ wordTokens table (.text s :: vs) := by
  have begin_words : begins (wordsText table (.text s :: vs)) = true := by
    unfold begins at begin ⊢
    obtain ⟨c, first, ends⟩ := (Option.any_eq_true _ _).mp begin
    rw [wordsText_cons, Word.chars_text, String.toList_append, List.head?_append, first]
    exact ends
  rw [wordTokens, wordsText_append, tokens_append_of_begins _ begin_words]
  rfl

@[simp] theorem wordTokens_single (s : String) : wordTokens table [.text s] = tokens s := by
  rw [wordTokens, wordsText_cons, wordsText_nil, String.append_empty, Word.chars_text]

theorem wordTokens_name {i : SymbolIndex} (named : Named table [i]) :
    wordTokens table [.name i] = [.atom (table.nameOf i).toList] := by
  rw [wordTokens, wordsText_cons, wordsText_nil, String.append_empty]
  exact tokens_name (named i List.mem_cons_self).1

theorem tokens_binaryOp (op : BinaryOp) : tokens (" " ++ op.text ++ " ") = [op.token] := by
  cases op <;> decide

theorem tokens_relationOp (op : RelationOp) : tokens (" " ++ op.text ++ " ") = [op.token] := by
  cases op <;> decide

theorem wordTokens_name_text {i : SymbolIndex} (named : Named table [i]) {s : String} (begin : begins s = true)
    (ws : List Word) : wordTokens table (.name i :: .text s :: ws) =
      .atom (table.nameOf i).toList :: wordTokens table (.text s :: ws) := by
  have split : wordTokens table ([.name i] ++ .text s :: ws) = _ := wordTokens_append begin [.name i] ws
  rwa [wordTokens_name named] at split

theorem wordTokens_append_moreArgWords (ws : List Word) (es : List Expr) :
    wordTokens table (ws ++ moreArgWords es) = wordTokens table ws ++ wordTokens table (moreArgWords es) := by
  cases es with
  | nil => simp [moreArgWords, wordTokens_nil]
  | cons e es => exact wordTokens_append rfl ws _

mutual

theorem wordTokens_words (e : Expr) (named : Named table e.symbols) (unsigned : All Expr.Unsigned e.parts) :
    wordTokens table e.words = e.tokens table := by
  match e with
  | .name n s => exact wordTokens_name named
  | .element n array index =>
    obtain ⟨named_array, named_index⟩ := named_cons.mp named
    obtain ⟨-, unsigned_index⟩ := all_cons.mp unsigned
    rw [Expr.words, wordTokens_name_text named_array rfl, wordTokens_text rfl, wordTokens_append rfl,
      wordTokens_words index named_index unsigned_index]
    simp [Expr.tokens]
  | .integer n v =>
    rw [Expr.words, wordTokens_single]
    exact tokens_integer (all_cons.mp unsigned).1
  | .real n v =>
    obtain ⟨finite, positive⟩ := (all_cons.mp unsigned).1
    rw [Expr.words, wordTokens_single]
    exact tokens_real finite positive
  | .cast n inner =>
    rw [Expr.words, wordTokens_text rfl, wordTokens_append rfl,
      wordTokens_words inner named (all_cons.mp unsigned).2]
    simp [Expr.tokens]
  | .negate n inner =>
    rw [Expr.words, wordTokens_text rfl, wordTokens_words inner named (all_cons.mp unsigned).2]
    simp [Expr.tokens]
  | .not n inner =>
    rw [Expr.words, wordTokens_text rfl, wordTokens_words inner named (all_cons.mp unsigned).2]
    simp [Expr.tokens]
  | .call n callee args =>
    obtain ⟨named_callee, named_args⟩ := named_cons.mp named
    obtain ⟨-, unsigned_args⟩ := all_cons.mp unsigned
    rw [Expr.words, wordTokens_name_text named_callee rfl, wordTokens_text rfl, wordTokens_append rfl,
      wordTokens_argWords args named_args unsigned_args]
    simp [Expr.tokens]
  | .binary n op left right =>
    obtain ⟨named_left, named_right⟩ := named_append.mp named
    obtain ⟨unsigned_left, unsigned_right⟩ := all_append.mp (all_cons.mp unsigned).2
    have spaced : begins (" " ++ op.text ++ " ") = true ∧ closes (" " ++ op.text ++ " ") = true := by
      cases op <;> decide
    rw [Expr.words, wordTokens_text rfl, wordTokens_append spaced.1, wordTokens_text spaced.2, wordTokens_append rfl,
      wordTokens_words left named_left unsigned_left, wordTokens_words right named_right unsigned_right,
      tokens_binaryOp]
    simp [Expr.tokens]
  | .relation n op left right =>
    obtain ⟨named_left, named_right⟩ := named_append.mp named
    obtain ⟨unsigned_left, unsigned_right⟩ := all_append.mp (all_cons.mp unsigned).2
    have spaced : begins (" " ++ op.text ++ " ") = true ∧ closes (" " ++ op.text ++ " ") = true := by
      cases op <;> decide
    rw [Expr.words, wordTokens_text rfl, wordTokens_append spaced.1, wordTokens_text spaced.2, wordTokens_append rfl,
      wordTokens_words left named_left unsigned_left, wordTokens_words right named_right unsigned_right,
      tokens_relationOp]
    simp [Expr.tokens]
termination_by sizeOf e

theorem wordTokens_argWords (es : List Expr) (named : Named table (argSymbols es))
    (unsigned : All Expr.Unsigned (argParts es)) : wordTokens table (argWords es) = argTokens table es := by
  match es with
  | [] => rfl
  | e :: es =>
    obtain ⟨named_e, named_es⟩ := named_append.mp named
    obtain ⟨unsigned_e, unsigned_es⟩ := all_append.mp unsigned
    rw [argWords, argTokens, wordTokens_append_moreArgWords, wordTokens_words e named_e unsigned_e,
      wordTokens_moreArgWords es named_es unsigned_es]
termination_by sizeOf es

theorem wordTokens_moreArgWords (es : List Expr) (named : Named table (argSymbols es))
    (unsigned : All Expr.Unsigned (argParts es)) : wordTokens table (moreArgWords es) = moreArgTokens table es := by
  match es with
  | [] => rfl
  | e :: es =>
    obtain ⟨named_e, named_es⟩ := named_append.mp named
    obtain ⟨unsigned_e, unsigned_es⟩ := all_append.mp unsigned
    rw [moreArgWords, moreArgTokens, wordTokens_text rfl, wordTokens_append_moreArgWords,
      wordTokens_words e named_e unsigned_e, wordTokens_moreArgWords es named_es unsigned_es]
    simp
termination_by sizeOf es

end

theorem wordTokens_headingWords {opening closing : String} (close : closes opening = true)
    (begin : begins closing = true) (condition : Expr) (named : Named table condition.symbols)
    (unsigned : All Expr.Unsigned condition.parts) :
    wordTokens table (headingWords opening condition closing) =
      tokens opening ++ (condition.tokens table ++ tokens closing) := by
  rw [headingWords, wordTokens_text close, wordTokens_append begin, wordTokens_words condition named unsigned,
    wordTokens_single]

/-! ## Lines -/

theorem tokens_indentation (depth : Nat) (s : String) : tokens (indentation depth ++ s) = tokens s := by
  induction depth with
  | zero => simp [indentation]
  | succ depth ih =>
    have blanks : tokens "    " = [] := by decide
    have close : closes "    " = true := rfl
    rw [indentation_succ, String.append_assoc, tokens_append_of_closes close, blanks, ih, List.nil_append]

def lineTokens (table : SymbolTable) (ls : List Line) : List Token :=
  tokens (linesText table ls)

@[simp] theorem lineTokens_nil : lineTokens table [] = [] := rfl

@[simp] theorem lineTokens_cons (l : Line) (ls : List Line) :
    lineTokens table (l :: ls) = wordTokens table l.words ++ lineTokens table ls := by
  have breaks (s : String) : begins ("\n" ++ s) = true := by
    simp [begins, endsAtom, isBlank]
  have close : closes "\n" = true := rfl
  have blank : tokens "\n" = [] := by decide
  rw [lineTokens, linesText_cons, Line.text, String.append_assoc, String.append_assoc, tokens_indentation,
    tokens_append_of_begins _ (breaks _), tokens_append_of_closes close, blank]
  rfl

@[simp] theorem lineTokens_append (ls ms : List Line) :
    lineTokens table (ls ++ ms) = lineTokens table ls ++ lineTokens table ms := by
  induction ls with
  | nil => rfl
  | cons l ls ih => rw [List.cons_append, lineTokens_cons, lineTokens_cons, ih, List.append_assoc]

mutual

theorem lineTokens_lines (depth : Nat) (s : Stmt) (named : Named table s.symbols)
    (unsigned : All Expr.Unsigned s.parts) : lineTokens table (s.lines depth) = s.tokens table := by
  match s with
  | .assign p target value =>
    obtain ⟨named_target, named_value⟩ := named_append.mp named
    obtain ⟨unsigned_target, unsigned_value⟩ := all_append.mp unsigned
    rw [Stmt.lines, lineTokens_cons, wordTokens_append rfl, wordTokens_text rfl, wordTokens_append rfl,
      wordTokens_words target named_target unsigned_target, wordTokens_words value named_value unsigned_value]
    simp [Stmt.tokens]
  | .branch p condition body elsifs none =>
    obtain ⟨named_front, named_elsifs⟩ := named_append.mp named
    obtain ⟨named_condition, named_body⟩ := named_append.mp named_front
    obtain ⟨unsigned_front, unsigned_elsifs⟩ := all_append.mp unsigned
    obtain ⟨unsigned_condition, unsigned_body⟩ := all_append.mp unsigned_front
    rw [Stmt.lines, lineTokens_cons, wordTokens_headingWords rfl rfl condition named_condition unsigned_condition,
      lineTokens_append, lineTokens_append, lineTokens_bodyLines (depth + 1) body named_body unsigned_body,
      lineTokens_elsifLines depth elsifs named_elsifs unsigned_elsifs]
    simp [Stmt.tokens]
  | .branch p condition body elsifs (some otherwise) =>
    obtain ⟨named_front, named_otherwise⟩ := named_append.mp named
    obtain ⟨named_front, named_elsifs⟩ := named_append.mp named_front
    obtain ⟨named_condition, named_body⟩ := named_append.mp named_front
    obtain ⟨unsigned_front, unsigned_otherwise⟩ := all_append.mp unsigned
    obtain ⟨unsigned_front, unsigned_elsifs⟩ := all_append.mp unsigned_front
    obtain ⟨unsigned_condition, unsigned_body⟩ := all_append.mp unsigned_front
    rw [Stmt.lines, lineTokens_cons, wordTokens_headingWords rfl rfl condition named_condition unsigned_condition,
      lineTokens_append, lineTokens_append, lineTokens_cons, lineTokens_append,
      lineTokens_bodyLines (depth + 1) body named_body unsigned_body,
      lineTokens_elsifLines depth elsifs named_elsifs unsigned_elsifs,
      lineTokens_bodyLines (depth + 1) otherwise named_otherwise unsigned_otherwise]
    simp [Stmt.tokens]
  | .loop p condition body =>
    obtain ⟨named_condition, named_body⟩ := named_append.mp named
    obtain ⟨unsigned_condition, unsigned_body⟩ := all_append.mp unsigned
    rw [Stmt.lines, lineTokens_cons, wordTokens_headingWords rfl rfl condition named_condition unsigned_condition,
      lineTokens_append, lineTokens_bodyLines (depth + 1) body named_body unsigned_body]
    simp [Stmt.tokens]
  | .ret p none => simp [Stmt.lines, Stmt.tokens]
  | .ret p (some value) =>
    rw [Stmt.lines, lineTokens_cons, wordTokens_text rfl, wordTokens_append rfl, wordTokens_words value named unsigned]
    simp [Stmt.tokens]
  | .call p callee args =>
    have call : wordTokens table (callWords callee args) = (Expr.call default callee args).tokens table :=
      wordTokens_words (.call default callee args) named (all_cons.mpr ⟨trivial, unsigned⟩)
    rw [Stmt.lines, lineTokens_cons, wordTokens_append rfl, call]
    simp [Stmt.tokens]
termination_by sizeOf s

theorem lineTokens_elsifLines (depth : Nat) (es : List Elsif) (named : Named table (elsifSymbols es))
    (unsigned : All Expr.Unsigned (elsifParts es)) : lineTokens table (elsifLines depth es) = elsifTokens table es := by
  match es with
  | [] => rfl
  | .clause p condition body :: es =>
    obtain ⟨named_front, named_es⟩ := named_append.mp named
    obtain ⟨named_condition, named_body⟩ := named_append.mp named_front
    obtain ⟨unsigned_front, unsigned_es⟩ := all_append.mp unsigned
    obtain ⟨unsigned_condition, unsigned_body⟩ := all_append.mp unsigned_front
    rw [elsifLines, Elsif.lines, List.cons_append, lineTokens_cons,
      wordTokens_headingWords rfl rfl condition named_condition unsigned_condition, lineTokens_append,
      lineTokens_bodyLines (depth + 1) body named_body unsigned_body,
      lineTokens_elsifLines depth es named_es unsigned_es]
    simp [elsifTokens]
termination_by sizeOf es

/-- The tokens of a printed body are those of its tree, however deep it is. -/
theorem lineTokens_bodyLines (depth : Nat) (b : Body) (named : Named table (bodySymbols b))
    (unsigned : All Expr.Unsigned (bodyParts b)) : lineTokens table (bodyLines depth b) = bodyTokens table b := by
  match b with
  | [] => rfl
  | s :: b =>
    obtain ⟨named_s, named_b⟩ := named_append.mp named
    obtain ⟨unsigned_s, unsigned_b⟩ := all_append.mp unsigned
    rw [bodyLines, bodyTokens, lineTokens_append, lineTokens_lines depth s named_s unsigned_s,
      lineTokens_bodyLines depth b named_b unsigned_b]
termination_by sizeOf b

end

end MiniPascal
