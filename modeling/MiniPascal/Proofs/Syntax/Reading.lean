import MiniPascal.Proofs.Doubles.Written
import MiniPascal.Proofs.Syntax.Tokens

/-!
# Printed bodies are read back

A reader for the tokens of printed bodies. It resolves names by a function that is given to it, and of a body
it finds everything but the positions and the stored types.
-/

namespace MiniPascal

open Decimal

/-! ## Bare trees -/

/-- The reference without its place. -/
def bareReference (r : Reference) : Reference :=
  ⟨default, r.value⟩

mutual

/-- The expression without positions and stored types. -/
def Expr.bare : Expr → Expr
  | .name _ s => .name default s
  | .element _ array index => .element default (bareReference array) index.bare
  | .integer _ v => .integer default v
  | .real _ v => .real default v
  | .cast _ e => .cast default e.bare
  | .negate _ e => .negate default e.bare
  | .not _ e => .not default e.bare
  | .call _ callee args => .call default (bareReference callee) (argsBare args)
  | .binary _ op l r => .binary default op l.bare r.bare
  | .relation _ op l r => .relation default op l.bare r.bare

def argsBare : List Expr → List Expr
  | [] => []
  | e :: es => e.bare :: argsBare es

end

mutual

/-- The statement without positions and stored types. -/
def Stmt.bare : Stmt → Stmt
  | .assign _ target value => .assign default target.bare value.bare
  | .branch _ condition body elsifs none =>
    .branch default condition.bare (bodyBare body) (elsifsBare elsifs) none
  | .branch _ condition body elsifs (some otherwise) =>
    .branch default condition.bare (bodyBare body) (elsifsBare elsifs) (some (bodyBare otherwise))
  | .loop _ condition body => .loop default condition.bare (bodyBare body)
  | .ret _ none => .ret default none
  | .ret _ (some value) => .ret default (some value.bare)
  | .call _ callee args => .call default (bareReference callee) (argsBare args)

def elsifsBare : List Elsif → List Elsif
  | [] => []
  | .clause _ condition body :: es => .clause default condition.bare (bodyBare body) :: elsifsBare es

/-- The body without positions and stored types. -/
def bodyBare : List Stmt → List Stmt
  | [] => []
  | s :: ss => s.bare :: bodyBare ss

end

/-! ## Readers -/

def expect (t : Token) (ts : List Token) : Option (List Token) :=
  if ts.head? = some t then some ts.tail else none

def number? (cs : List Char) : Option Expr :=
  (Numeral.ofChars? cs).map fun n =>
    match n.integer? with
    | some v => .integer default v
    | none => .real default n.toReal

inductive Operator where
  | binary (op : BinaryOp)
  | relation (op : RelationOp)
deriving DecidableEq

namespace Operator

def token : Operator → Token
  | binary op => op.token
  | relation op => op.token

def build : Operator → Expr → Expr → Expr
  | binary op => .binary default op
  | relation op => .relation default op

def all : List Operator :=
  [.binary .add, .binary .sub, .binary .mul, .binary .divide, .binary .div, .binary .mod, .binary .or, .binary .and,
    .relation .equal, .relation .notEqual, .relation .less, .relation .greater]

def read (ts : List Token) : Option (Operator × List Token) := do
  let t ← ts.head?
  let op ← all.find? (·.token = t)
  return (op, ts.tail)

end Operator

section Readers

variable (names : List Char → Option SymbolIndex)

mutual

/-- Reads an expression at the front of tokens. -/
def readExpr : Nat → List Token → Option (Expr × List Token)
  | fuel + 1, .mark c :: ts =>
    if c = '-' then do
      let (e, ts) ← readExpr fuel ts
      return (.negate default e, ts)
    else if c = '(' then do
      let (l, ts) ← readExpr fuel ts
      let (op, ts) ← Operator.read ts
      let (r, ts) ← readExpr fuel ts
      let ts ← expect (.mark ')') ts
      return (op.build l r, ts)
    else none
  | fuel + 1, .atom cs :: ts =>
    if cs = "not".toList then do
      let (e, ts) ← readExpr fuel ts
      return (.not default e, ts)
    else if cs = "real".toList then do
      let ts ← expect (.mark '(') ts
      let (e, ts) ← readExpr fuel ts
      let ts ← expect (.mark ')') ts
      return (.cast default e, ts)
    else if cs.head?.any Char.isDigit then do
      let e ← number? cs
      return (e, ts)
    else do
      let i ← names cs
      readName fuel i ts
  | _, _ => none

/-- Reads what a name is followed by. -/
def readName : Nat → SymbolIndex → List Token → Option (Expr × List Token)
  | fuel + 1, i, ts =>
    if ts.head? = some (.mark '(') then do
      let (args, ts) ← readArgs fuel ts.tail
      return (.call default ⟨default, i⟩ args, ts)
    else if ts.head? = some (.mark '[') then do
      let (index, ts) ← readExpr fuel ts.tail
      let ts ← expect (.mark ']') ts
      return (.element default ⟨default, i⟩ index, ts)
    else some (.name default i, ts)
  | 0, _, _ => none

/-- Reads the arguments of a call and the parenthesis behind them. -/
def readArgs : Nat → List Token → Option (List Expr × List Token)
  | fuel + 1, ts =>
    if ts.head? = some (.mark ')') then some ([], ts.tail)
    else do
      let (e, ts) ← readExpr fuel ts
      let (es, ts) ← readMoreArgs fuel ts
      return (e :: es, ts)
  | 0, _ => none

def readMoreArgs : Nat → List Token → Option (List Expr × List Token)
  | fuel + 1, ts =>
    if ts.head? = some (.mark ')') then some ([], ts.tail)
    else do
      let ts ← expect (.mark ',') ts
      let (e, ts) ← readExpr fuel ts
      let (es, ts) ← readMoreArgs fuel ts
      return (e :: es, ts)
  | 0, _ => none

end

/-- The words that a body ends in front of. -/
def closingTokens : List Token :=
  [.atom "end".toList, .atom "elsif".toList, .atom "else".toList]

/-- Reads a condition and the word in front of its body. -/
def readCondition (fuel : Nat) (opening : String) (ts : List Token) : Option (Expr × List Token) := do
  let (condition, ts) ← readExpr names fuel ts
  let ts ← expect (.atom opening.toList) ts
  return (condition, ts)

/-- Reads the end of a block. -/
def expectEnd (ts : List Token) : Option (List Token) := do
  let ts ← expect (.atom "end".toList) ts
  expect (.mark ';') ts

/-- Reads what follows on a `return`. -/
def readReturn (fuel : Nat) (ts : List Token) : Option (Stmt × List Token) :=
  if ts.head? = some (.mark ';') then some (.ret default none, ts.tail)
  else do
    let (value, ts) ← readExpr names fuel ts
    let ts ← expect (.mark ';') ts
    return (.ret default (some value), ts)

/-- Reads an assignment or a call, which begin with an expression. -/
def readSimple (fuel : Nat) (ts : List Token) : Option (Stmt × List Token) := do
  let (e, ts) ← readExpr names fuel ts
  if ts.head? = some (.atom ":=".toList) then do
    let (value, ts) ← readExpr names fuel ts.tail
    let ts ← expect (.mark ';') ts
    return (.assign default e value, ts)
  else do
    let ts ← expect (.mark ';') ts
    match e with
    | .call _ callee args => return (.call default callee args, ts)
    | _ => none

mutual

/-- Reads a statement at the front of tokens. -/
def readStmt : Nat → List Token → Option (Stmt × List Token)
  | fuel + 1, t :: ts =>
    if t = .atom "if".toList then do
      let (condition, ts) ← readCondition names fuel "then" ts
      let (body, ts) ← readBody fuel ts
      let (elsifs, ts) ← readElsifs fuel ts
      let (otherwise, ts) ← readOtherwise fuel ts
      let ts ← expectEnd ts
      return (.branch default condition body elsifs otherwise, ts)
    else if t = .atom "while".toList then do
      let (condition, ts) ← readCondition names fuel "do" ts
      let (body, ts) ← readBody fuel ts
      let ts ← expectEnd ts
      return (.loop default condition body, ts)
    else if t = .atom "return".toList then readReturn names fuel ts
    else readSimple names fuel (t :: ts)
  | _, _ => none

def readElsifs : Nat → List Token → Option (List Elsif × List Token)
  | fuel + 1, ts =>
    if ts.head? = some (.atom "elsif".toList) then do
      let (condition, ts) ← readCondition names fuel "then" ts.tail
      let (body, ts) ← readBody fuel ts
      let (elsifs, ts) ← readElsifs fuel ts
      return (.clause default condition body :: elsifs, ts)
    else some ([], ts)
  | 0, _ => none

def readOtherwise : Nat → List Token → Option (Option Body × List Token)
  | fuel + 1, ts =>
    if ts.head? = some (.atom "else".toList) then do
      let (otherwise, ts) ← readBody fuel ts.tail
      return (some otherwise, ts)
    else some (none, ts)
  | 0, _ => none

/-- Reads the statements up to the end of the body around them. -/
def readBody : Nat → List Token → Option (Body × List Token)
  | fuel + 1, ts =>
    if ts.head?.all (· ∈ closingTokens) then some ([], ts)
    else do
      let (s, ts) ← readStmt fuel ts
      let (ss, ts) ← readBody fuel ts
      return (s :: ss, ts)
  | 0, _ => none

end

end Readers

/-! ## Reading expressions -/

variable {table : SymbolTable} {names : List Char → Option SymbolIndex}

/-- The names of the symbols are read as names, and resolved to the symbols. -/
def Resolved (table : SymbolTable) (names : List Char → Option SymbolIndex) (is : List SymbolIndex) : Prop :=
  ∀ i ∈ is, IsName (table.nameOf i) ∧ names (table.nameOf i).toList = some i

theorem resolved_cons {i : SymbolIndex} {is : List SymbolIndex} :
    Resolved table names (i :: is) ↔ Resolved table names [i] ∧ Resolved table names is := by
  simp [Resolved]

theorem resolved_append {is js : List SymbolIndex} :
    Resolved table names (is ++ js) ↔ Resolved table names is ∧ Resolved table names js :=
  List.forall_mem_append

/-- A name ends here: neither arguments nor an index follow. -/
def EndsName (ts : List Token) : Prop :=
  ts.head? ≠ some (.mark '(') ∧ ts.head? ≠ some (.mark '[')

@[simp] theorem expect_cons (t : Token) (ts : List Token) : expect t (t :: ts) = some ts :=
  if_pos rfl

theorem Operator.read_cons (op : Operator) (ts : List Token) : Operator.read (op.token :: ts) = some (op, ts) := by
  have found : ∀ op ∈ all, all.find? (fun o => o.token = op.token) = some op := by decide
  have listed : op ∈ all := by
    rcases op with op | op <;> cases op <;> decide
  simp [read, found op listed]

theorem Operator.endsName (op : Operator) (ts : List Token) : EndsName (op.token :: ts) := by
  have other : op.token ≠ .mark '(' ∧ op.token ≠ .mark '[' := by
    rcases op with op | op <;> cases op <;> decide
  simpa [EndsName] using other

/-- No printed expression begins with one of these. -/
def reservedTokens : List Token :=
  [.mark ')', .mark ';', .atom "if".toList, .atom "while".toList, .atom "return".toList, .atom "end".toList,
    .atom "elsif".toList, .atom "else".toList]

theorem name_ne {i : SymbolIndex} (resolved : Resolved table names [i]) {word : String}
    (printed : word ∈ printedWords) : (table.nameOf i).toList ≠ word.toList := fun equal =>
  (resolved i List.mem_cons_self).1.2 (String.toList_inj.mp equal ▸ printed)

theorem name_not_mem_reserved {i : SymbolIndex} (resolved : Resolved table names [i]) :
    Token.atom (table.nameOf i).toList ∉ reservedTokens := by
  have other {word : String} (printed : word ∈ printedWords) := name_ne resolved printed
  simp only [reservedTokens, List.mem_cons, reduceCtorEq, Token.atom.injEq, List.not_mem_nil, or_false, false_or,
    not_or]
  exact ⟨other (by decide), other (by decide), other (by decide), other (by decide), other (by decide),
    other (by decide)⟩

/-- A number is no word. -/
theorem number_ne {cs word : List Char} (digit : cs.head?.any Char.isDigit = true)
    (no_digit : word.head?.any Char.isDigit = false) : cs ≠ word := by
  rintro rfl
  rw [digit] at no_digit
  cases no_digit

theorem number_not_mem_reserved {cs : List Char} (digit : cs.head?.any Char.isDigit = true) :
    Token.atom cs ∉ reservedTokens := by
  have other {word : List Char} (no_digit : word.head?.any Char.isDigit = false) := number_ne digit no_digit
  simp only [reservedTokens, List.mem_cons, reduceCtorEq, Token.atom.injEq, List.not_mem_nil, or_false, false_or,
    not_or]
  exact ⟨other (by decide), other (by decide), other (by decide), other (by decide), other (by decide),
    other (by decide)⟩

theorem readExpr_name (fuel : Nat) {i : SymbolIndex} (resolved : Resolved table names [i]) (ts : List Token) :
    readExpr names (fuel + 1) (.atom (table.nameOf i).toList :: ts) = readName names fuel i ts := by
  obtain ⟨⟨identifier, -⟩, found⟩ := resolved i List.mem_cons_self
  obtain ⟨c, head, letter⟩ := (Option.any_eq_true _ _).mp ((Bool.and_eq_true _ _).mp identifier).1
  have no_digit : ¬(table.nameOf i).toList.head?.any Char.isDigit = true := by
    simpa [head] using letter
  rw [readExpr, if_neg (name_ne resolved (by decide)), if_neg (name_ne resolved (by decide)), if_neg no_digit, found]
  rfl

theorem readExpr_number (fuel : Nat) {cs : List Char} {e : Expr} (digit : cs.head?.any Char.isDigit = true)
    (number : number? cs = some e) (ts : List Token) : readExpr names (fuel + 1) (.atom cs :: ts) = some (e, ts) := by
  rw [readExpr, if_neg (number_ne digit (by decide)), if_neg (number_ne digit (by decide)), if_pos digit, number]
  rfl

theorem readExpr_operation (op : Operator) {fuel : Nat} {ls rs rest : List Token} {l r : Expr}
    (left : readExpr names fuel (ls ++ op.token :: (rs ++ .mark ')' :: rest)) =
      some (l, op.token :: (rs ++ .mark ')' :: rest)))
    (right : readExpr names fuel (rs ++ .mark ')' :: rest) = some (r, .mark ')' :: rest)) :
    readExpr names (fuel + 1) (.mark '(' :: (ls ++ op.token :: (rs ++ .mark ')' :: rest))) =
      some (op.build l r, rest) := by
  have no_minus : '(' ≠ '-' := by decide
  rw [readExpr, if_neg no_minus, if_pos rfl, left]
  simp only [Option.bind_eq_bind, Option.bind_some, Operator.read_cons, right, expect_cons]
  rfl

theorem number?_integer {v : Int} (unsigned : 0 ≤ v) :
    (toString v).toList.head?.any Char.isDigit = true ∧ number? (toString v).toList = some (.integer default v) := by
  have digits := Json.allDigits_toDigits v.toNat
  have some_digit : Nat.toDigits 10 v.toNat ≠ [] := Nat.toDigits_ne_nil
  have value : (v.toNat : Int) = v := Int.toNat_of_nonneg unsigned
  rw [Json.toList_toString_int, if_pos unsigned]
  constructor
  · obtain ⟨c, cs, digits_eq⟩ := List.exists_cons_of_ne_nil some_digit
    rw [digits_eq] at digits ⊢
    exact digits c List.mem_cons_self
  · rw [number?, (ofChars?_digits some_digit digits).1]
    simp [Numeral.integer?, digitsValue_toDigits, value]

theorem number?_real {r : Float} (finite : Binary64.isFinite r = true) (positive : Binary64.isNegative r = false) :
    (Layout.plain.chars r).head?.any Char.isDigit = true ∧
      number? (Layout.plain.chars r) = some (.real default r) := by
  constructor
  · obtain ⟨c, cs, chars_eq, digit⟩ := (Json.isUnsigned_digits .plain (shortest Layout.plain.tie
      (Binary64.magnitudeBits r))).head
    rw [Json.chars_eq_digits _ finite positive, chars_eq]
    exact digit
  · obtain ⟨n, read, not_whole, value⟩ := ofChars?_chars .plain finite
    rw [number?, read, Option.map_some, not_whole, value]

theorem exists_head_tokens (e : Expr) (resolved : Resolved table names e.symbols)
    (unsigned : All Expr.Unsigned e.parts) : ∃ t ts, e.tokens table = t :: ts ∧ t ∉ reservedTokens := by
  match e with
  | .name n s => exact ⟨_, _, rfl, name_not_mem_reserved resolved⟩
  | .element n array index => exact ⟨_, _, rfl, name_not_mem_reserved (resolved_cons.mp resolved).1⟩
  | .call n callee args => exact ⟨_, _, rfl, name_not_mem_reserved (resolved_cons.mp resolved).1⟩
  | .integer n v => exact ⟨_, _, rfl, number_not_mem_reserved (number?_integer (all_cons.mp unsigned).1).1⟩
  | .real n v =>
    obtain ⟨finite, positive⟩ := (all_cons.mp unsigned).1
    exact ⟨_, _, rfl, number_not_mem_reserved (number?_real finite positive).1⟩
  | .cast .. | .negate .. | .not .. | .binary .. | .relation .. => exact ⟨_, _, rfl, by decide⟩

theorem tokens_length_pos {e : Expr} (resolved : Resolved table names e.symbols)
    (unsigned : All Expr.Unsigned e.parts) : 0 < (e.tokens table).length := by
  obtain ⟨t, ts, tokens, -⟩ := exists_head_tokens e resolved unsigned
  rw [tokens]
  exact Nat.succ_pos _

theorem head_tokens_ne {e : Expr} (resolved : Resolved table names e.symbols) (unsigned : All Expr.Unsigned e.parts)
    (rest : List Token) {t : Token} (reserved : t ∈ reservedTokens) :
    (e.tokens table ++ rest).head? ≠ some t := by
  obtain ⟨u, us, tokens, free⟩ := exists_head_tokens e resolved unsigned
  rw [tokens]
  rintro ⟨⟩
  exact free reserved

theorem endsName_mark {c : Char} (other : c ≠ '(' ∧ c ≠ '[') (ts : List Token) : EndsName (.mark c :: ts) := by
  simpa [EndsName] using other

theorem endsName_moreArgTokens (es : List Expr) (rest : List Token) :
    EndsName (moreArgTokens table es ++ .mark ')' :: rest) := by
  cases es with
  | nil => exact endsName_mark (by decide) rest
  | cons e es => exact endsName_mark (by decide) _

mutual

theorem readExpr_tokens (e : Expr) (resolved : Resolved table names e.symbols) (unsigned : All Expr.Unsigned e.parts)
    {fuel : Nat} (enough : (e.tokens table).length < fuel) {rest : List Token} (ends : EndsName rest) :
    readExpr names fuel (e.tokens table ++ rest) = some (e.bare, rest) := by
  match e with
  | .name n s =>
    -- to see that nothing follows on the name takes a second step
    simp only [Expr.tokens, List.length_singleton] at enough
    obtain ⟨fuel, rfl⟩ : ∃ k, fuel = k + 2 := ⟨fuel - 2, by omega⟩
    rw [Expr.tokens, List.singleton_append, readExpr_name _ resolved, readName, if_neg ends.1, if_neg ends.2]
    rfl
  | .element n array index =>
    obtain ⟨resolved_array, resolved_index⟩ := resolved_cons.mp resolved
    simp only [Expr.tokens, List.length_cons, List.length_append, List.length_nil] at enough
    obtain ⟨fuel, rfl⟩ : ∃ k, fuel = k + 2 := ⟨fuel - 2, by omega⟩
    have read : readExpr names fuel (index.tokens table ++ .mark ']' :: rest) = some (index.bare, .mark ']' :: rest) :=
      readExpr_tokens index resolved_index (all_cons.mp unsigned).2 (by omega) (endsName_mark (by decide) _)
    have tokens : (Expr.element n array index).tokens table ++ rest =
        .atom (table.nameOf array.value).toList :: .mark '[' :: (index.tokens table ++ .mark ']' :: rest) := by
      simp [Expr.tokens]
    rw [tokens, readExpr_name _ resolved_array]
    simp [readName, read]
    rfl
  | .integer n v =>
    obtain ⟨fuel, rfl⟩ := Nat.exists_eq_add_one.mpr (Nat.zero_lt_of_lt enough)
    obtain ⟨digit, number⟩ := number?_integer (all_cons.mp unsigned).1
    exact readExpr_number fuel digit number rest
  | .real n v =>
    obtain ⟨fuel, rfl⟩ := Nat.exists_eq_add_one.mpr (Nat.zero_lt_of_lt enough)
    obtain ⟨finite, positive⟩ := (all_cons.mp unsigned).1
    obtain ⟨digit, number⟩ := number?_real finite positive
    exact readExpr_number fuel digit number rest
  | .cast n inner =>
    obtain ⟨fuel, rfl⟩ := Nat.exists_eq_add_one.mpr (Nat.zero_lt_of_lt enough)
    simp only [Expr.tokens, List.length_cons, List.length_append, List.length_nil] at enough
    have read : readExpr names fuel (inner.tokens table ++ .mark ')' :: rest) = some (inner.bare, .mark ')' :: rest) :=
      readExpr_tokens inner resolved (all_cons.mp unsigned).2 (by omega) (endsName_mark (by decide) _)
    have no_not : "real".toList ≠ "not".toList := by decide
    have tokens : (Expr.cast n inner).tokens table ++ rest =
        .atom "real".toList :: .mark '(' :: (inner.tokens table ++ .mark ')' :: rest) := by
      simp [Expr.tokens]
    rw [tokens, readExpr, if_neg no_not, if_pos rfl]
    simp only [Option.bind_eq_bind, Option.bind_some, expect_cons, read]
    rfl
  | .negate n inner =>
    obtain ⟨fuel, rfl⟩ := Nat.exists_eq_add_one.mpr (Nat.zero_lt_of_lt enough)
    simp only [Expr.tokens, List.length_cons] at enough
    have read : readExpr names fuel (inner.tokens table ++ rest) = some (inner.bare, rest) :=
      readExpr_tokens inner resolved (all_cons.mp unsigned).2 (by omega) ends
    rw [Expr.tokens, List.cons_append, readExpr, if_pos rfl, read]
    rfl
  | .not n inner =>
    obtain ⟨fuel, rfl⟩ := Nat.exists_eq_add_one.mpr (Nat.zero_lt_of_lt enough)
    simp only [Expr.tokens, List.length_cons] at enough
    have read : readExpr names fuel (inner.tokens table ++ rest) = some (inner.bare, rest) :=
      readExpr_tokens inner resolved (all_cons.mp unsigned).2 (by omega) ends
    rw [Expr.tokens, List.cons_append, readExpr, if_pos rfl, read]
    rfl
  | .call n callee args =>
    obtain ⟨resolved_callee, resolved_args⟩ := resolved_cons.mp resolved
    simp only [Expr.tokens, List.length_cons, List.length_append, List.length_nil] at enough
    obtain ⟨fuel, rfl⟩ : ∃ k, fuel = k + 2 := ⟨fuel - 2, by omega⟩
    have read : readArgs names fuel (argTokens table args ++ .mark ')' :: rest) = some (argsBare args, rest) :=
      readArgs_tokens args resolved_args (all_cons.mp unsigned).2 (by omega) rest
    have tokens : (Expr.call n callee args).tokens table ++ rest =
        .atom (table.nameOf callee.value).toList :: .mark '(' :: (argTokens table args ++ .mark ')' :: rest) := by
      simp [Expr.tokens]
    rw [tokens, readExpr_name _ resolved_callee]
    simp [readName, read]
    rfl
  | .binary n op left right =>
    obtain ⟨fuel, rfl⟩ := Nat.exists_eq_add_one.mpr (Nat.zero_lt_of_lt enough)
    obtain ⟨resolved_left, resolved_right⟩ := resolved_append.mp resolved
    obtain ⟨unsigned_left, unsigned_right⟩ := all_append.mp (all_cons.mp unsigned).2
    simp only [Expr.tokens, List.length_cons, List.length_append, List.length_nil] at enough
    have tokens : (Expr.binary n op left right).tokens table ++ rest =
        .mark '(' :: (left.tokens table ++ op.token :: (right.tokens table ++ .mark ')' :: rest)) := by
      simp [Expr.tokens]
    rw [tokens]
    refine readExpr_operation (.binary op) ?_ ?_
    · exact readExpr_tokens left resolved_left unsigned_left (by omega) (Operator.endsName (.binary op) _)
    · exact readExpr_tokens right resolved_right unsigned_right (by omega) (endsName_mark (by decide) _)
  | .relation n op left right =>
    obtain ⟨fuel, rfl⟩ := Nat.exists_eq_add_one.mpr (Nat.zero_lt_of_lt enough)
    obtain ⟨resolved_left, resolved_right⟩ := resolved_append.mp resolved
    obtain ⟨unsigned_left, unsigned_right⟩ := all_append.mp (all_cons.mp unsigned).2
    simp only [Expr.tokens, List.length_cons, List.length_append, List.length_nil] at enough
    have tokens : (Expr.relation n op left right).tokens table ++ rest =
        .mark '(' :: (left.tokens table ++ op.token :: (right.tokens table ++ .mark ')' :: rest)) := by
      simp [Expr.tokens]
    rw [tokens]
    refine readExpr_operation (.relation op) ?_ ?_
    · exact readExpr_tokens left resolved_left unsigned_left (by omega) (Operator.endsName (.relation op) _)
    · exact readExpr_tokens right resolved_right unsigned_right (by omega) (endsName_mark (by decide) _)
termination_by sizeOf e

theorem readArgs_tokens (es : List Expr) (resolved : Resolved table names (argSymbols es))
    (unsigned : All Expr.Unsigned (argParts es)) {fuel : Nat} (enough : (argTokens table es).length + 1 < fuel)
    (rest : List Token) :
    readArgs names fuel (argTokens table es ++ .mark ')' :: rest) = some (argsBare es, rest) := by
  match es with
  | [] =>
    obtain ⟨fuel, rfl⟩ := Nat.exists_eq_add_one.mpr (Nat.zero_lt_of_lt enough)
    rfl
  | e :: es =>
    obtain ⟨fuel, rfl⟩ := Nat.exists_eq_add_one.mpr (Nat.zero_lt_of_lt enough)
    obtain ⟨resolved_e, resolved_es⟩ := resolved_append.mp resolved
    obtain ⟨unsigned_e, unsigned_es⟩ := all_append.mp unsigned
    have some_token := tokens_length_pos resolved_e unsigned_e
    simp only [argTokens, List.length_append] at enough
    have no_end := head_tokens_ne resolved_e unsigned_e (moreArgTokens table es ++ .mark ')' :: rest)
      (by decide : Token.mark ')' ∈ reservedTokens)
    have read_e : readExpr names fuel (e.tokens table ++ (moreArgTokens table es ++ .mark ')' :: rest)) =
        some (e.bare, moreArgTokens table es ++ .mark ')' :: rest) :=
      readExpr_tokens e resolved_e unsigned_e (by omega) (endsName_moreArgTokens es rest)
    have read_es : readMoreArgs names fuel (moreArgTokens table es ++ .mark ')' :: rest) = some (argsBare es, rest) :=
      readMoreArgs_tokens es resolved_es unsigned_es (by omega) rest
    rw [argTokens, List.append_assoc, readArgs, if_neg no_end, read_e]
    simp only [Option.bind_eq_bind, Option.bind_some, read_es]
    rfl
termination_by sizeOf es

theorem readMoreArgs_tokens (es : List Expr) (resolved : Resolved table names (argSymbols es))
    (unsigned : All Expr.Unsigned (argParts es)) {fuel : Nat} (enough : (moreArgTokens table es).length + 1 < fuel)
    (rest : List Token) :
    readMoreArgs names fuel (moreArgTokens table es ++ .mark ')' :: rest) = some (argsBare es, rest) := by
  match es with
  | [] =>
    obtain ⟨fuel, rfl⟩ := Nat.exists_eq_add_one.mpr (Nat.zero_lt_of_lt enough)
    rfl
  | e :: es =>
    obtain ⟨fuel, rfl⟩ := Nat.exists_eq_add_one.mpr (Nat.zero_lt_of_lt enough)
    obtain ⟨resolved_e, resolved_es⟩ := resolved_append.mp resolved
    obtain ⟨unsigned_e, unsigned_es⟩ := all_append.mp unsigned
    simp only [moreArgTokens, List.length_cons, List.length_append] at enough
    have read_e : readExpr names fuel (e.tokens table ++ (moreArgTokens table es ++ .mark ')' :: rest)) =
        some (e.bare, moreArgTokens table es ++ .mark ')' :: rest) :=
      readExpr_tokens e resolved_e unsigned_e (by omega) (endsName_moreArgTokens es rest)
    have read_es : readMoreArgs names fuel (moreArgTokens table es ++ .mark ')' :: rest) = some (argsBare es, rest) :=
      readMoreArgs_tokens es resolved_es unsigned_es (by omega) rest
    have comma : (Token.mark ',' :: (e.tokens table ++ (moreArgTokens table es ++ .mark ')' :: rest))).head? ≠
        some (.mark ')') := by simp
    rw [moreArgTokens, List.cons_append, List.append_assoc, readMoreArgs, if_neg comma]
    simp only [Option.bind_eq_bind, Option.bind_some, expect_cons, read_e, read_es]
    rfl
termination_by sizeOf es

end

/-! ## Reading statements -/

/-- A body ends here. -/
def EndsBody (ts : List Token) : Prop :=
  ts.head?.all (· ∈ closingTokens) = true

theorem endsBody_closing {t : Token} (closing : t ∈ closingTokens) (ts : List Token) : EndsBody (t :: ts) :=
  decide_eq_true closing

theorem endsBody_elsifTokens (es : List Elsif) {rest : List Token} (ends : EndsBody rest) :
    EndsBody (elsifTokens table es ++ rest) := by
  cases es with
  | nil => exact ends
  | cons e es =>
    obtain ⟨p, condition, body⟩ := e
    exact endsBody_closing (by decide) _

/-- No clause of a branch follows, but the end of its body. -/
def EndsElsifs (ts : List Token) : Prop :=
  EndsBody ts ∧ ts.head? ≠ some (.atom "elsif".toList)

theorem endsElsifs_cons {t : Token} (ends : t ∈ [.atom "else".toList, .atom "end".toList]) (ts : List Token) :
    EndsElsifs (t :: ts) := by
  simp only [List.mem_cons, List.not_mem_nil, or_false] at ends
  obtain rfl | rfl := ends
  · exact ⟨endsBody_closing (by decide) ts, by simp⟩
  · exact ⟨endsBody_closing (by decide) ts, by simp⟩

theorem readOtherwise_end {fuel : Nat} (enough : 0 < fuel) (ts : List Token) :
    readOtherwise names fuel (.atom "end".toList :: ts) = some (none, .atom "end".toList :: ts) := by
  obtain ⟨fuel, rfl⟩ := Nat.exists_eq_add_one.mpr enough
  have no_else : (Token.atom "end".toList :: ts).head? ≠ some (.atom "else".toList) := by
    simp
  rw [readOtherwise, if_neg no_else]

theorem readOtherwise_else {fuel : Nat} {ts rest : List Token} {b : Body}
    (read : readBody names fuel ts = some (b, rest)) :
    readOtherwise names (fuel + 1) (.atom "else".toList :: ts) = some (some b, rest) := by
  rw [readOtherwise, List.head?_cons, if_pos rfl, List.tail_cons, read]
  rfl

theorem endsName_atom (cs : List Char) (ts : List Token) : EndsName (.atom cs :: ts) := by
  simp [EndsName]

@[simp] theorem expectEnd_cons (ts : List Token) : expectEnd (.atom "end".toList :: .mark ';' :: ts) = some ts := by
  simp [expectEnd]

section Parts

variable {e : Expr} (resolved : Resolved table names e.symbols) (unsigned : All Expr.Unsigned e.parts)
  {fuel : Nat} (enough : (e.tokens table).length < fuel)
include resolved unsigned enough

theorem readCondition_tokens (opening : String) (ts : List Token) :
    readCondition names fuel opening (e.tokens table ++ .atom opening.toList :: ts) = some (e.bare, ts) := by
  have read : readExpr names fuel (e.tokens table ++ .atom opening.toList :: ts) =
      some (e.bare, .atom opening.toList :: ts) :=
    readExpr_tokens e resolved unsigned enough (endsName_atom _ _)
  rw [readCondition, read]
  simp

theorem readReturn_tokens (ts : List Token) :
    readReturn names fuel (e.tokens table ++ .mark ';' :: ts) = some (.ret default (some e.bare), ts) := by
  have read : readExpr names fuel (e.tokens table ++ .mark ';' :: ts) = some (e.bare, .mark ';' :: ts) :=
    readExpr_tokens e resolved unsigned enough (endsName_mark (by decide) _)
  rw [readReturn, if_neg (head_tokens_ne resolved unsigned _ (by decide)), read]
  simp

theorem readStmt_branch {ts us vs rest : List Token} {body : Body} {elsifs : List Elsif} {otherwise : Option Body}
    (read_body : readBody names fuel ts = some (body, us))
    (read_elsifs : readElsifs names fuel us = some (elsifs, vs))
    (read_otherwise : readOtherwise names fuel vs = some (otherwise, .atom "end".toList :: .mark ';' :: rest)) :
    readStmt names (fuel + 1) (.atom "if".toList :: (e.tokens table ++ .atom "then".toList :: ts)) =
      some (.branch default e.bare body elsifs otherwise, rest) := by
  rw [readStmt, if_pos rfl, readCondition_tokens resolved unsigned enough]
  simp only [Option.bind_eq_bind, Option.bind_some, read_body, read_elsifs, read_otherwise, expectEnd_cons]
  rfl

theorem readStmt_loop {ts rest : List Token} {body : Body}
    (read_body : readBody names fuel ts = some (body, .atom "end".toList :: .mark ';' :: rest)) :
    readStmt names (fuel + 1) (.atom "while".toList :: (e.tokens table ++ .atom "do".toList :: ts)) =
      some (.loop default e.bare body, rest) := by
  have no_if : Token.atom "while".toList ≠ .atom "if".toList := by decide
  rw [readStmt, if_neg no_if, if_pos rfl, readCondition_tokens resolved unsigned enough]
  simp only [Option.bind_eq_bind, Option.bind_some, read_body, expectEnd_cons]
  rfl

end Parts

/-- What begins with an expression and not with a word of its own is an assignment or a call. -/
theorem readStmt_simple {e : Expr} (resolved : Resolved table names e.symbols) (unsigned : All Expr.Unsigned e.parts)
    (fuel : Nat) (ts : List Token) :
    readStmt names (fuel + 1) (e.tokens table ++ ts) = readSimple names fuel (e.tokens table ++ ts) := by
  obtain ⟨t, us, tokens, free⟩ := exists_head_tokens e resolved unsigned
  have other {u : Token} (reserved : u ∈ reservedTokens) : t ≠ u := fun equal => free (equal ▸ reserved)
  rw [tokens, List.cons_append, readStmt, if_neg (other (by decide)), if_neg (other (by decide)),
    if_neg (other (by decide))]

theorem exists_head_stmtTokens (s : Stmt) (resolved : Resolved table names s.symbols)
    (unsigned : All Expr.Unsigned s.parts) : ∃ t ts, s.tokens table = t :: ts ∧ t ∉ closingTokens := by
  have closing_reserved : ∀ t ∈ closingTokens, t ∈ reservedTokens := by decide
  match s with
  | .assign p target value =>
    obtain ⟨t, ts, tokens, free⟩ := exists_head_tokens target (resolved_append.mp resolved).1 (all_append.mp unsigned).1
    exact ⟨t, _, by rw [Stmt.tokens, tokens]; rfl, fun closing => free (closing_reserved t closing)⟩
  | .call p callee args =>
    have unsigned_call : All Expr.Unsigned (Expr.call default callee args).parts := all_cons.mpr ⟨trivial, unsigned⟩
    obtain ⟨t, ts, tokens, free⟩ := exists_head_tokens (.call default callee args) resolved unsigned_call
    exact ⟨t, _, by rw [Stmt.tokens, tokens]; rfl, fun closing => free (closing_reserved t closing)⟩
  | .branch _ _ _ _ none | .branch _ _ _ _ (some _) | .loop .. | .ret _ none | .ret _ (some _) =>
    exact ⟨_, _, rfl, by decide⟩

mutual

theorem readStmt_tokens (s : Stmt) (resolved : Resolved table names s.symbols) (unsigned : All Expr.Unsigned s.parts)
    {fuel : Nat} (enough : (s.tokens table).length < fuel) (rest : List Token) :
    readStmt names fuel (s.tokens table ++ rest) = some (s.bare, rest) := by
  match s with
  | .assign p target value =>
    obtain ⟨fuel, rfl⟩ := Nat.exists_eq_add_one.mpr (Nat.zero_lt_of_lt enough)
    obtain ⟨resolved_target, resolved_value⟩ := resolved_append.mp resolved
    obtain ⟨unsigned_target, unsigned_value⟩ := all_append.mp unsigned
    simp only [Stmt.tokens, List.length_cons, List.length_append, List.length_nil] at enough
    have tokens : (Stmt.assign p target value).tokens table ++ rest =
        target.tokens table ++ .atom ":=".toList :: (value.tokens table ++ .mark ';' :: rest) := by
      simp [Stmt.tokens]
    have read_target : readExpr names fuel (target.tokens table ++ .atom ":=".toList :: (value.tokens table ++
        .mark ';' :: rest)) = some (target.bare, .atom ":=".toList :: (value.tokens table ++ .mark ';' :: rest)) :=
      readExpr_tokens target resolved_target unsigned_target (by omega) (endsName_atom _ _)
    have read_value : readExpr names fuel (value.tokens table ++ .mark ';' :: rest) =
        some (value.bare, .mark ';' :: rest) :=
      readExpr_tokens value resolved_value unsigned_value (by omega) (endsName_mark (by decide) _)
    rw [tokens, readStmt_simple resolved_target unsigned_target, readSimple, read_target]
    simp only [Option.bind_eq_bind, Option.bind_some, List.head?_cons, List.tail_cons, if_true, read_value, expect_cons]
    rfl
  | .branch p condition body elsifs none =>
    obtain ⟨fuel, rfl⟩ := Nat.exists_eq_add_one.mpr (Nat.zero_lt_of_lt enough)
    obtain ⟨resolved_front, resolved_elsifs⟩ := resolved_append.mp resolved
    obtain ⟨resolved_condition, resolved_body⟩ := resolved_append.mp resolved_front
    obtain ⟨unsigned_front, unsigned_elsifs⟩ := all_append.mp unsigned
    obtain ⟨unsigned_condition, unsigned_body⟩ := all_append.mp unsigned_front
    simp only [Stmt.tokens, List.length_cons, List.length_append, List.length_nil] at enough
    have tokens : (Stmt.branch p condition body elsifs none).tokens table ++ rest =
        .atom "if".toList :: (condition.tokens table ++ .atom "then".toList ::
          (bodyTokens table body ++ (elsifTokens table elsifs ++ .atom "end".toList :: .mark ';' :: rest))) := by
      simp [Stmt.tokens]
    have ends : EndsElsifs (.atom "end".toList :: .mark ';' :: rest) := endsElsifs_cons (by decide) _
    rw [tokens]
    refine readStmt_branch resolved_condition unsigned_condition (by omega)
      (readBody_tokens body resolved_body unsigned_body (by omega) (endsBody_elsifTokens elsifs ends.1))
      (readElsifs_tokens elsifs resolved_elsifs unsigned_elsifs (by omega) ends) ?_
    exact readOtherwise_end (by omega) _
  | .branch p condition body elsifs (some otherwise) =>
    obtain ⟨fuel, rfl⟩ := Nat.exists_eq_add_one.mpr (Nat.zero_lt_of_lt enough)
    obtain ⟨resolved_front, resolved_otherwise⟩ := resolved_append.mp resolved
    obtain ⟨resolved_front, resolved_elsifs⟩ := resolved_append.mp resolved_front
    obtain ⟨resolved_condition, resolved_body⟩ := resolved_append.mp resolved_front
    obtain ⟨unsigned_front, unsigned_otherwise⟩ := all_append.mp unsigned
    obtain ⟨unsigned_front, unsigned_elsifs⟩ := all_append.mp unsigned_front
    obtain ⟨unsigned_condition, unsigned_body⟩ := all_append.mp unsigned_front
    simp only [Stmt.tokens, List.length_cons, List.length_append, List.length_nil] at enough
    have tokens : (Stmt.branch p condition body elsifs (some otherwise)).tokens table ++ rest =
        .atom "if".toList :: (condition.tokens table ++ .atom "then".toList ::
          (bodyTokens table body ++ (elsifTokens table elsifs ++ .atom "else".toList ::
            (bodyTokens table otherwise ++ .atom "end".toList :: .mark ';' :: rest)))) := by
      simp [Stmt.tokens]
    have ends : EndsElsifs (.atom "else".toList ::
        (bodyTokens table otherwise ++ .atom "end".toList :: .mark ';' :: rest)) := endsElsifs_cons (by decide) _
    rw [tokens]
    refine readStmt_branch resolved_condition unsigned_condition (by omega)
      (readBody_tokens body resolved_body unsigned_body (by omega) (endsBody_elsifTokens elsifs ends.1))
      (readElsifs_tokens elsifs resolved_elsifs unsigned_elsifs (by omega) ends) ?_
    obtain ⟨fuel, rfl⟩ : ∃ k, fuel = k + 1 := ⟨fuel - 1, by omega⟩
    exact readOtherwise_else
      (readBody_tokens otherwise resolved_otherwise unsigned_otherwise (by omega) (endsBody_closing (by decide) _))
  | .loop p condition body =>
    obtain ⟨fuel, rfl⟩ := Nat.exists_eq_add_one.mpr (Nat.zero_lt_of_lt enough)
    obtain ⟨resolved_condition, resolved_body⟩ := resolved_append.mp resolved
    obtain ⟨unsigned_condition, unsigned_body⟩ := all_append.mp unsigned
    simp only [Stmt.tokens, List.length_cons, List.length_append, List.length_nil] at enough
    have tokens : (Stmt.loop p condition body).tokens table ++ rest =
        .atom "while".toList :: (condition.tokens table ++ .atom "do".toList ::
          (bodyTokens table body ++ .atom "end".toList :: .mark ';' :: rest)) := by
      simp [Stmt.tokens]
    rw [tokens]
    exact readStmt_loop resolved_condition unsigned_condition (by omega)
      (readBody_tokens body resolved_body unsigned_body (by omega) (endsBody_closing (by decide) _))
  | .ret p none =>
    obtain ⟨fuel, rfl⟩ := Nat.exists_eq_add_one.mpr (Nat.zero_lt_of_lt enough)
    rfl
  | .ret p (some value) =>
    obtain ⟨fuel, rfl⟩ := Nat.exists_eq_add_one.mpr (Nat.zero_lt_of_lt enough)
    simp only [Stmt.tokens, List.length_cons, List.length_append, List.length_nil] at enough
    have tokens : (Stmt.ret p (some value)).tokens table ++ rest =
        .atom "return".toList :: (value.tokens table ++ .mark ';' :: rest) := by
      simp [Stmt.tokens]
    have no_if : Token.atom "return".toList ≠ .atom "if".toList := by decide
    have no_while : Token.atom "return".toList ≠ .atom "while".toList := by decide
    rw [tokens, readStmt, if_neg no_if, if_neg no_while, if_pos rfl,
      readReturn_tokens resolved unsigned (by omega)]
    rfl
  | .call p callee args =>
    obtain ⟨fuel, rfl⟩ := Nat.exists_eq_add_one.mpr (Nat.zero_lt_of_lt enough)
    have unsigned_call : All Expr.Unsigned (Expr.call default callee args).parts := all_cons.mpr ⟨trivial, unsigned⟩
    simp only [Stmt.tokens, List.length_append, List.length_singleton] at enough
    have tokens : (Stmt.call p callee args).tokens table ++ rest =
        (Expr.call default callee args).tokens table ++ .mark ';' :: rest := by
      simp [Stmt.tokens]
    have read : readExpr names fuel ((Expr.call default callee args).tokens table ++ .mark ';' :: rest) =
        some ((Expr.call default callee args).bare, .mark ';' :: rest) :=
      readExpr_tokens (.call default callee args) resolved unsigned_call (by omega) (endsName_mark (by decide) _)
    -- it is only now that the expression turns out to be no target
    have no_assignment : (Token.mark ';' :: rest).head? ≠ some (.atom ":=".toList) := by
      simp
    have simple : readStmt names (fuel + 1) ((Expr.call default callee args).tokens table ++ .mark ';' :: rest) = _ :=
      readStmt_simple resolved unsigned_call fuel _
    rw [tokens, simple, readSimple, read]
    simp only [Option.bind_eq_bind, Option.bind_some, if_neg no_assignment, expect_cons]
    rfl
termination_by sizeOf s

theorem readElsifs_tokens (es : List Elsif) (resolved : Resolved table names (elsifSymbols es))
    (unsigned : All Expr.Unsigned (elsifParts es)) {fuel : Nat} (enough : (elsifTokens table es).length + 1 < fuel)
    {rest : List Token} (ends : EndsElsifs rest) :
    readElsifs names fuel (elsifTokens table es ++ rest) = some (elsifsBare es, rest) := by
  match es with
  | [] =>
    obtain ⟨fuel, rfl⟩ := Nat.exists_eq_add_one.mpr (Nat.zero_lt_of_lt enough)
    exact if_neg ends.2
  | .clause p condition body :: es =>
    obtain ⟨fuel, rfl⟩ := Nat.exists_eq_add_one.mpr (Nat.zero_lt_of_lt enough)
    obtain ⟨resolved_front, resolved_es⟩ := resolved_append.mp resolved
    obtain ⟨resolved_condition, resolved_body⟩ := resolved_append.mp resolved_front
    obtain ⟨unsigned_front, unsigned_es⟩ := all_append.mp unsigned
    obtain ⟨unsigned_condition, unsigned_body⟩ := all_append.mp unsigned_front
    simp only [elsifTokens, List.length_cons, List.length_append] at enough
    have tokens : elsifTokens table (.clause p condition body :: es) ++ rest =
        .atom "elsif".toList :: (condition.tokens table ++ .atom "then".toList ::
          (bodyTokens table body ++ (elsifTokens table es ++ rest))) := by
      simp [elsifTokens]
    have read_body : readBody names fuel (bodyTokens table body ++ (elsifTokens table es ++ rest)) =
        some (bodyBare body, elsifTokens table es ++ rest) :=
      readBody_tokens body resolved_body unsigned_body (by omega) (endsBody_elsifTokens es ends.1)
    have read_es : readElsifs names fuel (elsifTokens table es ++ rest) = some (elsifsBare es, rest) :=
      readElsifs_tokens es resolved_es unsigned_es (by omega) ends
    rw [tokens, readElsifs, List.head?_cons, if_pos rfl, List.tail_cons,
      readCondition_tokens resolved_condition unsigned_condition (by omega)]
    simp only [Option.bind_eq_bind, Option.bind_some, read_body, read_es]
    rfl
termination_by sizeOf es

/-- A body is read from its tokens up to where it ends. -/
theorem readBody_tokens (b : Body) (resolved : Resolved table names (bodySymbols b))
    (unsigned : All Expr.Unsigned (bodyParts b)) {fuel : Nat} (enough : (bodyTokens table b).length + 1 < fuel)
    {rest : List Token} (ends : EndsBody rest) :
    readBody names fuel (bodyTokens table b ++ rest) = some (bodyBare b, rest) := by
  match b with
  | [] =>
    obtain ⟨fuel, rfl⟩ := Nat.exists_eq_add_one.mpr (Nat.zero_lt_of_lt enough)
    exact if_pos ends
  | s :: b =>
    obtain ⟨fuel, rfl⟩ := Nat.exists_eq_add_one.mpr (Nat.zero_lt_of_lt enough)
    obtain ⟨resolved_s, resolved_b⟩ := resolved_append.mp resolved
    obtain ⟨unsigned_s, unsigned_b⟩ := all_append.mp unsigned
    obtain ⟨t, ts, head, free⟩ := exists_head_stmtTokens s resolved_s unsigned_s
    have some_token : 0 < (s.tokens table).length := by
      rw [head]
      exact Nat.succ_pos _
    simp only [bodyTokens, List.length_append] at enough
    -- the first token is none of the words that close a block, so there is a statement to read
    have goes_on : ¬(s.tokens table ++ (bodyTokens table b ++ rest)).head?.all (· ∈ closingTokens) = true := by
      rw [head]
      simpa using free
    have read_s : readStmt names fuel (s.tokens table ++ (bodyTokens table b ++ rest)) =
        some (s.bare, bodyTokens table b ++ rest) :=
      readStmt_tokens s resolved_s unsigned_s (by omega) _
    have read_b : readBody names fuel (bodyTokens table b ++ rest) = some (bodyBare b, rest) :=
      readBody_tokens b resolved_b unsigned_b (by omega) ends
    rw [bodyTokens, List.append_assoc, readBody, if_neg goes_on, read_s]
    simp only [Option.bind_eq_bind, Option.bind_some, read_b]
    rfl
termination_by sizeOf b

end

/-! ## Reading texts -/

/-- Reads a body that fills all of a text. -/
def readText (names : List Char → Option SymbolIndex) (text : String) : Option Body :=
  match readBody names ((tokens text).length + 2) (tokens text) with
  | some (b, []) => some b
  | _ => none

/-- A printed body is read back without positions and stored types. -/
theorem readText_printed {b : Body} {text : String} (resolved : Resolved table names (bodySymbols b))
    (unsigned : All Expr.Unsigned (bodyParts b)) (printed : b.text? table = some text) :
    readText names text = some (bodyBare b) := by
  have named : Named table (bodySymbols b) := fun i member => (resolved i member).1
  rw [bodyText_eq] at printed
  obtain ⟨-, text_eq⟩ := Option.ite_none_right_eq_some.mp printed
  have tokens_eq : tokens text = bodyTokens table b := by
    rw [← Option.some.inj text_eq]
    exact lineTokens_bodyLines 0 b named unsigned
  have read : readBody names ((bodyTokens table b).length + 2) (bodyTokens table b ++ []) = some (bodyBare b, []) :=
    readBody_tokens b resolved unsigned (Nat.lt_succ_self _) rfl
  rw [List.append_nil] at read
  rw [readText, tokens_eq, read]

/-- The symbol among `is` that has a name. -/
def resolve (table : SymbolTable) (is : List SymbolIndex) (cs : List Char) : Option SymbolIndex :=
  is.find? fun i => (table.nameOf i).toList = cs

theorem resolve_name {is : List SymbolIndex}
    (distinct : ∀ i ∈ is, ∀ j ∈ is, table.nameOf i = table.nameOf j → i = j) {i : SymbolIndex} (member : i ∈ is) :
    resolve table is (table.nameOf i).toList = some i := by
  cases found : resolve table is (table.nameOf i).toList with
  | none => simpa using List.find?_eq_none.mp found i member
  | some j =>
    -- the first symbol of that name is the only one
    have same : (table.nameOf j).toList = (table.nameOf i).toList := by simpa using List.find?_some found
    rw [distinct j (List.mem_of_find?_eq_some found) i member (String.toList_inj.mp same)]

/-- Two bodies with the same text differ in positions and stored types only. Their symbols have different names that
are identifiers and no words of the text itself, and their literals are numbers without a sign. -/
theorem text_determines_body {b b' : Body} {text : String}
    (distinct : ∀ i ∈ bodySymbols b ++ bodySymbols b', ∀ j ∈ bodySymbols b ++ bodySymbols b',
      table.nameOf i = table.nameOf j → i = j)
    (named : Named table (bodySymbols b ++ bodySymbols b')) (unsigned : All Expr.Unsigned (bodyParts b ++ bodyParts b'))
    (printed : b.text? table = some text) (printed' : b'.text? table = some text) : bodyBare b = bodyBare b' := by
  have resolved : Resolved table (resolve table (bodySymbols b ++ bodySymbols b')) (bodySymbols b ++ bodySymbols b') :=
    fun i member => ⟨named i member, resolve_name distinct member⟩
  obtain ⟨resolved_b, resolved_b'⟩ := resolved_append.mp resolved
  obtain ⟨unsigned_b, unsigned_b'⟩ := all_append.mp unsigned
  have read := readText_printed resolved_b unsigned_b printed
  have read' := readText_printed resolved_b' unsigned_b' printed'
  exact Option.some.inj (read.symm.trans read')

/-- Two times the same text, from trees that were made in different places and with other types. -/
theorem text_determines_body_other_notes :
    let main := SymbolTable.new "main"
    let table : SymbolTable :=
      { main with symbols := main.symbols ++ [.plain "x" .variable realType, .plain "f" .variable integerType] }
    let body (pos : Position) (type : SymbolIndex) : Body :=
      [.loop pos (.relation ⟨pos, type⟩ .less (.name ⟨pos, type⟩ 4) (.integer ⟨pos, type⟩ 3))
        [.assign pos (.name ⟨pos, type⟩ 4) (.cast ⟨pos, type⟩ (.negate ⟨pos, type⟩ (.call ⟨pos, type⟩ ⟨pos, 5⟩ [])))]]
    let is := bodySymbols (body ⟨1, 1⟩ 1) ++ bodySymbols (body ⟨2, 5⟩ 2)
    (∀ i ∈ is, ∀ j ∈ is, table.nameOf i = table.nameOf j → i = j) ∧ Named table is ∧
      All Expr.Unsigned (bodyParts (body ⟨1, 1⟩ 1) ++ bodyParts (body ⟨2, 5⟩ 2)) ∧
      (body ⟨1, 1⟩ 1).text? table = some "while (x < 3) do\n    x := real(-f());\nend;\n" ∧
      (body ⟨2, 5⟩ 2).text? table = some "while (x < 3) do\n    x := real(-f());\nend;\n" ∧
      bodyBare (body ⟨1, 1⟩ 1) = bodyBare (body ⟨2, 5⟩ 2) := by
  intro main table body is
  have distinct : ∀ i ∈ is, ∀ j ∈ is, table.nameOf i = table.nameOf j → i = j := by decide +kernel
  have named : ∀ i ∈ is, IsName (table.nameOf i) := by decide +kernel
  have unsigned : All Expr.Unsigned (bodyParts (body ⟨1, 1⟩ 1) ++ bodyParts (body ⟨2, 5⟩ 2)) := by
    simp [body, All, bodyParts, Stmt.parts, Expr.parts, argParts, Expr.Unsigned]
  have printed : (body ⟨1, 1⟩ 1).text? table = some "while (x < 3) do\n    x := real(-f());\nend;\n" := by
    decide +kernel
  have printed' : (body ⟨2, 5⟩ 2).text? table = some "while (x < 3) do\n    x := real(-f());\nend;\n" := by
    decide +kernel
  exact ⟨distinct, named, unsigned, printed, printed', text_determines_body distinct named unsigned printed printed'⟩

end MiniPascal
