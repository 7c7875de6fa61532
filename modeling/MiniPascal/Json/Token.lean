import MiniPascal.Json.Basic

/-!
# JSON tokens

The lexical level of JSON: blanks, the six punctuation marks, the three words, numbers and
strings. `Token.scan?` takes one token off the front of a text and leaves a shorter one.
-/

namespace MiniPascal.Json

/-- Blanks may stand between any two tokens. -/
def isBlank (c : Char) : Bool :=
  c = ' ' || c = '\n' || c = '\t' || c = '\r'

inductive Token where
  | openBracket
  | closeBracket
  | openBrace
  | closeBrace
  | colon
  | comma
  | null
  | bool (value : Bool)
  | number (written : String)
  | string (text : Option String)
deriving DecidableEq

/-! ## Numbers -/

/-- The whole part: zero, or digits that do not begin with it. -/
def scanWhole? : List Char → Option (List Char × List Char)
  | [] => none
  | c :: cs =>
    if c = '0' then some ([c], cs)
    else if c.isDigit then some (c :: cs.takeWhile Char.isDigit, cs.dropWhile Char.isDigit)
    else none

def scanDigits? (cs : List Char) : Option (List Char × List Char) :=
  match cs.takeWhile Char.isDigit with
  | [] => none
  | digits => some (digits, cs.dropWhile Char.isDigit)

/-- A point with digits behind it, or nothing. -/
def scanFraction? : List Char → Option (List Char × List Char)
  | '.' :: cs => (scanDigits? cs).map fun (digits, rest) => ('.' :: digits, rest)
  | cs => some ([], cs)

/-- A power of ten, or nothing. -/
def scanPower? : List Char → Option (List Char × List Char)
  | [] => some ([], [])
  | c :: cs =>
    if c = 'e' ∨ c = 'E' then
      match cs with
      | '+' :: cs => (scanDigits? cs).map fun (digits, rest) => (c :: '+' :: digits, rest)
      | '-' :: cs => (scanDigits? cs).map fun (digits, rest) => (c :: '-' :: digits, rest)
      | cs => (scanDigits? cs).map fun (digits, rest) => (c :: digits, rest)
    else some ([], c :: cs)

def scanUnsigned? (cs : List Char) : Option (List Char × List Char) := do
  let (whole, cs) ← scanWhole? cs
  let (fraction, cs) ← scanFraction? cs
  let (power, cs) ← scanPower? cs
  return (whole ++ fraction ++ power, cs)

/-- The longest number at the front of a text. -/
def scanNumber? : List Char → Option (List Char × List Char)
  | '-' :: cs => (scanUnsigned? cs).map fun (digits, rest) => ('-' :: digits, rest)
  | cs => scanUnsigned? cs

/-! ## Strings -/

/-- What one stretch of a string stands for: a character, or a UTF-16 unit that was given by
its number. -/
inductive StringPart where
  | char (c : Char)
  | unit (code : Nat)

def hexValue? (c : Char) : Option Nat :=
  if c.isDigit then some (c.toNat - '0'.toNat)
  else if 'a' ≤ c ∧ c ≤ 'f' then some (c.toNat - 'a'.toNat + 10)
  else if 'A' ≤ c ∧ c ≤ 'F' then some (c.toNat - 'A'.toNat + 10)
  else none

/-- The number that four hexadecimal digits stand for. -/
def unitCode? (a b c d : Char) : Option Nat := do
  let a ← hexValue? a
  let b ← hexValue? b
  let c ← hexValue? c
  let d ← hexValue? d
  return ((a * 16 + b) * 16 + c) * 16 + d

/-- The character behind a backslash and one more character. -/
def shortEscape? (c : Char) : Option Char :=
  if c = '"' ∨ c = '\\' ∨ c = '/' then some c
  else if c = 'b' then some '\x08'
  else if c = 'f' then some '\x0c'
  else if c = 'n' then some '\n'
  else if c = 'r' then some '\r'
  else if c = 't' then some '\t'
  else none

/-- The inside of a string, up to the closing quote. Characters below the space may not
stand in it as they are. -/
def scanString? : List Char → Option (List StringPart × List Char)
  | [] => none
  | '"' :: cs => some ([], cs)
  | '\\' :: 'u' :: a :: b :: c :: d :: cs => do
    let code ← unitCode? a b c d
    let (parts, rest) ← scanString? cs
    return (.unit code :: parts, rest)
  | '\\' :: c :: cs => do
    let c ← shortEscape? c
    let (parts, rest) ← scanString? cs
    return (.char c :: parts, rest)
  | c :: cs =>
    if c.toNat < 0x20 ∨ c = '\\' then none else do
      let (parts, rest) ← scanString? cs
      return (.char c :: parts, rest)

def isLeadSurrogate (code : Nat) : Bool := 0xD800 ≤ code && code < 0xDC00

def isTrailSurrogate (code : Nat) : Bool := 0xDC00 ≤ code && code < 0xE000

/-- The text of a string: surrogates must come in pairs. -/
def joinParts? : List StringPart → Option (List Char)
  | [] => some []
  | .char c :: parts => (joinParts? parts).map (c :: ·)
  | .unit lead :: .unit trail :: parts =>
    if isLeadSurrogate lead then
      if isTrailSurrogate trail then
        let c := Char.ofNat (0x10000 + (lead - 0xD800) * 0x400 + (trail - 0xDC00))
        (joinParts? parts).map (c :: ·)
      else none
    else if isTrailSurrogate lead then none
    else (joinParts? (.unit trail :: parts)).map (Char.ofNat lead :: ·)
  | .unit code :: parts =>
    if isLeadSurrogate code || isTrailSurrogate code then none
    else (joinParts? parts).map (Char.ofNat code :: ·)

/-! ## One token -/

/-- `rest` without `word` in front of it. -/
def dropWord? : List Char → List Char → Option (List Char)
  | [], rest => some rest
  | w :: word, c :: rest => if w = c then dropWord? word rest else none
  | _ :: _, [] => none

/-- The token at the front of a text that does not begin with a blank. -/
def Token.scan? : List Char → Option (Token × List Char)
  | [] => none
  | '[' :: cs => some (.openBracket, cs)
  | ']' :: cs => some (.closeBracket, cs)
  | '{' :: cs => some (.openBrace, cs)
  | '}' :: cs => some (.closeBrace, cs)
  | ':' :: cs => some (.colon, cs)
  | ',' :: cs => some (.comma, cs)
  | 'n' :: cs => (dropWord? ['u', 'l', 'l'] cs).map fun rest => (.null, rest)
  | 't' :: cs => (dropWord? ['r', 'u', 'e'] cs).map fun rest => (.bool true, rest)
  | 'f' :: cs => (dropWord? ['a', 'l', 's', 'e'] cs).map fun rest => (.bool false, rest)
  | '"' :: cs =>
    (scanString? cs).map fun (parts, rest) => (.string ((joinParts? parts).map String.ofList), rest)
  | cs => (scanNumber? cs).map fun (written, rest) => (.number (String.ofList written), rest)

/-! ## Scanning makes progress -/

theorem scanWhole?_length {cs ds rest : List Char} (h : scanWhole? cs = some (ds, rest)) :
    rest.length < cs.length := by
  cases cs with
  | nil => simp [scanWhole?] at h
  | cons c cs =>
    simp only [scanWhole?] at h
    split at h
    · simp_all
    · split at h
      · obtain ⟨-, rfl⟩ := Prod.mk.inj (Option.some.inj h)
        exact Nat.lt_succ_of_le (List.dropWhile_sublist _).length_le
      · simp at h

theorem scanDigits?_length {cs ds rest : List Char} (h : scanDigits? cs = some (ds, rest)) :
    rest.length ≤ cs.length := by
  simp only [scanDigits?] at h
  split at h
  · simp at h
  · obtain ⟨-, rfl⟩ := Prod.mk.inj (Option.some.inj h)
    exact (List.dropWhile_sublist _).length_le

theorem scanFraction?_length {cs ds rest : List Char} (h : scanFraction? cs = some (ds, rest)) :
    rest.length ≤ cs.length := by
  unfold scanFraction? at h
  split at h
  · obtain ⟨⟨digits, rest'⟩, hd, he⟩ := Option.map_eq_some_iff.1 h
    obtain ⟨-, rfl⟩ := Prod.mk.inj he
    exact Nat.le_succ_of_le (scanDigits?_length hd)
  · simp_all

theorem scanPower?_length {cs ds rest : List Char} (h : scanPower? cs = some (ds, rest)) :
    rest.length ≤ cs.length := by
  unfold scanPower? at h
  split at h
  · simp_all
  · split at h
    · split at h <;>
        · obtain ⟨⟨digits, rest'⟩, hd, he⟩ := Option.map_eq_some_iff.1 h
          obtain ⟨-, rfl⟩ := Prod.mk.inj he
          have := scanDigits?_length hd
          simp only [List.length_cons]
          omega
    · simp_all

theorem scanUnsigned?_length {cs ds rest : List Char} (h : scanUnsigned? cs = some (ds, rest)) :
    rest.length < cs.length := by
  simp only [scanUnsigned?, Option.bind_eq_bind, Option.bind_eq_some_iff] at h
  obtain ⟨⟨whole, cs₁⟩, hw, ⟨fraction, cs₂⟩, hf, ⟨power, cs₃⟩, hp, he⟩ := h
  obtain ⟨-, rfl⟩ := Prod.mk.inj (Option.some.inj he)
  calc cs₃.length ≤ cs₂.length := scanPower?_length hp
    _ ≤ cs₁.length := scanFraction?_length hf
    _ < cs.length := scanWhole?_length hw

theorem scanNumber?_length {cs ds rest : List Char} (h : scanNumber? cs = some (ds, rest)) :
    rest.length < cs.length := by
  unfold scanNumber? at h
  split at h
  · obtain ⟨⟨digits, rest'⟩, hd, he⟩ := Option.map_eq_some_iff.1 h
    obtain ⟨-, rfl⟩ := Prod.mk.inj he
    exact Nat.lt_succ_of_lt (scanUnsigned?_length hd)
  · exact scanUnsigned?_length h

theorem scanString?_length {cs rest : List Char} {parts : List StringPart}
    (h : scanString? cs = some (parts, rest)) : rest.length < cs.length := by
  fun_induction scanString? cs generalizing parts rest with
  | case1 => simp at h
  | case2 => simp_all
  | case3 a b c d cs ih =>
    simp only [Option.bind_eq_bind, Option.bind_eq_some_iff] at h
    obtain ⟨code, -, ⟨parts', rest'⟩, hs, he⟩ := h
    obtain ⟨-, rfl⟩ := Prod.mk.inj (Option.some.inj he)
    have := ih hs
    simp only [List.length_cons]
    omega
  | case4 c cs _ ih =>
    simp only [Option.bind_eq_bind, Option.bind_eq_some_iff] at h
    obtain ⟨c', -, ⟨parts', rest'⟩, hs, he⟩ := h
    obtain ⟨-, rfl⟩ := Prod.mk.inj (Option.some.inj he)
    have := ih hs
    simp only [List.length_cons]
    omega
  | case5 => simp at h
  | case6 c cs _ _ _ _ ih =>
    simp only [Option.bind_eq_bind, Option.bind_eq_some_iff] at h
    obtain ⟨⟨parts', rest'⟩, hs, he⟩ := h
    obtain ⟨-, rfl⟩ := Prod.mk.inj (Option.some.inj he)
    exact Nat.lt_succ_of_lt (ih hs)

theorem dropWord?_length {word cs rest : List Char} (h : dropWord? word cs = some rest) :
    rest.length ≤ cs.length := by
  fun_induction dropWord? word cs with
  | case1 => simp_all
  | case2 w word cs ih => exact Nat.le_succ_of_le (ih h)
  | case3 => simp at h
  | case4 => simp at h

/-- A token takes at least one character. -/
theorem Token.scan?_length {cs rest : List Char} {t : Token}
    (h : Token.scan? cs = some (t, rest)) : rest.length < cs.length := by
  unfold Token.scan? at h
  split at h
  case h_1 => simp at h
  case h_8 cs | h_9 cs | h_10 cs =>
    obtain ⟨rest', hw, he⟩ := Option.map_eq_some_iff.1 h
    obtain ⟨-, rfl⟩ := Prod.mk.inj he
    exact Nat.lt_succ_of_le (dropWord?_length hw)
  case h_11 cs =>
    obtain ⟨⟨parts, rest'⟩, hs, he⟩ := Option.map_eq_some_iff.1 h
    obtain ⟨-, rfl⟩ := Prod.mk.inj he
    exact Nat.lt_succ_of_lt (scanString?_length hs)
  case h_12 =>
    obtain ⟨⟨written, rest'⟩, hs, he⟩ := Option.map_eq_some_iff.1 h
    obtain ⟨-, rfl⟩ := Prod.mk.inj he
    exact scanNumber?_length hs
  all_goals simp_all

end MiniPascal.Json
