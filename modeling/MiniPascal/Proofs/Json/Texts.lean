import MiniPascal.Json.Reader
import MiniPascal.Proofs.Json.Numbers

/-!
# Documents are read as they were written

The text of a document holds that document, if the numbers in it are numbers. The reader is followed
through the text from one value to the next: what a value adds to the open arrays and objects does not depend
on what they hold, or on the text behind the value.
-/

namespace MiniPascal.Json

/-! ## Strings -/

theorem unitCode?_hexDigit : ∀ n < 0x20, unitCode? '0' '0' (hexDigit (n / 16)) (hexDigit (n % 16)) = some n := by
  decide

/-- A character comes back as itself, or as its number if that is small. -/
theorem scanString?_escape (c : Char) (cs : List Char) :
    ∃ part, (part = .char c ∨ part = .unit c.toNat ∧ c.toNat < 0x20) ∧
      scanString? (escape c ++ cs) = (scanString? cs).map fun (parts, rest) => (part :: parts, rest) := by
  have short (d : Char) (e : Char) (different : e ≠ 'u') (escaped : shortEscape? e = some d) :
      scanString? ('\\' :: e :: cs) = (scanString? cs).map fun (parts, rest) => (.char d :: parts, rest) := by
    rw [scanString?, escaped]
    · cases scanString? cs <;> rfl
    · exact fun _ _ _ _ _ equal => absurd equal different
  unfold escape
  split_ifs with quote backslash backspace tab newline feed carriage small
  · exact ⟨.char c, .inl rfl, quote ▸ short '"' '"' (by decide) rfl⟩
  · exact ⟨.char c, .inl rfl, backslash ▸ short '\\' '\\' (by decide) rfl⟩
  · exact ⟨.char c, .inl rfl, backspace ▸ short '\x08' 'b' (by decide) rfl⟩
  · exact ⟨.char c, .inl rfl, tab ▸ short '\t' 't' (by decide) rfl⟩
  · exact ⟨.char c, .inl rfl, newline ▸ short '\n' 'n' (by decide) rfl⟩
  · exact ⟨.char c, .inl rfl, feed ▸ short '\x0c' 'f' (by decide) rfl⟩
  · exact ⟨.char c, .inl rfl, carriage ▸ short '\r' 'r' (by decide) rfl⟩
  · refine ⟨.unit c.toNat, .inr ⟨rfl, small⟩, ?_⟩
    simp only [List.cons_append, List.nil_append]
    rw [scanString?, unitCode?_hexDigit _ small]
    cases scanString? cs <;> rfl
  · refine ⟨.char c, .inl rfl, ?_⟩
    rw [List.singleton_append, scanString?, if_neg (by simp [small, backslash])]
    · cases scanString? cs <;> rfl
    · exact quote
    · exact fun _ _ _ _ _ equal => absurd equal backslash
    · exact fun _ _ equal => absurd equal backslash

theorem joinParts?_cons {c : Char} {part : StringPart}
    (shape : part = .char c ∨ part = .unit c.toNat ∧ c.toNat < 0x20) (parts : List StringPart) :
    joinParts? (part :: parts) = (joinParts? parts).map (c :: ·) := by
  obtain rfl | ⟨rfl, small⟩ := shape
  · rfl
  · have lead : isLeadSurrogate c.toNat = false := by
      simp only [isLeadSurrogate, Bool.and_eq_false_imp, decide_eq_true_eq, decide_eq_false_iff_not]
      omega
    have trail : isTrailSurrogate c.toNat = false := by
      simp only [isTrailSurrogate, Bool.and_eq_false_imp, decide_eq_true_eq, decide_eq_false_iff_not]
      omega
    match parts with
    | [] | .char _ :: _ | .unit _ :: _ => simp [joinParts?, lead, trail, Char.ofNat_toNat]

theorem scanString?_quoted (cs rest : List Char) :
    ∃ parts, scanString? (cs.flatMap escape ++ '"' :: rest) = some (parts, rest) ∧ joinParts? parts = some cs := by
  induction cs with
  | nil => exact ⟨[], by rw [List.flatMap_nil, List.nil_append, scanString?], rfl⟩
  | cons c cs ih =>
    obtain ⟨parts, scanned, joined⟩ := ih
    obtain ⟨part, shape, step⟩ := scanString?_escape c (cs.flatMap escape ++ '"' :: rest)
    refine ⟨part :: parts, ?_, ?_⟩
    · rw [List.flatMap_cons, List.append_assoc, step, scanned]
      rfl
    · rw [joinParts?_cons shape, joined]
      rfl

theorem scan?_quote (cs : List Char) : Token.scan? ('"' :: cs) =
    (scanString? cs).map fun (parts, rest) => (.string ((joinParts? parts).map String.ofList), rest) := rfl

/-- A string at the front of a text, with or without a text of its own. -/
theorem scan?_string (text : Option String) (rest : List Char) :
    Token.scan? (writeString text ++ rest) = some (.string text, rest) := by
  cases text with
  | none =>
    have written : writeString none = ['"', '\\', 'u', 'd', '8', '0', '0', '"'] := String.toList_ofList
    rw [written]
    rfl
  | some s =>
    obtain ⟨parts, scanned, joined⟩ := scanString?_quoted s.toList rest
    have written : quote s ++ rest = '"' :: (s.toList.flatMap escape ++ '"' :: rest) := by
      simp [quote]
    change Token.scan? (quote s ++ rest) = _
    rw [written, scan?_quote, scanned]
    simp only [Option.map_some, joined, String.ofList_toList]

/-! ## Documents -/

mutual

/-- All numbers of the document are numbers. -/
def Spelled : Json → Prop
  | null | bool _ | string _ => True
  | number written => IsNumber written.toList
  | array items => ItemsSpelled items
  | object members => MembersSpelled members

def ItemsSpelled : List Json → Prop
  | [] => True
  | item :: items => item.Spelled ∧ ItemsSpelled items

def MembersSpelled : List (Option String × Json) → Prop
  | [] => True
  | (_, value) :: members => value.Spelled ∧ MembersSpelled members

end

@[simp] theorem spelled_array {items : List Json} : (array items).Spelled ↔ ∀ item ∈ items, item.Spelled := by
  rw [Spelled]
  induction items with
  | nil => simp [ItemsSpelled]
  | cons item items ih => rw [ItemsSpelled, ih, List.forall_mem_cons]

@[simp] theorem spelled_record {fields : List (String × Json)} :
    (record fields).Spelled ↔ ∀ field ∈ fields, field.2.Spelled := by
  rw [record, Spelled]
  induction fields with
  | nil => simp [MembersSpelled]
  | cons field fields ih => rw [List.map_cons, MembersSpelled, ih, List.forall_mem_cons]

@[simp] theorem spelled_alternative {name : String} {content : Json} :
    (alternative name content).Spelled ↔ content.Spelled := by
  rw [alternative, spelled_record, List.forall_mem_singleton]

@[simp] theorem spelled_null : null.Spelled := trivial

@[simp] theorem spelled_ofString (s : String) : (ofString s).Spelled := trivial

@[simp] theorem spelled_ofNat (n : Nat) : (ofNat n).Spelled := isNumber_nat n

@[simp] theorem spelled_ofInt (v : Int) : (ofInt v).Spelled := isNumber_int v

@[simp] theorem spelled_orNull {α : Type} {write : α → Json} {a? : Option α} :
    (orNull write a?).Spelled ↔ ∀ a ∈ a?, (write a).Spelled := by
  cases a? <;> simp [orNull]

/-! ## The reader -/

namespace Reader

variable {r : Reader} {outer : List Frame}

theorem run?_token {c : Char} {cs rest : List Char} {t : Token} (visible : isBlank c = false)
    (scanned : Token.scan? (c :: cs) = some (t, rest)) : r.run? (c :: cs) = (r.step? t).bind (run? · rest) := by
  rw [run?, visible]
  simp only [Bool.false_eq_true, if_false]
  split
  next unscanned => rw [scanned] at unscanned; cases unscanned
  next found =>
    rw [scanned] at found
    cases found
    cases r.step? t <;> rfl

/-- A value may come next, and it goes into the given frames. -/
def Awaits (r : Reader) (outer : List Frame) : Prop :=
  ∀ t, t ≠ .closeBracket → r.step? t = begin? t outer

theorem awaits_value (outer : List Frame) : (value outer).Awaits outer := fun _ _ => rfl

theorem awaits_firstItem (outer : List Frame) : (firstItem outer).Awaits (.array [] :: outer) := by
  intro t open_array
  cases t <;> first | rfl | contradiction

theorem Awaits.run? {c : Char} {cs rest : List Char} {t : Token} {next : Reader} (awaits : r.Awaits outer)
    (visible : isBlank c = false) (scanned : Token.scan? (c :: cs) = some (t, rest))
    (begins : begin? t outer = some next) : r.run? (c :: cs) = next.run? rest := by
  have inside : t ≠ .closeBracket := by
    rintro rfl
    cases begins
  rw [run?_token visible scanned, awaits t inside, begins, Option.bind_some]

theorem run?_step {c : Char} {cs rest : List Char} {t : Token} {next : Reader} (visible : isBlank c = false)
    (scanned : Token.scan? (c :: cs) = some (t, rest)) (steps : r.step? t = some next) :
    r.run? (c :: cs) = next.run? rest := by
  rw [run?_token visible scanned, steps, Option.bind_some]

end Reader

theorem endsNumber_of_head {c : Char} {cs : List Char} (stops : c = ',' ∨ c = ']' ∨ c = '}') :
    EndsNumber (c :: cs) := by
  rintro _ ⟨⟩
  obtain rfl | rfl | rfl := stops <;> decide

theorem endsNumber_itemChars (items : List Json) (rest : List Char) : EndsNumber (itemChars items ++ rest) := by
  cases items with
  | nil => exact endsNumber_of_head (.inr (.inl rfl))
  | cons => exact endsNumber_of_head (.inl rfl)

theorem endsNumber_memberChars (members : List (Option String × Json)) (rest : List Char) :
    EndsNumber (memberChars members ++ rest) := by
  cases members with
  | nil => exact endsNumber_of_head (.inr (.inr rfl))
  | cons => exact endsNumber_of_head (.inl rfl)

theorem IsNumber.head {cs : List Char} (number : IsNumber cs) : ∃ c ds, cs = c :: ds ∧ isBlank c = false := by
  cases number with
  | plain unsigned =>
    obtain ⟨c, ds, rfl, digit⟩ := unsigned.head
    refine ⟨c, ds, rfl, ?_⟩
    by_contra blank
    simp only [isBlank, Bool.not_eq_false, Bool.or_eq_true, decide_eq_true_eq] at blank
    obtain ((rfl | rfl) | rfl) | rfl := blank <;> contradiction
  | negative => exact ⟨_, _, rfl, rfl⟩

theorem writeString_head (text : Option String) : ∃ cs, writeString text = '"' :: cs := by
  cases text with
  | none => exact ⟨_, String.toList_ofList⟩
  | some s => exact ⟨_, rfl⟩

namespace Reader

theorem run?_key {r keyed : Reader} (key : Option String) (rest : List Char)
    (steps : r.step? (.string key) = some keyed) : r.run? (writeString key ++ rest) = keyed.run? rest := by
  have scanned := scan?_string key rest
  obtain ⟨cs, written⟩ := writeString_head key
  rw [written] at scanned ⊢
  exact run?_step rfl scanned steps

mutual

/-- Where a value is awaited, the text of a document puts that document. -/
theorem run?_chars (j : Json) (spelled : j.Spelled) {r : Reader} {outer : List Frame} (awaits : r.Awaits outer)
    {rest : List Char} (stop : EndsNumber rest) : r.run? (j.chars ++ rest) = (complete j outer).run? rest := by
  match j with
  | .null => exact awaits.run? rfl rfl rfl
  | .bool true => exact awaits.run? rfl rfl rfl
  | .bool false => exact awaits.run? rfl rfl rfl
  | .number written =>
    have scanned := scan?_number spelled stop
    obtain ⟨c, ds, written_eq, visible⟩ := IsNumber.head spelled
    rw [String.ofList_toList, written_eq] at scanned
    rw [chars, written_eq]
    exact awaits.run? visible scanned rfl
  | .string text =>
    have scanned := scan?_string text rest
    obtain ⟨cs, written⟩ := writeString_head text
    rw [written] at scanned
    rw [chars, written]
    exact awaits.run? rfl scanned rfl
  | .array [] =>
    rw [chars]
    refine (awaits.run? (t := .openBracket) rfl rfl rfl).trans ?_
    exact run?_step (t := .closeBracket) rfl rfl rfl
  | .array (item :: items) =>
    rw [chars, List.append_assoc]
    refine (awaits.run? (t := .openBracket) rfl rfl rfl).trans ?_
    refine (run?_chars item spelled.1 (awaits_firstItem outer) (endsNumber_itemChars items rest)).trans ?_
    exact run?_itemChars items spelled.2 [item] outer rest
  | .object [] =>
    rw [chars]
    refine (awaits.run? (t := .openBrace) rfl rfl rfl).trans ?_
    exact run?_step (t := .closeBrace) rfl rfl rfl
  | .object ((name, item) :: members) =>
    simp only [chars, List.append_assoc, List.cons_append]
    refine (awaits.run? (t := .openBrace) rfl rfl rfl).trans ?_
    refine (run?_key name _ rfl).trans ?_
    refine (run?_step (t := .colon) rfl rfl rfl).trans ?_
    refine (run?_chars item spelled.1 (awaits_value _) (endsNumber_memberChars members rest)).trans ?_
    exact run?_memberChars members spelled.2 [(name, item)] outer rest
termination_by sizeOf j

theorem run?_itemChars (items : List Json) (spelled : ItemsSpelled items) (before : List Json)
    (outer : List Frame) (rest : List Char) :
    (nextItem before outer).run? (itemChars items ++ rest) =
      (complete (.array (before.reverse ++ items)) outer).run? rest := by
  match items with
  | [] =>
    rw [itemChars, List.append_nil]
    exact run?_step (t := .closeBracket) rfl rfl rfl
  | item :: items =>
    rw [itemChars, List.append_assoc]
    refine (run?_step (t := .comma) rfl rfl rfl).trans ?_
    refine (run?_chars item spelled.1 (awaits_value _) (endsNumber_itemChars items rest)).trans ?_
    refine (run?_itemChars items spelled.2 (item :: before) outer rest).trans ?_
    rw [List.reverse_cons, List.append_assoc, List.singleton_append]
termination_by sizeOf items

theorem run?_memberChars (members : List (Option String × Json)) (spelled : MembersSpelled members)
    (before : List (Option String × Json)) (outer : List Frame) (rest : List Char) :
    (nextMember before outer).run? (memberChars members ++ rest) =
      (complete (.object (before.reverse ++ members)) outer).run? rest := by
  match members with
  | [] =>
    rw [memberChars, List.append_nil]
    exact run?_step (t := .closeBrace) rfl rfl rfl
  | (name, item) :: members =>
    simp only [memberChars, List.append_assoc, List.cons_append]
    refine (run?_step (t := .comma) rfl rfl rfl).trans ?_
    refine (run?_key name _ rfl).trans ?_
    refine (run?_step (t := .colon) rfl rfl rfl).trans ?_
    refine (run?_chars item spelled.1 (awaits_value _) (endsNumber_memberChars members rest)).trans ?_
    refine (run?_memberChars members spelled.2 ((name, item) :: before) outer rest).trans ?_
    rw [List.reverse_cons, List.append_assoc, List.singleton_append]
termination_by sizeOf members

end

end Reader

/-- The text of a document holds that document. -/
theorem parse?_text {j : Json} (spelled : j.Spelled) : parse? j.text = some j := by
  have run : (Reader.value []).run? (j.chars ++ []) = (Reader.done j).run? [] :=
    Reader.run?_chars j spelled (Reader.awaits_value []) nofun
  rw [List.append_nil] at run
  rw [parse?, text, String.toList_ofList, run, Reader.run?]

end MiniPascal.Json
