import MiniPascal.Proofs.Documents.Decoded

/-!
# Decoded programs are decoded again

Every document of a program is a text that holds this document. A program that was decoded, from whatever
text, is therefore decoded from its own text as well, given that its reals are read back.
-/

namespace MiniPascal

/-! ## Documents of programs are texts -/

@[simp] theorem Position.spelled_toJson (p : Position) : p.toJson.Spelled := by
  simp [Position.toJson]

@[simp] theorem Reference.spelled_toJson (r : Reference) : (Reference.toJson r).Spelled := by
  simp [Reference.toJson]

@[simp] theorem Note.spelled_document {n : Note} {kind : String} {content : Json} :
    (n.document kind content).Spelled ↔ content.Spelled := by
  simp [Note.document]

@[simp] theorem Position.spelled_document {p : Position} {kind : String} {content : Json} :
    (p.document kind content).Spelled ↔ content.Spelled := by
  simp [Position.document]

@[simp] theorem spelled_operands {op : String} {left right : Json} :
    (operands op left right).Spelled ↔ left.Spelled ∧ right.Spelled := by
  simp [operands]

mutual

@[simp] theorem Expr.spelled_toJson (e : Expr) : e.toJson.Spelled := by
  match e with
  | .name .. | .integer .. | .real .. => simp [Expr.toJson]
  | .element _ _ index => simp [Expr.toJson, index.spelled_toJson]
  | .cast _ e | .negate _ e | .not _ e => simp [Expr.toJson, e.spelled_toJson]
  | .call _ _ args => simpa [Expr.toJson] using spelled_argDocuments args
  | .binary _ _ l r | .relation _ _ l r => simp [Expr.toJson, l.spelled_toJson, r.spelled_toJson]
termination_by sizeOf e

theorem spelled_argDocuments (es : List Expr) : ∀ j ∈ argDocuments es, j.Spelled := by
  match es with
  | [] => exact List.forall_mem_nil _
  | e :: es => exact List.forall_mem_cons.mpr ⟨e.spelled_toJson, spelled_argDocuments es⟩
termination_by sizeOf es

end

mutual

@[simp] theorem Stmt.spelled_toJson (s : Stmt) : s.toJson.Spelled := by
  match s with
  | .assign .. | .ret .. => simp [Stmt.toJson]
  | .branch _ _ body elsifs none =>
    simpa [Stmt.toJson] using ⟨spelled_bodyDocuments body, spelled_elsifDocuments elsifs⟩
  | .branch _ _ body elsifs (some otherwise) =>
    simpa [Stmt.toJson] using
      ⟨spelled_bodyDocuments body, spelled_elsifDocuments elsifs, spelled_bodyDocuments otherwise⟩
  | .loop _ _ body => simpa [Stmt.toJson] using spelled_bodyDocuments body
  | .call _ _ args => simpa [Stmt.toJson] using spelled_argDocuments args
termination_by sizeOf s

theorem Elsif.spelled_toJson (e : Elsif) : e.toJson.Spelled := by
  match e with
  | .clause _ _ body => simpa [Elsif.toJson] using spelled_bodyDocuments body
termination_by sizeOf e

theorem spelled_elsifDocuments (es : List Elsif) : ∀ j ∈ elsifDocuments es, j.Spelled := by
  match es with
  | [] => exact List.forall_mem_nil _
  | e :: es => exact List.forall_mem_cons.mpr ⟨e.spelled_toJson, spelled_elsifDocuments es⟩
termination_by sizeOf es

theorem spelled_bodyDocuments (b : List Stmt) : ∀ j ∈ bodyDocuments b, j.Spelled := by
  match b with
  | [] => exact List.forall_mem_nil _
  | s :: b => exact List.forall_mem_cons.mpr ⟨s.spelled_toJson, spelled_bodyDocuments b⟩
termination_by sizeOf b

end

@[simp] theorem Constant.spelled_toJson (c : Constant) : c.toJson.Spelled := by
  cases c <;> simp [Constant.toJson]

@[simp] theorem Symbol.spelled_toJson (s : Symbol) : s.toJson.Spelled := by
  simp [Symbol.toJson]

@[simp] theorem SymbolTable.spelled_toJson (t : SymbolTable) : t.toJson.Spelled := by
  simp [SymbolTable.toJson]

@[simp] theorem Routine.spelled_toJson (r : Routine) : r.toJson.Spelled := by
  simpa [Routine.toJson, Body.toJson] using spelled_bodyDocuments r.body

theorem Program.spelled_toJson (p : Program) : p.toJson.Spelled := by
  simp [Program.toJson]

/-! ## Texts of programs -/

theorem Program.parse?_text (p : Program) : Json.parse? p.toJson.text = some p.toJson :=
  Json.parse?_text p.spelled_toJson

/-- The text of a program holds that program just if it is writable and not too deep. -/
theorem Program.decode?_text {p : Program} :
    Json.decode? Program.decoder p.toJson.text = some p ↔
      p.Writable ReadsBack ∧ p.toJson.depth ≤ Json.nestingLimit := by
  rw [Json.decode?, p.parse?_text, Option.bind_some]
  exact reads_program Json.nestingLimit Json.nestingLimit (Nat.le_refl _) p

theorem writable_of_decoded {s : String} {p : Program} (decoded : Json.decode? Program.decoder s = some p) :
    p.Writable IsFinite ∧ p.toJson.depth ≤ Json.nestingLimit := by
  obtain ⟨j, -, decoded⟩ := Option.bind_eq_some_iff.mp decoded
  obtain ⟨writable, deep⟩ := gives_program Json.nestingLimit j p decoded
  exact ⟨writable, deep (by decide)⟩

/-- Whatever text a program was decoded from, its own text is a document within the limit, and the program is
decoded from it again. Of the finite reals in it this asks that they are read back as they are written. -/
theorem decoding_is_stable {s : String} {p : Program} (decoded : Json.decode? Program.decoder s = some p)
    (reals : ∀ r ∈ p.reals, IsFinite r → ReadsBack r) :
    Json.parse? p.toJson.text = some p.toJson ∧ p.toJson.depth ≤ Json.nestingLimit ∧
      Json.decode? Program.decoder p.toJson.text = some p := by
  obtain ⟨writable, deep⟩ := writable_of_decoded decoded
  obtain ⟨any_real, finite⟩ := Program.writable_iff_reals.mp writable
  have read_back : p.Writable ReadsBack :=
    Program.writable_iff_reals.mpr ⟨any_real, fun r member => reals r member (finite r member)⟩
  exact ⟨p.parse?_text, deep, Program.decode?_text.mpr ⟨read_back, deep⟩⟩

/-- Symbols and places written as arrays, types that are `null` or missing, and a member that nobody asks for. -/
theorem decoding_is_stable_loose_document :
    let symbol (name tag : String) (type : Nat) : Json := .array [.ofString name, .ofString tag, .ofNat type]
    let place : Json := .array [.ofNat 1, .ofNat 1]
    let target : Json := .record [("kind", .alternative "Id" (.ofNat 4)), ("ty", .null), ("pos", place)]
    let value : Json := .record [("pos", place), ("remark", .array []), ("kind", .alternative "Real" (.ofReal 0.5))]
    let assign : Json := .array [place, .alternative "Assign" (.array [target, value])]
    let table : Json := .record [("program", .ofNat 3), ("symbols", .array [symbol "void" "NameType" 0,
      symbol "integer" "NameType" 0, symbol "real" "NameType" 0, symbol "main" "Proc" 0, symbol "x" "Var" 2])]
    let document : Json := .array [table, .array [.record [("body", .array [assign]), ("env", .ofNat 3)]]]
    let symbols := (SymbolTable.new "main").symbols ++ [.plain "x" .variable realType]
    let b : Body := [.assign ⟨1, 1⟩ (.name ⟨⟨1, 1⟩, voidType⟩ 4) (.real ⟨⟨1, 1⟩, realType⟩ 0.5)]
    let p : Program := ⟨⟨symbols, 3, [], .empty⟩, [⟨3, b⟩]⟩
    Json.decode? Program.decoder document.text = some p ∧ (∀ r ∈ p.reals, IsFinite r → ReadsBack r) ∧
      Json.parse? p.toJson.text = some p.toJson ∧ p.toJson.depth ≤ Json.nestingLimit ∧
        Json.decode? Program.decoder p.toJson.text = some p := by
  intro symbol place target value assign table document symbols b p
  have spelled : document.Spelled := by
    simp [document, table, assign, value, target, place, symbol]
  have decoded : Json.decode? Program.decoder document.text = some p := by
    rw [Json.decode?, Json.parse?_text spelled]
    rfl
  have reals : ∀ r ∈ p.reals, IsFinite r → ReadsBack r := by
    rintro r member -
    obtain rfl : r = 0.5 := List.mem_singleton.mp member
    exact (readsBack_iff (n := 0)).mpr rfl
  exact ⟨decoded, reals, decoding_is_stable decoded reals⟩

end MiniPascal
