import MiniPascal.Proofs.Documents.Writable

/-!
# Programs are read back as they were written

A program is read back from its document just if it is writable, with reals that read back, and if its
document is not too deep. This goes decoder by decoder: from what a decoder for parts reads back follows what
the decoder for the whole reads back.
-/

namespace MiniPascal

open Decoder

/-! ## Single values -/

/-- What is written for a real is read as that real. -/
def ReadsBack (r : Float) : Prop :=
  Json.decode? Decoder.real (Json.ofReal r).text = some r

@[simp] theorem spelled_ofReal (r : Float) : (Json.ofReal r).Spelled := by
  unfold Json.ofReal
  split
  next finite => exact Json.isNumber_real _ finite
  next => trivial

theorem readsBack_iff {n : Nat} {r : Float} : ReadsBack r ↔ Decoder.real n (.ofReal r) = some r := by
  have anywhere : Decoder.real Json.nestingLimit (.ofReal r) = Decoder.real n (.ofReal r) := by
    unfold Json.ofReal
    split <;> rfl
  rw [ReadsBack, Json.decode?, Json.parse?_text (spelled_ofReal r), Option.bind_some, anywhere]

/-- Infinities and NaN are written as `null`, which is no real. -/
theorem ReadsBack.isFinite {r : Float} (reads : ReadsBack r) : Decimal.Binary64.isFinite r = true := by
  have decoded := (readsBack_iff (n := 0)).mp reads
  unfold Json.ofReal at decoded
  split at decoded
  next finite => exact finite
  next => cases decoded

theorem index_written {n : Nat} {i k : SymbolIndex} :
    SymbolIndex.decoder n (.ofNat i) = some k ↔ i = k ∧ i < 2 ^ 64 :=
  natural_written 64

theorem reads_natural (width n : Nat) : (natural width).Reads n .ofNat (· < 2 ^ width) := fun m _ i => by
  simp [natural_written]

theorem int64_written {n : Nat} {v : Int} : Decoder.int64 n (.ofInt v) = some v ↔ IsInt64 v := by
  rw [Decoder.int64, integer_ofInt]
  exact ite_eq_left_iff.trans (by simp [IsInt64])

/-! ## Places -/

@[simp] theorem Position.depth_toJson (p : Position) : p.toJson.depth = 1 := rfl

@[simp] theorem Reference.depth_toJson (r : Reference) : (Reference.toJson r).depth = 2 := rfl

theorem position_written {n : Nat} {p q : Position} :
    Position.decoder n p.toJson = some q ↔ p = q ∧ p.Writable ∧ 1 ≤ n := by
  cases n with
  | zero => exact iff_of_false nofun fun written => Nat.not_succ_le_zero 0 written.2.2
  | succ n =>
    obtain ⟨line, column⟩ := p
    rw [Position.decoder, Position.toJson, record_written _ _ (by rfl) (by decide)]
    simp [Option.bind_eq_some_iff, natural_written, Position.writable_iff, -Nat.reducePow]
    tauto

theorem reads_reference (n : Nat) : Reference.decoder.Reads (n + 1) Reference.toJson Reference.Writable := by
  refine reads_record (fun _ => rfl) (by decide) fun m _ r => ?_
  obtain ⟨pos, value⟩ := r
  simp [Option.bind_eq_some_iff, position_written, index_written, Reference.writable_iff, -Nat.reducePow]
  tauto

/-! ## Parts of trees -/

section Parts

variable {α β : Type} {n : Nat} {decoder : Decoder α} {write : α → Json} {Good : α → Prop}

theorem reads_operands {ofTag? : String → Option β} {tag : β → String} (known : ∀ op, ofTag? (tag op) = some op)
    (reads : decoder.Reads n write Good) :
    (Decoder.operands ofTag? decoder).Reads (n + 1)
      (fun operation => operands (tag operation.1) (write operation.2.1) (write operation.2.2))
      fun operation => Good operation.2.1 ∧ Good operation.2.2 := by
  refine reads_record (fun _ => rfl) (by decide) fun m small operation => ?_
  obtain ⟨op, left, right⟩ := operation
  have named_tag : named ofTag? m (.ofString (tag op)) = some op := known op
  simp [Option.bind_eq_some_iff, named_tag, reads m small]
  tauto

theorem reads_call (optional : Bool) (reads : decoder.Reads n write Good) :
    (Decoder.call optional decoder).Reads (n + 2)
      (fun call => .record [("callee", Reference.toJson call.1), ("args", .array (call.2.map write))])
      fun call => Reference.Writable call.1 ∧ ∀ arg ∈ call.2, Good arg := by
  refine reads_record (fun _ => rfl) (by decide) fun m small call => ?_
  obtain ⟨callee, args⟩ := call
  have callee_reads := reads_reference n m small callee
  have args_read := reads.list m small args
  cases optional <;> simp [Option.bind_eq_some_iff, callee_reads, args_read] <;> tauto

theorem reads_element (reads : decoder.Reads n write Good) :
    (Decoder.element decoder).Reads (n + 1)
      (fun element => .record [("array", Reference.toJson element.1), ("index", write element.2)])
      fun element => Reference.Writable element.1 ∧ Good element.2 := by
  refine reads_record (fun _ => rfl) (by decide) fun m small element => ?_
  obtain ⟨array, index⟩ := element
  simp [Option.bind_eq_some_iff, reads_reference n m (by omega) array, reads m small]
  tauto

end Parts

/-! ## Expressions -/

theorem argDocuments_eq (es : List Expr) : argDocuments es = es.map Expr.toJson := by
  induction es with
  | nil => rfl
  | cons e es ih => rw [argDocuments, ih, List.map_cons]

theorem all_argParts {P : Expr → Prop} {es : List Expr} : All P (argParts es) ↔ ∀ e ∈ es, All P e.parts := by
  induction es with
  | nil => exact iff_of_true all_nil (List.forall_mem_nil _)
  | cons e es ih => rw [argParts, all_append, ih, List.forall_mem_cons]

theorem Expr.writable_iff (R : Float → Prop) (e : Expr) :
    e.Writable R ↔ e.note.Writable ∧ e.OwnWritable R ∧ All (Expr.NodeWritable R) e.inner := by
  rw [Expr.Writable, Expr.parts_eq, all_cons, Expr.nodeWritable_iff, and_assoc]

theorem Expr.toJson_document (e : Expr) : ∃ kind content, e.toJson = e.note.document kind content := by
  cases e <;> exact ⟨_, _, rfl⟩

theorem Expr.toJson_ne_null (e : Expr) : e.toJson ≠ .null := by
  obtain ⟨kind, content, document⟩ := e.toJson_document
  rw [document]
  exact nofun

section Document

variable {h n : Nat} {note : Note} {kind : String} {content : Json}

theorem depth_document_le : (note.document kind content).depth ≤ n + 2 ↔ content.depth ≤ n := by
  rw [Note.document, Json.depth_record_le]
  simp

theorem depth_document_low (low : n < 2) : ¬(note.document kind content).depth ≤ n := by
  match n with
  | 0 => exact Json.depth_record_zero
  | 1 =>
    rw [Note.document, Json.depth_record_le]
    simp [Json.alternative]

theorem expr_document_low (low : n < 2) : Expr.decoderBelow h n (note.document kind content) = none := by
  cases h with
  | zero => rfl
  | succ h =>
    match n with
    | 0 => rfl
    | 1 =>
      have closed {pos expr} : Expr.kindDecoder pos expr 0 (.alternative kind content) = none := rfl
      rw [Expr.decoderBelow, Note.document, record_written _ _ (by rfl) (by decide)]
      simp [closed]

/-- Around the kind of an expression there is its note. -/
theorem expr_document {e : Expr} :
    Expr.decoderBelow (h + 1) (n + 2) (note.document kind content) = some e ↔
      note.Writable ∧ ∃ e', Expr.kindDecoder note.pos (Expr.decoderBelow h) (n + 1) (.alternative kind content) =
        some e' ∧ e'.withType note.type = e := by
  obtain ⟨pos, type⟩ := note
  have given : nullable SymbolIndex.decoder (n + 1) (.ofNat type) =
      (SymbolIndex.decoder (n + 1) (.ofNat type)).map some := rfl
  rw [Expr.decoderBelow, Note.document, record_written _ _ (by rfl) (by decide)]
  simp [Option.bind_eq_some_iff, position_written, given, index_written, Note.writable_iff, Expr.annotate, and_assoc]

end Document

theorem BinaryOp.ofTag?_tag (op : BinaryOp) : BinaryOp.ofTag? op.tag = some op := by
  cases op <;> rfl

theorem RelationOp.ofTag?_tag (op : RelationOp) : RelationOp.ofTag? op.tag = some op := by
  cases op <;> rfl

theorem reads_exprBelow (h : Nat) :
    (Expr.decoderBelow h).Reads h Expr.toJson (Expr.Writable ReadsBack) := by
  induction h with
  | zero =>
    intro n small e
    obtain ⟨kind, content, document⟩ := e.toJson_document
    rw [document, expr_document_low (by omega)]
    exact iff_of_false nofun fun good => depth_document_low (by omega) good.2
  | succ h ih =>
    intro n small e
    by_cases low : n < 2
    · obtain ⟨kind, content, document⟩ := e.toJson_document
      rw [document, expr_document_low low]
      exact iff_of_false nofun fun good => depth_document_low low good.2
    obtain ⟨n, rfl⟩ : ∃ m, n = m + 2 := ⟨n - 2, by omega⟩
    have small : n ≤ h := by omega
    rw [Expr.writable_iff]
    cases e with
    | name note s =>
      rw [Expr.toJson, expr_document, depth_document_le]
      simp [Expr.kindDecoder, Expr.withType, Expr.inner, Expr.note, Expr.OwnWritable, index_written, all_nil,
        -Nat.reducePow]
    | element note array index =>
      have decoded := reads_element ih n (by omega) (array, index)
      rw [Expr.toJson, expr_document, depth_document_le]
      simp [Expr.kindDecoder, Expr.withType, Expr.inner, Expr.note, Expr.OwnWritable, decoded]
      tauto
    | integer note v =>
      rw [Expr.toJson, expr_document, depth_document_le]
      simp [Expr.kindDecoder, Expr.withType, Expr.inner, Expr.note, Expr.OwnWritable, int64_written, all_nil]
    | real note v =>
      rw [Expr.toJson, expr_document, depth_document_le]
      simp [Expr.kindDecoder, Expr.withType, Expr.inner, Expr.note, Expr.OwnWritable, ← readsBack_iff, all_nil]
    | cast note inner | negate note inner | not note inner =>
      rw [Expr.toJson, expr_document, depth_document_le]
      simp [Expr.kindDecoder, Expr.withType, Expr.inner, Expr.note, Expr.OwnWritable, ih n small inner, and_assoc]
    | call note callee args =>
      have decoded := reads_call false ih n (by omega) (callee, args)
      rw [Expr.toJson, expr_document, depth_document_le, argDocuments_eq]
      simp [Expr.kindDecoder, Expr.withType, Expr.inner, Expr.note, Expr.OwnWritable, decoded, all_argParts]
      tauto
    | binary note op left right =>
      have decoded := reads_operands BinaryOp.ofTag?_tag ih n (by omega) (op, left, right)
      rw [Expr.toJson, expr_document, depth_document_le]
      simp [Expr.kindDecoder, Expr.withType, Expr.inner, Expr.note, Expr.OwnWritable, decoded, all_append]
      tauto
    | relation note op left right =>
      have decoded := reads_operands RelationOp.ofTag?_tag ih n (by omega) (op, left, right)
      rw [Expr.toJson, expr_document, depth_document_le]
      simp [Expr.kindDecoder, Expr.withType, Expr.inner, Expr.note, Expr.OwnWritable, decoded, all_append]
      tauto

theorem reads_expr (n : Nat) : Expr.decoder.Reads n Expr.toJson (Expr.Writable ReadsBack) := fun m _ e =>
  reads_exprBelow m m (Nat.le_refl m) e

/-! ## Statements -/

theorem bodyDocuments_eq (b : Body) : bodyDocuments b = b.map Stmt.toJson := by
  induction b with
  | nil => rfl
  | cons s b ih => rw [bodyDocuments, ih, List.map_cons]

theorem elsifDocuments_eq (es : List Elsif) : elsifDocuments es = es.map Elsif.toJson := by
  induction es with
  | nil => rfl
  | cons e es ih => rw [elsifDocuments, ih, List.map_cons]

section Document

variable {h n : Nat} {p : Position} {kind : String} {content : Json}

theorem depth_positionDocument_le : (p.document kind content).depth ≤ n + 2 ↔ content.depth ≤ n := by
  rw [Position.document, Json.depth_record_le]
  simp

theorem depth_positionDocument_low (low : n < 2) : ¬(p.document kind content).depth ≤ n := by
  match n with
  | 0 => exact Json.depth_record_zero
  | 1 =>
    rw [Position.document, Json.depth_record_le]
    simp [Json.alternative]

theorem stmt_document_low (low : n < 2) : Stmt.decoderBelow h n (p.document kind content) = none := by
  cases h with
  | zero => rfl
  | succ h =>
    match n with
    | 0 => rfl
    | 1 =>
      have closed {pos stmt} : Stmt.kindDecoder pos stmt 0 (.alternative kind content) = none := rfl
      rw [Stmt.decoderBelow, Position.document, record_written _ _ (by rfl) (by decide)]
      simp [closed]

theorem stmt_document {s : Stmt} :
    Stmt.decoderBelow (h + 1) (n + 2) (p.document kind content) = some s ↔
      p.Writable ∧ Stmt.kindDecoder p (Stmt.decoderBelow h) (n + 1) (.alternative kind content) = some s := by
  rw [Stmt.decoderBelow, Position.document, record_written _ _ (by rfl) (by decide)]
  simp [Option.bind_eq_some_iff, position_written, and_assoc]

end Document

theorem Stmt.toJson_document (s : Stmt) : ∃ kind content, s.toJson = s.pos.document kind content := by
  match s with
  | .assign .. | .branch _ _ _ _ none | .branch _ _ _ _ (some _) | .loop .. | .ret .. | .call .. => exact ⟨_, _, rfl⟩

theorem reads_elsif {stmt : Decoder Stmt} {n : Nat} (reads : stmt.Reads n Stmt.toJson (Stmt.Writable ReadsBack)) :
    (Elsif.decoder stmt).Reads (n + 1) Elsif.toJson (Elsif.Writable ReadsBack) := by
  intro m small e
  obtain ⟨p, condition, body⟩ := e
  rw [Elsif.toJson, bodyDocuments_eq]
  refine record_iff _ (by rfl) (by decide) fun m equal => ?_
  have body_reads := reads.list m (by omega) body
  simp [Option.bind_eq_some_iff, position_written, reads_expr m m (Nat.le_refl m), body_reads, body_writable_iff,
    Elsif.writable_iff, Elsif.Placed, Elsif.parts, all_append]
  tauto

theorem stmt_branch {h n : Nat} (small : n ≤ h)
    (reads : (Stmt.decoderBelow h).Reads h Stmt.toJson (Stmt.Writable ReadsBack)) {p : Position} {condition : Expr}
    {body : Body} {elsifs : List Elsif} {otherwise : Option Body} :
    Stmt.decoderBelow (h + 1) (n + 2) (Stmt.branch p condition body elsifs otherwise).toJson =
        some (.branch p condition body elsifs otherwise) ↔
      (Stmt.branch p condition body elsifs otherwise).Writable ReadsBack ∧
        (Stmt.branch p condition body elsifs otherwise).toJson.depth ≤ n + 2 := by
  have exprs (m : Nat) := reads_expr m m (Nat.le_refl m)
  cases otherwise with
  | none =>
    rw [Stmt.writable_iff, Stmt.toJson, stmt_document, depth_positionDocument_le, bodyDocuments_eq, elsifDocuments_eq]
    simp only [Stmt.kindDecoder, alternative_written]
    rw [record_iff (condition.Writable ReadsBack ∧ (∀ s ∈ body, s.Writable ReadsBack) ∧
      ∀ e ∈ elsifs, e.Writable ReadsBack) (by rfl) (by decide)]
    · simp [Stmt.Placed, Stmt.parts, all_append, body_writable_iff, elsifs_writable_iff]
      tauto
    · intro m equal
      have missing {stmt} : nullable (list stmt) m .null = some (none : Option Body) := rfl
      simp [Option.bind_eq_some_iff, exprs m, reads.list m (by omega) body,
        (reads_elsif reads).list m (by omega) elsifs, missing]
      tauto
  | some otherwise =>
    rw [Stmt.writable_iff, Stmt.toJson, stmt_document, depth_positionDocument_le, bodyDocuments_eq, elsifDocuments_eq,
      bodyDocuments_eq]
    simp only [Stmt.kindDecoder, alternative_written]
    rw [record_iff (condition.Writable ReadsBack ∧ (∀ s ∈ body, s.Writable ReadsBack) ∧
      (∀ e ∈ elsifs, e.Writable ReadsBack) ∧ ∀ s ∈ otherwise, s.Writable ReadsBack) (by rfl) (by decide)]
    · simp [Stmt.Placed, Stmt.parts, all_append, body_writable_iff, elsifs_writable_iff]
      tauto
    · intro m equal
      have rest := reads.list.nullable (fun _ => Json.array_ne_null _) m (by omega) (some otherwise)
      simp only [Json.orNull] at rest
      simp [Option.bind_eq_some_iff, exprs m, reads.list m (by omega) body,
        (reads_elsif reads).list m (by omega) elsifs, rest]
      tauto

theorem reads_stmtBelow (h : Nat) : (Stmt.decoderBelow h).Reads h Stmt.toJson (Stmt.Writable ReadsBack) := by
  induction h with
  | zero =>
    intro n small s
    obtain ⟨kind, content, document⟩ := s.toJson_document
    rw [document, stmt_document_low (by omega)]
    exact iff_of_false nofun fun good => depth_positionDocument_low (by omega) good.2
  | succ h ih =>
    intro n small s
    by_cases low : n < 2
    · obtain ⟨kind, content, document⟩ := s.toJson_document
      rw [document, stmt_document_low low]
      exact iff_of_false nofun fun good => depth_positionDocument_low low good.2
    obtain ⟨n, rfl⟩ : ∃ m, n = m + 2 := ⟨n - 2, by omega⟩
    have small : n ≤ h := by omega
    have exprs (m : Nat) := reads_expr m m (Nat.le_refl m)
    cases s with
    | assign p target value =>
      rw [Stmt.writable_iff, Stmt.toJson, stmt_document, depth_positionDocument_le]
      simp only [Stmt.kindDecoder, alternative_written]
      rw [record_iff (target.Writable ReadsBack ∧ value.Writable ReadsBack) (by rfl) (by decide)]
      · simp [Stmt.Placed, Stmt.parts, all_append]
        tauto
      · intro m equal
        simp [Option.bind_eq_some_iff, exprs m]
        tauto
    | loop p condition body =>
      rw [Stmt.writable_iff, Stmt.toJson, stmt_document, depth_positionDocument_le, bodyDocuments_eq]
      simp only [Stmt.kindDecoder, alternative_written]
      rw [record_iff (condition.Writable ReadsBack ∧ ∀ s ∈ body, s.Writable ReadsBack) (by rfl) (by decide)]
      · simp [Stmt.Placed, Stmt.parts, all_append, body_writable_iff]
        tauto
      · intro m equal
        simp [Option.bind_eq_some_iff, exprs m, ih.list m (by omega) body]
        tauto
    | branch p condition body elsifs otherwise => exact stmt_branch small ih
    | ret p value =>
      rw [Stmt.writable_iff, Stmt.toJson, stmt_document, depth_positionDocument_le]
      simp only [Stmt.kindDecoder, alternative_written]
      rw [record_iff (∀ e ∈ value, e.Writable ReadsBack) (by rfl) (by decide)]
      · cases value <;> simp [Stmt.Placed, Stmt.parts]
        tauto
      · intro m equal
        simp [Option.bind_eq_some_iff, (reads_expr m).nullable Expr.toJson_ne_null m (Nat.le_refl m) value]
    | call p callee args =>
      have decoded := reads_call true (reads_expr n) n (by omega) (callee, args)
      rw [Stmt.writable_iff, Stmt.toJson, stmt_document, depth_positionDocument_le, argDocuments_eq]
      simp [Stmt.kindDecoder, decoded, Stmt.Placed, Stmt.parts, all_argParts]
      tauto

theorem reads_stmt (n : Nat) : Stmt.decoder.Reads n Stmt.toJson (Stmt.Writable ReadsBack) := fun m _ s =>
  reads_stmtBelow m m (Nat.le_refl m) s

/-! ## Symbols -/

theorem SymbolKind.ofTag?_tag (k : SymbolKind) : SymbolKind.ofTag? k.tag = some k := by
  cases k <;> rfl

theorem reads_constant (n : Nat) : Constant.decoder.Reads n Constant.toJson (Constant.Writable ReadsBack) := by
  intro m _ c
  cases m with
  | zero =>
    refine iff_of_false nofun fun good => ?_
    cases c <;> exact Json.depth_record_zero good.2
  | succ m =>
    cases c with
    | integer v => simp [Constant.toJson, Constant.decoder, Constant.Writable, int64_written]
    | real v => simp [Constant.toJson, Constant.decoder, Constant.Writable, ← readsBack_iff]

theorem reads_symbol (n : Nat) : Symbol.decoder.Reads n Symbol.toJson (Symbol.Writable ReadsBack) := by
  intro m _ s
  obtain ⟨name, kind, type, params, value, size⟩ := s
  refine record_iff _ (by rfl) (by decide) fun m equal => ?_
  have name_reads : Decoder.string m (.ofString name) = some name := rfl
  have kind_reads : named SymbolKind.ofTag? m (.ofString kind.tag) = some kind := kind.ofTag?_tag
  have params_read : (list SymbolIndex.decoder) m (.array (params.map .ofNat)) = some params ↔ _ :=
    (reads_natural 64 m).list m (by omega) params
  have value_reads := (reads_constant m).nullable (fun c => by cases c <;> exact nofun) m (by omega) value
  have size_reads := (reads_natural 64 m).nullable (fun _ => nofun) m (by omega) size
  simp [Option.bind_eq_some_iff, index_written, name_reads, kind_reads, params_read, value_reads, size_reads,
    Symbol.writable_iff, -Nat.reducePow]
  tauto

theorem reads_table (n : Nat) : SymbolTable.decoder.Reads n SymbolTable.toJson (SymbolTable.Writable ReadsBack) := by
  intro m _ t
  obtain ⟨symbols, program, environments, names⟩ := t
  refine record_iff _ (by rfl) (by decide) fun m equal => ?_
  simp [Option.bind_eq_some_iff, index_written, (reads_symbol m).list m (by omega) symbols, SymbolTable.writable_iff,
    -Nat.reducePow]
  tauto

/-! ## Programs -/

theorem reads_routine (n : Nat) : Routine.decoder.Reads n Routine.toJson (Routine.Writable ReadsBack) := by
  intro m _ r
  obtain ⟨env, body⟩ := r
  rw [Routine.toJson, Body.toJson, bodyDocuments_eq]
  refine record_iff _ (by rfl) (by decide) fun m equal => ?_
  have body_reads : Body.decoder m (.array (body.map Stmt.toJson)) = some body ↔ _ :=
    (reads_stmt m).list m (by omega) body
  simp [Option.bind_eq_some_iff, index_written, body_reads, Routine.writable_iff, -Nat.reducePow]
  tauto

/-- A program is read back just if it is writable, with reals that read back, and its document is not too
deep. -/
theorem reads_program (n : Nat) : Program.decoder.Reads n Program.toJson (Program.Writable ReadsBack) := by
  intro m _ p
  obtain ⟨table, routines⟩ := p
  refine record_iff _ (by rfl) (by decide) fun m equal => ?_
  simp [Option.bind_eq_some_iff, reads_table m m (Nat.le_refl m), (reads_routine m).list m (by omega) routines,
    Program.writable_iff]
  tauto

end MiniPascal
