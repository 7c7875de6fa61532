import MiniPascal.Proofs.Documents.Written
import MiniPascal.Proofs.Doubles.Reading

/-!
# Decoded programs can be written

Whatever document a program is decoded from, all that is in the program can be written, its reals are finite,
and its own document is not too deep for the decoder. So it is decoded again from its own document, if its
reals are read back.
-/

namespace MiniPascal

open Decoder

/-! ## Single values -/

abbrev IsFinite (r : Float) : Prop :=
  Decimal.Binary64.isFinite r = true

theorem gives_integer (least greatest : Int) :
    (integer least greatest).Gives fun _ v => least ≤ v ∧ v ≤ greatest := by
  intro n j v decoded
  unfold integer at decoded
  split at decoded
  · simp only [Option.bind_eq_bind, Option.bind_eq_some_iff] at decoded
    obtain ⟨numeral, -, w, -, inside⟩ := decoded
    split_ifs at inside with range
    cases inside
    exact range
  · cases decoded

theorem gives_natural (width : Nat) : (natural width).Gives fun _ m => m < 2 ^ width := by
  intro n j m decoded
  obtain ⟨v, read, rfl⟩ := Option.map_eq_some_iff.mp decoded
  have range := gives_integer _ _ n j v read
  have positive := Nat.two_pow_pos width
  change 0 ≤ v ∧ v ≤ (2 ^ width - 1 : Nat) at range
  omega

theorem gives_real : real.Gives fun _ r => IsFinite r := by
  intro n j r decoded
  unfold real at decoded
  split at decoded
  · obtain ⟨numeral, -, read⟩ := Option.bind_eq_some_iff.mp decoded
    exact Doubles.isFinite_stepwiseReal? read
  · cases decoded

/-! ## Places -/

theorem gives_position : Position.decoder.Gives fun n p => p.Writable ∧ 1 ≤ n := by
  refine gives_record fun n fields p decoded => ?_
  obtain ⟨line, line_found, decoded⟩ := Option.bind_eq_some_iff.mp decoded
  obtain ⟨column, column_found, decoded⟩ := Option.bind_eq_some_iff.mp decoded
  cases decoded
  exact ⟨⟨(gives_natural 32).required line_found, (gives_natural 32).required column_found⟩, by omega⟩

theorem gives_reference : Reference.decoder.Gives fun n r => Reference.Writable r ∧ 2 ≤ n := by
  refine gives_record fun n fields r decoded => ?_
  obtain ⟨pos, pos_found, decoded⟩ := Option.bind_eq_some_iff.mp decoded
  obtain ⟨value, value_found, decoded⟩ := Option.bind_eq_some_iff.mp decoded
  cases decoded
  obtain ⟨pos_writable, deep⟩ := gives_position.required pos_found
  exact ⟨⟨pos_writable, (gives_natural 64).required value_found⟩, by omega⟩

/-! ## Parts of trees -/

section Parts

variable {α β : Type} {decoder : Decoder α} {write : α → Json} {Good : α → Prop}
  (gives : decoder.Gives fun n a => Good a ∧ (write a).depth ≤ n)
include gives

theorem gives_written_list :
    (list decoder).Gives fun n as => (∀ a ∈ as, Good a) ∧ (Json.array (as.map write)).depth ≤ n := by
  intro n j as decoded
  obtain ⟨m, rfl, each⟩ := gives_list gives n j as decoded
  refine ⟨fun a member => (each a member).1, ?_⟩
  rw [Json.depth_array_le, List.forall_mem_map]
  exact fun a member => (each a member).2

theorem gives_operands (ofTag? : String → Option β) (tag : β → String) :
    (Decoder.operands ofTag? decoder).Gives fun n operation =>
      (Good operation.2.1 ∧ Good operation.2.2) ∧
        (operands (tag operation.1) (write operation.2.1) (write operation.2.2)).depth ≤ n := by
  refine gives_record fun n fields operation decoded => ?_
  obtain ⟨op, -, decoded⟩ := Option.bind_eq_some_iff.mp decoded
  obtain ⟨left, left_found, decoded⟩ := Option.bind_eq_some_iff.mp decoded
  obtain ⟨right, right_found, decoded⟩ := Option.bind_eq_some_iff.mp decoded
  cases decoded
  obtain ⟨left_good, left_depth⟩ := gives.required left_found
  obtain ⟨right_good, right_depth⟩ := gives.required right_found
  refine ⟨⟨left_good, right_good⟩, ?_⟩
  rw [operands, Json.depth_record_le]
  simp [left_depth, right_depth]

theorem gives_call (optional : Bool) :
    (Decoder.call optional decoder).Gives fun n call =>
      (Reference.Writable call.1 ∧ ∀ arg ∈ call.2, Good arg) ∧
        (Json.record [("callee", Reference.toJson call.1), ("args", .array (call.2.map write))]).depth ≤ n := by
  refine gives_record fun n fields call decoded => ?_
  obtain ⟨callee, callee_found, decoded⟩ := Option.bind_eq_some_iff.mp decoded
  obtain ⟨args, args_found, decoded⟩ := Option.bind_eq_some_iff.mp decoded
  cases decoded
  obtain ⟨callee_writable, deep⟩ := gives_reference.required callee_found
  -- missing arguments are an empty list, and the callee is deep enough for that
  have args_good : (∀ arg ∈ args, Good arg) ∧ (Json.array (args.map write)).depth ≤ n := by
    split at args_found
    · refine (gives_written_list gives).defaulted ⟨List.forall_mem_nil _, ?_⟩ args_found
      exact Nat.le_of_succ_le deep
    · exact (gives_written_list gives).required args_found
  refine ⟨⟨callee_writable, args_good.1⟩, ?_⟩
  rw [Json.depth_record_le]
  simp [deep, args_good.2]

theorem gives_element :
    (Decoder.element decoder).Gives fun n element =>
      (Reference.Writable element.1 ∧ Good element.2) ∧
        (Json.record [("array", Reference.toJson element.1), ("index", write element.2)]).depth ≤ n := by
  refine gives_record fun n fields element decoded => ?_
  obtain ⟨array, array_found, decoded⟩ := Option.bind_eq_some_iff.mp decoded
  obtain ⟨index, index_found, decoded⟩ := Option.bind_eq_some_iff.mp decoded
  cases decoded
  obtain ⟨array_writable, deep⟩ := gives_reference.required array_found
  obtain ⟨index_good, index_depth⟩ := gives.required index_found
  refine ⟨⟨array_writable, index_good⟩, ?_⟩
  rw [Json.depth_record_le]
  simp [deep, index_depth]

end Parts

/-! ## Expressions -/

theorem Expr.ownWritable_withType {R : Float → Prop} (t : SymbolIndex) (e : Expr) :
    (e.withType t).OwnWritable R ↔ e.OwnWritable R := by
  cases e <;> rfl

theorem Expr.inner_withType (t : SymbolIndex) (e : Expr) : (e.withType t).inner = e.inner := by
  cases e <;> rfl

/-- Without a type an expression gets one of the first three. -/
theorem annotate_eq (type : Option SymbolIndex) (short : ∀ t ∈ type, t < 2 ^ 64) (e : Expr) :
    ∃ t < 2 ^ 64, e.annotate type = e.withType t := by
  cases type with
  | some t => exact ⟨t, short t rfl, rfl⟩
  | none =>
    refine ⟨e.initialType, ?_, rfl⟩
    have few : e.initialType ≤ realType := by cases e <;> simp [Expr.initialType]
    exact lt_of_builtin few

/-- What the kind of an expression tells of it, whatever its type will be. -/
structure Expr.KindDecoded (pos : Position) (n : Nat) (e : Expr) : Prop where
  pos : e.pos = pos
  own : e.OwnWritable IsFinite
  inner : All (Expr.NodeWritable IsFinite) e.inner
  depth : ∀ t, (e.withType t).toJson.depth ≤ n + 1

theorem gives_exprKind (pos : Position) {expr : Decoder Expr}
    (gives : expr.Gives fun n e => e.Writable IsFinite ∧ e.toJson.depth ≤ n) :
    (Expr.kindDecoder pos expr).Gives (Expr.KindDecoded pos) := by
  refine gives_alternative fun kind n j e decoded => ?_
  dsimp only at decoded
  split at decoded
  next =>
    obtain ⟨s, found, rfl⟩ := Option.map_eq_some_iff.mp decoded
    exact ⟨rfl, gives_natural 64 n j s found, all_nil, fun t => depth_document_le.mpr (Nat.zero_le n)⟩
  next =>
    obtain ⟨⟨array, index⟩, found, rfl⟩ := Option.map_eq_some_iff.mp decoded
    obtain ⟨⟨array_writable, index_writable⟩, deep⟩ := gives_element gives n j _ found
    exact ⟨rfl, array_writable, index_writable, fun t => depth_document_le.mpr deep⟩
  next =>
    obtain ⟨v, found, rfl⟩ := Option.map_eq_some_iff.mp decoded
    exact ⟨rfl, gives_integer _ _ n j v found, all_nil, fun t => depth_document_le.mpr (Nat.zero_le n)⟩
  next =>
    obtain ⟨v, found, rfl⟩ := Option.map_eq_some_iff.mp decoded
    refine ⟨rfl, gives_real n j v found, all_nil, fun t => depth_document_le.mpr ?_⟩
    rw [Json.depth_ofReal]
    exact Nat.zero_le n
  next =>
    obtain ⟨inner, found, rfl⟩ := Option.map_eq_some_iff.mp decoded
    obtain ⟨inner_writable, deep⟩ := gives n j inner found
    exact ⟨rfl, trivial, inner_writable, fun t => depth_document_le.mpr deep⟩
  next =>
    obtain ⟨inner, found, rfl⟩ := Option.map_eq_some_iff.mp decoded
    obtain ⟨inner_writable, deep⟩ := gives n j inner found
    exact ⟨rfl, trivial, inner_writable, fun t => depth_document_le.mpr deep⟩
  next =>
    obtain ⟨inner, found, rfl⟩ := Option.map_eq_some_iff.mp decoded
    obtain ⟨inner_writable, deep⟩ := gives n j inner found
    exact ⟨rfl, trivial, inner_writable, fun t => depth_document_le.mpr deep⟩
  next =>
    obtain ⟨⟨callee, args⟩, found, rfl⟩ := Option.map_eq_some_iff.mp decoded
    obtain ⟨⟨callee_writable, args_writable⟩, deep⟩ := gives_call gives false n j _ found
    refine ⟨rfl, callee_writable, all_argParts.mpr args_writable, fun t => depth_document_le.mpr ?_⟩
    rw [argDocuments_eq]
    exact deep
  next =>
    obtain ⟨⟨op, left, right⟩, found, rfl⟩ := Option.map_eq_some_iff.mp decoded
    obtain ⟨⟨left_writable, right_writable⟩, deep⟩ := gives_operands gives _ BinaryOp.tag n j _ found
    exact ⟨rfl, trivial, all_append.mpr ⟨left_writable, right_writable⟩, fun t => depth_document_le.mpr deep⟩
  next =>
    obtain ⟨⟨op, left, right⟩, found, rfl⟩ := Option.map_eq_some_iff.mp decoded
    obtain ⟨⟨left_writable, right_writable⟩, deep⟩ := gives_operands gives _ RelationOp.tag n j _ found
    exact ⟨rfl, trivial, all_append.mpr ⟨left_writable, right_writable⟩, fun t => depth_document_le.mpr deep⟩
  next => cases decoded

theorem gives_exprBelow (h : Nat) :
    (Expr.decoderBelow h).Gives fun n e => e.Writable IsFinite ∧ e.toJson.depth ≤ n := by
  induction h with
  | zero => exact fun _ _ _ => nofun
  | succ h ih =>
    refine gives_record fun n fields e decoded => ?_
    obtain ⟨pos, pos_found, decoded⟩ := Option.bind_eq_some_iff.mp decoded
    obtain ⟨type, type_found, decoded⟩ := Option.bind_eq_some_iff.mp decoded
    obtain ⟨bare, kind_found, decoded⟩ := Option.bind_eq_some_iff.mp decoded
    cases decoded
    obtain ⟨pos_writable, -⟩ := gives_position.required pos_found
    have kind := (gives_exprKind pos ih).required kind_found
    obtain ⟨t, short, annotated⟩ := annotate_eq type ((gives_natural 64).optional type_found) bare
    rw [annotated, Expr.writable_iff, Expr.ownWritable_withType, Expr.inner_withType]
    have note : (bare.withType t).note.Writable := by
      constructor
      · have place : (bare.withType t).note.pos = pos := (bare.pos_withType t).trans kind.pos
        rw [place]
        exact pos_writable
      · have stored : (bare.withType t).note.type = t := bare.type_withType t
        rw [stored]
        exact short
    exact ⟨⟨note, kind.own, kind.inner⟩, kind.depth t⟩

theorem gives_expr : Expr.decoder.Gives fun n e => e.Writable IsFinite ∧ e.toJson.depth ≤ n := fun n =>
  gives_exprBelow n n

/-! ## Statements -/

/-- A conditional statement holds no more than its parts, and opens three containers around them. -/
theorem branch_given {p : Position} {condition : Expr} {body : Body} {elsifs : List Elsif} {otherwise : Option Body}
    {n : Nat} (pos_writable : p.Writable) (condition_given : condition.Writable IsFinite ∧ condition.toJson.depth ≤ n)
    (body_given : (∀ s ∈ body, s.Writable IsFinite) ∧ (Json.array (bodyDocuments body)).depth ≤ n)
    (elsifs_given : (∀ e ∈ elsifs, e.Writable IsFinite) ∧ (Json.array (elsifs.map Elsif.toJson)).depth ≤ n)
    (otherwise_given : ∀ b ∈ otherwise,
      (∀ s ∈ b, s.Writable IsFinite) ∧ (Json.array (bodyDocuments b)).depth ≤ n) :
    (Stmt.branch p condition body elsifs otherwise).Writable IsFinite ∧
      (Stmt.branch p condition body elsifs otherwise).toJson.depth ≤ n + 1 + 1 + 1 := by
  obtain ⟨condition_writable, condition_depth⟩ := condition_given
  obtain ⟨body_writable, body_depth⟩ := body_given
  obtain ⟨elsifs_writable, elsifs_depth⟩ := elsifs_given
  obtain ⟨placed, parts⟩ := body_writable_iff.mp body_writable
  obtain ⟨elsifs_placed, elsifs_parts⟩ := elsifs_writable_iff.mp elsifs_writable
  rw [← elsifDocuments_eq] at elsifs_depth
  cases otherwise with
  | none =>
    refine ⟨⟨⟨pos_writable, placed, elsifs_placed⟩,
      all_append.mpr ⟨all_append.mpr ⟨condition_writable, parts⟩, elsifs_parts⟩⟩, ?_⟩
    rw [Stmt.toJson, depth_positionDocument_le, Json.depth_record_le]
    simp [condition_depth, body_depth, elsifs_depth]
  | some otherwise =>
    obtain ⟨otherwise_writable, otherwise_depth⟩ := otherwise_given otherwise rfl
    obtain ⟨otherwise_placed, otherwise_parts⟩ := body_writable_iff.mp otherwise_writable
    refine ⟨⟨⟨pos_writable, placed, elsifs_placed, otherwise_placed⟩, all_append.mpr ⟨all_append.mpr
      ⟨all_append.mpr ⟨condition_writable, parts⟩, elsifs_parts⟩, otherwise_parts⟩⟩, ?_⟩
    rw [Stmt.toJson, depth_positionDocument_le, Json.depth_record_le]
    simp [condition_depth, body_depth, elsifs_depth, otherwise_depth]

section Body

variable {stmt : Decoder Stmt} (gives : stmt.Gives fun n s => s.Writable IsFinite ∧ s.toJson.depth ≤ n)
include gives

theorem gives_body :
    (list stmt).Gives fun n b => (∀ s ∈ b, s.Writable IsFinite) ∧ (Json.array (bodyDocuments b)).depth ≤ n := by
  simp only [bodyDocuments_eq]
  exact gives_written_list gives

theorem gives_elsif :
    (Elsif.decoder stmt).Gives fun n e => e.Writable IsFinite ∧ e.toJson.depth ≤ n := by
  refine gives_record fun n fields e decoded => ?_
  obtain ⟨pos, pos_found, decoded⟩ := Option.bind_eq_some_iff.mp decoded
  obtain ⟨condition, condition_found, decoded⟩ := Option.bind_eq_some_iff.mp decoded
  obtain ⟨body, body_found, decoded⟩ := Option.bind_eq_some_iff.mp decoded
  cases decoded
  obtain ⟨pos_writable, deep⟩ := gives_position.required pos_found
  obtain ⟨condition_writable, condition_depth⟩ := gives_expr.required condition_found
  obtain ⟨body_writable, body_depth⟩ := (gives_body gives).required body_found
  obtain ⟨placed, parts⟩ := body_writable_iff.mp body_writable
  refine ⟨⟨⟨pos_writable, placed⟩, all_append.mpr ⟨condition_writable, parts⟩⟩, ?_⟩
  rw [Elsif.toJson, Json.depth_record_le]
  simp [deep, condition_depth, body_depth]

theorem gives_stmtKind {pos : Position} (pos_writable : pos.Writable) :
    (Stmt.kindDecoder pos stmt).Gives fun n s => s.Writable IsFinite ∧ s.toJson.depth ≤ n + 1 := by
  refine gives_alternative fun kind n j s decoded => ?_
  dsimp only at decoded
  split at decoded
  next =>
    obtain ⟨n, fields, rfl, content⟩ := record_opened decoded
    obtain ⟨target, target_found, content⟩ := Option.bind_eq_some_iff.mp content
    obtain ⟨value, value_found, content⟩ := Option.bind_eq_some_iff.mp content
    cases content
    obtain ⟨target_writable, target_depth⟩ := gives_expr.required target_found
    obtain ⟨value_writable, value_depth⟩ := gives_expr.required value_found
    refine ⟨⟨pos_writable, all_append.mpr ⟨target_writable, value_writable⟩⟩, ?_⟩
    rw [Stmt.toJson, depth_positionDocument_le, Json.depth_record_le]
    simp [target_depth, value_depth]
  next =>
    obtain ⟨n, fields, rfl, content⟩ := record_opened decoded
    obtain ⟨condition, condition_found, content⟩ := Option.bind_eq_some_iff.mp content
    obtain ⟨body, body_found, content⟩ := Option.bind_eq_some_iff.mp content
    obtain ⟨elsifs, elsifs_found, content⟩ := Option.bind_eq_some_iff.mp content
    obtain ⟨otherwise, otherwise_found, content⟩ := Option.bind_eq_some_iff.mp content
    cases content
    obtain ⟨body_writable, body_depth⟩ := (gives_body gives).required body_found
    -- missing clauses are an empty list, and the body is deep enough for that
    have elsifs_given := (gives_written_list (gives_elsif gives)).defaulted
      ⟨List.forall_mem_nil _, Nat.le_trans Json.depth_nil_le body_depth⟩ elsifs_found
    exact branch_given pos_writable (gives_expr.required condition_found) ⟨body_writable, body_depth⟩ elsifs_given
      ((gives_body gives).optional otherwise_found)
  next =>
    obtain ⟨n, fields, rfl, content⟩ := record_opened decoded
    obtain ⟨condition, condition_found, content⟩ := Option.bind_eq_some_iff.mp content
    obtain ⟨body, body_found, content⟩ := Option.bind_eq_some_iff.mp content
    cases content
    obtain ⟨condition_writable, condition_depth⟩ := gives_expr.required condition_found
    obtain ⟨body_writable, body_depth⟩ := (gives_body gives).required body_found
    obtain ⟨placed, parts⟩ := body_writable_iff.mp body_writable
    refine ⟨⟨⟨pos_writable, placed⟩, all_append.mpr ⟨condition_writable, parts⟩⟩, ?_⟩
    rw [Stmt.toJson, depth_positionDocument_le, Json.depth_record_le]
    simp [condition_depth, body_depth]
  next =>
    obtain ⟨n, fields, rfl, content⟩ := record_opened decoded
    obtain ⟨value, value_found, content⟩ := Option.bind_eq_some_iff.mp content
    cases content
    have value_gives := gives_expr.optional value_found
    cases value with
    | none =>
      refine ⟨⟨pos_writable, all_nil⟩, ?_⟩
      rw [Stmt.toJson, depth_positionDocument_le, Json.depth_record_le]
      simp [Json.orNull]
    | some value =>
      obtain ⟨value_writable, value_depth⟩ := value_gives value rfl
      refine ⟨⟨pos_writable, value_writable⟩, ?_⟩
      rw [Stmt.toJson, depth_positionDocument_le, Json.depth_record_le]
      simp [Json.orNull, value_depth]
  next =>
    obtain ⟨⟨callee, args⟩, found, rfl⟩ := Option.map_eq_some_iff.mp decoded
    obtain ⟨⟨callee_writable, args_writable⟩, deep⟩ := gives_call gives_expr true n j _ found
    refine ⟨⟨⟨pos_writable, callee_writable⟩, all_argParts.mpr args_writable⟩, ?_⟩
    rw [Stmt.toJson, depth_positionDocument_le, argDocuments_eq]
    exact deep
  next => cases decoded

end Body

theorem gives_stmtBelow (h : Nat) :
    (Stmt.decoderBelow h).Gives fun n s => s.Writable IsFinite ∧ s.toJson.depth ≤ n := by
  induction h with
  | zero => exact fun _ _ _ => nofun
  | succ h ih =>
    refine gives_record fun n fields s decoded => ?_
    obtain ⟨pos, pos_found, kind_found⟩ := Option.bind_eq_some_iff.mp decoded
    obtain ⟨pos_writable, -⟩ := gives_position.required pos_found
    exact (gives_stmtKind ih pos_writable).required kind_found

theorem gives_stmt : Stmt.decoder.Gives fun n s => s.Writable IsFinite ∧ s.toJson.depth ≤ n := fun n =>
  gives_stmtBelow n n

/-! ## Symbols -/

theorem gives_constant : Constant.decoder.Gives fun n c => c.Writable IsFinite ∧ c.toJson.depth ≤ n := by
  refine gives_alternative fun kind n j c decoded => ?_
  split at decoded
  next =>
    obtain ⟨v, found, rfl⟩ := Option.map_eq_some_iff.mp decoded
    exact ⟨gives_integer _ _ n j v found, Json.depth_alternative_le.mpr (Nat.zero_le n)⟩
  next =>
    obtain ⟨v, found, rfl⟩ := Option.map_eq_some_iff.mp decoded
    refine ⟨gives_real n j v found, Json.depth_alternative_le.mpr ?_⟩
    rw [Json.depth_ofReal]
    exact Nat.zero_le n
  next => cases decoded

/-- A list of parameters that is missing is written nevertheless, which takes one more container. -/
theorem gives_symbol : Symbol.decoder.Gives fun n s => s.Writable IsFinite ∧ (2 ≤ n → s.toJson.depth ≤ n) := by
  refine gives_record fun n fields s decoded => ?_
  obtain ⟨name, -, decoded⟩ := Option.bind_eq_some_iff.mp decoded
  obtain ⟨kind, -, decoded⟩ := Option.bind_eq_some_iff.mp decoded
  obtain ⟨type, type_found, decoded⟩ := Option.bind_eq_some_iff.mp decoded
  obtain ⟨params, params_found, decoded⟩ := Option.bind_eq_some_iff.mp decoded
  obtain ⟨value, value_found, decoded⟩ := Option.bind_eq_some_iff.mp decoded
  obtain ⟨size, size_found, decoded⟩ := Option.bind_eq_some_iff.mp decoded
  cases decoded
  have params_short : ∀ i ∈ params, i < 2 ^ 64 := by
    have gives := (gives_list (gives_natural 64)).imp (Q := fun _ is => ∀ i ∈ is, i < 2 ^ 64)
      fun _ _ ⟨_, _, short⟩ => short
    exact gives.defaulted (List.forall_mem_nil _) params_found
  have value_gives := gives_constant.optional value_found
  have value_writable := fun c given => (value_gives c given).1
  have value_depth := fun c given => (value_gives c given).2
  refine ⟨⟨(gives_natural 64).required type_found, params_short, value_writable,
    (gives_natural 64).optional size_found⟩, fun deep => ?_⟩
  obtain ⟨m, rfl⟩ : ∃ m, n = m + 1 := ⟨n - 1, by omega⟩
  rw [Symbol.toJson, Json.depth_record_le]
  simpa using value_depth

theorem gives_table :
    SymbolTable.decoder.Gives fun n t => t.Writable IsFinite ∧ (4 ≤ n → t.toJson.depth ≤ n) := by
  refine gives_record fun n fields t decoded => ?_
  obtain ⟨symbols, symbols_found, decoded⟩ := Option.bind_eq_some_iff.mp decoded
  obtain ⟨program, program_found, decoded⟩ := Option.bind_eq_some_iff.mp decoded
  cases decoded
  obtain ⟨m, rfl, each⟩ := (gives_list gives_symbol).required symbols_found
  refine ⟨⟨fun s member => (each s member).1, (gives_natural 64).required program_found, rfl, rfl⟩, fun deep => ?_⟩
  rw [SymbolTable.toJson, Json.depth_record_le]
  simpa using fun s member => (each s member).2 (by omega)

/-! ## Programs -/

/-- As for symbols, a body that is missing is written nevertheless. -/
theorem gives_routine :
    Routine.decoder.Gives fun n r => r.Writable IsFinite ∧ (2 ≤ n → r.toJson.depth ≤ n) := by
  refine gives_record fun n fields r decoded => ?_
  obtain ⟨env, env_found, decoded⟩ := Option.bind_eq_some_iff.mp decoded
  obtain ⟨body, body_found, decoded⟩ := Option.bind_eq_some_iff.mp decoded
  cases decoded
  have body_gives : (∀ s ∈ body, s.Writable IsFinite) ∧ (1 ≤ n → body.toJson.depth ≤ n) := by
    have gives := (gives_body gives_stmt).imp
      (Q := fun n b => (∀ s ∈ b, s.Writable IsFinite) ∧ (1 ≤ n → (Body.toJson b).depth ≤ n))
      fun _ _ ⟨writable, deep⟩ => ⟨writable, fun _ => deep⟩
    exact gives.defaulted ⟨List.forall_mem_nil _, id⟩ body_found
  refine ⟨⟨(gives_natural 64).required env_found, body_gives.1⟩, fun deep => ?_⟩
  rw [Routine.toJson, Json.depth_record_le]
  simpa using body_gives.2 (by omega)

theorem gives_program :
    Program.decoder.Gives fun n p => p.Writable IsFinite ∧ (5 ≤ n → p.toJson.depth ≤ n) := by
  refine gives_record fun n fields p decoded => ?_
  obtain ⟨table, table_found, decoded⟩ := Option.bind_eq_some_iff.mp decoded
  obtain ⟨routines, routines_found, decoded⟩ := Option.bind_eq_some_iff.mp decoded
  cases decoded
  obtain ⟨table_writable, table_depth⟩ := gives_table.required table_found
  obtain ⟨m, rfl, each⟩ := (gives_list gives_routine).required routines_found
  refine ⟨⟨table_writable, fun r member => (each r member).1⟩, fun deep => ?_⟩
  rw [Program.toJson, Json.depth_record_le]
  simpa [table_depth (by omega)] using fun r member => (each r member).2 (by omega)

end MiniPascal
