import MiniPascal.Proofs.Compilation.Recompiling
import MiniPascal.Proofs.Documents.Saving
import MiniPascal.Proofs.Folding.Laws

/-!
# Saving what was compiled

Checking and folding put nothing into a program that cannot be written, reals apart. So a program that was
compiled without errors can be saved and loaded again, unless the casts that came in nest it too deep, or one of
its reals is not read back. Folding may well come to such a real, as `1.0 / 0.0` is infinite.
-/

namespace MiniPascal

/-! ## Checked expressions -/

section Operators

variable {pos : Position} {op : BinaryOp} {left right : Expr} {leftType rightType : SymbolIndex} {o : Operation}

/-- The types that are found for an operation and stored in it are the builtin ones. -/
theorem builtin_binaryOperation (operation : binaryOperation pos op left right leftType rightType = some o) :
    o.stored ≤ realType ∧ o.found ≤ realType := by
  cases op with
  | add | sub | mul =>
    cases operation
    unfold arithmetic
    split_ifs <;> simp
  | divide =>
    cases operation
    exact ⟨Nat.le_refl _, Nat.le_refl _⟩
  | div | mod | or | and =>
    unfold binaryOperation integerOperation at operation
    split_ifs at operation
    · cases operation
      simp
    · cases operation
      simp
    · obtain ⟨name, -, rfl⟩ := Option.map_eq_some_iff.mp operation
      simp

theorem builtin_comparison (left right : Expr) (leftType rightType : SymbolIndex) :
    (comparison left right leftType rightType).stored ≤ realType ∧
      (comparison left right leftType rightType).found ≤ realType := by
  unfold comparison
  split_ifs <;> simp

end Operators

theorem integerType_short : integerType < 2 ^ 64 :=
  lt_of_builtin (by decide)

theorem realType_short : realType < 2 ^ 64 :=
  lt_of_builtin (Nat.le_refl _)

theorem Expr.NodeWritable.pos {R : Float → Prop} {e : Expr} (writable : e.NodeWritable R) : e.pos.Writable :=
  writable.note.pos

/-- Checking stores types that can be written, if the table has no others. -/
theorem checkLaw_writable {table : SymbolTable} (short : ∀ s ∈ table.symbols, s.type < 2 ^ 64) :
    CheckLaw table (Expr.NodeWritable AnyReal) (Expr.NodeWritable AnyReal) fun _ t => t < 2 ^ 64 where
  name n s symbol given known := by
    have type_short := short symbol (List.mem_of_getElem? known)
    refine ⟨⟨⟨given.pos, type_short⟩, given.own⟩, ?_⟩
    split_ifs
    · exact given.own
    · exact type_short
  element n array index index' symbol given known :=
    have type_short := short symbol (List.mem_of_getElem? known)
    ⟨⟨⟨given.pos, type_short⟩, given.own⟩, type_short⟩
  integer n v given := ⟨⟨⟨given.pos, integerType_short⟩, given.own⟩, integerType_short⟩
  real n v given := ⟨⟨⟨given.pos, realType_short⟩, trivial⟩, realType_short⟩
  cast n inner inner' given := ⟨⟨⟨given.pos, realType_short⟩, trivial⟩, realType_short⟩
  widen e writable := ⟨⟨writable.pos, realType_short⟩, trivial⟩
  negate n inner inner' found given found_short := ⟨⟨⟨given.pos, found_short⟩, trivial⟩, found_short⟩
  not n inner inner' given _ := ⟨⟨⟨given.pos, integerType_short⟩, trivial⟩, integerType_short⟩
  call n callee args args' routine given known :=
    have type_short := short routine (List.mem_of_getElem? known)
    ⟨⟨⟨given.pos, type_short⟩, given.own⟩, type_short⟩
  binary n op left right left' right' leftType rightType o given _ _ operation _ :=
    have builtin := builtin_binaryOperation operation
    ⟨⟨⟨given.pos, lt_of_builtin builtin.1⟩, trivial⟩, lt_of_builtin builtin.2⟩
  relation n op left right left' right' leftType rightType o given _ _ compared := by
    subst compared
    have builtin := builtin_comparison left' right' leftType rightType
    exact ⟨⟨⟨given.pos, lt_of_builtin builtin.1⟩, trivial⟩, lt_of_builtin builtin.2⟩

/-! ## Folded expressions -/

theorem isInt64_foldIntegers {op : BinaryOp} {a b v : Int} (folded : op.foldIntegers a b = some v) : IsInt64 v := by
  unfold BinaryOp.foldIntegers at folded
  dsimp only at folded
  split_ifs at folded
  cases folded
  exact ⟨Int64.minValue_le_toInt _, Int64.toInt_le _⟩

/-- Folding puts in literals that can be written, reals apart. -/
theorem foldLaw_writable : FoldLaw (Expr.NodeWritable AnyReal) where
  element _ _ _ _ writable := ⟨writable.note, writable.own⟩
  negate _ _ _ writable := ⟨writable.note, writable.own⟩
  not _ _ _ writable := ⟨writable.note, writable.own⟩
  call _ _ _ _ writable := ⟨writable.note, writable.own⟩
  binary _ _ _ _ _ _ _ _ writable := ⟨writable.note, writable.own⟩
  relation _ _ _ _ _ _ writable := ⟨writable.note, writable.own⟩
  integers _ _ _ _ _ _ _ _ folded writable := ⟨writable.note, isInt64_foldIntegers folded⟩
  reals _ _ _ _ _ _ _ writable := ⟨writable.note, trivial⟩

/-! ## Places -/

mutual

theorem Stmt.Annotates.placed {s s' : Stmt} {k : Nat} (annotates : s.Annotates s' k) (placed : s.Placed) :
    s'.Placed := by
  match annotates with
  | .assign p .. | .ret p | .retValue p _ | .call p .. => exact placed
  | .branch p _ body elsifs => exact ⟨placed.1, body.placed placed.2.1, elsifs.placed placed.2.2⟩
  | .branchElse p _ body elsifs rest =>
    exact ⟨placed.1, body.placed placed.2.1, elsifs.placed placed.2.2.1, rest.placed placed.2.2.2⟩
  | .loop p _ body => exact ⟨placed.1, body.placed placed.2⟩

theorem Elsif.Annotates.placed {e e' : Elsif} {k : Nat} (annotates : e.Annotates e' k) (placed : e.Placed) :
    e'.Placed := by
  match annotates with
  | .clause p _ body => exact ⟨placed.1, body.placed placed.2⟩

theorem ElsifsAnnotates.placed {es es' : List Elsif} {k : Nat} (annotates : ElsifsAnnotates es es' k)
    (placed : ElsifsPlaced es) : ElsifsPlaced es' := by
  match annotates with
  | .nil => trivial
  | .cons first others => exact ⟨first.placed placed.1, others.placed placed.2⟩

theorem BodyAnnotates.placed {b b' : List Stmt} {k : Nat} (annotates : BodyAnnotates b b' k)
    (placed : BodyPlaced b) : BodyPlaced b' := by
  match annotates with
  | .nil => trivial
  | .cons first others => exact ⟨first.placed placed.1, others.placed placed.2⟩

end

section

variable {R : Expr → Expr → Prop}

mutual

theorem Stmt.Alike.placed {s s' : Stmt} (alike : s.Alike R s') (placed : s.Placed) : s'.Placed := by
  cases alike with
  | assign | ret | retValue | call => exact placed
  | branch p _ body elsifs => exact ⟨placed.1, placed_of_alike body placed.2.1, elsifsPlaced_of_alike elsifs placed.2.2⟩
  | branchElse p _ body elsifs rest =>
    exact ⟨placed.1, placed_of_alike body placed.2.1, elsifsPlaced_of_alike elsifs placed.2.2.1,
      placed_of_alike rest placed.2.2.2⟩
  | loop p _ body => exact ⟨placed.1, placed_of_alike body placed.2⟩
termination_by sizeOf s
decreasing_by all_goals subst_vars; simp +arith

theorem elsifsPlaced_of_alike {es es' : List Elsif} (alike : List.Forall₂ (Elsif.Alike R) es es')
    (placed : ElsifsPlaced es) : ElsifsPlaced es' := by
  cases alike with
  | nil => trivial
  | cons first others =>
    cases first with
    | clause p _ body =>
      exact ⟨⟨placed.1.1, placed_of_alike body placed.1.2⟩, elsifsPlaced_of_alike others placed.2⟩
termination_by sizeOf es
decreasing_by all_goals subst_vars; simp +arith

theorem placed_of_alike {b b' : List Stmt} (alike : BodyAlike R b b') (placed : BodyPlaced b) : BodyPlaced b' := by
  cases alike with
  | nil => trivial
  | cons first others => exact ⟨first.placed placed.1, placed_of_alike others placed.2⟩
termination_by sizeOf b
decreasing_by all_goals subst_vars; simp +arith

end

end

/-! ## Compiled programs -/

theorem writable_finish (settings : Settings) {b : Body} (writable : ∀ s ∈ b, s.Writable AnyReal) :
    ∀ s ∈ settings.finish b, s.Writable AnyReal := by
  rcases finish_cases settings with same | folded
  · rw [same]
    exact writable
  · rw [folded]
    obtain ⟨placed, parts⟩ := body_writable_iff.mp writable
    have folds := folds_optimizeBody b
    exact body_writable_iff.mpr ⟨placed_of_alike folds placed, foldLaw_writable.foldsBody folds parts⟩

theorem writable_finished {table : SymbolTable} (settings : Settings) {r : Routine}
    (short : ∀ s ∈ table.symbols, s.type < 2 ^ 64) (closed : table.Closed) (valid : r.validate table = .ok ())
    (silent : r.messages table = []) (writable : r.Writable AnyReal) :
    (r.finished settings table).Writable AnyReal := by
  obtain ⟨env, body⟩ := writable
  obtain ⟨placed, parts⟩ := body_writable_iff.mp body
  have annotates := annotates_check (table.openEnvironment r.env) r.env r.body
  have law : CheckLaw (table.openEnvironment r.env) (Expr.NodeWritable AnyReal) (Expr.NodeWritable AnyReal)
      fun _ t => t < 2 ^ 64 := checkLaw_writable short
  have checked : All (Expr.NodeWritable AnyReal) (bodyParts (r.checkAlone table).tree) :=
    law.bodyCheck parts (result_checkAlone closed valid) silent
  exact ⟨env, writable_finish settings (body_writable_iff.mpr ⟨annotates.placed placed, checked⟩)⟩

theorem program_writable_finished (settings : Settings) {p : Program} (valid : p.validate = .ok ())
    (silent : ∀ r ∈ p.routines, r.messages p.table = []) (writable : p.Writable AnyReal) :
    (p.finished settings).Writable AnyReal := by
  obtain ⟨table_valid, routines_valid⟩ := program_validate_iff.mp valid
  have closed := closed_of_validate table_valid
  have short : ∀ s ∈ p.table.symbols, s.type < 2 ^ 64 := fun s member => (writable.table.symbols s member).type
  refine ⟨writable.table, fun r' member' => ?_⟩
  obtain ⟨r, member, rfl⟩ := List.mem_map.mp member'
  exact writable_finished settings short closed (routines_valid r member) (silent r member)
    (writable.routines r member)

/-! ## Loading -/

theorem load_eq_ok_iff {s : String} {p : Program} :
    Program.load s = .ok p ↔ Json.decode? Program.decoder s = some p ∧ p.validate = .ok () := by
  unfold Program.load
  cases Json.decode? Program.decoder s with
  | none => exact iff_of_false nofun nofun
  | some q =>
    dsimp only
    cases valid : q.validate with
    | error e =>
      refine iff_of_false nofun ?_
      rintro ⟨⟨⟩, sound⟩
      cases valid.symm.trans sound
    | ok =>
      constructor
      · rintro ⟨⟩
        exact ⟨rfl, valid⟩
      · rintro ⟨⟨⟩, -⟩
        rfl

/-- A program that is decoded from its own document is loaded from its own text. -/
theorem load_text {p : Program} (decoded : Program.decoder Json.nestingLimit p.toJson = some p)
    (valid : p.validate = .ok ()) : Program.load p.toJson.text = .ok p := by
  refine load_eq_ok_iff.mpr ⟨?_, valid⟩
  rw [Json.decode?, p.parse?_text]
  exact decoded

/-- What was compiled without errors is loaded as it was saved, just if its document is not too deep and all of
its reals are finite and read back. -/
theorem load_compiled_iff {s : String} {p : Program} (loaded : Program.load s = .ok p) (settings : Settings)
    (terminal : Terminal) (accepted : (p.compile settings terminal).result = .ok ()) :
    let p' := (p.compile settings terminal).program
    Program.load p'.toJson.text = .ok p' ↔
      p'.toJson.depth ≤ Json.nestingLimit ∧ ∀ r ∈ p'.reals, IsFinite r ∧ ReadsBack r := by
  intro p'
  obtain ⟨decoded, valid⟩ := load_eq_ok_iff.mp loaded
  have accepts := accepts_compile settings terminal valid
  have finished : p' = p.finished settings := accepts.program accepted
  have any_real : p'.Writable AnyReal := by
    rw [finished]
    have writable := Program.writable_iff_reals.mp (writable_of_decoded decoded).1
    exact program_writable_finished settings valid (accepts.accepted_iff.mp accepted) writable.1
  have sound : p'.validate = .ok () := by
    rw [finished]
    exact program_validate_finished settings valid
  rw [load_eq_ok_iff, Program.decode?_text, Program.writable_iff_reals]
  constructor
  · rintro ⟨⟨⟨-, reals⟩, deep⟩, -⟩
    exact ⟨deep, fun r member => ⟨(reals r member).isFinite, reals r member⟩⟩
  · rintro ⟨deep, reals⟩
    exact ⟨⟨⟨any_real, fun r member => (reals r member).2⟩, deep⟩, sound⟩

/-- A folded sum and an integer that is converted. -/
theorem load_compiled_iff_folded_sum :
    let main := SymbolTable.new "main"
    let table : SymbolTable := ⟨main.symbols ++ [.plain "x" .variable realType], 3, [], .empty⟩
    let x : Expr := .name ⟨⟨1, 1⟩, voidType⟩ 4
    let quarter : Expr := .real ⟨⟨1, 1⟩, realType⟩ 0.25
    let sum : Expr := .binary ⟨⟨1, 1⟩, voidType⟩ .add quarter quarter
    let one : Expr := .integer ⟨⟨2, 1⟩, integerType⟩ 1
    let p : Program := ⟨table, [⟨3, [.assign ⟨1, 1⟩ x sum, .assign ⟨2, 1⟩ x one]⟩]⟩
    let p' := (p.compile .default .plain).program
    Program.load p.toJson.text = .ok p ∧ (p.compile .default .plain).result = .ok () ∧
      (Program.load p'.toJson.text = .ok p' ↔
        p'.toJson.depth ≤ Json.nestingLimit ∧ ∀ r ∈ p'.reals, IsFinite r ∧ ReadsBack r) := by
  intro main table x quarter sum one p p'
  have decoded : Program.decoder Json.nestingLimit p.toJson = some p := by
    revert main x quarter sum one
    rfl
  have valid : p.validate = .ok () := rfl
  have loaded : Program.load p.toJson.text = .ok p := load_text decoded valid
  have accepted : (p.compile .default .plain).result = .ok () :=
    (accepts_compile .default .plain valid).accepted_iff.mpr (List.forall_mem_singleton.mpr rfl)
  exact ⟨loaded, accepted, load_compiled_iff loaded .default .plain accepted⟩

/-- The quotient is folded to an infinity, which is saved as `null`. -/
theorem load_compiled_infinite_quotient :
    let main := SymbolTable.new "main"
    let table : SymbolTable := ⟨main.symbols ++ [.plain "x" .variable realType], 3, [], .empty⟩
    let literal (r : Float) : Expr := .real ⟨⟨1, 1⟩, realType⟩ r
    let quotient : Expr := .binary ⟨⟨1, 1⟩, voidType⟩ .divide (literal 1) (literal 0)
    let p : Program := ⟨table, [⟨3, [.assign ⟨1, 1⟩ (.name ⟨⟨1, 1⟩, voidType⟩ 4) quotient]⟩]⟩
    let c := p.compile .default .plain
    Program.load p.toJson.text = .ok p ∧ c.result = .ok () ∧
      Program.load c.program.toJson.text = .error .malformed := by
  intro main table literal quotient p c
  have decoded : Program.decoder Json.nestingLimit p.toJson = some p := by
    revert main literal quotient
    rfl
  have refused : Program.decoder Json.nestingLimit (p.finished .default).toJson = none := by
    clear decoded
    revert main literal quotient
    rfl
  have valid : p.validate = .ok () := rfl
  have loaded : Program.load p.toJson.text = .ok p := load_text decoded valid
  have accepts : c.Accepts .default p := accepts_compile .default .plain valid
  have accepted : c.result = .ok () := accepts.accepted_iff.mpr (List.forall_mem_singleton.mpr rfl)
  refine ⟨loaded, accepted, ?_⟩
  rw [Program.load, Json.decode?, c.program.parse?_text, Option.bind_some, accepts.program accepted, refused]

/-- Not even all finite quotients are read back. -/
example : IsFinite (1.0 / 11.0) ∧ Decoder.real 0 (.ofReal (1.0 / 11.0)) ≠ some (1.0 / 11.0) := by
  decide +kernel

/-- The integer at the end of a sum of reals is converted, which nests the sum deeper than the limit. -/
example :
    let main := SymbolTable.new "main"
    let table : SymbolTable := ⟨main.symbols ++ [.plain "x" .variable realType], 3, [], .empty⟩
    let note : Note := ⟨⟨1, 1⟩, voidType⟩
    let sum := Nat.repeat (Expr.binary note .add (.name note 4)) 39 (.integer note 1)
    let r : Routine := ⟨3, [.assign ⟨1, 1⟩ (.name note 4) sum]⟩
    (Program.mk table [r]).toJson.depth ≤ Json.nestingLimit ∧ r.messages table = [] ∧
      ¬(Program.mk table [r.finished .default table]).toJson.depth ≤ Json.nestingLimit := by
  decide +kernel

end MiniPascal
