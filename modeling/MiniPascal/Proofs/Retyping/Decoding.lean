import MiniPascal.Proofs.Retyping.Documents

/-!
# Decoding ignores stored types

Trees are decoded from documents that differ in stored types only, or from none of them. Without
their stored types the trees are the same.
-/

namespace MiniPascal

open Decoder

/-! ## Trees that differ in stored types -/

theorem argsUntyped_eq {as bs : List Expr} (alike : List.Forall₂ (fun a b => a.untyped = b.untyped) as bs) :
    argsUntyped as = argsUntyped bs := by
  rw [argsUntyped_eq_map, argsUntyped_eq_map, map_eq_map_iff_forall₂.mpr alike]

theorem elsifsUntyped_eq {as bs : List Elsif} (alike : List.Forall₂ (fun a b => a.untyped = b.untyped) as bs) :
    elsifsUntyped as = elsifsUntyped bs := by
  rw [elsifsUntyped_eq_map, elsifsUntyped_eq_map, map_eq_map_iff_forall₂.mpr alike]

theorem bodyUntyped_eq {as bs : List Stmt} (alike : List.Forall₂ (fun a b => a.untyped = b.untyped) as bs) :
    bodyUntyped as = bodyUntyped bs := by
  rw [bodyUntyped_eq_map, bodyUntyped_eq_map, map_eq_map_iff_forall₂.mpr alike]

theorem annotate_untyped (type : Option SymbolIndex) (e : Expr) : (e.annotate type).untyped = e.untyped := by
  cases type <;> cases e <;> rfl

/-! ## Parts of trees -/

theorem respects_position : Position.decoder.Respects Eq :=
  respects_record fun n _ _ same =>
    rel_bind (same.required (respects_natural 32) (by decide) n) fun _ _ line =>
    rel_bind (same.required (respects_natural 32) (by decide) n) fun _ _ column =>
    .some (by rw [line, column])

theorem respects_reference : Reference.decoder.Respects Eq :=
  respects_record fun n _ _ same =>
    rel_bind (same.required respects_position (by decide) n) fun _ _ pos =>
    rel_bind (same.required respects_symbolIndex (by decide) n) fun _ _ value =>
    .some (by rw [pos, value])

variable {α β : Type} {R : α → α → Prop}

theorem respects_operands {decoder : Decoder α} (respects : decoder.Respects R) (op : String → Option β) :
    (Decoder.operands op decoder).Respects fun a b => a.1 = b.1 ∧ R a.2.1 b.2.1 ∧ R a.2.2 b.2.2 :=
  respects_record fun n _ _ same =>
    rel_bind (same.required (respects_named op) (by decide) n) fun _ _ op =>
    rel_bind (same.required respects (by decide) n) fun _ _ left =>
    rel_bind (same.required respects (by decide) n) fun _ _ right =>
    .some ⟨op, left, right⟩

theorem respects_call {decoder : Decoder α} (respects : decoder.Respects R) (optional : Bool) :
    (call optional decoder).Respects fun a b => a.1 = b.1 ∧ List.Forall₂ R a.2 b.2 := by
  refine respects_record fun n fields fields' same =>
    rel_bind (same.required respects_reference (by decide) n) fun _ _ callee =>
    rel_bind ?_ fun _ _ args => .some ⟨callee, args⟩
  cases optional with
  | true => exact same.defaulted (respects_list respects) .nil (by decide) n
  | false => exact same.required (respects_list respects) (by decide) n

theorem respects_element {decoder : Decoder α} (respects : decoder.Respects R) :
    (element decoder).Respects fun a b => a.1 = b.1 ∧ R a.2 b.2 :=
  respects_record fun n _ _ same =>
    rel_bind (same.required respects_reference (by decide) n) fun _ _ array =>
    rel_bind (same.required respects (by decide) n) fun _ _ index =>
    .some ⟨array, index⟩

/-! ## Expressions -/

theorem respects_exprKind {expr : Decoder Expr} (respects : expr.Respects fun e f => e.untyped = f.untyped)
    (pos : Position) : (Expr.kindDecoder pos expr).Respects fun e f => e.untyped = f.untyped := by
  refine respects_alternative (fun _ => rfl) fun kind n j j' related => ?_
  dsimp only
  split
  next => exact rel_map (respects_symbolIndex n _ _ related) fun _ _ s => by rw [s]
  next =>
    refine rel_map (respects_element respects n _ _ related) fun _ _ ⟨array, index⟩ => ?_
    simp only [Expr.untyped, array, index]
  next => exact rel_map (respects_integer _ _ n _ _ related) fun _ _ v => by rw [v]
  next => exact rel_map (respects_real n _ _ related) fun _ _ v => by rw [v]
  next => exact rel_map (respects n _ _ related) fun _ _ inner => by simp only [Expr.untyped, inner]
  next => exact rel_map (respects n _ _ related) fun _ _ inner => by simp only [Expr.untyped, inner]
  next => exact rel_map (respects n _ _ related) fun _ _ inner => by simp only [Expr.untyped, inner]
  next =>
    refine rel_map (respects_call respects false n _ _ related) fun _ _ ⟨callee, args⟩ => ?_
    simp only [Expr.untyped, callee, argsUntyped_eq args]
  next =>
    refine rel_map (respects_operands respects _ n _ _ related) fun _ _ ⟨op, left, right⟩ => ?_
    simp only [Expr.untyped, op, left, right]
  next =>
    refine rel_map (respects_operands respects _ n _ _ related) fun _ _ ⟨op, left, right⟩ => ?_
    simp only [Expr.untyped, op, left, right]
  next => exact .none

theorem respects_exprBelow (height : Nat) :
    (Expr.decoderBelow height).Respects fun e f => e.untyped = f.untyped := by
  induction height with
  | zero => exact fun _ _ _ _ => .none
  | succ height ih =>
    refine respects_record fun n fields fields' same =>
      rel_bind (same.required respects_position (by decide) n) fun pos _ equal => ?_
    subst equal
    refine rel_bind (rel_of_isSome (same.type n)) fun type type' _ => ?_
    refine rel_bind (same.required (respects_exprKind ih pos) (by decide) n) fun e f alike => .some ?_
    rw [annotate_untyped, annotate_untyped, alike]

theorem respects_expr : Expr.decoder.Respects fun e f => e.untyped = f.untyped :=
  fun n => respects_exprBelow n n

/-! ## Statements -/

theorem respects_elsif {stmt : Decoder Stmt} (respects : stmt.Respects fun s t => s.untyped = t.untyped) :
    (Elsif.decoder stmt).Respects fun e f => e.untyped = f.untyped :=
  respects_record fun n _ _ same =>
    rel_bind (same.required respects_position (by decide) n) fun _ _ pos =>
    rel_bind (same.required respects_expr (by decide) n) fun _ _ condition =>
    rel_bind (same.required (respects_list respects) (by decide) n) fun _ _ body =>
    .some (by simp only [Elsif.untyped, pos, condition, bodyUntyped_eq body])

theorem respects_stmtKind {stmt : Decoder Stmt} (respects : stmt.Respects fun s t => s.untyped = t.untyped)
    (pos : Position) : (Stmt.kindDecoder pos stmt).Respects fun s t => s.untyped = t.untyped := by
  refine respects_alternative (fun _ => rfl) fun kind n j j' related => ?_
  dsimp only
  split
  next =>
    refine respects_record (fun n _ _ same => ?_) n _ _ related
    refine rel_bind (same.required respects_expr (by decide) n) fun _ _ target => ?_
    refine rel_bind (same.required respects_expr (by decide) n) fun _ _ value => .some ?_
    simp only [Stmt.untyped, target, value]
  next =>
    refine respects_record (fun n _ _ same => ?_) n _ _ related
    refine rel_bind (same.required respects_expr (by decide) n) fun _ _ condition => ?_
    refine rel_bind (same.required (respects_list respects) (by decide) n) fun _ _ body => ?_
    refine rel_bind (same.defaulted (respects_list (respects_elsif respects)) .nil (by decide) n)
      fun _ _ elsifs => ?_
    refine rel_bind (same.optional (respects_list respects) (by decide) n) fun _ _ otherwise => .some ?_
    cases otherwise with
    | none => simp only [Stmt.untyped, condition, bodyUntyped_eq body, elsifsUntyped_eq elsifs]
    | some otherwise =>
      simp only [Stmt.untyped, condition, bodyUntyped_eq body, elsifsUntyped_eq elsifs, bodyUntyped_eq otherwise]
  next =>
    refine respects_record (fun n _ _ same => ?_) n _ _ related
    refine rel_bind (same.required respects_expr (by decide) n) fun _ _ condition => ?_
    refine rel_bind (same.required (respects_list respects) (by decide) n) fun _ _ body => .some ?_
    simp only [Stmt.untyped, condition, bodyUntyped_eq body]
  next =>
    refine respects_record (fun n _ _ same => ?_) n _ _ related
    refine rel_bind (same.optional respects_expr (by decide) n) fun _ _ value => .some ?_
    cases value with
    | none => rfl
    | some value => simp only [Stmt.untyped, value]
  next =>
    refine rel_map (respects_call respects_expr true n _ _ related) fun _ _ ⟨callee, args⟩ => ?_
    simp only [Stmt.untyped, callee, argsUntyped_eq args]
  next => exact .none

theorem respects_stmtBelow (height : Nat) :
    (Stmt.decoderBelow height).Respects fun s t => s.untyped = t.untyped := by
  induction height with
  | zero => exact fun _ _ _ _ => .none
  | succ height ih =>
    refine respects_record fun n fields fields' same =>
      rel_bind (same.required respects_position (by decide) n) fun pos _ equal => ?_
    subst equal
    exact same.required (respects_stmtKind ih pos) (by decide) n

theorem respects_stmt : Stmt.decoder.Respects fun s t => s.untyped = t.untyped :=
  fun n => respects_stmtBelow n n

/-! ## Routines -/

theorem respects_body : Body.decoder.Respects fun b c => bodyUntyped b = bodyUntyped c := by
  intro n j j' related
  rcases rel_cases (respects_list respects_stmt n j j' related) with ⟨left, right⟩ | ⟨b, c, left, right, alike⟩
  · rw [Body.decoder, left, right]
    exact .none
  · rw [Body.decoder, left, right]
    exact .some (bodyUntyped_eq alike)

theorem respects_routine : Routine.decoder.Respects fun r s => r.untyped = s.untyped :=
  respects_record fun n _ _ same =>
    rel_bind (same.required respects_symbolIndex (by decide) n) fun _ _ env =>
    rel_bind (same.defaulted respects_body rfl (by decide) n) fun _ _ body =>
    .some (by simp only [Routine.untyped, env, body])

end MiniPascal
