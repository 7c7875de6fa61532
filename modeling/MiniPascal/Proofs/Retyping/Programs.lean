import MiniPascal.Proofs.Retyping.Compilation
import MiniPascal.Proofs.Retyping.Decoding

/-!
# Stored types of the input are not trusted

What is stored in the expressions of a program, or written as their `ty` in its document, has no
influence on what becomes of the program.
-/

namespace MiniPascal

open Checked

/-- How the members of two documents of programs are related: only routines store types. -/
def ProgramMember (name : String) (j j' : Json) : Prop :=
  if name = "routines" then j.Retyped j' else j = j'

/-- The documents of two programs that differ in stored types only. -/
inductive Json.ProgramRetyped : Json → Json → Prop
  | same (j) : Json.ProgramRetyped j j
  | array (table) {routines routines'} : routines.Retyped routines' →
    Json.ProgramRetyped (.array [table, routines]) (.array [table, routines'])
  | object {members members'} : MembersAlike ProgramMember members members' →
    Json.ProgramRetyped (.object members) (.object members')

theorem rel_programDecoder (n : Nat) {j j' : Json} (related : Option.Rel (FieldsAlike ProgramMember)
      (Decoder.fields? ["symtab", "routines"] j) (Decoder.fields? ["symtab", "routines"] j')) :
    Option.Rel (fun p q => p.untyped = q.untyped) (Program.decoder n j) (Program.decoder n j') := by
  cases n with
  | zero => exact .none
  | succ n =>
    refine rel_bind related fun fields fields' alike => ?_
    have table : Option.Rel Eq (Decoder.required SymbolTable.decoder "symtab" fields n)
        (Decoder.required SymbolTable.decoder "symtab" fields' n) :=
      rel_bind (alike.lookup "symtab") fun j j' equal => (if_neg (by decide)).mp equal ▸ rel_eq_refl _
    have routines : Option.Rel (List.Forall₂ Routine.Alike)
        (Decoder.required (Decoder.list Routine.decoder) "routines" fields n)
        (Decoder.required (Decoder.list Routine.decoder) "routines" fields' n) :=
      rel_bind (alike.lookup "routines") fun j j' retyped =>
        respects_list respects_routine n j j' ((if_pos rfl).mp retyped)
    refine rel_bind table fun t t' tables => rel_bind routines fun rs ss alike => .some ?_
    rw [Program.untyped, Program.untyped, tables, map_eq_map_iff_forall₂.mpr alike]

theorem rel_program (n : Nat) {j j' : Json} (related : j.ProgramRetyped j') :
    Option.Rel (fun p q => p.untyped = q.untyped) (Program.decoder n j) (Program.decoder n j') := by
  cases related with
  | same =>
    cases Program.decoder n j with
    | none => exact .none
    | some p => exact .some rfl
  | @array table j j' routines =>
    have fields : FieldsAlike ProgramMember [("symtab", table), ("routines", j)] [("symtab", table), ("routines", j')] :=
      .cons ⟨rfl, Eq.mpr (if_neg (show "symtab" ≠ "routines" by decide)) rfl⟩
        (.cons ⟨rfl, Eq.mpr (if_pos rfl) routines⟩ .nil)
    exact rel_programDecoder n (.some fields)
  | object members =>
    exact rel_programDecoder n (rel_bind members.fields fun _ _ alike => alike.select _)

/-- Documents that differ in stored types only are both refused or give programs that differ in
stored types only, and such programs are validated, checked and compiled alike. -/
theorem stored_types_ignored (settings : Settings) (terminal : Terminal) :
    (∀ n j j', Json.ProgramRetyped j j' →
      Option.Rel (fun p q => p.untyped = q.untyped) (Program.decoder n j) (Program.decoder n j')) ∧
    ∀ p q : Program, p.untyped = q.untyped →
      p.validate = q.validate ∧
      List.Forall₂ (fun r s => r.env = s.env ∧
        ∀ table, SameRun (r.body.check table r.env) (s.body.check table s.env)) p.routines q.routines ∧
      SameCompilation (p.compile settings terminal) (q.compile settings terminal) := by
  refine ⟨fun n j j' related => rel_program n related, fun p q alike => ⟨?_, ?_, compile_alike settings terminal alike⟩⟩
  · rw [← validate_untyped p, ← validate_untyped q, alike]
  · have routines : List.Forall₂ Routine.Alike p.routines q.routines :=
      map_eq_map_iff_forall₂.mp (Program.mk.inj alike).2
    refine routines.imp fun r s same => ⟨same.env, fun table => ?_⟩
    rw [← same.env]
    exact sameRun_of_untyped_eq table r.env same.body

/-- A program whose document stores a type that does not exist, and the same without it. -/
theorem stored_types_ignored_removed_type :
    let expression (types : List (String × Json)) :=
      Json.record ([("pos", Position.toJson ⟨1, 8⟩)] ++ types ++ [("kind", .alternative "Id" (.ofNat 1))])
    let statement types := Position.document ⟨1, 1⟩ "Return" (.record [("value", expression types)])
    let routine types := Json.record [("env", .ofNat 3), ("body", .array [statement types])]
    let document types :=
      Json.record [("symtab", (SymbolTable.new "main").toJson), ("routines", .array [routine types])]
    let program type : Program := ⟨.new "main", [⟨3, [.ret ⟨1, 1⟩ (some (.name ⟨⟨1, 8⟩, type⟩ 1))]⟩]⟩
    Option.Rel (fun p q => p.untyped = q.untyped)
        (Program.decoder Json.nestingLimit (document [("ty", .ofNat 77)]))
        (Program.decoder Json.nestingLimit (document [])) ∧
      SameCompilation ((program 77).compile .default .plain) ((program 2).compile .default .plain) := by
  intro expression statement routine document program
  have value : (expression [("ty", .ofNat 77)]).Retyped (expression []) := by
    change Json.Retyped (.object ([(some "pos", _)] ++ [(some "ty", .ofNat 77)] ++ [(some "kind", _)]))
      (.object ([(some "pos", _)] ++ [] ++ [(some "kind", _)]))
    exact .expression (.cons _ (.same _) .nil) (.cons _ (.same _) .nil) (.inr ⟨_, rfl, .inr ⟨77, by decide +kernel⟩⟩)
      (.inl rfl) (by simp) (by simp) (by simp)
  have written : (statement [("ty", .ofNat 77)]).Retyped (statement []) :=
    .object (.cons _ (.same _) (.cons _ (.object (.cons _ (.object (.cons _ value .nil)) .nil)) .nil))
  have routines : (routine [("ty", .ofNat 77)]).Retyped (routine []) :=
    .object (.cons _ (.same _) (.cons _ (.array (.cons written .nil)) .nil))
  have documents : (document [("ty", .ofNat 77)]).ProgramRetyped (document []) := by
    refine .object (.cons ⟨rfl, ?_⟩ (.cons ⟨rfl, ?_⟩ .nil))
    · rintro _ ⟨⟩
      exact (if_neg (show "symtab" ≠ "routines" by decide)).mpr rfl
    · rintro _ ⟨⟩
      exact (if_pos rfl).mpr (.array (.cons routines .nil))
  obtain ⟨decoded, compiled⟩ := stored_types_ignored .default .plain
  exact ⟨decoded _ _ _ documents, (compiled (program 77) (program 2) rfl).2.2⟩

end MiniPascal
