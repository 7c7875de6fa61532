import MiniPascal.Proofs.Checking.Casts
import MiniPascal.Proofs.Compilation.Sequence
import MiniPascal.Proofs.Folding.Keeping
import MiniPascal.Proofs.Folding.Passes

/-!
# Compiling twice

A program that was accepted is accepted again, without a message and without a change, just if its bodies
settle. What the passes did in between makes no difference.
-/

namespace MiniPascal

open Checked

/-! ## Passes -/

/-- The passes of a level fold a body once, or there are none. -/
theorem apply_cases (level : Level) :
    (∀ b, level.apply b = b) ∨ ∀ b, level.apply b = (optimizeBody b).tree := by
  cases passes : level.passes with
  | nil =>
    left
    intro b
    rw [Level.apply, passes, List.foldl_nil]
  | cons pass others =>
    right
    intro b
    cases pass with
    | constantFolding =>
      -- the passes behind the first find nothing to do
      have rest := runFrom_of_tree_eq 1 others (optimizeBody_optimizeBody b)
      rw [← body_levelRun, Level.run, passes]
      exact rest.1

/-- What becomes of a body behind the check of a program without errors. -/
def Settings.finish (settings : Settings) (b : Body) : Body :=
  if settings.stopAfter = .optimization then settings.level.apply b else b

theorem finish_cases (settings : Settings) :
    (∀ b, settings.finish b = b) ∨ ∀ b, settings.finish b = (optimizeBody b).tree := by
  unfold Settings.finish
  split
  · exact apply_cases settings.level
  · exact .inl fun _ => rfl

theorem finish_finish (settings : Settings) (b : Body) :
    settings.finish (settings.finish b) = settings.finish b := by
  rcases finish_cases settings with same | folded
  · rw [same, same]
  · rw [folded, folded, optimizeBody_optimizeBody]

variable {table : SymbolTable} {env : SymbolIndex}

theorem leaves_finish_iff (settings : Settings) {b : Body} (fits : Fitting (bodyParts b)) :
    (b.check table env).Leaves b () ↔ ((settings.finish b).check table env).Leaves (settings.finish b) () := by
  rcases finish_cases settings with same | folded
  · rw [same]
  · rw [folded]
    exact leaves_folded_iff (folds_optimizeBody b) fits

/-- A check adds no operations, so if the passes behind it end with the body that it began with, they did
nothing. -/
theorem eq_of_finish_check (settings : Settings) {b : Body} (same : settings.finish (b.check table env).tree = b) :
    (b.check table env).tree = b := by
  rcases finish_cases settings with unchanged | folded
  · rwa [unchanged] at same
  · rw [folded] at same
    have folds := folds_optimizeBody (b.check table env).tree
    have counted := (annotates_check table env b).count .binary
    rw [same] at folds
    refine (folds.eq_of_count ?_).symm
    rw [counted]
    rfl

/-- What stays the same in a check has no new casts, so there was no conversion. -/
theorem widenings_of_tree_eq {b : Body} (same : (b.check table env).tree = b) :
    widenings (b.check table env).events = 0 := by
  have counted := (annotates_check table env b).count .cast
  rw [same, Form.tally_self] at counted
  omega

theorem leaves_iff_finish (settings : Settings) {b : Body} (ends : (b.check table env).result = some ())
    (finished : settings.finish b = b) :
    (b.check table env).Leaves b () ↔
      (b.check table env).messages = [] ∧ settings.finish (b.check table env).tree = b := by
  constructor
  · intro leaves
    rw [leaves.tree]
    exact ⟨leaves.calm.1, finished⟩
  · rintro ⟨silent, same⟩
    have tree := eq_of_finish_check settings same
    exact ⟨tree, ⟨silent, widenings_of_tree_eq tree⟩, ends⟩

/-! ## Routines -/

variable {settings : Settings} {r : Routine}

/-- What is left of a routine in a program without errors. -/
def Routine.finished (settings : Settings) (table : SymbolTable) (r : Routine) : Routine :=
  { r with body := settings.finish (r.checkAlone table).tree }

theorem result_checkAlone (closed : table.Closed) (valid : r.validate table = .ok ()) :
    (r.checkAlone table).result = some () := by
  have inside := inside_of_validate valid
  obtain ⟨_, result, -⟩ := yields_bodyCheck (closed.openEnvironment r.env) inside.env inside.env r.body inside.body
  exact result

theorem validate_finished (settings : Settings) (table : SymbolTable) (r : Routine) :
    (r.finished settings table).validate table = r.validate table := by
  have finish : bodySymbols (settings.finish (r.checkAlone table).tree) =
      bodySymbols (r.checkAlone table).tree := by
    unfold Settings.finish
    split
    · rw [← body_levelRun]
      exact (kept_levelRun _ _).1
    · rfl
  have symbols : bodySymbols (r.finished settings table).body = bodySymbols r.body :=
    finish.trans (bodySymbols_check _ _ _)
  have env : (r.finished settings table).env = r.env := rfl
  exact routine_validate_congr env symbols

/-- The body of a routine that was accepted is accepted again and stays as it is, just if it settles. -/
theorem finished_iff_settles (closed : table.Closed) (valid : r.validate table = .ok ())
    (silent : r.messages table = []) :
    let r' := r.finished settings table
    r'.messages table = [] ∧ (r'.finished settings table).body = r'.body ↔
      BodySettles (table.openEnvironment r.env) r.body := by
  intro r'
  have result : (r.checkAlone table).result = some () := result_checkAlone closed valid
  have result' : (r'.checkAlone table).result = some () :=
    result_checkAlone closed ((validate_finished settings table r).trans valid)
  have fixed : settings.finish r'.body = r'.body := finish_finish settings _
  have fits := fitting_bodyCheck result silent
  rw [← leaves_bodyCheck_iff result silent, leaves_finish_iff settings fits]
  exact (leaves_iff_finish settings result' fixed).symm

/-! ## Programs -/

/-- Without errors in front of it a routine is finished. -/
theorem settled_eq_finished {rs : List Routine} (silent : ∀ r ∈ rs, r.messages table = []) (i : Nat) :
    r.settled settings table (optimizes settings table rs i) = r.finished settings table := by
  have quiet : ((rs.take (i + 1)).all fun r => (r.messages table).isEmpty) = true := by
    rw [List.all_eq_true]
    intro r member
    rw [silent r (List.mem_of_mem_take member)]
    rfl
  rw [Routine.settled, Routine.finished, optimizes, quiet, Bool.and_true]
  simp [Settings.finish]

/-- What is left of a program without errors. -/
def Program.finished (settings : Settings) (p : Program) : Program :=
  ⟨p.table, p.routines.map (Routine.finished settings p.table)⟩

theorem program_validate_finished (settings : Settings) {p : Program} (valid : p.validate = .ok ()) :
    (p.finished settings).validate = .ok () := by
  obtain ⟨table_valid, routines_valid⟩ := program_validate_iff.mp valid
  refine program_validate_iff.mpr ⟨table_valid, fun r' member' => ?_⟩
  obtain ⟨r, member, rfl⟩ := List.mem_map.mp member'
  exact (validate_finished settings p.table r).trans (routines_valid r member)

/-- Compiling accepts a program just if no check of a routine says a word, and then it finishes the program. -/
structure Compilation.Accepts (settings : Settings) (p : Program) (c : Compilation) : Prop where
  accepted_iff : c.result = .ok () ↔ ∀ r ∈ p.routines, r.messages p.table = []
  program : c.result = .ok () → c.program = p.finished settings
  silent : c.result = .ok () → c.run.diagnostics.messages = []

theorem accepts_compile (settings : Settings) (terminal : Terminal) {p : Program} (valid : p.validate = .ok ()) :
    (p.compile settings terminal).Accepts settings p := by
  obtain ⟨table_valid, routines_valid⟩ := program_validate_iff.mp valid
  obtain ⟨rs, run, processed, -⟩ := processRoutines_ok settings (closed_of_validate table_valid) p.routines
    (.start terminal) fun r member => inside_of_validate (routines_valid r member)
  obtain ⟨-, routines, extended⟩ := extends_processRoutines processed
  have verdict := verdict_sequential terminal p.routines extended.diagnostics
  have compiled : p.compile settings terminal = ⟨⟨p.table, rs⟩, run.close, run.verdict⟩ := by
    simp only [Program.compile, processed]
  have accepted_iff : run.verdict = .ok () ↔ ∀ r ∈ p.routines, r.messages p.table = [] := by
    rw [verdict]
    split_ifs with silent
    · exact iff_of_true rfl silent
    · exact iff_of_false (by simp) silent
  rw [compiled]
  constructor
  · exact accepted_iff
  · intro accepted
    have silent := accepted_iff.mp accepted
    have settled : rs = p.routines.mapIdx fun i r =>
      r.settled settings p.table (optimizes settings p.table p.routines i) := routines
    simp only [settled_eq_finished silent] at settled
    rw [settled, List.mapIdx_eq_iff.mpr fun _ => List.getElem?_map]
    rfl
  · intro accepted
    have silent := accepted_iff.mp accepted
    change run.diagnostics.messages = []
    rw [extended.diagnostics]
    exact List.flatMap_eq_nil_iff.mpr silent

/-- The second time the program is checked as the first time left it. -/
theorem accepts_recompile {terminal : Terminal} {p : Program} (valid : p.validate = .ok ())
    (accepted : (p.compile settings terminal).result = .ok ()) :
    ((p.compile settings terminal).program.compile settings terminal).Accepts settings (p.finished settings) := by
  rw [(accepts_compile settings terminal valid).program accepted]
  exact accepts_compile settings terminal (program_validate_finished settings valid)

/-- Compiling an accepted program again accepts it again, says nothing and leaves all bodies as they are, just
if the bodies settle. -/
theorem recompile_iff_settles (settings : Settings) (terminal : Terminal) (p : Program)
    (valid : p.validate = .ok ()) (accepted : (p.compile settings terminal).result = .ok ()) :
    let c := p.compile settings terminal
    let again := c.program.compile settings terminal
    again.result = .ok () ∧ again.run.diagnostics.messages = [] ∧
        again.program.routines.map Routine.body = c.program.routines.map Routine.body ↔
      ∀ r ∈ p.routines, BodySettles (p.table.openEnvironment r.env) r.body := by
  intro c again
  obtain ⟨table_valid, routines_valid⟩ := program_validate_iff.mp valid
  have first : c.Accepts settings p := accepts_compile settings terminal valid
  have second : again.Accepts settings (p.finished settings) := accepts_recompile valid accepted
  have settles (r : Routine) (member : r ∈ p.routines) :
      let r' := r.finished settings p.table
      r'.messages p.table = [] ∧ (r'.finished settings p.table).body = r'.body ↔
        BodySettles (p.table.openEnvironment r.env) r.body :=
    finished_iff_settles (closed_of_validate table_valid) (routines_valid r member)
      (first.accepted_iff.mp accepted r member)
  have quiet : again.result = .ok () ↔ ∀ r ∈ p.routines, (r.finished settings p.table).messages p.table = [] :=
    second.accepted_iff.trans List.forall_mem_map
  have same (accepted_again : again.result = .ok ()) :
      again.program.routines.map Routine.body = c.program.routines.map Routine.body ↔
        ∀ r ∈ p.routines, ((r.finished settings p.table).finished settings p.table).body =
          (r.finished settings p.table).body := by
    rw [second.program accepted_again, first.program accepted]
    simp only [Program.finished, List.map_map, List.map_inj_left]
    rfl
  constructor
  · rintro ⟨accepted_again, -, bodies⟩ r member
    exact (settles r member).mp ⟨quiet.mp accepted_again r member, (same accepted_again).mp bodies r member⟩
  · intro settled
    have stays (r : Routine) (member : r ∈ p.routines) := (settles r member).mpr (settled r member)
    have accepted_again : again.result = .ok () := quiet.mpr fun r member => (stays r member).1
    have bodies := (same accepted_again).mpr fun r member => (stays r member).2
    exact ⟨accepted_again, second.silent accepted_again, bodies⟩

/-- A loop of integers that assigns an integer to a real variable. -/
theorem recompile_iff_settles_assigned_integer :
    let main := SymbolTable.new "main"
    let table := { main with
      symbols := main.symbols ++ [.plain "x" .variable realType, .plain "i" .variable integerType] }
    let note : Note := ⟨⟨1, 1⟩, voidType⟩
    let condition : Expr := .relation note .less (.name note 5) (.integer note 3)
    let p : Program := ⟨table, [⟨3, [.loop ⟨1, 1⟩ condition [.assign ⟨2, 1⟩ (.name note 4) (.name note 5)]]⟩]⟩
    let c := p.compile .default .plain
    let again := c.program.compile .default .plain
    p.validate = .ok () ∧ c.result = .ok () ∧ again.result = .ok () ∧ again.run.diagnostics.messages = [] ∧
      again.program.routines.map Routine.body = c.program.routines.map Routine.body := by
  intro main table note condition p
  have valid : p.validate = .ok () := rfl
  have accepted : (p.compile .default .plain).result = .ok () :=
    (accepts_compile .default .plain valid).accepted_iff.mpr (List.forall_mem_singleton.mpr rfl)
  have lasting : ¬condition.Fades (table.openEnvironment 3) := by decide
  have compared : condition.Settles (table.openEnvironment 3) := ⟨trivial, trivial, fun _ => Iff.rfl⟩
  have assigned : BodySettles (table.openEnvironment 3) [.assign ⟨2, 1⟩ (.name note 4) (.name note 5)] :=
    ⟨⟨trivial, trivial, fun _ _ => Iff.rfl⟩, trivial⟩
  have settles : ∀ r ∈ p.routines, BodySettles (table.openEnvironment r.env) r.body :=
    List.forall_mem_singleton.mpr ⟨⟨⟨compared, lasting⟩, assigned⟩, trivial⟩
  exact ⟨valid, accepted, (recompile_iff_settles .default .plain p valid accepted).mpr settles⟩

/-- A loop while a real variable is less than an integer is accepted once: after that both sides are real. -/
theorem recompile_rejects_real_condition :
    ¬∀ (settings : Settings) (terminal : Terminal) (p : Program), p.validate = .ok () →
      let c := p.compile settings terminal
      let again := c.program.compile settings terminal
      c.result = .ok () →
        again.result = .ok () ∧ again.run.diagnostics.messages = [] ∧
          again.program.routines.map Routine.body = c.program.routines.map Routine.body := by
  intro accepts
  let main := SymbolTable.new "main"
  let table : SymbolTable := { main with symbols := main.symbols ++ [.plain "r" .variable realType] }
  let note : Note := ⟨⟨1, 1⟩, voidType⟩
  let r : Routine := ⟨3, [.loop ⟨1, 1⟩ (.relation note .less (.name note 4) (.integer note 3)) []]⟩
  let real : Note := ⟨⟨1, 1⟩, realType⟩
  let integer : Note := ⟨⟨1, 1⟩, integerType⟩
  let r' : Routine :=
    ⟨3, [.loop ⟨1, 1⟩ (.relation integer .less (.name real 4) (.cast real (.integer integer 3))) []]⟩
  let p : Program := ⟨table, [r]⟩
  have valid : p.validate = .ok () := rfl
  have accepted : (p.compile .default .plain).result = .ok () :=
    (accepts_compile .default .plain valid).accepted_iff.mpr (List.forall_mem_singleton.mpr rfl)
  have accepted_again := (accepts .default .plain p valid accepted).1
  have finished : r.finished .default table = r' := rfl
  have silent : (r.finished .default table).messages table = [] :=
    (accepts_recompile valid accepted).accepted_iff.mp accepted_again _ (List.mem_singleton_self _)
  have reported : r'.messages table = [⟨.error, some ⟨1, 1⟩, "while predicate must be of integer type."⟩] := rfl
  rw [finished, reported] at silent
  cases silent

end MiniPascal
