import MiniPascal.Proofs.Compilation.Safety

/-!
# Compiling is checking one routine after the other

What a routine is told, and what becomes of it, is what checking it alone would say. The routines
share the diagnostics and the table, but all that passes from one to the next is whether there was
an error so far, and that only decides on the passes.
-/

namespace MiniPascal

/-! ## Single routines -/

/-- Checks a routine on its own, in its own environment. -/
def Routine.checkAlone (table : SymbolTable) (r : Routine) : Checked Body Unit :=
  r.body.check (table.openEnvironment r.env) r.env

/-- The passes of a level, one after the other. -/
def Level.apply (level : Level) (body : Body) : Body :=
  level.passes.foldl (fun body pass => (pass.run body).body) body

namespace Routine

variable (settings : Settings) (table : SymbolTable) (r : Routine)

def messages : List Message :=
  (r.checkAlone table).messages

def name : String :=
  ((table.get? r.env).map Symbol.name).getD ""

/-- The routine as it is left, after the passes if they are run. -/
def settled (optimized : Bool) : Routine :=
  let checked := (r.checkAlone table).tree
  { r with body := if optimized then settings.level.apply checked else checked }

/-- What is logged for a routine: the check, and the passes if they are run. -/
def entries (optimized : Bool) : List LogEntry :=
  let passes := settings.level.run (r.checkAlone table).tree
  (r.checkAlone table).log ++
    if optimized then
      passes.log ++ [.debug ("optimizing '" ++ r.name table ++ "': " ++ passes.outcome.text)]
    else []

end Routine

/-- Whether the passes are run over the routine at `i`: they are wanted, and nothing was reported for
it or for a routine in front of it. -/
def optimizes (settings : Settings) (table : SymbolTable) (rs : List Routine) (i : Nat) : Bool :=
  settings.stopAfter = .optimization && (rs.take (i + 1)).all fun r => (r.messages table).isEmpty

variable {table : SymbolTable} {settings : Settings}

@[simp] theorem optimizes_zero (r : Routine) (rs : List Routine) :
    optimizes settings table (r :: rs) 0 =
      (settings.stopAfter = .optimization && (r.messages table).isEmpty) := by
  simp [optimizes]

theorem optimizes_succ (r : Routine) (rs : List Routine) (i : Nat) :
    optimizes settings table (r :: rs) (i + 1) =
      ((r.messages table).isEmpty && optimizes settings table rs i) := by
  simp [optimizes, Bool.and_left_comm]

/-! ## Messages -/

/-- Checking never warns. -/
theorem severity_of_mem_messages {τ σ : Type} {c : Checked τ σ} {m : Message} (member : m ∈ c.messages) :
    m.severity = .error := by
  obtain ⟨event, -, message⟩ := List.mem_filterMap.mp member
  cases event with
  | error pos what =>
    cases message
    rfl
  | _ => contradiction

theorem countP_messages {τ σ : Type} (c : Checked τ σ) :
    (c.messages.countP fun m => m.severity = .error) = c.messages.length :=
  List.countP_eq_length.mpr fun _ member => decide_eq_true (severity_of_mem_messages member)

theorem length_messages {τ σ : Type} (c : Checked τ σ) : c.messages.length = errorCount c.events := by
  rw [Checked.messages, errorCount, List.length_filterMap_eq_countP]

/-! ## Runs -/

/-- What was reported and logged between two moments of a run. -/
structure Run.Extends (run run' : Run) (ms : List Message) (es : List LogEntry) : Prop where
  diagnostics : run'.diagnostics = { run.diagnostics with messages := run.diagnostics.messages ++ ms }
  errorText : run'.errorText = run.errorText ++ run.diagnostics.terminal.render (ms.flatMap Message.pieces)
  log : run'.log = run.log ++ es

namespace Run

variable {run run' run'' : Run} {ms ms' : List Message} {es es' : List LogEntry}

theorem extends_refl (run : Run) : run.Extends run [] [] := by
  constructor <;> simp [Terminal.render]

theorem Extends.trans (first : run.Extends run' ms es) (second : run'.Extends run'' ms' es') :
    run.Extends run'' (ms ++ ms') (es ++ es') where
  diagnostics := by rw [second.diagnostics, first.diagnostics, List.append_assoc]
  errorText := by
    rw [second.errorText, first.errorText, first.diagnostics, List.flatMap_append, render_append,
      String.append_assoc]
  log := by rw [second.log, first.log, List.append_assoc]

theorem Extends.silently (first : run.Extends run' ms es) (second : run'.Extends run'' [] []) :
    run.Extends run'' ms es := by
  simpa using first.trans second

theorem extends_emit (run : Run) (ms : List Message) : run.Extends (run.emit ms) ms [] :=
  ⟨rfl, rfl, (List.append_nil _).symm⟩

theorem extends_note (run : Run) (es : List LogEntry) : run.Extends (run.note es) [] es := by
  constructor <;> simp [note, Terminal.render]

theorem extends_print (run : Run) (text : String) : run.Extends (run.print text) [] [] := by
  constructor <;> simp [print, Terminal.render]

/-- Only what was reported decides whether there were errors. -/
theorem Extends.errored {τ σ : Type} {c : Checked τ σ} (extends_run : run.Extends run' c.messages es) :
    run'.diagnostics.errored = (run.diagnostics.errored || !c.messages.isEmpty) := by
  have count := countP_messages c
  rw [extends_run.diagnostics, Diagnostics.errored, Diagnostics.errored, Diagnostics.count, Diagnostics.count,
    List.countP_append, count]
  cases c.messages <;> simp

end Run

/-! ## What a routine does to a run -/

theorem body_runFrom (i : Nat) (ps : List Pass) (b : Body) :
    (Level.runFrom i ps b).1 = ps.foldl (fun body pass => (pass.run body).body) b := by
  induction ps generalizing i b with
  | nil => rfl
  | cons p ps ih => exact ih (i + 1) _

theorem body_levelRun (level : Level) (b : Body) : (level.run b).body = level.apply b :=
  body_runFrom 0 level.passes b

/-- Dumps go to a place of their own. -/
theorem extends_dumpBody {heading name : String} {b : Body} {run run' : Run}
    (dumped : dumpBody settings table heading name b run = .ok run') : run.Extends run' [] [] := by
  unfold dumpBody at dumped
  split at dumped
  · cases printed : b.text? table with
    | none => simp [printed] at dumped
    | some text =>
      rw [printed] at dumped
      obtain rfl := Except.ok.inj dumped
      exact run.extends_print _
  · obtain rfl := Except.ok.inj dumped
    exact run.extends_refl

theorem extends_optimizeRoutine {name : String} {b b' : Body} {run run' : Run}
    (optimized : optimizeRoutine settings table name b run = (b', run', .ok ())) :
    b' = settings.level.apply b ∧ run.Extends run' [] ((settings.level.run b).log ++
      [.debug ("optimizing '" ++ name ++ "': " ++ (settings.level.run b).outcome.text)]) := by
  simp only [optimizeRoutine] at optimized
  split at optimized
  next dumped =>
    simp only [Prod.mk.injEq] at optimized
    obtain ⟨rfl, rfl, -⟩ := optimized
    exact ⟨body_levelRun _ _, (run.extends_note _).silently (extends_dumpBody dumped)⟩
  next => simp at optimized

theorem extends_processBody {name : String} {r : Routine} {b : Body} {run run' : Run}
    (processed : processBody settings (table.openEnvironment r.env) name r run = (b, run', .ok ()))
    (called : r.name table = name) :
    let optimized := !run.diagnostics.errored && optimizes settings table [r] 0
    { r with body := b } = r.settled settings table optimized ∧
      run.Extends run' (r.messages table) (r.entries settings table optimized) := by
  intro optimized
  unfold processBody at processed
  set checked := r.body.check (table.openEnvironment r.env) r.env with alone
  cases result : checked.result with
  | none => simp [result] at processed
  | some _ =>
    simp only [result] at processed
    split at processed
    next => simp at processed
    next run₁ dumped =>
      have checked_run : run.Extends run₁ checked.messages checked.log := by
        have reported := (run.extends_emit checked.messages).trans (Run.extends_note _ checked.log)
        rw [List.append_nil, List.nil_append] at reported
        exact reported.silently (extends_dumpBody dumped)
      have gate : mayOptimize settings run₁ = optimized := by
        rw [mayOptimize, checked_run.errored, Bool.not_or, Bool.not_not, Bool.and_left_comm]
        exact congrArg (_ && ·) (optimizes_zero r []).symm
      rw [gate] at processed
      split at processed
      next passes =>
        obtain ⟨rfl, passes_run⟩ := extends_optimizeRoutine processed
        have extended := checked_run.trans passes_run
        rw [List.append_nil] at extended
        rw [Routine.settled, Routine.entries, if_pos passes, if_pos passes, called]
        exact ⟨rfl, extended⟩
      next stays =>
        simp only [Prod.mk.injEq] at processed
        obtain ⟨rfl, rfl, -⟩ := processed
        rw [Routine.settled, Routine.entries, if_neg stays, if_neg stays, List.append_nil]
        exact ⟨rfl, checked_run⟩

theorem extends_processRoutine {r r' : Routine} {run run' : Run} {table' : SymbolTable}
    (processed : processRoutine settings table r run = (table', r', run', .ok ())) :
    let optimized := !run.diagnostics.errored && optimizes settings table [r] 0
    table' = table ∧ r' = r.settled settings table optimized ∧
      run.Extends run' (r.messages table) (r.entries settings table optimized) := by
  intro optimized
  unfold processRoutine at processed
  cases found : table.get? r.env with
  | none => simp [found] at processed
  | some symbol =>
    have called : r.name table = symbol.name := by simp [Routine.name, found]
    rcases body : processBody settings (table.openEnvironment r.env) symbol.name r run with ⟨b, run₁, result⟩
    simp only [found, body] at processed
    cases result with
    | error e => simp at processed
    | ok _ =>
      simp only [leaveEnvironment_openEnvironment, Prod.mk.injEq] at processed
      obtain ⟨rfl, rfl, rfl, -⟩ := processed
      exact ⟨rfl, extends_processBody body called⟩

/-- Between the routines only errors count, and they only keep the passes from being run. -/
theorem extends_processRoutines {rs rs' : List Routine} {run run' : Run} {table' : SymbolTable}
    (processed : processRoutines settings table rs run = (table', rs', run', .ok ())) :
    let optimized := fun i => !run.diagnostics.errored && optimizes settings table rs i
    table' = table ∧ rs' = rs.mapIdx (fun i r => r.settled settings table (optimized i)) ∧
      run.Extends run' (rs.flatMap (Routine.messages table))
        (rs.mapIdx fun i r => r.entries settings table (optimized i)).flatten := by
  induction rs generalizing run rs' with
  | nil =>
    obtain ⟨rfl, rfl, rfl, -⟩ := processed
    exact ⟨rfl, rfl, Run.extends_refl _⟩
  | cons r rs ih =>
    rcases first : processRoutine settings table r run with ⟨table₁, r₁, run₁, result⟩
    cases result with
    | error e => simp [processRoutines, first] at processed
    | ok _ =>
      obtain ⟨rfl, rfl, first_run⟩ := extends_processRoutine first
      rcases others : processRoutines settings table₁ rs run₁ with ⟨table₂, rs₂, run₂, result⟩
      simp only [processRoutines, first, others, Prod.mk.injEq] at processed
      obtain ⟨rfl, rfl, rfl, rfl⟩ := processed
      obtain ⟨rfl, rfl, others_run⟩ := ih others
      have later (i : Nat) : (!run₁.diagnostics.errored && optimizes settings table₂ rs i) =
          (!run.diagnostics.errored && optimizes settings table₂ (r :: rs) (i + 1)) := by
        rw [first_run.errored, optimizes_succ, Bool.not_or, Bool.not_not, Bool.and_assoc]
        rfl
      simp only [later] at others_run ⊢
      refine ⟨trivial, ?_, ?_⟩
      · simp [List.mapIdx_cons]
      · simpa [List.mapIdx_cons] using first_run.trans others_run

/-! ## Programs -/

/-- What a check notes at its begin and its end are no errors. -/
theorem errorCount_noted (kind : SymbolKind) (name : String) (statements errors : Nat) (es : List Event) :
    errorCount (.started kind name statements :: es ++ [.finished name errors]) = errorCount es := by
  simp [errorCount, Event.message?]

/-- The last line of a check tells how many messages there are. -/
theorem getLast?_log_checkAlone {r : Routine} (closed : table.Closed) (inside : r.Inside table) :
    (r.checkAlone table).log.getLast? = some (.debug ("'" ++ r.name table ++ "' checked with " ++
      toString (r.messages table).length ++ " new error(s)")) := by
  obtain ⟨_, result, -⟩ := yields_bodyCheck (closed.openEnvironment r.env) inside.env inside.env r.body inside.body
  obtain ⟨symbol, -, found⟩ := exists_symbol inside.env
  have found_inside : (table.openEnvironment r.env).get? r.env = some symbol := found
  have called : r.name table = symbol.name := by simp [Routine.name, found]
  rw [called, Routine.messages, length_messages, Routine.checkAlone, Checked.log]
  simp only [Body.check, found_inside] at result ⊢
  simp only [result, errorCount_noted, List.filterMap_append]
  exact List.getLast?_concat

/-- A program that was compiled as if its routines were checked alone. -/
structure Compilation.Sequential (settings : Settings) (terminal : Terminal) (p : Program)
    (c : Compilation) : Prop where
  table : c.program.table = p.table
  routines : c.program.routines = p.routines.mapIdx fun i r =>
    r.settled settings p.table (optimizes settings p.table p.routines i)
  diagnostics : c.run.diagnostics = ⟨terminal, p.routines.flatMap (Routine.messages p.table)⟩
  errorText : c.run.errorText =
    terminal.render ((p.routines.flatMap (Routine.messages p.table)).flatMap Message.pieces) ++
      Diagnostics.statistics ⟨terminal, p.routines.flatMap (Routine.messages p.table)⟩
  result : c.result =
    if ∀ r ∈ p.routines, r.messages p.table = [] then .ok ()
    else .error (.typeErrors (p.routines.map fun r => (r.messages p.table).length).sum)
  log : c.run.log = (p.routines.mapIdx fun i r =>
    r.entries settings p.table (optimizes settings p.table p.routines i)).flatten
  /-- the number that is logged for a routine is that of its messages -/
  counted : ∀ r ∈ p.routines, (r.checkAlone p.table).log.getLast? =
    some (.debug ("'" ++ r.name p.table ++ "' checked with " ++ toString (r.messages p.table).length ++
      " new error(s)"))

theorem count_flatMap_messages (terminal : Terminal) (rs : List Routine) :
    Diagnostics.count ⟨terminal, rs.flatMap (Routine.messages table)⟩ .error =
      (rs.map fun r => (r.messages table).length).sum := by
  induction rs with
  | nil => rfl
  | cons r rs ih =>
    simp only [Diagnostics.count, List.flatMap_cons, List.countP_append, List.map_cons, List.sum_cons] at ih ⊢
    rw [ih, Routine.messages, countP_messages]

theorem verdict_sequential {run : Run} (terminal : Terminal) (rs : List Routine)
    (diagnostics : run.diagnostics = ⟨terminal, rs.flatMap (Routine.messages table)⟩) :
    run.verdict = if ∀ r ∈ rs, r.messages table = [] then .ok ()
      else .error (.typeErrors (rs.map fun r => (r.messages table).length).sum) := by
  have none_iff : (rs.map fun r => (r.messages table).length).sum = 0 ↔ ∀ r ∈ rs, r.messages table = [] := by
    simp [List.sum_eq_zero_iff]
  rw [Run.verdict, diagnostics, Diagnostics.errored, count_flatMap_messages]
  by_cases silent : ∀ r ∈ rs, r.messages table = []
  · rw [if_pos silent, none_iff.mpr silent]
    rfl
  · have some_error : 0 < (rs.map fun r => (r.messages table).length).sum :=
      Nat.pos_of_ne_zero fun zero => silent (none_iff.mp zero)
    rw [if_neg silent, if_pos (decide_eq_true some_error)]

/-- Compiling a sound program is checking its routines one after the other. The settings decide on
passes and dumps, and on nothing that is reported. -/
theorem compile_sequential (settings : Settings) (terminal : Terminal) (p : Program)
    (valid : p.validate = .ok ()) :
    (p.compile settings terminal).Sequential settings terminal p ∧
      ∀ other : Settings,
        (p.compile settings terminal).result = (p.compile other terminal).result ∧
        (p.compile settings terminal).run.diagnostics = (p.compile other terminal).run.diagnostics ∧
        (p.compile settings terminal).run.errorText = (p.compile other terminal).run.errorText := by
  obtain ⟨table_valid, routines_valid⟩ := program_validate_iff.mp valid
  have closed := closed_of_validate table_valid
  have inside (r : Routine) (member : r ∈ p.routines) : r.Inside p.table :=
    inside_of_validate (routines_valid r member)
  have sequential (settings : Settings) : (p.compile settings terminal).Sequential settings terminal p := by
    obtain ⟨rs, run, processed, -⟩ := processRoutines_ok settings closed p.routines (.start terminal) inside
    obtain ⟨-, routines, extended⟩ := extends_processRoutines processed
    have diagnostics : run.diagnostics = ⟨terminal, p.routines.flatMap (Routine.messages p.table)⟩ :=
      extended.diagnostics
    have compiled : p.compile settings terminal = ⟨⟨p.table, rs⟩, run.close, run.verdict⟩ := by
      simp only [Program.compile, processed]
    rw [compiled]
    exact {
      table := rfl
      routines := routines
      diagnostics := diagnostics
      errorText := by
        rw [Run.close, diagnostics, extended.errorText]
        exact congrArg (· ++ _) (String.empty_append ..)
      result := verdict_sequential terminal p.routines diagnostics
      log := extended.log
      counted := fun r member => getLast?_log_checkAlone closed (inside r member) }
  refine ⟨sequential settings, fun other => ?_⟩
  rw [(sequential settings).result, (sequential settings).diagnostics, (sequential settings).errorText]
  rw [(sequential other).result, (sequential other).diagnostics, (sequential other).errorText]
  exact ⟨rfl, rfl, rfl⟩

/-- The program itself three times: without errors, with an error, and without errors again. -/
theorem compile_sequential_faulty_between :
    let sum : Expr := .binary ⟨⟨1, 7⟩, 0⟩ .add (.integer ⟨⟨1, 7⟩, 0⟩ 1) (.integer ⟨⟨1, 11⟩, 0⟩ 2)
    let clean : Routine := ⟨3, [.loop ⟨1, 1⟩ sum []]⟩
    let faulty : Routine := ⟨3, [.ret ⟨2, 1⟩ (some sum)]⟩
    let p : Program := ⟨.new "main", [clean, faulty, clean]⟩
    let c := p.compile .default .plain
    p.validate = .ok () ∧ c.Sequential .default .plain p ∧
      c.result = .error (.typeErrors 1) ∧
      c.program.routines = [clean.settled .default p.table true, faulty.settled .default p.table false,
        clean.settled .default p.table false] := by
  intro sum clean faulty p c
  have valid : p.validate = .ok () := rfl
  have sequential := (compile_sequential .default .plain p valid).1
  have silent : clean.messages p.table = [] := rfl
  have reported : (faulty.messages p.table).length = 1 := rfl
  have spoken : (faulty.messages p.table).isEmpty = false := rfl
  refine ⟨valid, sequential, ?_, ?_⟩
  · rw [sequential.result, if_neg fun none => ?_]
    · simp [p, silent, reported]
    · simp [none faulty (by simp [p])] at spoken
  · rw [sequential.routines]
    simp [p, optimizes, silent, spoken, Settings.default]

end MiniPascal
