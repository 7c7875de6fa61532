import MiniPascal.CommandLine.Run
import MiniPascal.Proofs.Compilation.Saving
import MiniPascal.Proofs.Json.Bytes

/-!
# The verdict on a file

What a run says about a file that can be read, and the status it ends with, follow from the content of the file.
The options decide on dumps and passes, and on nothing else that is seen from outside.
-/

namespace MiniPascal

/-! ## Programs -/

/-- What is written about a program: the messages of its routines in their order, and the closing line. -/
def Program.diagnosticsText (terminal : Terminal) (p : Program) : String :=
  let messages := p.routines.flatMap (Routine.messages p.table)
  terminal.render (messages.flatMap Message.pieces) ++ Diagnostics.statistics ⟨terminal, messages⟩

/-- Every routine is checked to its end, and nothing is said about it. -/
def Program.TypeChecks (p : Program) : Prop :=
  ∀ r ∈ p.routines, (r.checkAlone p.table).result = some () ∧ r.messages p.table = []

/-- Compiling a sound program does not abort. It accepts the program just if the program type checks, and writes
the same about it under all settings. -/
structure Compilation.Speaks (terminal : Terminal) (p : Program) (c : Compilation) : Prop where
  result : c.result = .ok () ∨ ∃ n, c.result = .error (.typeErrors n)
  accepted_iff : c.result = .ok () ↔ p.TypeChecks
  errorText : c.run.errorText = p.diagnosticsText terminal

theorem speaks_compile (settings : Settings) (terminal : Terminal) {p : Program} (valid : p.validate = .ok ()) :
    (p.compile settings terminal).Speaks terminal p := by
  obtain ⟨table_valid, routines_valid⟩ := program_validate_iff.mp valid
  have closed := closed_of_validate table_valid
  obtain ⟨rs, run, processed, -⟩ := processRoutines_ok settings closed p.routines (.start terminal)
    fun r member => inside_of_validate (routines_valid r member)
  obtain ⟨-, -, extended⟩ := extends_processRoutines processed
  have diagnostics : run.diagnostics = ⟨terminal, p.routines.flatMap (Routine.messages p.table)⟩ :=
    extended.diagnostics
  have compiled : p.compile settings terminal = ⟨⟨p.table, rs⟩, run.close, run.verdict⟩ := by
    simp only [Program.compile, processed]
  constructor
  · rw [compiled]
    rcases verdict_cases run with accepted | ⟨n, -, errors⟩
    · exact .inl accepted
    · exact .inr ⟨n, errors⟩
  · rw [(accepts_compile settings terminal valid).accepted_iff]
    exact forall₂_congr fun r member =>
      (and_iff_right (result_checkAlone closed (routines_valid r member))).symm
  · rw [compiled, Program.diagnosticsText, Run.close, diagnostics, extended.errorText]
    exact congrArg (· ++ _) (String.empty_append ..)

/-! ## Files -/

theorem load_of_decode?_none {s : String} (undecoded : Json.decode? Program.decoder s = none) :
    Program.load s = .error .malformed := by
  rw [Program.load, undecoded]

theorem load_of_validate_error {s : String} {p : Program} {e : ProgramError}
    (decoded : Json.decode? Program.decoder s = some p) (invalid : p.validate = .error e) :
    Program.load s = .error (.invalid e) := by
  rw [Program.load, decoded]
  dsimp only
  rw [invalid]
  rfl

namespace CommandLine

/-- What is written about a file that holds no sound program: that it does not, and why. -/
def decodeFailureText (file cause : String) : String :=
  "error: cannot decode program in " ++ Quoted.text file ++ "\n" ++ "caused by: " ++ cause ++ "\n"

theorem text_decodeFailure (file cause : String) :
    (fileFailure "decode program in" file cause).text = decodeFailureText file cause := by
  unfold fileFailure decodeFailureText
  generalize Quoted.text file = quoted
  simp [Failure.text, Failure.within, Failure.root, String.join, ← String.append_assoc]

/-- What may be reported about a file with the given text. It is settled up to the dumps. -/
inductive Judges (w : Wording) (terminal : Terminal) (file content : String) : Report → Prop
  | refuse {e} : Program.load content = .error e →
    Judges w terminal file content ⟨1, "", decodeFailureText file (loadErrorText w e)⟩
  | accept {p} (dumps) : Program.load content = .ok p → p.TypeChecks →
    Judges w terminal file content ⟨0, dumps, p.diagnosticsText terminal⟩
  | criticise {p} (dumps) : Program.load content = .ok p → ¬p.TypeChecks →
    Judges w terminal file content ⟨1, dumps, p.diagnosticsText terminal⟩

namespace Judges

variable {w : Wording} {terminal : Terminal} {file content : String} {report other : Report}

theorem status_cases (judges : Judges w terminal file content report) : report.status = 0 ∨ report.status = 1 := by
  cases judges with
  | refuse | criticise => exact .inr rfl
  | accept => exact .inl rfl

theorem status_eq_zero_iff (judges : Judges w terminal file content report) :
    report.status = 0 ↔ ∃ p, Program.load content = .ok p ∧ p.TypeChecks := by
  cases judges with
  | refuse refused =>
    refine iff_of_false Nat.one_ne_zero ?_
    rintro ⟨p, loaded, -⟩
    cases refused.symm.trans loaded
  | accept dumps loaded checks => exact iff_of_true rfl ⟨_, loaded, checks⟩
  | criticise dumps loaded fails =>
    refine iff_of_false Nat.one_ne_zero ?_
    rintro ⟨p, loaded', checks⟩
    cases loaded.symm.trans loaded'
    exact fails checks

theorem errors_of_load {p : Program} (judges : Judges w terminal file content report)
    (loaded : Program.load content = .ok p) : report.errors = p.diagnosticsText terminal := by
  cases judges with
  | refuse refused => cases refused.symm.trans loaded
  | accept dumps loaded' | criticise dumps loaded' =>
    cases loaded'.symm.trans loaded
    rfl

theorem eq_of_load_error {e : LoadError} (judges : Judges w terminal file content report)
    (refused : Program.load content = .error e) :
    report = ⟨1, "", decodeFailureText file (loadErrorText w e)⟩ := by
  cases judges with
  | refuse refused' =>
    cases refused'.symm.trans refused
    rfl
  | accept dumps loaded | criticise dumps loaded => cases loaded.symm.trans refused

/-- Two reports about a file differ in the dumps at most. -/
theorem same (judges : Judges w terminal file content report) (others : Judges w terminal file content other) :
    other.status = report.status ∧ other.errors = report.errors := by
  cases loaded : Program.load content with
  | error e =>
    rw [judges.eq_of_load_error loaded, others.eq_of_load_error loaded]
    exact ⟨rfl, rfl⟩
  | ok p =>
    refine ⟨?_, (others.errors_of_load loaded).trans (judges.errors_of_load loaded).symm⟩
    have zero_iff : other.status = 0 ↔ report.status = 0 :=
      others.status_eq_zero_iff.trans judges.status_eq_zero_iff.symm
    have one := judges.status_cases
    have other_one := others.status_cases
    omega

end Judges

/-! ## Runs -/

theorem judges_compiled (settings : Settings) (terminal : Terminal) (w : Wording) (file : String)
    {content : String} {p : Program} (loaded : Program.load content = .ok p) :
    Judges w terminal file content ((Ending.compiled (p.compile settings terminal)).report w) := by
  have speaks := speaks_compile settings terminal (load_eq_ok_iff.mp loaded).2
  rw [Ending.report]
  rcases speaks.result with accepted | ⟨n, errors⟩
  · rw [accepted, speaks.errorText]
    exact .accept _ loaded (speaks.accepted_iff.mp accepted)
  · have fails : ¬p.TypeChecks := by
      rw [← speaks.accepted_iff, errors]
      nofun
    rw [errors, speaks.errorText]
    exact .criticise _ loaded fails

section Runs

variable {arguments : List String} {files : String → FileContent} {task : Task} {bytes : ByteArray}

theorem run_of_readable (terminal : Terminal) (parsed : parse arguments = .ok (.compile task))
    (readable : files task.file = .ofBytes bytes) :
    run arguments files terminal =
      match Program.load (Json.textOfBytes bytes) with
      | .error e => .cannotDecode task.file e
      | .ok p => .compiled (p.compile task.settings terminal) := by
  rw [run, parsed]
  dsimp only
  rw [readable]
  rfl

theorem run_of_load_error {e : LoadError} (terminal : Terminal) (parsed : parse arguments = .ok (.compile task))
    (readable : files task.file = .ofBytes bytes) (refused : Program.load (Json.textOfBytes bytes) = .error e) :
    run arguments files terminal = .cannotDecode task.file e := by
  rw [run_of_readable terminal parsed readable, refused]

theorem judges_run (terminal : Terminal) (w : Wording) (parsed : parse arguments = .ok (.compile task))
    (readable : files task.file = .ofBytes bytes) :
    Judges w terminal task.file (Json.textOfBytes bytes) ((run arguments files terminal).report w) := by
  rw [run_of_readable terminal parsed readable]
  cases loaded : Program.load (Json.textOfBytes bytes) with
  | error e =>
    dsimp only
    rw [Ending.report, Report.failed, text_decodeFailure]
    exact .refuse loaded
  | ok p => exact judges_compiled task.settings terminal w task.file loaded

/-- A run on a readable file ends with 0 if the file holds a sound program that type checks, and with 1 if it does
not. If it holds no sound program, nothing is compiled, and the error output tells so with the cause. Otherwise
the error output is what checking says about the program. The options decide on neither. -/
theorem run_verdict (terminal : Terminal) (w : Wording) (parsed : parse arguments = .ok (.compile task))
    (readable : files task.file = .ofBytes bytes) :
    let decoded := Json.decode? Program.decoder (Json.textOfBytes bytes)
    let ending := run arguments files terminal
    let report := ending.report w
    (report.status = 0 ↔ ∃ p, decoded = some p ∧ p.validate = .ok () ∧ p.TypeChecks) ∧
      (report.status = 0 ∨ report.status = 1) ∧
      (decoded = none → ending = .cannotDecode task.file .malformed ∧
        report = ⟨1, "", decodeFailureText task.file w.malformed⟩) ∧
      (∀ p e, decoded = some p → p.validate = .error e → ending = .cannotDecode task.file (.invalid e) ∧
        report = ⟨1, "", decodeFailureText task.file e.message⟩) ∧
      (∀ p, decoded = some p → p.validate = .ok () → report.errors = p.diagnosticsText terminal) ∧
      ∀ others otherTask, parse others = .ok (.compile otherTask) → otherTask.file = task.file →
        let other := (run others files terminal).report w
        other.status = report.status ∧ other.errors = report.errors := by
  intro decoded ending report
  have judges : Judges w terminal task.file (Json.textOfBytes bytes) report :=
    judges_run terminal w parsed readable
  refine ⟨?_, judges.status_cases, fun undecoded => ?_, fun p e some_program invalid => ?_,
    fun p some_program valid => judges.errors_of_load (load_eq_ok_iff.mpr ⟨some_program, valid⟩),
    fun others otherTask others_parsed same_file => ?_⟩
  · rw [judges.status_eq_zero_iff]
    exact exists_congr fun p => by rw [load_eq_ok_iff, and_assoc]
  · have refused := load_of_decode?_none undecoded
    have reported := judges.eq_of_load_error refused
    rw [loadErrorText] at reported
    exact ⟨run_of_load_error terminal parsed readable refused, reported⟩
  · have refused := load_of_validate_error some_program invalid
    have reported := judges.eq_of_load_error refused
    rw [loadErrorText] at reported
    exact ⟨run_of_load_error terminal parsed readable refused, reported⟩
  · have others_readable : files otherTask.file = .ofBytes bytes := same_file ▸ readable
    have others_judge := judges_run terminal w others_parsed others_readable
    rw [same_file] at others_judge
    exact judges.same others_judge

end Runs

/-- A program in which a value is returned, with all options and with none. -/
theorem run_verdict_returned_value :
    let table : SymbolTable := ⟨(SymbolTable.new "main").symbols, 3, [], .empty⟩
    let p : Program := ⟨table, [⟨3, [.ret ⟨2, 1⟩ (some (.integer ⟨⟨2, 8⟩, integerType⟩ 1))]⟩]⟩
    let files := fun _ => FileContent.ofBytes p.toJson.text.toUTF8
    let arguments := ["--dump-ast", "-Onone", "--stop-after=semantics", "p.json"]
    let ending := run arguments files .plain
    let other := run ["p.json"] files .plain
    let w : Wording := ⟨"", "", ""⟩
    parse arguments = .ok (.compile ⟨"p.json", ⟨.semantics, .none, true⟩⟩) ∧ (ending.report w).status = 1 ∧
      (ending.report w).errors = "error: Procedures may not return a value.\n  --> 2:1\n" ++
        "Found an error. Compilation aborted.\n" ∧
      (other.report w).status = (ending.report w).status ∧ (other.report w).errors = (ending.report w).errors := by
  intro table p files arguments ending other w
  have decoded : Program.decoder Json.nestingLimit p.toJson = some p := by
    clear w ending other files arguments
    revert table
    rfl
  have valid : p.validate = .ok () := rfl
  have some_program : Json.decode? Program.decoder (Json.textOfBytes p.toJson.text.toUTF8) = some p := by
    rw [Json.textOfBytes_toUTF8]
    exact (load_eq_ok_iff.mp (load_text decoded valid)).1
  have parsed : parse arguments = .ok (.compile ⟨"p.json", ⟨.semantics, .none, true⟩⟩) := rfl
  have others_parsed : parse ["p.json"] = .ok (.compile ⟨"p.json", .default⟩) := rfl
  have readable : files "p.json" = .ofBytes p.toJson.text.toUTF8 := rfl
  have messages : p.routines.flatMap (Routine.messages p.table) =
      [⟨.error, some ⟨2, 1⟩, "Procedures may not return a value."⟩] := rfl
  have text : p.diagnosticsText .plain = "error: Procedures may not return a value.\n  --> 2:1\n" ++
      "Found an error. Compilation aborted.\n" := by
    rw [Program.diagnosticsText, messages]
    decide +kernel
  have fails : ¬p.TypeChecks := fun checks =>
    List.cons_ne_nil _ _ (checks _ (List.mem_singleton_self _)).2
  obtain ⟨zero_iff, status, -, -, errors, same⟩ := run_verdict .plain w parsed readable
  refine ⟨parsed, status.resolve_left fun zero => ?_, (errors p some_program valid).trans text,
    same _ _ others_parsed rfl⟩
  obtain ⟨q, some_q, -, checks⟩ := zero_iff.mp zero
  obtain rfl := Option.some.inj (some_program.symm.trans some_q)
  exact fails checks

end CommandLine

end MiniPascal
