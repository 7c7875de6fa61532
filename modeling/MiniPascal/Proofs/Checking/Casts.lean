import MiniPascal.Proofs.Checking.Annotation
import MiniPascal.Proofs.Checking.Totality
import MiniPascal.Proofs.Retyping.Erasure

/-!
# Casts that checking adds

Without its casts and its stored types a checked body is what it was before. Each cast that was
added stands for a line in the log, and has an integer below it, or the name of that type.
-/

namespace MiniPascal

/-! ## Trees without casts -/

mutual

/-- The expression without its casts. -/
def Expr.uncast : Expr → Expr
  | .name n s => .name n s
  | .element n array index => .element n array index.uncast
  | .integer n v => .integer n v
  | .real n v => .real n v
  | .cast _ e => e.uncast
  | .negate n e => .negate n e.uncast
  | .not n e => .not n e.uncast
  | .call n callee args => .call n callee (argsUncast args)
  | .binary n op l r => .binary n op l.uncast r.uncast
  | .relation n op l r => .relation n op l.uncast r.uncast

def argsUncast : List Expr → List Expr
  | [] => []
  | e :: es => e.uncast :: argsUncast es

end

mutual

def Stmt.uncast : Stmt → Stmt
  | .assign p target value => .assign p target.uncast value.uncast
  | .branch p condition body elsifs none =>
    .branch p condition.uncast (bodyUncast body) (elsifsUncast elsifs) none
  | .branch p condition body elsifs (some otherwise) =>
    .branch p condition.uncast (bodyUncast body) (elsifsUncast elsifs) (some (bodyUncast otherwise))
  | .loop p condition body => .loop p condition.uncast (bodyUncast body)
  | .ret p none => .ret p none
  | .ret p (some value) => .ret p (some value.uncast)
  | .call p callee args => .call p callee (argsUncast args)

def Elsif.uncast : Elsif → Elsif
  | .clause p condition body => .clause p condition.uncast (bodyUncast body)

def elsifsUncast : List Elsif → List Elsif
  | [] => []
  | e :: es => e.uncast :: elsifsUncast es

/-- The body without its casts. -/
def bodyUncast : List Stmt → List Stmt
  | [] => []
  | s :: ss => s.uncast :: bodyUncast ss

end

/-! ## Erasing -/

theorem Widens.uncast {e e' : Expr} {k : Nat} (widens : Widens e e' k) : e'.uncast = e.uncast := by
  cases widens with
  | keep => rfl
  | cast _ => rw [Expr.uncast]

theorem WidensArgs.uncast {es es' : List Expr} {k : Nat} (widens : WidensArgs es es' k) :
    argsUncast es' = argsUncast es := by
  induction widens with
  | nil => rfl
  | cons first _ ih => rw [argsUncast, argsUncast, first.uncast, ih]

mutual

theorem Expr.Annotates.erased {e e' : Expr} {k : Nat} (annotates : e.Annotates e' k) :
    e'.uncast.untyped = e.uncast.untyped := by
  match annotates with
  | .name .. | .integer .. | .real .. => rfl
  | .cast _ _ i => simp only [Expr.uncast, i.erased]
  | .element _ _ _ i | .negate _ _ i | .not _ _ i =>
    simp only [Expr.uncast, Expr.untyped, Note.untyped, i.erased]
  | .call _ _ _ as ws => simp only [Expr.uncast, Expr.untyped, Note.untyped, ws.uncast, as.erased]
  | .binary _ _ _ l r lw rw | .relation _ _ _ l r lw rw =>
    simp only [Expr.uncast, Expr.untyped, Note.untyped, lw.uncast, rw.uncast, l.erased, r.erased]

theorem ArgsAnnotates.erased {es es' : List Expr} {k : Nat} (annotates : ArgsAnnotates es es' k) :
    argsUntyped (argsUncast es') = argsUntyped (argsUncast es) := by
  match annotates with
  | .nil => rfl
  | .cons first others => simp only [argsUncast, argsUntyped, first.erased, others.erased]

end

mutual

theorem Stmt.Annotates.erased {s s' : Stmt} {k : Nat} (annotates : s.Annotates s' k) :
    s'.uncast.untyped = s.uncast.untyped := by
  match annotates with
  | .assign _ t v w => simp only [Stmt.uncast, Stmt.untyped, w.uncast, t.erased, v.erased]
  | .branch _ c b es => simp only [Stmt.uncast, Stmt.untyped, c.erased, b.erased, es.erased]
  | .branchElse _ c b es o => simp only [Stmt.uncast, Stmt.untyped, c.erased, b.erased, es.erased, o.erased]
  | .loop _ c b => simp only [Stmt.uncast, Stmt.untyped, c.erased, b.erased]
  | .ret _ => rfl
  | .retValue _ v => simp only [Stmt.uncast, Stmt.untyped, v.erased]
  | .call _ _ as ws => simp only [Stmt.uncast, Stmt.untyped, ws.uncast, as.erased]

theorem Elsif.Annotates.erased {e e' : Elsif} {k : Nat} (annotates : e.Annotates e' k) :
    e'.uncast.untyped = e.uncast.untyped := by
  match annotates with
  | .clause _ c b => simp only [Elsif.uncast, Elsif.untyped, c.erased, b.erased]

theorem ElsifsAnnotates.erased {es es' : List Elsif} {k : Nat} (annotates : ElsifsAnnotates es es' k) :
    elsifsUntyped (elsifsUncast es') = elsifsUntyped (elsifsUncast es) := by
  match annotates with
  | .nil => rfl
  | .cons first others => simp only [elsifsUncast, elsifsUntyped, first.erased, others.erased]

theorem BodyAnnotates.erased {b b' : List Stmt} {k : Nat} (annotates : BodyAnnotates b b' k) :
    bodyUntyped (bodyUncast b') = bodyUntyped (bodyUncast b) := by
  match annotates with
  | .nil => rfl
  | .cons first others => simp only [bodyUncast, bodyUntyped, first.erased, others.erased]

end

/-! ## Counting -/

theorem Widens.count {e e' : Expr} {k : Nat} (widens : Widens e e' k) (f : Form) :
    f.count e'.parts = f.count e.parts + k * f.tally .cast := by
  cases widens with
  | keep => simp
  | cast _ => simp [Expr.parts, Expr.form]

theorem WidensArgs.count {es es' : List Expr} {k : Nat} (widens : WidensArgs es es' k) (f : Form) :
    f.count (argParts es') = f.count (argParts es) + k * f.tally .cast := by
  induction widens with
  | nil => simp
  | cons first _ ih =>
    simp only [argParts, Form.count_append, Nat.add_mul, first.count, ih]
    omega

mutual

theorem Expr.Annotates.count {e e' : Expr} {k : Nat} (annotates : e.Annotates e' k) (f : Form) :
    f.count e'.parts = f.count e.parts + k * f.tally .cast := by
  match annotates with
  | .name .. | .integer .. | .real .. => simp [Expr.parts, Expr.form]
  | .element _ _ _ i | .cast _ _ i | .negate _ _ i | .not _ _ i =>
    simp only [Expr.parts, Expr.form, Form.count_cons, i.count]
    omega
  | .call _ _ _ as ws =>
    simp only [Expr.parts, Expr.form, Form.count_cons, Nat.add_mul, ws.count, as.count]
    omega
  | .binary _ _ _ l r lw rw | .relation _ _ _ l r lw rw =>
    simp only [Expr.parts, Expr.form, Form.count_cons, Form.count_append, Nat.add_mul, lw.count, rw.count,
      l.count, r.count]
    omega

theorem ArgsAnnotates.count {es es' : List Expr} {k : Nat} (annotates : ArgsAnnotates es es' k) (f : Form) :
    f.count (argParts es') = f.count (argParts es) + k * f.tally .cast := by
  match annotates with
  | .nil => simp
  | .cons first others =>
    simp only [argParts, Form.count_append, Nat.add_mul, first.count, others.count]
    omega

end

mutual

theorem Stmt.Annotates.count {s s' : Stmt} {k : Nat} (annotates : s.Annotates s' k) (f : Form) :
    f.count s'.parts = f.count s.parts + k * f.tally .cast := by
  match annotates with
  | .assign _ t v w =>
    simp only [Stmt.parts, Form.count_append, Nat.add_mul, w.count, t.count, v.count]
    omega
  | .branch _ c b es =>
    simp only [Stmt.parts, Form.count_append, Nat.add_mul, c.count, b.count, es.count]
    omega
  | .branchElse _ c b es o =>
    simp only [Stmt.parts, Form.count_append, Nat.add_mul, c.count, b.count, es.count, o.count]
    omega
  | .loop _ c b =>
    simp only [Stmt.parts, Form.count_append, Nat.add_mul, c.count, b.count]
    omega
  | .ret _ => simp
  | .retValue _ v => simp only [Stmt.parts, v.count]
  | .call _ _ as ws =>
    simp only [Stmt.parts, Nat.add_mul, ws.count, as.count]
    omega

theorem Elsif.Annotates.count {e e' : Elsif} {k : Nat} (annotates : e.Annotates e' k) (f : Form) :
    f.count e'.parts = f.count e.parts + k * f.tally .cast := by
  match annotates with
  | .clause _ c b =>
    simp only [Elsif.parts, Form.count_append, Nat.add_mul, c.count, b.count]
    omega

theorem ElsifsAnnotates.count {es es' : List Elsif} {k : Nat} (annotates : ElsifsAnnotates es es' k) (f : Form) :
    f.count (elsifParts es') = f.count (elsifParts es) + k * f.tally .cast := by
  match annotates with
  | .nil => simp
  | .cons first others =>
    simp only [elsifParts, Form.count_append, Nat.add_mul, first.count, others.count]
    omega

theorem BodyAnnotates.count {b b' : List Stmt} {k : Nat} (annotates : BodyAnnotates b b' k) (f : Form) :
    f.count (bodyParts b') = f.count (bodyParts b) + k * f.tally .cast := by
  match annotates with
  | .nil => simp
  | .cons first others =>
    simp only [bodyParts, Form.count_append, Nat.add_mul, first.count, others.count]
    omega

end

/-! ## The log -/

/-- Whether a line of the log tells of a conversion. -/
def LogEntry.isWidening (entry : LogEntry) : Bool :=
  "widening expression".toList.isPrefixOf entry.text.toList

theorem Event.isWidening_log (event : Event) : event.log?.any LogEntry.isWidening = event.isWidening := by
  cases event with
  | widened pos => simp [Event.log?, LogEntry.isWidening, LogEntry.debug, Event.isWidening, List.isPrefixOf]
  | started | finished | mismatched =>
    -- the first letter is another one
    simp [Event.log?, LogEntry.isWidening, LogEntry.debug, Event.isWidening, List.isPrefixOf]
  | error => rfl

/-- The lines of the log that tell of conversions are as many as the conversions. -/
theorem widenings_log (events : List Event) :
    (events.filterMap Event.log?).countP LogEntry.isWidening = widenings events := by
  induction events with
  | nil => rfl
  | cons event events ih =>
    have here := event.isWidening_log
    rw [List.filterMap_cons, widenings, List.countP_cons, ← here]
    cases event.log? with
    | none => exact ih
    | some entry =>
      rw [List.countP_cons, ih]
      rfl

/-! ## What is below a cast -/

/-- The casts among the expressions are to real, and have something below that may be converted. -/
def CastsWiden (es : List Expr) : Prop :=
  ∀ n inner, .cast n inner ∈ es → n.type = realType ∧ inner.Widenable

@[simp] theorem castsWiden_nil : CastsWiden [] := by
  simp [CastsWiden]

theorem castsWiden_append {es es' : List Expr} (front : CastsWiden es) (back : CastsWiden es') :
    CastsWiden (es ++ es') := by
  intro n inner cast
  rcases List.mem_append.mp cast with cast | cast
  · exact front n inner cast
  · exact back n inner cast

theorem castsWiden_cons {e : Expr} {es : List Expr} (other : e.form ≠ .cast) (others : CastsWiden es) :
    CastsWiden (e :: es) := by
  intro n inner cast
  rcases List.mem_cons.mp cast with rfl | cast
  · exact absurd rfl other
  · exact others n inner cast

theorem Widens.castsWiden {e e' : Expr} {k : Nat} (widens : Widens e e' k) (casts : CastsWiden e.parts) :
    CastsWiden e'.parts := by
  cases widens with
  | keep => exact casts
  | cast widenable =>
    intro n inner cast
    rcases List.mem_cons.mp cast with same | below
    · cases same
      exact ⟨rfl, widenable⟩
    · exact casts n inner below

theorem WidensArgs.castsWiden {es es' : List Expr} {k : Nat} (widens : WidensArgs es es' k)
    (casts : CastsWiden (argParts es)) : CastsWiden (argParts es') := by
  induction widens with
  | nil => exact casts
  | cons first _ ih =>
    have front := first.castsWiden fun n inner cast => casts n inner (List.mem_append_left _ cast)
    have back := ih fun n inner cast => casts n inner (List.mem_append_right _ cast)
    exact castsWiden_append front back

mutual

theorem Expr.Annotates.castsWiden {e e' : Expr} {k : Nat} (annotates : e.Annotates e' k)
    (castless : Form.cast.count e.parts = 0) : CastsWiden e'.parts := by
  match annotates with
  | .name .. | .integer .. | .real .. => exact castsWiden_cons (by simp [Expr.form]) castsWiden_nil
  | .cast .. => simp [Expr.parts, Expr.form] at castless
  | .element _ _ _ i | .negate _ _ i | .not _ _ i =>
    simp only [Expr.parts, Form.count_cons, Nat.add_eq_zero_iff] at castless
    exact castsWiden_cons (by simp [Expr.form]) (i.castsWiden castless.1)
  | .call _ _ _ as ws =>
    simp only [Expr.parts, Form.count_cons, Nat.add_eq_zero_iff] at castless
    exact castsWiden_cons (by simp [Expr.form]) (ws.castsWiden (as.castsWiden castless.1))
  | .binary _ _ _ l r lw rw | .relation _ _ _ l r lw rw =>
    simp only [Expr.parts, Form.count_cons, Form.count_append, Nat.add_eq_zero_iff] at castless
    obtain ⟨⟨left, right⟩, -⟩ := castless
    have front := lw.castsWiden (l.castsWiden left)
    have back := rw.castsWiden (r.castsWiden right)
    exact castsWiden_cons (by simp [Expr.form]) (castsWiden_append front back)

theorem ArgsAnnotates.castsWiden {es es' : List Expr} {k : Nat} (annotates : ArgsAnnotates es es' k)
    (castless : Form.cast.count (argParts es) = 0) : CastsWiden (argParts es') := by
  match annotates with
  | .nil => exact castsWiden_nil
  | .cons first others =>
    simp only [argParts, Form.count_append, Nat.add_eq_zero_iff] at castless
    exact castsWiden_append (first.castsWiden castless.1) (others.castsWiden castless.2)

end

mutual

theorem Stmt.Annotates.castsWiden {s s' : Stmt} {k : Nat} (annotates : s.Annotates s' k)
    (castless : Form.cast.count s.parts = 0) : CastsWiden s'.parts := by
  match annotates with
  | .assign _ t v w =>
    simp only [Stmt.parts, Form.count_append, Nat.add_eq_zero_iff] at castless
    exact castsWiden_append (t.castsWiden castless.1) (w.castsWiden (v.castsWiden castless.2))
  | .branch _ c b es =>
    simp only [Stmt.parts, Form.count_append, Nat.add_eq_zero_iff] at castless
    obtain ⟨⟨condition, body⟩, elsifs⟩ := castless
    have front := castsWiden_append (c.castsWiden condition) (b.castsWiden body)
    exact castsWiden_append front (es.castsWiden elsifs)
  | .branchElse _ c b es o =>
    simp only [Stmt.parts, Form.count_append, Nat.add_eq_zero_iff] at castless
    obtain ⟨⟨⟨condition, body⟩, elsifs⟩, otherwise⟩ := castless
    have front := castsWiden_append (c.castsWiden condition) (b.castsWiden body)
    exact castsWiden_append (castsWiden_append front (es.castsWiden elsifs)) (o.castsWiden otherwise)
  | .loop _ c b =>
    simp only [Stmt.parts, Form.count_append, Nat.add_eq_zero_iff] at castless
    exact castsWiden_append (c.castsWiden castless.1) (b.castsWiden castless.2)
  | .ret _ => exact castsWiden_nil
  | .retValue _ v => exact v.castsWiden castless
  | .call _ _ as ws => exact ws.castsWiden (as.castsWiden castless)

theorem Elsif.Annotates.castsWiden {e e' : Elsif} {k : Nat} (annotates : e.Annotates e' k)
    (castless : Form.cast.count e.parts = 0) : CastsWiden e'.parts := by
  match annotates with
  | .clause _ c b =>
    simp only [Elsif.parts, Form.count_append, Nat.add_eq_zero_iff] at castless
    exact castsWiden_append (c.castsWiden castless.1) (b.castsWiden castless.2)

theorem ElsifsAnnotates.castsWiden {es es' : List Elsif} {k : Nat} (annotates : ElsifsAnnotates es es' k)
    (castless : Form.cast.count (elsifParts es) = 0) : CastsWiden (elsifParts es') := by
  match annotates with
  | .nil => exact castsWiden_nil
  | .cons first others =>
    simp only [elsifParts, Form.count_append, Nat.add_eq_zero_iff] at castless
    exact castsWiden_append (first.castsWiden castless.1) (others.castsWiden castless.2)

theorem BodyAnnotates.castsWiden {b b' : List Stmt} {k : Nat} (annotates : BodyAnnotates b b' k)
    (castless : Form.cast.count (bodyParts b) = 0) : CastsWiden (bodyParts b') := by
  match annotates with
  | .nil => exact castsWiden_nil
  | .cons first others =>
    simp only [bodyParts, Form.count_append, Nat.add_eq_zero_iff] at castless
    exact castsWiden_append (first.castsWiden castless.1) (others.castsWiden castless.2)

end

/-! ## Checked bodies -/

variable (table : SymbolTable)

/-- Whether there are errors or not, checking a body only changes stored types and puts casts to real
around assigned values, operands and arguments: one for each line of the log that tells of it. The
body without casts and stored types, and the symbols that it refers to, stay. -/
theorem check_annotates_and_widens (env : SymbolIndex) (b : Body) :
    let checked := b.check table env
    let added := checked.log.countP LogEntry.isWidening
    bodyUntyped (bodyUncast checked.tree) = bodyUntyped (bodyUncast b) ∧
      BodyAnnotates b checked.tree added ∧
      Form.cast.count (bodyParts checked.tree) = Form.cast.count (bodyParts b) + added ∧
      bodySymbols checked.tree = bodySymbols b := by
  intro checked added
  have annotates : BodyAnnotates b checked.tree (widenings checked.events) := annotates_check table env b
  have logged : added = widenings checked.events := widenings_log checked.events
  rw [← logged] at annotates
  refine ⟨annotates.erased, annotates, ?_, bodySymbols_check table env b⟩
  have counted := annotates.count .cast
  rwa [Form.tally_self, Nat.mul_one] at counted

/-- In a body that came without casts, all casts after checking are to real, and what is below has the
stored type integer or is the name of that type. -/
theorem casts_widen_integers (env : SymbolIndex) (b : Body) (castless : Form.cast.count (bodyParts b) = 0) :
    ∀ n inner, .cast n inner ∈ bodyParts (b.check table env).tree →
      n.type = realType ∧ (inner.type = integerType ∨ ∃ m, inner = .name m integerType) :=
  (annotates_check table env b).castsWiden castless

/-- A real variable gets an integer. -/
theorem casts_widen_integers_assigned_literal :
    let main := SymbolTable.new "main"
    let table := { main with symbols := main.symbols ++ [.plain "x" .variable realType] }
    let note : Note := ⟨⟨1, 1⟩, voidType⟩
    let b : Body := [.assign ⟨1, 1⟩ (.name note 4) (.integer note 7)]
    let tree := (b.check table 3).tree
    Form.cast.count (bodyParts b) = 0 ∧
      .cast ⟨⟨1, 1⟩, realType⟩ (.integer ⟨⟨1, 1⟩, integerType⟩ 7) ∈ bodyParts tree ∧
      ∀ n inner, .cast n inner ∈ bodyParts tree →
        n.type = realType ∧ (inner.type = integerType ∨ ∃ m, inner = .name m integerType) := by
  intro main table note b tree
  have castless : Form.cast.count (bodyParts b) = 0 := rfl
  have parts : bodyParts tree =
      [.name ⟨⟨1, 1⟩, realType⟩ 4, .cast ⟨⟨1, 1⟩, realType⟩ (.integer ⟨⟨1, 1⟩, integerType⟩ 7),
        .integer ⟨⟨1, 1⟩, integerType⟩ 7] := rfl
  refine ⟨castless, ?_, casts_widen_integers table 3 b castless⟩
  rw [parts]
  exact .tail _ (.head _)

/-- The name of the integer type is converted as well, and the type that is stored for it is none. -/
theorem casts_widen_other_types :
    ¬∀ (table : SymbolTable) (env : SymbolIndex) (b : Body), table.validate = .ok () →
      table.contains env = true → table.Covers (bodySymbols b) → Form.cast.count (bodyParts b) = 0 →
      (b.check table env).messages = [] →
      ∀ n inner, .cast n inner ∈ bodyParts (b.check table env).tree →
        n.type = realType ∧ inner.type = integerType := by
  intro widen
  let main := SymbolTable.new "main"
  let table : SymbolTable := { main with symbols := main.symbols ++ [.plain "x" .variable realType] }
  let note : Note := ⟨⟨1, 1⟩, voidType⟩
  let b : Body := [.assign ⟨1, 1⟩ (.name note 4) (.name note integerType)]
  have inside : table.Covers (bodySymbols b) := by
    change ∀ i ∈ [4, 1], i < 5
    decide
  have parts : bodyParts (b.check table 3).tree =
      [.name ⟨⟨1, 1⟩, realType⟩ 4, .cast ⟨⟨1, 1⟩, realType⟩ (.name ⟨⟨1, 1⟩, voidType⟩ integerType),
        .name ⟨⟨1, 1⟩, voidType⟩ integerType] := rfl
  have cast : .cast ⟨⟨1, 1⟩, realType⟩ (.name ⟨⟨1, 1⟩, voidType⟩ integerType) ∈
      bodyParts (b.check table 3).tree := by
    rw [parts]
    exact .tail _ (.head _)
  have stored := (widen table 3 b rfl rfl inside rfl rfl _ _ cast).2
  exact absurd stored (by decide)

end MiniPascal
