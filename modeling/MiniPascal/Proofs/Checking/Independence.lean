import MiniPascal.Proofs.Checking.Stopping

/-!
# Statements are checked independently

Whatever else is checked before a statement or goes wrong there, the statement is rewritten as if it stood
alone, and its messages are those that it has alone. This is so for the statements of a body and for those of
each list of statements inside of it: checking turns the place of such a list into another place, and adds
messages in front of those of the list and behind them, whichever statements the list has.
-/

namespace MiniPascal

open Checked

/-! ## Steps around a part -/

namespace Checked

variable {τ υ φ σ ρ ς : Type} {c : Checked τ σ} {d : Checked υ ρ} {e : Checked φ ς} {rest : τ → φ}
  {next : τ → σ → Checked φ ς} {events front back : List Event}

/-- If both steps end, the second one starts from what the first one leaves. -/
theorem andThen_of_ends (ends : (c.andThen rest next).Ends) :
    ∃ s, c.result = some s ∧ (next c.tree s).Ends ∧ c.andThen rest next = (next c.tree s).after c.events := by
  obtain ⟨r, result⟩ := Option.isSome_iff_exists.mp ends
  obtain ⟨s, reached, second, -⟩ := andThen_eq_some result
  refine ⟨s, reached, ends_of_eq_some second, ?_⟩
  rw [andThen, reached, after]

/-- If the whole `c` ends, so does its part `d`: the tree of the part is put into the whole, and its events stand
between those in front and those behind. -/
def Encloses (c : Checked τ σ) (d : Checked υ ρ) (around : υ → τ) (front back : List Event) : Prop :=
  c.Ends → d.Ends ∧ c.tree = around d.tree ∧ c.events = front ++ d.events ++ back

theorem Encloses.self (c : Checked τ σ) : c.Encloses c id [] [] :=
  fun ends => ⟨ends, rfl, (List.append_nil _).symm⟩

theorem Encloses.trans {outer : υ → τ} {inner : φ → υ} {front' back' : List Event}
    (whole : c.Encloses d outer front back) (part : d.Encloses e inner front' back') :
    c.Encloses e (outer ∘ inner) (front ++ front') (back' ++ back) := by
  intro ends
  obtain ⟨part_ends, tree, events⟩ := whole ends
  obtain ⟨inner_ends, inner_tree, inner_events⟩ := part part_ends
  refine ⟨inner_ends, ?_, ?_⟩
  · rw [tree, inner_tree]
    rfl
  · rw [events, inner_events]
    simp only [List.append_assoc]

/-! ### Lists -/

/-- Checks the members of a list, the last one first. -/
def each {α : Type} (check : α → Checked α Bool) : List α → Checked (List α) Bool
  | [] => done [] [] false
  | a :: as =>
    (each check as).andThen (a :: ·) fun as later =>
      (check a).andThen (· :: as) fun a here => done (a :: as) [] (here || later)

variable {α : Type} (check : α → Checked α Bool)

theorem ends_each (as : List α) : (each check as).Ends ↔ ∀ a ∈ as, (check a).Ends := by
  induction as with
  | nil => exact iff_of_true (ends_done ..) (List.forall_mem_nil _)
  | cons a as ih =>
    rw [each, List.forall_mem_cons, and_comm]
    exact ends_andThen ih fun _ => ends_andThen_done Iff.rfl

/-- If all checks end, each member has the same part in the whole as alone. -/
theorem each_of_ends {as : List α} (ends : ∀ a ∈ as, (check a).Ends) :
    (each check as).tree = as.map (fun a => (check a).tree) ∧
      (each check as).events = as.reverse.flatMap fun a => (check a).events := by
  induction as with
  | nil => exact ⟨rfl, rfl⟩
  | cons a as ih =>
    obtain ⟨tree, events⟩ := ih fun b member => ends b (.tail a member)
    obtain ⟨later, others, first, both⟩ := andThen_of_ends ((ends_each check (a :: as)).mpr ends)
    obtain ⟨here, one, -, own⟩ := andThen_of_ends first
    rw [each, both, own, List.map_cons, List.reverse_cons, List.flatMap_append, ← tree, ← events]
    exact ⟨rfl, by simp [events_after, done]⟩

theorem encloses_member (before behind : List α) (a : α) :
    (each check (before ++ a :: behind)).Encloses (check a)
      (fun a => (each check before).tree ++ a :: (each check behind).tree)
      (each check behind).events (each check before).events := by
  intro ends
  have all_end := (ends_each check _).mp ends
  obtain ⟨tree, events⟩ := each_of_ends check all_end
  obtain ⟨in_front, here, in_back⟩ : (∀ a ∈ before, (check a).Ends) ∧ (check a).Ends ∧ ∀ a ∈ behind, (check a).Ends := by
    simpa only [List.forall_mem_append, List.forall_mem_cons] using all_end
  obtain ⟨front_tree, front_events⟩ := each_of_ends check in_front
  obtain ⟨back_tree, back_events⟩ := each_of_ends check in_back
  refine ⟨here, ?_, ?_⟩
  · rw [tree, front_tree, back_tree, List.map_append, List.map_cons]
  · rw [events, front_events, back_events]
    simp

end Checked

variable (table : SymbolTable)

theorem checkBody_eq_each (b : Body) : checkBody table b = each (Stmt.check table) b := by
  induction b with
  | nil => rfl
  | cons s b ih => rw [checkBody, each, ih]

theorem checkElsifs_eq_each (es : List Elsif) : checkElsifs table es = each (Elsif.check table) es := by
  induction es with
  | nil => rfl
  | cons e es ih => rw [checkElsifs, each, ih]

/-- If the checks of all statements end, each one has the same part in the whole as alone. -/
theorem checkBody_of_ends {b : Body} (ends : (checkBody table b).Ends) :
    (checkBody table b).tree = b.map (fun s => (s.check table).tree) ∧
      (checkBody table b).events = b.reverse.flatMap fun s => (s.check table).events := by
  rw [checkBody_eq_each] at ends ⊢
  exact each_of_ends _ ((ends_each _ b).mp ends)

/-! ## Places -/

/-- A statement around a list of statements: the body of a loop or of a branch, of one of the further conditions
of a branch, or the part of a branch that is taken otherwise. -/
inductive Frame where
  | loop (pos : Position) (condition : Expr)
  | branch (pos : Position) (condition : Expr) (elsifs : List Elsif) (otherwise : Option Body)
  | clause (pos : Position) (condition : Expr) (body : Body) (before : List Elsif) (place : Position)
    (further : Expr) (behind : List Elsif) (otherwise : Option Body)
  | otherwise (pos : Position) (condition : Expr) (body : Body) (elsifs : List Elsif)

/-- A frame among other statements. -/
structure Surrounding where
  before : Body
  frame : Frame
  behind : Body

/-- Where a list of statements stands in a body, from the inside out. -/
abbrev Place := List Surrounding

def Frame.fill : Frame → Body → Stmt
  | loop p condition, b => .loop p condition b
  | branch p condition elsifs rest, b => .branch p condition b elsifs rest
  | clause p condition body before q further behind rest, b =>
    .branch p condition body (before ++ .clause q further b :: behind) rest
  | otherwise p condition body elsifs, b => .branch p condition body elsifs (some b)

/-- The body with this list of statements at the place. -/
def Place.fill : Place → Body → Body
  | [], b => b
  | around :: place, b => Place.fill place (around.before ++ around.frame.fill b :: around.behind)

/-! ### What is around a list -/

/-- What the condition of a loop or a branch is criticised for. -/
def demanded (condition : Expr) (e : TypeError) : List Event :=
  unlessInteger ((condition.check table).result.getD voidType) (condition.check table).tree.pos e

def otherwiseEvents (rest : Option Body) : List Event :=
  rest.elim [] fun b => (checkBody table b).events

namespace Frame

/-- The frame with all its parts as they are checked. -/
def checked : Frame → Frame
  | loop p condition => loop p (condition.check table).tree
  | branch p condition elsifs rest =>
    branch p (condition.check table).tree (checkElsifs table elsifs).tree (rest.map fun b => (checkBody table b).tree)
  | clause p condition body before q further behind rest =>
    clause p (condition.check table).tree (checkBody table body).tree (checkElsifs table before).tree q
      (further.check table).tree (checkElsifs table behind).tree (rest.map fun b => (checkBody table b).tree)
  | otherwise p condition body elsifs =>
    otherwise p (condition.check table).tree (checkBody table body).tree (checkElsifs table elsifs).tree

/-- What happens in a frame before the list in it is checked. -/
def front : Frame → List Event
  | loop _ condition => (condition.check table).events ++ demanded table condition .whileConditionNotInteger
  | branch _ condition _ _ => (condition.check table).events
  | clause _ condition body _ _ _ behind _ =>
    (condition.check table).events ++ (checkBody table body).events ++
      demanded table condition .ifConditionNotInteger ++ (checkElsifs table behind).events
  | otherwise _ condition body elsifs =>
    (condition.check table).events ++ (checkBody table body).events ++
      demanded table condition .ifConditionNotInteger ++ (checkElsifs table elsifs).events

/-- What happens in a frame after the list in it is checked. -/
def back : Frame → List Event
  | loop .. => []
  | branch _ condition elsifs rest =>
    demanded table condition .ifConditionNotInteger ++ (checkElsifs table elsifs).events ++ otherwiseEvents table rest
  | clause _ _ _ before _ further _ rest =>
    (further.check table).events ++
      unlessInteger (further.check table).tree.type (further.check table).tree.pos .elsifConditionNotInteger ++
      (checkElsifs table before).events ++ otherwiseEvents table rest
  | otherwise .. => []

end Frame

namespace Place

def checked (place : Place) : Place :=
  place.map fun around =>
    ⟨(checkBody table around.before).tree, around.frame.checked table, (checkBody table around.behind).tree⟩

def front : Place → List Event
  | [] => []
  | around :: place => front place ++ ((checkBody table around.behind).events ++ around.frame.front table)

def back : Place → List Event
  | [] => []
  | around :: place => around.frame.back table ++ (checkBody table around.before).events ++ back place

end Place

/-! ### Lists at a place -/

/-- The further condition of a clause is checked behind its list of statements. -/
theorem encloses_clause (q : Position) (further : Expr) (b : Body) :
    ((Elsif.clause q further b).check table).Encloses (checkBody table b) (Elsif.clause q (further.check table).tree) []
      ((further.check table).events ++
        unlessInteger (further.check table).tree.type (further.check table).tree.pos .elsifConditionNotInteger) := by
  intro ends
  rw [Elsif.check] at ends ⊢
  obtain ⟨returns, body, rest, both⟩ := andThen_of_ends ends
  obtain ⟨_, _, _, last⟩ := andThen_of_ends rest
  rw [both, last]
  exact ⟨ends_of_eq_some body, rfl, rfl⟩

theorem encloses_elsifs (before behind : List Elsif) (q : Position) (further : Expr) (b : Body) :
    (checkElsifs table (before ++ .clause q further b :: behind)).Encloses (checkBody table b)
      (fun b => (checkElsifs table before).tree ++ .clause q (further.check table).tree b ::
        (checkElsifs table behind).tree)
      ((checkElsifs table behind).events ++ [])
      ((further.check table).events ++ unlessInteger (further.check table).tree.type (further.check table).tree.pos
        .elsifConditionNotInteger ++ (checkElsifs table before).events) := by
  simp only [checkElsifs_eq_each]
  exact (encloses_member (Elsif.check table) before behind _).trans (encloses_clause table q further b)

/-- What is demanded of the condition of a branch is said behind the check of its first list. -/
theorem branch_of_ends {p : Position} {condition : Expr} {body : Body} {elsifs : List Elsif} {rest : Option Body}
    (ends : ((Stmt.branch p condition body elsifs rest).check table).Ends) :
    (checkBody table body).Ends ∧ (checkElsifs table elsifs).Ends ∧ (∀ b ∈ rest, (checkBody table b).Ends) ∧
      ((Stmt.branch p condition body elsifs rest).check table).tree = .branch p (condition.check table).tree
        (checkBody table body).tree (checkElsifs table elsifs).tree (rest.map fun b => (checkBody table b).tree) ∧
      ((Stmt.branch p condition body elsifs rest).check table).events = (condition.check table).events ++
        (checkBody table body).events ++ demanded table condition .ifConditionNotInteger ++
        (checkElsifs table elsifs).events ++ otherwiseEvents table rest := by
  -- the steps are taken apart one by one, and the last one only builds the statement
  cases rest with
  | none =>
    rw [Stmt.check] at ends ⊢
    obtain ⟨found, result, inner, condition_both⟩ := andThen_of_ends ends
    obtain ⟨_, body, inner, body_both⟩ := andThen_of_ends inner
    obtain ⟨_, elsifs, _, last⟩ := andThen_of_ends ((ends_after _).mp inner)
    refine ⟨ends_of_eq_some body, ends_of_eq_some elsifs, nofun, ?_⟩
    rw [condition_both, body_both, last]
    exact ⟨rfl, by simp [events_after, done, demanded, otherwiseEvents, result]⟩
  | some rest =>
    rw [Stmt.check] at ends ⊢
    obtain ⟨found, result, inner, condition_both⟩ := andThen_of_ends ends
    obtain ⟨_, body, inner, body_both⟩ := andThen_of_ends inner
    obtain ⟨_, elsifs, inner, elsifs_both⟩ := andThen_of_ends ((ends_after _).mp inner)
    obtain ⟨_, otherwise, _, last⟩ := andThen_of_ends inner
    refine ⟨ends_of_eq_some body, ends_of_eq_some elsifs, by simpa using ends_of_eq_some otherwise, ?_⟩
    rw [condition_both, body_both, elsifs_both, last]
    exact ⟨rfl, by simp [events_after, done, demanded, otherwiseEvents, result]⟩

/-- A list of statements in a frame is checked as it is outside of it. -/
theorem encloses_frame (frame : Frame) (b : Body) :
    ((frame.fill b).check table).Encloses (checkBody table b) (frame.checked table).fill (frame.front table)
      (frame.back table) := by
  intro ends
  cases frame with
  | loop p condition =>
    rw [Frame.fill, Stmt.check] at ends ⊢
    obtain ⟨found, result, inner, condition_both⟩ := andThen_of_ends ends
    obtain ⟨_, body, _, last⟩ := andThen_of_ends ((ends_after _).mp inner)
    rw [condition_both, last]
    refine ⟨ends_of_eq_some body, rfl, ?_⟩
    simp [events_after, done, Frame.front, Frame.back, demanded, result]
  | branch p condition elsifs rest =>
    obtain ⟨body, -, -, tree, events⟩ := branch_of_ends table ends
    refine ⟨body, tree, events.trans ?_⟩
    simp [Frame.front, Frame.back]
  | clause p condition body before q further behind rest =>
    obtain ⟨-, elsifs, -, tree, events⟩ := branch_of_ends table ends
    obtain ⟨list, elsifs_tree, elsifs_events⟩ := encloses_elsifs table before behind q further b elsifs
    refine ⟨list, tree.trans (by rw [elsifs_tree]; rfl), events.trans ?_⟩
    simp [elsifs_events, Frame.front, Frame.back]
  | otherwise p condition body elsifs =>
    obtain ⟨-, -, rest, tree, events⟩ := branch_of_ends table ends
    refine ⟨rest b rfl, tree, events.trans ?_⟩
    simp [otherwiseEvents, Frame.front, Frame.back]

/-- A list of statements is checked as it is outside of its place, and what is around it as it is by itself. -/
theorem encloses_place (place : Place) (b : Body) :
    (checkBody table (place.fill b)).Encloses (checkBody table b) (place.checked table).fill (place.front table)
      (place.back table) := by
  induction place generalizing b with
  | nil => exact .self (checkBody table b)
  | cons around place ih =>
    -- the list is in its frame, the frame among other statements, and these are at the rest of the place
    have member := encloses_member (Stmt.check table) around.before around.behind (around.frame.fill b)
    simp only [← checkBody_eq_each] at member
    exact (ih _).trans (member.trans (encloses_frame table around.frame b))

variable {table}

/-! ## References at a place -/

theorem elsifSymbols_append (front back : List Elsif) :
    elsifSymbols (front ++ back) = elsifSymbols front ++ elsifSymbols back := by
  induction front with
  | nil => rfl
  | cons e front ih => rw [List.cons_append, elsifSymbols, elsifSymbols, ih, List.append_assoc]

theorem covers_bodySymbols (b : Body) :
    table.Covers (bodySymbols b) ↔ ∀ s ∈ b, table.Covers s.symbols := by
  induction b with
  | nil => simp [bodySymbols]
  | cons s b ih => rw [bodySymbols, covers_append, ih, List.forall_mem_cons]

/-- What a frame refers to besides the statements in it is the same for all of them. -/
theorem covers_frame (frame : Frame) (b : Body) :
    table.Covers (frame.fill b).symbols ↔ table.Covers (frame.fill []).symbols ∧ table.Covers (bodySymbols b) := by
  cases frame with
  | loop p condition => simp [Frame.fill, Stmt.symbols, bodySymbols]
  | branch p condition elsifs rest =>
    cases rest <;>
    · simp only [Frame.fill, Stmt.symbols, bodySymbols, covers_append, covers_nil, and_true]
      tauto
  | clause p condition body before q further behind rest =>
    cases rest <;>
    · simp only [Frame.fill, Stmt.symbols, elsifSymbols_append, elsifSymbols, Elsif.symbols, bodySymbols,
        covers_append, covers_nil, and_true]
      tauto
  | otherwise p condition body elsifs =>
    simp only [Frame.fill, Stmt.symbols, bodySymbols, covers_append, covers_nil, and_true]

theorem covers_fill (place : Place) (b : Body) :
    table.Covers (bodySymbols (place.fill b)) ↔
      table.Covers (bodySymbols (place.fill [])) ∧ table.Covers (bodySymbols b) := by
  induction place generalizing b with
  | nil => simp [Place.fill, bodySymbols]
  | cons around place ih =>
    rw [Place.fill, ih, Place.fill, ih (around.before ++ around.frame.fill [] :: around.behind)]
    simp only [covers_bodySymbols, List.forall_mem_append, List.forall_mem_cons]
    rw [covers_frame, covers_bodySymbols]
    tauto

theorem covers_permuted {place : Place} {b c : Body} (permuted : b.Perm c)
    (covers : table.Covers (bodySymbols (place.fill b))) : table.Covers (bodySymbols (place.fill c)) := by
  obtain ⟨around, inside⟩ := (covers_fill place b).mp covers
  rw [covers_bodySymbols] at inside
  exact (covers_fill place c).mpr
    ⟨around, (covers_bodySymbols c).mpr fun s member => inside s (permuted.mem_iff.mpr member)⟩

/-! ## Shares -/

/-- The body of a routine is checked like any list of statements. Only behind all of them the routine may be
criticised for a missing return. -/
theorem bodyCheck_of_get? {env : SymbolIndex} {routine : Symbol} (found : table.get? env = some routine) (b : Body) :
    (b.check table env).tree = (checkBody table b).tree ∧
      (b.check table env).result = (checkBody table b).result.map (fun _ => ()) ∧
      (b.check table env).messages = (checkBody table b).messages ++ ((checkBody table b).result.elim [] fun returns =>
        (missingReturn routine (checkBody table b).tree returns).filterMap Event.message?) := by
  unfold Body.check
  rw [found]
  cases result : (checkBody table b).result with
  | none => simp [andThen, result, messages, List.filterMap_cons, Event.message?]
  | some returns => simp [andThen, result, messages, List.filterMap_cons, Event.message?, done]

/-- All messages but that about a function in which nothing is returned. -/
def withoutMissingReturn (ms : List Message) : List Message :=
  ms.filter fun m => m.text ≠ TypeError.missingReturn.message

/-- The messages of these events but that one. -/
def ownMessages (events : List Event) : List Message :=
  withoutMissingReturn (events.filterMap Event.message?)

theorem withoutMissingReturn_bodyCheck {env : SymbolIndex} (known : env < table.size) (b : Body) :
    withoutMissingReturn (b.check table env).messages = ownMessages (checkBody table b).events := by
  obtain ⟨routine, found⟩ := get?_eq_some_of_lt known
  rw [(bodyCheck_of_get? found b).2.2, withoutMissingReturn, List.filter_append]
  refine (congrArg _ ?_).trans (List.append_nil _)
  -- what the routine itself may be criticised for is just the message that is left out
  cases (checkBody table b).result with
  | none => rfl
  | some returns =>
    rw [Option.elim_some, missingReturn]
    split <;> simp [Event.message?]

theorem ownMessages_append (front back : List Event) :
    ownMessages (front ++ back) = ownMessages front ++ ownMessages back := by
  rw [ownMessages, List.filterMap_append, withoutMissingReturn, List.filter_append]
  rfl

theorem ownMessages_flatMap {α : Type} (events : α → List Event) (as : List α) :
    ownMessages (as.flatMap events) = as.flatMap fun a => ownMessages (events a) := by
  rw [ownMessages, List.filterMap_flatMap, withoutMissingReturn, List.filter_flatMap]
  rfl

/-- The share of a statement in a check: what it becomes, and what is reported about it. -/
structure Share where
  statement : Stmt
  messages : List Message

def Stmt.share (table : SymbolTable) (s : Stmt) : Share :=
  ⟨(s.check table).tree, ownMessages (s.check table).events⟩

/-- The statement has this share in the check of a body of its own. -/
structure Stmt.Alone (table : SymbolTable) (env : SymbolIndex) (s : Stmt) (share : Share) : Prop where
  ends : (Body.check table env [s]).Ends
  tree : (Body.check table env [s]).tree = [share.statement]
  messages : withoutMissingReturn (Body.check table env [s]).messages = share.messages

/-- The statements at this place have these shares in a check. Their messages are reported from the last statement
to the first, and what is around them has its messages in front and behind. -/
structure Place.Holds (table : SymbolTable) (place : Place) (shares : List Share) (c : Checked Body Unit) : Prop where
  ends : c.Ends
  tree : c.tree = (place.checked table).fill (shares.map Share.statement)
  messages : withoutMissingReturn c.messages =
    ownMessages (place.front table) ++ shares.reverse.flatMap Share.messages ++ ownMessages (place.back table)

/-- Statements have the shares that they have alone, wherever they stand. -/
theorem holds_shares (params : table.ParamsInside) (environment : table.currentEnvironment < table.size)
    {env : SymbolIndex} (known : env < table.size) (place : Place) (b : Body)
    (covers : table.Covers (bodySymbols (place.fill b))) :
    place.Holds table (b.map (Stmt.share table)) ((place.fill b).check table env) := by
  obtain ⟨routine, found⟩ := get?_eq_some_of_lt known
  have ends := (ends_checkBody params environment _).mpr covers
  obtain ⟨list_ends, tree, events⟩ := encloses_place table place b ends
  obtain ⟨list_tree, list_events⟩ := checkBody_of_ends table list_ends
  refine ⟨(ends_bodyCheck params environment known _).mpr covers, ?_, ?_⟩
  · rw [(bodyCheck_of_get? found _).1, tree, list_tree, List.map_map]
    rfl
  · rw [withoutMissingReturn_bodyCheck known, events, list_events, ownMessages_append, ownMessages_append,
      ownMessages_flatMap, ← List.map_reverse, List.flatMap_map]
    rfl

theorem alone_share (params : table.ParamsInside) (environment : table.currentEnvironment < table.size)
    {env : SymbolIndex} (known : env < table.size) {s : Stmt} (covers : table.Covers s.symbols) :
    s.Alone table env (s.share table) := by
  have single : table.Covers (bodySymbols (Place.fill [] [s])) := (covers_bodySymbols [s]).mpr (by simpa using covers)
  obtain ⟨ends, tree, messages⟩ := holds_shares params environment known [] [s] single
  refine ⟨ends, tree, messages.trans ?_⟩
  simp [ownMessages, withoutMissingReturn, Place.front, Place.back]

/-- Statements are checked as if each one stood alone, in the body of a routine as in that of any loop or branch.
What is around them, faulty or not, has the same part in the tree and in the messages for any statements. Their
own messages are in reverse order, so if the statements are permuted, their shares are permuted alike. -/
theorem statements_checked_apart (params : table.ParamsInside) (environment : table.currentEnvironment < table.size)
    {env : SymbolIndex} (known : env < table.size) (place : Place) (b : Body) :
    let check (b : Body) := (place.fill b).check table env
    ((check b).Ends ↔ table.Covers (bodySymbols (place.fill b))) ∧
      ((check b).Ends → ∃ shares, List.Forall₂ (Stmt.Alone table env) b shares ∧ place.Holds table shares (check b) ∧
        ∀ c : Body, b.Perm c → ∃ shares', List.Forall₂ (Stmt.Alone table env) c shares' ∧
          place.Holds table shares' (check c) ∧ (b.zip shares).Perm (c.zip shares')) := by
  intro check
  have ends : (check b).Ends ↔ table.Covers (bodySymbols (place.fill b)) :=
    ends_bodyCheck params environment known (place.fill b)
  have alone (c : Body) (covers : table.Covers (bodySymbols (place.fill c))) :
      List.Forall₂ (Stmt.Alone table env) c (c.map (Stmt.share table)) := by
    have inside := (covers_bodySymbols c).mp ((covers_fill place c).mp covers).2
    refine List.forall₂_map_right_iff.mpr (List.forall₂_same.mpr fun s member => ?_)
    exact alone_share params environment known (inside s member)
  refine ⟨ends, fun ended => ?_⟩
  have covers := ends.mp ended
  refine ⟨b.map (Stmt.share table), alone b covers, holds_shares params environment known place b covers, ?_⟩
  intro c permuted
  have covers' := covers_permuted permuted covers
  refine ⟨c.map (Stmt.share table), alone c covers', holds_shares params environment known place c covers', ?_⟩
  -- a share is determined by its statement, so both lists are permuted by the same permutation
  simp only [← List.map_prod_left_eq_zip]
  exact permuted.map _

/-- Both statements of a loop with a faulty condition are criticised, whichever comes first. -/
theorem statements_checked_apart_faulty_loop :
    let table := SymbolTable.new "main"
    let half : Expr := .real ⟨⟨1, 7⟩, realType⟩ 0.5
    let first : Stmt := .ret ⟨2, 3⟩ (some (.integer ⟨⟨2, 10⟩, integerType⟩ 1))
    let second : Stmt := .branch ⟨3, 3⟩ half [] [] none
    let place : Place := [⟨[], .loop ⟨1, 1⟩ half, []⟩]
    let check (b : Body) := (place.fill b).check table 3
    table.ParamsInside ∧ table.currentEnvironment < table.size ∧ 3 < table.size ∧
      table.Covers (bodySymbols (place.fill [first, second])) ∧
      (check [first, second]).messages.map Message.text = ["while predicate must be of integer type.",
        "if predicate must be of integer type.", "Procedures may not return a value."] ∧
      ∃ shares shares', List.Forall₂ (Stmt.Alone table 3) [first, second] shares ∧
        List.Forall₂ (Stmt.Alone table 3) [second, first] shares' ∧
        place.Holds table shares (check [first, second]) ∧ place.Holds table shares' (check [second, first]) ∧
        ([first, second].zip shares).Perm ([second, first].zip shares') := by
  intro table half first second place check
  have params : table.ParamsInside := by decide
  have environment : table.currentEnvironment < table.size := by decide
  have known : 3 < table.size := by decide
  have covers : table.Covers (bodySymbols (place.fill [first, second])) := by decide
  obtain ⟨ends, apart⟩ := statements_checked_apart params environment known place [first, second]
  obtain ⟨shares, alone, holds, permuted⟩ := apart (ends.mpr covers)
  obtain ⟨shares', alone', holds', alike⟩ := permuted [second, first] (.swap second first [])
  exact ⟨params, environment, known, covers, by decide +kernel, shares, shares', alone, alone', holds, holds', alike⟩

end MiniPascal
