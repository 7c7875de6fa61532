import MiniPascal.Checking.Checked

/-!
# Reasoning about outcomes

Checking is a chain of steps, so properties of it are proved step by step. `Yields` is total:
there is a result. `Establishes` says nothing about checking that stops or reports.
-/

namespace MiniPascal.Checked

variable {τ υ σ ρ : Type}

/-! ## Results -/

/-- Checking does not stop, and the tree and the result are as `P` says. -/
def Yields (c : Checked τ σ) (P : τ → σ → Prop) : Prop :=
  ∃ s, c.result = some s ∧ P c.tree s

variable {c : Checked τ σ} {P : τ → σ → Prop} {rest : τ → υ} {next : τ → σ → Checked υ ρ}
  {Q : υ → ρ → Prop}

theorem yields_done {tree : τ} {s : σ} (events : List Event) (holds : P tree s) :
    (done tree events s).Yields P :=
  ⟨s, rfl, holds⟩

theorem Yields.after (yields : c.Yields P) (events : List Event) : (c.after events).Yields P :=
  yields

theorem Yields.andThen (first : c.Yields P) (second : ∀ tree s, P tree s → (next tree s).Yields Q) :
    (c.andThen rest next).Yields Q := by
  obtain ⟨s, result, holds⟩ := first
  obtain ⟨r, result', holds'⟩ := second c.tree s holds
  unfold Checked.andThen
  rw [result]
  exact ⟨r, result', holds'⟩

theorem Yields.mono {P' : τ → σ → Prop} (yields : c.Yields P) (weaker : ∀ tree s, P tree s → P' tree s) :
    c.Yields P' := by
  obtain ⟨s, result, holds⟩ := yields
  exact ⟨s, result, weaker _ s holds⟩

/-! ## Results without errors -/

/-- If checking ends and reports nothing, the tree and the result are as `P` says. -/
def Establishes (c : Checked τ σ) (P : τ → σ → Prop) : Prop :=
  ∀ s, c.result = some s → c.messages = [] → P c.tree s

theorem establishes_done {tree : τ} {events : List Event} {s : σ}
    (holds : events.filterMap Event.message? = [] → P tree s) : (done tree events s).Establishes P := by
  intro s' result silent
  cases result
  exact holds silent

theorem establishes_after {events : List Event}
    (holds : events.filterMap Event.message? = [] → c.Establishes P) : (c.after events).Establishes P := by
  intro s result silent
  -- no message in all means none in front and none in the rest
  obtain ⟨front, back⟩ := List.append_eq_nil_iff.mp (List.filterMap_append.symm.trans silent)
  exact holds front s result back

/-- Checking that stopped establishes anything. -/
theorem establishes_stopped {tree : τ} : (stopped tree : Checked τ σ).Establishes P := by
  intro s result
  contradiction

theorem Establishes.andThen (first : c.Establishes P)
    (second : ∀ tree s, P tree s → (next tree s).Establishes Q) : (c.andThen rest next).Establishes Q := by
  intro r result silent
  unfold Checked.andThen at result silent ⊢
  cases reached : c.result with
  | none =>
    -- what stopped has no result, so nothing is promised
    rw [reached] at result
    contradiction
  | some s =>
    rw [reached] at result silent
    obtain ⟨front, back⟩ := List.append_eq_nil_iff.mp (List.filterMap_append.symm.trans silent)
    exact second c.tree s (first s reached front) r result back

theorem Establishes.mono {P' : τ → σ → Prop} (establishes : c.Establishes P)
    (weaker : ∀ tree s, P tree s → P' tree s) : c.Establishes P' :=
  fun s result silent => weaker _ s (establishes s result silent)

/-! ## Two runs -/

/-- The same events and the same result, and the same tree unless checking stopped. -/
structure SameRun (c d : Checked τ σ) : Prop where
  events : c.events = d.events
  result : c.result = d.result
  tree : ∀ s, c.result = some s → c.tree = d.tree

theorem SameRun.refl (c : Checked τ σ) : SameRun c c :=
  ⟨rfl, rfl, fun _ _ => rfl⟩

theorem SameRun.symm {c d : Checked τ σ} (same : SameRun c d) : SameRun d c :=
  ⟨same.events.symm, same.result.symm, fun s result => (same.tree s (same.result.trans result)).symm⟩

theorem SameRun.trans {c d e : Checked τ σ} (first : SameRun c d) (second : SameRun d e) : SameRun c e :=
  ⟨first.events.trans second.events, first.result.trans second.result, fun s result =>
    (first.tree s result).trans (second.tree s (first.result.symm.trans result))⟩

theorem sameRun_stopped (tree tree' : τ) : SameRun (stopped tree : Checked τ σ) (stopped tree') :=
  ⟨rfl, rfl, fun _ result => nomatch result⟩

theorem SameRun.after {c d : Checked τ σ} (same : SameRun c d) (events : List Event) :
    SameRun (c.after events) (d.after events) :=
  ⟨congrArg (events ++ ·) same.events, same.result, same.tree⟩

theorem SameRun.messages {c d : Checked τ σ} (same : SameRun c d) : c.messages = d.messages :=
  congrArg (List.filterMap Event.message?) same.events

/-- The second steps see the same tree, so only what they close over may differ. -/
theorem SameRun.andThen {d : Checked τ σ} {rest' : τ → υ} {next' : τ → σ → Checked υ ρ} (first : SameRun c d)
    (second : ∀ tree s, SameRun (next tree s) (next' tree s)) :
    SameRun (c.andThen rest next) (d.andThen rest' next') := by
  obtain ⟨events, result, tree⟩ := first
  unfold Checked.andThen
  rw [← result]
  cases reached : c.result with
  -- the trees may differ here, each keeps what was not reached
  | none => exact ⟨events, rfl, fun _ result => nomatch result⟩
  | some s =>
    have same := second c.tree s
    rw [← tree s reached]
    have joined : c.events ++ (next c.tree s).events = d.events ++ (next' c.tree s).events := by
      rw [events, same.events]
    exact ⟨joined, same.result, same.tree⟩

/-! ## Steps -/

/-- If both steps end, the tree and the result are those of the second one. -/
theorem andThen_eq_some {r : ρ} (result : (c.andThen rest next).result = some r) :
    ∃ s, c.result = some s ∧ (next c.tree s).result = some r ∧
      (c.andThen rest next).tree = (next c.tree s).tree := by
  rw [result_andThen] at result
  obtain ⟨s, reached, result⟩ := Option.bind_eq_some_iff.mp result
  refine ⟨s, reached, result, ?_⟩
  rw [Checked.andThen, reached]

theorem events_after (events : List Event) : (c.after events).events = events ++ c.events := rfl

theorem events_andThen {s : σ} (result : c.result = some s) :
    (c.andThen rest next).events = c.events ++ (next c.tree s).events := by
  rw [Checked.andThen, result]

theorem events_andThen_done (tree : τ → σ → υ) (result : τ → σ → ρ) :
    (c.andThen rest fun t s => done (tree t s) [] (result t s)).events = c.events := by
  cases reached : c.result with
  | none => rw [Checked.andThen, reached]
  | some s => rw [events_andThen reached, done, List.append_nil]

/-! ## Trees -/

/-- What both steps leave alone is left alone, whether checking stops or not. -/
theorem tree_andThen {κ : Type} (f : υ → κ) {k : κ} (stops : f (rest c.tree) = k)
    (goes : ∀ s, f (next c.tree s).tree = k) : f (c.andThen rest next).tree = k := by
  unfold Checked.andThen
  split
  next => exact stops
  next s _ => exact goes s

end MiniPascal.Checked
