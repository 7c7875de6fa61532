import MiniPascal.Proofs.Json.Decoding
import MiniPascal.Proofs.Retyping.Erasure
import Mathlib.Data.List.Nodup

/-!
# Documents that differ in stored types

In the document of a body, the member `ty` of an expression may be another index, `null` or
missing. Decoding accepts both documents or none, and the trees differ in stored types only.
-/

namespace MiniPascal

/-! ## Related documents -/

/-- The members for a stored type: none, or one that is `null` or an index. -/
def TypeMembers (members : List (Option String × Json)) : Prop :=
  members = [] ∨ ∃ j, members = [(some "ty", j)] ∧ (j = .null ∨ ∃ t, SymbolIndex.decoder 0 j = some t)

mutual

/-- The documents of two bodies, or of parts of them, that differ in stored types only. -/
inductive Json.Retyped : Json → Json → Prop
  | same (j) : Json.Retyped j j
  | array {items items'} : List.Forall₂ Json.Retyped items items' →
    Json.Retyped (.array items) (.array items')
  | object {members members'} : MembersRetyped members members' →
    Json.Retyped (.object members) (.object members')
  /-- an object with the members of an expression, the stored type somewhere among them -/
  | expression {front front' back back' types types'} :
    MembersRetyped front front' → MembersRetyped back back' → TypeMembers types → TypeMembers types' →
    some "ty" ∉ (front ++ back).map Prod.fst → some "pos" ∈ (front ++ back).map Prod.fst →
    some "kind" ∈ (front ++ back).map Prod.fst →
    Json.Retyped (.object (front ++ types ++ back)) (.object (front' ++ types' ++ back'))

inductive MembersRetyped : List (Option String × Json) → List (Option String × Json) → Prop
  | nil : MembersRetyped [] []
  | cons (key) {j j' members members'} : Json.Retyped j j' → MembersRetyped members members' →
    MembersRetyped ((key, j) :: members) ((key, j') :: members')

end

open Json (Retyped)

open Decoder

/-! ## Single values -/

/-- Related documents give related values, or none at all. -/
def Decoder.Respects {α : Type} (decoder : Decoder α) (R : α → α → Prop) : Prop :=
  ∀ n j j', Retyped j j' → Option.Rel R (decoder n j) (decoder n j')

variable {α β γ δ : Type}

theorem rel_eq_refl (x : Option α) : Option.Rel Eq x x := by
  cases x with
  | none => exact .none
  | some a => exact .some rfl

theorem rel_mono {R S : α → β → Prop} {x : Option α} {y : Option β} (related : Option.Rel R x y)
    (weaker : ∀ a b, R a b → S a b) : Option.Rel S x y := by
  cases related with
  | none => exact .none
  | some holds => exact .some (weaker _ _ holds)

theorem rel_isSome {R : α → β → Prop} {x : Option α} {y : Option β} (related : Option.Rel R x y) :
    x.isSome = y.isSome := by
  cases related <;> rfl

theorem rel_of_isSome {x : Option α} {y : Option β} (equal : x.isSome = y.isSome) :
    Option.Rel (fun _ _ => True) x y := by
  cases x <;> cases y
  · exact .none
  · contradiction
  · contradiction
  · exact .some trivial

theorem rel_cases {R : α → β → Prop} {x : Option α} {y : Option β} (related : Option.Rel R x y) :
    x = none ∧ y = none ∨ ∃ a b, x = some a ∧ y = some b ∧ R a b := by
  cases related with
  | none => exact .inl ⟨rfl, rfl⟩
  | some holds => exact .inr ⟨_, _, rfl, rfl, holds⟩

theorem rel_bind {R : α → β → Prop} {S : γ → δ → Prop} {x : Option α} {y : Option β} {f : α → Option γ}
    {g : β → Option δ} (first : Option.Rel R x y) (second : ∀ a b, R a b → Option.Rel S (f a) (g b)) :
    Option.Rel S (x >>= f) (y >>= g) := by
  cases first with
  | none => exact .none
  | some related => exact second _ _ related

theorem rel_map {R : α → β → Prop} {S : γ → δ → Prop} {x : Option α} {y : Option β} {f : α → γ} {g : β → δ}
    (first : Option.Rel R x y) (second : ∀ a b, R a b → S (f a) (g b)) :
    Option.Rel S (x.map f) (y.map g) := by
  cases first with
  | none => exact .none
  | some related => exact .some (second _ _ related)

theorem respects_integer (least greatest : Int) : (integer least greatest).Respects Eq := by
  intro n j j' related
  cases related with
  | same => exact rel_eq_refl _
  | array | object | expression => exact .none

theorem respects_natural (width : Nat) : (natural width).Respects Eq := fun n j j' related =>
  rel_map (respects_integer _ _ n j j' related) fun _ _ equal => congrArg Int.toNat equal

theorem respects_symbolIndex : SymbolIndex.decoder.Respects Eq :=
  respects_natural 64

theorem respects_real : real.Respects Eq := by
  intro n j j' related
  cases related with
  | same => exact rel_eq_refl _
  | array | object | expression => exact .none

theorem respects_nullable {decoder : Decoder α} {R : α → α → Prop} (respects : decoder.Respects R) :
    (nullable decoder).Respects (Option.Rel R) := by
  intro n j j' related
  cases related with
  | same j =>
    cases j with
    | null => exact .some .none
    | bool | number | string | array | object => exact rel_map (respects n _ _ (.same _)) fun _ _ h => .some h
  | array items => exact rel_map (respects n _ _ (.array items)) fun _ _ h => .some h
  | object members => exact rel_map (respects n _ _ (.object members)) fun _ _ h => .some h
  | expression front back types types' absent pos kind =>
    exact rel_map (respects n _ _ (.expression front back types types' absent pos kind)) fun _ _ h => .some h

/-! ## Fields -/

/-- The same names in the same order, with values related as their name demands. -/
abbrev FieldsAlike (V : String → Json → Json → Prop) : Fields → Fields → Prop :=
  List.Forall₂ fun a b => a.1 = b.1 ∧ V a.1 a.2 b.2

/-- The same keys in the same order, with values related as their key demands. -/
abbrev MembersAlike (V : String → Json → Json → Prop) :
    List (Option String × Json) → List (Option String × Json) → Prop :=
  List.Forall₂ fun m m' => m.1 = m'.1 ∧ ∀ name ∈ m.1, V name m.2 m'.2

theorem MembersRetyped.alike {members members' : List (Option String × Json)}
    (related : MembersRetyped members members') : MembersAlike (fun _ => Retyped) members members' := by
  match related with
  | .nil => exact .nil
  | .cons key value others => exact .cons ⟨rfl, fun _ _ => value⟩ others.alike

section Alike

variable {V : String → Json → Json → Prop}

theorem keys_eq {κ : Type} {R : κ × Json → κ × Json → Prop} {as bs : List (κ × Json)}
    (alike : List.Forall₂ (fun a b => a.1 = b.1 ∧ R a b) as bs) : as.map Prod.fst = bs.map Prod.fst := by
  induction alike with
  | nil => rfl
  | cons first _ ih => rw [List.map_cons, List.map_cons, first.1, ih]

theorem MembersAlike.keys {members members' : List (Option String × Json)} (alike : MembersAlike V members members') :
    members.map Prod.fst = members'.map Prod.fst :=
  keys_eq alike

theorem FieldsAlike.keys {fields fields' : Fields} (alike : FieldsAlike V fields fields') :
    fields.map Prod.fst = fields'.map Prod.fst :=
  keys_eq alike

theorem FieldsAlike.known {fields fields' : Fields} (alike : FieldsAlike V fields fields') (names : List String) :
    FieldsAlike V (fields.filter fun field => names.contains field.1)
      (fields'.filter fun field => names.contains field.1) := by
  induction alike with
  | nil => exact .nil
  | @cons a b _ _ first _ ih =>
    rw [List.filter_cons, List.filter_cons, first.1]
    split
    · exact .cons first ih
    · exact ih

theorem FieldsAlike.lookup {fields fields' : Fields} (alike : FieldsAlike V fields fields') (name : String) :
    Option.Rel (V name) (fields.lookup name) (fields'.lookup name) := by
  induction alike with
  | nil => exact .none
  | @cons a b _ _ first _ ih =>
    rw [List.lookup_cons, List.lookup_cons, ← first.1]
    split
    next found => exact .some (eq_of_beq found ▸ first.2)
    next => exact ih

theorem MembersAlike.fields {members members' : List (Option String × Json)} (alike : MembersAlike V members members') :
    Option.Rel (FieldsAlike V) (members? members) (members? members') := by
  induction alike with
  | nil => exact .some .nil
  | @cons m m' _ _ first _ ih =>
    obtain ⟨key, j⟩ := m
    obtain ⟨key', j'⟩ := m'
    obtain ⟨equal, value⟩ := first
    dsimp only at equal value
    subst equal
    rw [members?_cons, members?_cons]
    cases key with
    | none => exact .none
    | some name => exact rel_map ih fun _ _ others => .cons ⟨rfl, value name rfl⟩ others

/-- The fields with the given names, of which none may be repeated. -/
def select? (names : List String) (fields : Fields) : Option Fields :=
  let known := fields.filter fun field => names.contains field.1
  if (known.map Prod.fst).Nodup then some known else none

theorem fields?_object (names : List String) (members : List (Option String × Json)) :
    fields? names (.object members) = (members? members).bind (select? names) := rfl

theorem FieldsAlike.select {fields fields' : Fields} (alike : FieldsAlike V fields fields') (names : List String) :
    Option.Rel (FieldsAlike V) (select? names fields) (select? names fields') := by
  have known := alike.known names
  unfold select?
  dsimp only
  rw [known.keys]
  split
  · exact .some known
  · exact .none

end Alike

/-- Fields that a decoder cannot tell apart, unless it asks for the stored type itself. -/
structure FieldsRetyped (fields fields' : Fields) : Prop where
  lookup : ∀ name ≠ "ty", Option.Rel Retyped (fields.lookup name) (fields'.lookup name)
  type : ∀ n, (Decoder.optional SymbolIndex.decoder "ty" fields n).isSome =
    (Decoder.optional SymbolIndex.decoder "ty" fields' n).isSome

/-- Where the stored types are related like all else, a decoder takes both or none. -/
theorem FieldsAlike.retyped {fields fields' : Fields} (alike : FieldsAlike (fun _ => Retyped) fields fields') :
    FieldsRetyped fields fields' := by
  refine ⟨fun name _ => alike.lookup name, fun n => ?_⟩
  have found := alike.lookup "ty"
  unfold Decoder.optional Decoder.defaulted
  generalize fields.lookup "ty" = x at found ⊢
  generalize fields'.lookup "ty" = y at found ⊢
  cases found with
  | none => rfl
  | some related => exact rel_isSome (respects_nullable respects_symbolIndex n _ _ related)

/-! ## Members for a stored type -/

/-- The fields that come of the members for a stored type. -/
def TypeFields (fields : Fields) : Prop :=
  fields = [] ∨ ∃ j, fields = [("ty", j)] ∧ (j = .null ∨ ∃ t, SymbolIndex.decoder 0 j = some t)

theorem TypeMembers.fields {members : List (Option String × Json)} (types : TypeMembers members) :
    ∃ fields, members? members = some fields ∧ TypeFields fields := by
  obtain rfl | ⟨j, rfl, shape⟩ := types
  · exact ⟨[], rfl, .inl rfl⟩
  · exact ⟨[("ty", j)], rfl, .inr ⟨j, rfl, shape⟩⟩

theorem TypeFields.known {fields : Fields} (types : TypeFields fields) (names : List String) :
    TypeFields (fields.filter fun field => names.contains field.1) := by
  obtain rfl | ⟨j, rfl, shape⟩ := types
  · exact .inl rfl
  · rw [List.filter_cons]
    split
    · exact .inr ⟨j, rfl, shape⟩
    · exact .inl rfl

theorem TypeFields.lookup {fields : Fields} (types : TypeFields fields) {name : String} (other : name ≠ "ty") :
    fields.lookup name = none := by
  obtain rfl | ⟨j, rfl, -⟩ := types
  · rfl
  · rw [List.lookup_cons, beq_false_of_ne other]
    rfl

/-- A stored type among other fields does not change whether they are repeated. -/
theorem TypeFields.nodup {types : Fields} (shape : TypeFields types) (front back : Fields)
    (absent : "ty" ∉ (front ++ back).map Prod.fst) :
    ((front ++ types ++ back).map Prod.fst).Nodup ↔ ((front ++ back).map Prod.fst).Nodup := by
  obtain rfl | ⟨j, rfl, -⟩ := shape
  · rw [List.append_nil]
  · rw [List.append_assoc, List.map_append, List.singleton_append, List.map_cons, List.nodup_middle,
      List.nodup_cons, ← List.map_append]
    exact and_iff_right absent

theorem TypeFields.decodes {types : Fields} (shape : TypeFields types) {front back : Fields}
    (absent : "ty" ∉ (front ++ back).map Prod.fst) (n : Nat) :
    (Decoder.optional SymbolIndex.decoder "ty" (front ++ types ++ back) n).isSome = true := by
  have missing {fields : Fields} (without : "ty" ∉ fields.map Prod.fst) : fields.lookup "ty" = none := by
    rw [List.lookup_eq_none_iff]
    intro field member
    have other : "ty" ≠ field.1 := fun equal => without (equal ▸ List.mem_map_of_mem member)
    simpa using other
  rw [List.map_append, List.mem_append, not_or] at absent
  rw [Decoder.optional, Decoder.defaulted, List.lookup_append, List.lookup_append, missing absent.1,
    missing absent.2, Option.none_or, Option.or_none]
  obtain rfl | ⟨j, rfl, rfl | ⟨t, index⟩⟩ := shape
  · rfl
  · rfl
  · rw [List.lookup_cons_self]
    -- only numbers are indices, and those open no container
    cases j with
    | number written =>
      have same : SymbolIndex.decoder n (.number written) = some t := index
      simp only [nullable, same, Option.map_some, Option.isSome_some]
    | null | bool | string | array | object => contradiction

/-! ## Records -/

theorem members?_append (a b : List (Option String × Json)) :
    members? (a ++ b) = (members? a).bind fun f => (members? b).map fun g => f ++ g := by
  rw [members?, List.mapM_append]
  change ((members? a).bind fun f => (members? b).bind fun g => some (f ++ g)) = _
  cases members? a with
  | none => rfl
  | some f => cases members? b <;> rfl

theorem fields_of_key {members : List (Option String × Json)} {fields : Fields}
    (found : members? members = some fields) : members.map Prod.fst = fields.map fun f => some f.1 := by
  induction members generalizing fields with
  | nil =>
    cases found
    rfl
  | cons m members ih =>
    obtain ⟨key, j⟩ := m
    rw [members?_cons] at found
    obtain ⟨name, rfl, found⟩ := Option.bind_eq_some_iff.mp found
    obtain ⟨others, later, rfl⟩ := Option.map_eq_some_iff.mp found
    rw [List.map_cons, List.map_cons, ih later]

theorem FieldsAlike.insertTypes {front front' back back' types types' : Fields}
    (f : FieldsAlike (fun _ => Retyped) front front') (b : FieldsAlike (fun _ => Retyped) back back') (t : TypeFields types) (t' : TypeFields types')
    (absent : "ty" ∉ (front ++ back).map Prod.fst) :
    FieldsRetyped (front ++ types ++ back) (front' ++ types' ++ back') := by
  have absent' : "ty" ∉ (front' ++ back').map Prod.fst := by
    rwa [List.map_append, ← f.keys, ← b.keys, ← List.map_append]
  refine ⟨fun name other => ?_, fun n => by rw [t.decodes absent, t'.decodes absent']⟩
  simp only [List.lookup_append, t.lookup other, t'.lookup other, Option.or_none]
  simp only [← List.lookup_append]
  have alike : FieldsAlike (fun _ => Retyped) (front ++ back) (front' ++ back') := List.rel_append f b
  exact alike.lookup name

theorem select?_insertTypes (names : List String) {front front' back back' types types' : Fields}
    (f : FieldsAlike (fun _ => Retyped) front front') (b : FieldsAlike (fun _ => Retyped) back back') (t : TypeFields types) (t' : TypeFields types')
    (absent : "ty" ∉ (front ++ back).map Prod.fst) :
    Option.Rel FieldsRetyped (select? names (front ++ types ++ back)) (select? names (front' ++ types' ++ back')) := by
  have f := f.known names
  have b := b.known names
  have t := t.known names
  have t' := t'.known names
  have absent : "ty" ∉ ((front ++ back).filter fun field => names.contains field.1).map Prod.fst :=
    fun member => absent (List.map_subset _ (List.filter_subset_self _) member)
  unfold select?
  simp only [List.filter_append] at absent ⊢
  -- a stored type repeats no name, so both sides are refused for the same reason
  have keys : (front.filter (fun field => names.contains field.1) ++
      back.filter (fun field => names.contains field.1)).map Prod.fst =
      (front'.filter (fun field => names.contains field.1) ++
        back'.filter (fun field => names.contains field.1)).map Prod.fst := by
    rw [List.map_append, List.map_append, f.keys, b.keys]
  simp only [t.nodup _ _ absent, t'.nodup _ _ (keys ▸ absent), keys]
  split
  · exact .some (f.insertTypes b t t' absent)
  · exact .none

theorem fields?_expression (names : List String) {front front' back back' types types' : List (Option String × Json)}
    (f : MembersRetyped front front') (b : MembersRetyped back back') (t : TypeMembers types)
    (t' : TypeMembers types') (absent : some "ty" ∉ (front ++ back).map Prod.fst) :
    Option.Rel FieldsRetyped (fields? names (.object (front ++ types ++ back)))
      (fields? names (.object (front' ++ types' ++ back'))) := by
  obtain ⟨ts, types_eq, t⟩ := t.fields
  obtain ⟨ts', types_eq', t'⟩ := t'.fields
  simp only [fields?_object, members?_append, types_eq, types_eq']
  rcases rel_cases f.alike.fields with ⟨front_eq, front_eq'⟩ | ⟨fs, fs', front_eq, front_eq', f⟩
  · rw [front_eq, front_eq']
    exact .none
  rcases rel_cases b.alike.fields with ⟨back_eq, back_eq'⟩ | ⟨bs, bs', back_eq, back_eq', b⟩
  · rw [front_eq, front_eq', back_eq, back_eq']
    exact .none
  rw [front_eq, front_eq', back_eq, back_eq']
  refine select?_insertTypes names f b t t' ?_
  rw [List.map_append, fields_of_key front_eq, fields_of_key back_eq] at absent
  simpa using absent

theorem fields?_retyped (names : List String) {j j' : Json} (related : Retyped j j') :
    Option.Rel FieldsRetyped (fields? names j) (fields? names j') := by
  cases related with
  | same j =>
    cases fields? names j with
    | none => exact .none
    | some fields =>
      exact .some (FieldsAlike.retyped (List.forall₂_same.mpr fun _ _ => ⟨rfl, .same _⟩))
  | @array items items' related =>
    have zipped : FieldsAlike (fun _ => Retyped) (names.zip items) (names.zip items') := by
      induction related generalizing names with
      | nil => rw [List.zip_nil_right]; exact .nil
      | cons first _ ih =>
        cases names with
        | nil => exact .nil
        | cons name names => exact .cons ⟨rfl, first⟩ (ih names)
    rw [fields?, fields?, related.length_eq]
    split
    · exact .some zipped.retyped
    · exact .none
  | object related =>
    exact rel_mono (rel_bind related.alike.fields fun _ _ alike => alike.select names) fun _ _ => FieldsAlike.retyped
  | expression front back types types' absent => exact fields?_expression names front back types types' absent

/-! ## Decoders -/

theorem respects_record {names : List String} {content : Fields → Nat → Option α} {R : α → α → Prop}
    (respects : ∀ n fields fields', FieldsRetyped fields fields' →
      Option.Rel R (content fields n) (content fields' n)) :
    (record names content).Respects R := by
  intro n j j' related
  cases n with
  | zero => exact .none
  | succ n => exact rel_bind (fields?_retyped names related) fun fields fields' same => respects n fields fields' same

theorem FieldsRetyped.required {decoder : Decoder α} {R : α → α → Prop} (respects : decoder.Respects R)
    {name : String} (other : name ≠ "ty") {fields fields' : Fields} (same : FieldsRetyped fields fields') (n : Nat) :
    Option.Rel R (Decoder.required decoder name fields n) (Decoder.required decoder name fields' n) :=
  rel_bind (same.lookup name other) fun _ _ related => respects n _ _ related

theorem FieldsRetyped.defaulted {decoder : Decoder α} {R : α → α → Prop} (respects : decoder.Respects R)
    {default : α} (refl : R default default) {name : String} (other : name ≠ "ty") {fields fields' : Fields}
    (same : FieldsRetyped fields fields') (n : Nat) :
    Option.Rel R (Decoder.defaulted decoder default name fields n)
      (Decoder.defaulted decoder default name fields' n) := by
  have found := same.lookup name other
  unfold Decoder.defaulted
  generalize fields.lookup name = x at found ⊢
  generalize fields'.lookup name = y at found ⊢
  cases found with
  | none => exact .some refl
  | some related => exact respects n _ _ related

theorem FieldsRetyped.optional {decoder : Decoder α} {R : α → α → Prop} (respects : decoder.Respects R)
    {name : String} (other : name ≠ "ty") {fields fields' : Fields} (same : FieldsRetyped fields fields') (n : Nat) :
    Option.Rel (Option.Rel R) (Decoder.optional decoder name fields n) (Decoder.optional decoder name fields' n) :=
  same.defaulted (respects_nullable respects) .none other n

theorem respects_list {decoder : Decoder α} {R : α → α → Prop} (respects : decoder.Respects R) :
    (list decoder).Respects (List.Forall₂ R) := by
  have items (n : Nat) {js js' : List Json} (related : List.Forall₂ Retyped js js') :
      Option.Rel (List.Forall₂ R) (js.mapM (decoder n)) (js'.mapM (decoder n)) := by
    induction related with
    | nil => exact .some .nil
    | cons first _ ih =>
      rw [List.mapM_cons, List.mapM_cons]
      exact rel_bind (respects n _ _ first) fun _ _ head =>
        rel_bind ih fun _ _ tail => .some (.cons head tail)
  intro n j j' related
  cases n with
  | zero => exact .none
  | succ n =>
    cases related with
    | same j =>
      cases j with
      | array js => exact items n (List.forall₂_same.mpr fun j _ => .same j)
      | null | bool | number | string | object => exact .none
    | array related => exact items n related
    | object | expression => exact .none

/-- What has the members of an expression is no alternative. -/
theorem ne_singleton_of_keys {members : List (Option String × Json)} (pos : some "pos" ∈ members.map Prod.fst)
    (kind : some "kind" ∈ members.map Prod.fst) (m : Option String × Json) : members ≠ [m] := by
  rintro rfl
  rw [List.map_singleton, List.mem_singleton] at pos kind
  exact absurd (pos.trans kind.symm) (by decide)

theorem mem_keys_insert {key : Option String} {front back : List (Option String × Json)}
    (types : List (Option String × Json)) (member : key ∈ (front ++ back).map Prod.fst) :
    key ∈ (front ++ types ++ back).map Prod.fst := by
  simp only [List.map_append, List.mem_append] at member ⊢
  exact member.elim (fun early => .inl (.inl early)) .inr

theorem respects_alternative {content : String → Decoder α} {R : α → α → Prop} (refl : ∀ a, R a a)
    (respects : ∀ name, (content name).Respects R) : (alternative content).Respects R := by
  have several (n : Nat) {members : List (Option String × Json)} (pos : some "pos" ∈ members.map Prod.fst)
      (kind : some "kind" ∈ members.map Prod.fst) : alternative content n (.object members) = none := by
    unfold alternative
    split
    next equal => exact absurd (Json.object.inj equal) (ne_singleton_of_keys pos kind _)
    next => rfl
  intro n j j' related
  cases n with
  | zero => exact .none
  | succ n =>
    cases related with
    | same =>
      cases alternative content (n + 1) j with
      | none => exact .none
      | some a => exact .some (refl a)
    | array => exact .none
    | object related =>
      match related with
      | .nil | .cons none _ _ | .cons (some _) _ (.cons _ _ _) => exact .none
      | .cons (some name) value .nil => exact respects name n _ _ value
    | @expression front front' back back' types types' f b _ _ _ pos kind =>
      -- a position and a kind are two members already
      rw [several _ (mem_keys_insert types pos) (mem_keys_insert types kind)]
      rw [List.map_append, f.alike.keys, b.alike.keys, ← List.map_append] at pos kind
      rw [several _ (mem_keys_insert types' pos) (mem_keys_insert types' kind)]
      exact .none

/-- As an object, an alternative without anything in it is one with `null` in it. -/
theorem named_object (choose : String → Option α) (n : Nat) (members : List (Option String × Json)) :
    named choose n (.object members) =
      alternative (fun name => fun
        | _, .null => choose name
        | _, _ => none) n (.object members) := by
  unfold named
  split
  next text => contradiction
  next n name members_eq =>
    cases members_eq
    rfl
  next other =>
    unfold alternative
    split
    next n name j members_eq =>
      cases j with
      | null => exact absurd members_eq (other n name rfl)
      | bool | number | string | array | object => rfl
    next => rfl

theorem respects_named (choose : String → Option α) : (named choose).Respects Eq := by
  have empty (name : String) : Decoder.Respects (fun
      | _, .null => choose name
      | _, _ => none) Eq := by
    intro n j j' related
    cases related with
    | same => exact rel_eq_refl _
    | array | object | expression => exact .none
  have object (n : Nat) {members members' : List (Option String × Json)}
      (related : Retyped (.object members) (.object members')) :
      Option.Rel Eq (named choose n (.object members)) (named choose n (.object members')) := by
    rw [named_object, named_object]
    exact respects_alternative (fun _ => rfl) empty n _ _ related
  -- a name by itself is the same on both sides, and one over `null` is an alternative
  intro n j j' related
  cases related with
  | same => exact rel_eq_refl _
  | array => exact .none
  | object members => exact object n (.object members)
  | expression f b t t' absent pos kind => exact object n (.expression f b t t' absent pos kind)

end MiniPascal
