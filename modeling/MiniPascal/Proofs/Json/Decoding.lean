import MiniPascal.Json.Decoder
import Mathlib.Data.List.Forall2

/-!
# Decoders and the depth of documents

The depth of a document is the number of containers that are nested in it. A decoder that may open a number
of containers gives values of which something holds for that number, and what is written as a record or as a
list is decoded field by field or item by item.
-/

namespace MiniPascal

/-! ## Depth -/

namespace Json

mutual

/-- How many containers are nested. -/
def depth : Json → Nat
  | null | bool _ | number _ | string _ => 0
  | array items => itemsDepth items + 1
  | object members => membersDepth members + 1

def itemsDepth : List Json → Nat
  | [] => 0
  | item :: items => max item.depth (itemsDepth items)

def membersDepth : List (Option String × Json) → Nat
  | [] => 0
  | (_, value) :: members => max value.depth (membersDepth members)

end

variable {n : Nat}

@[simp] theorem depth_array_le {items : List Json} :
    (array items).depth ≤ n + 1 ↔ ∀ item ∈ items, item.depth ≤ n := by
  rw [depth, Nat.add_le_add_iff_right]
  induction items with
  | nil => simp [itemsDepth]
  | cons item items ih => rw [itemsDepth, Nat.max_le, ih, List.forall_mem_cons]

@[simp] theorem depth_record_le {fields : List (String × Json)} :
    (record fields).depth ≤ n + 1 ↔ ∀ field ∈ fields, field.2.depth ≤ n := by
  rw [record, depth, Nat.add_le_add_iff_right]
  induction fields with
  | nil => simp [membersDepth]
  | cons field fields ih => rw [List.map_cons, membersDepth, Nat.max_le, ih, List.forall_mem_cons]

@[simp] theorem depth_alternative_le {name : String} {content : Json} :
    (alternative name content).depth ≤ n + 1 ↔ content.depth ≤ n := by
  rw [alternative, depth_record_le, List.forall_mem_singleton]

@[simp] theorem depth_array_zero {items : List Json} : ¬(array items).depth ≤ 0 := Nat.not_succ_le_zero _

@[simp] theorem depth_record_zero {fields : List (String × Json)} : ¬(record fields).depth ≤ 0 :=
  Nat.not_succ_le_zero _

theorem depth_nil_le {items : List Json} : (array []).depth ≤ (array items).depth :=
  Nat.succ_le_succ (Nat.zero_le _)

@[simp] theorem depth_null : null.depth = 0 := rfl

@[simp] theorem depth_ofString (s : String) : (ofString s).depth = 0 := rfl

@[simp] theorem depth_ofNat (m : Nat) : (ofNat m).depth = 0 := rfl

@[simp] theorem depth_ofInt (v : Int) : (ofInt v).depth = 0 := rfl

@[simp] theorem depth_ofReal (r : Float) : (ofReal r).depth = 0 := by
  unfold ofReal
  split <;> rfl

@[simp] theorem depth_orNull_le {α : Type} {write : α → Json} {a? : Option α} :
    (orNull write a?).depth ≤ n ↔ ∀ a ∈ a?, (write a).depth ≤ n := by
  cases a? <;> simp [orNull]

theorem array_ne_null (items : List Json) : array items ≠ null := nofun

end Json

namespace Decoder

variable {α β : Type} {decoder : Decoder α} {n : Nat}

theorem mapM_eq_some_iff {f : Json → Option α} {items : List Json} {as : List α} :
    items.mapM f = some as ↔ List.Forall₂ (fun item a => f item = some a) items as := by
  induction items generalizing as with
  | nil =>
    rw [List.mapM_nil, List.forall₂_nil_left_iff]
    exact Option.some_inj.trans eq_comm
  | cons item items ih =>
    simp only [List.mapM_cons, List.forall₂_cons_left_iff, ← ih, Option.bind_eq_bind, Option.bind_eq_some_iff]
    constructor
    · rintro ⟨a, first, rest, others, equal⟩
      cases equal
      exact ⟨a, rest, first, others, rfl⟩
    · rintro ⟨a, rest, first, others, rfl⟩
      exact ⟨a, first, rest, others, rfl⟩

/-! ## Decoding any document -/

/-- Of what is decoded something holds, given how many containers may be opened. -/
def Gives (decoder : Decoder α) (P : Nat → α → Prop) : Prop :=
  ∀ n j a, decoder n j = some a → P n a

variable {P Q : Nat → α → Prop}

theorem Gives.imp (gives : decoder.Gives P) (weaker : ∀ n a, P n a → Q n a) : decoder.Gives Q :=
  fun n j a decoded => weaker n a (gives n j a decoded)

/-- A record that is decoded could be opened, and was decoded from some fields. -/
theorem record_opened {names : List String} {content : Fields → Nat → Option α} {j : Json} {a : α}
    (decoded : record names content n j = some a) : ∃ m fields, n = m + 1 ∧ content fields m = some a := by
  cases n with
  | zero => cases decoded
  | succ m =>
    obtain ⟨fields, -, found⟩ := Option.bind_eq_some_iff.mp decoded
    exact ⟨m, fields, rfl, found⟩

theorem gives_record {names : List String} {content : Fields → Nat → Option α}
    (gives : ∀ n fields a, content fields n = some a → P (n + 1) a) : (record names content).Gives P := by
  intro n j a decoded
  obtain ⟨m, fields, rfl, found⟩ := record_opened decoded
  exact gives m fields a found

theorem Gives.required (gives : decoder.Gives P) {name : String} {fields : Fields} {a : α}
    (found : Decoder.required decoder name fields n = some a) : P n a := by
  obtain ⟨j, -, decoded⟩ := Option.bind_eq_some_iff.mp found
  exact gives n j a decoded

theorem Gives.defaulted (gives : decoder.Gives P) {default : α} (holds : P n default) {name : String}
    {fields : Fields} {a : α} (found : Decoder.defaulted decoder default name fields n = some a) : P n a := by
  unfold Decoder.defaulted at found
  split at found
  · exact gives _ _ _ found
  · cases found
    exact holds

theorem Gives.nullable (gives : decoder.Gives P) : (nullable decoder).Gives fun n a? => ∀ a ∈ a?, P n a := by
  intro n j a? decoded
  unfold Decoder.nullable at decoded
  split at decoded
  · cases decoded
    exact nofun
  · obtain ⟨a, found, rfl⟩ := Option.map_eq_some_iff.mp decoded
    rintro _ ⟨⟩
    exact gives _ _ _ found

theorem Gives.optional (gives : decoder.Gives P) {name : String} {fields : Fields} {a? : Option α}
    (found : Decoder.optional decoder name fields n = some a?) : ∀ a ∈ a?, P n a :=
  gives.nullable.defaulted (by simp) found

theorem gives_list (gives : decoder.Gives P) :
    (list decoder).Gives fun n as => ∃ m, n = m + 1 ∧ ∀ a ∈ as, P m a := by
  intro n j as decoded
  unfold list at decoded
  split at decoded
  next m items =>
    have each := mapM_eq_some_iff.mp decoded
    refine ⟨m, rfl, ?_⟩
    clear decoded
    induction each with
    | nil => exact List.forall_mem_nil _
    | cons first _ ih => exact List.forall_mem_cons.mpr ⟨gives m _ _ first, ih⟩
  next => cases decoded

theorem gives_alternative {content : String → Decoder α}
    (gives : ∀ name n j a, content name n j = some a → P (n + 1) a) : (alternative content).Gives P := by
  intro n j a decoded
  unfold alternative at decoded
  split at decoded
  · exact gives _ _ _ _ decoded
  · cases decoded

/-! ## Decoding what was written -/

theorem members?_cons (key : Option String) (j : Json) (members : List (Option String × Json)) :
    members? ((key, j) :: members) =
      key.bind fun name => (members? members).map fun fields => (name, j) :: fields := by
  rw [members?, List.mapM_cons]
  cases key with
  | none => rfl
  | some name =>
    change (members? members).bind (fun fields => some ((name, j) :: fields)) = _
    cases members? members <;> rfl

theorem members?_map (fields : List (String × Json)) :
    members? (fields.map fun f => (some f.1, f.2)) = some fields := by
  induction fields with
  | nil => rfl
  | cons field fields ih => rw [List.map_cons, members?_cons, ih, Option.bind_some, Option.map_some]

/-- All fields of a record are found. -/
theorem record_written {names : List String} (content : Fields → Nat → Option α) (n : Nat)
    {fields : List (String × Json)} (keys : fields.map Prod.fst = names) (distinct : names.Nodup) :
    record names content (n + 1) (.record fields) = content fields n := by
  subst keys
  have known : (fields.filter fun field => (fields.map Prod.fst).contains field.1) = fields := by
    refine List.filter_eq_self.mpr fun field member => ?_
    rw [List.contains_iff_mem]
    exact List.mem_map_of_mem member
  have found : fields? (fields.map Prod.fst) (.record fields) = some fields := by
    unfold Json.record fields?
    simp only [members?_map, Option.bind_eq_bind, Option.bind_some, known, if_pos distinct]
  change (fields? (fields.map Prod.fst) (.record fields)).bind (content · n) = _
  rw [found, Option.bind_some]

section Fields

variable {name other : String} {j : Json} {fields : Fields}

@[simp] theorem required_head : Decoder.required decoder name ((name, j) :: fields) n = decoder n j := by
  rw [Decoder.required, List.lookup_cons_self]
  rfl

@[simp] theorem required_tail (different : name ≠ other) :
    Decoder.required decoder name ((other, j) :: fields) n = Decoder.required decoder name fields n := by
  rw [Decoder.required, List.lookup_cons, beq_false_of_ne different]
  rfl

@[simp] theorem defaulted_head {default : α} :
    Decoder.defaulted decoder default name ((name, j) :: fields) n = decoder n j := by
  rw [Decoder.defaulted, List.lookup_cons_self]

@[simp] theorem defaulted_tail {default : α} (different : name ≠ other) :
    Decoder.defaulted decoder default name ((other, j) :: fields) n =
      Decoder.defaulted decoder default name fields n := by
  rw [Decoder.defaulted, Decoder.defaulted, List.lookup_cons, beq_false_of_ne different]

@[simp] theorem optional_head : Decoder.optional decoder name ((name, j) :: fields) n = nullable decoder n j :=
  defaulted_head

@[simp] theorem optional_tail (different : name ≠ other) :
    Decoder.optional decoder name ((other, j) :: fields) n = Decoder.optional decoder name fields n :=
  defaulted_tail different

end Fields

@[simp] theorem alternative_written (content : String → Decoder α) (n : Nat) (name : String) (j : Json) :
    alternative content (n + 1) (.alternative name j) = content name n j := rfl

/-- Up to a number of containers, values are read back as they were written, given that they are good and
that their documents are not too deep. -/
def Reads (decoder : Decoder α) (n : Nat) (write : α → Json) (Good : α → Prop) : Prop :=
  ∀ m ≤ n, ∀ a, decoder m (write a) = some a ↔ Good a ∧ (write a).depth ≤ m

variable {write : α → Json} {Good : α → Prop}

/-- A record is decoded from its fields, if it can be opened. -/
theorem record_iff (Good : Prop) {names : List String} {content : Fields → Nat → Option α}
    {fields : List (String × Json)} {a : α} (keys : fields.map Prod.fst = names) (distinct : names.Nodup)
    (reads : ∀ m, n = m + 1 → (content fields m = some a ↔ Good ∧ ∀ field ∈ fields, field.2.depth ≤ m)) :
    record names content n (.record fields) = some a ↔ Good ∧ (Json.record fields).depth ≤ n := by
  cases n with
  | zero => exact iff_of_false nofun fun good => Json.depth_record_zero good.2
  | succ m =>
    rw [record_written content m keys distinct, Json.depth_record_le]
    exact reads m rfl

theorem reads_record {names : List String} {content : Fields → Nat → Option α} {fields : α → List (String × Json)}
    (keys : ∀ a, (fields a).map Prod.fst = names) (distinct : names.Nodup)
    (reads : ∀ m ≤ n, ∀ a, content (fields a) m = some a ↔ Good a ∧ ∀ field ∈ fields a, field.2.depth ≤ m) :
    (record names content).Reads (n + 1) (fun a => .record (fields a)) Good := fun _ small a =>
  record_iff (Good a) (keys a) distinct fun m equal => reads m (by omega) a

theorem Reads.list (reads : decoder.Reads n write Good) :
    (Decoder.list decoder).Reads (n + 1) (fun as => .array (as.map write)) fun as => ∀ a ∈ as, Good a := by
  intro m small as
  cases m with
  | zero => exact iff_of_false nofun fun good => Json.depth_array_zero good.2
  | succ m =>
    have each (a : α) := reads m (Nat.le_of_succ_le_succ small) a
    have decoded : Decoder.list decoder (m + 1) (.array (as.map write)) = some as ↔
        ∀ a ∈ as, decoder m (write a) = some a :=
      mapM_eq_some_iff.trans (List.forall₂_map_left_iff.trans List.forall₂_same)
    rw [decoded, Json.depth_array_le, List.forall_mem_map, ← forall₂_and]
    simp only [each]

theorem Reads.nullable (reads : decoder.Reads n write Good) (shown : ∀ a, write a ≠ .null) :
    (Decoder.nullable decoder).Reads n (.orNull write) fun a? => ∀ a ∈ a?, Good a := by
  intro m small a?
  cases a? with
  | none => exact iff_of_true rfl ⟨nofun, Nat.zero_le m⟩
  | some a =>
    have written : Decoder.nullable decoder m (write a) = (decoder m (write a)).map some := by
      unfold Decoder.nullable
      split
      next null => exact absurd null (shown a)
      next => rfl
    rw [Json.orNull, written]
    simp [reads m small a]

end Decoder

end MiniPascal
