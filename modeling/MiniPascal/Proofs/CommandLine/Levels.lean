import MiniPascal.Optimization.Level
import Mathlib.Tactic.Common

/-!
# Optimization levels as they are written

A level is a name, or a name, a colon and a list; the list has segments between commas, and empty ones do not
count. `Level.Reads` says for every text what it is read as, and what is written for a level is read as the
level.
-/

namespace MiniPascal

/-! ## Separators -/

theorem splitAt_eq_splitOn (separator : Char) (cs : List Char) : splitAt separator cs = cs.splitOn separator := by
  induction cs with
  | nil => rfl
  | cons c cs ih =>
    have step : (c :: cs).splitOn separator =
        if c == separator then [] :: cs.splitOn separator else (cs.splitOn separator).modifyHead (c :: ·) :=
      List.splitOnP_cons_eq_if_modifyHead ..
    rw [splitAt, ih, step]
    split
    next equal => simp [equal]
    next other =>
      obtain ⟨part, parts, parts_eq⟩ := List.exists_cons_of_ne_nil (List.splitOn_ne_nil separator cs)
      simp [other, parts_eq]

theorem splitAt_of_not_mem {separator : Char} {cs : List Char} (whole : separator ∉ cs) :
    splitAt separator cs = [cs] := by
  rw [splitAt_eq_splitOn]
  refine List.splitOnP_eq_singleton fun c member => ?_
  simp only [beq_eq_false_iff_ne]
  exact fun equal => whole (equal ▸ member)

theorem splitAt_append_cons {separator : Char} {cs : List Char} (whole : separator ∉ cs) (ds : List Char) :
    splitAt separator (cs ++ separator :: ds) = cs :: splitAt separator ds := by
  have parts : splitAt separator (cs ++ separator :: ds) = splitAt separator cs ++ splitAt separator ds := by
    simp only [splitAt_eq_splitOn]
    exact List.splitOnP_append_cons cs ds (beq_self_eq_true separator)
  rw [parts, splitAt_of_not_mem whole, List.singleton_append]

/-! ## Passes -/

theorem ofName?_eq_some {s : String} {p : Pass} : Pass.ofName? s = some p ↔ s = p.name := by
  cases p
  unfold Pass.ofName?
  split
  next => simp [Pass.name]
  next other => simpa [Pass.name] using other

namespace Level

/-- The segments of a list that are not empty. -/
def segments (list : List Char) : List (List Char) :=
  (list.splitOn ',').filter (· ≠ [])

def IsPassName (segment : List Char) : Prop :=
  ∃ p : Pass, segment = p.name.toList

/-- A text is the same as another one but for the case of ASCII letters. -/
def SameLetters (s t : List Char) : Prop :=
  s.map Char.toLower = t.map Char.toLower

/-- The names of levels. -/
def names : List String := ["none", "moderate", "custom"]

/-- What a name on its own is read as. -/
inductive ReadsName (name : List Char) : Except LevelError Level → Prop
  | none : SameLetters name "none".toList → ReadsName name (.ok none)
  | moderate : SameLetters name "moderate".toList → ReadsName name (.ok moderate)
  | custom : SameLetters name "custom".toList → ReadsName name (.error .customWithoutList)
  | unknown : (∀ level ∈ names, ¬SameLetters name level.toList) →
    ReadsName name (.error (.unknownLevel (String.ofList name)))

/-- What a name with a list is read as. -/
inductive ReadsList (name list : List Char) : Except LevelError Level → Prop
  | unexpected : SameLetters name "none".toList ∨ SameLetters name "moderate".toList →
    ReadsList name list (.error (.unexpectedList (String.ofList name)))
  | empty : SameLetters name "custom".toList → segments list = [] → ReadsList name list (.error .customWithoutList)
  | passes {ps : List Pass} : SameLetters name "custom".toList → ps ≠ [] →
    segments list = ps.map (·.name.toList) → ReadsList name list (.ok (custom ps))
  | unknownPass {ps : List Pass} {segment : List Char} {rest : List (List Char)} :
    SameLetters name "custom".toList → segments list = ps.map (·.name.toList) ++ segment :: rest →
    ¬IsPassName segment → ReadsList name list (.error (.unknownPass (String.ofList segment)))
  | unknown : (∀ level ∈ names, ¬SameLetters name level.toList) →
    ReadsList name list (.error (.unknownLevel (String.ofList name)))

/-- What a text is read as. -/
inductive Reads : List Char → Except LevelError Level → Prop
  | name {name r} : ':' ∉ name → ReadsName name r → Reads name r
  | list {name list r} : ':' ∉ name → ':' ∉ list → ReadsList name list r → Reads (name ++ ':' :: list) r
  | tooManySeparators {cs} : 2 ≤ cs.count ':' → Reads cs (.error .tooManySeparators)

theorem sameLetters_iff {name : List Char} {level : String} (member : level ∈ names) :
    SameLetters name level.toList ↔ String.ofList (name.map Char.toLower) = level := by
  have lower : ∀ level ∈ names, level.toList.map Char.toLower = level.toList := by decide
  rw [SameLetters, lower level member, ← String.toList_inj, String.toList_ofList]

theorem unknown_iff {name : List Char} :
    (∀ level ∈ names, ¬SameLetters name level.toList) ↔ String.ofList (name.map Char.toLower) ∉ names := by
  constructor
  · exact fun unknown member => unknown _ member ((sameLetters_iff member).mpr rfl)
  · exact fun other level member same => other ((sameLetters_iff member).mp same ▸ member)

/-! ## Lists of passes -/

/-- The segments up to the first one that is no name of a pass. -/
theorem passes_or_other (segments : List (List Char)) :
    (∃ ps : List Pass, segments = ps.map (·.name.toList)) ∨
      ∃ (ps : List Pass) (segment : List Char) (rest : List (List Char)),
        segments = ps.map (·.name.toList) ++ segment :: rest ∧ ¬IsPassName segment := by
  induction segments with
  | nil => exact .inl ⟨[], rfl⟩
  | cons segment segments ih =>
    by_cases known : IsPassName segment
    · obtain ⟨p, rfl⟩ := known
      obtain ⟨ps, rfl⟩ | ⟨ps, other, rest, rfl, unknown⟩ := ih
      · exact .inl ⟨p :: ps, rfl⟩
      · exact .inr ⟨p :: ps, other, rest, rfl, unknown⟩
    · exact .inr ⟨[], segment, segments, rfl, known⟩

theorem passes?_eq (list : List Char) :
    passes? list = (segments list).mapM fun part =>
      match Pass.ofName? (String.ofList part) with
      | .some p => .ok p
      | .none => .error (.unknownPass (String.ofList part)) := by
  unfold passes?
  rw [splitAt_eq_splitOn]
  rfl

theorem ofName?_ofList (p : Pass) : Pass.ofName? (String.ofList p.name.toList) = some p := by
  rw [String.ofList_toList]
  exact ofName?_eq_some.mpr rfl

theorem passes?_of_names {list : List Char} {ps : List Pass} (names : segments list = ps.map (·.name.toList)) :
    passes? list = .ok ps := by
  rw [passes?_eq, names]
  clear names
  induction ps with
  | nil => rfl
  | cons p ps ih =>
    rw [List.map_cons, List.mapM_cons, ofName?_ofList, ih]
    rfl

theorem passes?_of_other {list : List Char} {ps : List Pass} {segment : List Char} {rest : List (List Char)}
    (names : segments list = ps.map (·.name.toList) ++ segment :: rest) (unknown : ¬IsPassName segment) :
    passes? list = .error (.unknownPass (String.ofList segment)) := by
  have none : Pass.ofName? (String.ofList segment) = .none := by
    rw [Option.eq_none_iff_forall_ne_some]
    intro p found
    have name := ofName?_eq_some.mp found
    exact unknown ⟨p, by rw [← name, String.toList_ofList]⟩
  rw [passes?_eq, names]
  clear names
  induction ps with
  | nil =>
    rw [List.map_nil, List.nil_append, List.mapM_cons, none]
    rfl
  | cons p ps ih =>
    rw [List.map_cons, List.cons_append, List.mapM_cons, ofName?_ofList, ih]
    rfl

/-! ## Texts -/

section Texts

variable {name list : List Char} {r : Except LevelError Level}

theorem parse_name (whole : ':' ∉ name) (reads : ReadsName name r) : parse (String.ofList name) = r := by
  rw [parse, String.toList_ofList, splitAt_of_not_mem whole]
  dsimp only
  cases reads with
  | none same | moderate same | custom same =>
    rw [(sameLetters_iff (by decide)).mp same]
    rfl
  | unknown other =>
    have lower := unknown_iff.mp other
    split
    next equal => exact absurd (equal ▸ by decide) lower
    next equal => exact absurd (equal ▸ by decide) lower
    next equal => exact absurd (equal ▸ by decide) lower
    next => rfl

theorem parse_custom (name_whole : ':' ∉ name) (list_whole : ':' ∉ list) (same : SameLetters name "custom".toList) :
    parse (String.ofList (name ++ ':' :: list)) =
      (passes? list).bind fun passes => if passes = [] then .error .customWithoutList else .ok (custom passes) := by
  rw [parse, String.toList_ofList, splitAt_append_cons name_whole, splitAt_of_not_mem list_whole]
  dsimp only
  rw [(sameLetters_iff (by decide)).mp same]
  rfl

theorem parse_list (name_whole : ':' ∉ name) (list_whole : ':' ∉ list) (reads : ReadsList name list r) :
    parse (String.ofList (name ++ ':' :: list)) = r := by
  cases reads with
  | empty same nothing =>
    rw [parse_custom name_whole list_whole same, passes?_of_names (nothing.trans List.map_nil.symm)]
    rfl
  | passes same some_pass segments =>
    rw [parse_custom name_whole list_whole same, passes?_of_names segments]
    exact if_neg some_pass
  | unknownPass same segments unknown =>
    rw [parse_custom name_whole list_whole same, passes?_of_other segments unknown]
    rfl
  | unexpected same =>
    rw [parse, String.toList_ofList, splitAt_append_cons name_whole, splitAt_of_not_mem list_whole]
    dsimp only
    obtain same | same := same
    · rw [(sameLetters_iff (by decide)).mp same]
      rfl
    · rw [(sameLetters_iff (by decide)).mp same]
      rfl
  | unknown other =>
    have lower := unknown_iff.mp other
    rw [parse, String.toList_ofList, splitAt_append_cons name_whole, splitAt_of_not_mem list_whole]
    dsimp only
    split
    next equal => exact absurd (equal ▸ by decide) lower
    next equal => exact absurd (equal ▸ by decide) lower
    next equal => exact absurd (equal ▸ by decide) lower
    next => rfl

theorem parse_many {cs : List Char} (separators : 2 ≤ cs.count ':') :
    parse (String.ofList cs) = .error .tooManySeparators := by
  have first : ':' ∈ cs := List.count_pos_iff.mp (by omega)
  obtain ⟨name, rest, rfl, name_whole⟩ := List.eq_append_cons_of_mem first
  have second : ':' ∈ rest := by
    rw [List.count_append, List.count_cons_self, List.count_eq_zero.mpr name_whole] at separators
    exact List.count_pos_iff.mp (by omega)
  obtain ⟨list, rest, rfl, list_whole⟩ := List.eq_append_cons_of_mem second
  rw [parse, String.toList_ofList, splitAt_append_cons name_whole, splitAt_append_cons list_whole]
  obtain ⟨part, parts, parts_eq⟩ := List.exists_cons_of_ne_nil (splitAt_ne_nil ':' rest)
  rw [parts_eq]

theorem exists_readsName (name : List Char) : ∃ r, ReadsName name r := by
  by_cases known : ∃ level ∈ names, SameLetters name level.toList
  · obtain ⟨level, member, same⟩ := known
    simp only [names, List.mem_cons, List.not_mem_nil, or_false] at member
    obtain rfl | rfl | rfl := member
    · exact ⟨_, .none same⟩
    · exact ⟨_, .moderate same⟩
    · exact ⟨_, .custom same⟩
  · exact ⟨_, .unknown (by simpa using known)⟩

theorem exists_readsList (name list : List Char) : ∃ r, ReadsList name list r := by
  by_cases known : ∃ level ∈ names, SameLetters name level.toList
  · obtain ⟨level, member, same⟩ := known
    simp only [names, List.mem_cons, List.not_mem_nil, or_false] at member
    obtain rfl | rfl | rfl := member
    · exact ⟨_, .unexpected (.inl same)⟩
    · exact ⟨_, .unexpected (.inr same)⟩
    · obtain ⟨ps, segments⟩ | ⟨ps, segment, rest, segments, unknown⟩ := passes_or_other (segments list)
      · rcases eq_or_ne ps [] with rfl | some_pass
        · exact ⟨_, .empty same segments⟩
        · exact ⟨_, .passes same some_pass segments⟩
      · exact ⟨_, .unknownPass same segments unknown⟩
  · exact ⟨_, .unknown (by simpa using known)⟩

/-- Every text is read as something. -/
theorem exists_reads (cs : List Char) : ∃ r, Reads cs r := by
  by_cases separated : ':' ∈ cs
  · obtain ⟨name, rest, rfl, name_whole⟩ := List.eq_append_cons_of_mem separated
    by_cases twice : ':' ∈ rest
    · have first : 0 < rest.count ':' := List.count_pos_iff.mpr twice
      exact ⟨_, .tooManySeparators (by rw [List.count_append, List.count_cons_self]; omega)⟩
    · obtain ⟨r, reads⟩ := exists_readsList name rest
      exact ⟨r, .list name_whole twice reads⟩
  · obtain ⟨r, reads⟩ := exists_readsName cs
    exact ⟨r, .name separated reads⟩

theorem parse_of_reads {cs : List Char} (reads : Reads cs r) : parse (String.ofList cs) = r := by
  cases reads with
  | name whole reads => exact parse_name whole reads
  | list name_whole list_whole reads => exact parse_list name_whole list_whole reads
  | tooManySeparators separators => exact parse_many separators

theorem parse_eq_iff (s : String) : parse s = r ↔ Reads s.toList r := by
  constructor
  · intro parsed
    obtain ⟨r', reads⟩ := exists_reads s.toList
    have same := parse_of_reads reads
    rw [String.ofList_toList, parsed] at same
    exact same ▸ reads
  · intro reads
    have parsed := parse_of_reads reads
    rwa [String.ofList_toList] at parsed

end Texts

/-! ## Writing -/

/-- A level as it can be written. -/
def text : Level → String
  | none => "none"
  | moderate => "moderate"
  | custom passes => "custom:" ++ String.intercalate "," (passes.map Pass.name)

theorem segments_written {passes : List Pass} (some_pass : passes ≠ []) :
    segments (String.intercalate "," (passes.map Pass.name)).toList = passes.map (·.name.toList) := by
  have unbroken : ∀ name ∈ passes.map (·.name.toList), ',' ∉ name ∧ name ≠ [] := by
    intro name member
    obtain ⟨p, -, rfl⟩ := List.mem_map.mp member
    cases p
    decide
  have parts : (String.intercalate "," (passes.map Pass.name)).toList.splitOn ',' = passes.map (·.name.toList) := by
    rw [String.toList_intercalate, List.map_map]
    exact List.splitOn_intercalate ',' (fun name member => (unbroken name member).1) (by simpa using some_pass)
  rw [segments, parts, List.filter_eq_self]
  exact fun name member => decide_eq_true (unbroken name member).2

theorem not_mem_intercalate (passes : List Pass) :
    ':' ∉ (String.intercalate "," (passes.map Pass.name)).toList := by
  rw [String.toList_intercalate, List.map_map]
  induction passes with
  | nil => exact List.not_mem_nil
  | cons p ps ih =>
    have unbroken : ':' ∉ p.name.toList := by
      cases p
      decide
    cases ps with
    | nil => simpa using unbroken
    | cons q qs => simpa [List.intercalate_cons_cons] using ⟨unbroken, ih⟩

theorem reads_text {l : Level} (some_pass : l ≠ custom []) : Reads l.text.toList (.ok l) := by
  cases l with
  | none => exact .name (by decide) (.none rfl)
  | moderate => exact .name (by decide) (.moderate rfl)
  | custom passes =>
    have nonempty : passes ≠ [] := fun empty => some_pass (empty ▸ rfl)
    have written : (custom passes).text.toList =
        "custom".toList ++ ':' :: (String.intercalate "," (passes.map Pass.name)).toList := by
      rw [text, String.toList_append]
      rfl
    rw [written]
    exact .list (by decide) (not_mem_intercalate passes) (.passes rfl nonempty (segments_written nonempty))

/-- A text is read as the grammar of levels says, and what is written for a level as the level. -/
theorem levels_read_exactly :
    (∀ (s : String) (r : Except LevelError Level), parse s = r ↔ Reads s.toList r) ∧
      ∀ l : Level, l ≠ custom [] → parse l.text = .ok l :=
  ⟨fun s _ => parse_eq_iff s, fun l some_pass => (parse_eq_iff l.text).mpr (reads_text some_pass)⟩

/-- A pass that is not known, in a list with an empty segment, and a pass that is to run twice. -/
theorem levels_read_exactly_repeated_pass :
    Reads "Custom:ConstantFolding,,Inline".toList (.error (.unknownPass "Inline")) ∧
      custom [.constantFolding, .constantFolding] ≠ custom [] ∧
      parse "custom:ConstantFolding,ConstantFolding" = .ok (custom [.constantFolding, .constantFolding]) := by
  obtain ⟨reads, writes⟩ := levels_read_exactly
  have twice : custom [.constantFolding, .constantFolding] ≠ custom [] := by decide
  exact ⟨(reads _ _).mp rfl, twice, writes _ twice⟩

end Level

end MiniPascal
