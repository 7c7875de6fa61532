import MiniPascal.Json.Decoder
import Mathlib.Algebra.Group.Nat.Defs
import Mathlib.Data.List.TakeDrop
import Mathlib.Tactic.Common

/-!
# Numbers as they are written

A number in a text ends where none of its characters follows. Whole numbers and finite doubles are written
as such numbers, and a whole number is read as the one that was written.
-/

namespace MiniPascal

open Decimal

namespace Json

/-! ## The grammar of numbers -/

def AllDigits (cs : List Char) : Prop :=
  ∀ c ∈ cs, c.isDigit = true

/-- Digits that do not begin with a zero. -/
def Significant (cs : List Char) : Prop :=
  ∃ c ds, cs = c :: ds ∧ c.isDigit = true ∧ c ≠ '0' ∧ AllDigits ds

inductive IsFraction : List Char → Prop
  | none : IsFraction []
  | digits {ds} : ds ≠ [] → AllDigits ds → IsFraction ('.' :: ds)

inductive IsPower : List Char → Prop
  | none : IsPower []
  | digits {sign ds} : sign ∈ [[], ['+'], ['-']] → ds ≠ [] → AllDigits ds → IsPower ('e' :: (sign ++ ds))

/-- A number without a sign. -/
inductive IsUnsigned : List Char → Prop
  | parts {whole fraction power} : whole = ['0'] ∨ Significant whole → IsFraction fraction → IsPower power →
    IsUnsigned (whole ++ fraction ++ power)

inductive IsNumber : List Char → Prop
  | plain {cs} : IsUnsigned cs → IsNumber cs
  | negative {cs} : IsUnsigned cs → IsNumber ('-' :: cs)

/-! ## Scanning -/

/-- No number goes on here. -/
def EndsNumber (rest : List Char) : Prop :=
  ∀ c ∈ rest.head?, c.isDigit = false ∧ c ≠ '.' ∧ c ≠ 'e' ∧ c ≠ 'E'

section Scanning

variable {ds rest : List Char}

theorem takeWhile_digits (digits : AllDigits ds) (stop : ∀ c ∈ rest.head?, c.isDigit = false) :
    (ds ++ rest).takeWhile Char.isDigit = ds := by
  rw [List.takeWhile_append_of_pos digits]
  cases rest with
  | nil => rw [List.takeWhile_nil, List.append_nil]
  | cons c rest => rw [List.takeWhile_cons_of_neg (by simp [stop c rfl]), List.append_nil]

theorem dropWhile_digits (digits : AllDigits ds) (stop : ∀ c ∈ rest.head?, c.isDigit = false) :
    (ds ++ rest).dropWhile Char.isDigit = rest := by
  rw [List.dropWhile_append_of_pos digits]
  cases rest with
  | nil => rfl
  | cons c rest => rw [List.dropWhile_cons_of_neg (by simp [stop c rfl])]

theorem mem_of_append_eq_cons {cs : List Char} {c : Char} (some_digit : ds ≠ []) (equal : ds ++ rest = c :: cs) :
    c ∈ ds := by
  cases ds with
  | nil => contradiction
  | cons d ds =>
    cases equal
    exact List.mem_cons_self

theorem scanDigits?_append (some_digit : ds ≠ []) (digits : AllDigits ds)
    (stop : ∀ c ∈ rest.head?, c.isDigit = false) : scanDigits? (ds ++ rest) = some (ds, rest) := by
  unfold scanDigits?
  rw [takeWhile_digits digits stop, dropWhile_digits digits stop]
  cases ds with
  | nil => contradiction
  | cons => rfl

theorem scanWhole?_append (whole : ds = ['0'] ∨ Significant ds) (stop : ∀ c ∈ rest.head?, c.isDigit = false) :
    scanWhole? (ds ++ rest) = some (ds, rest) := by
  obtain rfl | ⟨c, ds, rfl, digit, nonzero, digits⟩ := whole
  · rfl
  · rw [List.cons_append, scanWhole?, if_neg nonzero, if_pos digit, takeWhile_digits digits stop,
      dropWhile_digits digits stop]

theorem scanFraction?_append (fraction : IsFraction ds) (stop : ∀ c ∈ rest.head?, c.isDigit = false ∧ c ≠ '.') :
    scanFraction? (ds ++ rest) = some (ds, rest) := by
  cases fraction with
  | none =>
    rw [List.nil_append]
    unfold scanFraction?
    split
    · exact absurd rfl (stop '.' rfl).2
    · rfl
  | digits some_digit digits =>
    rw [List.cons_append, scanFraction?, scanDigits?_append some_digit digits fun c first => (stop c first).1]
    rfl

theorem scanPower?_append (power : IsPower ds) (stop : EndsNumber rest) :
    scanPower? (ds ++ rest) = some (ds, rest) := by
  cases power with
  | none =>
    cases rest with
    | nil => rfl
    | cons c rest =>
      obtain ⟨-, -, no_e, no_E⟩ := stop c rfl
      exact if_neg (by simp [no_e, no_E])
  | @digits sign ds sign_of some_digit digits =>
    have scanned := scanDigits?_append some_digit digits fun c first => (stop c first).1
    simp only [List.mem_cons, List.not_mem_nil, or_false] at sign_of
    obtain rfl | rfl | rfl := sign_of
    · rw [List.nil_append, List.cons_append, scanPower?, if_pos (.inl rfl), scanned]
      · rfl
      -- a digit is no sign
      · exact fun cs equal => absurd (digits '+' (mem_of_append_eq_cons some_digit equal)) (by decide)
      · exact fun cs equal => absurd (digits '-' (mem_of_append_eq_cons some_digit equal)) (by decide)
    · change scanPower? ('e' :: '+' :: (ds ++ rest)) = _
      rw [scanPower?, if_pos (.inl rfl), scanned]
      rfl
    · change scanPower? ('e' :: '-' :: (ds ++ rest)) = _
      rw [scanPower?, if_pos (.inl rfl), scanned]
      rfl

end Scanning

theorem IsPower.head {power rest : List Char} (p : IsPower power) (stop : EndsNumber rest) :
    ∀ c ∈ (power ++ rest).head?, c.isDigit = false ∧ c ≠ '.' := by
  cases p with
  | none => exact fun c first => ⟨(stop c first).1, (stop c first).2.1⟩
  | digits =>
    rintro _ ⟨⟩
    decide

theorem IsFraction.head {fraction rest : List Char} (f : IsFraction fraction)
    (stop : ∀ c ∈ rest.head?, c.isDigit = false) : ∀ c ∈ (fraction ++ rest).head?, c.isDigit = false := by
  cases f with
  | none => exact stop
  | digits =>
    rintro _ ⟨⟩
    decide

theorem scanUnsigned?_append {cs rest : List Char} (number : IsUnsigned cs) (stop : EndsNumber rest) :
    scanUnsigned? (cs ++ rest) = some (cs, rest) := by
  obtain ⟨whole, fraction, power⟩ := number
  have behind := power.head stop
  simp only [scanUnsigned?, List.append_assoc, Option.bind_eq_bind]
  rw [scanWhole?_append whole (fraction.head fun c first => (behind c first).1), Option.bind_some,
    scanFraction?_append fraction behind, Option.bind_some, scanPower?_append power stop]
  rfl

theorem IsUnsigned.head {cs : List Char} (number : IsUnsigned cs) : ∃ c ds, cs = c :: ds ∧ c.isDigit = true := by
  obtain ⟨rfl | ⟨c, ds, rfl, digit, -⟩, -, -⟩ := number
  · exact ⟨_, _, rfl, rfl⟩
  · exact ⟨_, _, rfl, digit⟩

/-- A number at the front of a text is scanned to its end. -/
theorem scan?_number {cs rest : List Char} (number : IsNumber cs) (stop : EndsNumber rest) :
    Token.scan? (cs ++ rest) = some (.number (String.ofList cs), rest) := by
  have scanned : scanNumber? (cs ++ rest) = some (cs, rest) := by
    cases number with
    | plain unsigned =>
      have found := scanUnsigned?_append unsigned stop
      obtain ⟨c, ds, rfl, digit⟩ := unsigned.head
      unfold scanNumber?
      split
      next equal =>
        cases equal
        contradiction
      next => exact found
    | negative unsigned =>
      rw [List.cons_append, scanNumber?, scanUnsigned?_append unsigned stop]
      rfl
  have head : ∃ c ds, cs = c :: ds ∧ (c.isDigit = true ∨ c = '-') := by
    cases number with
    | plain unsigned =>
      obtain ⟨c, ds, rfl, digit⟩ := unsigned.head
      exact ⟨c, ds, rfl, .inl digit⟩
    | negative => exact ⟨_, _, rfl, .inr rfl⟩
  obtain ⟨c, ds, rfl, first⟩ := head
  -- no other token begins with a digit or a minus
  unfold Token.scan?
  split
  case h_1 equal => cases equal
  case h_12 =>
    rw [scanned]
    rfl
  all_goals
    next equal =>
      cases equal
      exact absurd first (by decide)

/-! ## Whole numbers -/

theorem allDigits_toDigits (n : Nat) : AllDigits (Nat.toDigits 10 n) := fun _ member =>
  Nat.isDigit_of_mem_toDigits (by decide) (by decide) member

theorem significant_toDigits {n : Nat} (positive : 0 < n) : Significant (Nat.toDigits 10 n) := by
  induction n using Nat.strongRecOn with
  | ind n ih =>
    rw [Nat.toDigits_eq_if (by decide)]
    split
    next small =>
      refine ⟨n.digitChar, [], rfl, ?_, ?_, List.forall_mem_nil _⟩
      · simpa using small
      · simpa using Nat.ne_of_gt positive
    next large =>
      -- the first digit is the one of the quotient
      obtain ⟨c, ds, digits_eq, digit, nonzero, digits⟩ := ih (n / 10) (by omega) (by omega)
      refine ⟨c, ds ++ [(n % 10).digitChar], by rw [digits_eq, List.cons_append], digit, nonzero, ?_⟩
      refine List.forall_mem_append.mpr ⟨digits, List.forall_mem_singleton.mpr ?_⟩
      simpa using Nat.mod_lt n (by decide)

theorem whole_toDigits (n : Nat) : Nat.toDigits 10 n = ['0'] ∨ Significant (Nat.toDigits 10 n) := by
  rcases Nat.eq_zero_or_pos n with rfl | positive
  · exact .inl (Nat.toDigits_zero 10)
  · exact .inr (significant_toDigits positive)

theorem isUnsigned_toDigits (n : Nat) : IsUnsigned (Nat.toDigits 10 n) := by
  simpa using IsUnsigned.parts (whole_toDigits n) .none .none

theorem isNumber_nat (n : Nat) : IsNumber (toString n).toList := by
  rw [Nat.toString_eq_repr, Nat.toList_repr]
  exact .plain (isUnsigned_toDigits n)

theorem toList_toString_int (v : Int) :
    (toString v).toList = if 0 ≤ v then Nat.toDigits 10 v.toNat else '-' :: Nat.toDigits 10 (-v).toNat := by
  rw [Int.toString_eq_repr, Int.repr_eq_if]
  split
  · rw [Nat.toList_repr]
  · rw [String.toList_append, Nat.toList_repr]
    rfl

theorem isNumber_int (v : Int) : IsNumber (toString v).toList := by
  rw [toList_toString_int]
  split
  · exact .plain (isUnsigned_toDigits _)
  · exact .negative (isUnsigned_toDigits _)

/-! ## Doubles -/

theorem significant_dropTrailingZeros {cs : List Char} (significant : Significant cs) :
    Significant (dropTrailingZeros cs) := by
  obtain ⟨c, ds, rfl, digit, nonzero, digits⟩ := significant
  refine ⟨c, dropTrailingZeros ds, ?_, digit, nonzero, fun d member => digits d ?_⟩
  · unfold dropTrailingZeros
    rw [List.reverse_cons, List.dropWhile_append]
    split
    next gone =>
      rw [List.isEmpty_iff.mp gone, List.dropWhile_cons_of_neg (by simpa using nonzero)]
      rfl
    next => rw [List.reverse_append, List.reverse_singleton, List.singleton_append]
  · have kept := (List.dropWhile_sublist _).subset (List.mem_reverse.mp member)
    exact List.mem_reverse.mp kept

theorem allDigits_replicate (n : Nat) : AllDigits (List.replicate n '0') := by
  intro c member
  rw [(List.mem_replicate.mp member).2]
  rfl

theorem AllDigits.sublist {cs ds : List Char} (digits : AllDigits ds) (sublist : cs.Sublist ds) : AllDigits cs :=
  fun c member => digits c (sublist.subset member)

theorem Significant.allDigits {cs : List Char} (significant : Significant cs) : AllDigits cs := by
  obtain ⟨c, ds, rfl, digit, -, digits⟩ := significant
  exact List.forall_mem_cons.mpr ⟨digit, digits⟩

theorem Significant.ne_nil {cs : List Char} (significant : Significant cs) : cs ≠ [] := by
  obtain ⟨c, ds, rfl, -⟩ := significant
  exact List.cons_ne_nil c ds

/-- A number has digits, a point, an exponent mark and signs in it, and nothing else. -/
theorem IsUnsigned.chars {cs : List Char} (number : IsUnsigned cs) :
    ∀ c ∈ cs, c.isDigit = true ∨ c ∈ ['.', 'e', '+', '-'] := by
  obtain ⟨whole, fraction, power⟩ := number
  refine List.forall_mem_append.mpr ⟨List.forall_mem_append.mpr ⟨fun c member => .inl ?_, ?_⟩, ?_⟩
  · obtain rfl | significant := whole
    · rw [List.mem_singleton.mp member]
      rfl
    · exact significant.allDigits c member
  · cases fraction with
    | none => nofun
    | digits _ digits => exact List.forall_mem_cons.mpr ⟨by simp, fun c member => .inl (digits c member)⟩
  · cases power with
    | none => nofun
    | digits sign _ digits =>
      refine List.forall_mem_cons.mpr ⟨by simp, List.forall_mem_append.mpr ⟨fun c member => .inr ?_, ?_⟩⟩
      · simp only [List.mem_cons, List.not_mem_nil, or_false] at sign
        obtain rfl | rfl | rfl := sign
        · contradiction
        · simp [List.mem_singleton.mp member]
        · simp [List.mem_singleton.mp member]
      · exact fun c member => .inl (digits c member)

theorem isUnsigned_positional {ds : List Char} (significant : Significant ds) (point : Int) :
    IsUnsigned (positional ds point) := by
  unfold positional
  split
  next small =>
    have digits : AllDigits (List.replicate (-point).toNat '0' ++ ds) :=
      List.forall_mem_append.mpr ⟨allDigits_replicate _, significant.allDigits⟩
    have some_digit : List.replicate (-point).toNat '0' ++ ds ≠ [] :=
      List.append_ne_nil_of_right_ne_nil _ significant.ne_nil
    simpa using IsUnsigned.parts (.inl rfl) (.digits some_digit digits) .none
  next large =>
    have whole : Significant (ds.take point.toNat ++ List.replicate (point.toNat - ds.length) '0') := by
      obtain ⟨c, ds, rfl, digit, nonzero, digits⟩ := significant
      obtain ⟨k, k_eq⟩ : ∃ k, point.toNat = k + 1 := ⟨point.toNat - 1, by omega⟩
      rw [k_eq, List.take_succ_cons, List.cons_append]
      refine ⟨c, _, rfl, digit, nonzero, List.forall_mem_append.mpr ⟨?_, allDigits_replicate _⟩⟩
      exact digits.sublist (List.take_sublist _ _)
    have fraction : IsFraction ('.' :: if (ds.drop point.toNat).isEmpty then ['0'] else ds.drop point.toNat) := by
      split
      · exact .digits (by decide) (List.forall_mem_singleton.mpr rfl)
      next left => exact .digits (by simpa using left) (significant.allDigits.sublist (List.drop_sublist _ _))
    simpa using IsUnsigned.parts (.inr whole) fraction .none

theorem isUnsigned_scientific {ds : List Char} (significant : Significant ds) (plusSign : Bool) (point : Int) :
    IsUnsigned (scientific plusSign ds point) := by
  obtain ⟨c, ds, rfl, digit, nonzero, digits⟩ := significant
  have fraction : IsFraction (if ds.isEmpty then [] else '.' :: ds) := by
    split
    · exact .none
    next left => exact .digits (by simpa using left) digits
  have sign : (if point - 1 < 0 then ['-'] else if plusSign then ['+'] else []) ∈ [[], ['+'], ['-']] := by
    split_ifs <;> simp
  have power := IsPower.digits sign Nat.toDigits_ne_nil (allDigits_toDigits (point - 1).natAbs)
  have whole : Significant [c] := ⟨c, [], rfl, digit, nonzero, List.forall_mem_nil _⟩
  exact .parts (.inr whole) fraction power

theorem isUnsigned_digits (l : Layout) (d : Expansion) : IsUnsigned (l.digits d) := by
  unfold Layout.digits
  split
  · have fraction : IsFraction ['.', '0'] := .digits (by decide) (List.forall_mem_singleton.mpr rfl)
    exact .parts (.inl rfl) fraction .none
  next nonzero =>
    have written : Significant (significantDigits d.coefficient) :=
      significant_dropTrailingZeros (significant_toDigits (Nat.pos_of_ne_zero nonzero))
    dsimp only
    split
    · exact isUnsigned_positional written _
    · exact isUnsigned_scientific written _ _

/-- A finite double is written as the digits of its shortest decimal, behind a minus sign if it has one. -/
theorem chars_of_finite (l : Layout) {r : Float} (finite : Binary64.isFinite r = true) :
    l.chars r = (if Binary64.isNegative r then ['-'] else []) ++
      l.digits (shortest l.tie (Binary64.magnitudeBits r)) := by
  have number : Binary64.isNaN r = false := by
    simp only [Binary64.isFinite, Binary64.isNaN, decide_eq_true_eq, decide_eq_false_iff_not] at finite ⊢
    omega
  rw [Layout.chars, if_neg (Bool.eq_false_iff.mp number), if_pos finite]

theorem chars_eq_digits (l : Layout) {r : Float} (finite : Binary64.isFinite r = true)
    (positive : Binary64.isNegative r = false) :
    l.chars r = l.digits (shortest l.tie (Binary64.magnitudeBits r)) := by
  rw [chars_of_finite l finite, positive]
  rfl

theorem isNumber_real (l : Layout) {r : Float} (finite : Binary64.isFinite r = true) :
    IsNumber (l.text r).toList := by
  rw [Layout.text, String.toList_ofList, chars_of_finite l finite]
  split
  · exact .negative (isUnsigned_digits l _)
  · exact .plain (isUnsigned_digits l _)

end Json

/-! ## Whole numbers are read back -/

open Json

theorem digitsValue_toDigits (n : Nat) : digitsValue (Nat.toDigits 10 n) = n :=
  Nat.ofDigitChars_eq_foldl.symm.trans (Nat.ofDigitChars_toDigits (by decide) (by decide))

theorem ofChars?_digits {ds : List Char} (some_digit : ds ≠ []) (digits : AllDigits ds) :
    Numeral.ofChars? ds = some ⟨false, ds, none, none⟩ ∧
      Numeral.ofChars? ('-' :: ds) = some ⟨true, ds, none, none⟩ := by
  have nothing : ∀ c ∈ ([] : List Char).head?, c.isDigit = false := nofun
  have taken : ds.takeWhile Char.isDigit = ds := by
    simpa using takeWhile_digits digits nothing
  have left : ds.dropWhile Char.isDigit = [] := by
    simpa using dropWhile_digits digits nothing
  have unsigned : Numeral.splitSign ds = (false, ds) := by
    cases ds with
    | nil => exact absurd rfl some_digit
    | cons d ds =>
      have digit := digits d List.mem_cons_self
      unfold Numeral.splitSign
      split
      next equal =>
        cases equal
        exact absurd digit (by decide)
      next equal =>
        cases equal
        exact absurd digit (by decide)
      next => rfl
  constructor
  · simp [Numeral.ofChars?, unsigned, taken, left, some_digit, Numeral.power?]
  · simp [Numeral.ofChars?, Numeral.splitSign, taken, left, some_digit, Numeral.power?]

/-- A whole number is read as what it was written for, if it is in range. -/
theorem integer_ofInt (least greatest : Int) (n : Nat) (v : Int) :
    Decoder.integer least greatest n (.ofInt v) = if least ≤ v ∧ v ≤ greatest then some v else none := by
  have read : (Numeral.ofChars? (toString v).toList).bind Numeral.integer? = some v := by
    rw [toList_toString_int]
    split
    next natural =>
      rw [(ofChars?_digits Nat.toDigits_ne_nil (allDigits_toDigits _)).1, Option.bind_some]
      simp [Numeral.integer?, digitsValue_toDigits, Int.max_eq_left natural]
    next negative =>
      rw [(ofChars?_digits Nat.toDigits_ne_nil (allDigits_toDigits _)).2, Option.bind_some]
      simp [Numeral.integer?, digitsValue_toDigits]
      omega
  rw [← Option.bind_some (f := fun v => if least ≤ v ∧ v ≤ greatest then some v else none), ← read,
    Option.bind_assoc]
  rfl

/-- A natural number is read as itself, if it is short enough. -/
theorem natural_written (width : Nat) {n m k : Nat} :
    Decoder.natural width n (.ofNat m) = some k ↔ m = k ∧ m < 2 ^ width := by
  have positive : 0 < 2 ^ width := Nat.two_pow_pos width
  have range : ((0 : Int) ≤ m ∧ (m : Int) ≤ (Nat.pow 2 width - 1 : Nat)) ↔ m < 2 ^ width := by
    change _ ∧ (m : Int) ≤ (2 ^ width - 1 : Nat) ↔ _
    omega
  change (Decoder.integer 0 _ n (.ofInt m)).map Int.toNat = _ ↔ _
  rw [integer_ofInt]
  simp only [range]
  split
  next short => simp [short]
  next long => simp [long]

end MiniPascal
