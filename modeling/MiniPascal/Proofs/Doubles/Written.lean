import MiniPascal.Decimal.Numeral
import MiniPascal.Proofs.Doubles.Reading
import MiniPascal.Proofs.Doubles.Values
import MiniPascal.Proofs.Json.Numbers

/-!
# Written doubles are read back

Whatever the layout, the numeral that is written for a finite double has the value of its shortest decimal, so
that reading it gives the double again. The infinities and the NaN are written as words, and read back as well.
-/

namespace MiniPascal.Decimal

open Binary64 Json Doubles

/-! ## Values of digits -/

theorem foldl_digits (n : ℕ) (cs : List Char) :
    cs.foldl (fun n c => 10 * n + digitValue c) n = n * 10 ^ cs.length + digitsValue cs := by
  induction cs generalizing n with
  | nil => simp [digitsValue]
  | cons c cs ih =>
    have front : digitsValue (c :: cs) = (10 * 0 + digitValue c) * 10 ^ cs.length + digitsValue cs := ih _
    rw [List.foldl_cons, ih, front, List.length_cons, pow_succ]
    ring

theorem digitsValue_append (cs ds : List Char) :
    digitsValue (cs ++ ds) = digitsValue cs * 10 ^ ds.length + digitsValue ds := by
  rw [digitsValue, List.foldl_append, foldl_digits]
  rfl

theorem digitsValue_zeros (n : ℕ) : digitsValue (List.replicate n '0') = 0 := by
  induction n with
  | zero => rfl
  | succ n ih =>
    rw [List.replicate_succ', digitsValue_append, ih]
    rfl

theorem exists_zeros (cs : List Char) : ∃ k, cs = dropTrailingZeros cs ++ List.replicate k '0' := by
  have parts : cs.reverse.takeWhile (· = '0') ++ cs.reverse.dropWhile (· = '0') = cs.reverse :=
    List.takeWhile_append_dropWhile
  have zeros : cs.reverse.takeWhile (· = '0') = List.replicate (cs.reverse.takeWhile (· = '0')).length '0' :=
    List.eq_replicate_of_mem fun c member => by simpa using List.mem_takeWhile_imp member
  refine ⟨(cs.reverse.takeWhile (· = '0')).length, ?_⟩
  rw [zeros] at parts
  have reversed := congrArg List.reverse parts
  rw [List.reverse_append, List.reverse_replicate, List.reverse_reverse] at reversed
  exact reversed.symm

/-- The digits that are written and the position of the point give the value. -/
theorem value_significantDigits (d : Expansion) :
    d.value = digitsValue (significantDigits d.coefficient) *
      10 ^ (digitCount d.coefficient + d.exponent - (significantDigits d.coefficient).length) := by
  obtain ⟨k, digits⟩ := exists_zeros (Nat.toDigits 10 d.coefficient)
  have count : digitCount d.coefficient = (significantDigits d.coefficient).length + k := by
    rw [digitCount, digits, List.length_append, List.length_replicate]
    rfl
  have coefficient : d.coefficient = digitsValue (significantDigits d.coefficient) * 10 ^ k := by
    conv_lhs => rw [← digitsValue_toDigits d.coefficient, digits, digitsValue_append, digitsValue_zeros]
    rw [List.length_replicate, Nat.add_zero]
    rfl
  have exponent : (digitCount d.coefficient + d.exponent - (significantDigits d.coefficient).length : ℤ) =
      k + d.exponent := by omega
  rw [exponent, zpow_add₀ (by norm_num), zpow_natCast, ← mul_assoc, Expansion.value]
  conv_lhs => rw [coefficient]
  push_cast
  rfl

/-! ## Numerals -/

theorem splitSign_digits {ds : List Char} (some_digit : ds ≠ []) (digits : AllDigits ds) (rest : List Char) :
    Numeral.splitSign (ds ++ rest) = (false, ds ++ rest) := by
  obtain ⟨d, ds, rfl⟩ := List.exists_cons_of_ne_nil some_digit
  have digit := digits d List.mem_cons_self
  unfold Numeral.splitSign
  split
  next equal =>
    cases equal
    exact absurd digit (by decide)
  next equal =>
    cases equal
    exact absurd digit (by decide)
  next => rfl

/-- A numeral without a sign is read part by part. -/
theorem ofChars?_parts {whole power : List Char} {fraction : Option (List Char)} (some_digit : whole ≠ [])
    (digits : AllDigits whole) (fraction_digits : ∀ ds ∈ fraction, AllDigits ds)
    (stop : ∀ c ∈ power.head?, c.isDigit = false ∧ c ≠ '.') :
    Numeral.ofChars? (whole ++ (fraction.elim [] ('.' :: ·) ++ power)) =
      (Numeral.power? power).map fun p => ⟨false, whole, fraction, p⟩ := by
  have ends : ∀ c ∈ power.head?, c.isDigit = false := fun c first => (stop c first).1
  unfold Numeral.ofChars?
  rw [splitSign_digits some_digit digits]
  cases fraction with
  | none =>
    simp only [Option.elim_none, List.nil_append, takeWhile_digits digits ends, dropWhile_digits digits ends,
      some_digit, false_and, if_false]
    split
    next point => exact absurd rfl (stop '.' rfl).2
    next => cases Numeral.power? power <;> rfl
  | some ds =>
    have point : ∀ c ∈ ('.' :: (ds ++ power)).head?, c.isDigit = false := by
      rintro _ ⟨⟩
      rfl
    simp only [Option.elim_some, List.cons_append, takeWhile_digits digits point, dropWhile_digits digits point,
      takeWhile_digits (fraction_digits ds rfl) ends, dropWhile_digits (fraction_digits ds rfl) ends, some_digit,
      false_and, if_false]
    cases Numeral.power? power <;> rfl

theorem power?_written (p : ℤ) (plusSign : Bool) :
    Numeral.power? ('e' :: ((if p < 0 then ['-'] else if plusSign then ['+'] else []) ++ Nat.toDigits 10 p.natAbs)) =
      some (some p) := by
  have some_digit : Nat.toDigits 10 p.natAbs ≠ [] := Nat.toDigits_ne_nil
  have digits := allDigits_toDigits p.natAbs
  have plain := splitSign_digits some_digit digits []
  rw [List.append_nil] at plain
  have all : (Nat.toDigits 10 p.natAbs).all Char.isDigit = true := List.all_eq_true.mpr digits
  rw [Numeral.power?, if_pos (.inl rfl)]
  split_ifs with negative signed
  · change (if _ then some (some (-(digitsValue (Nat.toDigits 10 p.natAbs) : ℤ))) else none) = _
    rw [if_pos ⟨some_digit, all⟩, digitsValue_toDigits]
    congr 2
    omega
  · change (if _ then some (some (digitsValue (Nat.toDigits 10 p.natAbs) : ℤ)) else none) = _
    rw [if_pos ⟨some_digit, all⟩, digitsValue_toDigits]
    congr 2
    omega
  · rw [List.nil_append, plain]
    change (if _ then some (some (digitsValue (Nat.toDigits 10 p.natAbs) : ℤ)) else none) = _
    rw [if_pos ⟨some_digit, all⟩, digitsValue_toDigits]
    congr 2
    omega

/-! ## Layouts -/

/-- The numeral is read without a sign, it is no whole number, and it has the value. -/
def ReadsReal (cs : List Char) (value : ℚ) : Prop :=
  ∃ n, Numeral.ofChars? cs = some n ∧ n.negative = false ∧ n.integer? = none ∧ n.expansion.value = value

theorem readsReal_of_point {whole fraction : List Char} (some_digit : whole ≠ []) (digits : AllDigits whole)
    (fraction_digits : AllDigits fraction) {value : ℚ}
    (value_eq : value = digitsValue (whole ++ fraction) * 10 ^ (-fraction.length : ℤ)) :
    ReadsReal (whole ++ '.' :: fraction) value := by
  have stop : ∀ c ∈ ([] : List Char).head?, c.isDigit = false ∧ c ≠ '.' := nofun
  have behind : ∀ ds ∈ some fraction, AllDigits ds := by
    rintro _ ⟨⟩
    exact fraction_digits
  have read : Numeral.ofChars? (whole ++ ('.' :: fraction ++ [])) = some ⟨false, whole, some fraction, none⟩ :=
    ofChars?_parts some_digit digits behind stop
  rw [List.append_nil] at read
  refine ⟨_, read, rfl, rfl, ?_⟩
  rw [value_eq]
  simp [Numeral.expansion, Expansion.value, Numeral.fractionDigits, Numeral.writtenPower]

theorem readsReal_positional {ds : List Char} (some_digit : ds ≠ []) (digits : AllDigits ds) (point : ℤ) :
    ReadsReal (positional ds point) (digitsValue ds * 10 ^ (point - ds.length)) := by
  unfold positional
  split
  next small =>
    -- the zeros between the point and the digits count for the fraction only
    have zeros := allDigits_replicate (-point).toNat
    refine readsReal_of_point (List.cons_ne_nil '0' []) (List.forall_mem_singleton.mpr rfl)
      (List.forall_mem_append.mpr ⟨zeros, digits⟩) ?_
    have digits_value : digitsValue (['0'] ++ (List.replicate (-point).toNat '0' ++ ds)) = digitsValue ds := by
      rw [digitsValue_append, digitsValue_append, digitsValue_zeros]
      simp [digitsValue, digitValue]
    rw [digits_value, List.length_append, List.length_replicate]
    congr 2
    omega
  next large =>
    obtain ⟨k, rfl⟩ : ∃ k : ℕ, point = k := ⟨point.toNat, by omega⟩
    rw [Int.toNat_natCast, List.append_assoc]
    have zeros := allDigits_replicate (k - ds.length)
    -- the point is behind all of the digits, with zeros between, or among them
    rcases le_or_gt ds.length k with padded | split
    · have none_left : ds.drop k = [] := List.drop_eq_nil_of_le padded
      have all : ds.take k = ds := List.take_of_length_le padded
      rw [none_left, all, ← List.append_assoc]
      refine readsReal_of_point (List.append_ne_nil_of_left_ne_nil some_digit _)
        (List.forall_mem_append.mpr ⟨digits, zeros⟩) (List.forall_mem_singleton.mpr rfl) ?_
      have digits_value : digitsValue (ds ++ List.replicate (k - ds.length) '0' ++ ['0']) =
          digitsValue ds * 10 ^ (k - ds.length) * 10 := by
        rw [digitsValue_append, digitsValue_append, digitsValue_zeros, List.length_replicate]
        rfl
      have power : (10 : ℚ) ^ (k - ds.length : ℤ) = 10 ^ (k - ds.length : ℕ) := by
        rw [← zpow_natCast, Nat.cast_sub padded]
      rw [digits_value, power]
      push_cast
      norm_num
      ring
    · have no_padding : k - ds.length = 0 := by omega
      have some_left : (ds.drop k).isEmpty = false := by simpa using split
      rw [no_padding, List.replicate_zero, List.nil_append, some_left]
      refine readsReal_of_point ?_ (digits.sublist (List.take_sublist _ _)) (digits.sublist (List.drop_sublist _ _)) ?_
      · simpa using ⟨by omega, some_digit⟩
      · rw [List.take_append_drop, List.length_drop]
        congr 2
        omega

theorem readsReal_scientific (plusSign : Bool) {ds : List Char} (some_digit : ds ≠ []) (digits : AllDigits ds)
    (point : ℤ) : ReadsReal (scientific plusSign ds point) (digitsValue ds * 10 ^ (point - ds.length)) := by
  obtain ⟨d, ds, rfl⟩ := List.exists_cons_of_ne_nil some_digit
  obtain ⟨digit, digits⟩ := List.forall_mem_cons.mp digits
  have power := power?_written (point - 1) plusSign
  have stop : ∀ c ∈ ('e' :: ((if point - 1 < 0 then ['-'] else if plusSign then ['+'] else []) ++
      Nat.toDigits 10 (point - 1).natAbs)).head?, c.isDigit = false ∧ c ≠ '.' := by
    rintro _ ⟨⟩
    decide
  have whole : AllDigits [d] := List.forall_mem_singleton.mpr digit
  have shifted : (10 : ℚ) ^ (point - (d :: ds).length : ℤ) = 10 ^ (point - 1 - ds.length : ℤ) := by
    rw [List.length_cons]
    congr 1
    push_cast
    ring
  unfold scientific
  dsimp only
  rw [List.drop_one, List.tail_cons, List.take_succ_cons, List.take_zero, List.append_assoc, shifted]
  cases ds with
  | nil =>
    have none_behind : ∀ ds ∈ (none : Option (List Char)), AllDigits ds := nofun
    have read := ofChars?_parts (List.cons_ne_nil d []) whole none_behind stop
    rw [power] at read
    refine ⟨_, read, rfl, rfl, ?_⟩
    simp [Numeral.expansion, Expansion.value, Numeral.fractionDigits, Numeral.writtenPower]
  | cons c cs =>
    have behind : ∀ ds ∈ some (c :: cs), AllDigits ds := by
      rintro _ ⟨⟩
      exact digits
    have read := ofChars?_parts (List.cons_ne_nil d []) whole behind stop
    rw [power] at read
    refine ⟨_, read, rfl, rfl, ?_⟩
    simp [Numeral.expansion, Expansion.value, Numeral.fractionDigits, Numeral.writtenPower]

theorem readsReal_digits (l : Layout) (d : Expansion) : ReadsReal (l.digits d) d.value := by
  unfold Layout.digits
  split
  next zero =>
    refine readsReal_of_point (List.cons_ne_nil '0' []) (List.forall_mem_singleton.mpr rfl)
      (List.forall_mem_singleton.mpr rfl) ?_
    simp [Expansion.value, zero, digitsValue, digitValue]
  next nonzero =>
    have written : Significant (significantDigits d.coefficient) :=
      significant_dropTrailingZeros (significant_toDigits (Nat.pos_of_ne_zero nonzero))
    rw [value_significantDigits]
    dsimp only
    split
    · exact readsReal_positional written.ne_nil written.allDigits _
    · exact readsReal_scientific _ written.ne_nil written.allDigits _

/-! ## Doubles -/

/-- The sign and the magnitude make up a double. -/
theorem assemble_parts (r : Float) : assemble (isNegative r) (magnitudeBits r) = r := by
  have bits : (if isNegative r then signBit + magnitudeBits r else magnitudeBits r) = r.toBits.toNat := by
    have sign : signBit = 2 ^ 63 := rfl
    have size : r.toBits.toNat < 2 ^ 64 := r.toBits.toNat_lt
    simp only [isNegative, magnitudeBits, decide_eq_true_eq, sign]
    split <;> omega
  rw [assemble, bits, UInt64.ofNat_toNat, Float.ofBits_toBits]

/-- A minus sign makes a numeral negative and changes nothing else. -/
theorem ofChars?_minus {cs : List Char} (unsigned : Numeral.splitSign cs = (false, cs)) :
    Numeral.ofChars? ('-' :: cs) = (Numeral.ofChars? cs).map fun n => { n with negative := true } := by
  have minus : Numeral.splitSign ('-' :: cs) = (true, cs) := rfl
  unfold Numeral.ofChars?
  rw [minus, unsigned]
  dsimp only
  split
  next rest _ =>
    split
    · rfl
    · cases Numeral.power? (rest.dropWhile Char.isDigit) <;> rfl
  next =>
    split
    · rfl
    · cases Numeral.power? (cs.dropWhile Char.isDigit) <;> rfl

theorem splitSign_layout (l : Layout) (d : Expansion) : Numeral.splitSign (l.digits d) = (false, l.digits d) := by
  obtain ⟨c, cs, digits_eq, digit⟩ := (isUnsigned_digits l d).head
  rw [digits_eq]
  exact splitSign_digits (List.cons_ne_nil c []) (List.forall_mem_singleton.mpr digit) cs

theorem splitSign_written (l : Layout) (d : Expansion) (negative : Bool) :
    Numeral.splitSign ((if negative then ['-'] else []) ++ l.digits d) = (negative, l.digits d) := by
  cases negative with
  | true => rfl
  | false => exact splitSign_layout l d

theorem ofChars?_written (l : Layout) (d : Expansion) (negative : Bool) {n : Numeral}
    (read : Numeral.ofChars? (l.digits d) = some n) (unsigned : n.negative = false) :
    Numeral.ofChars? ((if negative then ['-'] else []) ++ l.digits d) = some { n with negative := negative } := by
  cases negative with
  | true =>
    change Numeral.ofChars? ('-' :: l.digits d) = _
    rw [ofChars?_minus (splitSign_layout l d), read, Option.map_some]
  | false =>
    change Numeral.ofChars? (l.digits d) = _
    rw [read, ← unsigned]

/-- A finite double is written as a numeral that is read as the double, and not as a whole number. -/
theorem ofChars?_chars (l : Layout) {r : Float} (finite : isFinite r = true) :
    ∃ n, Numeral.ofChars? (l.chars r) = some n ∧ n.integer? = none ∧ n.toReal = r := by
  obtain ⟨n, read, unsigned, not_whole, value⟩ := readsReal_digits l (shortest l.tie (magnitudeBits r))
  rw [chars_of_finite l finite]
  refine ⟨_, ofChars?_written l _ (isNegative r) read unsigned, ?_, ?_⟩
  · -- without a sign, only a point or a power of ten keeps a numeral from being whole
    have marked : n.fraction.isSome = true ∨ n.power.isSome = true := by
      simp only [Numeral.integer?, unsigned, Bool.false_eq_true, false_and, or_false] at not_whole
      split at not_whole
      next marked => exact marked
      next => contradiction
    exact if_pos (or_assoc.mp (.inl marked))
  · have bits : n.expansion.bits = magnitudeBits r :=
      (Expansion.bits_congr value).trans (bits_shortest l.tie (of_decide_eq_true finite))
    change assemble (isNegative r) n.expansion.bits = r
    rw [bits, assemble_parts]

/-- Every double is read back from its text. -/
theorem realOfText?_text (l : Layout) (r : Float) : realOfText? (l.text r) = some r := by
  rw [realOfText?, Layout.text, String.toList_ofList]
  by_cases not_number : isNaN r = true
  · rw [Layout.chars, if_pos not_number, eq_nan_of_isNaN not_number]
    rfl
  by_cases finite : isFinite r = true
  · obtain ⟨n, read, -, value⟩ := ofChars?_chars l finite
    have sign := splitSign_written l (shortest l.tie (magnitudeBits r)) (isNegative r)
    rw [← chars_of_finite l finite] at sign
    obtain ⟨c, cs, digits_eq, digit⟩ := (isUnsigned_digits l (shortest l.tie (magnitudeBits r))).head
    rw [sign, digits_eq, read]
    -- the two words begin with no digit
    split
    case h_1 word | h_2 word =>
      cases word
      contradiction
    next => rw [Option.map_some, value]
  · have infinite : magnitudeBits r = infinityBits := by
      simp only [isFinite, isNaN, decide_eq_true_eq] at finite not_number
      omega
    have parts : assemble (isNegative r) infinityBits = r := infinite ▸ assemble_parts r
    rw [Layout.chars, if_neg not_number, if_neg finite]
    cases negative : isNegative r with
    | true | false =>
      rw [negative] at parts
      exact congrArg some parts

end MiniPascal.Decimal
