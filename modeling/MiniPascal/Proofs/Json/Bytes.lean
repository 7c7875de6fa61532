import MiniPascal.Json.Bytes

/-!
# Bytes as they are read

The bytes of a text are read as that text. Any other byte is refused outside of strings, and in a string it is let
pass but leaves the string without a text.
-/

namespace MiniPascal.Json

/-! ## Bytes of texts -/

theorem charsOfBytes_length (read bytes : List UInt8) :
    charsOfBytes read.length (read ++ bytes) = charsOfBytes 0 bytes := by
  induction read with
  | nil => rfl
  | cons b read ih => exact ih

theorem frontChar?_utf8EncodeChar (c : Char) (bytes : List UInt8) :
    frontChar? (String.utf8EncodeChar c ++ bytes) = some c := by
  have short : (String.utf8EncodeChar c).length ≤ 4 := by
    rw [String.length_utf8EncodeChar]
    exact c.utf8Size_le_four
  rw [frontChar?, List.take_append, List.take_of_length_le short, List.toByteArray_append,
    ByteArray.utf8DecodeChar?_utf8EncodeChar_append]

theorem charsOfBytes_utf8EncodeChar (c : Char) (bytes : List UInt8) :
    charsOfBytes 0 (String.utf8EncodeChar c ++ bytes) = c :: charsOfBytes 0 bytes := by
  have front := frontChar?_utf8EncodeChar c bytes
  have length := String.length_utf8EncodeChar c
  cases encoded : String.utf8EncodeChar c with
  | nil => exact absurd encoded String.utf8EncodeChar_ne_nil
  | cons b read =>
    rw [encoded, List.cons_append] at front
    rw [encoded, List.length_cons] at length
    simp only [List.cons_append, charsOfBytes, front, ← length, Nat.add_sub_cancel, charsOfBytes_length]

theorem charsOfBytes_utf8Encode (cs : List Char) : charsOfBytes 0 cs.utf8Encode.data.toList = cs := by
  induction cs with
  | nil => rfl
  | cons c cs ih =>
    rw [List.utf8Encode_cons, List.utf8Encode_singleton, ByteArray.data_append, List.data_toByteArray,
      Array.toList_append, charsOfBytes_utf8EncodeChar, ih]

/-- The text whose bytes are in a file is the one that is read. -/
@[simp] theorem textOfBytes_toUTF8 (s : String) : textOfBytes s.toUTF8 = s := by
  rw [textOfBytes, String.toUTF8_eq_toByteArray, ← String.utf8Encode_toList, charsOfBytes_utf8Encode,
    String.ofList_toList]

/-! ## Bytes of no character -/

/-- Such a byte begins no token. -/
theorem scan?_strayByte (cs : List Char) : Token.scan? (strayByte ++ cs) = none := rfl

/-- Inside of a string it is a character and half of a surrogate pair. -/
theorem scanString?_strayByte (cs : List Char) :
    scanString? (strayByte ++ cs) =
      (scanString? cs).map fun scanned => (.char '\ufffd' :: .unit 0xdc00 :: scanned.1, scanned.2) := by
  have code : unitCode? 'd' 'c' '0' '0' = some 0xdc00 := rfl
  cases scanned : scanString? cs <;> simp [strayByte, scanString?, scanned, code]

/-- No unit is in front. -/
def Unitless (parts : List StringPart) : Prop :=
  ∀ code rest, parts ≠ .unit code :: rest

theorem Unitless.append_char {parts : List StringPart} (unitless : Unitless parts) (c : Char)
    (after : List StringPart) : Unitless (parts ++ .char c :: after) := by
  match parts with
  | [] | .char _ :: _ => nofun
  | .unit code :: rest => exact absurd rfl (unitless code rest)

/-- A unit with no unit behind it is judged by itself. -/
theorem joinParts?_unit {parts : List StringPart} (unitless : Unitless parts) (code : Nat) :
    joinParts? (.unit code :: parts) =
      if isLeadSurrogate code || isTrailSurrogate code then none
      else (joinParts? parts).map (Char.ofNat code :: ·) := by
  match parts with
  | [] | .char _ :: _ => simp [joinParts?]
  | .unit code :: rest => exact absurd rfl (unitless code rest)

theorem joinParts?_trail (parts : List StringPart) : joinParts? (.unit 0xdc00 :: parts) = none := by
  have no_lead : isLeadSurrogate 0xdc00 = false := rfl
  have trails : isTrailSurrogate 0xdc00 = true := rfl
  match parts with
  | [] | .char _ :: _ | .unit _ :: _ => simp [joinParts?, no_lead, trails]

/-- A string with such a byte in it has no text. -/
theorem joinParts?_strayByte (before after : List StringPart) :
    joinParts? (before ++ .char '\ufffd' :: .unit 0xdc00 :: after) = none := by
  fun_induction joinParts? before with
  | case1 => rw [List.nil_append, joinParts?, joinParts?_trail, Option.map_none]
  | case2 c parts ih => rw [List.cons_append, joinParts?, ih, Option.map_none]
  | case3 lead trail parts leads trails c ih => simp [joinParts?, leads, trails, ih]
  | case4 lead trail parts leads no_trail => simp [joinParts?, leads, no_trail]
  | case5 lead trail parts no_lead trails => simp [joinParts?, no_lead, trails]
  | case6 lead trail parts no_lead no_trail ih =>
    rw [List.cons_append] at ih
    simp [joinParts?, no_lead, no_trail, ih]
  | case7 code parts alone surrogate =>
    have unitless : Unitless parts := alone
    rw [List.cons_append, joinParts?_unit (unitless.append_char _ _), if_pos surrogate]
  | case8 code parts alone no_surrogate ih =>
    have unitless : Unitless parts := alone
    rw [List.cons_append, joinParts?_unit (unitless.append_char _ _), if_neg no_surrogate, ih, Option.map_none]

/-- A string that ends in half of a character. -/
example : Token.scan? (charsOfBytes 0 [0x22, 0x61, 0xc3, 0x22]) = some (.string none, []) := by
  decide +kernel

end MiniPascal.Json
