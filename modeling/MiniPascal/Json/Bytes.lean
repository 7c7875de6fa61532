import MiniPascal.Json.Token

/-!
# Documents in bytes

The bytes of a file are characters in UTF-8. A byte that belongs to no character does no harm inside of a string
that nobody looks at, so it is read as something that is allowed just there.
-/

namespace MiniPascal.Json

/-- What a byte is read as that belongs to no character. The first character may not stand outside of strings, nor
in an escape, and the escape behind it is half of a surrogate pair, which leaves the string without a text. -/
def strayByte : List Char :=
  ['\ufffd', '\\', 'u', 'd', 'c', '0', '0']

/-- The character at the front of some bytes. -/
def frontChar? (bytes : List UInt8) : Option Char :=
  (bytes.take 4).toByteArray.utf8DecodeChar? 0

/-- The characters in bytes, of which so many at the front were already read. -/
def charsOfBytes : Nat → List UInt8 → List Char
  | _, [] => []
  | read + 1, _ :: bytes => charsOfBytes read bytes
  | 0, b :: bytes =>
    match frontChar? (b :: bytes) with
    | some c => c :: charsOfBytes (c.utf8Size - 1) bytes
    | none => strayByte ++ charsOfBytes 0 bytes

def textOfBytes (bytes : ByteArray) : String :=
  String.ofList (charsOfBytes 0 bytes.data.toList)

end MiniPascal.Json
