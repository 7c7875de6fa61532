import MiniPascal.Text.Numbered

/-!
# Quoted text

A text between double quotes in which nothing can be mistaken: quotes, backslashes, line
breaks and tabs are marked by a backslash, and characters without a shape of their own are
shown by their number in hexadecimal digits.
-/

namespace MiniPascal.Quoted

def showChar (c : Char) : List Char :=
  if c = '\x00' then ['\\', '0']
  else if c = '\t' then ['\\', 't']
  else if c = '\n' then ['\\', 'n']
  else if c = '\r' then ['\\', 'r']
  else if c = '"' ∨ c = '\\' then ['\\', c]
  else if isNumbered c then
    '\\' :: 'u' :: '\x7b' :: (Nat.toDigits 16 c.toNat ++ ['\x7d'])
  else [c]

def text (s : String) : String :=
  String.ofList ('"' :: s.toList.flatMap showChar ++ ['"'])

end MiniPascal.Quoted
