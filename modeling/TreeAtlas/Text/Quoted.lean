import TreeAtlas.Text.Printable

/-!
# Quoted text in messages

Text between double quotes, with short escapes for the quote, the backslash and four control
characters, and a braced code point in hexadecimal for every other character that is not printable.
-/

namespace TreeAtlas.Text

/-- The hexadecimal escape of a code point, its digits in braces. -/
def bracedEscape (n : Nat) : List Char :=
  '\\' :: 'u' :: '\x7b' :: Nat.toDigits 16 n ++ ['\x7d']

def quotedChar (c : Char) : List Char :=
  if c = '"' then ['\\', '"']
  else if c = '\\' then ['\\', '\\']
  else if c = '\n' then ['\\', 'n']
  else if c = '\r' then ['\\', 'r']
  else if c = '\t' then ['\\', 't']
  else if c = '\x00' then ['\\', '0']
  else if isPrintable c then [c]
  else bracedEscape c.toNat

def quoted (s : String) : String :=
  String.ofList ('"' :: s.toList.flatMap quotedChar ++ ['"'])

end TreeAtlas.Text
