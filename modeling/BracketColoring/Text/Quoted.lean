import BracketColoring.Unicode.Class

/-!
# Quoted text

A quoted text stands between double quotes. The quote, the backslash and five control characters
have short escapes; a character that combines with the one before it or has no shape of its own is
written as its code point in lower-case hexadecimal.
-/

namespace BracketColoring.Text

/-- A code point as `\u{…}`. -/
def codePointEscape (c : Char) : List Char :=
  '\\' :: 'u' :: '\x7b' :: (Nat.toDigits 16 c.toNat ++ ['\x7d'])

def escapeChar (c : Char) : List Char :=
  if c = '\x00' then ['\\', '0']
  else if c = '\t' then ['\\', 't']
  else if c = '\r' then ['\\', 'r']
  else if c = '\n' then ['\\', 'n']
  else if c = '\\' then ['\\', '\\']
  else if c = '"' then ['\\', '"']
  else if Unicode.isGraphemeExtend c || !Unicode.isPrintable c then codePointEscape c
  else [c]

def quote (s : String) : String :=
  String.ofList ('"' :: (s.toList.flatMap escapeChar ++ ['"']))

end BracketColoring.Text
