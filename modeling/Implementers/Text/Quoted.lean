import Implementers.Text.Category

namespace Implementers.Text

/-!
# Quoted text in messages

A message shows the text a user wrote between double quotes.  Quotes, backslashes and the common
controls have short escapes; every other character that does not show by itself is written by its
code point, so the quoted form tells any two texts apart.
-/

/-- How one character is written inside double quotes. -/
def escapeQuoted
    (character : Char) :
    List Char :=
  if character == '\x00' then ['\\', '0']
  else if character == '\t' then ['\\', 't']
  else if character == '\r' then ['\\', 'r']
  else if character == '\n' then ['\\', 'n']
  else if character == '\\' then ['\\', '\\']
  else if character == '"' then ['\\', '"']
  else if isPrintable character then [character]
  else ['\\', 'u', '\x7b'] ++ Nat.toDigits 16 character.toNat ++ ['\x7d']

/-- A text between double quotes. -/
def quoted
    (text : String) :
    String :=
  String.ofList ('"' :: (text.toList.flatMap escapeQuoted ++ ['"']))

end Implementers.Text
