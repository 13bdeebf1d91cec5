import DataRepository.Text.Unshown

/-!
# Quoted text

A text between double quotes as messages show it: the quote, the backslash, tab, line feed, carriage
return and NUL by a letter, a character that cannot stand alone by its code point in hexadecimal, and
every other character as it is.
-/
namespace DataRepository.Text

def quotedChar (c : Char) : List Char :=
  if c == '"' then ['\\', '"']
  else if c == '\\' then ['\\', '\\']
  else if c == '\x00' then ['\\', '0']
  else if c == '\t' then ['\\', 't']
  else if c == '\n' then ['\\', 'n']
  else if c == '\r' then ['\\', 'r']
  else if isUnshown c then ['\\', 'u', '\x7b'] ++ Nat.toDigits 16 c.toNat ++ ['\x7d']
  else [c]

def quoted (s : String) : String :=
  String.ofList ('"' :: s.toList.flatMap quotedChar ++ ['"'])

end DataRepository.Text
