import ManagedTransport.Text.Numeral
import ManagedTransport.Text.Printable

/-!
# Quoted text

Error messages show values in double quotes, on one line and unambiguously:
a quote and a backslash get a backslash in front, the newline, the carriage
return, the tab and the NUL have a letter each, every character that does not
print by itself is written by its code point, and the rest stand as they are.
-/

namespace ManagedTransport.Text

/-- How one character is written between quotes. -/
def quotedChar (c : Char) : List Char :=
  if c = '"' then ['\\', '"']
  else if c = '\\' then ['\\', '\\']
  else if c = '\n' then ['\\', 'n']
  else if c = '\r' then ['\\', 'r']
  else if c = '\t' then ['\\', 't']
  else if c.toNat = 0 then ['\\', '0']
  else if isPrintable c then [c]
  else ['\\', 'u', '\x7b'] ++ digits 16 c.toNat ++ ['\x7d']

/-- A text between double quotes. -/
def quoted (s : String) : String :=
  String.ofList ('"' :: s.toList.flatMap quotedChar ++ ['"'])

end ManagedTransport.Text
