import ManagedTransport.Text.Utf8

/-!
# Escaped arguments

An argument of a status line is written octet by octet so that it holds no
newline, no NUL and nothing past octet 127: a newline becomes `\n`, a
backslash is doubled, every other octet from 1 to 127 stands for itself, and
the rest are written `\x` with two hexadecimal digits.
-/

namespace ManagedTransport.Text

/-- How one octet is written. -/
def escapeByte (b : UInt8) : List Char :=
  let n := b.toNat
  if n = 10 then ['\\', 'n']
  else if n = 92 then ['\\', '\\']
  else if 1 ≤ n ∧ n ≤ 127 then [Char.ofNat n]
  else ['\\', 'x', Nat.digitChar (n / 16), Nat.digitChar (n % 16)]

/-- The characters of an escaped text. -/
def escapeBytes (bs : Bytes) : List Char := bs.flatMap escapeByte

/-- A text as an argument of a status line. -/
def escape (s : String) : String := String.ofList (escapeBytes (utf8 s))

theorem escape_append (s t : String) : escape (s ++ t) = escape s ++ escape t := by
  simp [escape, escapeBytes, utf8_append]

end ManagedTransport.Text
