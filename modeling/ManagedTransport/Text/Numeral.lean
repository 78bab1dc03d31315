/-!
# Numerals

Numbers are read from text by radix.  `natOf?` takes a whole text: at least
one digit, digits only, and as many as there are.  `digits` writes a number
without leading zeros, in lower case.
-/

namespace ManagedTransport.Text

/-- The value of a digit, if it is one in this radix; letters count in either case. -/
def digit? (radix : Nat) (c : Char) : Option Nat :=
  let n := c.toNat
  let value :=
    if 48 ≤ n ∧ n ≤ 57 then n - 48
    else if 97 ≤ n ∧ n ≤ 102 then n - 87
    else if 65 ≤ n ∧ n ≤ 70 then n - 55
    else radix
  if value < radix then some value else none

/-- The number that a text of one or more digits writes. -/
def natOf? (radix : Nat) (cs : List Char) : Option Nat :=
  if cs.isEmpty then none
  else cs.foldlM (fun n c => (digit? radix c).map (n * radix + ·)) 0

/-- A number below `bound`, written in decimal with any number of leading zeros. -/
def decimalBelow? (bound : Nat) (cs : List Char) : Option Nat :=
  (natOf? 10 cs).filter (· < bound)

/-- A number in this radix, without leading zeros. -/
def digits (radix n : Nat) : List Char := Nat.toDigits radix n

/-- A number in lower-case hexadecimal, with zeros in front up to `width` digits. -/
def hexPadded (width n : Nat) : List Char :=
  let ds := digits 16 n
  List.replicate (width - ds.length) '0' ++ ds

end ManagedTransport.Text
