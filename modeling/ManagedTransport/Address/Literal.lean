import ManagedTransport.Address.Basic
import ManagedTransport.Text.Numeral
import ManagedTransport.Text.Split

/-!
# Address literals

The written forms of hosts and addresses.  Four decimal octets are strict: no
leading zeros.  An IPv6 host is eight groups of one to four hexadecimal
digits, of which the last two may be written as four octets; one `::` stands
for at least one missing group.  A literal address is `1.2.3.4:80` or
`[host]:80`, where the bracketed host may carry a decimal scope; a port has
any number of digits and stays below 65536.
-/

namespace ManagedTransport

open Text

/-- A decimal octet without leading zeros. -/
def octet? (cs : List Char) : Option UInt8 :=
  if cs.length ≤ 3 ∧ (cs.length = 1 ∨ cs.head? ≠ some '0') then
    (decimalBelow? 256 cs).map UInt8.ofNat
  else none

/-- Four octets with dots between them. -/
def Ip4.read? (cs : List Char) : Option Ip4 :=
  match split '.' cs with
  | [a, b, c, d] => do return ⟨← octet? a, ← octet? b, ← octet? c, ← octet? d⟩
  | _ => none

namespace Ip6

/-- One group: one to four hexadecimal digits. -/
def group? (cs : List Char) : Option UInt16 :=
  if cs.length ≤ 4 then (natOf? 16 cs).map UInt16.ofNat else none

/-- Plain groups, one in each piece. -/
def plainGroups? : List (List Char) → Option (List UInt16)
  | [] => some []
  | p :: ps => do return (← group? p) :: (← plainGroups? ps)

/-- Groups, of which the last piece may hold two as four octets. -/
def finalGroups? : List (List Char) → Option (List UInt16)
  | [] => some []
  | [p] =>
    match group? p with
    | some g => some [g]
    | none => (Ip4.read? p).map Ip4.groups
  | p :: ps => do return (← group? p) :: (← finalGroups? ps)

/-- The colon-separated pieces; the empty text has none. -/
def pieces (cs : List Char) : List (List Char) := if cs.isEmpty then [] else split ':' cs

/-- What stands before and after the first `::`, if there is one. -/
def cutGap? : List Char → Option (List Char × List Char)
  | ':' :: ':' :: cs => some ([], cs)
  | c :: cs => (cutGap? cs).map fun r => (c :: r.1, r.2)
  | [] => none

/-- An IPv6 host without scope. -/
def read? (cs : List Char) : Option Ip6 :=
  match cutGap? cs with
  | none => (finalGroups? (pieces cs)).bind ofGroups?
  | some (front, back) => do
    let gs ← plainGroups? (pieces front)
    let hs ← finalGroups? (pieces back)
    if gs.length + hs.length ≤ 7 then
      ofGroups? (gs ++ List.replicate (8 - gs.length - hs.length) 0 ++ hs)
    else none

/-- An IPv6 host with its scope, which is zero where none is written. -/
def readScoped? (cs : List Char) : Option (Ip6 × UInt32) :=
  match cutFirst? '%' cs with
  | none => (read? cs).map (·, 0)
  | some (host, scope) => do
    let ip ← read? host
    let n ← decimalBelow? 4294967296 scope
    return (ip, UInt32.ofNat n)

end Ip6

namespace Address

/-- A port of a literal: digits only. -/
def port? (cs : List Char) : Option UInt16 := (decimalBelow? 65536 cs).map UInt16.ofNat

/-- A literal address. -/
def literal? : List Char → Option Address
  | '[' :: cs =>
    match cutFirst? ']' cs with
    | some (inside, ':' :: port) => do
      let host ← Ip6.readScoped? inside
      return .v6 host.1 host.2 (← port? port)
    | _ => none
  | cs =>
    match cutFirst? ':' cs with
    | some (host, port) => do return .v4 (← Ip4.read? host) (← port? port)
    | none => none

end Address

end ManagedTransport
