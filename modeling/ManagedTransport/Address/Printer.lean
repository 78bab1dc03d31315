import ManagedTransport.Address.Basic
import ManagedTransport.Text.Numeral

/-!
# Canonical addresses

An IPv4 host is written as four decimal octets.  An IPv6 host is written in
lower-case hexadecimal groups without leading zeros; the longest stretch of at
least two zero groups, the first of several, becomes `::`; a host that maps an
IPv4 one ends in its dotted form.  In a socket address an IPv6 host stands in
brackets, with its scope after a percent sign unless that is zero.
-/

namespace ManagedTransport

open Text

/-- Four decimal octets with dots between them. -/
def Ip4.text (ip : Ip4) : List Char :=
  digits 10 ip.a.toNat ++ '.' :: digits 10 ip.b.toNat ++ '.' :: digits 10 ip.c.toNat ++
    '.' :: digits 10 ip.d.toNat

namespace Ip6

/-- How many groups at the front are zero. -/
def leadingZeros : List UInt16 → Nat
  | [] => 0
  | g :: gs => if g = 0 then leadingZeros gs + 1 else 0

/-- Where the longest stretch of zero groups begins and how long it is; the
first of several as long. -/
def longestGap : List UInt16 → Nat × Nat
  | [] => (0, 0)
  | g :: gs =>
    let here := leadingZeros (g :: gs)
    let later := longestGap gs
    if later.2 ≤ here then (0, here) else (later.1 + 1, later.2)

/-- Hexadecimal groups with colons between them. -/
def groupsText : List UInt16 → List Char
  | [] => []
  | [g] => digits 16 g.toNat
  | g :: gs => digits 16 g.toNat ++ ':' :: groupsText gs

/-- The IPv4 host that this one maps, if it maps one. -/
def mapped? (ip : Ip6) : Option Ip4 :=
  match ip.groups with
  | [a, b, c, d, e, f, g, h] =>
    if a = 0 ∧ b = 0 ∧ c = 0 ∧ d = 0 ∧ e = 0 ∧ f = 0xFFFF then some (Ip4.ofGroups g h) else none
  | _ => none

/-- The canonical text of an IPv6 host. -/
def text (ip : Ip6) : List Char :=
  match ip.mapped? with
  | some v4 => [':', ':', 'f', 'f', 'f', 'f', ':'] ++ v4.text
  | none =>
    let gap := longestGap ip.groups
    if gap.2 < 2 then groupsText ip.groups
    else
      groupsText (ip.groups.take gap.1) ++ [':', ':'] ++
        groupsText (ip.groups.drop (gap.1 + gap.2))

end Ip6

namespace Address

/-- A scope behind its percent sign; nothing for scope zero. -/
def scopeText (scope : UInt32) : List Char :=
  if scope = 0 then [] else '%' :: digits 10 scope.toNat

/-- The canonical text of an address, as characters. -/
def chars : Address → List Char
  | .v4 host port => host.text ++ ':' :: digits 10 port.toNat
  | .v6 host scope port =>
    '[' :: host.text ++ scopeText scope ++ [']', ':'] ++ digits 10 port.toNat

/-- The canonical text of an address. -/
def text (a : Address) : String := String.ofList a.chars

end Address

end ManagedTransport
