import ManagedTransport.Address.Literal

/-!
# Resolution of addresses

A configured value names an address.  A literal is one; any other value is cut
at its last colon into a host and a port, which may carry a plus sign, and the
system is asked for the host.  A system gives as many addresses as it likes, of
which the first counts, or says in its own words why it has none.

`Resolver` is what a system answers, and every resolution is one on a resolver.
`Resolver.numeric` asks nobody: its hosts are the short dotted forms, one to
four numbers, each decimal, octal behind `0` or hexadecimal behind `0x`, where
the last fills all octets that are left; and IPv6 hosts without brackets.

`resolveBind` serves bind addresses, whose IPv6 hosts were once written
without brackets: where resolution fails and a colon is left of the last one,
the text before the last colon is put into brackets and tried again.
-/

namespace ManagedTransport

open Text

/-- Why a value names no address. -/
inductive Unresolved where
  | noPort
  | badPort
  | nulInHost
  /-- The system was asked, and said this. -/
  | failed (words : String)
  /-- The system was asked, and has no address for the host. -/
  | noAddress
deriving DecidableEq

namespace Unresolved

/-- The reason in words. -/
def message : Unresolved → String
  | noPort => "invalid socket address"
  | badPort => "invalid port value"
  | nulInHost => "file name contained an unexpected NUL byte"
  | failed words => words
  | noAddress => "no addresses found"

end Unresolved

/-- A number as part of a dotted host: hexadecimal, octal or decimal by how it begins. -/
def Ip4.part? : List Char → Option Nat
  | '0' :: 'x' :: cs => natOf? 16 cs
  | '0' :: 'X' :: cs => natOf? 16 cs
  | '0' :: cs => natOf? 8 ('0' :: cs)
  | cs => natOf? 10 cs

/-- The number that a dotted host writes: each part but the last gives one
octet, and the last, below `room`, fills the rest. -/
def Ip4.join? (room : Nat) : List (List Char) → Option Nat
  | [] => none
  | [p] => (Ip4.part? p).filter (· < room)
  | p :: ps => do
    let n ← (Ip4.part? p).filter (· < 256)
    let rest ← Ip4.join? (room / 256) ps
    return n * (room / 256) + rest

/-- A dotted host of one to four parts. -/
def Ip4.readShort? (cs : List Char) : Option Ip4 :=
  let ps := split '.' cs
  if ps.length ≤ 4 then (Ip4.join? 4294967296 ps).map Ip4.ofNat else none

/-- A port with an optional plus sign. -/
def signedPort? : List Char → Option UInt16
  | '+' :: cs => Address.port? cs
  | cs => Address.port? cs

/-- A numeric host with a port. -/
def Address.ofHost? (host : List Char) (port : UInt16) : Option Address :=
  match Ip4.readShort? host with
  | some ip => some (.v4 ip port)
  | none => (Ip6.readScoped? host).map fun h => .v6 h.1 h.2 port

/-- What a system answers that is asked for a host and a port: addresses, the preferred one in
front, or why it has none. -/
structure Resolver where
  lookup : List Char → UInt16 → Except String (List Address)

namespace Resolver

/-- A system that knows numeric hosts only. -/
def numeric : Resolver where
  lookup host port :=
    match Address.ofHost? host port with
    | some a => .ok [a]
    | none => .error "failed to lookup address information: Name or service not known"

variable (system : Resolver)

/-- The first address of a host. -/
def first (host : List Char) (port : UInt16) : Except Unresolved Address :=
  match system.lookup host port with
  | .ok (a :: _) => .ok a
  | .ok [] => .error .noAddress
  | .error words => .error (.failed words)

/-- The address that a text names. -/
def resolveChars (cs : List Char) : Except Unresolved Address :=
  match Address.literal? cs with
  | some a => .ok a
  | none =>
    match cutLast? ':' cs with
    | none => .error .noPort
    | some (host, port) =>
      match signedPort? port with
      | none => .error .badPort
      | some p => if host.contains '\x00' then .error .nulInHost else system.first host p

/-- The address that a bind text names; an IPv6 host needs no brackets. -/
def resolveBindChars (cs : List Char) : Except Unresolved Address :=
  match system.resolveChars cs with
  | .ok a => .ok a
  | .error e =>
    match cutLast? ':' cs with
    | none => .error e
    | some (host, port) =>
      if host.contains ':' then system.resolveChars ('[' :: host ++ [']', ':'] ++ port)
      else .error e

/-- The address that a configured value names. -/
def resolve (value : String) : Except Unresolved Address := system.resolveChars value.toList

/-- The address that a configured bind value names. -/
def resolveBind (value : String) : Except Unresolved Address :=
  system.resolveBindChars value.toList

end Resolver

/-- The address that a value with a numeric host names. -/
def resolve (value : String) : Except Unresolved Address := Resolver.numeric.resolve value

/-- The address that a bind value with a numeric host names. -/
def resolveBind (value : String) : Except Unresolved Address := Resolver.numeric.resolveBind value

end ManagedTransport
