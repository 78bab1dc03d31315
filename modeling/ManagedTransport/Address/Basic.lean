/-!
# Socket addresses

An address is an IPv4 or an IPv6 host with a port.  An IPv6 host may carry a
scope number, which tells apart the links that use the same addresses; scope
zero means none.
-/

namespace ManagedTransport

/-- An IPv4 host: four octets. -/
structure Ip4 where
  a : UInt8
  b : UInt8
  c : UInt8
  d : UInt8
deriving DecidableEq

/-- An IPv6 host: eight groups of sixteen bits. -/
structure Ip6 where
  groups : List UInt16
  length_groups : groups.length = 8
deriving DecidableEq

/-- A host and a port. -/
inductive Address where
  | v4 (host : Ip4) (port : UInt16)
  | v6 (host : Ip6) (scope : UInt32) (port : UInt16)
deriving DecidableEq

namespace Ip4

/-- The address whose octets are those of a 32-bit number, highest first. -/
def ofNat (n : Nat) : Ip4 :=
  ⟨UInt8.ofNat (n / 16777216), UInt8.ofNat (n / 65536), UInt8.ofNat (n / 256), UInt8.ofNat n⟩

/-- The two groups that the four octets fill at the end of an IPv6 host. -/
def groups (ip : Ip4) : List UInt16 :=
  [UInt16.ofNat (ip.a.toNat * 256 + ip.b.toNat), UInt16.ofNat (ip.c.toNat * 256 + ip.d.toNat)]

/-- The four octets that two groups hold. -/
def ofGroups (g h : UInt16) : Ip4 :=
  ⟨UInt8.ofNat (g.toNat / 256), UInt8.ofNat g.toNat, UInt8.ofNat (h.toNat / 256),
    UInt8.ofNat h.toNat⟩

end Ip4

/-- The host with these groups, if there are eight. -/
def Ip6.ofGroups? (gs : List UInt16) : Option Ip6 :=
  if h : gs.length = 8 then some ⟨gs, h⟩ else none

end ManagedTransport
