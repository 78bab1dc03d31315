/-!
# Octet strings

Everything a party sends, reads, stores or hashes is a list of octets.  The
extended ORPort writes its two-octet numbers high octet first; `word_ofWord`
says that reading such a pair undoes writing it.
-/

namespace ManagedTransport

/-- A finite string of octets. -/
abbrev Bytes := List UInt8

namespace Bytes

/-- The two octets of a number below 65536, high octet first. -/
def ofWord (n : Nat) : Bytes := [UInt8.ofNat (n / 256), UInt8.ofNat (n % 256)]

/-- The number written by a high octet and a low octet. -/
def word (high low : UInt8) : Nat := high.toNat * 256 + low.toNat

theorem word_lt (high low : UInt8) : word high low < 65536 := by
  have h := high.toNat_lt
  have l := low.toNat_lt
  simp only [word]
  omega

theorem word_ofWord {n : Nat} (h : n < 65536) :
    word (UInt8.ofNat (n / 256)) (UInt8.ofNat (n % 256)) = n := by
  simp only [word, UInt8.toNat_ofNat']
  omega

theorem ofWord_word (high low : UInt8) : ofWord (word high low) = [high, low] := by
  have l := low.toNat_lt
  have e : (high.toNat * 256 + low.toNat) / 256 = high.toNat := by omega
  have m : (high.toNat * 256 + low.toNat) % 256 = low.toNat := by omega
  simp [ofWord, word, e, m]

@[simp] theorem length_ofWord (n : Nat) : (ofWord n).length = 2 := rfl

/-- `n` octets of value zero. -/
def zeros (n : Nat) : Bytes := List.replicate n 0

/-- The first `n` octets, with zeros for those that are missing. -/
def padded (n : Nat) (bs : Bytes) : Bytes := bs.take n ++ zeros (n - bs.length)

@[simp] theorem length_padded (n : Nat) (bs : Bytes) : (padded n bs).length = n := by
  simp only [padded, zeros, List.length_append, List.length_take, List.length_replicate]
  omega

end Bytes

end ManagedTransport
