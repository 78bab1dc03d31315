import ManagedTransport.Digest.Sha256

/-!
# Keyed hashes

The keyed hash of a message is the digest of a digest: inside, the key and the
message; outside, the key and what the inner digest gave.  A key longer than a
block is replaced by its own digest first.
-/

namespace ManagedTransport.Hmac

/-- A key as one block of sixty-four octets. -/
def blockKey (key : Bytes) : Bytes :=
  Bytes.padded 64 (if key.length ≤ 64 then key else Sha256.digest key)

/-- HMAC-SHA256 of a message under a key. -/
def mac (key message : Bytes) : Bytes :=
  let k := blockKey key
  Sha256.digest (k.map (· ^^^ 0x5c) ++ Sha256.digest (k.map (· ^^^ 0x36) ++ message))

theorem length_mac (key message : Bytes) : (mac key message).length = 32 :=
  Sha256.length_digest _

end ManagedTransport.Hmac
