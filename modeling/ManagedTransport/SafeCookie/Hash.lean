import ManagedTransport.Digest.Hmac

/-!
# Proofs of possession

Each side proves that it has the cookie by a keyed hash of both nonces.  The
hashes of the two directions differ in a fixed string at the front of the
message, so neither can be passed off as the other.  `sameHash_iff` says that
the comparison, which looks at every position, is equality.
-/

namespace ManagedTransport.SafeCookie

/-- What the message of a server's hash begins with. -/
def serverDomain : Bytes :=
  "ExtORPort authentication server-to-client hash".toList.map fun c => UInt8.ofNat c.toNat

/-- What the message of a client's hash begins with. -/
def clientDomain : Bytes :=
  "ExtORPort authentication client-to-server hash".toList.map fun c => UInt8.ofNat c.toNat

/-- The hash of both nonces, the client's first, under a key. -/
def keyedHash (key domain clientNonce serverNonce : Bytes) : Bytes :=
  Hmac.mac key (domain ++ clientNonce ++ serverNonce)

/-- The hash by which the server proves itself. -/
def serverHash (key clientNonce serverNonce : Bytes) : Bytes :=
  keyedHash key serverDomain clientNonce serverNonce

/-- The hash by which the client proves itself. -/
def clientHash (key clientNonce serverNonce : Bytes) : Bytes :=
  keyedHash key clientDomain clientNonce serverNonce

theorem length_serverHash (key clientNonce serverNonce : Bytes) :
    (serverHash key clientNonce serverNonce).length = 32 := Hmac.length_mac _ _

theorem length_clientHash (key clientNonce serverNonce : Bytes) :
    (clientHash key clientNonce serverNonce).length = 32 := Hmac.length_mac _ _

/-- The bits in which two strings differ, gathered over all positions. -/
def difference (a b : Bytes) : UInt8 := (List.zipWith (· ^^^ ·) a b).foldl (· ||| ·) 0

/-- Whether two hashes are the same.  Every position is looked at, wherever the
first difference is. -/
def sameHash (a b : Bytes) : Bool := a.length == b.length && difference a b == 0

theorem foldl_or_eq_zero_iff (bs : Bytes) (acc : UInt8) :
    bs.foldl (· ||| ·) acc = 0 ↔ acc = 0 ∧ ∀ b ∈ bs, b = 0 := by
  induction bs generalizing acc with
  | nil => simp
  | cons b bs ih =>
    rw [List.foldl_cons, ih, UInt8.or_eq_zero_iff]
    simp [and_assoc]

/-- Two hashes pass for the same exactly if they are. -/
theorem sameHash_iff {a b : Bytes} : sameHash a b = true ↔ a = b := by
  induction a generalizing b with
  | nil => cases b <;> simp [sameHash, difference]
  | cons x xs ih =>
    cases b with
    | nil => simp [sameHash]
    | cons y ys =>
      rw [List.cons.injEq, ← ih]
      simp only [sameHash, difference, Bool.and_eq_true, beq_iff_eq, foldl_or_eq_zero_iff,
        List.length_cons, List.zipWith_cons_cons, List.mem_cons, forall_eq_or_imp,
        UInt8.xor_eq_zero_iff]
      grind

end ManagedTransport.SafeCookie
