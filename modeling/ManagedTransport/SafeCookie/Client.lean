import ManagedTransport.Cookie
import ManagedTransport.Dialogue
import ManagedTransport.SafeCookie.Hash

/-!
# The client's side of authentication

    server: auth types, then 0
    client: 1                        selects the safe cookie
    client: client nonce (32)
    server: server hash (32), server nonce (32)
    client: client hash (32)
    server: status                   1 for success

The server's hash is verified before anything that depends on the cookie is
sent.  After the status nothing may have been read ahead: the connection is
handed on from exactly there.
-/

namespace ManagedTransport.SafeCookie

open Dialogue

/-- The number of the auth type that is spoken here. -/
def safeCookie : UInt8 := 1

/-- The status of success. -/
def success : UInt8 := 1

/-- The status of failure. -/
def failure : UInt8 := 0

/-- How many auth types are read before giving up. -/
def maxAuthTypes : Nat := 256

/-- How many octets one read may bring while authenticating. -/
def readAheadSize : Nat := 8192

/-- Reads auth types up to the terminating zero.  There is room for so many
more; those seen are held last first.  When the room is used up the terminator
is not read any more. -/
def authTypesFrom : (room : Nat) → (seen : Bytes) → Dialogue Bytes
  | 0, seen => breach (.authTypesTooLong seen.length)
  | room + 1, seen =>
    octet fun b => if b = 0 then done seen.reverse else authTypesFrom room (b :: seen)

/-- Reads the auth types that the server offers. -/
def authTypes : Dialogue Bytes := authTypesFrom maxAuthTypes []

/-- Waits for the server's verdict. -/
def awaitStatus : Dialogue Unit := do
  reach .awaitStatus
  let status ← readOctet
  if status = success then
    let left ← readAhead
    if left = 0 then reach .authenticated else breach (.trailingData left)
  else refuse (.statusRejected status.toNat)

/-- Selects the safe cookie, verifies the server, and proves the client. -/
def exchange (cookie : Cookie) : Dialogue Unit := do
  reach .sendSelection
  say [safeCookie]
  reach .sendClientNonce
  let clientNonce ← nonce
  say clientNonce
  push
  reach .awaitServerResponse
  let hash ← read 32
  let serverNonce ← read 32
  reach .verifyServer
  if sameHash hash (serverHash cookie.secret clientNonce serverNonce) then
    reach .sendClientHash
    say (clientHash cookie.secret clientNonce serverNonce)
    push
    awaitStatus
  else refuse .serverHashMismatch

/-- The client's side of one authentication. -/
def client (cookie : Cookie) : Dialogue Unit := do
  let offered ← authTypes
  if offered.contains safeCookie then exchange cookie
  else refuse (.safeCookieNotOffered offered)

end ManagedTransport.SafeCookie
