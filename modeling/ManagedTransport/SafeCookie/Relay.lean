import ManagedTransport.SafeCookie.Client

/-!
# The relay's side of authentication

The relay offers the safe cookie alone.  It proves itself first, in answer to
the client's nonce, then verifies the client's hash and always says what came
of it, so that the client learns the outcome either way.
-/

namespace ManagedTransport.SafeCookie

open Dialogue

/-- Sends the status. -/
def sendStatus (status : UInt8) : Dialogue Unit := do
  say [status]
  push

/-- The relay's side of one authentication. -/
def relay (cookie : Cookie) : Dialogue Unit := do
  say [safeCookie, 0]
  push
  let selected ← readOctet
  if selected = safeCookie then
    let clientNonce ← read 32
    let serverNonce ← nonce
    say (serverHash cookie.secret clientNonce serverNonce ++ serverNonce)
    push
    let hash ← read 32
    if sameHash hash (clientHash cookie.secret clientNonce serverNonce) then sendStatus success
    else
      sendStatus failure
      refuse .clientHashMismatch
  else refuse (.unsupportedSelection selected.toNat)

end ManagedTransport.SafeCookie
