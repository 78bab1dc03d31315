import ManagedTransport.Endpoint
import ManagedTransport.SafeCookie.Relay
import ManagedTransport.Session

/-!
# Negotiation

What either party does at its endpoint.  The client authenticates with a
window of its own, so that what it reads ahead while authenticating is lost
when it is done, and then sets up the session reading nothing ahead.
`negotiate` does both under one deadline.  The relay authenticates, listens to
the client's announcements, and gives its verdict.

Listening ends because every command takes octets from the wire.
-/

namespace ManagedTransport

namespace Endpoint

/-- Lets time pass. -/
def wait (millis : Nat) (e : Endpoint) : Endpoint :=
  { e with wire := { e.wire with clock := e.wire.clock + millis } }

/-- The client's side of authentication, with what it read ahead still held. -/
def handshake (cookie : Cookie) (e : Endpoint) : Ending Error Unit × Endpoint :=
  (SafeCookie.client cookie).hold .authentication
    { e with held := [], window := SafeCookie.readAheadSize, step := .awaitAuthTypes }

/-- Forgets what was read ahead. -/
def dropAhead (e : Endpoint) : Endpoint := { e with held := [], window := 1 }

/-- Authenticates as the client. -/
def authenticate (cookie : Cookie) (e : Endpoint) : Ending Error Unit × Endpoint :=
  let (r, e) := e.handshake cookie
  (r, e.dropAhead)

/-- Sets the session up as the client. -/
def setup (info : SessionInfo) (e : Endpoint) : Ending Error Unit × Endpoint :=
  info.setup.hold .setup e

/-- Authenticates and sets the session up, however long it takes. -/
def exchange (cookie : Cookie) (info : SessionInfo) (e : Endpoint) :
    Ending Error Unit × Endpoint :=
  match e.authenticate cookie with
  | (.done (), e) => e.setup info
  | (r, e) => (r, e)

/-- Authenticates and sets the session up before the deadline.  If the deadline
cuts a wait short, the error tells how much time there was at the start. -/
def negotiate (cookie : Cookie) (info : SessionInfo) (deadline : Nat) (e : Endpoint) :
    Ending Error Unit × Endpoint :=
  let millis := deadline - e.wire.clock
  let (r, after) := { e with deadline := some deadline }.exchange cookie info
  let after := { after with deadline := none }
  match r with
  | .late => (.failed (.timeout millis), after)
  | .stuck => (.failed (.timeout millis), after)
  | r => (r, after)

/-- Authenticates as the relay. -/
def authenticateRelay (cookie : Cookie) (e : Endpoint) : Ending Error Unit × Endpoint :=
  (SafeCookie.relay cookie).hold .authentication e

/-- Listens to the client's announcements up to DONE, after some were heard. -/
def listenOn (heard : Announced) (e : Endpoint) : Ending Error Announced × Endpoint :=
  match _h : Command.read.hold .setup e with
  | (.done c, e2) =>
    match heard.hear c with
    | .more heard => listenOn heard e2
    | .complete heard => (.done heard, e2)
    | .breach error => (.failed (.protocol error), e2)
  | (.failed error, e2) => (.failed error, e2)
  | (.late, e2) => (.late, e2)
  | (.stuck, e2) => (.stuck, e2)
termination_by e.unread
decreasing_by exact Dialogue.unread_hold_read _h

/-- Listens to the client's announcements. -/
def listen (e : Endpoint) : Ending Error Announced × Endpoint := e.listenOn .nothing

/-- Gives the relay's verdict. -/
def answer (accept : Bool) (e : Endpoint) : Ending Error Unit × Endpoint :=
  (giveVerdict accept).hold .setup e

end Endpoint

end ManagedTransport
