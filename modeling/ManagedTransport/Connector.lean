import ManagedTransport.Config.Server
import ManagedTransport.Meeting

/-!
# Connections to the relay

A connector opens connections to the relay's plain port, where there is
nothing to negotiate, or to its extended port, where authentication and setup
have to be done within a time limit.

What a connection meets is a network: there is nobody, and opening fails, or
there is a peer.  A peer may only listen, say nothing, say fixed octets, or be
a relay.
-/

namespace ManagedTransport

/-- How connections are opened. -/
structure Connector where
  target : Target
  /-- Milliseconds for authentication and setup together. -/
  timeout : Nat

namespace Connector

/-- The time limit where none is asked for: five seconds. -/
def defaultTimeout : Nat := 5000

/-- A connector with the default time limit. -/
def ofTarget (t : Target) : Connector := ⟨t, defaultTimeout⟩

/-- The connector with another time limit. -/
def withTimeout (c : Connector) (millis : Nat) : Connector := { c with timeout := millis }

end Connector

/-- Who is at the other end of a connection. -/
inductive Peer where
  /-- Takes everything and says nothing. -/
  | listener
  /-- Says nothing and takes nothing. -/
  | silent
  /-- Says these octets and then no more. -/
  | speaker (octets : Bytes)
  /-- A relay with its cookie and what it answers after DONE. -/
  | relay (cookie : Cookie) (answer : Dialogue Unit)

/-- What a connection meets: a peer, or a fault if there is none. -/
structure Network where
  peer : Option Peer
  refusal : Fault

/-- What a peer got out of a connection. -/
inductive Reception where
  /-- Nothing that it would tell of. -/
  | nothing
  /-- These octets. -/
  | octets (received : Bytes)
  /-- A session, and octets after it. -/
  | session (announced : Announced) (received : Bytes)
  /-- No session. -/
  | noSession
deriving DecidableEq

namespace Relay

/-- What a relay got, when the client has left. -/
def reception (r : Relay) : Reception :=
  match r.stage with
  | .answered heard => .session heard r.post.inbox
  | _ => .noSession

end Relay

namespace Network

/-- What comes of a connection on the client's side; waiting for ever ends at the time limit. -/
def result (timeout : Nat) : Ending Error Unit → Except Error Unit
  | .done () => .ok ()
  | .failed e => .error e
  | .late => .error (.timeout timeout)
  | .stuck => .error (.timeout timeout)

/-- A connection to the plain port: the client sends its payload and leaves.  A
relay's first words then meet a connection that is closed, so it never comes to
a session. -/
def direct (payload : Bytes) : Peer → Reception
  | .listener => .octets payload
  | .silent => .nothing
  | .speaker _ => .nothing
  | .relay _ _ => .noSession

/-- The arrivals from a peer whose words do not depend on the client's. -/
def arrivals : Peer → List Arrival
  | .speaker octets => [.data octets]
  | _ => [.stall]

/-- A connection to the extended port: the client negotiates, sends its payload
if all went well, and leaves. -/
def extended (cookie : Cookie) (timeout : Nat) (info : SessionInfo) (payload : Bytes)
    (supply : Supply) (peer : Peer) : Except Error Unit × Reception :=
  match peer with
  | .relay relayCookie answer =>
    let (r, m) :=
      (Meeting.start (Relay.start relayCookie answer supply)).exchange cookie info
    (result timeout r, (m.leave r payload).relay.reception)
  | peer =>
    let wire := Wire.ofArrivals (arrivals peer)
    let (r, e) := (Endpoint.ofWire wire supply).negotiate cookie info timeout
    let reception :=
      match peer with
      | .listener => .octets e.wire.sent
      | _ => .nothing
    (result timeout r, reception)

/-- Opens a connection and uses it: what comes of it for the client, and what
the peer got if there is one. -/
def connect (n : Network) (c : Connector) (info : SessionInfo) (payload : Bytes)
    (supply : Supply) : Except Error Unit × Option Reception :=
  match n.peer with
  | none => (.error (.network (.connectFailed c.target.addr.text n.refusal)), none)
  | some peer =>
    match c.target with
    | .direct _ => (.ok (), some (direct payload peer))
    | .extended _ cookie =>
      let (r, reception) := extended cookie c.timeout info payload supply peer
      (r, some reception)

end Network

end ManagedTransport
