import ManagedTransport.Address.Printer
import ManagedTransport.Dialogue
import ManagedTransport.Text.Utf8

/-!
# Session setup

After authentication the client announces where the connection came from and
which transport carried it, and the relay accepts or denies it:

    client: USERADDR   address
    client: TRANSPORT  method
    client: DONE
    server: OKAY or DENY

The relay listens up to DONE; of several announcements of one kind the last
counts.
-/

namespace ManagedTransport

open Dialogue

/-- What a client announces: where the connection came from, and by which transport. -/
structure SessionInfo where
  userAddr : Address
  method : String

/-- Announces the session and waits for the verdict. -/
def SessionInfo.setup (info : SessionInfo) : Dialogue Unit := do
  Command.write ⟨.userAddr, Text.utf8 info.userAddr.text⟩
  Command.write ⟨.transport, Text.utf8 info.method⟩
  Command.write ⟨.done, []⟩
  push
  let reply ← Command.read
  match reply.id with
  | .okay => done ()
  | .deny => refuse .denied
  | other => breach (.unexpectedCommand other.name .setup)

/-- What a relay has heard so far. -/
structure Announced where
  userAddr : Option String
  transport : Option String
deriving DecidableEq

/-- What a command means to a listening relay. -/
inductive Heard where
  | more (announced : Announced)
  | complete (announced : Announced)
  | breach (error : ProtocolError)
deriving DecidableEq

namespace Announced

/-- Nothing is heard yet. -/
def nothing : Announced := ⟨none, none⟩

/-- Takes one command of the client. -/
def hear (a : Announced) (c : Command) : Heard :=
  match c.id with
  | .done => .complete a
  | .userAddr => .more { a with userAddr := some (Text.lossy c.body) }
  | .transport => .more { a with transport := some (Text.lossy c.body) }
  | other => .breach (.unexpectedCommand other.name .setup)

end Announced

/-- The command that gives the verdict. -/
def verdict (accept : Bool) : Command := ⟨if accept then .okay else .deny, []⟩

/-- Gives the verdict. -/
def giveVerdict (accept : Bool) : Dialogue Unit := do
  Command.write (verdict accept)
  push

end ManagedTransport
