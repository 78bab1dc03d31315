import ManagedTransport.Command

/-!
# Dialogues

A dialogue is what one party does on its end of a stream, written down as
data: it asks for octets, sends octets, flushes, draws a random block, and
goes on depending on what it got, until it is done or gives up.  The same
dialogue can then be held over a scripted stream, with another party, or over
a real connection; it does not know which.

Asking for one octet and asking for several are different requests, since a
stream that ends is reported differently for the two.  A party that reads
ahead may also ask how many octets it holds beyond those it was given.
-/

namespace ManagedTransport

/-- The steps of the client's side of authentication. -/
inductive AuthStep where
  | awaitAuthTypes
  | sendSelection
  | sendClientNonce
  | awaitServerResponse
  | verifyServer
  | sendClientHash
  | awaitStatus
  | authenticated
deriving DecidableEq

/-- What a party does, up to a result. -/
inductive Dialogue (α : Type) where
  /-- The party is done. -/
  | done (result : α)
  /-- The party gives up. -/
  | fail (error : Error)
  /-- Waits for one octet. -/
  | octet (next : UInt8 → Dialogue α)
  /-- Waits for so many octets. -/
  | octets (count : Nat) (next : Bytes → Dialogue α)
  /-- Sends octets. -/
  | send (octets : Bytes) (next : Dialogue α)
  /-- Has everything sent go out. -/
  | flush (next : Dialogue α)
  /-- Draws a random block. -/
  | draw (next : Bytes → Dialogue α)
  /-- Notes the step of authentication that is reached. -/
  | mark (step : AuthStep) (next : Dialogue α)
  /-- Looks at how many octets were read ahead. -/
  | ahead (next : Nat → Dialogue α)

namespace Dialogue

/-- One dialogue after the other. -/
def bind {α β : Type} (d : Dialogue α) (f : α → Dialogue β) : Dialogue β :=
  match d with
  | done a => f a
  | fail e => fail e
  | octet k => octet fun b => (k b).bind f
  | octets n k => octets n fun bs => (k bs).bind f
  | send bs k => send bs (k.bind f)
  | flush k => flush (k.bind f)
  | draw k => draw fun bs => (k bs).bind f
  | mark s k => mark s (k.bind f)
  | ahead k => ahead fun n => (k n).bind f

instance : Monad Dialogue where
  pure := done
  bind := bind

@[simp] theorem pure_def {α : Type} (a : α) : (pure a : Dialogue α) = done a := rfl

@[simp] theorem bind_def {α β : Type} (d : Dialogue α) (f : α → Dialogue β) :
    d >>= f = d.bind f := rfl

theorem bind_assoc {α β γ : Type} (d : Dialogue α) (f : α → Dialogue β)
    (g : β → Dialogue γ) : (d.bind f).bind g = d.bind fun a => (f a).bind g := by
  induction d <;> simp_all [bind]

theorem bind_done {α : Type} (d : Dialogue α) : d.bind done = d := by
  induction d <;> simp_all [bind]

/-- Reads one octet. -/
def readOctet : Dialogue UInt8 := octet done

/-- Reads so many octets. -/
def read (count : Nat) : Dialogue Bytes := octets count done

/-- Sends octets. -/
def say (bs : Bytes) : Dialogue Unit := send bs (done ())

/-- Flushes. -/
def push : Dialogue Unit := flush (done ())

/-- Draws a random block. -/
def nonce : Dialogue Bytes := draw done

/-- Notes the step reached. -/
def reach (step : AuthStep) : Dialogue Unit := mark step (done ())

/-- How many octets were read ahead. -/
def readAhead : Dialogue Nat := ahead done

/-- Gives up because of the peer's breach of the protocol. -/
def breach {α : Type} (e : ProtocolError) : Dialogue α := fail (.protocol e)

/-- Gives up because one side refuses the other. -/
def refuse {α : Type} (e : AuthError) : Dialogue α := fail (.auth e)

end Dialogue

namespace Command

open Dialogue

/-- Writes a command with one write.  A body that is too long writes nothing. -/
def write (c : Command) : Dialogue Unit :=
  match c.encode with
  | .ok frame => say frame
  | .error e => breach e

/-- The number in a command's header. -/
def headerCode (header : Bytes) : Nat := Bytes.word (header.getD 0 0) (header.getD 1 0)

/-- The length of the body that a command's header announces. -/
def headerLength (header : Bytes) : Nat := Bytes.word (header.getD 2 0) (header.getD 3 0)

/-- Reads one command.  The body is read before the number is looked at, so an
unknown command is gone from the stream when it is refused. -/
def read : Dialogue Command := do
  let header ← Dialogue.read 4
  let body ← Dialogue.read (headerLength header)
  match CommandId.ofCode (headerCode header) with
  | .ok id => return ⟨id, body⟩
  | .error e => breach e

end Command

end ManagedTransport
