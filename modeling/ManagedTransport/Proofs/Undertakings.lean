import ManagedTransport.Negotiation

/-!
# Undertakings

On one stream a party may undertake one thing after the other: to authenticate as the client
or as the relay, to set a session up, to negotiate, to read or write single commands, to
listen, to answer.  A chronicle tells what came of each, whatever came of those before it;
it ends with an undertaking that never does.

* `Undertaking.perform`, `chronicle` — what comes of one undertaking, and of one after the
  other;
* `Dialogue.Plain` — a dialogue that only reads and writes, as all do but those by which a
  party authenticates.
-/

namespace ManagedTransport

/-- What a party may undertake on a stream. -/
inductive Undertaking where
  /-- Authenticates as the client, looking at the step that is reached. -/
  | handshake (cookie : Cookie)
  /-- Authenticates as the client. -/
  | authenticate (cookie : Cookie)
  /-- Authenticates and sets a session up within a time, of which some has passed already. -/
  | negotiate (cookie : Cookie) (info : SessionInfo) (budget late : Nat)
  /-- Authenticates as the relay. -/
  | authenticateRelay (cookie : Cookie)
  | setup (info : SessionInfo)
  | readCommand (phase : Phase)
  | writeCommand (phase : Phase) (command : Command)
  | listen
  | answer (accept : Bool)

/-- What a party has of what it has undertaken. -/
inductive Gain where
  | nothing
  | command (command : Command)
  | announced (announced : Announced)
deriving DecidableEq

/-- How an undertaking ends whose result is this gain. -/
def Ending.gain {α : Type} (gain : α → Gain) : Ending Error α → Ending Error Gain
  | done a => .done (gain a)
  | failed err => .failed err
  | late => .late
  | stuck => .stuck

/-- The same end, of an undertaking. -/
def gaining {α : Type} (gain : α → Gain) (x : Ending Error α × Endpoint) :
    Ending Error Gain × Endpoint :=
  (x.1.gain gain, x.2)

/-- What comes of an undertaking at an endpoint. -/
def Undertaking.perform (u : Undertaking) (e : Endpoint) : Ending Error Gain × Endpoint :=
  match u with
  | handshake cookie =>
    gaining (fun _ => .nothing) ((e.handshake cookie).1, (e.handshake cookie).2.dropAhead)
  | authenticate cookie => gaining (fun _ => .nothing) (e.authenticate cookie)
  | negotiate cookie info budget late =>
    gaining (fun _ => .nothing) ((e.wait late).negotiate cookie info (e.wire.clock + budget))
  | authenticateRelay cookie => gaining (fun _ => .nothing) (e.authenticateRelay cookie)
  | setup info => gaining (fun _ => .nothing) (e.setup info)
  | readCommand phase => gaining .command (Command.read.hold phase e)
  | writeCommand phase c => gaining (fun _ => .nothing) (c.write.hold phase e)
  | listen => gaining .announced e.listen
  | answer accept => gaining (fun _ => .nothing) (e.answer accept)

/-- What is told of an undertaking. -/
structure Record where
  undertaking : Undertaking
  before : Endpoint
  ending : Ending Error Gain
  after : Endpoint

namespace Record

/-- What was written meanwhile. -/
def wrote (r : Record) : Bytes := r.after.wire.sent.drop r.before.wire.sent.length

/-- The octets that the party was given meanwhile. -/
def taken (r : Record) : Bytes := r.before.pending.take (r.before.unread - r.after.unread)

end Record

/-- What is told of an undertaking at an endpoint. -/
def Undertaking.record (u : Undertaking) (e : Endpoint) : Record :=
  ⟨u, e, (u.perform e).1, (u.perform e).2⟩

/-- What is told of undertakings, one after the other. -/
def chronicle : List Undertaking → Endpoint → List Record
  | [], _ => []
  | u :: us, e => u.record e ::
    match u.perform e with
    | (.done _, after) => chronicle us after
    | (.failed _, after) => chronicle us after
    | _ => []

namespace Dialogue

variable {α β : Type}

/-- The dialogue draws nothing and does not look at what is read ahead. -/
def Plain : Dialogue α → Prop
  | done _ => True
  | fail _ => True
  | octet k => ∀ b, (k b).Plain
  | octets _ k => ∀ bs, (k bs).Plain
  | send _ k => k.Plain
  | flush k => k.Plain
  | draw _ => False
  | mark _ k => k.Plain
  | ahead _ => False

theorem plain_bind {d : Dialogue α} {f : α → Dialogue β} (h : d.Plain) (hf : ∀ a, (f a).Plain) :
    (d.bind f).Plain := by
  induction d with
  | done a => exact hf a
  | fail err => exact trivial
  | octet k ih => exact fun b => ih b (h b)
  | octets n k ih => exact fun bs => ih bs (h bs)
  | send bs k ih => exact ih h
  | flush k ih => exact ih h
  | draw k ih => exact h.elim
  | mark s k ih => exact ih h
  | ahead k ih => exact h.elim

end Dialogue

open Dialogue

theorem Command.write_plain (c : Command) : c.write.Plain := by
  unfold Command.write
  split <;> trivial

theorem Command.read_plain : Command.read.Plain := by
  intro header body
  simp only [Dialogue.bind]
  split <;> trivial

theorem push_plain : push.Plain := trivial

theorem SessionInfo.setup_plain (info : SessionInfo) : info.setup.Plain := by
  refine plain_bind (Command.write_plain _) fun _ => plain_bind (Command.write_plain _) fun _ =>
    plain_bind (Command.write_plain _) fun _ => plain_bind push_plain fun _ =>
    plain_bind Command.read_plain fun reply => ?_
  split <;> trivial

theorem giveVerdict_plain (accept : Bool) : (giveVerdict accept).Plain :=
  plain_bind (Command.write_plain _) fun _ => push_plain

end ManagedTransport
