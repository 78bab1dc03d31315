import ManagedTransport.Negotiation

/-!
# A client and a relay

A client and a relay at the two ends of one stream, which keeps what is sent
until the other side takes it.  The client goes on as far as it can; where it
needs octets that are not there yet it is the relay's turn, which goes on as
far as it can in the same way.  If the relay then has nothing to say, the
client waits for ever, or meets the end of the stream if the relay has left.

A relay takes a command only once all of it is there, so between its turns it
is always between two commands.  All random blocks come from one supply, in the
order in which they are drawn.
-/

namespace ManagedTransport

/-- What a party has at hand on a stream whose other end belongs to another party. -/
structure Post where
  /-- Octets sent by the other side and not taken yet. -/
  inbox : Bytes
  /-- Whether the other side sends no more. -/
  closed : Bool
  /-- Everything this side has sent. -/
  said : Bytes
  supply : Supply

/-- Goes on with a dialogue as far as the octets at hand allow. -/
def Dialogue.proceed {α : Type} (phase : Phase) : Dialogue α → Post → Dialogue α × Post
  | done a, p => (done a, p)
  | fail e, p => (fail e, p)
  | octet k, p =>
    match p.inbox with
    | b :: rest => (k b).proceed phase { p with inbox := rest }
    | [] => if p.closed then (fail (.network (.io phase .noOctet)), p) else (octet k, p)
  | octets n k, p =>
    if n ≤ p.inbox.length then
      (k (p.inbox.take n)).proceed phase { p with inbox := p.inbox.drop n }
    else if p.closed then (fail (.network (.io phase .earlyEnd)), { p with inbox := [] })
    else (octets n k, p)
  | send bs k, p => k.proceed phase { p with said := p.said ++ bs }
  | flush k, p => k.proceed phase p
  | draw k, p => (k p.supply.draw.1).proceed phase { p with supply := p.supply.draw.2 }
  | mark _ k, p => k.proceed phase p
  | ahead k, p => (k p.inbox.length).proceed phase p

theorem Dialogue.inbox_proceed {α : Type} (phase : Phase) (d : Dialogue α) (p : Post) :
    (d.proceed phase p).2.inbox.length ≤ p.inbox.length := by
  induction d generalizing p with
  | done a => simp [proceed]
  | fail e => simp [proceed]
  | octet k ih =>
    simp only [proceed]
    split
    · next b rest h =>
      have := ih b { p with inbox := rest }
      simp only [h, List.length_cons] at this ⊢
      omega
    · split <;> simp
  | octets n k ih =>
    simp only [proceed]
    split
    · have := ih (p.inbox.take n) { p with inbox := p.inbox.drop n }
      simp only [List.length_drop] at this
      omega
    · split <;> simp
  | send bs k ih => exact ih _
  | flush k ih => exact ih _
  | draw k ih => exact ih _ _
  | mark s k ih => exact ih _
  | ahead k ih => exact ih _ _

theorem Dialogue.inbox_proceed_octets {α : Type} {phase : Phase} {n : Nat}
    {k : Bytes → Dialogue α} {p p2 : Post} {a : α}
    (h : (octets n k).proceed phase p = (done a, p2)) :
    p2.inbox.length + n ≤ p.inbox.length := by
  simp only [proceed] at h
  split at h
  · have := inbox_proceed phase (k (p.inbox.take n)) { p with inbox := p.inbox.drop n }
    rw [h] at this
    simp only [List.length_drop] at this
    omega
  · split at h <;> cases h

theorem Dialogue.inbox_proceed_read {phase : Phase} {p p2 : Post} {c : Command}
    (h : Command.read.proceed phase p = (done c, p2)) : p2.inbox.length < p.inbox.length := by
  simp only [Command.read, Dialogue.read, bind_def, bind] at h
  have := inbox_proceed_octets h
  omega

/-- How far a relay has come. -/
inductive RelayStage where
  /-- It is authenticating. -/
  | authenticating (rest : Dialogue Unit)
  /-- It listens, having heard so much. -/
  | listening (heard : Announced)
  /-- It has answered. -/
  | answered (heard : Announced)
  /-- Authentication failed. -/
  | refused (error : Error)
  /-- The announcements could not be heard to their end. -/
  | lost (error : Error)

/-- A relay with its post and what it will answer. -/
structure Relay where
  stage : RelayStage
  post : Post
  answer : Dialogue Unit

namespace Relay

/-- A relay that has just got a connection. -/
def start (cookie : Cookie) (answer : Dialogue Unit) (supply : Supply) : Relay :=
  ⟨.authenticating (SafeCookie.relay cookie), ⟨[], false, [], supply⟩, answer⟩

/-- Listens as long as whole commands are there, and answers after DONE. -/
def listen (answer : Dialogue Unit) (heard : Announced) (p : Post) : Relay :=
  match _h : Command.read.proceed .setup p with
  | (.done c, p2) =>
    match heard.hear c with
    | .more heard => listen answer heard p2
    | .complete heard => ⟨.answered heard, (answer.proceed .setup p2).2, answer⟩
    | .breach error => ⟨.lost (.protocol error), p2, answer⟩
  | (.fail error, p2) => ⟨.lost error, p2, answer⟩
  | _ => ⟨.listening heard, p, answer⟩
termination_by p.inbox.length
decreasing_by exact Dialogue.inbox_proceed_read _h

/-- Goes on as far as it can. -/
def turn (r : Relay) : Relay :=
  match r.stage with
  | .authenticating rest =>
    match rest.proceed .authentication r.post with
    | (.done (), p) => listen r.answer .nothing p
    | (.fail error, p) => { r with stage := .refused error, post := p }
    | (rest, p) => { r with stage := .authenticating rest, post := p }
  | .listening heard => listen r.answer heard r.post
  | _ => r

/-- Whether the relay will say no more. -/
def isOver (r : Relay) : Bool :=
  match r.stage with
  | .authenticating _ => false
  | .listening _ => false
  | _ => true

/-- Gives the relay octets that the client sent. -/
def hand (r : Relay) (bs : Bytes) : Relay :=
  { r with post := { r.post with inbox := r.post.inbox ++ bs } }

/-- Tells the relay that the client sends no more. -/
def close (r : Relay) : Relay := { r with post := { r.post with closed := true } }

end Relay

/-- A client and a relay on one stream. -/
structure Meeting where
  relay : Relay
  /-- How much of what the relay said the client has taken. -/
  taken : Nat
  /-- Everything the client has sent. -/
  said : Bytes

namespace Meeting

/-- What the relay has said and the client not taken. -/
def inbox (m : Meeting) : Bytes := m.relay.post.said.drop m.taken

/-- Sees to it that the client has `n` octets at hand, if the relay will say as much. -/
def await (n : Nat) (m : Meeting) : Meeting :=
  if n ≤ m.inbox.length then m else { m with relay := m.relay.turn }

/-- The client takes `n` octets. -/
def take (n : Nat) (m : Meeting) : Meeting := { m with taken := m.taken + n }

/-- The client sends octets. -/
def send (bs : Bytes) (m : Meeting) : Meeting :=
  { m with relay := m.relay.hand bs, said := m.said ++ bs }

/-- Draws a random block for the client. -/
def draw (m : Meeting) : Bytes × Meeting :=
  let (block, supply) := m.relay.post.supply.draw
  (block, { m with relay := { m.relay with post := { m.relay.post with supply := supply } } })

/-- How a wait ends when the relay has had its turn and there is still too little. -/
def short {α : Type} (phase : Phase) (f : Fault) (m : Meeting) : Ending Error α :=
  if m.relay.isOver then .failed (.network (.io phase f)) else .stuck

end Meeting

/-- Carries out the client's dialogue in a meeting. -/
def Dialogue.meet {α : Type} (phase : Phase) : Dialogue α → Meeting → Ending Error α × Meeting
  | done a, m => (.done a, m)
  | fail e, m => (.failed e, m)
  | octet k, m =>
    let m := m.await 1
    match m.inbox with
    | b :: _ => (k b).meet phase (m.take 1)
    | [] => (m.short phase .noOctet, m)
  | octets n k, m =>
    let m := m.await n
    if n ≤ m.inbox.length then (k (m.inbox.take n)).meet phase (m.take n)
    else (m.short phase .earlyEnd, m)
  | send bs k, m => k.meet phase (m.send bs)
  | flush k, m => k.meet phase m
  | draw k, m => (k m.draw.1).meet phase m.draw.2
  | mark _ k, m => k.meet phase m
  | ahead k, m => (k m.inbox.length).meet phase m

namespace Meeting

/-- A meeting that has not begun. -/
def start (relay : Relay) : Meeting := ⟨relay, 0, []⟩

/-- The client authenticates and sets the session up. -/
def exchange (cookie : Cookie) (info : SessionInfo) (m : Meeting) :
    Ending Error Unit × Meeting :=
  match (SafeCookie.client cookie).meet .authentication m with
  | (.done (), m) => info.setup.meet .setup m
  | (r, m) => (r, m)

/-- The client is through: it sends a payload if all went well, and then no
more, and the relay has its last turn. -/
def leave (r : Ending Error Unit) (payload : Bytes) (m : Meeting) : Meeting :=
  let m :=
    match r with
    | .done () => m.send payload
    | _ => m
  { m with relay := m.relay.close.turn }

/-- The relay sends back what it has not taken. -/
def echo (m : Meeting) : Meeting :=
  let post := m.relay.post
  { m with relay := { m.relay with post := { post with said := post.said ++ post.inbox } } }

end Meeting

end ManagedTransport
