import ManagedTransport.Connector
import ManagedTransport.Proofs.Meetings
import ManagedTransport.Proofs.Position

/-!
# Opening connections

Whoever answers at an address is described by a wire, on which anything may happen, or by a
relay that the client meets.  Opening a connection dials one address, which is noted; on an
extended port it then negotiates, and on a plain port the line is handed on as it is.

* `Admitted` — what passes when a server proves itself, lets a client in and accepts its
  session;
* `Callee.negotiate_admits` — a client is done on no other terms, whoever answers;
* `Network.connect_eq` — connections of a network are opened in this way.
-/

namespace ManagedTransport

open SafeCookie

/-- What a client has heard and said, with a nonce of its own, once the server has proved
that it has the cookie, has let the client in, and has accepted the session by an OKAY. -/
def Admitted (cookie : Cookie) (info : SessionInfo) (nc heard said : Bytes) : Prop :=
  ∃ types ns, ∃ okay : Command, Offered types ∧ nc.length = 32 ∧ ns.length = 32 ∧
    okay.id = .okay ∧ okay.body.length ≤ Command.maxBody ∧
    heard = acceptance types (serverHash cookie.secret nc ns) ns ++ okay.octets ∧
    said = transcript cookie info nc ns

/-- A client that is through and then has its session accepted was admitted. -/
theorem admitted_of_accounts {cookie : Cookie} {info : SessionInfo} {h h2 : Account}
    (hat : ClientAt cookie (.done ()) h) (hset : SessionInfo.SetupAt info (.done ()) h2) :
    ∃ nc, h.drawn = [nc] ∧ h.left = some 0 ∧
      Admitted cookie info nc (h.heard ++ h2.heard) (h.said ++ h2.said) := by
  obtain ⟨okay, hid, short, hreply, hsaid⟩ := hset.done_heard
  cases hat with
  | @through types nc ns offer long longNonce =>
      refine ⟨nc, rfl, rfl, types, ns, okay, offer, long, longNonce, hid, short, ?_, ?_⟩
      · rw [hreply, acceptance]
      · rw [hsaid, transcript, List.cons_append, List.append_assoc]

/-- Who answers at an address: the other end of a wire, or a relay. -/
inductive Callee where
  | wire (e : Endpoint)
  | relay (r : Relay)

/-- An open connection: this end of a wire, or a meeting with a relay. -/
inductive Line where
  | wire (e : Endpoint)
  | meeting (m : Meeting)

namespace Callee

/-- A peer as one who answers. -/
def ofPeer (supply : Supply) : Peer → Callee
  | .relay cookie answer => .relay (.start cookie answer supply)
  | peer => .wire (.ofWire (.ofArrivals (Network.arrivals peer)) supply)

/-- The connection when it has just been opened. -/
def line : Callee → Line
  | wire e => .wire e
  | relay r => .meeting (.start r)

/-- Negotiates on a connection that has just been opened. -/
def negotiate (cookie : Cookie) (info : SessionInfo) (limit : Nat) :
    Callee → Ending Error Unit × Line
  | wire e => let (r, e) := e.negotiate cookie info limit; (r, .wire e)
  | relay r => let (r, m) := (Meeting.start r).exchange cookie info; (r, .meeting m)

/-- What the client has heard and said on a connection since it was opened. -/
def Exchanged : Callee → Line → (heard said : Bytes) → Prop
  | wire e, .wire e2, heard, said =>
    e.wire.pending = heard ++ e2.wire.pending ∧ e2.wire.sent = e.wire.sent ++ said
  | relay _, .meeting m, heard, said => m.heard = heard ∧ m.said = said
  | _, _, _, _ => False

/-- Whoever answered has admitted the client, in answer to the nonce that it sent; on a
wire, that is the one that stood next in its supply. -/
def Admits (cookie : Cookie) (info : SessionInfo) (c : Callee) (l : Line) : Prop :=
  ∃ nc heard said, Admitted cookie info nc heard said ∧ c.Exchanged l heard said ∧
    ∀ e, c = wire e → nc = e.supply.draw.1

end Callee

/-- A client that has negotiated on a wire was admitted. -/
theorem Endpoint.negotiate_admits {cookie : Cookie} {info : SessionInfo} {limit : Nat}
    {e after : Endpoint} (hdone : e.negotiate cookie info limit = (.done (), after)) :
    Callee.Admits cookie info (.wire e) (.wire after) := by
  obtain ⟨last, hlast, hwire⟩ := negotiate_done hdone
  obtain ⟨mid, hmid, hsetup⟩ := exchange_done hlast
  obtain ⟨h, hrests, hf⟩ := (e.hurried limit).handshake_account cookie
  obtain ⟨h2, hrests2, hf2⟩ := mid.dropAhead.setup_account info
  rw [hmid] at hrests hf
  rw [hsetup] at hrests2 hf2
  obtain ⟨nc, hdrawn, hleft, hadmitted⟩ := admitted_of_accounts hrests hrests2
  -- nothing is held behind the status, so the session is set up from the octet behind it
  have hheld : mid.held = [] := List.length_eq_zero_iff.mp (hf.left 0 hleft)
  have hdirect : last.Direct := by
    have hmidDirect : mid.dropAhead.Direct := ⟨rfl, rfl⟩
    have hlater := hmidDirect.hold .setup info.setup
    rw [show info.setup.hold .setup mid.dropAhead = _ from hsetup] at hlater
    exact hlater
  have hpending : mid.pending = mid.dropAhead.pending := by
    rw [pending, hheld]
    rfl
  refine ⟨nc, _, _, hadmitted, ⟨?_, ?_⟩, ?_⟩
  · have hheard : h.heard ++ mid.pending = e.wire.pending := hf.heard
    rw [← hheard, hpending, ← hf2.heard, hdirect.pending_eq, hwire, List.append_assoc]
  · have hsaid : mid.dropAhead.wire.sent = e.wire.sent ++ h.said := hf.said
    rw [← hwire, hf2.said, hsaid, List.append_assoc]
  · rintro _ ⟨⟩
    exact hf.nonce hdrawn

/-- A client that has negotiated in a meeting was admitted. -/
theorem Meeting.exchange_admits {cookie : Cookie} {info : SessionInfo} {r : Relay}
    {after : Meeting} (hdone : (start r).exchange cookie info = (.done (), after)) :
    Callee.Admits cookie info (.relay r) (.meeting after) := by
  obtain ⟨h, hrests, hb⟩ := (client_keeps cookie).meet .authentication
    (Bears.begin (m := start r) (Nat.zero_le _) .awaitAuthTypes)
  rcases hm : (SafeCookie.client cookie).meet .authentication (start r) with ⟨_ | err | _ | _, mid⟩
  all_goals
    rw [hm] at hrests hb
    simp only [Meeting.exchange, hm] at hdone
  case done =>
    obtain ⟨h2, hrests2, hb2⟩ := (info.setup_keeps .awaitAuthTypes none).meet .setup
      (Bears.begin (m := mid) hb.proper .awaitAuthTypes)
    rw [hdone] at hrests2 hb2
    obtain ⟨nc, -, -, hadmitted⟩ := admitted_of_accounts hrests hrests2
    refine ⟨nc, _, _, hadmitted, ⟨?_, ?_⟩, by rintro _ ⟨⟩⟩
    · rw [hb2.heard, hb.heard]
      rfl
    · rw [hb2.said, hb.said]
      rfl
  all_goals cases hdone

/-- **A client is done only once it was admitted**, whoever answers and whatever they do. -/
theorem Callee.negotiate_admits {cookie : Cookie} {info : SessionInfo} {limit : Nat}
    {c : Callee} {l : Line} (hdone : c.negotiate cookie info limit = (.done (), l)) :
    c.Admits cookie info l := by
  cases c with
  | wire e =>
      obtain ⟨hr, rfl⟩ := Prod.mk.inj hdone
      exact Endpoint.negotiate_admits (Prod.ext hr rfl)
  | relay r =>
      obtain ⟨hr, rfl⟩ := Prod.mk.inj hdone
      exact Meeting.exchange_admits (Prod.ext hr rfl)

/-- Who answers, or why nobody does, at each address. -/
abbrev Answers := Address → Except Fault Callee

/-- Dials an address, and notes that. -/
def Answers.dial (net : Answers) (a : Address) : StateM (List Address) (Except Fault Callee) :=
  fun dialled => (net a, dialled ++ [a])

namespace Target

/-- What comes of opening a connection, when this has come of dialling. -/
def opened (info : SessionInfo) (limit : Nat) (t : Target) : Except Fault Callee → Except Error Line
  | .error f => .error (.network (.connectFailed t.addr.text f))
  | .ok c =>
    match t with
    | direct _ => .ok c.line
    | extended _ cookie =>
      let (r, l) := c.negotiate cookie info limit
      (Network.result limit r).map fun _ => l

/-- Opens a connection. -/
def connect (net : Answers) (info : SessionInfo) (limit : Nat) (t : Target) :
    StateM (List Address) (Except Error Line) := do
  return t.opened info limit (← net.dial t.addr)

/-- A connection is opened by dialling once. -/
theorem connect_run (net : Answers) (info : SessionInfo) (limit : Nat) (t : Target)
    (dialled : List Address) :
    (t.connect net info limit).run dialled =
      (t.opened info limit (net t.addr), dialled ++ [t.addr]) := rfl

/-- A connection to an extended port is open only once the client was admitted. -/
theorem admits_of_opened {info : SessionInfo} {limit : Nat} {a : Address} {cookie : Cookie}
    {answer : Except Fault Callee} {l : Line}
    (h : (extended a cookie).opened info limit answer = .ok l) :
    ∃ c, answer = .ok c ∧ c.Admits cookie info l := by
  rcases answer with f | c
  · cases h
  · rcases hn : c.negotiate cookie info limit with ⟨_ | err | _ | _, l2⟩
    all_goals simp only [opened, hn, Network.result, Except.map] at h
    case ok.done =>
      cases h
      exact ⟨c, rfl, Callee.negotiate_admits hn⟩
    all_goals cases h

end Target

namespace Network

/-- The network as it answers: at any address, by its one peer. -/
def answers (n : Network) (supply : Supply) : Answers := fun _ =>
  match n.peer with
  | none => .error n.refusal
  | some peer => .ok (.ofPeer supply peer)

/-- **Connections of a network** are opened in this way. -/
theorem connect_eq (n : Network) (c : Connector) (info : SessionInfo) (payload : Bytes)
    (supply : Supply) (dialled : List Address) :
    (n.connect c info payload supply).1 =
      ((c.target.connect (n.answers supply) info c.timeout).run dialled).1.map fun _ => () := by
  obtain ⟨target, timeout⟩ := c
  rcases n with ⟨_ | peer, refusal⟩
  · rfl
  · rw [Target.connect_run]
    cases target with
    | direct a => rfl
    | extended a cookie =>
        have hmap : ∀ (x : Except Error Unit) (l : Line),
            ((x.map fun _ => l).map fun _ => ()) = x := by
          rintro (e | ⟨⟩) l <;> rfl
        cases peer <;>
          simp only [connect, extended, answers, Target.opened, Callee.ofPeer, Callee.negotiate, hmap]

end Network

end ManagedTransport
