import ManagedTransport.Proofs.ClientSide
import ManagedTransport.Proofs.Deadline
import ManagedTransport.Proofs.Following
import ManagedTransport.Proofs.ListeningSide
import ManagedTransport.Proofs.RelaySide

/-!
# A client and a relay on two pipes

A client that negotiates and a relay that takes its announcements and answers
them are connected by two pipes.  What one sends goes into the pipe to the other
and is delivered in order, in pieces of any size and at any time.  The sides run
in any order.  When a side is over, its end is closed, and the other learns so
once everything has been delivered.

* `Encounter.Step` — what may happen next;
* `ClientOn`, `RelayOn` — the moments of either side, from its beginning on;
* `Encounter.Sound` — either side keeps to its course, and what was sent was delivered
  or is still in the pipe; `Sound.step` says that it stays so;
* `ClientReturns`, `RelayReturns` — what comes back from `negotiate` and from `serve`
  where the moves of the two sides end;
* `ClientEnds`, `RelayEnds` — how either side of a link itself has ended, and with it what
  comes back.
-/

namespace ManagedTransport

open SafeCookie

/-- A client and a relay that come together, with all that they bring along. -/
structure Encounter where
  clientCookie : Cookie
  relayCookie : Cookie
  info : SessionInfo
  /-- Whether the relay accepts what is announced. -/
  accept : Bool
  clientSupply : Supply
  relaySupply : Supply

/-- One direction of a stream between two parties. -/
structure Pipe where
  /-- What was sent and is not delivered yet. -/
  flight : Bytes
  /-- Whether the receiving end has not been told of the end yet. -/
  isOpen : Bool

/-- A client and a relay on two pipes. -/
structure Link where
  client : Party ClientStage Unit
  relay : Party RelayCall Announced
  toRelay : Pipe
  toClient : Pipe

/-- A party is done or has given up. -/
def Party.IsOver {σ ρ : Type} (p : Party σ ρ) : Prop :=
  (∃ r, p.rest = .done (.ended r)) ∨ ∃ err, p.rest = .fail err

/-- What a party has sent in all. -/
def Party.sent {σ ρ : Type} (p : Party σ ρ) : Bytes := p.endpoint.wire.sent

/-- What a party has sent beyond what it had sent before goes into the pipe. -/
def Pipe.take {σ ρ : Type} (pipe : Pipe) (before after : Party σ ρ) : Pipe :=
  { pipe with flight := pipe.flight ++ after.sent.drop before.sent.length }

namespace Encounter

variable (x : Encounter)

def clientCourse : Course ClientStage Unit :=
  ManagedTransport.clientCourse x.clientCookie x.info

def relayCourse : Course RelayCall Announced :=
  ManagedTransport.relayCourse x.relayCookie x.accept

/-- The two before either has done anything. -/
def start : Link where
  client := x.clientCourse.arrive .authenticating (.awaiting [] true x.clientSupply)
  relay := x.relayCourse.arrive .authenticating (.awaiting [] true x.relaySupply)
  toRelay := ⟨[], true⟩
  toClient := ⟨[], true⟩

/-- What may happen next: a side goes on, a pipe delivers a piece of what is in
it, or it is closed, being empty, behind a side that is over. -/
inductive Step (l : Link) : Link → Prop
  | client {p} (leads : x.clientCourse.Leads l.client p) :
      Step l { l with client := p, toRelay := l.toRelay.take l.client p }
  | relay {p} (leads : x.relayCourse.Leads l.relay p) :
      Step l { l with relay := p, toClient := l.toClient.take l.relay p }
  | toRelay {piece rest} (some : piece ≠ []) (front : l.toRelay.flight = piece ++ rest) :
      Step l { l with
        relay := { l.relay with endpoint := l.relay.endpoint.deliver piece }
        toRelay := { l.toRelay with flight := rest } }
  | toClient {piece rest} (some : piece ≠ []) (front : l.toClient.flight = piece ++ rest) :
      Step l { l with
        client := { l.client with endpoint := l.client.endpoint.deliver piece }
        toClient := { l.toClient with flight := rest } }
  | closeToRelay (ended : l.client.IsOver) (nothing : l.toRelay.flight = [])
      (still : l.toRelay.isOpen = true) :
      Step l { l with
        relay := { l.relay with endpoint := l.relay.endpoint.hangUp }
        toRelay := ⟨[], false⟩ }
  | closeToClient (ended : l.relay.IsOver) (nothing : l.toClient.flight = [])
      (still : l.toClient.isOpen = true) :
      Step l { l with
        client := { l.client with endpoint := l.client.endpoint.hangUp }
        toClient := ⟨[], false⟩ }

/-- What may come to pass. -/
abbrev Reaches : Link → Link → Prop := Relation.ReflTransGen x.Step

end Encounter

/-! ## The moments of either side -/

/-- The moments of a client from its beginning on. -/
inductive ClientOn (cookie : Cookie) (info : SessionInfo) :
    Phase → Moment (Next ClientStage Unit) → Account → Prop
  | authenticating {m h} (now : ClientAt cookie m h) :
      ClientOn cookie info .authentication (m.map fun _ => .stage .settingUp) h
  | settingUp {m first rest} (through : ClientAt cookie (.done ()) first)
      (now : info.SetupAt m rest) : ClientOn cookie info .setup (m.map .ended) (first.andThen rest)

/-- The moments of a relay from its beginning on. -/
inductive RelayOn (cookie : Cookie) (accept : Bool) :
    Phase → Moment (Next RelayCall Announced) → Account → Prop
  | authenticating {m h} (now : RelayAt cookie m h) :
      RelayOn cookie accept .authentication (m.map fun _ => .stage (.listening .nothing)) h
  | serving {m first rest} (through : RelayAt cookie (.done ()) first)
      (now : ServingAt accept m rest) : RelayOn cookie accept .setup m (first.andThen rest)

/-- **A client on its course is where `ClientOn` says.** -/
theorem clientCourse_keeps (cookie : Cookie) (info : SessionInfo) :
    (clientCourse cookie info).Keeps (ClientOn cookie info) where
  talk := by
    intro phase s h hnow
    generalize hm : (Moment.done (Next.stage s) : Moment (Next ClientStage Unit)) = m at hnow
    cases hnow with
    | @authenticating m h now =>
        rcases m with _ | _ | _ | ⟨⟨⟩⟩ | err
        case done =>
          obtain rfl : s = .settingUp := by cases hm; rfl
          have hkeeps := (info.setup_keeps h.step h.left).after h
          rw [show (⟨[], [], [], h.step, h.left⟩ : Account) = h.renew from rfl,
            Account.andThen_renew] at hkeeps
          apply hkeeps.map Next.ended
          rintro m h2 ⟨rest, hat, rfl⟩
          exact .settingUp now hat
        all_goals cases hm
    | @settingUp m first rest through now => cases m <;> cases hm
  enter := by
    intro phase s h came before source e hnow hf
    generalize hm : (Moment.done (Next.stage s) : Moment (Next ClientStage Unit)) = m at hnow
    cases hnow with
    | @authenticating m h now =>
        rcases m with _ | _ | _ | ⟨⟨⟩⟩ | err
        case done =>
          obtain rfl : s = .settingUp := by cases hm; rfl
          have hleft : h.left = some 0 := by cases now; rfl
          have hheld : e.held = [] := List.length_eq_zero_iff.mp (hf.left 0 hleft)
          refine ⟨?_, hf.said, hf.drawn, hf.supply, hf.step, fun n hn => ?_⟩
          · show h.heard ++ ([] ++ e.wire.pending) = came
            rw [← hf.heard, Endpoint.pending, hheld]
          · rw [hleft] at hn
            exact Option.some.inj hn
        all_goals cases hm
    | @settingUp m first rest through now => cases m <;> cases hm

/-- **A relay on its course is where `RelayOn` says.** -/
theorem relayCourse_keeps (cookie : Cookie) (accept : Bool) :
    (relayCourse cookie accept).Keeps (RelayOn cookie accept) where
  talk := by
    intro phase s h hnow
    have hserving : ∀ {first rest : Account} {d : Dialogue (Next RelayCall Announced)},
        RelayAt cookie (.done ()) first → d.Keeps (ServingAt accept) rest →
        d.Keeps (RelayOn cookie accept .setup) (first.andThen rest) := by
      intro first rest d through hkeeps
      refine (hkeeps.after first).imp ?_
      rintro m h2 ⟨rest, hat, rfl⟩
      exact .serving through hat
    generalize hm : (Moment.done (Next.stage s) : Moment (Next RelayCall Announced)) = m at hnow
    cases hnow with
    | @authenticating m h now =>
        rcases m with _ | _ | _ | ⟨⟨⟩⟩ | err
        case done =>
          obtain rfl : s = .listening .nothing := by cases hm; rfl
          have hkeeps := hserving now
            (listening_keeps accept .nothing h.step h.left)
          rwa [show (⟨[], [], [], h.step, h.left⟩ : Account) = h.renew from rfl,
            Account.andThen_renew] at hkeeps
        all_goals cases hm
    | @serving m first rest through now =>
        subst hm
        cases now with
        | heard told => exact hserving through (listening_keeps accept told _ _)
        | complete told => exact hserving through (answering_keeps told _ _)
  enter := by
    intro phase s h came before source e hnow hf
    exact hf

/-! ## What happens on the link -/

/-- A party that is over does not go on. -/
theorem Party.IsOver.quiet {σ ρ : Type} {c : Course σ ρ} {p q : Party σ ρ} (h : p.IsOver) :
    ¬ c.Leads p q := by
  intro hlead
  obtain ⟨r, hr⟩ | ⟨err, herr⟩ := h
  · cases hlead with
    | move going => exact going _ hr
    | fail going move =>
        obtain rfl : _ = Dialogue.done (Next.ended r) := hr
        cases move
    | turn => cases hr
  · cases hlead with
    | move going move =>
        obtain rfl : _ = Dialogue.fail err := herr
        cases move
    | fail going => exact going _ herr
    | turn => cases herr

/-- A party that goes on takes nothing back. -/
theorem Course.Leads.sent_prefix {σ ρ : Type} {c : Course σ ρ} {p q : Party σ ρ}
    (h : c.Leads p q) : p.sent <+: q.sent := by
  rcases h.endpoint_cases with hq | ⟨s, rfl⟩
  · have hframe := (p.rest.move_frame p.phase p.endpoint).2.1
    unfold Party.sent
    rw [hq]
    exact hframe
  · have hsent : (c.enter s p.endpoint).wire.sent = p.sent := by rw [c.enter_wire, Party.sent]
    exact ⟨[], (List.append_nil _).trans hsent.symm⟩

/-- What a party sends by going on is in the pipe behind what was there. -/
theorem Course.Leads.sent_take {σ ρ : Type} {c : Course σ ρ} {p q : Party σ ρ} {came : Bytes}
    {pipe : Pipe} (h : c.Leads p q) (hsent : p.sent = came ++ pipe.flight) :
    q.sent = came ++ (pipe.take p q).flight := by
  obtain ⟨more, hmore⟩ := h.sent_prefix
  rw [Pipe.take, ← List.append_assoc, ← hsent, ← hmore, List.drop_left]

namespace Encounter

variable {x : Encounter} {l l2 : Link}

/-- Either side keeps to its course, on which it was brought by what came to it; what
it sent came to the other side or is in the pipe; and a pipe is closed only if it is empty
and the side behind it over. -/
structure Sound (x : Encounter) (l : Link) : Prop where
  client : ∃ came,
    Course.Follows (ClientOn x.clientCookie x.info) came x.clientSupply l.toClient.isOpen l.client ∧
      x.clientCourse.Played .authenticating x.clientSupply came l.toClient.isOpen l.client ∧
      l.relay.sent = came ++ l.toClient.flight
  relay : ∃ came,
    Course.Follows (RelayOn x.relayCookie x.accept) came x.relaySupply l.toRelay.isOpen l.relay ∧
      x.relayCourse.Played .authenticating x.relaySupply came l.toRelay.isOpen l.relay ∧
      l.client.sent = came ++ l.toRelay.flight
  closedToRelay : l.toRelay.isOpen = false → l.client.IsOver ∧ l.toRelay.flight = []
  closedToClient : l.toClient.isOpen = false → l.relay.IsOver ∧ l.toClient.flight = []

theorem sound_start (x : Encounter) : x.Sound x.start where
  client := by
    refine ⟨[], .going (h := .fresh .awaitAuthTypes) ?_ ?_ ?_, ⟨[], rfl, .refl⟩, rfl⟩
    · exact (client_keeps x.clientCookie).map _ fun m h now => .authenticating now
    · exact Account.Fits.begin x.start.client.endpoint
    · exact Course.arrive_calm _ _ (Endpoint.awaiting_calm [] true x.clientSupply)
  relay := by
    refine ⟨[], .going (h := .fresh .awaitAuthTypes) ?_ ?_ ?_, ⟨[], rfl, .refl⟩, rfl⟩
    · exact (relay_keeps x.relayCookie .awaitAuthTypes).map _ fun m h now => .authenticating now
    · exact Account.Fits.begin x.start.relay.endpoint
    · exact Course.arrive_calm _ _ (Endpoint.awaiting_calm [] true x.relaySupply)
  closedToRelay := nofun
  closedToClient := nofun

/-- **Whatever happens next keeps the link sound.** -/
theorem Sound.step (hs : x.Sound l) (h : x.Step l l2) : x.Sound l2 := by
  obtain ⟨⟨cameC, hclient, hplayC, hsentR⟩, ⟨cameR, hrelay, hplayR, hsentC⟩, hclosedR,
    hclosedC⟩ := hs
  cases h with
  | client leads =>
      exact {
        client := ⟨cameC, hclient.leads (clientCourse_keeps _ _) leads, hplayC.leads leads, hsentR⟩
        relay := ⟨cameR, hrelay, hplayR, leads.sent_take hsentC⟩
        closedToRelay := fun hclosed => absurd leads (hclosedR hclosed).1.quiet
        closedToClient := hclosedC }
  | relay leads =>
      exact {
        client := ⟨cameC, hclient, hplayC, leads.sent_take hsentR⟩
        relay := ⟨cameR, hrelay.leads (relayCourse_keeps _ _) leads, hplayR.leads leads, hsentC⟩
        closedToRelay := hclosedR
        closedToClient := fun hclosed => absurd leads (hclosedC hclosed).1.quiet }
  | @toRelay piece rest some front =>
      have hopen : l.toRelay.isOpen = true := by
        cases hclosed : l.toRelay.isOpen with
        | true => rfl
        | false =>
            have hnil := (hclosedR hclosed).2
            rw [front, List.append_eq_nil_iff] at hnil
            exact absurd hnil.1 some
      rw [hopen] at hrelay hplayR
      exact {
        client := ⟨cameC, hclient, hplayC, hsentR⟩
        relay := ⟨cameR ++ piece, hopen ▸ hrelay.deliver piece, hopen ▸ hplayR.deliver piece, by
          rw [hsentC, front, List.append_assoc]⟩
        closedToRelay := fun hclosed => absurd (hopen.symm.trans hclosed) nofun
        closedToClient := hclosedC }
  | @toClient piece rest some front =>
      have hopen : l.toClient.isOpen = true := by
        cases hclosed : l.toClient.isOpen with
        | true => rfl
        | false =>
            have hnil := (hclosedC hclosed).2
            rw [front, List.append_eq_nil_iff] at hnil
            exact absurd hnil.1 some
      rw [hopen] at hclient hplayC
      exact {
        client := ⟨cameC ++ piece, hopen ▸ hclient.deliver piece, hopen ▸ hplayC.deliver piece, by
          rw [hsentR, front, List.append_assoc]⟩
        relay := ⟨cameR, hrelay, hplayR, hsentC⟩
        closedToRelay := hclosedR
        closedToClient := fun hclosed => absurd (hopen.symm.trans hclosed) nofun }
  | closeToRelay ended nothing still =>
      rw [still] at hrelay hplayR
      exact {
        client := ⟨cameC, hclient, hplayC, hsentR⟩
        relay := ⟨cameR, hrelay.hangUp, hplayR.hangUp, by rw [hsentC, nothing]⟩
        closedToRelay := fun _ => ⟨ended, rfl⟩
        closedToClient := hclosedC }
  | closeToClient ended nothing still =>
      rw [still] at hclient hplayC
      exact {
        client := ⟨cameC, hclient.hangUp, hplayC.hangUp, by rw [hsentR, nothing]⟩
        relay := ⟨cameR, hrelay, hplayR, hsentC⟩
        closedToRelay := hclosedR
        closedToClient := fun _ => ⟨ended, rfl⟩ }

theorem Reaches.sound (h : x.Reaches x.start l) : x.Sound l := by
  induction h with
  | refl => exact sound_start x
  | tail _ hstep ih => exact ih.step hstep

/-! ## What either side returns -/

/-- What `negotiate` returns where the client of a link is: given what came to the client,
cut into pieces in some way, it ends so and sends what the client has sent, whatever the
deadline, as it never has to wait. -/
def ClientReturns (x : Encounter) (l : Link) (r : Ending Error Unit) : Prop :=
  ∃ pieces : List Bytes, pieces.flatten ++ l.toClient.flight = l.relay.sent ∧ ∀ limit,
    let o := (Endpoint.awaiting pieces l.toClient.isOpen x.clientSupply).negotiate
      x.clientCookie x.info limit
    o.1 = r ∧ o.2.wire.sent = l.client.sent

/-- What `serve` returns where the relay of a link is, in the same sense. -/
def RelayReturns (x : Encounter) (l : Link) (r : Ending Error Announced) : Prop :=
  ∃ pieces : List Bytes, pieces.flatten ++ l.toRelay.flight = l.client.sent ∧
    let o := (Endpoint.awaiting pieces l.toRelay.isOpen x.relaySupply).serve
      x.relayCookie x.accept
    o.1 = r ∧ o.2.wire.sent = l.relay.sent

/-- The client of a link has come to its end, with this result. -/
structure ClientEnds (x : Encounter) (l : Link) (r : Ending Error Unit) : Prop where
  /-- The client of this very link is where its moves end, and they end so. -/
  finishes : x.clientCourse.Finishes l.client (r, l.client.endpoint)
  /-- And so does the call. -/
  returns : x.ClientReturns l r

/-- The relay of a link has come to its end, with this result. -/
structure RelayEnds (x : Encounter) (l : Link) (r : Ending Error Announced) : Prop where
  finishes : x.relayCourse.Finishes l.relay (r, l.relay.endpoint)
  returns : x.RelayReturns l r

/-- Where the client's moves end, `negotiate` returns. -/
theorem Sound.client_returns (hs : x.Sound l) {r : Ending Error Unit} (hends : r ≠ .stuck)
    (hf : x.clientCourse.Finishes l.client (r, l.client.endpoint)) : x.ClientReturns l r := by
  obtain ⟨came, hfollows, hplayed, hsent⟩ := hs.client
  obtain ⟨pieces, rfl, hfinish⟩ := hplayed.finishes hf
  refine ⟨pieces, hsent.symm, ?_⟩
  intro limit
  rcases hx : (Endpoint.awaiting pieces l.toClient.isOpen x.clientSupply).exchange
    x.clientCookie x.info with ⟨r2, after⟩
  obtain ⟨last, hfinish2, hwire⟩ := exchange_finishes x.clientCookie x.info
    (.awaiting pieces l.toClient.isOpen x.clientSupply)
  rw [hx] at hfinish2 hwire
  obtain ⟨rfl, rfl⟩ := Prod.mk.inj (hfinish2.unique hfinish)
  have hclock : after.wire.clock = 0 := by rw [hwire, hfollows.calm.clock]
  have hin : ¬ r2.Outlasts limit 0 after.wire.clock := by
    rintro (hstuck | ⟨hlt, -⟩)
    · exact hends hstuck
    · exact absurd hclock (Nat.ne_of_gt hlt)
  obtain ⟨hresult, hafter⟩ := Endpoint.returns_of_exchange
    (e := .awaiting pieces l.toClient.isOpen x.clientSupply) hx hin
  refine ⟨hresult, ?_⟩
  rw [hafter, hwire]
  rfl

/-- Where the relay's moves end, `serve` returns. -/
theorem Sound.relay_returns (hs : x.Sound l) {r : Ending Error Announced}
    (hf : x.relayCourse.Finishes l.relay (r, l.relay.endpoint)) : x.RelayReturns l r := by
  obtain ⟨came, -, hplayed, hsent⟩ := hs.relay
  obtain ⟨pieces, rfl, hfinish⟩ := hplayed.finishes hf
  have hfinish2 := serve_finishes x.relayCookie x.accept
    (.awaiting pieces l.toRelay.isOpen x.relaySupply)
  have hserve := hfinish2.unique hfinish
  refine ⟨pieces, hsent.symm, ?_, ?_⟩
  · rw [hserve]
  · rw [hserve]
    rfl

theorem Sound.client_ends (hs : x.Sound l) {r : Ending Error Unit} (hends : r ≠ .stuck)
    (hf : x.clientCourse.Finishes l.client (r, l.client.endpoint)) : x.ClientEnds l r :=
  ⟨hf, hs.client_returns hends hf⟩

theorem Sound.relay_ends (hs : x.Sound l) {r : Ending Error Announced}
    (hf : x.relayCourse.Finishes l.relay (r, l.relay.endpoint)) : x.RelayEnds l r :=
  ⟨hf, hs.relay_returns hf⟩

end Encounter

end ManagedTransport
