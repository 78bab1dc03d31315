import ManagedTransport.Proofs.Frames
import ManagedTransport.Proofs.Outcome
import ManagedTransport.Proofs.Position

/-!
# Who broke the protocol

A client that reports a breach of the protocol says that its peer is at fault.  The octets
that it has received bear that out in every case but one: a transport whose name does not
fit into a command is reported in the same way, although the peer has done nothing wrong.

* `Breach`, `Blamed` — what a peer can do wrong, and that it has done so;
* `negotiate_blames` — a reported breach is the peer's, or the name does not fit;
* `RelayOn.said_front`, `never_blamed` — nothing that a relay does is wrong;
* `Sound.returns_tooLong` — a client whose name does not fit always reports a breach to a
  relay with the same cookie;
* `violation_iff_fits` — so a reported breach is the peer's exactly if the name fits.
-/

namespace ManagedTransport

open SafeCookie

/-- What a peer can do wrong, by the octets that were received from it and those among them
that were read ahead while authenticating: it goes on naming auth types when there is no
room for more; octets are read ahead behind the status of success; or it replies to the
announcements with a frame that is neither OKAY nor DENY. -/
inductive Breach : (received ahead : Bytes) → Prop
  | unended {types more ahead} (nonzero : 0 ∉ types) (full : types.length = maxAuthTypes) :
      Breach (types ++ more) ahead
  | ahead {types hash ns behind} (offer : Offered types) (longHash : hash.length = 32)
      (longNonce : ns.length = 32) (more : behind ≠ []) :
      Breach (acceptance types hash ns ++ behind) behind
  | reply {types hash ns ahead} {f : Frame} (offer : Offered types) (longHash : hash.length = 32)
      (longNonce : ns.length = 32) (notOkay : f.code ≠ CommandId.okay.code)
      (notDeny : f.code ≠ CommandId.deny.code) :
      Breach (acceptance types hash ns ++ f.octets) ahead

/-- The peer of a client that set out at `e` and now stands at `after` did something wrong:
the octets that are gone from the wire say so. -/
def Endpoint.Blamed (e : Endpoint) (cookie : Cookie) (after : Endpoint) : Prop :=
  ∃ received, e.wire.pending = received ++ after.wire.pending ∧
    Breach received (e.handshake cookie).2.held

namespace Endpoint

variable {cookie : Cookie} {info : SessionInfo} {e after : Endpoint} {err : Error}

/-- A client that reports a breach while it authenticates has been sent one. -/
theorem handshake_blames (hfailed : e.handshake cookie = (.failed err, after))
    (hkind : err.kind = .protocolViolation) : e.Blamed cookie after := by
  obtain ⟨h, hrests, hf⟩ := e.handshake_account cookie
  rw [hfailed] at hrests hf
  have hpending : e.wire.pending = h.heard ++ (after.held ++ after.wire.pending) := hf.heard.symm
  rw [← List.append_assoc] at hpending
  have hheld : (e.handshake cookie).2.held = after.held := by rw [hfailed]
  refine ⟨_, hpending, ?_⟩
  rw [hheld]
  rcases hrests with hat | ⟨fault, rfl, -⟩
  · cases hat with
    | tooLong nonzero full => exact .unended nonzero full
    | @trailing types nc ns n offer long longNonce more =>
        refine .ahead offer (length_serverHash _ _ _) longNonce ?_
        intro hnil
        apply more
        rw [← hf.left n rfl, hnil]
        rfl
    | notOffered | mismatch | rejected => cases hkind
  · cases hkind

/-- What comes of a reply is a breach only if it is neither OKAY nor DENY. -/
theorem codes_of_outcome {code : Nat} (houtcome : SessionInfo.outcome code = .error err)
    (hkind : err.kind = .protocolViolation) :
    code ≠ CommandId.okay.code ∧ code ≠ CommandId.deny.code := by
  constructor
  · rintro rfl
    cases houtcome
  · rintro rfl
    cases houtcome
    cases hkind

/-- A client that reports a breach while it sets the session up has been sent a reply that is
one, or cannot announce its transport. -/
theorem setup_blames (hdirect : e.Direct) (hfailed : e.setup info = (.failed err, after))
    (hkind : err.kind = .protocolViolation) :
    (∃ f : Frame, f.code ≠ CommandId.okay.code ∧ f.code ≠ CommandId.deny.code ∧
      e.wire.pending = f.octets ++ after.wire.pending) ∨
    ¬ info.Fits ∧ err = .protocol (.commandTooLong (Text.utf8 info.method).length) := by
  obtain ⟨h, hrests, hf⟩ := e.setup_account info
  have hdirect2 := hdirect.hold .setup info.setup
  rw [show info.setup.hold .setup e = _ from hfailed] at hdirect2
  rw [hfailed] at hrests hf
  have hpending : e.wire.pending = h.heard ++ after.wire.pending := by
    rw [← hdirect.pending_eq, ← hdirect2.pending_eq, hf.heard]
  rcases hrests with hat | ⟨fault, rfl, -⟩
  · cases hat with
    | tooLong long => exact .inr ⟨long, rfl⟩
    | refused fits four whole other =>
        obtain ⟨f, hoctets, hcode, -⟩ := Frame.exists_of_header four whole
        obtain ⟨notOkay, notDeny⟩ := codes_of_outcome other hkind
        rw [← hcode] at notOkay notDeny
        exact .inl ⟨f, notOkay, notDeny, hoctets ▸ hpending⟩
  · cases hkind

/-- **A breach that is reported is the peer's**, or the name of the transport does not fit. -/
theorem negotiate_blames {limit : Nat}
    (hfailed : e.negotiate cookie info limit = (.failed err, after))
    (hkind : err.kind = .protocolViolation) :
    (e.hurried limit).Blamed cookie after ∨
      ¬ info.Fits ∧ err = .protocol (.commandTooLong (Text.utf8 info.method).length) := by
  obtain ⟨hwire, hresult⟩ := e.negotiate_eq cookie info limit
  rw [hfailed] at hwire hresult
  rcases hh : (e.hurried limit).handshake cookie with ⟨_ | err2 | _ | _, mid⟩
  all_goals simp only [exchange, authenticate, hh] at hwire hresult
  case done =>
    obtain ⟨hheld, types, ns, offer, longNonce, hpending⟩ := acceptance_of_handshake hh
    rcases hs : mid.dropAhead.setup info with ⟨_ | err2 | _ | _, last⟩
    all_goals simp only [hs] at hwire hresult
    case failed =>
      cases hresult
      rcases setup_blames ⟨rfl, rfl⟩ hs hkind with ⟨f, notOkay, notDeny, hreply⟩ | hlong
      · have hreceived : (e.hurried limit).wire.pending =
            (acceptance types (serverHash cookie.secret (e.hurried limit).supply.draw.1 ns) ns ++
              f.octets) ++ after.wire.pending := by
          rw [hpending, hwire, List.append_assoc, ← hreply]
          rfl
        exact .inl ⟨_, hreceived,
          .reply offer (length_serverHash _ _ _) longNonce notOkay notDeny⟩
      · exact .inr hlong
    case done => cases hresult
    all_goals
      cases hresult
      cases hkind
  case failed =>
    cases hresult
    obtain ⟨received, hpending, hbreach⟩ := handshake_blames hh hkind
    rw [show mid.wire = after.wire from hwire.symm] at hpending
    exact .inl ⟨received, hpending, hbreach⟩
  all_goals
    cases hresult
    cases hkind

end Endpoint

/-! ## A relay does nothing wrong -/

/-- A relay that serves says octets of its verdict. -/
theorem ServingAt.said_prefix {accept : Bool} {m : Moment (Next RelayCall Announced)} {h : Account}
    (hat : ServingAt accept m h) : h.said <+: (verdict accept).octets := by
  cases hat with
  | inHeader | inBody | unknown | breach | heard | complete => exact List.nil_prefix
  | answering told part => exact part
  | answered told => exact List.prefix_refl _

/-- **What a relay has said** is from the front of its offer, a hash and a nonce, a status and
its verdict; and it says nothing of the verdict before it has heard more than a client says
to authenticate. -/
theorem RelayOn.said_front {cookie : Cookie} {accept : Bool} {phase : Phase}
    {m : Moment (Next RelayCall Announced)} {h : Account} (hat : RelayOn cookie accept phase m h) :
    ∃ hash ns status p, hash.length = 32 ∧ ns.length = 32 ∧ p <+: (verdict accept).octets ∧
      (p ≠ [] → 65 < h.heard.length) ∧
      h.said <+: [safeCookie] ++ 0 :: (hash ++ (ns ++ status :: p)) := by
  have hnone : ∀ heard : Bytes, ([] : Bytes) ≠ [] → 65 < heard.length := fun _ h => absurd rfl h
  have hlen : (Bytes.zeros 32).length = 32 := List.length_replicate
  have hoffer : ∀ {said more : Bytes}, said <+: more →
      safeCookie :: 0 :: said <+: [safeCookie] ++ 0 :: more :=
    fun hpart => (List.prefix_append_right_inj [safeCookie, 0]).mpr hpart
  cases hat with
  | @authenticating m h now =>
      rcases now.said_cases with ⟨hsaid, -⟩ |
        ⟨nc, ns, rest, -, longNonce, -, -, ⟨p, hp, hsaid⟩ | ⟨p, hsaid, hp⟩⟩
      · refine ⟨Bytes.zeros 32, Bytes.zeros 32, 0, [], hlen, hlen, List.nil_prefix, hnone _, ?_⟩
        exact hsaid.trans ⟨_, rfl⟩
      · refine ⟨serverHash cookie.secret nc ns, ns, 0, [], length_serverHash _ _ _, longNonce,
          List.nil_prefix, hnone _, ?_⟩
        rw [hsaid, ← List.append_assoc]
        exact hoffer (hp.trans (List.prefix_append _ _))
      · obtain ⟨status, hstatus⟩ : ∃ status : UInt8, p <+: [status] := by
          rcases hp with ⟨-, hp⟩ | hp
          · exact ⟨success, hp⟩
          · exact ⟨failure, hp⟩
        refine ⟨serverHash cookie.secret nc ns, ns, status, [], length_serverHash _ _ _, longNonce,
          List.nil_prefix, hnone _, ?_⟩
        rw [hsaid]
        refine hoffer ?_
        rw [List.prefix_append_right_inj, List.prefix_append_right_inj]
        exact hstatus
  | @serving m first rest through now =>
      cases through with
      | @through nc ns s l long longNonce =>
          refine ⟨serverHash cookie.secret nc ns, ns, success, rest.said, length_serverHash _ _ _,
            longNonce, now.said_prefix, ?_, ?_⟩
          · intro hsaid
            have hheard : rest.heard ≠ [] := fun hnil => hsaid (now.said_nothing hnil)
            have hpos := List.length_pos_of_ne_nil hheard
            simp only [Account.andThen, List.length_append, List.length_cons, long,
              length_clientHash]
            omega
          · simp only [Account.andThen, List.cons_append, List.append_assoc, List.nil_append]
            exact List.prefix_refl _

/-- What stands behind an acceptance that a relay has said is from the front of the verdict. -/
theorem behind_acceptance {types hash ns hash2 ns2 more p : Bytes} {status : UInt8}
    (nonzero : 0 ∉ types) (longHash : hash.length = 32) (longNonce : ns.length = 32)
    (longHash2 : hash2.length = 32) (longNonce2 : ns2.length = 32)
    (hfront : acceptance types hash ns ++ more <+:
      [safeCookie] ++ 0 :: (hash2 ++ (ns2 ++ status :: p))) : more <+: p := by
  have nonzero2 : (0 : UInt8) ∉ [safeCookie] := by decide
  obtain ⟨rest, hrest⟩ := hfront
  simp only [acceptance, List.append_assoc, List.cons_append] at hrest
  obtain ⟨-, hbehind⟩ := Bytes.split_at_zero nonzero nonzero2 hrest
  obtain ⟨-, -, hstatus⟩ := told_apart longHash longHash2 longNonce longNonce2 hbehind
  exact ⟨rest, (List.cons.inj hstatus).2⟩

/-- **What a relay says is no breach**, unless some of the verdict was read ahead. -/
theorem Breach.of_relay {received ahead hash ns p : Bytes} {status : UInt8} {accept : Bool}
    (hbreach : Breach received ahead) (longHash : hash.length = 32) (longNonce : ns.length = 32)
    (hp : p <+: (verdict accept).octets)
    (hfront : received <+: [safeCookie] ++ 0 :: (hash ++ (ns ++ status :: p))) :
    ahead ≠ [] ∧ p ≠ [] := by
  cases hbreach with
  | @unended types more ahead nonzero full =>
      exfalso
      rcases types with _ | ⟨a, _ | ⟨b, types⟩⟩
      · cases full
      · cases full
      · obtain ⟨rest, hrest⟩ := hfront
        obtain ⟨-, rfl, -⟩ : a = safeCookie ∧ b = 0 ∧ _ := by simpa using hrest
        simp at nonzero
  | @ahead types hash2 ns2 behind offer longHash2 longNonce2 more =>
      refine ⟨more, ?_⟩
      rintro rfl
      exact more (List.prefix_nil.mp
        (behind_acceptance offer.nonzero longHash2 longNonce2 longHash longNonce hfront))
  | @reply types hash2 ns2 ahead f offer longHash2 longNonce2 notOkay notDeny =>
      exfalso
      have hreply := behind_acceptance offer.nonzero longHash2 longNonce2 longHash longNonce hfront
      obtain ⟨rest, hrest⟩ := hreply.trans hp
      obtain ⟨header, four, hoctets, hcode, -⟩ := f.header_of_octets
      rw [hoctets, List.append_assoc, ← List.append_nil (verdict accept).octets] at hrest
      obtain ⟨hsame, -⟩ := Command.header_of_octets (Nat.zero_le _) four hrest.symm
      rw [hcode] at hsame
      cases accept
      · exact notDeny hsame
      · exact notOkay hsame

namespace Encounter

variable {x : Encounter} {l : Link}

/-- **A relay is never to blame** for what a client reports that was sent what the relay has
said, in whatever pieces it came. -/
theorem Sound.never_blamed (hs : x.Sound l) {pieces : List Bytes} {limit : Nat} {e : Endpoint}
    (hcame : pieces.flatten ++ l.toClient.flight = l.relay.sent)
    (he : e = .awaiting pieces l.toClient.isOpen x.clientSupply)
    (hsent : (e.negotiate x.clientCookie x.info limit).2.wire.sent = l.client.sent) :
    ¬ (e.hurried limit).Blamed x.clientCookie (e.negotiate x.clientCookie x.info limit).2 := by
  intro hblamed
  obtain ⟨received, hreceived, hbreach⟩ := hblamed
  obtain ⟨came, hfollows, -, hsentC⟩ := hs.relay
  obtain ⟨m, h, hat, hfits⟩ := hfollows.now
  obtain ⟨hash, ns, status, p, longHash, longNonce, hp, hheard, hfront⟩ := hat.said_front
  have hpending : (e.hurried limit).wire.pending = pieces.flatten := by
    rw [he]
    exact Wire.pending_calm l.toClient.isOpen pieces
  have hsaid : received <+: h.said := by
    have hrelay : l.relay.sent = h.said := hfits.said
    rw [← hrelay, ← hcame, ← hpending, hreceived, List.append_assoc]
    exact List.prefix_append _ _
  obtain ⟨hahead, hverdict⟩ := hbreach.of_relay longHash longNonce hp (hsaid.trans hfront)
  -- the relay has heard more than a client says before it is done authenticating
  have hlong : 66 ≤ l.client.sent.length := by
    have hlen := congrArg List.length hfits.heard
    have hlen2 := congrArg List.length hsentC
    have hmore := hheard hverdict
    rw [List.length_append] at hlen hlen2
    omega
  obtain ⟨hwire, -⟩ := Endpoint.negotiate_eq x.clientCookie x.info limit e
  obtain ⟨written, ns2, hwritten, -, -, hearned⟩ :=
    exchange_writes x.clientCookie x.info (e.hurried limit)
  have hnone : (e.hurried limit).wire.sent = [] := by
    rw [he]
    rfl
  rw [← hwire, hsent, hnone, List.nil_append] at hwritten
  rw [hwritten] at hlong
  obtain ⟨-, -, mid, -, -, hdone, hheld, -⟩ := hearned.status hlong
  rw [hdone] at hahead
  exact hahead hheld

/-- **A client whose transport does not fit** reports a breach to a relay with the same
cookie, whenever nothing can happen any more. -/
theorem Sound.returns_tooLong (hs : x.Sound l) (same : x.clientCookie = x.relayCookie)
    (long : ¬ x.info.Fits) (hrest : ∀ l2, ¬ x.Step l l2) :
    x.ClientReturns l (.failed (.protocol (.commandTooLong (Text.utf8 x.info.method).length))) := by
  obtain ⟨-, -, -, m, m2, hends, -, hagreed⟩ := hs.resting hrest
  generalize l.relay.phase = phase at hagreed
  cases hagreed with
  | strangeServer differ => exact absurd (by rw [same]) differ
  | strangeClient _ differ => exact absurd (by rw [same]) differ
  | through _ _ now =>
      cases now with
      | announcing => cases hends
      | tooLong =>
          obtain ⟨-, hfinish⟩ := hends.finishes_gaveUp
          exact hs.client_returns nofun hfinish
      | awaitingHeader fits | awaitingBody fits | accepted fits | refused fits =>
          exact absurd fits long

/-- Two sides with one cookie that come together over a session. -/
def together (cookie : Cookie) (info : SessionInfo) : Encounter where
  clientCookie := cookie
  relayCookie := cookie
  info := info
  accept := true
  clientSupply := .fresh []
  relaySupply := .fresh []

/-- A client whose transport does not fit, and a relay with the same cookie, come to a link on
which the client reports a breach that is not the relay's. -/
theorem exists_unjust (same : x.clientCookie = x.relayCookie) (long : ¬ x.info.Fits) :
    ∃ l, x.Reaches x.start l ∧
      x.ClientReturns l (.failed (.protocol (.commandTooLong (Text.utf8 x.info.method).length))) ∧
      ∃ e : Endpoint, ∀ limit,
        (e.negotiate x.clientCookie x.info limit).1 =
          .failed (.protocol (.commandTooLong (Text.utf8 x.info.method).length)) ∧
        ¬ (e.hurried limit).Blamed x.clientCookie (e.negotiate x.clientCookie x.info limit).2 := by
  obtain ⟨l, hreach, hrest⟩ := x.exists_resting
  have hs := hreach.sound
  have hreturns := hs.returns_tooLong same long hrest
  refine ⟨l, hreach, hreturns, ?_⟩
  obtain ⟨pieces, hcame, hnegotiates⟩ := hreturns
  refine ⟨.awaiting pieces l.toClient.isOpen x.clientSupply, ?_⟩
  intro limit
  obtain ⟨hresult, hsent⟩ := hnegotiates limit
  exact ⟨hresult, hs.never_blamed hcame rfl hsent⟩

/-- **Who broke the protocol.**  Whatever the wire does, when a client reports a breach of the
protocol the octets that it has received are one, or the name of its own transport does not
fit into a command.  So a reported breach is the peer's, whoever that is, exactly if the
name fits; and exactly then a client never reports one to a relay with its cookie. -/
theorem violation_iff_fits (cookie : Cookie) (info : SessionInfo) :
    (∀ (e : Endpoint) (limit : Nat) (err : Error) (after : Endpoint),
      e.negotiate cookie info limit = (.failed err, after) → err.kind = .protocolViolation →
        (e.hurried limit).Blamed cookie after ∨
          ¬ info.Fits ∧ err = .protocol (.commandTooLong (Text.utf8 info.method).length)) ∧
    ((∀ (e : Endpoint) (limit : Nat) (err : Error) (after : Endpoint),
      e.negotiate cookie info limit = (.failed err, after) → err.kind = .protocolViolation →
        (e.hurried limit).Blamed cookie after) ↔ info.Fits) ∧
    ∀ x : Encounter, x.clientCookie = cookie → x.relayCookie = cookie → x.info = info →
      ((∀ l err, x.Reaches x.start l → x.ClientReturns l (.failed err) →
        err.kind ≠ .protocolViolation) ↔ info.Fits) := by
  refine ⟨?_, ⟨?_, ?_⟩, ?_⟩
  · intro e limit err after hfailed hkind
    exact Endpoint.negotiate_blames hfailed hkind
  · intro hjust
    apply Decidable.byContradiction
    intro long
    obtain ⟨-, -, -, e, hunjust⟩ := exists_unjust (x := together cookie info) rfl long
    obtain ⟨hfailed, hnot⟩ := hunjust 0
    exact hnot (hjust e 0 _ _ (Prod.ext hfailed rfl) rfl)
  · intro fits e limit err after hfailed hkind
    rcases Endpoint.negotiate_blames hfailed hkind with hblamed | ⟨long, -⟩
    · exact hblamed
    · exact absurd fits long
  · intro x hclient hrelay hinfo
    subst hclient hinfo
    constructor
    · intro hnever
      apply Decidable.byContradiction
      intro long
      obtain ⟨l, hreach, hreturns, -⟩ := exists_unjust hrelay.symm long
      exact hnever l _ hreach hreturns rfl
    · intro fits l err hreach hreturns hkind
      obtain ⟨pieces, hcame, hnegotiates⟩ := hreturns
      obtain ⟨hresult, hsent⟩ := hnegotiates 0
      rcases Endpoint.negotiate_blames (Prod.ext hresult rfl) hkind with hblamed | ⟨long, -⟩
      · exact hreach.sound.never_blamed hcame rfl hsent hblamed
      · exact long fits

/-- A client that is sent as many auth types as there is room for, and no zero behind them. -/
def flooded : Endpoint :=
  .ofWire (.ofArrivals [.data (List.replicate maxAuthTypes safeCookie)]) (.fresh [])

/-- **The client that is sent no zero** reports a breach, and the octets bear it out. -/
theorem flooded_blames :
    greeting.info.Fits ∧
      ∃ after, flooded.negotiate greeting.clientCookie greeting.info 30000 =
          (.failed (.protocol (.authTypesTooLong 256)), after) ∧
        (flooded.hurried 30000).Blamed greeting.clientCookie after := by
  have fits : greeting.info.Fits := by decide
  have hfailed : (flooded.negotiate greeting.clientCookie greeting.info 30000).1 =
      .failed (.protocol (.authTypesTooLong 256)) := by decide +kernel
  obtain ⟨-, hjust, -⟩ := violation_iff_fits greeting.clientCookie greeting.info
  have hblamed := hjust.mpr fits flooded 30000
  generalize flooded.negotiate greeting.clientCookie greeting.info 30000 = returned at *
  obtain ⟨result, after⟩ := returned
  obtain rfl : result = .failed (.protocol (.authTypesTooLong 256)) := hfailed
  exact ⟨fits, after, rfl, hblamed _ _ rfl rfl⟩

/-- A name of so many letters a. -/
def nameOf (n : Nat) : String := .ofList (List.replicate n 'a')

theorem length_nameOf (n : Nat) : (Text.utf8 (nameOf n)).length = n := by
  have hletter : String.utf8EncodeChar 'a' = [0x61] := rfl
  rw [Text.utf8, nameOf, String.toList_ofList]
  induction n with
  | zero => rfl
  | succ n ih =>
      rw [List.replicate_succ, List.flatMap_cons, List.length_append, ih, hletter]
      exact Nat.add_comm 1 n

/-- A client with a transport whose name is one octet too long, and a relay with the same
cookie. -/
def longNamed : Encounter where
  clientCookie := greeting.clientCookie
  relayCookie := greeting.relayCookie
  info := ⟨.v4 ⟨192, 0, 2, 7⟩ 443, nameOf 65536⟩
  accept := true
  clientSupply := .fresh [1]
  relaySupply := .fresh [2]

/-- **The client with the long name** reports a breach, and its relay has done nothing wrong. -/
theorem longNamed_unjust :
    longNamed.clientCookie = longNamed.relayCookie ∧
      (Error.protocol (.commandTooLong 65536)).kind = .protocolViolation ∧
      ∃ l, longNamed.Reaches longNamed.start l ∧
        longNamed.ClientReturns l (.failed (.protocol (.commandTooLong 65536))) ∧
        ∃ e : Endpoint, ∀ limit,
          (e.negotiate longNamed.clientCookie longNamed.info limit).1 =
            .failed (.protocol (.commandTooLong 65536)) ∧
          ¬ (e.hurried limit).Blamed longNamed.clientCookie
            (e.negotiate longNamed.clientCookie longNamed.info limit).2 := by
  have hlen : (Text.utf8 longNamed.info.method).length = 65536 := length_nameOf 65536
  have long : ¬ longNamed.info.Fits := by
    rw [SessionInfo.Fits, hlen]
    decide
  obtain ⟨l, hreach, hreturns, hunjust⟩ := exists_unjust (x := longNamed) rfl long
  rw [hlen] at hreturns hunjust
  exact ⟨rfl, rfl, l, hreach, hreturns, hunjust⟩

end Encounter

end ManagedTransport
