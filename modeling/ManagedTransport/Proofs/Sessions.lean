import ManagedTransport.Proofs.ClientSide
import ManagedTransport.Proofs.RelaySide

/-!
# Sessions on a hostile network

Any number of clients and relays authenticate with one cookie, each on a stream
of its own.  The network belongs to an adversary: it sees all that is sent,
brings each session whatever octets it likes, cut and delayed as it likes, and
lets writes fail or fall short.

* `Session.Acts`, `Session.Receives` — what a session does, and what the
  network does to it;
* `Session.Passed`, `Proved`, `Accepted`, `SentHash` — what can be seen of a
  session's past;
* `Session.Sound` — a session is always where `ClientAt` or `RelayAt` says, so
  that what is seen of it tells what it heard, said and drew.
-/

namespace ManagedTransport

open SafeCookie

/-- The two sides of authentication. -/
inductive Side where
  | client
  | relay
deriving DecidableEq

/-- A party that authenticates on a stream of its own. -/
structure Session where
  side : Side
  /-- The random supply as it was at the beginning. -/
  source : Supply
  /-- All octets that the network has brought. -/
  came : Bytes
  /-- What is left to do. -/
  rest : Dialogue Unit
  endpoint : Endpoint

namespace Session

/-- A session that is about to begin; nothing has come yet. -/
def begin (cookie : Cookie) (supply : Supply) : Side → Session
  | .client => ⟨.client, supply, [], client cookie,
    { Endpoint.ofWire (Wire.ofArrivals [.stall]) supply with window := readAheadSize }⟩
  | .relay => ⟨.relay, supply, [], relay cookie,
    Endpoint.ofWire (Wire.ofArrivals [.stall]) supply⟩

/-- A session makes a move; a move may fail. -/
inductive Acts (s : Session) : Session → Prop
  | move {d e} (move : s.rest.move .authentication s.endpoint = (.done d, e)) :
      Acts s { s with rest := d, endpoint := e }
  | fail {err e} (move : s.rest.move .authentication s.endpoint = (.failed err, e)) :
      Acts s { s with rest := .fail err, endpoint := e }

/-- The network brings octets, and settles anew how those that are not read yet
are cut and delayed, and how reading and writing will fail. -/
inductive Receives (s : Session) : Session → Prop
  | bring {bs w} (log : w.log = s.endpoint.wire.log)
      (pending : w.pending = s.endpoint.wire.pending ++ bs) :
      Receives s { s with came := s.came ++ bs, endpoint := { s.endpoint with wire := w } }

/-! ## What can be seen of a session -/

/-- The octets that the party was given. -/
def heard (s : Session) : Bytes := s.came.take (s.came.length - s.endpoint.unread)

/-- The octets that the party sent. -/
def sent (s : Session) : Bytes := s.endpoint.wire.sent

/-- The nonce that the party drew, once it has. -/
def nonce (s : Session) : Option Bytes :=
  if s.source.drawn < s.endpoint.supply.drawn then some s.source.draw.1 else none

/-- A client that drew `nc` has verified a server, whose nonce was `ns`. -/
def Passed (s : Session) (nc ns : Bytes) : Prop :=
  s.side = .client ∧ s.nonce = some nc ∧ ns.length = 32 ∧
    s.endpoint.step.verified = true ∧
    ∃ types hash rest, 0 ∉ types ∧ hash.length = 32 ∧
      s.heard = types ++ 0 :: (hash ++ (ns ++ rest))

/-- A relay was given `nc`, drew `ns`, and sent the server's hash of both. -/
def Proved (cookie : Cookie) (s : Session) (nc ns : Bytes) : Prop :=
  s.side = .relay ∧ s.nonce = some ns ∧ nc.length = 32 ∧
    (∃ rest, s.heard = safeCookie :: (nc ++ rest)) ∧
    ∃ rest, s.sent = safeCookie :: 0 :: (serverHash cookie.secret nc ns ++ rest)

/-- A relay was given `nc`, drew `ns`, and sent the status of success. -/
def Accepted (s : Session) (nc ns : Bytes) : Prop :=
  s.side = .relay ∧ s.nonce = some ns ∧ nc.length = 32 ∧
    (∃ rest, s.heard = safeCookie :: (nc ++ rest)) ∧
    ∃ proof, proof.length = 64 ∧ s.sent = safeCookie :: 0 :: (proof ++ [success])

/-- The party sent `v` where its hash belongs. -/
def SentHash (s : Session) (v : Bytes) : Prop :=
  v.length = 32 ∧
    match s.side with
    | .client => ∃ nc rest, nc.length = 32 ∧ s.sent = safeCookie :: (nc ++ (v ++ rest))
    | .relay => ∃ rest, s.sent = safeCookie :: 0 :: (v ++ rest)

/-- The network brought `v` where the peer's hash belongs. -/
def BroughtHash (s : Session) (v : Bytes) : Prop :=
  v.length = 32 ∧
    match s.side with
    | .client => ∃ types rest, Offered types ∧ s.came = types ++ 0 :: (v ++ rest)
    | .relay => ∃ nc rest, nc.length = 32 ∧ s.came = safeCookie :: (nc ++ (v ++ rest))

/-- The party hashed `message` under the cookie: a client the server's message
once both hashes are to be compared, and its own once it has verified the
server; a relay its own message once it has drawn, and the client's once the
client's hash is there. -/
def Hashed (s : Session) (message : Bytes) : Prop :=
  match s.side with
  | .client => ∃ nc ns types hash rest, s.nonce = some nc ∧ hash.length = 32 ∧ ns.length = 32 ∧
      0 ∉ types ∧ s.heard = types ++ 0 :: (hash ++ (ns ++ rest)) ∧
      (message = serverDomain ++ nc ++ ns ∨
        s.Passed nc ns ∧ message = clientDomain ++ nc ++ ns)
  | .relay => ∃ nc ns rest, s.nonce = some ns ∧ nc.length = 32 ∧
      s.heard = safeCookie :: (nc ++ rest) ∧
      (message = serverDomain ++ nc ++ ns ∨
        32 ≤ rest.length ∧ message = clientDomain ++ nc ++ ns)

/-- What is seen of a session at some time and at a later one. -/
structure Extends (s s2 : Session) : Prop where
  side : s2.side = s.side
  nonce : ∀ b, s.nonce = some b → s2.nonce = some b
  heard : s.heard <+: s2.heard
  sent : s.sent <+: s2.sent

theorem Extends.refl (s : Session) : s.Extends s :=
  ⟨rfl, fun _ h => h, List.prefix_refl _, List.prefix_refl _⟩

theorem Extends.trans {s s2 s3 : Session} (h : s.Extends s2) (h2 : s2.Extends s3) :
    s.Extends s3 :=
  ⟨h2.side.trans h.side, fun b hb => h2.nonce b (h.nonce b hb), h.heard.trans h2.heard,
    h.sent.trans h2.sent⟩

/-- By a move nothing comes, and what was seen stays. -/
theorem Acts.extends {s s2 : Session} (h : s.Acts s2) : s.Extends s2 ∧ s2.came = s.came := by
  have hframe := s.rest.move_frame .authentication s.endpoint
  have hseen : ∀ d e, e.pending <:+ s.endpoint.pending → s.endpoint.wire.sent <+: e.wire.sent →
      s.endpoint.supply.drawn ≤ e.supply.drawn →
      s.Extends { s with rest := d, endpoint := e } := by
    intro d e hpending hsent hdrawn
    refine ⟨rfl, fun b hb => ?_, ?_, hsent⟩
    · simp only [nonce] at hb ⊢
      split at hb
      next hlt => rw [if_pos (Nat.lt_of_lt_of_le hlt hdrawn), hb]
      next => cases hb
    · have hlen := hpending.length_le
      exact List.take_prefix_take_left (by simp only [Endpoint.unread]; omega)
  cases h with
  | move move =>
      rw [move] at hframe
      exact ⟨hseen _ _ hframe.1 hframe.2.1 hframe.2.2, rfl⟩
  | fail move =>
      rw [move] at hframe
      exact ⟨hseen _ _ hframe.1 hframe.2.1 hframe.2.2, rfl⟩

/-- A move brings no hash. -/
theorem Acts.broughtHash_iff {s s2 : Session} (h : s.Acts s2) (v : Bytes) :
    s2.BroughtHash v ↔ s.BroughtHash v := by
  obtain ⟨hext, hcame⟩ := h.extends
  unfold BroughtHash
  rw [hext.side, hcame]

/-- What the network brings is not seen until it is taken. -/
theorem Receives.same {s s2 : Session} (h : s.Receives s2) :
    s2.side = s.side ∧ s2.heard = s.heard ∧ s2.sent = s.sent ∧ s2.nonce = s.nonce ∧
      s2.endpoint.step = s.endpoint.step := by
  cases h with
  | @bring bs w log pending =>
      refine ⟨rfl, ?_, ?_, rfl, rfl⟩
      · have hunread : ({ s.endpoint with wire := w } : Endpoint).unread =
            s.endpoint.unread + bs.length := by
          simp only [Endpoint.unread, Endpoint.pending, pending, List.length_append]
          omega
        rw [heard, hunread, List.length_append, Nat.add_sub_add_right,
          List.take_append_of_le_length (Nat.sub_le _ _)]
        rfl
      · show w.sent = s.endpoint.wire.sent
        unfold Wire.sent
        rw [log]

theorem Receives.extends {s s2 : Session} (h : s.Receives s2) : s.Extends s2 := by
  obtain ⟨hside, hheard, hsent, hnonce, -⟩ := h.same
  exact ⟨hside, fun b hb => hnonce.trans hb, hheard ▸ List.prefix_refl _,
    hsent ▸ List.prefix_refl _⟩

theorem SentHash.mono {s s2 : Session} {v : Bytes} (h : s.SentHash v) (hext : s.Extends s2) :
    s2.SentHash v := by
  obtain ⟨longHash, h⟩ := h
  obtain ⟨more, hmore⟩ := hext.sent
  refine ⟨longHash, ?_⟩
  rw [hext.side, ← hmore]
  cases hside : s.side with
  | client =>
      rw [hside] at h
      obtain ⟨nc, rest, long, hsent⟩ := h
      exact ⟨nc, rest ++ more, long, by rw [hsent]; simp⟩
  | relay =>
      rw [hside] at h
      obtain ⟨rest, hsent⟩ := h
      exact ⟨rest ++ more, by rw [hsent]; simp⟩

theorem Proved.mono {cookie : Cookie} {s s2 : Session} {nc ns : Bytes}
    (h : s.Proved cookie nc ns) (hext : s.Extends s2) : s2.Proved cookie nc ns := by
  obtain ⟨hside, hnonce, long, ⟨rest, hheard⟩, rest2, hsent⟩ := h
  obtain ⟨more, hmore⟩ := hext.heard
  obtain ⟨more2, hmore2⟩ := hext.sent
  exact ⟨hext.side.trans hside, hext.nonce _ hnonce, long,
    ⟨rest ++ more, by rw [← hmore, hheard]; simp⟩, rest2 ++ more2,
    by rw [← hmore2, hsent]; simp⟩

/-! ## Sessions are where they should be -/

/-- The moments of either side. -/
def At (cookie : Cookie) : Side → Moment Unit → Account → Prop
  | .client => ClientAt cookie
  | .relay => RelayAt cookie

/-- A session gives a truthful account, and comes to nothing but the moments of
its side; also a failed one is still at such a moment. -/
def Sound (cookie : Cookie) (s : Session) : Prop :=
  ∃ h, s.rest.Keeps (fun _ h => ∃ m, At cookie s.side m h) h ∧
    Account.Fits s.came [] s.source h s.endpoint

variable {cookie : Cookie} {s s2 : Session}

theorem sound_begin (cookie : Cookie) (supply : Supply) (side : Side) :
    (begin cookie supply side).Sound cookie := by
  cases side with
  | client =>
      exact ⟨_, (client_keeps cookie).imp fun m _ hat => ⟨m, hat⟩,
        Account.Fits.begin (begin cookie supply .client).endpoint⟩
  | relay =>
      exact ⟨_, (relay_keeps cookie .awaitAuthTypes).imp fun m _ hat => ⟨m, hat⟩,
        Account.Fits.begin (begin cookie supply .relay).endpoint⟩

theorem Sound.acts (hs : s.Sound cookie) (h : s.Acts s2) : s2.Sound cookie := by
  obtain ⟨a, hkeeps, hfits⟩ := hs
  have hgoes := hkeeps.move .authentication hfits
  cases h with
  | move move =>
      rw [move] at hgoes
      exact hgoes
  | fail move =>
      rw [move] at hgoes
      obtain ⟨a2, hrests, hfits2⟩ := hgoes
      obtain ⟨-, hat⟩ := hrests.now
      exact ⟨a2, hat, hfits2⟩

theorem Sound.receives (hs : s.Sound cookie) (h : s.Receives s2) : s2.Sound cookie := by
  obtain ⟨a, hkeeps, hfits⟩ := hs
  cases h with
  | @bring bs w log pending =>
      refine ⟨a, hkeeps, ?_, ?_, hfits.drawn, hfits.supply, hfits.step, hfits.left⟩
      · show a.heard ++ (s.endpoint.held ++ w.pending) = s.came ++ bs
        rw [pending, ← hfits.heard, Endpoint.pending]
        simp only [List.append_assoc]
      · show w.sent = _
        unfold Wire.sent
        rw [log]
        exact hfits.said

/-- What is seen of a session is what its account says. -/
theorem Sound.seen (hs : s.Sound cookie) :
    ∃ m h, At cookie s.side m h ∧ s.heard = h.heard ∧ s.sent = h.said ∧
      s.nonce = h.drawn.head? ∧ s.endpoint.step = h.step := by
  obtain ⟨a, hkeeps, hfits⟩ := hs
  obtain ⟨-, m, hat⟩ := hkeeps.now
  refine ⟨m, a, hat, ?_, hfits.said, ?_, hfits.step⟩
  · have hcame := hfits.heard
    rw [heard, Endpoint.unread, ← hcame]
    simp
  · rw [nonce, hfits.supply]
    have hdrawn := hfits.drawn
    rcases hd : a.drawn with _ | ⟨b, bs⟩
    · simp
    · rw [hd, List.length_cons, List.range_succ_eq_map] at hdrawn
      simp only [List.map_cons, List.cons.injEq, Nat.add_zero] at hdrawn
      simp [hdrawn.1]

/-- A client that has verified a server was given the server's hash of its own
nonce and the server's. -/
theorem Sound.passed (hs : s.Sound cookie) {nc ns : Bytes} (h : s.Passed nc ns) :
    nc.length = 32 ∧ ∃ types rest, Offered types ∧
      s.heard = types ++ 0 :: (serverHash cookie.secret nc ns ++ (ns ++ rest)) := by
  obtain ⟨hside, hnonce, longNonce, hstep, types, hash, rest, nonzero, longHash, hheard⟩ := h
  obtain ⟨m, a, hat, hheard2, -, hnonce2, hstep2⟩ := hs.seen
  rw [hside] at hat
  rw [hstep2] at hstep
  rcases ClientAt.said_cases hat with ⟨hno, -⟩ |
    ⟨-, types2, nc2, ns2, p, rest2, offer, long, longNonce2, hdrawn, haccount, -, -⟩
  · rw [hstep] at hno
    cases hno
  · obtain rfl : nc2 = nc := by
      rw [hnonce2, hdrawn] at hnonce
      exact Option.some.inj hnonce
    rw [hheard2, haccount] at hheard
    obtain ⟨rfl, hrest⟩ := Bytes.split_at_zero offer.nonzero nonzero hheard
    obtain ⟨rfl, hnonces⟩ := List.append_inj hrest (by rw [length_serverHash, longHash])
    obtain ⟨rfl, -⟩ := List.append_inj hnonces (by rw [longNonce2, longNonce])
    exact ⟨long, types2, rest2, offer, by rw [hheard2, haccount]⟩

/-- A hash that a client sent is its own proof to a server that it has verified. -/
theorem Sound.client_sentHash (hs : s.Sound cookie) (hside : s.side = .client) {v : Bytes}
    (h : s.SentHash v) : ∃ nc ns, s.Passed nc ns ∧ v = clientHash cookie.secret nc ns := by
  obtain ⟨longHash, h⟩ := h
  rw [hside] at h
  obtain ⟨nc, rest, long, hsent⟩ := h
  obtain ⟨m, a, hat, hheard, hsent2, hnonce, hstep⟩ := hs.seen
  rw [hside] at hat
  rw [hsent2] at hsent
  have hlen := congrArg List.length hsent
  simp only [List.length_cons, List.length_append, long, longHash] at hlen
  rcases ClientAt.said_cases hat with ⟨-, hsaid | ⟨-, -, -, -, ⟨hsaid, -⟩ |
      ⟨nc2, p, long2, -, hp, hsaid⟩⟩⟩ |
    ⟨hverified, types, nc2, ns, p, rest2, offer, long2, longNonce, hdrawn, haccount, hp, hsaid⟩
  · simp [hsaid] at hlen
  · simp [hsaid] at hlen
  · have hle := hp.length_le
    simp only [hsaid, List.length_cons] at hlen
    omega
  · refine ⟨nc2, ns, ⟨hside, by rw [hnonce, hdrawn]; rfl, longNonce, by rw [hstep, hverified],
      types, _, rest2, offer.nonzero, length_serverHash _ _ _, by rw [hheard, haccount]⟩, ?_⟩
    rw [hsaid, List.cons.injEq] at hsent
    obtain ⟨-, hsent⟩ := List.append_inj hsent.2 (by rw [long2, long])
    have hv : v <+: clientHash cookie.secret nc2 ns :=
      List.IsPrefix.trans ⟨rest, hsent.symm⟩ hp
    exact hv.eq_of_length (by rw [longHash, length_clientHash])

/-- A hash that a relay sent is its own proof, to a nonce that it was given. -/
theorem Sound.relay_sentHash (hs : s.Sound cookie) (hside : s.side = .relay) {v : Bytes}
    (h : s.SentHash v) :
    ∃ nc ns, s.Proved cookie nc ns ∧ ns.length = 32 ∧ v = serverHash cookie.secret nc ns := by
  obtain ⟨longHash, h⟩ := h
  rw [hside] at h
  obtain ⟨rest, hsent⟩ := h
  obtain ⟨m, a, hat, hheard, hsent2, hnonce, hstep⟩ := hs.seen
  rw [hside] at hat
  rw [hsent2] at hsent
  rcases RelayAt.said_cases hat with ⟨hp, -⟩ |
    ⟨nc, ns, rest2, long, longNonce, hdrawn, haccount, hsaid⟩
  · have hlen := hp.length_le
    simp only [hsent, List.length_cons, List.length_append, longHash, List.length_nil] at hlen
    omega
  · -- the hash stands first in what is said after the offer
    have hv : v = serverHash cookie.secret nc ns := by
      rcases hsaid with ⟨p, hp, hsaid⟩ | ⟨p, hsaid, -⟩
      · rw [hsent, List.cons.injEq, List.cons.injEq] at hsaid
        rw [← hsaid.2.2] at hp
        have hv : v <+: serverHash cookie.secret nc ns ++ ns :=
          (List.prefix_append v rest).trans hp
        have hlen : v.length = (serverHash cookie.secret nc ns).length := by
          rw [longHash, length_serverHash]
        exact (List.prefix_of_prefix_length_le hv (List.prefix_append _ _)
          (Nat.le_of_eq hlen)).eq_of_length hlen
      · rw [hsent, List.cons.injEq, List.cons.injEq] at hsaid
        exact (List.append_inj hsaid.2.2 (by rw [longHash, length_serverHash])).1
    refine ⟨nc, ns, ⟨hside, by rw [hnonce, hdrawn]; rfl, long, ⟨rest2, hheard.trans haccount⟩,
      rest, ?_⟩, longNonce, hv⟩
    rw [hsent2, hsent, hv]

/-- A relay that has sent the status of success was given the client's hash of
the client's nonce and its own. -/
theorem Sound.accepted (hs : s.Sound cookie) {nc ns : Bytes} (h : s.Accepted nc ns) :
    ns.length = 32 ∧ s.heard = safeCookie :: (nc ++ clientHash cookie.secret nc ns) := by
  obtain ⟨hside, hnonce, long, ⟨rest, hheard⟩, proof, hproof, hsent⟩ := h
  obtain ⟨m, a, hat, hheard2, hsent2, hnonce2, hstep⟩ := hs.seen
  rw [hside] at hat
  rw [hsent2] at hsent
  have hlen := congrArg List.length hsent
  simp only [List.length_cons, List.length_append, hproof, List.length_nil] at hlen
  rcases RelayAt.said_cases hat with ⟨hp, -⟩ |
    ⟨nc2, ns2, rest2, long2, longNonce, hdrawn, haccount, hsaid⟩
  · have hle := hp.length_le
    simp only [List.length_cons, List.length_nil] at hle
    omega
  · obtain rfl : ns2 = ns := by
      rw [hnonce2, hdrawn] at hnonce
      exact Option.some.inj hnonce
    obtain ⟨rfl, rfl⟩ : nc2 = nc ∧ rest2 = rest := by
      rw [hheard2, haccount, List.cons.injEq] at hheard
      exact List.append_inj hheard.2 (by rw [long2, long])
    refine ⟨longNonce, ?_⟩
    rcases hsaid with ⟨p, hp, hsaid⟩ | ⟨p, hsaid, ⟨rfl, -⟩ | hp⟩
    · have hle := hp.length_le
      simp only [List.length_append, length_serverHash, longNonce] at hle
      simp only [hsaid, List.length_cons] at hlen
      omega
    · exact hheard
    · rw [hsaid, List.cons.injEq, List.cons.injEq, ← List.append_assoc] at hsent
      obtain ⟨-, hstatus⟩ := List.append_inj hsent.2.2
        (by rw [List.length_append, length_serverHash, longNonce, hproof])
      subst hstatus
      have := List.cons_prefix_cons.mp hp
      exact absurd this.1 (by decide)

/-! ## What a session has hashed -/

/-- A client that has verified a server has hashed both messages. -/
theorem Passed.hashed {nc ns : Bytes} (h : s.Passed nc ns) :
    s.Hashed (serverDomain ++ nc ++ ns) ∧ s.Hashed (clientDomain ++ nc ++ ns) := by
  obtain ⟨hside, hnonce, longNonce, -, types, hash, rest, nonzero, longHash, hheard⟩ := id h
  unfold Hashed
  rw [hside]
  exact ⟨⟨nc, ns, types, hash, rest, hnonce, longHash, longNonce, nonzero, hheard, .inl rfl⟩,
    nc, ns, types, hash, rest, hnonce, longHash, longNonce, nonzero, hheard, .inr ⟨h, rfl⟩⟩

/-- A relay that has proved itself has hashed its own message. -/
theorem Proved.hashed {nc ns : Bytes} (h : s.Proved cookie nc ns) :
    s.Hashed (serverDomain ++ nc ++ ns) := by
  obtain ⟨hside, hnonce, long, ⟨rest, hheard⟩, -⟩ := h
  unfold Hashed
  rw [hside]
  exact ⟨nc, ns, rest, hnonce, long, hheard, .inl rfl⟩

/-- A relay that has accepted a client has hashed the client's message. -/
theorem Sound.accepted_hashed (hs : s.Sound cookie) {nc ns : Bytes} (h : s.Accepted nc ns) :
    s.Hashed (clientDomain ++ nc ++ ns) := by
  obtain ⟨-, hheard⟩ := hs.accepted h
  obtain ⟨hside, hnonce, long, -, -⟩ := h
  unfold Hashed
  rw [hside]
  exact ⟨nc, ns, _, hnonce, long, hheard, .inr ⟨Nat.le_of_eq (length_clientHash _ _ _).symm, rfl⟩⟩

/-- What a party was given was brought to it. -/
theorem heard_prefix (s : Session) : s.heard <+: s.came := List.take_prefix _ _

/-- A client that has verified a server was brought the server's proof. -/
theorem Sound.passed_brought (hs : s.Sound cookie) {nc ns : Bytes} (h : s.Passed nc ns) :
    s.BroughtHash (serverHash cookie.secret nc ns) := by
  obtain ⟨-, types, rest, offer, hheard⟩ := hs.passed h
  obtain ⟨more, hmore⟩ := s.heard_prefix
  refine ⟨length_serverHash _ _ _, ?_⟩
  rw [h.1]
  exact ⟨types, ns ++ rest ++ more, offer, by rw [← hmore, hheard]; simp⟩

/-- A relay that has accepted a client was brought the client's proof. -/
theorem Sound.accepted_brought (hs : s.Sound cookie) {nc ns : Bytes} (h : s.Accepted nc ns) :
    s.BroughtHash (clientHash cookie.secret nc ns) := by
  obtain ⟨-, hheard⟩ := hs.accepted h
  obtain ⟨more, hmore⟩ := s.heard_prefix
  refine ⟨length_clientHash _ _ _, ?_⟩
  rw [h.1]
  exact ⟨nc, more, h.2.2.1, by rw [← hmore, hheard]; simp⟩

end Session

end ManagedTransport
