import ManagedTransport.Proofs.Sessions
import Mathlib.Logic.Function.Basic

/-!
# Mutual agreement

On a network that belongs to an adversary, clients and relays that share a
cookie agree on whom they talk to: a client that has verified a server has its
nonce answered by a relay that drew the server's nonce, and a relay that accepts
a client has been answered by the one client that drew the client's nonce.

The hash function is assumed to tell apart the messages that are hashed, the
adversary not to make up a proof that nobody sent, and the nonces to differ.

* `Sessions.Step` — what may happen next on the network;
* `Sessions.Sound` — every session is where it should be, and every proof that
  the network brought was sent before;
* `mutual_agreement` — the agreement.
-/

namespace ManagedTransport

open SafeCookie

/-- Any number of sessions on one network. -/
abbrev Sessions (ι : Type) := ι → Session

namespace Sessions

variable {ι : Type}

/-- No session has done anything yet. -/
def begin (cookie : Cookie) (sides : ι → Side) (supplies : ι → Supply) : Sessions ι :=
  fun i => Session.begin cookie (supplies i) (sides i)

/-- Some session has sent `v` as its hash. -/
def Sent (n : Sessions ι) (v : Bytes) : Prop := ∃ i, (n i).SentHash v

/-- A hash under the cookie of a message of either direction. -/
def IsProof (cookie : Cookie) (v : Bytes) : Prop :=
  ∃ nc ns, nc.length = 32 ∧ ns.length = 32 ∧
    (v = serverHash cookie.secret nc ns ∨ v = clientHash cookie.secret nc ns)

/-- A session makes a move; or the network brings something to a session, where
a proof stands in a hash's place only if some session has sent it before. -/
inductive Step (cookie : Cookie) (n n2 : Sessions ι) : Prop
  | act (i : ι) (others : ∀ j, j ≠ i → n2 j = n j) (acts : (n i).Acts (n2 i))
  | receive (i : ι) (others : ∀ j, j ≠ i → n2 j = n j) (receives : (n i).Receives (n2 i))
      (unforged : ∀ v, (n2 i).BroughtHash v → IsProof cookie v → n.Sent v)

/-- What may come to pass on the network. -/
abbrev Reaches (cookie : Cookie) : Sessions ι → Sessions ι → Prop :=
  Relation.ReflTransGen (Step cookie)

/-- Different messages that are hashed have different hashes. -/
def CollisionFree (cookie : Cookie) (n : Sessions ι) : Prop :=
  ∀ i j message message2, (n i).Hashed message → (n j).Hashed message2 →
    Hmac.mac cookie.secret message = Hmac.mac cookie.secret message2 → message = message2

/-- No two sessions have drawn the same nonce. -/
def NoncesDistinct (n : Sessions ι) : Prop :=
  ∀ i j nonce, (n i).nonce = some nonce → (n j).nonce = some nonce → i = j

/-- Every session is where it should be, and a proof that the network has
brought in a hash's place was sent by some session. -/
structure Sound (cookie : Cookie) (n : Sessions ι) : Prop where
  sessions : ∀ i, (n i).Sound cookie
  unforged : ∀ i v, (n i).BroughtHash v → IsProof cookie v → n.Sent v

variable {cookie : Cookie} {n n2 : Sessions ι}

theorem Step.extends (h : Step cookie n n2) (i : ι) : (n i).Extends (n2 i) := by
  cases h with
  | act j others acts =>
      by_cases hi : i = j
      · subst hi
        exact acts.extends.1
      · rw [others i hi]
        exact .refl _
  | receive j others receives =>
      by_cases hi : i = j
      · subst hi
        exact receives.extends
      · rw [others i hi]
        exact .refl _

theorem Reaches.extends (h : Reaches cookie n n2) (i : ι) : (n i).Extends (n2 i) := by
  induction h with
  | refl => exact .refl _
  | tail _ hstep ih => exact ih.trans (hstep.extends i)

theorem sound_begin (cookie : Cookie) (sides : ι → Side) (supplies : ι → Supply) :
    (begin cookie sides supplies).Sound cookie := by
  refine ⟨fun i => Session.sound_begin cookie _ _, ?_⟩
  intro i v hbrought
  have hcame : (begin cookie sides supplies i).came = [] := by
    unfold begin
    cases sides i <;> rfl
  obtain ⟨-, hbrought⟩ := hbrought
  rw [hcame] at hbrought
  cases hside : (begin cookie sides supplies i).side with
  | client =>
      rw [hside] at hbrought
      obtain ⟨types, rest, -, hnil⟩ := hbrought
      simp at hnil
  | relay =>
      rw [hside] at hbrought
      obtain ⟨nc, rest, -, hnil⟩ := hbrought
      cases hnil

/-- **What happens on the network keeps it sound.** -/
theorem Sound.step (hs : n.Sound cookie) (h : Step cookie n n2) : n2.Sound cookie := by
  have hsent : ∀ v, n.Sent v → n2.Sent v := fun v ⟨i, hi⟩ => ⟨i, hi.mono (h.extends i)⟩
  cases h with
  | act i others acts =>
      constructor
      · intro j
        by_cases hj : j = i
        · subst hj
          exact (hs.sessions j).acts acts
        · rw [others j hj]
          exact hs.sessions j
      · intro j v hbrought hproof
        refine hsent v (hs.unforged j v ?_ hproof)
        by_cases hj : j = i
        · subst hj
          exact (acts.broughtHash_iff v).mp hbrought
        · rwa [others j hj] at hbrought
  | receive i others receives unforged =>
      constructor
      · intro j
        by_cases hj : j = i
        · subst hj
          exact (hs.sessions j).receives receives
        · rw [others j hj]
          exact hs.sessions j
      · intro j v hbrought hproof
        apply hsent v
        by_cases hj : j = i
        · subst hj
          exact unforged v hbrought hproof
        · rw [others j hj] at hbrought
          exact hs.unforged j v hbrought hproof

theorem Reaches.sound {sides : ι → Side} {supplies : ι → Supply}
    (h : Reaches cookie (begin cookie sides supplies) n) : n.Sound cookie := by
  induction h with
  | refl => exact sound_begin cookie sides supplies
  | tail _ hstep ih => exact ih.step hstep

/-! ## Agreement -/

/-- The message tells both nonces. -/
theorem message_inj {domain nc ns nc2 ns2 : Bytes} (long : nc.length = 32)
    (long2 : nc2.length = 32) (h : domain ++ nc ++ ns = domain ++ nc2 ++ ns2) :
    nc = nc2 ∧ ns = ns2 := by
  rw [List.append_assoc, List.append_assoc, List.append_cancel_left_eq] at h
  exact List.append_inj h (long.trans long2.symm)

/-- The messages of the two directions are never the same. -/
theorem message_ne (nc ns nc2 ns2 : Bytes) :
    serverDomain ++ nc ++ ns ≠ clientDomain ++ nc2 ++ ns2 := by
  intro h
  rw [List.append_assoc, List.append_assoc] at h
  exact absurd (List.append_inj h (by decide)).1 (by decide)

/-- In a sound network a server's hash that some session sent was sent by a relay,
to the same nonces. -/
theorem Sound.proved_of_sent {final : Sessions ι} (hs : n.Sound cookie)
    (hfinal : final.Sound cookie) (hcollision : CollisionFree cookie final)
    (hext : ∀ j, (n j).Extends (final j)) {i : ι} {nc ns : Bytes} (hpassed : (final i).Passed nc ns)
    (hsent : n.Sent (serverHash cookie.secret nc ns)) : ∃ j, (n j).Proved cookie nc ns := by
  have long := ((hfinal.sessions i).passed hpassed).1
  obtain ⟨j, hj⟩ := hsent
  cases hside : (n j).side with
  | client =>
      have hside2 : (final j).side = .client := (hext j).side.trans hside
      obtain ⟨nc2, ns2, hpassed2, hhash⟩ :=
        (hfinal.sessions j).client_sentHash hside2 (hj.mono (hext j))
      exact absurd (hcollision i j _ _ hpassed.hashed.1 hpassed2.hashed.2 hhash)
        (message_ne nc ns nc2 ns2)
  | relay =>
      obtain ⟨nc2, ns2, hproved, -, hhash⟩ := (hs.sessions j).relay_sentHash hside hj
      have hhashed := (hproved.mono (hext j)).hashed
      obtain ⟨rfl, rfl⟩ := message_inj long hproved.2.2.1
        (hcollision i j _ _ hpassed.hashed.1 hhashed hhash)
      exact ⟨j, hproved⟩

/-- A client that has verified a server did so by some step. -/
theorem Reaches.passed_step {sides : ι → Side} {supplies : ι → Supply} {i : ι} {nc ns : Bytes}
    (h : Reaches cookie (begin cookie sides supplies) n) (hpassed : (n i).Passed nc ns) :
    ∃ before after, Reaches cookie (begin cookie sides supplies) before ∧
      Step cookie before after ∧ Reaches cookie after n ∧
      ¬ (before i).Passed nc ns ∧ (after i).Passed nc ns := by
  induction h with
  | refl =>
      obtain ⟨-, hnonce, -⟩ := hpassed
      have hnone : (begin cookie sides supplies i).nonce = none := by
        unfold begin
        cases sides i <;> simp [Session.begin, Session.nonce, Endpoint.ofWire]
      rw [hnone] at hnonce
      cases hnonce
  | @tail before after hbefore hstep ih =>
      by_cases hp : (before i).Passed nc ns
      · obtain ⟨first, second, h1, h2, h3, h4⟩ := ih hp
        exact ⟨first, second, h1, h2, h3.tail hstep, h4⟩
      · exact ⟨before, after, hbefore, hstep, .refl, hp, hpassed⟩

/-- When a client verifies a server, it had been brought the server's proof before. -/
theorem Step.brought {i : ι} {nc ns : Bytes} (h : Step cookie n n2) (hs : n2.Sound cookie)
    (hbefore : ¬ (n i).Passed nc ns) (hafter : (n2 i).Passed nc ns) :
    (n i).BroughtHash (serverHash cookie.secret nc ns) := by
  have hbrought := (hs.sessions i).passed_brought hafter
  cases h with
  | act j others acts =>
      by_cases hi : i = j
      · subst hi
        exact (acts.broughtHash_iff _).mp hbrought
      · rw [others i hi] at hafter
        exact absurd hafter hbefore
  | receive j others receives =>
      refine absurd ?_ hbefore
      by_cases hi : i = j
      · subst hi
        obtain ⟨hside, hheard, -, hnonce, hstep⟩ := receives.same
        rw [Session.Passed, hside, hheard, hnonce, hstep] at hafter
        exact hafter
      · rwa [others i hi] at hafter

/-- **Mutual agreement.**  Whatever has happened on the network: if a client has
verified a server, some relay had been given the client's nonce, drawn the
server's, and sent the server's hash of both, at a time when the client had not
yet verified it; and if a relay has accepted a client, the client that drew that
nonce has verified this very relay's nonce, and no other client drew it. -/
theorem mutual_agreement {sides : ι → Side} {supplies : ι → Supply}
    (hrun : Reaches cookie (begin cookie sides supplies) n)
    (hcollision : CollisionFree cookie n) (hdistinct : NoncesDistinct n) :
    (∀ i nc ns, (n i).Passed nc ns → ∃ j before,
      Reaches cookie (begin cookie sides supplies) before ∧ Reaches cookie before n ∧
        ¬ (before i).Passed nc ns ∧ (before j).Proved cookie nc ns) ∧
    ∀ j nc ns, (n j).Accepted nc ns → ∃ i, (n i).Passed nc ns ∧
      ∀ k, (n k).side = .client → (n k).nonce = some nc → k = i := by
  have hs := hrun.sound
  constructor
  · intro i nc ns hpassed
    obtain ⟨before, after, hreach, hstep, hreach2, hnot, hpassed2⟩ := hrun.passed_step hpassed
    have hbefore : before.Sound cookie := hreach.sound
    have hon : Reaches cookie before n := .head hstep hreach2
    have hsent := hbefore.unforged i _
      (hstep.brought (hbefore.step hstep) hnot hpassed2)
      ⟨nc, ns, ((hs.sessions i).passed hpassed).1, hpassed.2.2.1, .inl rfl⟩
    obtain ⟨j, hproved⟩ := hbefore.proved_of_sent hs hcollision hon.extends hpassed hsent
    exact ⟨j, before, hreach, hon, hnot, hproved⟩
  · intro j nc ns haccepted
    have hhashed := (hs.sessions j).accepted_hashed haccepted
    have long := haccepted.2.2.1
    obtain ⟨i, hi⟩ := hs.unforged j _ ((hs.sessions j).accepted_brought haccepted)
      ⟨nc, ns, long, ((hs.sessions j).accepted haccepted).1, .inr rfl⟩
    cases hside : (n i).side with
    | client =>
        obtain ⟨nc2, ns2, hpassed, hhash⟩ := (hs.sessions i).client_sentHash hside hi
        obtain ⟨rfl, rfl⟩ := message_inj long ((hs.sessions i).passed hpassed).1
          (hcollision j i _ _ hhashed hpassed.hashed.2 hhash)
        exact ⟨i, hpassed, fun k _ hk => hdistinct k i _ hk hpassed.2.1⟩
    | relay =>
        obtain ⟨nc2, ns2, hproved, -, hhash⟩ := (hs.sessions i).relay_sentHash hside hi
        exact absurd (hcollision i j _ _ hproved.hashed hhashed hhash.symm)
          (message_ne nc2 ns2 nc ns)

/-! ## A faithful network -/

/-- Up to so many moves of a session, as long as none has to wait or fails. -/
def play : Nat → Session → Session
  | 0, s => s
  | k + 1, s =>
    match s.rest.move .authentication s.endpoint with
    | (.done d, e) => play k { s with rest := d, endpoint := e }
    | _ => s

/-- The network brings a session all that another has sent. -/
def carry (source s : Session) : Session :=
  { s with
    came := s.came ++ source.sent.drop s.came.length
    endpoint := { s.endpoint with wire := { s.endpoint.wire with
      arrivals := [.data (s.endpoint.wire.pending ++ source.sent.drop s.came.length), .stall] } } }

/-- One client and one relay. -/
def pair (client relay : Session) : Sessions Side
  | .client => client
  | .relay => relay

/-- So many rounds in which either side is brought all that the other has sent
and goes on as far as it can, the relay first. -/
def rounds : Nat → Session × Session → Session × Session
  | 0, p => p
  | n + 1, (client, relay) =>
    let relay := play 200 (carry client relay)
    rounds n (play 200 (carry relay client), relay)

/-- A client and a relay that were brought nothing but what the other sent. -/
structure Faithful (cookie : Cookie) (client relay : Session) : Prop where
  clientSide : client.side = .client
  relaySide : relay.side = .relay
  clientSound : client.Sound cookie
  relaySound : relay.Sound cookie
  toClient : client.came <+: relay.sent
  toRelay : relay.came <+: client.sent

theorem play_extends (cookie : Cookie) (k : Nat) (s : Session) :
    s.Extends (play k s) ∧ (play k s).came = s.came ∧
      (s.Sound cookie → (play k s).Sound cookie) := by
  induction k generalizing s with
  | zero => exact ⟨.refl s, rfl, id⟩
  | succ k ih =>
      rcases hm : s.rest.move .authentication s.endpoint with ⟨d | err | _ | _, e⟩
      case done =>
        simp only [play, hm]
        have hacts : s.Acts { s with rest := d, endpoint := e } := .move hm
        obtain ⟨hext, hcame, hsound⟩ := ih { s with rest := d, endpoint := e }
        exact ⟨hacts.extends.1.trans hext, hcame, fun hs => hsound (hs.acts hacts)⟩
      all_goals
        simp only [play, hm]
        exact ⟨.refl s, trivial, id⟩

theorem carry_receives (source s : Session) : s.Receives (carry source s) := by
  refine .bring rfl ?_
  simp [Wire.pending, Arrival.octets]

theorem came_carry {source s : Session} (h : s.came <+: source.sent) :
    (carry source s).came = source.sent := by
  obtain ⟨more, hmore⟩ := h
  simp only [carry]
  rw [← hmore, List.drop_left]

/-- A client that was brought only what a relay sent was brought only its hash. -/
theorem Faithful.sent_of_client {client relay : Session} (h : Faithful cookie client relay)
    {v : Bytes} (hv : client.BroughtHash v) : relay.SentHash v := by
  obtain ⟨longHash, hv⟩ := hv
  rw [h.clientSide] at hv
  obtain ⟨types, rest, offer, hcame⟩ := hv
  obtain ⟨more, hmore⟩ := h.toClient
  obtain ⟨m, a, hat, -, hsent, -⟩ := h.relaySound.seen
  rw [h.relaySide] at hat
  rw [hcame, hsent] at hmore
  refine ⟨longHash, ?_⟩
  rw [h.relaySide]
  rcases RelayAt.said_cases hat with ⟨hp, -⟩ |
    ⟨nc, ns, rest2, -, -, -, -, hsaid⟩
  · have hlen := hp.length_le
    simp only [← hmore, List.length_append, List.length_cons, longHash, List.length_nil] at hlen
    omega
  · obtain ⟨p, hsaid⟩ : ∃ p, a.said = [safeCookie] ++ 0 :: p := by
      rcases hsaid with ⟨p, -, hsaid⟩ | ⟨p, hsaid, -⟩
      · exact ⟨p, hsaid⟩
      · exact ⟨_, hsaid⟩
    rw [hsaid, List.append_assoc, List.cons_append] at hmore
    obtain ⟨-, htail⟩ := Bytes.split_at_zero offer.nonzero (by decide) hmore
    exact ⟨rest ++ more, by rw [hsent, hsaid, ← htail]; simp⟩

/-- A relay that was brought only what a client sent was brought only its hash. -/
theorem Faithful.sent_of_relay {client relay : Session} (h : Faithful cookie client relay)
    {v : Bytes} (hv : relay.BroughtHash v) : client.SentHash v := by
  obtain ⟨longHash, hv⟩ := hv
  rw [h.relaySide] at hv
  obtain ⟨nc, rest, long, hcame⟩ := hv
  obtain ⟨more, hmore⟩ := h.toRelay
  refine ⟨longHash, ?_⟩
  rw [h.clientSide]
  exact ⟨nc, rest ++ more, long, by rw [← hmore, hcame]; simp⟩

/-- Moves of a session may come to pass. -/
theorem reaches_play [DecidableEq ι] (cookie : Cookie) (n : Sessions ι) (i : ι) (k : Nat) :
    Reaches cookie n (Function.update n i (play k (n i))) := by
  induction k generalizing n with
  | zero =>
      rw [play, Function.update_eq_self]
  | succ k ih =>
      rcases hm : (n i).rest.move .authentication (n i).endpoint with ⟨d | err | _ | _, e⟩
      case done =>
        have hstep : Step cookie n (Function.update n i { n i with rest := d, endpoint := e }) := by
          refine .act i (fun j hj => Function.update_of_ne hj _ _) ?_
          rw [Function.update_self]
          exact .move hm
        have hrest := ih (Function.update n i { n i with rest := d, endpoint := e })
        rw [Function.update_self, Function.update_idem] at hrest
        simp only [play, hm]
        exact .head hstep hrest
      all_goals
        simp only [play, hm, Function.update_eq_self]
        exact .refl

theorem update_client (client relay s : Session) :
    Function.update (pair client relay) .client s = pair s relay := by
  funext side
  cases side <;> rfl

theorem update_relay (client relay s : Session) :
    Function.update (pair client relay) .relay s = pair client s := by
  funext side
  cases side <;> rfl

/-- The client's part of a round. -/
theorem Faithful.client_turn {client relay : Session} (h : Faithful cookie client relay) (k : Nat) :
    Faithful cookie (play k (carry relay client)) relay ∧
      Reaches cookie (pair client relay) (pair (play k (carry relay client)) relay) := by
  have hreceives := carry_receives relay client
  obtain ⟨hext, hcame, hsound⟩ := play_extends cookie k (carry relay client)
  have hcarried : Faithful cookie (carry relay client) relay := {
    clientSide := h.clientSide
    relaySide := h.relaySide
    clientSound := h.clientSound.receives hreceives
    relaySound := h.relaySound
    toClient := came_carry h.toClient ▸ List.prefix_refl _
    toRelay := h.toRelay }
  refine ⟨⟨hext.side.trans h.clientSide, h.relaySide, hsound hcarried.clientSound, h.relaySound,
    hcame ▸ hcarried.toClient, hcarried.toRelay.trans hext.sent⟩, ?_⟩
  have hstep : Step cookie (pair client relay) (pair (carry relay client) relay) := by
    refine .receive .client (fun j hj => ?_) hreceives fun v hv _ => ⟨.relay, ?_⟩
    · cases j with
      | client => exact absurd rfl hj
      | relay => rfl
    · exact hcarried.sent_of_client hv
  have hplay := reaches_play cookie (pair (carry relay client) relay) .client k
  rw [update_client] at hplay
  exact .head hstep hplay

/-- The relay's part of a round. -/
theorem Faithful.relay_turn {client relay : Session} (h : Faithful cookie client relay) (k : Nat) :
    Faithful cookie client (play k (carry client relay)) ∧
      Reaches cookie (pair client relay) (pair client (play k (carry client relay))) := by
  have hreceives := carry_receives client relay
  obtain ⟨hext, hcame, hsound⟩ := play_extends cookie k (carry client relay)
  have hcarried : Faithful cookie client (carry client relay) := {
    clientSide := h.clientSide
    relaySide := h.relaySide
    clientSound := h.clientSound
    relaySound := h.relaySound.receives hreceives
    toClient := h.toClient
    toRelay := came_carry h.toRelay ▸ List.prefix_refl _ }
  refine ⟨⟨h.clientSide, hext.side.trans h.relaySide, h.clientSound, hsound hcarried.relaySound,
    hcarried.toClient.trans hext.sent, hcame ▸ hcarried.toRelay⟩, ?_⟩
  have hstep : Step cookie (pair client relay) (pair client (carry client relay)) := by
    refine .receive .relay (fun j hj => ?_) hreceives fun v hv _ => ⟨.client, ?_⟩
    · cases j with
      | client => rfl
      | relay => exact absurd rfl hj
    · exact hcarried.sent_of_relay hv
  have hplay := reaches_play cookie (pair client (carry client relay)) .relay k
  rw [update_relay] at hplay
  exact .head hstep hplay

/-- **A faithful network forges nothing**: what comes of rounds may come to pass. -/
theorem Faithful.reaches_rounds {client relay : Session} (h : Faithful cookie client relay)
    (n : Nat) :
    Reaches cookie (pair client relay)
      (pair (rounds n (client, relay)).1 (rounds n (client, relay)).2) := by
  induction n generalizing client relay with
  | zero => exact .refl
  | succ n ih =>
      obtain ⟨h2, hrelay⟩ := h.relay_turn 200
      obtain ⟨h3, hclient⟩ := h2.client_turn 200
      exact (hrelay.trans hclient).trans (ih h3)

theorem length_plainSecret : (Bytes.zeros 32).length = 32 := rfl

/-- A cookie of zeros. -/
def plainCookie : Cookie := ⟨Bytes.zeros 32, length_plainSecret⟩

/-- Two supplies that differ in their first octets. -/
def plainSupply : Side → Supply
  | .client => .fresh [1]
  | .relay => .fresh [2]

/-- The nonce that either of them gives first. -/
def plainNonce (side : Side) : Bytes := (plainSupply side).draw.1

/-- A client and a relay that have gone as far as they can over a faithful network. -/
def honest : Sessions Side :=
  let p := rounds 3 (Session.begin plainCookie (plainSupply .client) .client,
    Session.begin plainCookie (plainSupply .relay) .relay)
  pair p.1 p.2

theorem honest_reached : Reaches plainCookie (begin plainCookie id plainSupply) honest := by
  have hbegin : begin plainCookie id plainSupply =
      pair (Session.begin plainCookie (plainSupply .client) .client)
        (Session.begin plainCookie (plainSupply .relay) .relay) := by
    funext side
    cases side <;> rfl
  rw [hbegin]
  refine Faithful.reaches_rounds ⟨rfl, rfl, Session.sound_begin _ _ _, Session.sound_begin _ _ _,
    ?_, ?_⟩ 3
  · exact List.nil_prefix
  · exact List.nil_prefix

/-- What is seen of the two in the end. -/
theorem honest_seen :
    (honest .client).nonce = some (plainNonce .client) ∧
    (honest .relay).nonce = some (plainNonce .relay) ∧
    (honest .client).endpoint.step.verified = true ∧
    (honest .client).heard = [safeCookie] ++ 0 ::
      (serverHash plainCookie.secret (plainNonce .client) (plainNonce .relay) ++
        (plainNonce .relay ++ [success])) ∧
    (honest .relay).heard = safeCookie :: (plainNonce .client ++
      clientHash plainCookie.secret (plainNonce .client) (plainNonce .relay)) ∧
    (honest .relay).sent = safeCookie :: 0 ::
      ((serverHash plainCookie.secret (plainNonce .client) (plainNonce .relay) ++
        plainNonce .relay) ++ [success]) ∧
    serverHash plainCookie.secret (plainNonce .client) (plainNonce .relay) ≠
      clientHash plainCookie.secret (plainNonce .client) (plainNonce .relay) := by
  decide +kernel

theorem honest_side (side : Side) : (honest side).side = side := by
  have hside := (Reaches.extends honest_reached side).side
  rw [hside]
  cases side <;> rfl

theorem length_plainNonce (side : Side) : (plainNonce side).length = 32 := by
  simp [plainNonce]

theorem honest_passed : (honest .client).Passed (plainNonce .client) (plainNonce .relay) := by
  obtain ⟨hnonce, -, hverified, hheard, -⟩ := honest_seen
  exact ⟨honest_side .client, hnonce, length_plainNonce .relay, hverified, [safeCookie], _,
    [success], by decide, length_serverHash _ _ _, hheard⟩

theorem honest_accepted : (honest .relay).Accepted (plainNonce .client) (plainNonce .relay) := by
  obtain ⟨-, hnonce, -, -, hheard, hsent, -⟩ := honest_seen
  refine ⟨honest_side .relay, hnonce, length_plainNonce .client, ⟨_, hheard⟩, _, ?_, hsent⟩
  rw [List.length_append, length_serverHash, length_plainNonce]

/-- The two have hashed no more than the messages of their nonces. -/
theorem honest_hashed {side : Side} {message : Bytes} (h : (honest side).Hashed message) :
    message = serverDomain ++ plainNonce .client ++ plainNonce .relay ∨
      message = clientDomain ++ plainNonce .client ++ plainNonce .relay := by
  obtain ⟨hclient, hrelay, -, hheard, hheard2, -⟩ := honest_seen
  unfold Session.Hashed at h
  rw [honest_side] at h
  cases side with
  | client =>
      obtain ⟨nc, ns, types, hash, rest, hnonce, longHash, longNonce, nonzero, htypes, hmessage⟩ := h
      rw [hclient] at hnonce
      rw [hheard] at htypes
      obtain rfl := Option.some.inj hnonce
      obtain ⟨-, hrest⟩ := Bytes.split_at_zero (by decide) nonzero htypes
      obtain ⟨-, hrest⟩ := List.append_inj hrest (by rw [length_serverHash, longHash])
      obtain ⟨rfl, -⟩ := List.append_inj hrest (by rw [length_plainNonce, longNonce])
      exact hmessage.imp id And.right
  | relay =>
      obtain ⟨nc, ns, rest, hnonce, long, hnc, hmessage⟩ := h
      rw [hrelay] at hnonce
      rw [hheard2, List.cons.injEq] at hnc
      obtain rfl := Option.some.inj hnonce
      obtain ⟨rfl, -⟩ := List.append_inj hnc.2 (by rw [length_plainNonce, long])
      exact hmessage.imp id And.right

theorem honest_collisionFree : CollisionFree plainCookie honest := by
  obtain ⟨-, -, -, -, -, -, hne⟩ := honest_seen
  intro i j message message2 h h2 hmac
  rcases honest_hashed h with rfl | rfl <;> rcases honest_hashed h2 with rfl | rfl
  · rfl
  · exact absurd hmac hne
  · exact absurd hmac.symm hne
  · rfl

theorem honest_noncesDistinct : NoncesDistinct honest := by
  obtain ⟨hclient, hrelay, -⟩ := honest_seen
  have hne : plainNonce .client ≠ plainNonce .relay := by decide
  intro i j nonce hi hj
  cases i <;> cases j
  · rfl
  · exact absurd (Option.some.inj (hclient.symm.trans (hi.trans (hj.symm.trans hrelay)))) hne
  · exact absurd (Option.some.inj (hclient.symm.trans (hj.trans (hi.symm.trans hrelay)))) hne
  · rfl

/-- The honest client and relay agree. -/
theorem honest_agreement :
    (∃ j before, Reaches plainCookie (begin plainCookie id plainSupply) before ∧
      Reaches plainCookie before honest ∧
      ¬ (before .client).Passed (plainNonce .client) (plainNonce .relay) ∧
      (before j).Proved plainCookie (plainNonce .client) (plainNonce .relay)) ∧
    ∃ i, (honest i).Passed (plainNonce .client) (plainNonce .relay) ∧
      ∀ k, (honest k).side = .client → (honest k).nonce = some (plainNonce .client) → k = i :=
  ⟨(mutual_agreement honest_reached honest_collisionFree honest_noncesDistinct).1 .client _ _
      honest_passed,
    (mutual_agreement honest_reached honest_collisionFree honest_noncesDistinct).2 .relay _ _
      honest_accepted⟩

end Sessions

end ManagedTransport
