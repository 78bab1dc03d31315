import ManagedTransport.Negotiation
import ManagedTransport.Proofs.Account

/-!
# Where a client can be while it authenticates

`ClientAt` lists the moments of the client's side of authentication, each with
the account that the client can then give: what it has heard and said, which
nonce it has drawn, and the step that it has reached.  `client_keeps` says that
there are no others, whatever the peer sends and however the wire fails.

Everything that is claimed of this side for every peer follows by cases.
-/

namespace ManagedTransport

/-- A list that a zero ends is told apart from what follows it. -/
theorem Bytes.split_at_zero {as bs xs ys : Bytes} (has : 0 ∉ as) (hbs : 0 ∉ bs)
    (h : as ++ 0 :: xs = bs ++ 0 :: ys) : as = bs ∧ xs = ys := by
  rcases List.append_eq_append_iff.mp h with ⟨_ | ⟨c, cs⟩, hb, hx⟩ | ⟨_ | ⟨c, cs⟩, ha, hy⟩
  · exact ⟨by simpa using hb.symm, (List.cons.inj hx).2⟩
  · obtain ⟨rfl, -⟩ := List.cons.inj hx
    exact absurd (hb ▸ List.mem_append_right as List.mem_cons_self) hbs
  · exact ⟨by simpa using ha, (List.cons.inj hy).2.symm⟩
  · obtain ⟨rfl, -⟩ := List.cons.inj hy
    exact absurd (ha ▸ List.mem_append_right bs List.mem_cons_self) has

/-- Whether a client reaches this step only after it has verified the server. -/
def AuthStep.verified : AuthStep → Bool
  | sendClientHash | awaitStatus | authenticated => true
  | _ => false

namespace SafeCookie

open Dialogue

/-- Auth types that may stand before the terminating zero. -/
structure Listed (types : Bytes) : Prop where
  nonzero : 0 ∉ types
  room : types.length < maxAuthTypes

/-- A list of auth types that a client takes up. -/
structure Offered (types : Bytes) : Prop extends Listed types where
  offered : safeCookie ∈ types

/-- The moments of the client's side of authentication.  `types` are the auth
types, `nc` and `ns` the client's and the server's nonce, `hash` is the
server's hash, and `p` is the part of a message that is written. -/
inductive ClientAt (cookie : Cookie) : Moment Unit → Account → Prop
  | listing {types l} (nonzero : 0 ∉ types) (room : types.length < maxAuthTypes) :
      ClientAt cookie .waits ⟨types, [], [], .awaitAuthTypes, l⟩
  | tooLong {types l} (nonzero : 0 ∉ types) (full : types.length = maxAuthTypes) :
      ClientAt cookie (.gaveUp (.protocol (.authTypesTooLong maxAuthTypes)))
        ⟨types, [], [], .awaitAuthTypes, l⟩
  | notOffered {types l} (listed : Listed types) (missing : safeCookie ∉ types) :
      ClientAt cookie (.gaveUp (.auth (.safeCookieNotOffered types)))
        ⟨types ++ [0], [], [], .awaitAuthTypes, l⟩
  | listed {types l} (offer : Offered types) :
      ClientAt cookie .thinks ⟨types ++ [0], [], [], .awaitAuthTypes, l⟩
  | selecting {types p l} (offer : Offered types) (part : p <+: [safeCookie]) :
      ClientAt cookie .writes ⟨types ++ [0], p, [], .sendSelection, l⟩
  | selected {types s l} (offer : Offered types)
      (step : s = .sendSelection ∨ s = .sendClientNonce) :
      ClientAt cookie .thinks ⟨types ++ [0], [safeCookie], [], s, l⟩
  | challenging {types nc p l} (offer : Offered types) (long : nc.length = 32)
      (part : p <+: nc) :
      ClientAt cookie .writes ⟨types ++ [0], safeCookie :: p, [nc], .sendClientNonce, l⟩
  | challenged {types nc l} (offer : Offered types) (long : nc.length = 32) :
      ClientAt cookie .thinks ⟨types ++ [0], safeCookie :: nc, [nc], .sendClientNonce, l⟩
  | awaiting {types nc bs l} (offer : Offered types) (long : nc.length = 32)
      (short : bs.length < 64) :
      ClientAt cookie .waits
        ⟨types ++ 0 :: bs, safeCookie :: nc, [nc], .awaitServerResponse, l⟩
  | answered {types nc hash ns l} (offer : Offered types) (long : nc.length = 32)
      (longHash : hash.length = 32) (longNonce : ns.length = 32) :
      ClientAt cookie .thinks
        ⟨types ++ 0 :: (hash ++ ns), safeCookie :: nc, [nc], .awaitServerResponse, l⟩
  | mismatch {types nc hash ns l} (offer : Offered types) (long : nc.length = 32)
      (longHash : hash.length = 32) (longNonce : ns.length = 32)
      (wrong : hash ≠ serverHash cookie.secret nc ns) :
      ClientAt cookie (.gaveUp (.auth .serverHashMismatch))
        ⟨types ++ 0 :: (hash ++ ns), safeCookie :: nc, [nc], .verifyServer, l⟩
  | verified {types nc ns l} (offer : Offered types) (long : nc.length = 32)
      (longNonce : ns.length = 32) :
      ClientAt cookie .thinks
        ⟨types ++ 0 :: (serverHash cookie.secret nc ns ++ ns), safeCookie :: nc, [nc],
          .verifyServer, l⟩
  | proving {types nc ns p l} (offer : Offered types) (long : nc.length = 32)
      (longNonce : ns.length = 32) (part : p <+: clientHash cookie.secret nc ns) :
      ClientAt cookie .writes
        ⟨types ++ 0 :: (serverHash cookie.secret nc ns ++ ns), safeCookie :: (nc ++ p), [nc],
          .sendClientHash, l⟩
  | proved {types nc ns l} (offer : Offered types) (long : nc.length = 32)
      (longNonce : ns.length = 32) :
      ClientAt cookie .thinks
        ⟨types ++ 0 :: (serverHash cookie.secret nc ns ++ ns),
          safeCookie :: (nc ++ clientHash cookie.secret nc ns), [nc], .sendClientHash, l⟩
  | awaitingStatus {types nc ns l} (offer : Offered types) (long : nc.length = 32)
      (longNonce : ns.length = 32) :
      ClientAt cookie .waits
        ⟨types ++ 0 :: (serverHash cookie.secret nc ns ++ ns),
          safeCookie :: (nc ++ clientHash cookie.secret nc ns), [nc], .awaitStatus, l⟩
  | rejected {types nc ns status l} (offer : Offered types) (long : nc.length = 32)
      (longNonce : ns.length = 32) (wrong : status ≠ success) :
      ClientAt cookie (.gaveUp (.auth (.statusRejected status.toNat)))
        ⟨types ++ 0 :: (serverHash cookie.secret nc ns ++ (ns ++ [status])),
          safeCookie :: (nc ++ clientHash cookie.secret nc ns), [nc], .awaitStatus, l⟩
  | accepted {types nc ns l} (offer : Offered types) (long : nc.length = 32)
      (longNonce : ns.length = 32) :
      ClientAt cookie .thinks
        ⟨types ++ 0 :: (serverHash cookie.secret nc ns ++ (ns ++ [success])),
          safeCookie :: (nc ++ clientHash cookie.secret nc ns), [nc], .awaitStatus, l⟩
  | trailing {types nc ns n} (offer : Offered types) (long : nc.length = 32)
      (longNonce : ns.length = 32) (more : n ≠ 0) :
      ClientAt cookie (.gaveUp (.protocol (.trailingData n)))
        ⟨types ++ 0 :: (serverHash cookie.secret nc ns ++ (ns ++ [success])),
          safeCookie :: (nc ++ clientHash cookie.secret nc ns), [nc], .awaitStatus, some n⟩
  | through {types nc ns} (offer : Offered types) (long : nc.length = 32)
      (longNonce : ns.length = 32) :
      ClientAt cookie (.done ())
        ⟨types ++ 0 :: (serverHash cookie.secret nc ns ++ (ns ++ [success])),
          safeCookie :: (nc ++ clientHash cookie.secret nc ns), [nc], .authenticated, some 0⟩

/-- Reading auth types, a party is told octets other than zero, and not too
many, until a zero comes. -/
theorem authTypesFrom_keeps {P : Moment Bytes → Account → Prop} {room : Nat} {seen : Bytes}
    {l : Option Nat} (nonzero : 0 ∉ seen) (hroom : seen.length + room = maxAuthTypes)
    (listing : ∀ types l, 0 ∉ types → types.length < maxAuthTypes →
      P .waits ⟨types, [], [], .awaitAuthTypes, l⟩)
    (tooLong : ∀ types l, 0 ∉ types → types.length = maxAuthTypes →
      P (.gaveUp (.protocol (.authTypesTooLong maxAuthTypes)))
        ⟨types, [], [], .awaitAuthTypes, l⟩)
    (listed : ∀ types l, Listed types →
      P (.done types) ⟨types ++ [0], [], [], .awaitAuthTypes, l⟩) :
    Keeps P (authTypesFrom room seen) ⟨seen.reverse, [], [], .awaitAuthTypes, l⟩ := by
  induction room generalizing seen l with
  | zero =>
      have full : seen.length = maxAuthTypes := hroom
      simp only [authTypesFrom, breach, Keeps, full]
      exact tooLong _ _ (by simpa using nonzero) (by simpa using full)
  | succ room ih =>
      have hlt : seen.length < maxAuthTypes := by omega
      simp only [authTypesFrom, Keeps, Account.hear]
      refine ⟨listing _ _ (by simpa using nonzero) (by simpa using hlt), ?_⟩
      intro b
      by_cases hb : b = 0
      · subst hb
        rw [if_pos rfl]
        exact listed _ _ ⟨by simpa using nonzero, by simpa using hlt⟩
      · rw [if_neg hb, ← List.reverse_cons]
        refine ih ?_ (by simp only [List.length_cons]; omega)
        simpa using ⟨Ne.symm hb, nonzero⟩

/-- Waiting for the status. -/
theorem awaitStatus_keeps {cookie : Cookie} {types nc ns : Bytes} {l : Option Nat}
    (offer : Offered types) (long : nc.length = 32) (longNonce : ns.length = 32) :
    Keeps (ClientAt cookie) awaitStatus
      ⟨types ++ 0 :: (serverHash cookie.secret nc ns ++ ns),
        safeCookie :: (nc ++ clientHash cookie.secret nc ns), [nc], .sendClientHash, l⟩ := by
  simp only [awaitStatus, reach, readOctet, readAhead, bind_def, Dialogue.bind, Keeps, Account.mark,
    Account.hear, List.append_assoc, List.cons_append]
  refine ⟨.proved offer long longNonce, .awaitingStatus offer long longNonce, ?_⟩
  intro status
  by_cases hs : status = success
  · subst hs
    simp only [if_true, Keeps, Account.look]
    refine ⟨.accepted offer long longNonce, ?_⟩
    intro n
    by_cases hn : n = 0
    · subst hn
      simp only [if_true, Keeps, Account.mark]
      exact ⟨.accepted offer long longNonce, .through offer long longNonce⟩
    · rw [if_neg hn]
      exact .trailing offer long longNonce hn
  · rw [if_neg hs]
    exact .rejected offer long longNonce hs

/-- From a taken-up offer to the status. -/
theorem exchange_keeps {cookie : Cookie} {types : Bytes} {l : Option Nat}
    (offer : Offered types) :
    Keeps (ClientAt cookie) (exchange cookie) ⟨types ++ [0], [], [], .awaitAuthTypes, l⟩ := by
  simp only [exchange, reach, say, push, nonce, Dialogue.read, bind_def, Dialogue.bind, Keeps,
    Account.mark, Account.say, Account.draw, Account.hear, List.append_assoc, List.cons_append,
    List.nil_append]
  refine ⟨.listed offer, fun p hp => .selecting offer hp, .selected offer (.inl rfl),
    .selected offer (.inr rfl), fun nc long => ⟨fun p hp => .challenging offer long hp,
    .challenging offer long (List.prefix_refl _), .challenged offer long,
    fun bs short => .awaiting offer long (by omega), fun hash longHash =>
    ⟨fun bs short => .awaiting offer long (by rw [List.length_append]; omega),
    fun ns longNonce => ⟨.answered offer long longHash longNonce, ?_⟩⟩⟩⟩
  by_cases hsame : sameHash hash (serverHash cookie.secret nc ns) = true
  · obtain rfl := sameHash_iff.mp hsame
    simp only [hsame, if_true, Keeps, Account.mark, Account.say,
      List.cons_append]
    exact ⟨.verified offer long longNonce, fun p hp => .proving offer long longNonce hp,
      .proving offer long longNonce (List.prefix_refl _), awaitStatus_keeps offer long longNonce⟩
  · rw [if_neg hsame]
    exact .mismatch offer long longHash longNonce (mt sameHash_iff.mpr hsame)

/-- **A client is where `ClientAt` says**, at every moment, whatever it is told. -/
theorem client_keeps (cookie : Cookie) :
    Keeps (ClientAt cookie) (client cookie) (.fresh .awaitAuthTypes) := by
  have hroom : ([] : Bytes).length + maxAuthTypes = maxAuthTypes := Nat.zero_add _
  refine keeps_bind (authTypesFrom_keeps List.not_mem_nil hroom ?_ ?_ ?_)
  · intro types l nonzero room
    exact .listing nonzero room
  · intro types l nonzero full
    exact .tooLong nonzero full
  · intro types l hlisted
    by_cases hmem : safeCookie ∈ types
    · simp only [List.contains_iff_mem, hmem, if_true]
      exact exchange_keeps ⟨hlisted, hmem⟩
    · simp only [List.contains_iff_mem, hmem, if_false]
      exact .notOffered hlisted hmem

/-- What a client has said at any moment.  Before it has verified the server:
nothing; or, once it has heard a list that it takes up, the selection and octets
of its nonce.  After that, octets of its own proof as well. -/
theorem ClientAt.said_cases {cookie : Cookie} {m : Moment Unit} {h : Account}
    (hat : ClientAt cookie m h) :
    (h.step.verified = false ∧
      (h.said = [] ∨ ∃ types rest, Offered types ∧ h.heard = types ++ 0 :: rest ∧
        (h.said = [safeCookie] ∧ h.drawn = [] ∨
          ∃ nc p, nc.length = 32 ∧ h.drawn = [nc] ∧ p <+: nc ∧ h.said = safeCookie :: p))) ∨
    (h.step.verified = true ∧
      ∃ types nc ns p rest, Offered types ∧ nc.length = 32 ∧ ns.length = 32 ∧ h.drawn = [nc] ∧
        h.heard = types ++ 0 :: (serverHash cookie.secret nc ns ++ (ns ++ rest)) ∧
        p <+: clientHash cookie.secret nc ns ∧ h.said = safeCookie :: (nc ++ p)) := by
  cases hat with
  | listing | tooLong | notOffered | listed => exact .inl ⟨rfl, .inl rfl⟩
  | @selecting types p l offer part =>
      refine .inl ⟨rfl, ?_⟩
      rcases p with _ | ⟨b, p⟩
      · exact .inl rfl
      · obtain ⟨rfl, hp⟩ := List.cons_prefix_cons.mp part
        obtain rfl := List.prefix_nil.mp hp
        exact .inr ⟨types, [], offer, rfl, .inl ⟨rfl, rfl⟩⟩
  | @selected types s l offer step =>
      refine .inl ⟨?_, .inr ⟨types, [], offer, rfl, .inl ⟨rfl, rfl⟩⟩⟩
      rcases step with rfl | rfl <;> rfl
  | @challenging types nc p l offer long part =>
      exact .inl ⟨rfl, .inr ⟨types, [], offer, rfl, .inr ⟨nc, p, long, rfl, part, rfl⟩⟩⟩
  | @challenged types nc l offer long =>
      exact .inl ⟨rfl, .inr ⟨types, [], offer, rfl,
        .inr ⟨nc, nc, long, rfl, List.prefix_refl _, rfl⟩⟩⟩
  | @awaiting types nc bs l offer long short =>
      exact .inl ⟨rfl, .inr ⟨types, bs, offer, rfl,
        .inr ⟨nc, nc, long, rfl, List.prefix_refl _, rfl⟩⟩⟩
  | @answered types nc hash ns l offer long longHash longNonce =>
      exact .inl ⟨rfl, .inr ⟨types, _, offer, rfl,
        .inr ⟨nc, nc, long, rfl, List.prefix_refl _, rfl⟩⟩⟩
  | @mismatch types nc hash ns l offer long longHash longNonce wrong =>
      exact .inl ⟨rfl, .inr ⟨types, _, offer, rfl,
        .inr ⟨nc, nc, long, rfl, List.prefix_refl _, rfl⟩⟩⟩
  | @verified types nc ns l offer long longNonce =>
      exact .inl ⟨rfl, .inr ⟨types, _, offer, rfl,
        .inr ⟨nc, nc, long, rfl, List.prefix_refl _, rfl⟩⟩⟩
  | @proving types nc ns p l offer long longNonce part =>
      exact .inr ⟨rfl, types, nc, ns, p, [], offer, long, longNonce, rfl, by simp, part, rfl⟩
  | @proved types nc ns l offer long longNonce =>
      exact .inr ⟨rfl, types, nc, ns, _, [], offer, long, longNonce, rfl, by simp,
        List.prefix_refl _, rfl⟩
  | @awaitingStatus types nc ns l offer long longNonce =>
      exact .inr ⟨rfl, types, nc, ns, _, [], offer, long, longNonce, rfl, by simp,
        List.prefix_refl _, rfl⟩
  | @rejected types nc ns status l offer long longNonce wrong =>
      exact .inr ⟨rfl, types, nc, ns, _, [status], offer, long, longNonce, rfl, rfl,
        List.prefix_refl _, rfl⟩
  | @accepted types nc ns l offer long longNonce =>
      exact .inr ⟨rfl, types, nc, ns, _, [success], offer, long, longNonce, rfl, rfl,
        List.prefix_refl _, rfl⟩
  | @trailing types nc ns n offer long longNonce more =>
      exact .inr ⟨rfl, types, nc, ns, _, [success], offer, long, longNonce, rfl, rfl,
        List.prefix_refl _, rfl⟩
  | @through types nc ns offer long longNonce =>
      exact .inr ⟨rfl, types, nc, ns, _, [success], offer, long, longNonce, rfl, rfl,
        List.prefix_refl _, rfl⟩

end SafeCookie

/-- **Authentication at an endpoint** ends at one of the client's moments, and
the endpoint bears out the account. -/
theorem Endpoint.handshake_account (cookie : Cookie) (e : Endpoint) :
    ∃ h, Dialogue.Rests .authentication (SafeCookie.ClientAt cookie) (e.handshake cookie).1 h ∧
      Account.Fits e.wire.pending e.wire.sent e.supply h (e.handshake cookie).2 :=
  (SafeCookie.client_keeps cookie).hold .authentication (Account.Fits.begin
    { e with held := [], window := SafeCookie.readAheadSize, step := .awaitAuthTypes })

end ManagedTransport
