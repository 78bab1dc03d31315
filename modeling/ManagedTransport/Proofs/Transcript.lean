import ManagedTransport.Proofs.ClientSide
import ManagedTransport.Proofs.SetupSide

/-!
# What a client writes to an arbitrary peer

Whatever arrives, in whatever pieces and after whatever pauses, and wherever
reading, writing or flushing fails, a client that negotiates writes a part of
one fixed sequence of messages, from its front; and each of them only after the
peer has earned it.

* `transcript` — the sequence;
* `Earned` — what the peer must have sent for so many octets;
* `negotiate_writes_transcript` — no more is written, and nothing unearned.
-/

namespace ManagedTransport

open SafeCookie

/-- All that a client ever writes, in order: the selection, its nonce, its
hash, and its announcements. -/
def transcript (cookie : Cookie) (info : SessionInfo) (nc ns : Bytes) : Bytes :=
  safeCookie :: (nc ++ (clientHash cookie.secret nc ns ++ info.announcement))

/-- What the peer of an endpoint must have sent for the client to have written
these octets. -/
structure Earned (cookie : Cookie) (e : Endpoint) (ns written : Bytes) : Prop where
  /-- For the first octet, a list of auth types with the safe cookie. -/
  offer : 1 ≤ written.length →
    ∃ types rest, Offered types ∧ e.wire.pending = types ++ 0 :: rest
  /-- For an octet of the client's hash, the server's hash and its nonce. -/
  proof : 34 ≤ written.length →
    ∃ types rest, Offered types ∧ e.wire.pending =
      types ++ 0 :: (serverHash cookie.secret e.supply.draw.1 ns ++ (ns ++ rest))
  /-- For an octet of the announcements, the status of success, with nothing
  read ahead behind it. -/
  status : 66 ≤ written.length →
    ∃ types rest after, Offered types ∧ e.wire.pending =
      types ++ 0 :: (serverHash cookie.secret e.supply.draw.1 ns ++ (ns ++ success :: rest)) ∧
      e.handshake cookie = (.done (), after) ∧ after.held = [] ∧ after.wire.pending = rest

/-- What was written since `e` is from the front of the transcript, and was earned. -/
def WritesTranscript (cookie : Cookie) (info : SessionInfo) (e after : Endpoint) : Prop :=
  ∃ written ns, after.wire.sent = e.wire.sent ++ written ∧ ns.length = 32 ∧
    written <+: transcript cookie info e.supply.draw.1 ns ∧ Earned cookie e ns written

/-- What a client says while it authenticates is from the front of the
transcript and was earned. -/
theorem SafeCookie.ClientAt.writes {cookie : Cookie} {info : SessionInfo} {m : Moment Unit}
    {h : Account} {e after : Endpoint} (hat : ClientAt cookie m h)
    (hf : Account.Fits e.wire.pending e.wire.sent e.supply h after) :
    WritesTranscript cookie info e after := by
  have hlen : e.supply.draw.1.length = 32 := by simp
  rcases hat.said_cases with ⟨-, hsaid | ⟨types, rest, offer, hheard, hsaid⟩⟩ |
    ⟨-, types, nc, ns, p, rest, offer, long, longNonce, hdrawn, hheard, hp, hsaid⟩
  · refine ⟨[], Bytes.zeros 32, ?_, rfl, List.nil_prefix, ⟨?_, ?_, ?_⟩⟩
    · rw [hf.said, hsaid]
    all_goals
      intro hlt
      simp at hlt
  · have hpart : ∃ p, p <+: e.supply.draw.1 ∧ h.said = safeCookie :: p := by
      rcases hsaid with ⟨hsaid, -⟩ | ⟨nc, p, -, hdrawn, hp, hsaid⟩
      · exact ⟨[], List.nil_prefix, hsaid⟩
      · exact ⟨p, hf.nonce hdrawn ▸ hp, hsaid⟩
    obtain ⟨p, hp, hsaid⟩ := hpart
    have hshort := hp.length_le
    refine ⟨_, Bytes.zeros 32, hf.said, rfl, ?_, ⟨?_, ?_, ?_⟩⟩
    · rw [hsaid, transcript, List.cons_prefix_cons]
      exact ⟨rfl, hp.trans (List.prefix_append _ _)⟩
    · intro _
      exact ⟨types, rest ++ after.pending, offer, by rw [← hf.heard, hheard]; simp⟩
    all_goals
      intro hlt
      simp only [hsaid, List.length_cons] at hlt
      omega
  · have hnonce := hf.nonce hdrawn
    have hshort := hp.length_le
    rw [length_clientHash] at hshort
    have hpending : e.wire.pending = types ++ 0 ::
        (serverHash cookie.secret e.supply.draw.1 ns ++ (ns ++ (rest ++ after.pending))) := by
      rw [← hf.heard, hheard, ← hnonce]
      simp
    refine ⟨_, ns, hf.said, longNonce, ?_, ⟨?_, ?_, ?_⟩⟩
    · rw [hsaid, transcript, List.cons_prefix_cons, hnonce, List.prefix_append_right_inj]
      exact ⟨rfl, hp.trans (hnonce ▸ List.prefix_append _ _)⟩
    · intro _
      exact ⟨types, _, offer, hpending⟩
    · intro _
      exact ⟨types, _, offer, hpending⟩
    · intro hlt
      simp only [hsaid, List.length_cons, List.length_append] at hlt
      omega

/-- A client that has authenticated has written all up to its announcements,
and holds nothing. -/
theorem handshake_done {cookie : Cookie} {e after : Endpoint}
    (hdone : e.handshake cookie = (.done (), after)) :
    ∃ types ns, Offered types ∧ ns.length = 32 ∧ after.held = [] ∧
      after.wire.sent = e.wire.sent ++ safeCookie ::
        (e.supply.draw.1 ++ clientHash cookie.secret e.supply.draw.1 ns) ∧
      e.wire.pending = types ++ 0 :: (serverHash cookie.secret e.supply.draw.1 ns ++
        (ns ++ success :: after.wire.pending)) := by
  obtain ⟨h, hrests, hf⟩ := e.handshake_account cookie
  rw [hdone] at hrests hf
  cases (hrests : ClientAt cookie (.done ()) h) with
  | @through types nc ns offer long longNonce =>
      obtain rfl := hf.nonce rfl
      have hheld : after.held = [] := List.length_eq_zero_iff.mp (hf.left 0 rfl)
      refine ⟨types, ns, offer, longNonce, hheld, hf.said, ?_⟩
      rw [← hf.heard, Endpoint.pending, hheld]
      simp

/-- However long a client waits, it writes from the front of the transcript,
and what it wrote was earned. -/
theorem exchange_writes (cookie : Cookie) (info : SessionInfo) (e : Endpoint) :
    WritesTranscript cookie info e (e.exchange cookie info).2 := by
  rcases hh : e.handshake cookie with ⟨r, after⟩
  obtain ⟨h, hrests, hf⟩ := e.handshake_account cookie
  rw [hh] at hrests hf
  obtain ⟨m, hat⟩ := hrests.now
  have hwrites : WritesTranscript cookie info e after := hat.writes hf
  rcases r with _ | err | _ | _
  case done =>
    obtain ⟨types, ns, offer, longNonce, hheld, hsent, hpending⟩ := handshake_done hh
    obtain ⟨h2, hrests2, hf2⟩ := after.dropAhead.setup_account info
    obtain ⟨m2, hat2⟩ := hrests2.now
    have hsaid := hat2.said_prefix.1
    have hexchange : e.exchange cookie info = after.dropAhead.setup info := by
      simp only [Endpoint.exchange, Endpoint.authenticate, hh]
    refine ⟨safeCookie :: (e.supply.draw.1 ++ clientHash cookie.secret e.supply.draw.1 ns) ++
      h2.said, ns, ?_, longNonce, ?_, ⟨?_, ?_, ?_⟩⟩
    · rw [hexchange, hf2.said, show after.dropAhead.wire = after.wire from rfl, hsent,
        List.append_assoc]
    · rw [transcript, List.cons_append, List.cons_prefix_cons, List.append_assoc,
        List.prefix_append_right_inj, List.prefix_append_right_inj]
      exact ⟨rfl, hsaid⟩
    · intro _
      exact ⟨types, _, offer, hpending⟩
    · intro _
      exact ⟨types, _, offer, hpending⟩
    · intro _
      exact ⟨types, _, after, offer, hpending, hh, hheld, rfl⟩
  all_goals
    simp only [Endpoint.exchange, Endpoint.authenticate, hh]
    exact hwrites

/-- **Transcript safety.**  Against any peer, on any wire and with any deadline,
a client that negotiates writes from the front of the transcript, and what it
wrote was earned.  So it is without a deadline, where waiting may never end. -/
theorem negotiate_writes_transcript (cookie : Cookie) (info : SessionInfo) (e : Endpoint) :
    (∀ limit, WritesTranscript cookie info { e with deadline := some limit }
      (e.negotiate cookie info limit).2) ∧
    WritesTranscript cookie info e (e.exchange cookie info).2 := by
  refine ⟨fun limit => ?_, exchange_writes cookie info e⟩
  have hwrites := exchange_writes cookie info { e with deadline := some limit }
  rcases hx : ({ e with deadline := some limit } : Endpoint).exchange cookie info with
    ⟨_ | err | _ | _, after⟩ <;>
  · rw [hx] at hwrites
    simp only [Endpoint.negotiate, hx]
    exact hwrites

end ManagedTransport
