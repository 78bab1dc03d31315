import ManagedTransport.Proofs.Intake
import ManagedTransport.Proofs.RelayTurns

/-!
# What comes of a relay that authenticates

Whatever the client sends, in whatever pieces, and however the wire fails, what a relay says
is from the front of one sequence of octets, and each part of it is owed to what the relay has
heard.

* `nonceHeard`, `hashHeard` — the client's nonce and hash, as far as they were heard;
* `RelayVerdict` — what the relay took and wrote, what it drew, and what it returned for that;
* `relay_verdict` — this holds on every wire, with every deadline.
-/

namespace ManagedTransport

namespace SafeCookie

/-- The client's nonce in what a relay has heard. -/
def nonceHeard (heard : Bytes) : Bytes := (heard.drop 1).take 32

/-- The client's hash in what a relay has heard. -/
def hashHeard (heard : Bytes) : Bytes := heard.drop 33

/-- The status that a relay owes to what it has heard. -/
def statusOwed (cookie : Cookie) (ns heard : Bytes) : UInt8 :=
  statusFor cookie (nonceHeard heard) ns (hashHeard heard)

theorem nonceHeard_cons {b : UInt8} {nc rest : Bytes} (long : nc.length = 32) :
    nonceHeard (b :: (nc ++ rest)) = nc := by
  rw [nonceHeard, List.drop_one, List.tail_cons, ← long, List.take_left]

theorem hashHeard_cons {b : UInt8} {nc hash : Bytes} (long : nc.length = 32) :
    hashHeard (b :: (nc ++ hash)) = hash := by
  rw [hashHeard, List.drop_succ_cons, ← long, List.drop_left]

theorem statusOwed_cons {cookie : Cookie} {b : UInt8} {nc ns hash : Bytes}
    (long : nc.length = 32) :
    statusOwed cookie ns (b :: (nc ++ hash)) = statusFor cookie nc ns hash := by
  rw [statusOwed, nonceHeard_cons long, hashHeard_cons long]

/-- A status is one of two, and what is returned tells which. -/
theorem returnedFor_statusFor {cookie : Cookie} {nc ns hash : Bytes} {status : UInt8}
    (known : status = success ∨ status = failure)
    (h : returnedFor (statusFor cookie nc ns hash) = returnedFor status) :
    statusFor cookie nc ns hash = status := by
  by_cases right : hash = clientHash cookie.secret nc ns
  · rw [statusFor_right right] at h ⊢
    rcases known with rfl | rfl
    · rfl
    · exact absurd h (by decide)
  · rw [statusFor_wrong right] at h ⊢
    rcases known with rfl | rfl
    · exact absurd h (by decide)
    · rfl

theorem length_heard {b : UInt8} {nc hash : Bytes} (long : nc.length = 32)
    (longHash : hash.length = 32) : (b :: (nc ++ hash)).length = 65 := by
  rw [List.length_cons, List.length_append, long, longHash]

theorem length_relayTranscript {cookie : Cookie} {nc ns : Bytes} (status : UInt8)
    (longNonce : ns.length = 32) : (relayTranscript cookie nc ns status).length = 67 := by
  simp [relayTranscript, longNonce, length_serverHash]

theorem relayTranscript_inj {cookie : Cookie} {nc ns : Bytes} {status status2 : UInt8} :
    relayTranscript cookie nc ns status = relayTranscript cookie nc ns status2 ↔
      status = status2 := by
  simp [relayTranscript]

section

variable {cookie : Cookie} {ns heard said : Bytes} {ops : List Operation} {drawn : List Bytes}
  {r : Ending Error Unit}

/-- All octets of a relay are in their place. -/
theorem RelayEnd.order (h : RelayEnd cookie ns ops heard said drawn r) :
    said <+: relayTranscript cookie (nonceHeard heard) ns (statusOwed cookie ns heard) := by
  have offer : ∀ rest : Bytes, [safeCookie, 0] <+: safeCookie :: 0 :: rest :=
    fun rest => ⟨rest, rfl⟩
  cases h with
  | offering few part => exact part.trans (offer _)
  | unsupported other => exact offer _
  | proving long short part =>
      rw [nonceHeard_cons long, relayTranscript, List.cons_prefix_cons, List.cons_prefix_cons]
      exact ⟨rfl, rfl, part.trans (List.prefix_append _ _)⟩
  | unanswered long longHash =>
      rw [nonceHeard_cons long, relayTranscript, ← List.cons_append, ← List.cons_append]
      exact List.prefix_append _ _
  | unflushed long longHash | answered long longHash =>
      simp only [nonceHeard_cons long, statusOwed_cons long, List.prefix_refl]

/-- A relay that goes beyond its offer was asked for the safe cookie and given a nonce. -/
theorem RelayEnd.gate (h : RelayEnd cookie ns ops heard said drawn r)
    (beyond : 2 < said.length ∨ drawn ≠ []) :
    heard.head? = some safeCookie ∧ 33 ≤ heard.length := by
  cases h with
  | offering few part =>
      have hshort := part.length_le
      rcases beyond with hlong | hdrawn
      · exact absurd hshort (by simpa using hlong)
      · exact absurd rfl hdrawn
  | unsupported other => simp at beyond
  | proving long | unanswered long | unflushed long | answered long =>
      refine ⟨rfl, ?_⟩
      rw [List.length_cons, List.length_append, long]
      omega

/-- A relay draws one nonce at most. -/
theorem RelayEnd.drawn_cases (h : RelayEnd cookie ns ops heard said drawn r) :
    drawn = [] ∨ drawn = [ns] := by
  cases h with
  | offering | unsupported => exact .inl rfl
  | proving | unanswered | unflushed | answered => exact .inr rfl

/-- A relay that has answered was given a nonce and a hash. -/
theorem RelayEnd.of_answered (h : RelayEnd cookie ns ops heard said drawn r)
    (answered : Answered r) :
    ∃ nc hash first, nc.length = 32 ∧ hash.length = 32 ∧ heard = safeCookie :: (nc ++ hash) ∧
      said = relayTranscript cookie nc ns (statusFor cookie nc ns hash) ∧
      r = returnedFor (statusFor cookie nc ns hash) ∧ (∀ op ∈ ops, op.Passes) ∧
      ops = first ++ [.flush (.ok ())] := by
  cases h with
  | @answered nc hash first long longHash passes last =>
      exact ⟨nc, hash, first, long, longHash, rfl, rfl, rfl, passes, last⟩
  | unsupported | unanswered | unflushed => simp [Answered] at answered
  | @offering _ _ _ halt | @proving _ _ _ _ halt =>
      cases halt <;> simp [Answered, Halt.ending] at answered

/-- A relay that has said its status was given a nonce and a hash, and has answered unless a
flush has failed. -/
theorem RelayEnd.of_status (h : RelayEnd cookie ns ops heard said drawn r)
    (longNonce : ns.length = 32) (full : 66 < said.length) :
    ∃ nc hash, nc.length = 32 ∧ hash.length = 32 ∧ heard = safeCookie :: (nc ++ hash) ∧
      said = relayTranscript cookie nc ns (statusFor cookie nc ns hash) ∧
      (r = returnedFor (statusFor cookie nc ns hash) ∨ ∃ f, .flush (.error f) ∈ ops) := by
  cases h with
  | answered long longHash => exact ⟨_, _, long, longHash, rfl, rfl, .inl rfl⟩
  | unflushed long longHash fails => exact ⟨_, _, long, longHash, rfl, rfl, .inr ⟨_, fails⟩⟩
  | offering few part =>
      have hshort := part.length_le
      rw [List.length_cons, List.length_singleton] at hshort
      omega
  | unsupported => simp at full
  | proving long short part =>
      have hshort := part.length_le
      rw [List.length_append, length_serverHash, longNonce] at hshort
      simp only [List.length_cons] at full
      omega
  | unanswered => simp [length_serverHash, longNonce] at full

/-- **What a relay returns with its status.**  It returns so if and only if it has said just
this status and every flush has succeeded. -/
theorem RelayEnd.returns_iff (h : RelayEnd cookie ns ops heard said drawn r)
    (longNonce : ns.length = 32) {status : UInt8} (known : status = success ∨ status = failure) :
    r = returnedFor status ↔ said = relayTranscript cookie (nonceHeard heard) ns status ∧
      ∀ outcome, .flush outcome ∈ ops → outcome = .ok () := by
  constructor
  · intro hr
    have answered : Answered r := by
      rw [hr]
      rcases known with rfl | rfl
      · exact .inl rfl
      · exact .inr rfl
    obtain ⟨nc, hash, first, long, longHash, rfl, rfl, hresult, passes, -⟩ := h.of_answered answered
    have hstatus := returnedFor_statusFor known (hresult.symm.trans hr)
    refine ⟨?_, ?_⟩
    · rw [nonceHeard_cons long, hstatus]
    · intro outcome hmem
      rcases outcome with f | _
      · cases passes _ hmem
      · rfl
  · rintro ⟨hsaid, hflushes⟩
    have full : 66 < said.length := by
      rw [hsaid, length_relayTranscript _ longNonce]
      omega
    obtain ⟨nc, hash, long, longHash, rfl, hsaid2, hresult | ⟨f, hfails⟩⟩ :=
      h.of_status longNonce full
    · rw [nonceHeard_cons long, hsaid2, relayTranscript_inj] at hsaid
      rw [hresult, hsaid]
    · cases hflushes _ hfails

/-- A relay rejects a selection if and only if it was given this and nothing else, and it is not
the safe cookie. -/
theorem RelayEnd.unsupported_iff (h : RelayEnd cookie ns ops heard said drawn r) (n : Nat) :
    r = .failed (.auth (.unsupportedSelection n)) ↔
      ∃ b, heard = [b] ∧ b ≠ safeCookie ∧ n = b.toNat := by
  cases h with
  | @unsupported b other =>
      constructor
      · intro hr
        cases hr
        exact ⟨b, rfl, other, rfl⟩
      · rintro ⟨c, hc, -, rfl⟩
        obtain rfl := List.singleton_inj.mp hc
        rfl
  | @offering _ _ _ halt few =>
      refine iff_of_false (by cases halt <;> simp [Halt.ending]) ?_
      rintro ⟨b, rfl, other, -⟩
      obtain hnil | ⟨bs, hbs, -⟩ := few
      · cases hnil
      · exact other (List.cons.inj hbs).1
  | @proving _ _ _ _ halt =>
      refine iff_of_false (by cases halt <;> simp [Halt.ending]) ?_
      rintro ⟨b, hb, other, -⟩
      exact other (List.cons.inj hb).1.symm
  | unanswered | unflushed =>
      refine iff_of_false (by simp) ?_
      rintro ⟨b, hb, other, -⟩
      exact other (List.cons.inj hb).1.symm
  | @answered nc hash =>
      refine iff_of_false (by rw [returnedFor]; split <;> simp) ?_
      rintro ⟨b, hb, other, -⟩
      exact other (List.cons.inj hb).1.symm

/-- A relay takes no more than a selection, a nonce and a hash. -/
theorem RelayEnd.few (h : RelayEnd cookie ns ops heard said drawn r) : heard.length ≤ 65 := by
  cases h with
  | offering few =>
      obtain rfl | ⟨bs, rfl, short⟩ := few
      · exact Nat.zero_le _
      · rw [List.length_cons]
        omega
  | unsupported =>
      rw [List.length_singleton]
      omega
  | proving long short =>
      rw [List.length_cons, List.length_append, long]
      omega
  | unanswered long longHash | unflushed long longHash | answered long longHash =>
      exact Nat.le_of_eq (length_heard long longHash)

/-- A relay that was given a hash answers, or reports the fault that keeps it from that. -/
theorem RelayEnd.answers (h : RelayEnd cookie ns ops heard said drawn r)
    (longNonce : ns.length = 32) (whole : heard.length = 65) :
    said.length = 67 ∨
      ∃ op ∈ ops, ∃ f, op.FailsBy f ∧ r = .failed (.network (.io .authentication f)) := by
  cases h with
  | unflushed long | answered long => exact .inl (length_relayTranscript _ longNonce)
  | unanswered long longHash tried fails => exact .inr ⟨_, tried, _, fails, rfl⟩
  | offering few =>
      obtain rfl | ⟨bs, rfl, short⟩ := few
      · cases whole
      · rw [List.length_cons] at whole
        omega
  | unsupported => cases whole
  | proving long short =>
      rw [List.length_cons, List.length_append, long] at whole
      omega

/-- A relay that neither answers nor rejects the selection was halted. -/
theorem RelayEnd.halted (h : RelayEnd cookie ns ops heard said drawn r) :
    Answered r ∨ (∃ n, r = .failed (.auth (.unsupportedSelection n))) ∨
      ∃ op ∈ ops, ∃ halt, op.halt? = some halt ∧ r = halt.ending .authentication := by
  cases h with
  | offering _ _ tried halts | proving _ _ _ tried halts =>
      exact .inr (.inr ⟨_, tried, _, halts, rfl⟩)
  | unsupported => exact .inr (.inl ⟨_, rfl⟩)
  | unanswered _ _ tried fails => exact .inr (.inr ⟨_, tried, _, fails, rfl⟩)
  | unflushed _ _ fails => exact .inr (.inr ⟨_, fails, _, rfl, rfl⟩)
  | answered =>
      rw [returnedFor]
      split
      · exact .inl (.inl rfl)
      · exact .inl (.inr rfl)

end

end SafeCookie

namespace Endpoint

open SafeCookie

/-- What comes of a relay that authenticates at an endpoint, having heard and said this. -/
structure RelayVerdict (cookie : Cookie) (e : Endpoint) (heard said : Bytes) : Prop where
  /-- The relay makes these operations on its wire, and no others. -/
  undergone : Wire.Undergone e.deadline e.wire (e.relayOperations cookie)
    (e.authenticateRelay cookie).2.wire
  /-- What it heard it took from the front of the wire. -/
  took : e.wire.pending = heard ++ (e.authenticateRelay cookie).2.wire.pending
  /-- What it said it wrote behind what was written before. -/
  wrote : (e.authenticateRelay cookie).2.wire.sent = e.wire.sent ++ said
  /-- This is from the front of its offer, its proof, and the status that the hash deserves. -/
  order : said <+: relayTranscript cookie (nonceHeard heard) e.supply.draw.1
    (statusOwed cookie e.supply.draw.1 heard)
  /-- A nonce is drawn once at most. -/
  drew : (e.authenticateRelay cookie).2.supply = e.supply ∨
    (e.authenticateRelay cookie).2.supply = e.supply.draw.2
  /-- Nothing beyond the offer is written and no nonce drawn before the safe cookie is selected
  and all of the client's nonce is there. -/
  gate : 2 < said.length ∨ (e.authenticateRelay cookie).2.supply ≠ e.supply →
    heard.head? = some safeCookie ∧ 33 ≤ heard.length
  /-- A status is written only when all of a hash is there. -/
  status : 66 < said.length → heard.length = 65
  /-- The relay succeeds if and only if it has written the status of success and every flush
  has succeeded. -/
  done_iff : (e.authenticateRelay cookie).1 = .done () ↔
    said = relayTranscript cookie (nonceHeard heard) e.supply.draw.1 success ∧
      ∀ outcome, .flush outcome ∈ e.relayOperations cookie → outcome = .ok ()
  /-- It fails for the client's hash if and only if it has written the status of failure and
  every flush has succeeded. -/
  mismatch_iff : (e.authenticateRelay cookie).1 = .failed (.auth .clientHashMismatch) ↔
    said = relayTranscript cookie (nonceHeard heard) e.supply.draw.1 failure ∧
      ∀ outcome, .flush outcome ∈ e.relayOperations cookie → outcome = .ok ()
  /-- Either way it has taken all there is to take, and a flush came last. -/
  answered : Answered (e.authenticateRelay cookie).1 → heard.length = 65 ∧
    ∃ first, e.relayOperations cookie = first ++ [.flush (.ok ())]
  /-- It fails for the selection if and only if it has taken one, which is another. -/
  unsupported_iff : ∀ n,
    (e.authenticateRelay cookie).1 = .failed (.auth (.unsupportedSelection n)) ↔
      ∃ b, heard = [b] ∧ b ≠ safeCookie ∧ n = b.toNat
  /-- In every other case an operation has halted it, and it ends by that. -/
  halted : Answered (e.authenticateRelay cookie).1 ∨
    (∃ n, (e.authenticateRelay cookie).1 = .failed (.auth (.unsupportedSelection n))) ∨
    ∃ op ∈ e.relayOperations cookie, ∃ halt, op.halt? = some halt ∧
      (e.authenticateRelay cookie).1 = halt.ending .authentication
  few : heard.length ≤ 65
  /-- A client whose hash was taken is answered, unless the wire does not take the status. -/
  answers : heard.length = 65 → said.length = 67 ∨
    ∃ op ∈ e.relayOperations cookie, ∃ f, op.FailsBy f ∧
      (e.authenticateRelay cookie).1 = .failed (.network (.io .authentication f))

/-- **The verdict of a relay that reads nothing ahead** is as it should be. -/
theorem Direct.relayVerdict {e : Endpoint} (direct : e.Direct) (cookie : Cookie) :
    ∃ heard said, e.RelayVerdict cookie heard said := by
  obtain ⟨h, fits, hend⟩ := e.relay_ends cookie
  have longNonce : e.supply.draw.1.length = 32 := by simp
  have hafter : (e.authenticateRelay cookie).2.Direct := direct.hold .authentication _
  have hsupply := fits.supply
  have drew : (e.authenticateRelay cookie).2.supply = e.supply ∨
      (e.authenticateRelay cookie).2.supply = e.supply.draw.2 := by
    rcases hend.drawn_cases with hnone | hone
    · rw [hnone] at hsupply
      exact .inl hsupply
    · rw [hone] at hsupply
      exact .inr hsupply
  refine ⟨h.heard, h.said, ?_⟩
  exact {
    undergone := (Dialogue.undergone_hold .authentication _ e).wire
    took := by rw [← direct.pending_eq, ← hafter.pending_eq, fits.heard]
    wrote := fits.said
    order := hend.order
    drew := drew
    gate := by
      rintro (beyond | hdrew)
      · exact hend.gate (.inl beyond)
      · refine hend.gate (.inr ?_)
        intro hnone
        rw [hnone] at hsupply
        exact hdrew hsupply
    status := by
      intro full
      obtain ⟨nc, hash, long, longHash, hheard, -⟩ := hend.of_status longNonce full
      exact hheard ▸ length_heard long longHash
    done_iff := hend.returns_iff longNonce (.inl rfl)
    mismatch_iff := hend.returns_iff longNonce (.inr rfl)
    answered := by
      intro answered
      obtain ⟨nc, hash, first, long, longHash, hheard, -, -, -, hlast⟩ := hend.of_answered answered
      exact ⟨hheard ▸ length_heard long longHash, first, hlast⟩
    unsupported_iff := hend.unsupported_iff
    halted := hend.halted
    few := hend.few
    answers := hend.answers longNonce }

/-- **Relays are sound, complete, and always answer.**  On any wire, however long a relay waits,
what it takes, writes, draws and returns while it authenticates is as `RelayVerdict` says. -/
theorem relay_verdict (cookie : Cookie) (w : Wire) (s : Supply) (limit : Option Nat) :
    ∃ heard said, ({ ofWire w s with deadline := limit } : Endpoint).RelayVerdict cookie heard
      said :=
  Direct.relayVerdict ⟨rfl, rfl⟩ cookie

end Endpoint

end ManagedTransport
