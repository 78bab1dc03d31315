import ManagedTransport.Proofs.Approach
import ManagedTransport.Proofs.Deadline
import ManagedTransport.Proofs.Intake
import ManagedTransport.Proofs.ListeningSide
import ManagedTransport.Proofs.Transcript

/-!
# Where the stream stands

While it authenticates a client reads ahead, and what it has read ahead is dropped when it
is done.  No octet is lost by that: a client that has authenticated holds nothing, so the
session is set up from the octet behind the status on, and once that is done, from the
octet behind the relay's reply.

* `acceptance` — what a server has sent up to the status of success;
* `handshake_of_acceptance` — a client that was given that has authenticated, unless the
  fill that brought the status brought more;
* `stream_position` — what has gone from the wire after each part of a negotiation.
-/

namespace ManagedTransport

open SafeCookie

/-- What a server has sent up to the status of success. -/
def acceptance (types hash ns : Bytes) : Bytes := types ++ 0 :: (hash ++ (ns ++ [success]))

theorem length_acceptance {types hash ns : Bytes} (longHash : hash.length = 32)
    (longNonce : ns.length = 32) : (acceptance types hash ns).length = types.length + 66 := by
  simp only [acceptance, List.length_append, List.length_cons, List.length_nil, longHash,
    longNonce]

/-- A client that has heard the status of success thinks, finds more octets read ahead, or
is through. -/
theorem SafeCookie.ClientAt.of_acceptance {cookie : Cookie} {m : Moment Unit} {h : Account}
    {types hash ns : Bytes} (hat : ClientAt cookie m h) (nonzero : 0 ∉ types)
    (longHash : hash.length = 32) (longNonce : ns.length = 32)
    (heard : h.heard = acceptance types hash ns) :
    m = .thinks ∨
      (∃ n, n ≠ 0 ∧ m = .gaveUp (.protocol (.trailingData n)) ∧ h.left = some n) ∨
      m = .done () ∧ h.left = some 0 := by
  -- before the status fewer octets are heard behind the list of auth types
  have hrest : ∀ {types2 rest : Bytes}, 0 ∉ types2 →
      types2 ++ 0 :: rest = acceptance types hash ns → rest = hash ++ (ns ++ [success]) :=
    fun nonzero2 h => (Bytes.split_at_zero nonzero2 nonzero h).2
  have hshort : ∀ {types2 rest : Bytes}, 0 ∉ types2 → rest.length < 65 →
      types2 ++ 0 :: rest ≠ acceptance types hash ns := by
    intro types2 rest nonzero2 hlt h
    rw [hrest nonzero2 h] at hlt
    simp only [List.length_append, List.length_cons, List.length_nil, longHash, longNonce] at hlt
    omega
  have hzero : ∀ {types2 : Bytes}, 0 ∉ types2 → types2 ≠ acceptance types hash ns := by
    rintro types2 nonzero2 rfl
    simp [acceptance] at nonzero2
  cases hat with
  | listing nonzero2 | tooLong nonzero2 => exact absurd heard (hzero nonzero2)
  | notOffered listed => exact absurd heard (hshort listed.nonzero (by simp))
  | selecting offer | challenging offer => exact absurd heard (hshort offer.nonzero (by simp))
  | awaiting offer long short => exact absurd heard (hshort offer.nonzero (by omega))
  | mismatch offer long longHash2 longNonce2 =>
      refine absurd heard (hshort offer.nonzero ?_)
      rw [List.length_append]
      omega
  | proving offer long longNonce2 | awaitingStatus offer long longNonce2 =>
      refine absurd heard (hshort offer.nonzero ?_)
      rw [List.length_append, length_serverHash]
      omega
  | @rejected types2 nc ns2 status l offer long longNonce2 wrong =>
      have hsame := congrArg List.getLast? (hrest offer.nonzero heard)
      simp only [← List.append_assoc, List.getLast?_concat] at hsame
      exact absurd (Option.some.inj hsame) wrong
  | trailing offer long longNonce2 more => exact .inr (.inl ⟨_, more, rfl, rfl⟩)
  | through => exact .inr (.inr ⟨rfl, rfl⟩)
  | listed | selected | challenged | answered | verified | proved | accepted => exact .inl rfl

/-- A client whose session is accepted has said all of its announcement and heard one OKAY. -/
theorem SessionInfo.SetupAt.done_heard {info : SessionInfo} {h : Account} (hat : SetupAt info (.done ()) h) :
    ∃ okay : Command, okay.id = .okay ∧ okay.body.length ≤ Command.maxBody ∧
      h.heard = okay.octets ∧ h.said = info.announcement := by
  cases hat with
  | @accepted header body s l fits four whole okay =>
      have hcode : CommandId.ofCode (Command.headerCode header) = .ok .okay := by
        unfold outcome at okay
        split at okay
        · assumption
        all_goals cases okay
      refine ⟨⟨.okay, body⟩, rfl, Nat.le_of_lt_succ (whole ▸ Command.headerLength_lt header), ?_,
        rfl⟩
      rw [Command.octets_of_read four whole hcode]

namespace Endpoint

variable {cookie : Cookie} {info : SessionInfo} {e after : Endpoint}

/-- What a client takes in while it authenticates. -/
def handshakeIntake (cookie : Cookie) (e : Endpoint) : Intake :=
  (SafeCookie.client cookie).intake e.settingOut

theorem handshake_accounts (cookie : Cookie) (e : Endpoint) :
    Accounts (e.handshakeIntake cookie) e.settingOut (e.handshake cookie).2 :=
  Dialogue.accounts_hold .authentication _ _

/-- What a client that authenticates has heard is what it was given. -/
theorem heard_eq_given {h : Account}
    (hf : Account.Fits e.wire.pending e.wire.sent e.supply h (e.handshake cookie).2) :
    h.heard = (e.handshakeIntake cookie).given := by
  have hpending := (e.handshake_accounts cookie).pending
  have hheard : h.heard ++ (e.handshake cookie).2.pending = e.wire.pending := hf.heard
  exact List.append_cancel_right (hheard.trans hpending)

/-- **A client that was given an acceptance** has authenticated if nothing is held behind
it, and else counts what is held. -/
theorem handshake_of_acceptance {types hash ns : Bytes} (nonzero : 0 ∉ types)
    (longHash : hash.length = 32) (longNonce : ns.length = 32)
    (given : (e.handshakeIntake cookie).given = acceptance types hash ns) :
    (e.handshake cookie).1 = if (e.handshake cookie).2.held = [] then .done ()
      else .failed (.protocol (.trailingData (e.handshake cookie).2.held.length)) := by
  obtain ⟨h, hrests, hf⟩ := e.handshake_account cookie
  have hheard := (heard_eq_given hf).trans given
  rcases hr : (e.handshake cookie).1 with _ | err | _ | _
  all_goals rw [hr] at hrests
  case done =>
    rcases ClientAt.of_acceptance hrests nonzero longHash longNonce hheard with
      hm | ⟨n, -, hm, -⟩ | ⟨-, hleft⟩
    · cases hm
    · cases hm
    · rw [if_pos (List.length_eq_zero_iff.mp (hf.left 0 hleft))]
  case failed =>
    rcases hrests with hat | ⟨f, -, hat | hat⟩
    all_goals
      rcases ClientAt.of_acceptance hat nonzero longHash longNonce hheard with
        hm | ⟨n, hn, hm, hleft⟩ | ⟨hm, -⟩
    case inl.inr.inl =>
      obtain rfl := hf.left n hleft
      cases hm
      rw [if_neg fun hnil => hn (List.length_eq_zero_iff.mpr hnil)]
    all_goals cases hm
  all_goals
    rcases ClientAt.of_acceptance hrests nonzero longHash longNonce hheard with
      hm | ⟨n, -, hm, -⟩ | ⟨hm, -⟩
    all_goals cases hm

/-- A client that has set a session up has taken one OKAY. -/
theorem setup_done (hdone : e.setup info = (.done (), after)) :
    ∃ okay : Command, okay.id = .okay ∧ okay.body.length ≤ Command.maxBody ∧
      e.pending = okay.octets ++ after.pending := by
  obtain ⟨h, hrests, hf⟩ := e.setup_account info
  rw [hdone] at hrests hf
  obtain ⟨okay, hid, short, hheard, -⟩ := SessionInfo.SetupAt.done_heard hrests
  exact ⟨okay, hid, short, hheard ▸ hf.heard.symm⟩

/-- A client that has done both parts has done one after the other. -/
theorem exchange_done (hdone : e.exchange cookie info = (.done (), after)) :
    ∃ mid, e.handshake cookie = (.done (), mid) ∧ mid.dropAhead.setup info = (.done (), after) := by
  rcases hh : e.handshake cookie with ⟨_ | err | _ | _, mid⟩
  all_goals simp only [exchange, authenticate, hh] at hdone
  · exact ⟨mid, rfl, hdone⟩
  all_goals cases hdone

/-- A client that has negotiated has done both parts before the deadline. -/
theorem negotiate_done {limit : Nat} (hdone : e.negotiate cookie info limit = (.done (), after)) :
    ∃ last, (e.hurried limit).exchange cookie info = (.done (), last) ∧ last.wire = after.wire := by
  have hsame := e.negotiate_eq cookie info limit
  rcases hx : (e.hurried limit).exchange cookie info with ⟨_ | err | _ | _, last⟩
  all_goals rw [hdone, hx] at hsame
  · exact ⟨last, rfl, hsame.1.symm⟩
  all_goals cases hsame.2

/-- How far a client takes octets from its wire while it negotiates. -/
structure Positioned (cookie : Cookie) (info : SessionInfo) (e : Endpoint) : Prop where
  /-- However authentication ends, what is gone from the wire was given to the client, and
  behind that comes what is held. -/
  taken : e.wire.pending =
    ((e.handshakeIntake cookie).given ++ (e.handshake cookie).2.held) ++
      (e.handshake cookie).2.wire.pending
  /-- It has come in fills of no more than the window. -/
  fills : (e.handshakeIntake cookie).fills.flatten =
      (e.handshakeIntake cookie).given ++ (e.handshake cookie).2.held ∧
    ∀ fill ∈ (e.handshakeIntake cookie).fills, fill.length ≤ readAheadSize
  /-- Once the client was given the status of success it counts what the fill that brought
  it holds behind it; if that is nothing, all that is gone are the auth types and
  sixty-six octets. -/
  status : ∀ types hash ns, 0 ∉ types → hash.length = 32 → ns.length = 32 →
    (e.handshakeIntake cookie).given = acceptance types hash ns →
    ∃ earlier before behind,
      (e.handshakeIntake cookie).fills = earlier ++ [before ++ success :: behind] ∧
      acceptance types hash ns = earlier.flatten ++ before ++ [success] ∧
      (e.handshake cookie).1 = (if behind = [] then .done ()
        else .failed (.protocol (.trailingData behind.length))) ∧
      (behind = [] → e.wire.unread = types.length + 66 + (e.handshake cookie).2.wire.unread)
  /-- A client that has authenticated stands behind the status and reads nothing ahead. -/
  authenticated : ∀ after, e.authenticate cookie = (.done (), after) →
    after.Direct ∧ ∃ types ns, Offered types ∧ ns.length = 32 ∧
      e.wire.pending =
        acceptance types (serverHash cookie.secret e.supply.draw.1 ns) ns ++ after.wire.pending
  /-- A client that has negotiated stands behind one OKAY. -/
  negotiated : ∀ limit after, e.negotiate cookie info limit = (.done (), after) →
    ∃ types ns, Offered types ∧ ns.length = 32 ∧
      ∃ okay : Command, okay.id = .okay ∧ okay.body.length ≤ Command.maxBody ∧
        e.wire.pending = acceptance types (serverHash cookie.secret e.supply.draw.1 ns) ns ++
          (okay.octets ++ after.wire.pending) ∧
        e.wire.unread = types.length + 66 + (4 + okay.body.length) + after.wire.unread

/-- A client that has authenticated has taken an acceptance, and holds nothing. -/
theorem acceptance_of_handshake (hdone : e.handshake cookie = (.done (), after)) :
    after.held = [] ∧ ∃ types ns, Offered types ∧ ns.length = 32 ∧
      e.wire.pending =
        acceptance types (serverHash cookie.secret e.supply.draw.1 ns) ns ++ after.wire.pending := by
  obtain ⟨types, ns, offer, longNonce, hheld, -, hpending⟩ := handshake_done hdone
  refine ⟨hheld, types, ns, offer, longNonce, ?_⟩
  rw [hpending, acceptance]
  simp

/-- **No octet is lost.**  On any wire and whatever comes of it, each octet that is gone
from the wire is accounted for, and each later one is pending still, in order. -/
theorem stream_position (cookie : Cookie) (info : SessionInfo) (e : Endpoint) :
    e.Positioned cookie info where
  taken := by
    have haccounts := e.handshake_accounts cookie
    rw [← haccounts.held_append]
    exact haccounts.read
  fills := by
    have haccounts := e.handshake_accounts cookie
    exact ⟨haccounts.held_append, haccounts.bounded⟩
  status := by
    intro types hash ns nonzero longHash longNonce given
    have haccounts := e.handshake_accounts cookie
    have hresult := handshake_of_acceptance nonzero longHash longNonce given
    have hlast : acceptance types hash ns = (types ++ 0 :: (hash ++ ns)) ++ [success] := by
      simp [acceptance]
    obtain ⟨earlier, before, hfills, hbefore⟩ := haccounts.last_fill rfl (given.trans hlast)
    refine ⟨earlier, before, _, hfills, by rw [hlast, hbefore], hresult, ?_⟩
    intro hheld
    have hread : e.wire.pending =
        acceptance types hash ns ++ (e.handshake cookie).2.wire.pending := by
      have hpending := haccounts.pending
      rw [given, pending, pending, hheld] at hpending
      exact hpending
    rw [Wire.unread, hread, List.length_append, length_acceptance longHash longNonce]
    rfl
  authenticated := by
    intro after hdone
    rcases hh : e.handshake cookie with ⟨r, mid⟩
    simp only [authenticate, hh] at hdone
    obtain ⟨rfl, rfl⟩ := Prod.mk.inj hdone
    exact ⟨⟨rfl, rfl⟩, (acceptance_of_handshake hh).2⟩
  negotiated := by
    intro limit after hdone
    obtain ⟨last, hlast, hwire⟩ := negotiate_done hdone
    obtain ⟨mid, hmid, hsetup⟩ := exchange_done hlast
    obtain ⟨-, types, ns, offer, longNonce, hpending⟩ := acceptance_of_handshake hmid
    obtain ⟨okay, hokay, short, hreply⟩ := setup_done hsetup
    have hdirect : last.Direct := by
      have hheld : mid.dropAhead.Direct := ⟨rfl, rfl⟩
      have hlater := hheld.hold .setup info.setup
      rw [show info.setup.hold .setup mid.dropAhead = _ from hsetup] at hlater
      exact hlater
    have hread : e.wire.pending =
        acceptance types (serverHash cookie.secret e.supply.draw.1 ns) ns ++
          (okay.octets ++ after.wire.pending) := by
      rw [← hwire, ← hdirect.pending_eq, ← hreply]
      exact hpending
    refine ⟨types, ns, offer, longNonce, okay, hokay, short, hread, ?_⟩
    rw [Wire.unread, hread, List.length_append, List.length_append, Command.length_octets,
      length_acceptance (length_serverHash _ _ _) longNonce, Wire.unread]
    omega

/-- A client that a server with a cookie of zeros lets in and then accepts, by an OKAY with
a body that comes in one piece with an octet behind it.  All nonces are zero. -/
def accepted : Endpoint :=
  .ofWire (.ofArrivals [.data [2], .pause 4, .data [safeCookie, 0],
    .data (serverHash (Cookie.monotone 0).secret (Bytes.zeros 32) (Bytes.zeros 32)),
    .data (Bytes.zeros 32 ++ [success]), .data [0x10, 0, 0, 2, 5, 6, 7]]) (.fresh [])

/-- The client that is accepted stands behind the OKAY. -/
theorem accepted_position :
    ∃ after, accepted.negotiate (.monotone 0) .nearby 50 = (.done (), after) ∧
      ∃ types ns, Offered types ∧ ns.length = 32 ∧
        ∃ okay : Command, okay.id = .okay ∧ okay.body.length ≤ Command.maxBody ∧
          accepted.wire.pending = acceptance types
            (serverHash (Cookie.monotone 0).secret accepted.supply.draw.1 ns) ns ++
              (okay.octets ++ after.wire.pending) ∧
          accepted.wire.unread =
            types.length + 66 + (4 + okay.body.length) + after.wire.unread := by
  have hdone : (accepted.negotiate (.monotone 0) .nearby 50).1 = .done () := by decide +kernel
  refine ⟨_, Prod.ext hdone rfl, ?_⟩
  exact (stream_position (.monotone 0) .nearby accepted).negotiated 50 _ (Prod.ext hdone rfl)

end Endpoint

end ManagedTransport
