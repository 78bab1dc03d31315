import Mathlib.Order.WellFounded
import ManagedTransport.Proofs.Exhaustion
import ManagedTransport.Proofs.Standstill

/-!
# How an encounter ends

Whatever the order in which the two sides run, and however their octets are cut, a link
comes to rest, and in one way only: the cookies and the nonces decide in which.

* `Settled` — how a link is at rest: the server's hashes differ, or only the client's do,
  or both sides are done with what was to be announced;
* `Sound.resting` — a link on which nothing can happen any more is at rest, whatever the
  client was to announce;
* `Sound.settled` — such a link is settled, if the announcement fits;
* `Encounter.comes_to_rest` — every run of an encounter ends in a settled link.
-/

namespace ManagedTransport

open SafeCookie

namespace Party

variable {σ ρ : Type} {c : Course σ ρ} {isOpen : Bool} {p : Party σ ρ}

/-- The moves of a party that is done end where it is. -/
theorem Ends.finishes_over {r : ρ} (h : p.Ends isOpen (.done (.ended r))) :
    p.IsOver ∧ c.Finishes p (.done r, p.endpoint) := by
  obtain ⟨phase, d, e⟩ := p
  cases h with
  | ended rest =>
      cases rest
      exact ⟨.inl ⟨r, rfl⟩, .ended⟩

/-- The moves of a party that has given up end where it is. -/
theorem Ends.finishes_gaveUp {err : Error} (h : p.Ends isOpen (.gaveUp err)) :
    p.IsOver ∧ c.Finishes p (.failed err, p.endpoint) := by
  obtain ⟨phase, d, e⟩ := p
  cases h with
  | gaveUp rest =>
      cases rest
      exact ⟨.inr ⟨err, rfl⟩, .gaveUp⟩

/-- The moves of a party that is cut off end where it is, with a failure of the wire. -/
theorem Ends.finishes_cutOff (h : p.Ends false .waits) :
    p.IsOver ∧ ∃ f, c.Finishes p (.failed (.network (.io p.phase f)), p.endpoint) := by
  obtain ⟨phase, d, e⟩ := p
  cases h with
  | cutOff rest =>
      obtain ⟨f, rfl⟩ : ∃ f, d = .fail (.network (.io phase f)) := ⟨_, rest⟩
      exact ⟨.inr ⟨_, rfl⟩, _, .gaveUp⟩
  | waiting _ _ more => cases more

end Party

namespace Encounter

variable {x : Encounter} {l : Link}

/-- The nonce that the client draws. -/
def clientNonce (x : Encounter) : Bytes := x.clientSupply.draw.1

/-- The nonce that the relay draws. -/
def relayNonce (x : Encounter) : Bytes := x.relaySupply.draw.1

/-- The server's hash of the two nonces, with a cookie. -/
def serverProof (x : Encounter) (cookie : Cookie) : Bytes :=
  serverHash cookie.secret x.clientNonce x.relayNonce

/-- The client's hash of the two nonces, with a cookie. -/
def clientProof (x : Encounter) (cookie : Cookie) : Bytes :=
  clientHash cookie.secret x.clientNonce x.relayNonce

/-- Both sides are over, and nothing is under way between them. -/
structure Settled (x : Encounter) (l : Link) : Prop where
  clientOver : l.client.IsOver
  relayOver : l.relay.IsOver
  nothingToRelay : l.toRelay.flight = []
  nothingToClient : l.toClient.flight = []
  /-- If the server's hashes differ the client gives up, having sent its nonce and no
  more, and the relay is cut off while it authenticates. -/
  strangeServer : x.serverProof x.clientCookie ≠ x.serverProof x.relayCookie →
    x.ClientEnds l (.failed (.auth .serverHashMismatch)) ∧
      l.client.sent = safeCookie :: x.clientNonce ∧ l.client.sent.length = 33 ∧
      ∃ f, x.RelayEnds l (.failed (.network (.io .authentication f)))
  /-- If only the client's hashes differ the relay gives up, and the client learns so. -/
  strangeClient : x.serverProof x.clientCookie = x.serverProof x.relayCookie →
    x.clientProof x.clientCookie ≠ x.clientProof x.relayCookie →
    x.ClientEnds l (.failed (.auth (.statusRejected failure.toNat))) ∧
      x.RelayEnds l (.failed (.auth .clientHashMismatch))
  /-- If the hashes agree, as they do if the cookies are the same, the relay has heard
  what was announced, the client has the verdict, and no octet is left over. -/
  agreed : x.serverProof x.clientCookie = x.serverProof x.relayCookie →
    x.clientProof x.clientCookie = x.clientProof x.relayCookie →
    x.RelayEnds l (.done ⟨some x.info.userAddr.text, some x.info.method⟩) ∧
      x.ClientEnds l (if x.accept then .done () else .failed (.auth .denied)) ∧
      l.client.endpoint.pending = [] ∧ l.relay.endpoint.pending = []

/-- How a link is on which nothing can happen any more: nothing is under way, a side that
is over is known to be so, and the two agree. -/
structure Resting (x : Encounter) (l : Link) : Prop where
  nothingToRelay : l.toRelay.flight = []
  nothingToClient : l.toClient.flight = []
  closed : l.client.IsOver → l.toRelay.isOpen = false
  agreed : ∃ m m2, l.client.Ends l.toClient.isOpen m ∧ l.relay.Ends l.toRelay.isOpen m2 ∧
    Agreed x x.clientNonce x.relayNonce l.client.endpoint.pending l.relay.endpoint.pending
      l.client.sent m l.relay.phase m2

/-- A link on which nothing can happen any more is at rest. -/
theorem Sound.resting (hs : x.Sound l) (hrest : ∀ l2, ¬ x.Step l l2) : x.Resting l := by
  have hnothingR : l.toRelay.flight = [] :=
    Decidable.byContradiction fun hne => hrest _ (.toRelay hne (List.append_nil _).symm)
  have hnothingC : l.toClient.flight = [] :=
    Decidable.byContradiction fun hne => hrest _ (.toClient hne (List.append_nil _).symm)
  refine ⟨hnothingR, hnothingC, ?_, ?_⟩
  · intro hover
    cases hopen : l.toRelay.isOpen with
    | false => rfl
    | true => exact absurd (.closeToRelay hover hnothingR hopen) (hrest _)
  obtain ⟨cameC, hfollowsC, -, hsentR⟩ := hs.client
  obtain ⟨cameR, hfollowsR, -, hsentC⟩ := hs.relay
  rw [hnothingC, List.append_nil] at hsentR
  rw [hnothingR, List.append_nil] at hsentC
  obtain ⟨m, h, hat, hfits, hends⟩ := hfollowsC.ends fun q hlead => hrest _ (.client hlead)
  obtain ⟨m2, h2, hat2, hfits2, hends2⟩ := hfollowsR.ends fun q hlead => hrest _ (.relay hlead)
  have hsaid : h.said = cameR := hfits.said.symm.trans hsentC
  have hsaid2 : h2.said = cameC := hfits2.said.symm.trans hsentR
  -- first the relay's offer, then the client's nonce, and then what the relay made of it
  obtain ⟨toldC, htoldC⟩ := hat2.offers hends2
  have hclient := hat.stands hends hfits (hsaid2.symm.trans htoldC)
  obtain ⟨toldR, htoldR⟩ := hclient.speaks
  obtain ⟨saidR, hsaidR, hrelay⟩ := hat2.stands hends2 hfits2 (hsaid.symm.trans htoldR)
    (Supply.length_block _ _)
  have htold : toldC = serverHash x.relayCookie.secret x.clientNonce x.relayNonce ++
      (x.relayNonce ++ saidR) :=
    (List.cons.inj (List.cons.inj (htoldC.symm.trans hsaidR)).2).2
  have hagreed := agreed_of_stands hclient hrelay (Supply.length_block _ _) htold htoldR
  rw [hsaid, ← hsentC] at hagreed
  exact ⟨m, m2, hends, hends2, hagreed⟩

/-- **A link on which nothing can happen any more is settled.** -/
theorem Sound.settled (fits : x.info.Fits) (hs : x.Sound l) (hrest : ∀ l2, ¬ x.Step l l2) :
    x.Settled l := by
  obtain ⟨hnothingR, hnothingC, hclosedR, m, m2, hends, hends2, hagreed⟩ := hs.resting hrest
  generalize hphase : l.relay.phase = phase at hagreed
  cases hagreed with
  | strangeServer differ speaks =>
      obtain ⟨hover, hfinish⟩ := hends.finishes_gaveUp
      rw [hclosedR hover] at hends2
      obtain ⟨hover2, f, hfinish2⟩ := hends2.finishes_cutOff
      rw [hphase] at hfinish2
      refine ⟨hover, hover2, hnothingR, hnothingC, fun _ => ?_, fun same => absurd same differ,
        fun same => absurd same differ⟩
      refine ⟨hs.client_ends nofun hfinish, speaks, ?_, f, hs.relay_ends hfinish2⟩
      rw [speaks, List.length_cons, clientNonce, Supply.draw_fst, Supply.length_block]
  | strangeClient same differ =>
      obtain ⟨hover, hfinish⟩ := hends.finishes_gaveUp
      obtain ⟨hover2, hfinish2⟩ := hends2.finishes_gaveUp
      exact ⟨hover, hover2, hnothingR, hnothingC, fun differ2 => absurd same differ2,
        fun _ _ => ⟨hs.client_ends nofun hfinish, hs.relay_ends hfinish2⟩,
        fun _ sameProof => absurd sameProof differ⟩
  | through same sameProof now now2 heardR heardC =>
      obtain ⟨hm, rfl, nothing, nothing2⟩ :=
        setup_through fits now now2 hends hends2 heardR heardC
      rw [hm] at hends
      obtain ⟨hover2, hfinish2⟩ := hends2.finishes_over
      have hverdict : l.client.IsOver ∧ x.clientCourse.Finishes l.client
          (if x.accept then .done () else .failed (.auth .denied), l.client.endpoint) := by
        cases haccept : x.accept with
        | true =>
            rw [verdictMoment, haccept, if_pos rfl] at hends
            exact hends.finishes_over
        | false =>
            rw [verdictMoment, haccept, if_neg Bool.false_ne_true] at hends
            exact hends.finishes_gaveUp
      exact ⟨hverdict.1, hover2, hnothingR, hnothingC, fun differ => absurd same differ,
        fun _ differ => absurd sameProof differ, fun _ _ => ⟨hs.relay_ends hfinish2,
          hs.client_ends (by split <;> nofun) hverdict.2, nothing, nothing2⟩⟩

/-- **A link is reached on which nothing can happen any more.** -/
theorem exists_resting (x : Encounter) :
    ∃ l, x.Reaches x.start l ∧ ∀ l2, ¬ x.Step l l2 := by
  obtain ⟨l, hreach, hlast⟩ := x.step_wf.has_min {l | x.Reaches x.start l} ⟨_, .refl⟩
  exact ⟨l, hreach, fun l2 hstep => hlast l2 (hreach.tail hstep) hstep⟩

/-- **Every run of an encounter ends, and in a settled link**: nothing goes on for ever,
and a link that is reached is settled or something can happen on it. -/
theorem comes_to_rest (x : Encounter) (fits : x.info.Fits) :
    (WellFounded fun l2 l => x.Step l l2) ∧
      ∀ l, x.Reaches x.start l → (∃ l2, x.Step l l2) ∨ x.Settled l := by
  refine ⟨x.step_wf, ?_⟩
  intro l hreach
  by_cases hstep : ∃ l2, x.Step l l2
  · exact .inl hstep
  · exact .inr (hreach.sound.settled fits fun l2 h => hstep ⟨l2, h⟩)

/-- A client and a relay with a cookie of zeros. -/
def greeting : Encounter where
  clientCookie := ⟨Bytes.zeros 32, rfl⟩
  relayCookie := ⟨Bytes.zeros 32, rfl⟩
  info := ⟨.v4 ⟨192, 0, 2, 7⟩ 443, "obfs4"⟩
  accept := true
  clientSupply := .fresh [1]
  relaySupply := .fresh [2]

theorem greeting_comes_to_rest : greeting.info.Fits ∧
    ∃ l, greeting.Reaches greeting.start l ∧
      greeting.RelayEnds l (.done ⟨some "192.0.2.7:443", some "obfs4"⟩) ∧
      greeting.ClientEnds l (.done ()) ∧
      l.client.endpoint.pending = [] ∧ l.relay.endpoint.pending = [] := by
  have fits : greeting.info.Fits := by decide
  obtain ⟨hends, hrest⟩ := comes_to_rest greeting fits
  obtain ⟨l, hreach, hlast⟩ := hends.has_min {l | greeting.Reaches greeting.start l} ⟨_, .refl⟩
  refine ⟨fits, l, hreach, ?_⟩
  rcases hrest l hreach with ⟨l2, hstep⟩ | hsettled
  · exact absurd hstep (hlast l2 (hreach.tail hstep))
  · exact hsettled.agreed rfl rfl

end Encounter

end ManagedTransport
